import EagerLoad.Proofs.Description.Quoted

/-!
# Texts of descriptions

Descriptions whose names are words and whose leaves are words or quoted texts have different texts if they
differ, and the text of one can be told from what follows it inside another.
-/

namespace EagerLoad.Description

/-- A character of words; the others make up the structure of a text. -/
def isPlain (c : Char) : Bool :=
  c ∉ ['"', '(', ')', '[', ']', '\x7b', '\x7d', ',', ' ']

/-- Whether a text is a word. -/
def isWord (s : String) : Bool :=
  s.toList ≠ [] && s.toList.all isPlain

/-- A label before brackets or braces: none, or a word with a blank. -/
def IsLabel (label : String) : Prop :=
  label = "" ∨ ∃ word, isWord word = true ∧ label = word ++ " "

/-- A description with words for names, and words or quoted texts for leaves. -/
inductive Clear : Description → Prop where
  | word {s : String} : isWord s = true → Clear (.atom s)
  | quoted (s : String) : Clear (.atom (quote s))
  | tuple {name : String} {arguments : List Description} :
    isWord name = true → (∀ d ∈ arguments, Clear d) → Clear (.tuple name arguments)
  | record {name : String} {fields : List (String × Description)} :
    isWord name = true → (∀ field ∈ fields, isWord field.1 = true ∧ ':' ∉ field.1.toList) →
      (∀ field ∈ fields, Clear field.2) → Clear (.record name fields)
  | sequence {label : String} {items : List Description} :
    IsLabel label → (∀ d ∈ items, Clear d) → Clear (.sequence label items)
  | dictionary {label : String} {entries : List (String × Description)} :
    IsLabel label → (∀ entry ∈ entries, Clear entry.2) → Clear (.dictionary label entries)

/-- The characters of a description. -/
def chars (d : Description) : List Char :=
  d.text.toList

/-- The characters of a field. -/
def fieldChars (field : String × Description) : List Char :=
  field.1.toList ++ ':' :: ' ' :: field.2.chars

/-- The characters of an entry. -/
def entryChars (entry : String × Description) : List Char :=
  (quote entry.1).toList ++ ':' :: ' ' :: entry.2.chars

/-- Characters with commas between them. -/
def joined (items : List (List Char)) : List Char :=
  [',', ' '].intercalate items

section Chars

variable {name label : String}

theorem texts_eq_map (ds : List Description) : texts ds = ds.map text := by
  induction ds with
  | nil => rfl
  | cons d rest ih => rw [texts, ih, List.map_cons]

theorem fieldTexts_eq_map (fields : List (String × Description)) :
    fieldTexts fields = fields.map fun field => field.1 ++ ": " ++ field.2.text := by
  induction fields with
  | nil => rfl
  | cons field rest ih => rw [fieldTexts, ih, List.map_cons]

theorem entryTexts_eq_map (entries : List (String × Description)) :
    entryTexts entries = entries.map fun entry => quote entry.1 ++ ": " ++ entry.2.text := by
  induction entries with
  | nil => rfl
  | cons entry rest ih => rw [entryTexts, ih, List.map_cons]

theorem chars_tuple (arguments : List Description) (rest : List Char) :
    (tuple name arguments).chars ++ rest =
      name.toList ++ '(' :: (joined (arguments.map chars) ++ ')' :: rest) := by
  simp [chars, text, texts_eq_map, joined, String.toList_intercalate, Function.comp_def]
  rfl

theorem chars_record (fields : List (String × Description)) (rest : List Char) :
    (record name fields).chars ++ rest = name.toList ++
      ' ' :: '\x7b' :: ' ' :: (joined (fields.map fieldChars) ++ ' ' :: '\x7d' :: rest) := by
  simp [chars, text, fieldTexts_eq_map, joined, String.toList_intercalate, Function.comp_def]
  rfl

theorem chars_sequence (items : List Description) (rest : List Char) :
    (sequence label items).chars ++ rest =
      label.toList ++ '[' :: (joined (items.map chars) ++ ']' :: rest) := by
  simp [chars, text, texts_eq_map, joined, String.toList_intercalate, Function.comp_def]
  rfl

theorem chars_dictionary (entries : List (String × Description)) (rest : List Char) :
    (dictionary label entries).chars ++ rest =
      label.toList ++ '\x7b' :: (joined (entries.map entryChars) ++ '\x7d' :: rest) := by
  simp [chars, text, entryTexts_eq_map, joined, String.toList_intercalate, Function.comp_def]
  rfl

end Chars

/-- What follows the last of several descriptions. -/
inductive Closes : List Char → Prop where
  | parenthesis (rest : List Char) : Closes (')' :: rest)
  | bracket (rest : List Char) : Closes (']' :: rest)
  | brace (rest : List Char) : Closes ('\x7d' :: rest)
  | blank (rest : List Char) : Closes (' ' :: '\x7d' :: rest)

/-- What follows a description. -/
inductive Stops : List Char → Prop where
  | nil : Stops []
  | comma (rest : List Char) : Stops (',' :: rest)
  | closing {rest : List Char} : Closes rest → Stops rest

/-- Whether a character stands at the front of a description. -/
def isFirst (c : Char) : Bool :=
  isPlain c || c ∈ ['"', '[', '\x7b']

/-- What descriptions start with. -/
def Starts (cs : List Char) : Prop :=
  ∃ c rest, cs = c :: rest ∧ isFirst c = true

section Unique

variable {α : Type} {f : α → List Char} {xs ys : List α} {tail tail' : List Char}

theorem Starts.append {cs : List Char} (h : Starts cs) (rest : List Char) : Starts (cs ++ rest) := by
  obtain ⟨c, later, rfl, hc⟩ := h
  exact ⟨c, later ++ rest, rfl, hc⟩

theorem Starts.not_closes (h : Starts tail) : ¬ Closes tail := by
  obtain ⟨c, rest, rfl, hc⟩ := h
  intro hcloses
  cases hcloses <;> cases hc

/-- The first of several descriptions, with what follows it. -/
theorem joined_cons (a : α) (rest : List α) (tail : List Char) :
    joined ((a :: rest).map f) ++ tail =
      f a ++ if rest.isEmpty then tail else ',' :: ' ' :: (joined (rest.map f) ++ tail) := by
  cases rest with
  | nil => simp [joined]
  | cons b rest => simp [joined]

/-- If items are told from what follows them, so are lists of them with commas. -/
theorem joined_unique (hunique : ∀ a ∈ xs, ∀ b ∈ ys, ∀ rest rest', Stops rest → Stops rest' →
      f a ++ rest = f b ++ rest' → a = b ∧ rest = rest')
    (hxs : ∀ a ∈ xs, Starts (f a)) (hys : ∀ b ∈ ys, Starts (f b)) (htail : Closes tail)
    (htail' : Closes tail') (h : joined (xs.map f) ++ tail = joined (ys.map f) ++ tail') :
    xs = ys ∧ tail = tail' := by
  have hstops (rest : List α) {tail : List Char} (htail : Closes tail) :
      Stops (if rest.isEmpty then tail else ',' :: ' ' :: (joined (rest.map f) ++ tail)) := by
    split
    · exact .closing htail
    · exact .comma _
  induction xs generalizing ys with
  | nil =>
    cases ys with
    | nil => exact ⟨rfl, h⟩
    | cons b rest' =>
      rw [joined_cons] at h
      have hstarts := (hys b List.mem_cons_self).append
        (if rest'.isEmpty then tail' else ',' :: ' ' :: (joined (rest'.map f) ++ tail'))
      rw [← h] at hstarts
      exact absurd htail hstarts.not_closes
  | cons a rest ih =>
    cases ys with
    | nil =>
      rw [joined_cons] at h
      have hstarts := (hxs a List.mem_cons_self).append
        (if rest.isEmpty then tail else ',' :: ' ' :: (joined (rest.map f) ++ tail))
      rw [h] at hstarts
      exact absurd htail' hstarts.not_closes
    | cons b rest' =>
      rw [joined_cons, joined_cons] at h
      obtain ⟨rfl, hrest⟩ := hunique a List.mem_cons_self b List.mem_cons_self _ _
        (hstops rest htail) (hstops rest' htail') h
      cases rest with
      | nil =>
        cases rest' with
        | nil => exact ⟨rfl, hrest⟩
        | cons c later =>
          obtain rfl : tail = _ := hrest
          cases htail
      | cons c later =>
        cases rest' with
        | nil =>
          obtain rfl : _ = tail' := hrest
          cases htail'
        | cons d later' =>
          have hlater := (List.cons.inj (List.cons.inj hrest).2).2
          obtain ⟨hitems, htails⟩ := ih
            (fun a ha b hb => hunique a (List.mem_cons_of_mem _ ha) b (List.mem_cons_of_mem _ hb))
            (fun a ha => hxs a (List.mem_cons_of_mem _ ha))
            (fun b hb => hys b (List.mem_cons_of_mem _ hb)) hlater
          exact ⟨by rw [hitems], htails⟩

end Unique

/-- How a text goes on after its first word. -/
inductive Kind where
  | leaf
  | tuple
  | record
  | sequence
  | dictionary

/-- The kind of a description. -/
def kind : Description → Kind
  | .atom _ => .leaf
  | .tuple _ _ => .tuple
  | .record _ _ => .record
  | .sequence _ _ => .sequence
  | .dictionary _ _ => .dictionary

/-- The kind that characters show. -/
def kindOf (cs : List Char) : Kind :=
  match cs.dropWhile isPlain with
  | '(' :: _ => .tuple
  | '[' :: _ => .sequence
  | ' ' :: '[' :: _ => .sequence
  | '\x7b' :: _ => .dictionary
  | ' ' :: '\x7b' :: ' ' :: _ => .record
  | ' ' :: '\x7b' :: _ => .dictionary
  | _ => .leaf

theorem plain_of_isWord {s : String} (h : isWord s = true) : ∀ c ∈ s.toList, isPlain c = true := by
  simp only [isWord, Bool.and_eq_true, List.all_eq_true] at h
  exact h.2

/-- A word is told from what follows it. -/
theorem span_word {s : String} (h : isWord s = true) {rest : List Char}
    (hrest : ∀ c ∈ rest.head?, isPlain c = false) :
    (s.toList ++ rest).takeWhile isPlain = s.toList ∧ (s.toList ++ rest).dropWhile isPlain = rest :=
  span_front (plain_of_isWord h) hrest

theorem Stops.head {rest : List Char} (h : Stops rest) : ∀ c ∈ rest.head?, isPlain c = false := by
  cases h with
  | nil => simp
  | comma => simp [isPlain]
  | closing h => cases h <;> simp [isPlain]

/-- The text of a description shows its kind. -/
theorem Clear.kindOf_chars {d : Description} (h : Clear d) {rest : List Char} (hrest : Stops rest) :
    kindOf (d.chars ++ rest) = d.kind := by
  cases h with
  | word h =>
    rw [kindOf, chars, text, (span_word h hrest.head).2]
    cases hrest with
    | nil => rfl
    | comma => rfl
    | closing h => cases h <;> rfl
  | quoted s =>
    rw [kindOf, chars, text, toList_quote]
    rfl
  | tuple h _ =>
    rw [kindOf, chars_tuple, (span_word h (by simp [isPlain])).2]
    rfl
  | record h _ _ =>
    rw [kindOf, chars_record, (span_word h (by simp [isPlain])).2]
    rfl
  | sequence h _ =>
    rw [kindOf, chars_sequence]
    rcases h with rfl | ⟨word, hword, rfl⟩
    · rfl
    · rw [String.toList_append, List.append_assoc, (span_word hword (by simp [isPlain])).2]
      rfl
  | @dictionary label entries h _ =>
    rw [kindOf, chars_dictionary]
    rcases h with rfl | ⟨word, hword, rfl⟩
    · rfl
    · rw [String.toList_append, List.append_assoc, (span_word hword (by simp [isPlain])).2]
      cases entries with
      | nil => rfl
      | cons entry later =>
        rw [joined_cons, entryChars, toList_quote]
        rfl

/-- Descriptions with the same text are of the same kind. -/
theorem Clear.kind_eq {d e : Description} (hd : Clear d) (he : Clear e) {rest rest' : List Char}
    (hrest : Stops rest) (hrest' : Stops rest') (h : d.chars ++ rest = e.chars ++ rest') :
    d.kind = e.kind := by
  rw [← hd.kindOf_chars hrest, ← he.kindOf_chars hrest', h]

theorem starts_word {s : String} (h : isWord s = true) : Starts s.toList := by
  have hplain := plain_of_isWord h
  simp only [isWord, Bool.and_eq_true, decide_eq_true_eq] at h
  cases hs : s.toList with
  | nil => exact absurd hs h.1
  | cons c rest =>
    rw [hs] at hplain
    exact ⟨c, rest, rfl, by simp [isFirst, hplain c List.mem_cons_self]⟩

theorem Clear.starts {d : Description} (h : Clear d) : Starts d.chars := by
  rw [← List.append_nil d.chars]
  cases h with
  | word h => exact (starts_word h).append []
  | quoted s => exact ⟨'"', _, congrArg (· ++ []) (toList_quote s), rfl⟩
  | tuple h _ =>
    rw [chars_tuple]
    exact (starts_word h).append _
  | record h _ _ =>
    rw [chars_record]
    exact (starts_word h).append _
  | sequence h _ =>
    rw [chars_sequence]
    rcases h with rfl | ⟨word, hword, rfl⟩
    · exact ⟨'[', _, rfl, rfl⟩
    · rw [String.toList_append, List.append_assoc]
      exact (starts_word hword).append _
  | dictionary h _ =>
    rw [chars_dictionary]
    rcases h with rfl | ⟨word, hword, rfl⟩
    · exact ⟨'\x7b', _, rfl, rfl⟩
    · rw [String.toList_append, List.append_assoc]
      exact (starts_word hword).append _

/-- Words are told from what follows them. -/
theorem word_unique {s t : String} (hs : isWord s = true) (ht : isWord t = true) {rest rest' : List Char}
    (hrest : ∀ c ∈ rest.head?, isPlain c = false) (hrest' : ∀ c ∈ rest'.head?, isPlain c = false)
    (h : s.toList ++ rest = t.toList ++ rest') : s = t ∧ rest = rest' := by
  obtain ⟨htake, hdrop⟩ := span_word hs hrest
  obtain ⟨htake', hdrop'⟩ := span_word ht hrest'
  refine ⟨String.toList_inj.mp ?_, ?_⟩
  · rw [← htake, h, htake']
  · rw [← hdrop, h, hdrop']

/-- Labels are told from the bracket or brace behind them. -/
theorem label_unique {label label' : String} (hlabel : IsLabel label) (hlabel' : IsLabel label')
    {c : Char} (hc : isPlain c = false) (hblank : c ≠ ' ') {rest rest' : List Char}
    (h : label.toList ++ c :: rest = label'.toList ++ c :: rest') : label = label' ∧ rest = rest' := by
  have hword {word : String} (hword : isWord word = true) (rest : List Char) :
      ((word ++ " ").toList ++ c :: rest).dropWhile isPlain = ' ' :: c :: rest := by
    rw [String.toList_append, List.append_assoc, (span_word hword (by simp [isPlain])).2]
    rfl
  have hnone (rest : List Char) : ("".toList ++ c :: rest).dropWhile isPlain = c :: rest :=
    List.dropWhile_cons_of_neg (by simp [hc])
  have hdrop := congrArg (List.dropWhile isPlain) h
  rcases hlabel with rfl | ⟨word, hplain, rfl⟩ <;> rcases hlabel' with rfl | ⟨word', hplain', rfl⟩
  · exact ⟨rfl, (List.cons.inj h).2⟩
  · rw [hnone, hword hplain'] at hdrop
    exact absurd (List.cons.inj hdrop).1 hblank
  · rw [hnone, hword hplain] at hdrop
    exact absurd (List.cons.inj hdrop).1.symm hblank
  · rw [String.toList_append, String.toList_append, List.append_assoc, List.append_assoc] at h
    obtain ⟨rfl, hrest⟩ := word_unique hplain hplain' (by simp [isPlain]) (by simp [isPlain]) h
    exact ⟨rfl, (List.cons.inj (List.cons.inj hrest).2).2⟩

/-- Fields are told from what follows them if their values are. -/
theorem field_unique {field field' : String × Description} (hcolon : ':' ∉ field.1.toList)
    (hcolon' : ':' ∉ field'.1.toList) {rest rest' : List Char}
    (hvalue : field.2.chars ++ rest = field'.2.chars ++ rest' → field.2 = field'.2 ∧ rest = rest')
    (h : fieldChars field ++ rest = fieldChars field' ++ rest') : field = field' ∧ rest = rest' := by
  simp only [fieldChars, List.append_assoc, List.cons_append] at h
  have hname : field.1 = field'.1 := by
    rw [← String.toList_inj, ← (span_until hcolon _).1, h, (span_until hcolon' _).1]
  rw [hname] at h
  obtain ⟨hdescription, hrest⟩ := hvalue (List.cons.inj (List.cons.inj (List.append_cancel_left h)).2).2
  exact ⟨Prod.ext hname hdescription, hrest⟩

/-- Entries are told from what follows them if their values are. -/
theorem entry_unique {entry entry' : String × Description} {rest rest' : List Char}
    (hvalue : entry.2.chars ++ rest = entry'.2.chars ++ rest' → entry.2 = entry'.2 ∧ rest = rest')
    (h : entryChars entry ++ rest = entryChars entry' ++ rest') : entry = entry' ∧ rest = rest' := by
  simp only [entryChars, List.append_assoc, List.cons_append] at h
  obtain ⟨hkey, hlater⟩ := quote_unique h
  obtain ⟨hdescription, hrest⟩ := hvalue (List.cons.inj (List.cons.inj hlater).2).2
  exact ⟨Prod.ext hkey hdescription, hrest⟩

/-- A word is no quoted text. -/
theorem word_ne_quote {s : String} (hs : isWord s = true) (t : String) (rest rest' : List Char) :
    s.toList ++ rest ≠ (quote t).toList ++ rest' := by
  obtain ⟨c, later, hchars, hc⟩ := starts_word hs
  have hplain := plain_of_isWord hs c (by simp [hchars])
  rw [hchars, toList_quote]
  intro h
  rw [(List.cons.inj h).1] at hplain
  cases hplain

/-- An entry starts with the quote of its key. -/
theorem starts_entry (entry : String × Description) : Starts (entryChars entry) := by
  rw [entryChars, toList_quote]
  exact ⟨'"', _, rfl, rfl⟩

/-- A description is told from what follows it. -/
theorem Clear.unique {d e : Description} (hd : Clear d) (he : Clear e) {rest rest' : List Char}
    (hrest : Stops rest) (hrest' : Stops rest') (h : d.chars ++ rest = e.chars ++ rest') :
    d = e ∧ rest = rest' := by
  have hkind := hd.kind_eq he hrest hrest' h
  induction hd generalizing e rest rest' with
  | @word s hs =>
    cases he with
    | @word t ht =>
      obtain ⟨rfl, hrest⟩ := word_unique hs ht hrest.head hrest'.head h
      exact ⟨rfl, hrest⟩
    | quoted t => exact absurd h (word_ne_quote hs t rest rest')
    | _ => cases hkind
  | quoted s =>
    cases he with
    | word ht => exact absurd h.symm (word_ne_quote ht s rest' rest)
    | quoted t =>
      obtain ⟨rfl, hrest⟩ := quote_unique h
      exact ⟨rfl, hrest⟩
    | _ => cases hkind
  | @tuple name arguments hname hclear ih =>
    cases he with
    | @tuple name' arguments' hname' hclear' =>
      rw [chars_tuple, chars_tuple] at h
      obtain ⟨rfl, hlater⟩ := word_unique hname hname' (by simp [isPlain]) (by simp [isPlain]) h
      obtain ⟨rfl, htail⟩ := joined_unique
        (fun a ha b hb r r' hr hr' hab => ih a ha (hclear' b hb) hr hr' hab
          ((hclear a ha).kind_eq (hclear' b hb) hr hr' hab))
        (fun a ha => (hclear a ha).starts) (fun b hb => (hclear' b hb).starts)
        (.parenthesis rest) (.parenthesis rest') (List.cons.inj hlater).2
      exact ⟨rfl, (List.cons.inj htail).2⟩
    | _ => cases hkind
  | @record name fields hname hfields hclear ih =>
    cases he with
    | @record name' fields' hname' hfields' hclear' =>
      rw [chars_record, chars_record] at h
      obtain ⟨rfl, hlater⟩ := word_unique hname hname' (by simp [isPlain]) (by simp [isPlain]) h
      have hitems := (List.cons.inj (List.cons.inj (List.cons.inj hlater).2).2).2
      obtain ⟨rfl, htail⟩ := joined_unique
        (fun a ha b hb r r' hr hr' hab => field_unique (hfields a ha).2 (hfields' b hb).2
          (fun hab => ih a ha (hclear' b hb) hr hr' hab
            ((hclear a ha).kind_eq (hclear' b hb) hr hr' hab)) hab)
        (fun a ha => (starts_word (hfields a ha).1).append _)
        (fun b hb => (starts_word (hfields' b hb).1).append _)
        (.blank rest) (.blank rest') hitems
      exact ⟨rfl, (List.cons.inj (List.cons.inj htail).2).2⟩
    | _ => cases hkind
  | @sequence label items hlabel hclear ih =>
    cases he with
    | @sequence label' items' hlabel' hclear' =>
      rw [chars_sequence, chars_sequence] at h
      obtain ⟨rfl, hitems⟩ := label_unique hlabel hlabel' (by decide) (by decide) h
      obtain ⟨rfl, htail⟩ := joined_unique
        (fun a ha b hb r r' hr hr' hab => ih a ha (hclear' b hb) hr hr' hab
          ((hclear a ha).kind_eq (hclear' b hb) hr hr' hab))
        (fun a ha => (hclear a ha).starts) (fun b hb => (hclear' b hb).starts)
        (.bracket rest) (.bracket rest') hitems
      exact ⟨rfl, (List.cons.inj htail).2⟩
    | _ => cases hkind
  | @dictionary label entries hlabel hclear ih =>
    cases he with
    | @dictionary label' entries' hlabel' hclear' =>
      rw [chars_dictionary, chars_dictionary] at h
      obtain ⟨rfl, hitems⟩ := label_unique hlabel hlabel' (by decide) (by decide) h
      obtain ⟨rfl, htail⟩ := joined_unique
        (fun a ha b hb r r' hr hr' hab => entry_unique (fun hab => ih a ha (hclear' b hb) hr hr' hab
          ((hclear a ha).kind_eq (hclear' b hb) hr hr' hab)) hab)
        (fun a _ => starts_entry a) (fun b _ => starts_entry b)
        (.brace rest) (.brace rest') hitems
      exact ⟨rfl, (List.cons.inj htail).2⟩
    | _ => cases hkind

/-- Descriptions with the same text are equal. -/
theorem Clear.eq_of_text {d e : Description} (hd : Clear d) (he : Clear e) (h : d.text = e.text) :
    d = e :=
  (hd.unique he .nil .nil (congrArg (fun s => s.toList ++ []) h)).1

end EagerLoad.Description
