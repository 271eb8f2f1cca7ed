import EagerLoad.Sql.Query
import Mathlib.Data.List.Chain
import Std.Data.String.ToNat

/-!
# Lexemes of statements

The text of a statement is read by the lexical rules of SQL: an identifier stands between double quotes,
where a doubled quote is a quote, and outside of these a dollar sign starts a placeholder. Pieces that fit
together are read off the text that they are written to one by one, whatever identifiers hold, and their
values are the parameters to which the placeholders point.
-/

namespace EagerLoad.Sql

/-- What the text of a statement is made of. -/
inductive Lexeme where
  /-- A keyword or a number. -/
  | word (text : String)
  | operator (text : String)
  | mark (c : Char)
  /-- An identifier, without its quotes. -/
  | name (text : String)
  | placeholder (number : Nat)
  /-- The value of a placeholder. -/
  | value (v : Value)

namespace Lexeme

/-- The number of a placeholder. -/
def number? : Lexeme → Option Nat
  | .placeholder number => some number
  | _ => none

/-- A placeholder with a parameter becomes the parameter. -/
def bind (params : List Value) : Lexeme → Lexeme
  | .placeholder (i + 1) =>
    match params[i]? with
    | some v => .value v
    | none => .placeholder (i + 1)
  | l => l

theorem bind_of_number? {params : List Value} {l : Lexeme} (h : l.number? = none) :
    l.bind params = l := by
  cases l <;> first | rfl | cases h

end Lexeme

/-- Whether a character is part of a keyword or a number. -/
def isWordChar (c : Char) : Bool :=
  c.isAlphanum || c = '_'

/-- Whether a character is part of an operator. -/
def isOperatorChar (c : Char) : Bool :=
  c ∈ ['=', '<', '>', '!', '+', '-', '/', '%', '^', '|', '&', '~', '#', '@']

/-- The lexeme at which reading stands, with its characters so far; the last one comes first. -/
inductive Reading where
  /-- Between lexemes. -/
  | between
  | word (read : List Char)
  | operator (read : List Char)
  | placeholder (read : List Char)
  | quoted (read : List Char)
  /-- After a quote in an identifier, which ends it unless another quote follows. -/
  | closing (read : List Char)

namespace Reading

/-- The lexeme that ends here. -/
def finish : Reading → List Lexeme
  | .between => []
  | .word read => [.word (String.ofList read.reverse)]
  | .operator read => [.operator (String.ofList read.reverse)]
  | .placeholder read => [.placeholder (Nat.ofDigitChars 10 read.reverse 0)]
  | .quoted read => [.name (String.ofList read.reverse)]
  | .closing read => [.name (String.ofList read.reverse)]

/-- The lexeme goes on with a character, or ends before it. -/
def goOn? : Reading → Char → Option Reading
  | .between, _ => none
  | .word read, c => if isWordChar c then some (.word (c :: read)) else none
  | .operator read, c => if isOperatorChar c then some (.operator (c :: read)) else none
  | .placeholder read, c => if c.isDigit then some (.placeholder (c :: read)) else none
  | .quoted read, c => some (if c = '"' then .closing read else .quoted (c :: read))
  | .closing read, c => if c = '"' then some (.quoted (c :: read)) else none

/-- What a character starts, with the lexeme that it is by itself. -/
def start (c : Char) : List Lexeme × Reading :=
  if c = '"' then ([], .quoted [])
  else if c = '$' then ([], .placeholder [])
  else if isWordChar c then ([], .word [c])
  else if isOperatorChar c then ([], .operator [c])
  else if c.isWhitespace then ([], .between)
  else ([.mark c], .between)

/-- Read one more character, after some lexemes. -/
def step (s : List Lexeme × Reading) (c : Char) : List Lexeme × Reading :=
  match s.2.goOn? c with
  | some reading => (s.1, reading)
  | none => (s.1 ++ s.2.finish ++ (start c).1, (start c).2)

/-- Read characters. -/
def run (s : List Lexeme × Reading) (cs : List Char) : List Lexeme × Reading :=
  cs.foldl step s

theorem run_eq (out : List Lexeme) (r : Reading) (cs : List Char) :
    run (out, r) cs = (out ++ (run ([], r) cs).1, (run ([], r) cs).2) := by
  induction cs generalizing out r with
  | nil => simp [run]
  | cons c rest ih =>
    have hstep : step (out, r) c = (out ++ (step ([], r) c).1, (step ([], r) c).2) := by
      unfold step
      cases r.goOn? c <;> simp
    have hrest (s : List Lexeme × Reading) : run s (c :: rest) = run (step s c) rest := rfl
    rw [hrest, hrest, hstep, ih (out ++ _), ih (step ([], r) c).1, List.append_assoc]

end Reading

/-- The lexemes of characters. -/
def lexemesOf (cs : List Char) : List Lexeme :=
  (Reading.run ([], .between) cs).1 ++ (Reading.run ([], .between) cs).2.finish

/-- The lexemes of a text. -/
def lexemes (s : String) : List Lexeme :=
  lexemesOf s.toList

/-- How reading stands after some characters. -/
def readingAfter (cs : List Char) : Reading :=
  (Reading.run ([], .between) cs).2

/-- A character that goes on with no lexeme, except inside an identifier. -/
def isBoundary (c : Char) : Bool :=
  !isWordChar c && !isOperatorChar c && c ≠ '"' && !c.isDigit

/-- Whether characters end a lexeme before them. -/
def startsFree : List Char → Bool
  | [] => true
  | c :: _ => isBoundary c

/-- Whether reading stands between lexemes after some characters. -/
def endsFree (cs : List Char) : Bool :=
  match readingAfter cs with
  | .between => true
  | _ => false

/-- Whether reading stands outside of identifiers after some characters. -/
def endsOutside (cs : List Char) : Bool :=
  match readingAfter cs with
  | .quoted _ => false
  | _ => true

/-- Texts are read one after the other if reading is between lexemes where they meet. -/
theorem lexemesOf_append {cs ds : List Char}
    (h : endsFree cs = true ∨ (endsOutside cs = true ∧ startsFree ds = true)) :
    lexemesOf (cs ++ ds) = lexemesOf cs ++ lexemesOf ds := by
  obtain ⟨out, r, hrun⟩ : ∃ out r, Reading.run ([], .between) cs = (out, r) := ⟨_, _, rfl⟩
  have hall : Reading.run ([], .between) (cs ++ ds) = Reading.run (out, r) ds := by
    rw [Reading.run, List.foldl_append]
    exact congrArg (fun s => Reading.run s ds) hrun
  -- From where the first text ends, the second is read as if it stood alone.
  have hlater : (Reading.run ([], r) ds).1 ++ (Reading.run ([], r) ds).2.finish =
      r.finish ++ lexemesOf ds := by
    rcases h with hfree | ⟨houtside, hstart⟩
    · have hr : r = .between := by
        simp only [endsFree, readingAfter, hrun] at hfree
        cases r <;> simp_all
      rw [hr]
      rfl
    · cases ds with
      | nil => simp [Reading.run, lexemesOf, Reading.finish]
      | cons c rest =>
        have hends : r.goOn? c = none := by
          simp only [endsOutside, readingAfter, hrun] at houtside
          simp only [startsFree, isBoundary, Bool.and_eq_true, Bool.not_eq_true',
            decide_eq_true_eq, ne_eq] at hstart
          obtain ⟨⟨⟨hword, hoperator⟩, hquote⟩, hdigit⟩ := hstart
          cases r <;> simp_all [Reading.goOn?]
        have hfirst (r : Reading) (h : r.goOn? c = none) :
            Reading.run ([], r) (c :: rest) =
              Reading.run (r.finish ++ (Reading.start c).1, (Reading.start c).2) rest := by
          change Reading.run (Reading.step ([], r) c) rest = _
          simp [Reading.step, h]
        rw [lexemesOf, hfirst r hends, hfirst .between rfl, Reading.run_eq,
          Reading.run_eq (Reading.finish .between ++ _)]
        simp [Reading.finish]
  rw [lexemesOf, hall, Reading.run_eq, List.append_assoc, hlater, ← List.append_assoc]
  congr 1
  simp [lexemesOf, hrun]

/-- Characters with which a kind of lexeme goes on are all read into it. -/
theorem run_of_goOn? {kind : List Char → Reading} {cs : List Char}
    (h : ∀ c ∈ cs, ∀ read, (kind read).goOn? c = some (kind (c :: read))) (read : List Char) :
    Reading.run ([], kind read) cs = ([], kind (cs.reverse ++ read)) := by
  induction cs generalizing read with
  | nil => rfl
  | cons c rest ih =>
    have hstep : Reading.step ([], kind read) c = ([], kind (c :: read)) := by
      simp [Reading.step, h c List.mem_cons_self read]
    change Reading.run (Reading.step ([], kind read) c) rest = _
    rw [hstep, ih fun c hc => h c (List.mem_cons_of_mem _ hc)]
    simp

/-- Between quotes a name is read with its doubled quotes as single ones. -/
theorem run_quoted (cs read : List Char) :
    Reading.run ([], .quoted read) (cs.flatMap fun c => if c = '"' then ['"', '"'] else [c]) =
      ([], .quoted (cs.reverse ++ read)) := by
  induction cs generalizing read with
  | nil => rfl
  | cons c rest ih =>
    rw [List.flatMap_cons, Reading.run, List.foldl_append]
    have hfirst : (if c = '"' then ['"', '"'] else [c]).foldl Reading.step ([], .quoted read) =
        ([], .quoted (c :: read)) := by
      by_cases hc : c = '"'
      · subst hc
        rfl
      · simp [hc, Reading.step, Reading.goOn?]
    rw [hfirst]
    exact (ih (c :: read)).trans (by simp)

theorem readingAfter_quoteName (s : String) :
    Reading.run ([], .between) (quoteName s).toList = ([], .closing s.toList.reverse) := by
  simp only [quoteName, String.toList_append, String.toList_ofList, Reading.run, List.foldl_append]
  have hbody := run_quoted s.toList []
  rw [List.append_nil] at hbody
  have hclose := congrArg (fun s => Reading.run s ['"']) hbody
  exact hclose

theorem readingAfter_placeholder (n : Nat) :
    Reading.run ([], .between) ("$" ++ toString n).toList =
      ([], .placeholder (Nat.toDigits 10 n).reverse) := by
  have hdigits : (toString n).toList = Nat.toDigits 10 n := Nat.toList_repr
  have hgoOn : ∀ c ∈ Nat.toDigits 10 n, ∀ read,
      (Reading.placeholder read).goOn? c = some (.placeholder (c :: read)) := by
    intro c hc read
    simp [Reading.goOn?, Nat.isDigit_of_mem_toDigits (by decide) (by decide) hc]
  rw [String.toList_append, hdigits, Reading.run, List.foldl_append]
  have hrun := run_of_goOn? hgoOn []
  rw [List.append_nil] at hrun
  exact hrun

namespace Piece

/-- The lexemes of pieces when `bound` values are bound already. -/
def lexemesFrom (bound : Nat) : List Piece → List Lexeme
  | [] => []
  | .text s :: rest => Sql.lexemes s ++ lexemesFrom bound rest
  | .name s :: rest => .name s :: lexemesFrom bound rest
  | .param v :: rest =>
    if v.isNull then .word "NULL" :: lexemesFrom bound rest
    else .placeholder (bound + 1) :: lexemesFrom (bound + 1) rest

/-- The lexemes of a piece, with its value in place of a placeholder. -/
def lexemes : Piece → List Lexeme
  | .text s => Sql.lexemes s
  | .name s => [.name s]
  | .param v => if v.isNull then [.word "NULL"] else [.value v]

/-- Whether a piece starts with a character that ends any lexeme. -/
def opens : Piece → Bool
  | .text s => s.toList ≠ [] && startsFree s.toList
  | _ => false

/-- Whether a piece ends between lexemes. -/
def closes : Piece → Bool
  | .text s => endsFree s.toList
  | _ => false

/-- Whether a piece has no identifier that goes on behind it, and no placeholder in its text. -/
def plain : Piece → Bool
  | .text s => endsOutside s.toList && (Sql.lexemes s).all (·.number?.isNone)
  | _ => true

end Piece

/-- Pieces that can be told apart in the text to which they are written. -/
structure Fitting (pieces : List Piece) : Prop where
  meets : pieces.IsChain fun p q => p.closes = true ∨ q.opens = true
  plain : ∀ p ∈ pieces, p.plain = true

namespace Fitting

variable {p q : Piece} {l m : List Piece} {groups : List (List Piece)} {separator : String}

theorem nil : Fitting [] :=
  ⟨.nil, by simp⟩

theorem singleton (h : p.plain = true) : Fitting [p] :=
  ⟨.singleton _, by simpa using h⟩

/-- Pieces fit where one list ends between lexemes or the other starts so. -/
theorem append (hl : Fitting l) (hm : Fitting m)
    (h : (∀ p ∈ l.getLast?, p.closes = true) ∨ (∀ q ∈ m.head?, q.opens = true)) :
    Fitting (l ++ m) := by
  refine ⟨List.isChain_append.mpr ⟨hl.meets, hm.meets, fun p hp q hq => ?_⟩, fun p hp => ?_⟩
  · exact h.imp (fun h => h p hp) fun h => h q hq
  · rcases List.mem_append.mp hp with hp | hp
    · exact hl.plain p hp
    · exact hm.plain p hp

theorem cons (hm : Fitting m) (hplain : p.plain = true) (hcloses : p.closes = true) :
    Fitting (p :: m) :=
  (singleton hplain).append hm (.inl (by simpa using hcloses))

/-- Pieces between two texts that stand free. -/
theorem enclosed (hm : Fitting m) (hp : p.plain = true) (hcloses : p.closes = true)
    (hq : q.plain = true) (hopens : q.opens = true) : Fitting (p :: m ++ [q]) :=
  (hm.cons hp hcloses).append (singleton hq) (.inr (by simpa using hopens))

theorem separated (h : ∀ g ∈ groups, Fitting g) (hplain : (Piece.text separator).plain = true)
    (hopens : (Piece.text separator).opens = true)
    (hcloses : (Piece.text separator).closes = true) : Fitting (Sql.separated separator groups) := by
  unfold Sql.separated
  induction groups with
  | nil => exact nil
  | cons g rest ih =>
    cases rest with
    | nil => simpa using h g List.mem_cons_self
    | cons g' rest =>
      rw [List.intercalate_cons_cons, List.append_assoc, List.singleton_append]
      refine (h g List.mem_cons_self).append ?_ (.inr (by simpa using hopens))
      exact (ih fun g hg => h g (List.mem_cons_of_mem _ hg)).cons hplain hcloses

end Fitting

/-- What pieces after a piece are written to starts free if the first of them does. -/
theorem startsFree_writeFrom {bound : Nat} {pieces : List Piece}
    (h : ∀ q ∈ pieces.head?, q.opens = true) :
    startsFree (Piece.writeFrom bound pieces).sql.toList = true := by
  cases pieces with
  | nil => rfl
  | cons q rest =>
    have hq : q.opens = true := h q rfl
    cases q with
    | text s =>
      simp only [Piece.opens, Bool.and_eq_true, decide_eq_true_eq, ne_eq] at hq
      obtain ⟨hne, hstart⟩ := hq
      simp only [Piece.writeFrom, String.toList_append]
      cases hs : s.toList with
      | nil => exact absurd hs hne
      | cons c cs =>
        rw [hs] at hstart
        exact hstart
    | name s => cases hq
    | param v => cases hq

/-- What is written for pieces is read as their lexemes. -/
theorem lexemes_writeFrom {bound : Nat} {pieces : List Piece} (h : Fitting pieces) :
    lexemes (Piece.writeFrom bound pieces).sql = Piece.lexemesFrom bound pieces := by
  induction pieces generalizing bound with
  | nil => rfl
  | cons p rest ih =>
    have hrest : Fitting rest := ⟨h.meets.tail, fun p hp => h.plain p (List.mem_cons_of_mem _ hp)⟩
    have hplain := h.plain p List.mem_cons_self
    have hmeets : p.closes = true ∨ ∀ q ∈ rest.head?, q.opens = true := by
      cases rest with
      | nil => exact .inr (by simp)
      | cons q rest => simpa using h.meets.rel
    -- A text in front is read by itself.
    have hfront {s : String} {n : Nat} (houtside : endsOutside s.toList = true)
        (hends : endsFree s.toList = true ∨ ∀ q ∈ rest.head?, q.opens = true) :
        lexemes (s ++ (Piece.writeFrom n rest).sql) = lexemes s ++ Piece.lexemesFrom n rest := by
      rw [lexemes, String.toList_append, lexemesOf_append, ← ih hrest]
      · rfl
      · exact hends.imp id fun h => ⟨houtside, startsFree_writeFrom h⟩
    cases p with
    | text s =>
      simp only [Piece.plain, Bool.and_eq_true] at hplain
      exact hfront hplain.1 hmeets
    | name s =>
      have hopens := hmeets.resolve_left (by simp [Piece.closes])
      have hafter := readingAfter_quoteName s
      have houtside : endsOutside (quoteName s).toList = true := by
        simp [endsOutside, readingAfter, hafter]
      have hlexemes : lexemes (quoteName s) = [.name s] := by
        simp [lexemes, lexemesOf, hafter, Reading.finish]
      simp only [Piece.writeFrom, Piece.lexemesFrom]
      rw [hfront houtside (.inr hopens), hlexemes, List.singleton_append]
    | param v =>
      have hopens := hmeets.resolve_left (by simp [Piece.closes])
      simp only [Piece.writeFrom, Piece.lexemesFrom]
      by_cases hnull : v.isNull = true
      · rw [if_pos hnull, if_pos hnull]
        exact hfront rfl (.inr hopens)
      · have hafter := readingAfter_placeholder (bound + 1)
        have houtside : endsOutside ("$" ++ toString (bound + 1)).toList = true := by
          simp only [endsOutside, readingAfter, hafter]
        have hlexemes : lexemes ("$" ++ toString (bound + 1)) = [.placeholder (bound + 1)] := by
          rw [lexemes, lexemesOf, hafter]
          simp [Reading.finish, Nat.ofDigitChars_toDigits]
        rw [if_neg hnull, if_neg hnull]
        rw [hfront houtside (.inr hopens), hlexemes, List.singleton_append]

/-- The values that are bound: all but nulls. -/
def boundValues (values : List Value) : List Value :=
  values.filter (!·.isNull)

@[simp] theorem boundValues_nil : boundValues [] = [] := rfl

@[simp] theorem boundValues_append (l m : List Value) :
    boundValues (l ++ m) = boundValues l ++ boundValues m :=
  List.filter_append l m

theorem boundValues_flatMap {α : Type} (f : α → List Value) (l : List α) :
    boundValues (l.flatMap f) = l.flatMap fun a => boundValues (f a) :=
  List.filter_flatMap

theorem boundValues_map {α : Type} (f : α → Value) (l : List α) :
    boundValues (l.map f) = l.flatMap fun a => boundValues [f a] := by
  rw [← boundValues_flatMap, List.map_eq_flatMap]

namespace Piece

/-- The values that pieces bind. -/
def bound : List Piece → List Value
  | [] => []
  | .text _ :: rest => bound rest
  | .name _ :: rest => bound rest
  | .param v :: rest => boundValues [v] ++ bound rest

@[simp] theorem bound_nil : bound [] = [] := rfl

@[simp] theorem bound_text (s : String) (rest : List Piece) : bound (.text s :: rest) = bound rest := rfl

@[simp] theorem bound_name (s : String) (rest : List Piece) : bound (.name s :: rest) = bound rest := rfl

@[simp] theorem bound_param (v : Value) (rest : List Piece) :
    bound (.param v :: rest) = boundValues [v] ++ bound rest := rfl

@[simp] theorem bound_append (l m : List Piece) : bound (l ++ m) = bound l ++ bound m := by
  induction l with
  | nil => rfl
  | cons p rest ih => cases p <;> simp [ih]

theorem bound_separated (separator : String) (groups : List (List Piece)) :
    bound (separated separator groups) = groups.flatMap bound := by
  unfold separated
  induction groups with
  | nil => rfl
  | cons g rest ih =>
    cases rest with
    | nil => simp
    | cons g' rest => simp [List.intercalate_cons_cons, ih]

/-- What pieces bind are the parameters of what is written for them. -/
theorem params_writeFrom (n : Nat) (pieces : List Piece) :
    (writeFrom n pieces).params = bound pieces := by
  induction pieces generalizing n with
  | nil => rfl
  | cons p rest ih =>
    cases p with
    | text s => exact ih n
    | name s => exact ih n
    | param v => by_cases hnull : v.isNull = true <;> simp [writeFrom, boundValues, hnull, ih]

/-- Pieces behind others go on with the numbers of those in front. -/
theorem sql_append (n : Nat) (front back : List Piece) : (writeFrom n (front ++ back)).sql =
    (writeFrom n front).sql ++ (writeFrom (n + (bound front).length) back).sql := by
  induction front generalizing n with
  | nil => simp [writeFrom]
  | cons p rest ih =>
    cases p with
    | text s => simp [writeFrom, ih, String.append_assoc]
    | name s => simp [writeFrom, ih, String.append_assoc]
    | param v =>
      by_cases hnull : v.isNull = true
      · simp [writeFrom, ih, hnull, boundValues, String.append_assoc]
      · simp [writeFrom, ih, hnull, boundValues, String.append_assoc, Nat.add_assoc, Nat.add_comm 1]

/-- Each group of a separated list goes on with the numbers of the groups in front of it. -/
theorem sql_separated (n : Nat) (separator : String) (groups : List (List Piece)) :
    (writeFrom n (separated separator groups)).sql = separator.intercalate (groups.mapIdx fun i g =>
      (writeFrom (n + (bound (groups.take i).flatten).length) g).sql) := by
  unfold separated
  induction groups generalizing n with
  | nil => simp [writeFrom]
  | cons g rest ih =>
    cases rest with
    | nil => simp
    | cons g' rest =>
      have hrest := ih (n + (bound g).length)
      rw [List.intercalate_cons_cons, List.append_assoc, sql_append, List.singleton_append, writeFrom, hrest,
        List.mapIdx_cons (l := g' :: rest), String.intercalate_cons_of_ne_nil (by simp)]
      simp [String.append_assoc, Nat.add_assoc]

theorem bound_flatten (groups : List (List Piece)) : bound groups.flatten = groups.flatMap bound := by
  induction groups with
  | nil => rfl
  | cons g rest ih => rw [List.flatten_cons, bound_append, ih, List.flatMap_cons]

/-- A separated list is written element by element, if each is written as expected where the values of the
elements in front of it are bound. -/
theorem sql_separated_map {α β : Type} {l : List α} {f : α → List Piece} {entry : Nat → α → β}
    {text : β → String} {n : Nat} (h : ∀ i, ∀ a ∈ l[i]?, (writeFrom
      (n + ((l.take i).flatMap fun a => bound (f a)).length) (f a)).sql = text (entry i a))
    (separator : String) : (writeFrom n (separated separator (l.map f))).sql =
      separator.intercalate ((l.mapIdx entry).map text) := by
  rw [sql_separated]
  refine congrArg _ (List.ext_getElem? fun i => ?_)
  rw [List.getElem?_mapIdx, List.getElem?_map, List.getElem?_map, List.getElem?_mapIdx, ← List.map_take,
    bound_flatten, List.flatMap_map]
  cases ha : l[i]? with
  | none => rfl
  | some a => exact congrArg some (h i a ha)

/-- Where no group binds a value, all go on with the same number. -/
theorem sql_separated_unbound {groups : List (List Piece)} (h : ∀ g ∈ groups, bound g = []) (n : Nat)
    (separator : String) : (writeFrom n (separated separator groups)).sql =
      separator.intercalate (groups.map fun g => (writeFrom n g).sql) := by
  have hnone (i : Nat) : bound (groups.take i).flatten = [] := by
    rw [bound_flatten, List.flatMap_eq_nil_iff]
    exact fun g hg => h g (List.mem_of_mem_take hg)
  rw [sql_separated]
  refine congrArg _ (List.ext_getElem? fun i => ?_)
  rw [List.getElem?_mapIdx, List.getElem?_map, hnone]
  rfl

end Piece

end EagerLoad.Sql
