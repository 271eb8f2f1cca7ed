import EagerLoad.Proofs.Sql.Reader

/-!
# Lexemes that balance

A statement is read from the lexemes of its text, with its parameters in place of the placeholders. What
stands between parentheses is read by itself, so the items of lexemes that balance are those of their
parts one after the other. A list is split where its separator stands, if no item of it looks like
the separator, and is read item by item.
-/

namespace EagerLoad.Sql

/-- The lexemes of pieces, with their values in place of placeholders. -/
def tokens (pieces : List Piece) : List Lexeme :=
  pieces.flatMap Piece.lexemes

@[simp] theorem tokens_nil : tokens [] = [] := rfl

@[simp] theorem tokens_cons (p : Piece) (rest : List Piece) :
    tokens (p :: rest) = p.lexemes ++ tokens rest := rfl

@[simp] theorem tokens_append (pieces rest : List Piece) :
    tokens (pieces ++ rest) = tokens pieces ++ tokens rest :=
  List.flatMap_append

theorem tokens_separated {separator : String} {l : Lexeme} (h : lexemes separator = [l])
    (groups : List (List Piece)) :
    tokens (separated separator groups) = [l].intercalate (groups.map tokens) := by
  unfold separated
  induction groups with
  | nil => rfl
  | cons g rest ih =>
    cases rest with
    | nil => simp
    | cons g' rest =>
      rw [List.map_cons] at ih
      rw [List.intercalate_cons_cons, tokens_append, tokens_append, ih, List.map_cons, List.map_cons,
        List.intercalate_cons_cons]
      simp [Piece.lexemes, h]

theorem lexemes_comma : lexemes ", " = [.mark ','] := rfl

theorem lexemes_and : lexemes " AND " = [.word "AND"] := rfl

theorem lexemes_or : lexemes " OR " = [.word "OR"] := rfl

@[simp] theorem tokens_column (a : String) (c : Column) :
    tokens (c.pieces (some a)) = [.name (c.qualifier.getD a), .mark '.', .name c.name] := by
  obtain ⟨qualifier, name⟩ := c
  cases qualifier <;> rfl

theorem tokens_value {v : Value} (h : ¬ v.isNull = true) : tokens [.param v] = [.value v] := by
  simp [Piece.lexemes, h]

/-- With the parameters of a statement, placeholders in its text become its values. -/
theorem bind_lexemesFrom (before : List Value) {pieces : List Piece}
    (h : ∀ p ∈ pieces, p.plain = true) :
    (Piece.lexemesFrom before.length pieces).map (Lexeme.bind (before ++ Piece.bound pieces)) =
      tokens pieces := by
  induction pieces generalizing before with
  | nil => rfl
  | cons p rest ih =>
    have hrest (before : List Value) := ih before fun q hq => h q (List.mem_cons_of_mem _ hq)
    cases p with
    | text s =>
      have hplain := h _ List.mem_cons_self
      simp only [Piece.plain, Bool.and_eq_true, List.all_eq_true, Option.isNone_iff_eq_none] at hplain
      have htext : (lexemes s).map (Lexeme.bind (before ++ Piece.bound rest)) = lexemes s := by
        rw [List.map_congr_left fun l hl => Lexeme.bind_of_number? (hplain.2 l hl), List.map_id']
      rw [Piece.lexemesFrom, Piece.bound_text, List.map_append, htext, hrest]
      rfl
    | name s =>
      rw [Piece.lexemesFrom, Piece.bound_name, List.map_cons, hrest]
      rfl
    | param v =>
      rw [Piece.lexemesFrom, Piece.bound_param, tokens_cons, Piece.lexemes]
      by_cases hnull : v.isNull = true
      · simp only [hnull, boundValues, List.filter, Bool.not_true, if_true, List.nil_append,
          List.map_cons, hrest]
        rfl
      · have hbound : boundValues [v] = [v] := by simp [boundValues, hnull]
        have hnext := hrest (before ++ [v])
        rw [List.length_append, List.append_assoc] at hnext
        have hvalue : Lexeme.bind (before ++ ([v] ++ Piece.bound rest)) (.placeholder (before.length + 1)) =
            .value v := by
          simp [Lexeme.bind]
        rw [if_neg hnull, if_neg hnull, hbound, List.map_cons, hvalue]
        exact congrArg _ hnext

/-- The lexemes of a text that pieces are written to, with its parameters in place of the placeholders. -/
theorem bind_lexemes_ofPieces {pieces : List Piece} (h : Fitting pieces) :
    (lexemes (Query.ofPieces pieces).sql).map (Lexeme.bind (Query.ofPieces pieces).params) =
      tokens pieces := by
  rw [Query.ofPieces, lexemes_writeFrom h, Piece.params_writeFrom]
  exact bind_lexemesFrom [] h.plain

/-- The items of lexemes. -/
def itemsOf (ls : List Lexeme) : List Item :=
  (Nesting.run ([], []) ls).1.reverse

/-- Lexemes whose parentheses match each other. -/
def Balanced (ls : List Lexeme) : Prop :=
  ∀ items outer, Nesting.run (items, outer) ls = ((itemsOf ls).reverse ++ items, outer)

namespace Balanced

variable {l m : List Lexeme}

theorem run_append (n : Nesting) : n.run (l ++ m) = (n.run l).run m :=
  List.foldl_append

theorem nil : Balanced [] := fun _ _ => rfl

/-- What is read of lexemes wherever they stand are their items. -/
theorem of_run {items : List Item}
    (h : ∀ before outer, Nesting.run (before, outer) l = (items.reverse ++ before, outer)) :
    Balanced l ∧ itemsOf l = items := by
  have hitems : itemsOf l = items := by simp [itemsOf, h]
  exact ⟨fun before outer => by rw [h, hitems], hitems⟩

theorem append_both (hl : Balanced l) (hm : Balanced m) :
    Balanced (l ++ m) ∧ itemsOf (l ++ m) = itemsOf l ++ itemsOf m :=
  of_run fun before outer => by rw [run_append, hl, hm]; simp

theorem append (hl : Balanced l) (hm : Balanced m) : Balanced (l ++ m) :=
  (hl.append_both hm).1

theorem itemsOf_append (hl : Balanced l) (hm : Balanced m) :
    itemsOf (l ++ m) = itemsOf l ++ itemsOf m :=
  (hl.append_both hm).2

/-- Lexemes between parentheses are read when these close. -/
theorem enclosed (h : Balanced l) :
    Balanced (.mark '(' :: (l ++ [.mark ')'])) ∧
      itemsOf (.mark '(' :: (l ++ [.mark ')'])) =
        [.group (readCondition (itemsOf l)) (readValues (itemsOf l)) (readSelect (itemsOf l))] := by
  refine of_run fun before outer => ?_
  change Nesting.run ([], before :: outer) (l ++ [.mark ')']) = _
  rw [run_append, h]
  simp [Nesting.run, Nesting.step]

end Balanced

/-- Neither a connective nor a comma, nor the start of a clause. -/
def Item.solid (i : Item) : Bool :=
  !i.isWord "AND" && !i.isWord "OR" && !i.isComma && i.clause?.isNone

/-- Lexemes from which a reader gets `a`, without anything at which a list is split. -/
structure Reads {α : Type} (read : List Item → Option α) (ls : List Lexeme) (a : α) : Prop where
  balanced : Balanced ls
  solid : (itemsOf ls).all Item.solid = true
  reads : read (itemsOf ls) = some a

theorem Reads.solid_of_mem {α : Type} {read : List Item → Option α} {ls : List Lexeme} {a : α}
    (h : Reads read ls a) {i : Item} (hi : i ∈ itemsOf ls) : i.solid = true :=
  List.all_eq_true.mp h.solid i hi

theorem splitOnP_intercalate {α : Type} {p : α → Bool} {a : α} (ha : p a = true) {groups : List (List α)}
    (hne : groups ≠ []) (h : ∀ g ∈ groups, ∀ b ∈ g, p b = false) :
    ([a].intercalate groups).splitOnP p = groups := by
  induction groups with
  | nil => exact absurd rfl hne
  | cons g rest ih =>
    have hg := h g List.mem_cons_self
    cases rest with
    | nil => simpa using List.splitOnP_eq_singleton hg
    | cons g' rest =>
      have hrest := ih (by simp) fun g hg => h g (List.mem_cons_of_mem _ hg)
      rw [List.intercalate_cons_cons, List.append_assoc, List.singleton_append,
        List.splitOnP_append_cons_of_forall_mem hg a ha, hrest]

theorem readEach_cons {α β : Type} {read : α → Option β} {a : α} {b : β} {rest : List α} {bs : List β}
    (ha : read a = some b) (hrest : readEach read rest = some bs) :
    readEach read (a :: rest) = some (b :: bs) := by
  rw [readEach, ha, hrest]
  rfl

theorem readEach_map {α β γ : Type} {read : β → Option γ} {f : α → β} {g : α → γ} {xs : List α}
    (h : ∀ x ∈ xs, read (f x) = some (g x)) : readEach read (xs.map f) = some (xs.map g) := by
  induction xs with
  | nil => rfl
  | cons x rest ih =>
    exact readEach_cons (h x List.mem_cons_self) (ih fun x hx => h x (List.mem_cons_of_mem _ hx))

/-- A lexeme between each two of several lists stands between their items. -/
theorem Balanced.intercalate {α : Type} {l : Lexeme} (hl : Balanced [l])
    (hitem : itemsOf [l] = [.token l]) {f : α → List Lexeme} {xs : List α}
    (h : ∀ x ∈ xs, Balanced (f x)) :
    Balanced ([l].intercalate (xs.map f)) ∧
      itemsOf ([l].intercalate (xs.map f)) = [.token l].intercalate (xs.map fun x => itemsOf (f x)) := by
  induction xs with
  | nil => exact ⟨.nil, rfl⟩
  | cons x rest ih =>
    have hx := h x List.mem_cons_self
    cases rest with
    | nil => simpa using hx
    | cons x' rest =>
      have hrest := ih fun x hx => h x (List.mem_cons_of_mem _ hx)
      rw [List.map_cons, List.map_cons] at hrest
      simp only [List.map_cons, List.intercalate_cons_cons]
      refine ⟨(hx.append hl).append hrest.1, ?_⟩
      rw [itemsOf_append (hx.append hl) hrest.1, itemsOf_append hx hl, hitem, hrest.2]

/-- A separated list is read item by item. -/
theorem readEach_separated {α β : Type} {read : List Item → Option β} {l : Lexeme} {p : Item → Bool}
    (hl : Balanced [l]) (hitem : itemsOf [l] = [.token l]) (hp : p (.token l) = true)
    (hsolid : ∀ i : Item, i.solid = true → p i = false) {f : α → List Lexeme} {g : α → β} {xs : List α}
    (hne : xs ≠ []) (h : ∀ x ∈ xs, Reads read (f x) (g x)) :
    readEach read ((itemsOf ([l].intercalate (xs.map f))).splitOnP p) = some (xs.map g) := by
  rw [(Balanced.intercalate hl hitem fun x hx => (h x hx).balanced).2, splitOnP_intercalate hp]
  · exact readEach_map fun x hx => (h x hx).reads
  · simpa using hne
  · intro items hitems i hi
    obtain ⟨x, hx, rfl⟩ := List.mem_map.mp hitems
    exact hsolid i ((h x hx).solid_of_mem hi)

/-- What holds of the separator and of what splits no list holds throughout a separated list. -/
theorem forall_separated {α β : Type} {read : List Item → Option β} {l : Lexeme} (hl : Balanced [l])
    (hitem : itemsOf [l] = [.token l]) {P : Item → Prop} (hp : P (.token l))
    (hsolid : ∀ i : Item, i.solid = true → P i) {f : α → List Lexeme} {g : α → β} {xs : List α}
    (h : ∀ x ∈ xs, Reads read (f x) (g x)) : ∀ i ∈ itemsOf ([l].intercalate (xs.map f)), P i := by
  rw [(Balanced.intercalate hl hitem fun x hx => (h x hx).balanced).2]
  induction xs with
  | nil => simp
  | cons x rest ih =>
    have hx : ∀ i ∈ itemsOf (f x), P i := fun i hi =>
      hsolid i ((h x List.mem_cons_self).solid_of_mem hi)
    cases rest with
    | nil => simpa using hx
    | cons x' rest =>
      have hrest := ih fun x hx => h x (List.mem_cons_of_mem _ hx)
      simp only [List.map_cons, List.intercalate_cons_cons, List.mem_append, List.mem_singleton] at hrest ⊢
      rintro i ((hi | rfl) | hi)
      · exact hx i hi
      · exact hp
      · exact hrest i hi

namespace Item

variable {i : Item}

theorem solid_iff : i.solid = true ↔
    i.isWord "AND" = false ∧ i.isWord "OR" = false ∧ i.isComma = false ∧ i.clause? = none := by
  simp [solid, and_assoc]

end Item

/-- A list with commas is read item by item, and has no clause in it. -/
theorem reads_commas {α β : Type} {read : List Item → Option β} {f : α → List Lexeme} {g : α → β}
    {xs : List α} (hne : xs ≠ []) (h : ∀ x ∈ xs, Reads read (f x) (g x)) :
    Balanced ([.mark ','].intercalate (xs.map f)) ∧
      (∀ i ∈ itemsOf ([.mark ','].intercalate (xs.map f)), i.clause? = none) ∧
      readEach read ((itemsOf ([.mark ','].intercalate (xs.map f))).splitOnP Item.isComma) =
        some (xs.map g) :=
  ⟨(Balanced.intercalate (fun _ _ => rfl) rfl fun x hx => (h x hx).balanced).1,
    forall_separated (P := fun i => i.clause? = none) (fun _ _ => rfl) rfl rfl
      (fun _ hi => (Item.solid_iff.mp hi).2.2.2) h,
    readEach_separated (fun _ _ => rfl) rfl rfl (fun _ hi => (Item.solid_iff.mp hi).2.2.1) hne h⟩

end EagerLoad.Sql
