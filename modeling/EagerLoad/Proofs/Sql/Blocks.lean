import EagerLoad.Proofs.Sql.Evaluation

/-!
# Lists of blocks

Joining replaces each row of a source by the block of scopes in which it is extended. An ordering on the
columns of the source does not tell the scopes of a block apart, so sorting the scopes is sorting the rows.
Cutting the scopes to a page is cutting the rows only where each block has one scope.
-/

namespace EagerLoad

variable {α β : Type} {r : β → β → Prop} {R : α → α → Prop} [DecidableRel r] [DecidableRel R]
  {blocks : α → List β} {limit offset : Option Nat}

/-- Elements that come before all others are put first, in their order. -/
theorem foldr_orderedInsert_of_forall {part l : List β} (h : ∀ x ∈ part, ∀ y ∈ part ++ l, r x y) :
    part.foldr (List.orderedInsert r) l = part ++ l := by
  induction part with
  | nil => rfl
  | cons x rest ih =>
    obtain ⟨hx, hrest⟩ := List.forall_mem_cons.mp h
    have hkept : ∀ x' ∈ rest, ∀ y ∈ rest ++ l, r x' y :=
      fun x' hx' y hy => hrest x' hx' y (List.mem_cons_of_mem _ hy)
    have hfirst : (rest ++ l).orderedInsert r x = x :: (rest ++ l) :=
      orderedInsert_of_forall fun y hy => hx y (List.mem_cons_of_mem _ hy)
    rw [List.foldr_cons, ih hkept, hfirst, List.cons_append]

/-- An element is put after others that it does not come before. -/
theorem orderedInsert_append_of_not {x : β} {part l : List β} (h : ∀ y ∈ part, ¬ r x y) :
    (part ++ l).orderedInsert r x = part ++ l.orderedInsert r x := by
  induction part with
  | nil => rfl
  | cons y rest ih =>
    obtain ⟨hy, hrest⟩ := List.forall_mem_cons.mp h
    rw [List.cons_append, List.orderedInsert_of_not_le r _ hy, ih hrest, List.cons_append]

theorem foldr_orderedInsert_append_of_not {part before l : List β}
    (h : ∀ x ∈ part, ∀ y ∈ before, ¬ r x y) :
    part.foldr (List.orderedInsert r) (before ++ l) = before ++ part.foldr (List.orderedInsert r) l := by
  induction part with
  | nil => rfl
  | cons x rest ih =>
    obtain ⟨hx, hrest⟩ := List.forall_mem_cons.mp h
    rw [List.foldr_cons, ih hrest, orderedInsert_append_of_not hx, List.foldr_cons]

theorem insertionSort_append (part l : List β) :
    (part ++ l).insertionSort r = part.foldr (List.orderedInsert r) (l.insertionSort r) := by
  induction part with
  | nil => rfl
  | cons x rest ih => rw [List.cons_append, List.insertionSort_cons, ih, List.foldr_cons]

section Sorting

variable [IsTrans α R] [Std.Total R] (h : ∀ a b, ∀ x ∈ blocks a, ∀ y ∈ blocks b, r x y ↔ R a b)

include h

/-- A block is put into sorted blocks as its element is put into the elements. -/
private theorem foldr_orderedInsert_flatMap (a : α) {l : List α} (hl : l.Pairwise R) :
    (blocks a).foldr (List.orderedInsert r) (l.flatMap blocks) =
      (l.orderedInsert R a).flatMap blocks := by
  have hself : R a a := (Std.Total.total a a).elim id id
  induction l with
  | nil =>
    rw [List.flatMap_nil, foldr_orderedInsert_of_forall]
    · simp
    · simpa using fun x hx y hy => (h a a x hx y hy).mpr hself
  | cons b rest ih =>
    obtain ⟨hb, hrest⟩ := List.pairwise_cons.mp hl
    by_cases hab : R a b
    · have hblocks : (a :: b :: rest).flatMap blocks = blocks a ++ (b :: rest).flatMap blocks :=
        List.flatMap_cons ..
      rw [List.orderedInsert_cons_of_le R rest hab, hblocks]
      apply foldr_orderedInsert_of_forall
      intro x hx y hy
      rcases List.mem_append.mp hy with hy | hy
      · exact (h a a x hx y hy).mpr hself
      · obtain ⟨c, hc, hy⟩ := List.mem_flatMap.mp hy
        refine (h a c x hx y hy).mpr ?_
        rcases List.mem_cons.mp hc with rfl | hc
        · exact hab
        · exact IsTrans.trans _ _ _ hab (hb c hc)
    · rw [List.orderedInsert_of_not_le R rest hab, List.flatMap_cons, List.flatMap_cons, ← ih hrest]
      exact foldr_orderedInsert_append_of_not fun x hx y hy hxy => hab ((h a b x hx y hy).mp hxy)

/-- Where order is settled by the blocks, sorting the elements of blocks is sorting the blocks. -/
theorem insertionSort_flatMap (l : List α) :
    (l.flatMap blocks).insertionSort r = (l.insertionSort R).flatMap blocks := by
  induction l with
  | nil => rfl
  | cons a rest ih =>
    rw [List.flatMap_cons, insertionSort_append, ih, List.insertionSort_cons,
      foldr_orderedInsert_flatMap h a (List.pairwise_insertionSort R rest)]

end Sorting

section Cutting

variable {l : List α} (h : ∀ a ∈ l, (blocks a).length = 1)

include h

private theorem drop_flatMap (n : Nat) : (l.flatMap blocks).drop n = (l.drop n).flatMap blocks := by
  induction l generalizing n with
  | nil => simp
  | cons a rest ih =>
    obtain ⟨ha, hrest⟩ := List.forall_mem_cons.mp h
    obtain ⟨x, hx⟩ := List.length_eq_one_iff.mp ha
    cases n with
    | zero => rfl
    | succ n =>
      rw [List.flatMap_cons, hx, List.singleton_append, List.drop_succ_cons, ih hrest, List.drop_succ_cons]

private theorem take_flatMap (n : Nat) : (l.flatMap blocks).take n = (l.take n).flatMap blocks := by
  induction l generalizing n with
  | nil => simp
  | cons a rest ih =>
    obtain ⟨ha, hrest⟩ := List.forall_mem_cons.mp h
    obtain ⟨x, hx⟩ := List.length_eq_one_iff.mp ha
    cases n with
    | zero => rfl
    | succ n =>
      rw [List.flatMap_cons, hx, List.singleton_append, List.take_succ_cons, ih hrest, List.take_succ_cons,
        List.flatMap_cons, hx, List.singleton_append]

/-- Where every block has one element, cutting a page from the elements is cutting one from the blocks. -/
theorem page_flatMap (limit offset : Option Nat) :
    page limit offset (l.flatMap blocks) = (page limit offset l).flatMap blocks := by
  have hdrop := drop_flatMap h (offset.getD 0)
  cases limit with
  | none => exact hdrop
  | some n =>
    have hrest : ∀ a ∈ l.drop (offset.getD 0), (blocks a).length = 1 :=
      fun a ha => h a (List.mem_of_mem_drop ha)
    simp only [page, hdrop, take_flatMap hrest]

end Cutting

end EagerLoad
