import EagerLoad.Proofs.Repository.Listing

/-!
# When the arguments of a listing are judged

A listing counts before it looks at its ordering and its plan, and where nothing is counted it looks at
neither. So arguments that do not fit the repository are refused with an error that they alone determine, but
only where there is something to list.
-/

namespace EagerLoad

open Sql

namespace Repository

variable {r : Repository} {plan : Option Plan} {page : Page} {e : Error} {responses : List Response}

/-- What makes the arguments of a listing wrong, with the error that says so: the ordering has a column that
the entity does not have, the first of which is named, or else the plan loads another entity. -/
inductive Misuse (r : Repository) (plan : Option Plan) (page : Page) : Error → Prop
  | ordering {before after : List SortKey} {key : SortKey} (order : page.ordering = before ++ key :: after)
      (declared : ∀ k ∈ before, r.entity.hasColumn k.column = true)
      (undeclared : r.entity.hasColumn key.column = false) :
      Misuse r plan page (QueryError.unknownColumn r.entity.name key.column)
  | entity {p : Plan} (declared : ∀ k ∈ page.ordering, r.entity.hasColumn k.column = true)
      (given : plan = some p) (other : p.root.name ≠ r.entity.name) :
      Misuse r plan page (.invalidParams
        s!"plan for '{p.root.name}' used with repository of '{r.entity.name}'")

/-- Arguments are misused exactly where the page orders by an undeclared column or the plan's root is another
entity. -/
theorem exists_misuse : (∃ e, r.Misuse plan page e) ↔
    (∃ key ∈ page.ordering, r.entity.hasColumn key.column = false) ∨
      ∃ p, plan = some p ∧ p.root.name ≠ r.entity.name := by
  constructor
  · rintro ⟨e, ⟨order, -, undeclared⟩ | ⟨-, given, other⟩⟩
    · exact .inl ⟨_, order ▸ List.mem_append_right _ List.mem_cons_self, undeclared⟩
    · exact .inr ⟨_, given, other⟩
  · intro h
    by_cases hundeclared : ∃ key ∈ page.ordering, r.entity.hasColumn key.column = false
    · -- the first undeclared column is the one that is named
      have hfound : (page.ordering.find? fun key => !r.entity.hasColumn key.column).isSome := by
        simpa [List.find?_isSome] using hundeclared
      obtain ⟨key, hkey⟩ := Option.isSome_iff_exists.mp hfound
      obtain ⟨hmissing, before, after, order, declared⟩ := List.find?_eq_some_iff_append.mp hkey
      exact ⟨_, .ordering order (by simpa using declared) (by simpa using hmissing)⟩
    · obtain ⟨p, given, other⟩ := h.resolve_left hundeclared
      exact ⟨_, .entity (by simpa using hundeclared) given other⟩

/-- The ordering of a page with an undeclared column is refused with the first such column. -/
theorem pageOrdering_of_undeclared {before after : List SortKey} {key : SortKey}
    (order : page.ordering = before ++ key :: after)
    (declared : ∀ k ∈ before, r.entity.hasColumn k.column = true)
    (undeclared : r.entity.hasColumn key.column = false) :
    r.pageOrdering page = .error (QueryError.unknownColumn r.entity.name key.column) := by
  have hfind : (page.ordering.map (·.column)).find? (fun column => !r.entity.hasColumn column) =
      some key.column := by
    refine List.find?_eq_some_iff_append.mpr
      ⟨by simp [undeclared], before.map (·.column), after.map (·.column), by simp [order], ?_⟩
    simpa using declared
  have hcheck : r.checkColumns (page.ordering.map (·.column)) =
      .error (QueryError.unknownColumn r.entity.name key.column) := by
    unfold checkColumns
    rw [hfind]
  unfold pageOrdering
  split
  · rename_i hnil
    rw [hnil] at order
    exact absurd order.symm (by simp)
  · rw [hcheck]
    rfl

/-- Where something is counted, misused arguments are refused and nothing more is asked. -/
theorem Misuse.play_listing (h : r.Misuse plan page e) (predicates : List Condition)
    (responses : List Response) :
    (r.selectMany predicates plan page).run.play responses =
      ⟨totalOf responses.head? >>= fun total => if total ≤ 0 then .ok (0, []) else .error e,
        [r.countCall predicates], responses.tail⟩ := by
  rw [selectMany, Transaction.play_bind, play_count]
  cases totalOf responses.head? with
  | error e' => rfl
  | ok total =>
    rw [Played.andThen_ok]
    change _ = Played.mk (if total ≤ 0 then Except.ok (0, []) else .error e) _ _
    by_cases hnone : total ≤ 0
    · simp only [if_pos hnone]
      rfl
    · simp only [if_neg hnone]
      rw [Transaction.play_bind, Transaction.play_ofExcept]
      cases h with
      | ordering order declared undeclared =>
        rw [pageOrdering_of_undeclared order declared undeclared]
        rfl
      | entity declared given other =>
        obtain ⟨ordering, hordering⟩ := exists_pageOrdering declared
        rw [hordering, Played.andThen_ok, given]
        simp only [Transaction.play_bind, Transaction.play_ofExcept, checkPlan, if_neg other]
        rfl

/-- A listing whose page orders by an undeclared column or whose plan loads another entity asks for the count
only. It fails with the one error that its arguments call for if something is counted, and else returns the
empty page. So two such listings end alike exactly if both count something or neither does. -/
theorem play_selectMany_of_misuse
    (h : (∃ key ∈ page.ordering, r.entity.hasColumn key.column = false) ∨
      ∃ p, plan = some p ∧ p.root.name ≠ r.entity.name) (predicates : List Condition) :
    let run (responses : List Response) := (r.selectMany predicates plan page).run.play responses
    ∃ e, r.Misuse plan page e ∧
      (∀ responses, (run responses).asked = [r.countCall predicates] ∧
        match totalOf responses.head? with
        | .error failure => (run responses).result = .error failure
        | .ok total => (run responses).result = if total ≤ 0 then .ok (0, []) else .error e) ∧
      ∀ responses responses' total total', totalOf responses.head? = .ok total →
        totalOf responses'.head? = .ok total' →
        ((run responses).result = (run responses').result ↔ (0 < total ↔ 0 < total')) := by
  intro run
  obtain ⟨e, he⟩ := exists_misuse.mpr h
  have hresult {responses : List Response} {total : Int} (htotal : totalOf responses.head? = .ok total) :
      (run responses).result = if total ≤ 0 then .ok (0, []) else .error e := by
    simp only [run, he.play_listing, htotal]
    rfl
  refine ⟨e, he, fun responses => ⟨?_, ?_⟩, fun responses responses' total total' htotal htotal' => ?_⟩
  · simp only [run, he.play_listing]
  · cases htotal : totalOf responses.head? with
    | error failure =>
      simp only [run, he.play_listing, htotal]
      rfl
    | ok total => exact hresult htotal
  · rw [hresult htotal, hresult htotal', ← not_le, ← not_le]
    by_cases hnone : total ≤ 0 <;> by_cases hnone' : total' ≤ 0 <;> simp [hnone, hnone']

end Repository

/-- Roles by a column that they do not have. -/
def rolesByRank : Page := ⟨[⟨"rank", .ascending⟩], 0, 10⟩

/-- Whether one role is counted or three, roles are not ordered by a rank. -/
theorem roles_selectMany_rank : (∃ key ∈ rolesByRank.ordering, roles.entity.hasColumn key.column = false) ∧
    ((roles.selectMany [] none rolesByRank).run.play [.rows [.ofValues [("count", .int64 3)]]]).result =
      ((roles.selectMany [] none rolesByRank).run.play [.rows [.ofValues [("count", .int32 1)]]]).result := by
  have hrank : ∃ key ∈ rolesByRank.ordering, roles.entity.hasColumn key.column = false := by decide
  have hmisuse : (∃ key ∈ rolesByRank.ordering, roles.entity.hasColumn key.column = false) ∨
      ∃ p : Plan, none = some p ∧ p.root.name ≠ roles.entity.name := .inl hrank
  obtain ⟨e, -, -, halike⟩ := Repository.play_selectMany_of_misuse hmisuse []
  exact ⟨hrank, (halike _ _ 3 1 (by decide) (by decide)).mpr (by decide)⟩

/-- The same call is refused where there is a role, and returns an empty page where there is none. -/
theorem roles_rank_unnoticed :
    (Repository.totalOf (some (.rows [.ofValues [("count", .int64 1)]])) = .ok 1 ∧
      Repository.totalOf (some (.rows [.ofValues [("count", .int64 0)]])) = .ok 0) ∧
    ((roles.selectMany [] none rolesByRank).run.play [.rows [.ofValues [("count", .int64 1)]]]).result =
      .error (.query "Unknown column 'rank' on entity 'Role'") ∧
    ((roles.selectMany [] none rolesByRank).run.play [.rows [.ofValues [("count", .int64 0)]]]).result =
      .ok (0, []) := by
  refine ⟨⟨by decide, by decide⟩, ?_, ?_⟩
  · rfl
  · rfl

end EagerLoad
