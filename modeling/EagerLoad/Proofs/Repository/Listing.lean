import EagerLoad.Proofs.Hydration.Calls
import EagerLoad.Proofs.Plan.Batches
import EagerLoad.Repository.Basic

/-!
# A listing asks as often as its plan has statements

A listing counts first and asks nothing more where there is nothing to list. Otherwise it asks for its page and
for the batches that are awaited, so the number of calls is bounded by the plan, and with it by the schema,
however many rows come back.
-/

namespace EagerLoad

open Sql

variable {r : Repository} {predicates : List Condition} {page : Page} {responses : List Response}

namespace Repository

/-- The number that the row of a count holds; without a row it is zero. -/
def counted : Option Row → Except Error Int
  | none => .ok 0
  | some row =>
    match row.named "count" with
    | .error e => .error e
    | .ok (.int64 n) => .ok n.toInt
    | .ok (.int32 n) => .ok n.toInt
    | .ok other => .error (.query ("count returned " ++ other.describe.text))

/-- What is counted by the answer to a count. -/
def totalOf (response : Option Response) : Except Error Int :=
  Response.answer .fetchOptional response >>= counted

/-- The call of a count. -/
def countCall (r : Repository) (predicates : List Condition) : Call × Query :=
  (.fetchOptional, (RowCount.mk r.entity.table predicates).render)

theorem play_count (r : Repository) (predicates : List Condition) (responses : List Response) :
    (r.count predicates).run.play responses =
      ⟨totalOf responses.head?, [r.countCall predicates], responses.tail⟩ := by
  rw [count, totalOf, Transaction.play_bind, Transaction.play_ask]
  cases Response.answer .fetchOptional responses.head? with
  | error e => rfl
  | ok row =>
    cases row with
    | none => rfl
    | some row =>
      change Played.andThen ⟨.ok (some row), _, _⟩ _ = ⟨counted (some row), _, _⟩
      rw [Played.andThen_ok]
      simp only [Transaction.play_bind, Transaction.play_ofExcept, counted]
      cases row.named "count" with
      | error e => rfl
      | ok value => cases value <;> rfl

/-- A page whose columns the entity has gets an ordering. -/
theorem exists_pageOrdering (h : ∀ key ∈ page.ordering, r.entity.hasColumn key.column = true) :
    ∃ ordering, r.pageOrdering page = .ok ordering := by
  unfold pageOrdering
  cases hordering : page.ordering with
  | nil => exact ⟨_, rfl⟩
  | cons first rest =>
    rw [hordering] at h
    rcases r.checkColumns_cases ((first :: rest).map (·.column)) with
      ⟨hcheck, -⟩ | ⟨column, hcolumn, hundeclared, -⟩
    · simp only [hcheck]
      exact ⟨first :: rest, rfl⟩
    · obtain ⟨key, hkey, rfl⟩ := List.mem_map.mp hcolumn
      simp [h key hkey] at hundeclared

/-- What a listing does with a plan after it has counted. -/
def listFrom (r : Repository) (predicates : List Condition) (plan : Plan) (page : Page) (total : Int) :
    Transaction (Int × List Json) :=
  if total ≤ 0 then pure (0, []) else do
    let ordering ← Transaction.ofExcept (r.pageOrdering page)
    Transaction.ofExcept (r.checkPlan plan)
    let records ← plan.load (plan.selectFor predicates ordering (some page.limit) (some page.offset))
    return (total, records)

theorem selectMany_eq (r : Repository) (predicates : List Condition) (plan : Plan) (page : Page) :
    r.selectMany predicates (some plan) page = r.count predicates >>= r.listFrom predicates plan page :=
  rfl

/-- After a count, nothing is asked where there is nothing to list. -/
theorem play_listFrom_of_le {plan : Plan} {total : Int} (h : total ≤ 0) :
    (r.listFrom predicates plan page total).run.play responses = ⟨.ok (0, []), [], responses⟩ := by
  rw [listFrom, if_pos h]
  rfl

/-- Else the plan is loaded with the ordering of the page. -/
theorem play_listFrom {plan : Plan} {total : Int} {ordering : List SortKey} (h : ¬ total ≤ 0)
    (hroot : plan.root.name = r.entity.name) (hordering : r.pageOrdering page = .ok ordering) :
    (r.listFrom predicates plan page total).run.play responses =
      let run := (plan.load (plan.selectFor predicates ordering (some page.limit)
        (some page.offset))).run.play responses
      ⟨run.result.map (total, ·), run.asked, run.unused⟩ := by
  rw [listFrom, if_neg h, Transaction.play_bind, Transaction.play_ofExcept, hordering, Played.andThen_ok,
    Transaction.play_bind, Transaction.play_ofExcept, checkPlan, if_pos hroot, Played.andThen_ok,
    Transaction.play_bind_pure]
  rfl

/-- A listing with a plan first counts. Where nothing is to be listed it asks nothing more. Otherwise it asks
for the page and then, in order, for the batches that are awaited, and returns what was counted with the
records. So there are at most two calls more than batches, and at most as many batches as entities. -/
theorem play_selectMany {s : Schema} {request : Request} {plan : Plan}
    (hcompile : s.compile request = .ok plan) (hroot : plan.root.name = r.entity.name)
    (hpage : ∀ key ∈ page.ordering, r.entity.hasColumn key.column = true) (predicates : List Condition)
    (responses : List Response) :
    let run := (r.selectMany predicates (some plan) page).run.play responses
    run.asked.length ≤ 2 + plan.batches.length ∧ plan.batches.length ≤ s.entities.length ∧
      match totalOf responses.head? with
      | .error e => run.asked = [r.countCall predicates] ∧ run.result = .error e
      | .ok total =>
        (total ≤ 0 → run.asked = [r.countCall predicates] ∧ run.result = .ok (0, [])) ∧
          (0 < total → ∃ ordering put, r.pageOrdering page = .ok ordering ∧
            plan.PutInOrder responses.tail put ∧
            run.asked = r.countCall predicates :: (.fetchAll, (plan.selectFor predicates ordering
              (some page.limit) (some page.offset)).render) :: Plan.callsOf put ∧
            run.result = (plan.progress responses.tail plan.batches.length).map fun reached =>
              (total, plan.finish reached.1)) := by
  intro run
  obtain ⟨ordering, hordering⟩ := exists_pageOrdering hpage
  have hrun : run = Played.andThen ⟨totalOf responses.head?, [r.countCall predicates], responses.tail⟩
      fun total left => (r.listFrom predicates plan page total).run.play left := by
    rw [← play_count, ← Transaction.play_bind, ← selectMany_eq]
  have hbatches := Schema.compile_length_batches_le hcompile
  cases htotal : totalOf responses.head? with
  | error e =>
    rw [htotal, Played.andThen_error] at hrun
    exact ⟨by simp [hrun]; omega, hbatches, by simp [hrun]⟩
  | ok total =>
    rw [htotal, Played.andThen_ok] at hrun
    by_cases hnone : total ≤ 0
    · rw [play_listFrom_of_le hnone] at hrun
      exact ⟨by simp [hrun]; omega, hbatches, fun _ => by simp [hrun], fun hpos => by omega⟩
    · obtain ⟨hasked, hresult⟩ := plan.play_load_put (plan.selectFor predicates ordering (some page.limit)
        (some page.offset)) responses.tail
      rw [play_listFrom hnone hroot hordering] at hrun
      have hput := plan.length_put_le responses.tail
      refine ⟨?_, hbatches, fun hle => absurd hle hnone, fun _ => ⟨ordering, plan.put responses.tail,
        hordering, plan.putInOrder responses.tail, ?_, ?_⟩⟩
      · simp [hrun, hasked, Plan.callsOf]
        omega
      · simp [hrun, hasked]
      · rw [hrun]
        simp only [hresult]
        cases plan.progress responses.tail plan.batches.length <;> rfl

end Repository

/-- A repository of the roles of the forum. -/
def roles : Repository := ⟨forum.entity ⟨0, by decide⟩, .none⟩

/-- The first roles by their names. -/
def rolesByName : Page := ⟨[⟨"name", .ascending⟩], 0, 10⟩

/-- The only role is counted, and listed with one of its users. -/
theorem roles_selectMany : ∃ plan ordering put,
    forum.compile { Request.forModel "Role" with relations := ["users"], limit := none } = .ok plan ∧
      plan.root.name = roles.entity.name ∧
      (∀ key ∈ rolesByName.ordering, roles.entity.hasColumn key.column = true) ∧
      let run := (roles.selectMany [] (some plan) rolesByName).run.play
        (.rows [.ofValues [("count", .int64 1)]] :: editors)
      run.asked.length ≤ 2 + plan.batches.length ∧ plan.batches.length ≤ forum.entities.length ∧
        roles.pageOrdering rolesByName = .ok ordering ∧ plan.PutInOrder editors put ∧
        run.asked = roles.countCall [] :: (.fetchAll, (plan.selectFor [] ordering (some 10)
          (some 0)).render) :: Plan.callsOf put ∧
        run.result = (plan.progress editors plan.batches.length).map fun reached =>
          (1, plan.finish reached.1) := by
  have hplan : ∃ plan,
      forum.compile { Request.forModel "Role" with relations := ["users"], limit := none } = .ok plan ∧
      plan.root.name = roles.entity.name := ⟨_, by cbv, by cbv⟩
  obtain ⟨plan, hcompile, hroot⟩ := hplan
  have hpage : ∀ key ∈ rolesByName.ordering, roles.entity.hasColumn key.column = true := by decide
  obtain ⟨hlength, hbatches, hlisting⟩ := Repository.play_selectMany hcompile hroot hpage []
    (.rows [.ofValues [("count", .int64 1)]] :: editors)
  have htotal : Repository.totalOf (some (.rows [.ofValues [("count", .int64 1)]])) = .ok 1 := by decide
  rw [List.head?_cons, htotal] at hlisting
  obtain ⟨ordering, put, hlisted⟩ := hlisting.2 (by decide)
  exact ⟨plan, ordering, put, hcompile, hroot, hpage, hlength, hbatches, hlisted⟩

end EagerLoad
