import EagerLoad.Proofs.Repository.Conflicts
import EagerLoad.Proofs.Repository.Listing
import EagerLoad.Proofs.Repository.Updates

/-!
# Failures of a transaction

An operation ends where a statement of its transaction fails, and nothing more is asked. Operations that write
translate the error, so that no constraint violation is ever reported; operations that read or remove return it
unchanged. What comes back and cannot be decoded is an error of its own, which no operation translates.
-/

namespace EagerLoad

open Sql

variable {α β : Type} {change : Error → Error} {own : Error → Prop}

/-- A dialogue hands on failures if it ends with the changed error of a statement that fails, and otherwise
fails with errors of its own only. -/
inductive Dialogue.HandsOn (change : Error → Error) (own : Error → Prop) :
    Dialogue (Except Error α) → Prop
  | done {result : Except Error α} (fails : ∀ e, result = .error e → own e) :
    HandsOn change own (.done result)
  | ask {call : Call} {query : Query} {next : Except Error call.Answer → Dialogue (Except Error α)}
    (failed : ∀ e, next (.error e) = .done (.error (change e)))
    (answered : ∀ answer, HandsOn change own (next (.ok answer))) : HandsOn change own (.ask call query next)

/-- A run ends with the answer at a position: this is a failure, what comes out is the error that it becomes,
and the answers behind it are left. -/
structure Played.EndsAt (responses : List Response) (i : Nat) (e : Error) (becomes : Error → Error → Prop)
    (p : Played (Except Error α)) : Prop where
  result : ∃ e', becomes e e' ∧ p.result = .error e'
  asked : p.asked.length = i + 1
  unused : p.unused = responses.drop (i + 1)

namespace Dialogue.HandsOn

variable {d : Dialogue (Except Error α)}

/-- When a statement is answered with a failure, this is what comes out, changed, and nothing more is
asked. -/
theorem play_of_failure (h : d.HandsOn change own) {responses : List Response} {i : Nat} {e : Error}
    (hasked : i < (d.play responses).asked.length) (hfails : responses[i]? = some (.failure e)) :
    (d.play responses).EndsAt responses i e (change · = ·) := by
  -- with each statement, one answer is used up and the position moves to the front
  induction h generalizing responses i with
  | done fails => simp [Dialogue.play] at hasked
  | @ask call query next failed answered ih =>
    rw [Dialogue.play] at hasked ⊢
    simp only [List.length_cons] at hasked
    cases i with
    | zero =>
      have hanswer : next (Response.answer call responses.head?) = .done (.error (change e)) := by
        rw [List.head?_eq_getElem?, hfails, Response.answer, failed]
      rw [hanswer]
      exact ⟨⟨_, rfl, rfl⟩, rfl, by simp [Dialogue.play]⟩
    | succ i =>
      cases hanswer : Response.answer call responses.head? with
      | error cause =>
        -- nothing is asked behind a failure
        rw [hanswer, failed] at hasked
        simp [Dialogue.play] at hasked
      | ok answer =>
        rw [hanswer] at hasked
        have htail : responses.tail[i]? = some (.failure e) := by rw [List.getElem?_tail, hfails]
        obtain ⟨hresult, hlength, hunused⟩ := ih answer (Nat.lt_of_succ_lt_succ hasked) htail
        exact ⟨hresult, by simp [hlength], by simp [hunused, List.drop_tail]⟩

/-- An error is one of the dialogue's own, or that of a statement, changed. -/
theorem error_cases (h : d.HandsOn change own) {responses : List Response} {e : Error}
    (hresult : (d.play responses).result = .error e) : own e ∨ ∃ cause, e = change cause := by
  induction h generalizing responses with
  | done fails => exact .inl (fails e hresult)
  | @ask call query next failed answered ih =>
    rw [Dialogue.play] at hresult
    cases hanswer : Response.answer call responses.head? with
    | error cause =>
      rw [hanswer, failed] at hresult
      exact .inr ⟨cause, (Except.error.inj hresult).symm⟩
    | ok answer =>
      rw [hanswer] at hresult
      exact ih answer hresult

end Dialogue.HandsOn

namespace Transaction

/-- An operation whose dialogue hands on failures. -/
def HandsOn (change : Error → Error) (own : Error → Prop) (x : Transaction α) : Prop :=
  x.run.HandsOn change own

theorem handsOn_ofExcept {x : Except Error α} (h : ∀ e, x = .error e → own e) :
    (ofExcept x).HandsOn change own :=
  .done h

theorem handsOn_pure (a : α) : (pure a : Transaction α).HandsOn change own :=
  handsOn_ofExcept (x := .ok a) (by simp)

theorem handsOn_ask (call : Call) (query : Query) : (ask call query).HandsOn id own :=
  .ask (fun _ => rfl) fun _ => .done (by simp)

theorem handsOn_mapError_ask (change : Error → Error) (call : Call) (query : Query) :
    ((ask call query).mapError change).HandsOn change own :=
  .ask (fun _ => rfl) fun _ => .done (by simp [Except.mapError])

/-- Failures of both parts are handed on. -/
theorem HandsOn.bind {x : Transaction α} {next : α → Transaction β} (hx : x.HandsOn change own)
    (hnext : ∀ a, (next a).HandsOn change own) : (x >>= next).HandsOn change own := by
  change (x.run.bind (ExceptT.bindCont next)).HandsOn change own
  unfold HandsOn at hx
  generalize x.run = d at hx
  induction hx with
  | @done result fails =>
    cases result with
    | error e => exact .done fun e' he' => fails e' (by simpa using he')
    | ok a => exact hnext a
  | @ask call query continued failed answered ih =>
    refine .ask (fun e => ?_) ih
    rw [failed]
    rfl

end Transaction

/-! ### Operations that write -/

/-- An error that is not a constraint violation. -/
def Error.Classified (e : Error) : Prop :=
  e.isIntegrity = false

namespace Repository

variable (r : Repository)

theorem classified_of_checkColumns {columns : List String} {e : Error}
    (h : r.checkColumns columns = .error e) : e.Classified := by
  rcases r.checkColumns_cases columns with ⟨hcheck, -⟩ | ⟨column, -, -, hcheck⟩
  · simp [hcheck] at h
  · obtain rfl : _ = e := Except.error.inj (hcheck.symm.trans h)
    rfl

theorem classified_of_toJson {row : Row} {e : Error} (h : row.toJson = .error e) : e.Classified := by
  obtain ⟨-, -, -, -, rfl⟩ := Row.exists_of_toJson_eq_error h
  rfl

theorem classified_of_built {query : Except QueryError Query} {e : Error} (h : built query = .error e) :
    e.Classified := by
  cases query with
  | ok query => simp [built] at h
  | error fault =>
    obtain rfl : _ = e := Except.error.inj h
    rfl

theorem classified_of_updateByKey {row : Values} {e : Error} (h : r.updateByKey row = .error e) :
    e.Classified := by
  rcases r.updateByKey_cases row with ⟨-, query, -, hput⟩ | ⟨-, e', hrefuses, hput⟩
  · simp [hput] at h
  · obtain rfl : e' = e := Except.error.inj (hput.symm.trans h)
    rcases hrefuses with ⟨-, rfl⟩ | ⟨-, fault, rfl⟩ <;> rfl

theorem writeOne_handsOn (query : Query) :
    (r.writeOne query).HandsOn r.uniques.translate Error.Classified := by
  refine (Transaction.handsOn_mapError_ask _ _ _).bind fun row => Transaction.handsOn_ofExcept fun e he => ?_
  cases row with
  | none => cases he
  | some row =>
    cases hrow : row.toJson with
    | error cause =>
      simp only [Option.mapM_some, hrow] at he
      cases he
      exact classified_of_toJson hrow
    | ok record =>
      simp only [Option.mapM_some, hrow] at he
      cases he

theorem writeAll_handsOn (query : Query) :
    (r.writeAll query).HandsOn r.uniques.translate Error.Classified := by
  refine (Transaction.handsOn_mapError_ask _ _ _).bind fun rows => Transaction.handsOn_ofExcept fun e he => ?_
  obtain ⟨row, -, hrow⟩ := exists_of_mapM_eq_error he
  exact classified_of_toJson hrow

end Repository

theorem Write.put_handsOn (r : Repository) (w : Write) (query : Query) :
    (w.put r query).HandsOn r.uniques.translate Error.Classified := by
  cases w with
  | insert | update | upsert => exact (r.writeOne_handsOn query).bind fun _ => Transaction.handsOn_pure _
  | insertMany | upsertMany => exact r.writeAll_handsOn query

/-- A write fails by itself before its statement is put, and then with an error of a check. -/
theorem Write.perform_handsOn (r : Repository) (w : Write) :
    (w.perform r).HandsOn r.uniques.translate Error.Classified := by
  by_cases hrows : w.rows = []
  · -- only writes of several records may have no row
    cases w with
    | insert | update | upsert => cases hrows
    | insertMany rows =>
      obtain rfl : rows = [] := hrows
      exact Transaction.handsOn_pure _
    | upsertMany conflict rows =>
      obtain rfl : rows = [] := hrows
      exact Transaction.handsOn_pure _
  · rw [perform_eq hrows]
    refine (Transaction.handsOn_ofExcept fun e he => r.classified_of_checkColumns he).bind fun _ => ?_
    exact (Transaction.handsOn_ofExcept fun e he => Repository.classified_of_built he).bind (w.put_handsOn r)

theorem Repository.updateMany_handsOn (r : Repository) (rows : List Values) :
    (r.updateMany rows).HandsOn r.uniques.translate Error.Classified := by
  induction rows with
  | nil => exact Transaction.handsOn_pure _
  | cons row rest ih =>
    rw [updateMany]
    refine (Transaction.handsOn_ofExcept fun e he => r.classified_of_updateByKey he).bind fun query => ?_
    exact (Transaction.handsOn_mapError_ask _ _ _).bind fun _ => ih.bind fun _ => Transaction.handsOn_pure _

/-! ### Operations that read or remove -/

/-- An operation that returns the errors of its transaction as they are. -/
abbrev Transaction.Transparent (x : Transaction α) : Prop :=
  x.HandsOn id fun _ => True

theorem Transaction.transparent_ofExcept (x : Except Error α) : (ofExcept x).Transparent :=
  handsOn_ofExcept fun _ _ => trivial

theorem Transaction.transparent_hydrate (step : Hydrate Unit) (arena : Arena) :
    (hydrate step arena).Transparent := by
  unfold hydrate
  split <;> exact transparent_ofExcept _

theorem Plan.transparent_loadBatches (p : Plan) (batches : List (Batch × Nat)) (arena : Arena) :
    (p.loadBatches batches arena).Transparent := by
  induction batches generalizing arena with
  | nil => exact Transaction.handsOn_pure _
  | cons batch rest ih =>
    rw [loadBatches]
    split
    · exact ih arena
    · refine (Transaction.handsOn_ask _ _).bind fun rows => ?_
      exact (Transaction.transparent_hydrate _ _).bind fun arena => ih arena

theorem Plan.transparent_load (p : Plan) (statement : Select) : (p.load statement).Transparent := by
  refine (Transaction.handsOn_ask _ _).bind fun rows => ?_
  refine (Transaction.transparent_hydrate _ _).bind fun arena => ?_
  exact (p.transparent_loadBatches _ _).bind fun _ => Transaction.handsOn_pure _

namespace Repository

variable (r : Repository)

theorem transparent_select (predicates : List Condition) (plan : Option Plan) :
    (r.select predicates plan).Transparent := by
  cases plan with
  | none =>
    refine (Transaction.handsOn_ask _ _).bind fun _ => ?_
    exact (Transaction.transparent_ofExcept _).bind fun _ => Transaction.handsOn_pure _
  | some plan =>
    refine (Transaction.transparent_ofExcept _).bind fun _ => ?_
    exact (plan.transparent_load _).bind fun _ => Transaction.handsOn_pure _

theorem transparent_count (predicates : List Condition) : (r.count predicates).Transparent := by
  refine (Transaction.handsOn_ask _ _).bind fun row => ?_
  cases row with
  | none => exact Transaction.handsOn_pure _
  | some row =>
    refine (Transaction.transparent_ofExcept _).bind fun value => ?_
    cases value with
    | int64 | int32 => exact Transaction.handsOn_pure _
    | _ => exact Transaction.transparent_ofExcept _

theorem transparent_selectMany (predicates : List Condition) (plan : Option Plan) (page : Page) :
    (r.selectMany predicates plan page).Transparent := by
  refine (r.transparent_count predicates).bind fun total => ?_
  split
  · exact Transaction.handsOn_pure _
  · refine (Transaction.transparent_ofExcept _).bind fun ordering => ?_
    cases plan with
    | none =>
      refine (Transaction.handsOn_ask _ _).bind fun _ => ?_
      exact (Transaction.transparent_ofExcept _).bind fun _ => Transaction.handsOn_pure _
    | some plan =>
      refine (Transaction.transparent_ofExcept _).bind fun _ => ?_
      exact (plan.transparent_load _).bind fun _ => Transaction.handsOn_pure _

end Repository

/-! ### What is reported -/

namespace Transaction

/-- The first statement of an operation: where it fails, what the error becomes is reported and nothing more is
asked. -/
def Opens (x : Transaction α) (call : Call) (query : Query) (becomes : Error → Error → Prop) : Prop :=
  ∀ e rest, ∃ e', becomes e e' ∧ x.run.play (.failure e :: rest) = ⟨.error e', [(call, query)], rest⟩

/-- The only statement of an operation, with what is returned for the answer to it. -/
structure Puts (x : Transaction α) (call : Call) (query : Query) (becomes : Error → Error → Prop)
    (returned : call.Answer → Except Error α) : Prop where
  failed : x.Opens call query becomes
  answered : ∀ responses answer, Response.answer call responses.head? = .ok answer →
    x.run.play responses = ⟨returned answer, [(call, query)], responses.tail⟩

/-- Wherever a statement of an operation fails, what the error becomes is reported and nothing more is asked. -/
def Ends (x : Transaction α) (becomes : Error → Error → Prop) : Prop :=
  ∀ responses i e, i < (x.run.play responses).asked.length → responses[i]? = some (.failure e) →
    (x.run.play responses).EndsAt responses i e becomes

variable {x : Transaction α} {becomes : Error → Error → Prop} {call : Call} {query : Query}

theorem puts_of_play (change : Error → Error) {returned : call.Answer → Except Error α}
    (hbecomes : ∀ e, becomes e (change e))
    (hplay : ∀ responses, x.run.play responses =
      ⟨((Response.answer call responses.head?).mapError change).bind returned, [(call, query)],
        responses.tail⟩) : x.Puts call query becomes returned := by
  refine ⟨fun e rest => ⟨_, hbecomes e, hplay _⟩, fun responses answer hanswer => ?_⟩
  rw [hplay, hanswer]
  rfl

/-- Where the first statement of a part fails, what follows the part is not reached. -/
theorem Opens.bind (h : x.Opens call query becomes) (next : α → Transaction β) :
    (x >>= next).Opens call query becomes := by
  intro e rest
  obtain ⟨e', hbecomes, hplay⟩ := h e rest
  exact ⟨e', hbecomes, by rw [play_bind, hplay, Played.andThen_error]⟩

theorem HandsOn.ends (h : x.HandsOn change own) (hbecomes : ∀ e, becomes e (change e)) : x.Ends becomes := by
  intro responses i e hasked hfails
  obtain ⟨⟨e', rfl, hresult⟩, hlength, hunused⟩ := Dialogue.HandsOn.play_of_failure h hasked hfails
  exact ⟨⟨_, hbecomes e, hresult⟩, hlength, hunused⟩

/-- An operation none of whose errors is a constraint violation reports none. -/
theorem HandsOn.result_ne_integrity {u : Uniques} (h : x.HandsOn u.translate Error.Classified)
    (responses : List Response) (constraint : Option String) (message : String) :
    (x.run.play responses).result ≠ .error (.integrity constraint message) := by
  intro hresult
  rcases Dialogue.HandsOn.error_cases h hresult with hown | ⟨cause, hcause⟩
  · simp [Error.Classified, Error.isIntegrity] at hown
  · have hleft := (u.translation_translate cause).isIntegrity
    simp [← hcause, Error.isIntegrity] at hleft

end Transaction

namespace Repository

/-- What the row of a probe says; without a row nothing exists. -/
def probed : Option Row → Except Error Bool
  | none => .ok false
  | some row =>
    match row.named "exists" with
    | .error e => .error e
    | .ok (.bool b) => .ok b
    | .ok _ => .ok false

/-- How the operations of a repository report what a transaction fails with. -/
structure Reports (r : Repository) : Prop where
  /-- A write that can be put translates the failure of its statement. A row that comes back and cannot be
  decoded is reported as it is. -/
  write : ∀ w : Write, w.rows ≠ [] → ¬ w.Faulty r.entity → ∃ query, w.render r.entity.table = .ok query ∧
    (w.perform r).Puts w.call query r.uniques.Translation w.returned
  /-- Several updates put their statements one after the other. -/
  updateMany : ∀ rows, (r.updateMany rows).Ends r.uniques.Translation ∧
    ∀ row ∈ rows.head?, ¬ r.FaultyRow row → ∃ query, r.Updates row query ∧
      (r.updateMany rows).Opens .execute query r.uniques.Translation
  /-- No write reports a constraint violation, whatever it is answered. -/
  classified : ∀ responses constraint message,
    (∀ w : Write, ((w.perform r).run.play responses).result ≠ .error (.integrity constraint message)) ∧
    ∀ rows, ((r.updateMany rows).run.play responses).result ≠ .error (.integrity constraint message)
  delete : ∀ predicates, (r.delete predicates).Puts .fetchOptional
    (Deletion.mk r.entity.table predicates).render Eq fun row => (Option.mapM Row.toJson row).map (.of .delete)
  select : ∀ predicates, (r.select predicates none).Puts .fetchOptional
    (r.bareSelect predicates [] (some 1) none).render Eq fun row =>
      (Option.mapM Row.toJson row).map (.of .select)
  /-- A plan for another entity is refused with nothing asked. -/
  selectWith : ∀ predicates (plan : Plan), (r.select predicates (some plan)).Ends Eq ∧
    (plan.root.name = r.entity.name → (r.select predicates (some plan)).Opens .fetchAll
      (plan.selectFor predicates [] (some 1) none).render Eq)
  selectMany : ∀ predicates plan page, (r.selectMany predicates plan page).Ends Eq ∧
    (r.selectMany predicates plan page).Opens .fetchOptional (RowCount.mk r.entity.table predicates).render Eq
  count : ∀ predicates, (r.count predicates).Puts .fetchOptional
    (RowCount.mk r.entity.table predicates).render Eq counted
  existing : ∀ predicates, (r.existing predicates).Puts .fetchOptional
    (RowProbe.mk r.entity.table predicates).render Eq probed

theorem write_puts (r : Repository) (w : Write) (hrows : w.rows ≠ []) (hsound : ¬ w.Faulty r.entity) :
    ∃ query, w.render r.entity.table = .ok query ∧
      (w.perform r).Puts w.call query r.uniques.Translation w.returned := by
  obtain ⟨query, hquery⟩ := (Write.exists_render r.entity.table hrows).mpr fun hunwritable =>
    hsound (.inr hunwritable)
  refine ⟨query, hquery, Transaction.puts_of_play _ r.uniques.translation_translate fun responses => ?_⟩
  rcases w.play_perform_cases hrows r responses with ⟨hfaulty, -⟩ | ⟨-, -, query', hquery', hput⟩
  · exact absurd hfaulty hsound
  · obtain rfl : query' = query := Except.ok.inj (hquery'.symm.trans hquery)
    rw [hput, Write.play_put]

theorem updateMany_opens (r : Repository) (rest : List Values) {row : Values} (hsound : ¬ r.FaultyRow row) :
    ∃ query, r.Updates row query ∧
      (r.updateMany (row :: rest)).Opens .execute query r.uniques.Translation := by
  rcases r.updateByKey_cases row with ⟨-, query, hquery, hput⟩ | ⟨hfaulty, -⟩
  · refine ⟨query, hquery, fun e responses => ⟨_, r.uniques.translation_translate e, ?_⟩⟩
    rw [play_updateMany_cons, hput]
    rfl
  · exact absurd hfaulty hsound

/-- An operation that reads the first row that comes back for its only statement. -/
theorem puts_fetchOptional {query : Query} (category : Category) :
    (Transaction.ask .fetchOptional query >>= fun row => Transaction.ofExcept (row.mapM Row.toJson) >>=
      fun record => pure (Outcome.of category record)).Puts .fetchOptional query Eq fun row =>
        (Option.mapM Row.toJson row).map (.of category) := by
  refine Transaction.puts_of_play id (fun e => rfl) fun responses => ?_
  rw [Transaction.play_bind, Transaction.play_ask]
  cases Response.answer .fetchOptional responses.head? with
  | error e => rfl
  | ok row =>
    simp only [Played.andThen_ok, Transaction.play_bind_pure, Transaction.play_ofExcept]
    rfl

theorem count_puts (r : Repository) (predicates : List Condition) : (r.count predicates).Puts .fetchOptional
    (RowCount.mk r.entity.table predicates).render Eq counted := by
  refine Transaction.puts_of_play id (fun e => rfl) fun responses => ?_
  rw [play_count, totalOf]
  cases Response.answer .fetchOptional responses.head? <;> rfl

theorem existing_puts (r : Repository) (predicates : List Condition) :
    (r.existing predicates).Puts .fetchOptional (RowProbe.mk r.entity.table predicates).render Eq probed := by
  refine Transaction.puts_of_play id (fun e => rfl) fun responses => ?_
  rw [existing, Transaction.play_bind, Transaction.play_ask]
  cases Response.answer .fetchOptional responses.head? with
  | error e => rfl
  | ok row =>
    cases row with
    | none => rfl
    | some row =>
      change Played.andThen ⟨.ok (some row), _, _⟩ _ = ⟨probed (some row), _, _⟩
      rw [Played.andThen_ok]
      simp only [Transaction.play_bind, Transaction.play_ofExcept, probed]
      cases row.named "exists" with
      | error e => rfl
      | ok value => cases value <;> rfl

theorem select_opens (r : Repository) (predicates : List Condition) {plan : Plan}
    (hroot : plan.root.name = r.entity.name) : (r.select predicates (some plan)).Opens .fetchAll
      (plan.selectFor predicates [] (some 1) none).render Eq := by
  intro e rest
  refine ⟨e, rfl, ?_⟩
  rw [select, Transaction.play_bind, Transaction.play_ofExcept, checkPlan, if_pos hroot]
  rfl

end Repository

/-- A write translates what the transaction fails with, so that no constraint violation is reported; an operation
that reads or removes returns it unchanged. -/
theorem Repository.failures_reported (r : Repository) : r.Reports where
  write := r.write_puts
  updateMany rows := by
    refine ⟨(r.updateMany_handsOn rows).ends r.uniques.translation_translate, fun row hrow hsound => ?_⟩
    obtain ⟨rest, rfl⟩ : ∃ rest, rows = row :: rest := ⟨_, List.eq_cons_of_mem_head? hrow⟩
    exact r.updateMany_opens rest hsound
  classified responses constraint message :=
    ⟨fun w => (w.perform_handsOn r).result_ne_integrity responses constraint message,
      fun rows => (r.updateMany_handsOn rows).result_ne_integrity responses constraint message⟩
  delete predicates := puts_fetchOptional .delete
  select predicates := puts_fetchOptional .select
  selectWith predicates plan :=
    ⟨(r.transparent_select predicates (some plan)).ends fun e => rfl, r.select_opens predicates⟩
  selectMany predicates plan page :=
    ⟨(r.transparent_selectMany predicates plan page).ends fun e => rfl,
      (r.count_puts predicates).failed.bind _⟩
  count := r.count_puts
  existing := r.existing_puts

/-- A user whose name is taken. -/
def namesake : Write := .insert (.ofList [("name", .text "Eve")])

/-- What the transaction says of it. -/
def nameTaken : Error := .integrity (some "user_name_key") "duplicate key value"

/-- The user cannot be inserted: the violation is a conflict over the name. A deletion that fails in the same way
returns the violation unchanged. -/
theorem members_failures :
    namesake.rows ≠ [] ∧ ¬ namesake.Faulty members.entity ∧
      (∃ query, namesake.render "user" = .ok query ∧
        members.uniques.Translation nameTaken (.conflict "name already in use") ∧
        (namesake.perform members).run.play [.failure nameTaken, .affected 1] =
          ⟨.error (.conflict "name already in use"), [(.fetchOptional, query)], [.affected 1]⟩) ∧
      (members.delete [.compare (.bare "uuid") .equal (.text "a")]).run.play [.failure nameTaken] =
        ⟨.error nameTaken,
          [(.fetchOptional, ⟨"DELETE FROM \"user\" WHERE \"uuid\" = $1 RETURNING *", [.text "a"]⟩)], []⟩ := by
  have hrows : namesake.rows ≠ [] := by decide
  have hsound : ¬ namesake.Faulty members.entity := by
    unfold Write.Faulty namesake Write.Unwritable
    decide
  obtain ⟨query, hquery, hputs⟩ := (Repository.failures_reported members).write namesake hrows hsound
  obtain ⟨e, htranslation, hplay⟩ := hputs.failed nameTaken [.affected 1]
  have hresult : ((namesake.perform members).run.play [.failure nameTaken, .affected 1]).result =
      .error (.conflict "name already in use") := by rfl
  rw [hplay] at hresult
  obtain rfl := Except.error.inj hresult
  have hdelete := (Repository.failures_reported members).delete [.compare (.bare "uuid") .equal (.text "a")]
  obtain ⟨_, rfl, hplay'⟩ := hdelete.failed nameTaken []
  exact ⟨hrows, hsound, ⟨query, hquery, htranslation, hplay⟩, hplay'⟩

end EagerLoad
