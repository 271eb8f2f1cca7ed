import EagerLoad.Proofs.Playing
import EagerLoad.Proofs.Sql.Writes
import EagerLoad.Repository.Basic

/-!
# Writes are checked before they are put

A write that names a column which its entity does not have, or for which there is no statement, is refused
before anything is asked. Any other write puts one statement, whose text names the table of the entity and
columns of the entity only.
-/

namespace EagerLoad

open Sql

/-- What a repository is asked to write by one statement. -/
inductive Write where
  | insert (values : Values)
  | insertMany (rows : List Values)
  | update (predicates : List Condition) (values : Values)
  | upsert (conflict : List String) (values : Values)
  | upsertMany (conflict : List String) (rows : List Values)

namespace Write

/-- The rows to write; those of an update are its values. -/
def rows : Write → List Values
  | .insert values => [values]
  | .insertMany rows => rows
  | .update _ values => [values]
  | .upsert _ values => [values]
  | .upsertMany _ rows => rows

/-- The columns that are named, in the order in which they are checked. -/
def columns : Write → List String
  | .insert values => values.keys
  | .insertMany rows => rows.flatMap KeyMap.keys
  | .update _ values => values.keys
  | .upsert conflict values => values.keys ++ conflict
  | .upsertMany conflict rows => conflict ++ rows.flatMap KeyMap.keys

/-- What a write returns. -/
abbrev Result : Write → Type
  | .insert _ => Outcome Json
  | .insertMany _ => List Json
  | .update _ _ => Outcome Json
  | .upsert _ _ => Outcome Json
  | .upsertMany _ _ => List Json

/-- Write to a repository. -/
def perform (r : Repository) : (w : Write) → Transaction w.Result
  | .insert values => r.insert values
  | .insertMany rows => r.insertMany rows
  | .update predicates values => r.update predicates values
  | .upsert conflict values => r.upsert conflict values
  | .upsertMany conflict rows => r.upsertMany conflict rows

/-- No statement can write several rows that have no column, an update without values, or an upsert
without a column of a conflict. -/
def Unwritable : Write → Prop
  | .insert _ => False
  | .insertMany rows => 1 < rows.length ∧ ∀ row ∈ rows, row.keys = []
  | .update _ values => values.keys = []
  | .upsert conflict _ => conflict = []
  | .upsertMany conflict rows => conflict = [] ∨ (1 < rows.length ∧ ∀ row ∈ rows, row.keys = [])

/-- A write is faulty if it names a column that the entity does not have, or if it is unwritable. -/
def Faulty (e : Entity) (w : Write) : Prop :=
  (∃ column ∈ w.columns, e.hasColumn column = false) ∨ w.Unwritable

/-- The statement of a write to a table, or why there is none. -/
def render (table : String) : Write → Except QueryError Query
  | .insert values => (Insertion.mk table [values]).render
  | .insertMany rows => (Insertion.mk table rows).render
  | .update predicates values => (Update.mk table values predicates).render
  | .upsert conflict values => (Upsert.mk ⟨table, [values]⟩ conflict).render
  | .upsertMany conflict rows => (Upsert.mk ⟨table, rows⟩ conflict).render

/-- How the statement of a write is put. -/
def call : Write → Call
  | .insertMany _ => .fetchAll
  | .upsertMany _ _ => .fetchAll
  | _ => .fetchOptional

/-- Put the statement of a write. -/
def put (r : Repository) : (w : Write) → Query → Transaction w.Result
  | .insert _, query => do return .of .create (← r.writeOne query)
  | .insertMany _, query => r.writeAll query
  | .update _ _, query => do return .of .update (← r.writeOne query)
  | .upsert _ _, query => do return .of .create (← r.writeOne query)
  | .upsertMany _ _, query => r.writeAll query

/-- What a write makes of what comes back for its statement. -/
def returned : (w : Write) → w.call.Answer → Except Error w.Result
  | .insert _, row => (Option.mapM Row.toJson row).map (.of .create)
  | .insertMany _, rows => List.mapM Row.toJson rows
  | .update _ _, row => (Option.mapM Row.toJson row).map (.of .update)
  | .upsert _ _, row => (Option.mapM Row.toJson row).map (.of .create)
  | .upsertMany _ _, rows => List.mapM Row.toJson rows

end Write

variable {r : Repository} {w : Write} {responses : List Response}

namespace Repository

/-- Checking the columns of rows one after the other checks all of them. -/
theorem checkRows_eq (r : Repository) (rows : List Values) :
    (rows.forM fun row => r.checkColumns row.keys) = r.checkColumns (rows.flatMap KeyMap.keys) := by
  induction rows with
  | nil => rfl
  | cons row rest ih =>
    rw [List.flatMap_cons, checkColumns_append, ← ih]
    rfl

end Repository

namespace Write

/-- A write checks its columns, makes its statement, and puts it. -/
theorem perform_eq (h : w.rows ≠ []) : w.perform r =
    Transaction.ofExcept (r.checkColumns w.columns) >>= fun _ =>
      Transaction.ofExcept (Repository.built (w.render r.entity.table)) >>= w.put r := by
  cases w with
  | insert values => rfl
  | insertMany rows =>
    have hrows : rows ≠ [] := h
    have hempty : ¬ rows.isEmpty = true := by simpa using hrows
    rw [perform, Repository.insertMany, if_neg hempty, r.checkRows_eq]
    rfl
  | update predicates values => rfl
  | upsert conflict values =>
    simp only [columns, r.checkColumns_append, Transaction.ofExcept_bind]
    rfl
  | upsertMany conflict rows =>
    have hrows : rows ≠ [] := h
    have hempty : ¬ rows.isEmpty = true := by simpa using hrows
    rw [perform, Repository.upsertMany, if_neg hempty, r.checkRows_eq, columns, r.checkColumns_append,
      Transaction.ofExcept_bind]
    rfl

/-- A statement that is put for a write is the only one, whatever the answer. A failure is translated, and
what comes back is read. -/
theorem play_put (w : Write) (query : Query) : (w.put r query).run.play responses =
    ⟨((Response.answer w.call responses.head?).mapError r.uniques.translate).bind w.returned,
      [(w.call, query)], responses.tail⟩ := by
  have hone : (r.writeOne query).run.play responses =
      ⟨((Response.answer .fetchOptional responses.head?).mapError r.uniques.translate).bind fun row =>
        row.mapM Row.toJson, [(.fetchOptional, query)], responses.tail⟩ := by
    rw [Repository.writeOne, Transaction.play_bind_ofExcept, Transaction.play_mapError, Transaction.play_ask]
  have hall : (r.writeAll query).run.play responses =
      ⟨((Response.answer .fetchAll responses.head?).mapError r.uniques.translate).bind fun rows =>
        rows.mapM Row.toJson, [(.fetchAll, query)], responses.tail⟩ := by
    rw [Repository.writeAll, Transaction.play_bind_ofExcept, Transaction.play_mapError, Transaction.play_ask]
  cases w with
  | insert | update | upsert =>
    rw [put, Transaction.play_bind_pure, hone]
    change Played.mk _ [(.fetchOptional, query)] responses.tail = _
    simp only [call]
    cases Response.answer .fetchOptional responses.head? <;> rfl
  | insertMany | upsertMany => exact hall

/-- There is a statement for every write but those that no statement can make. -/
theorem exists_render (table : String) (h : w.rows ≠ []) :
    (∃ q, w.render table = .ok q) ↔ ¬ w.Unwritable := by
  cases w with
  | insert values =>
    refine (Insertion.exists_render (s := ⟨table, [values]⟩) h).trans ?_
    simp [Unwritable]
  | insertMany rows => exact Insertion.exists_render (s := ⟨table, rows⟩) h
  | update predicates values => exact Update.exists_render
  | upsert conflict values =>
    refine (Upsert.exists_render (s := ⟨⟨table, [values]⟩, conflict⟩) h).trans ?_
    simp [Unwritable]
  | upsertMany conflict rows =>
    rw [Unwritable, not_or]
    exact Upsert.exists_render (s := ⟨⟨table, rows⟩, conflict⟩) h

/-- The statement of a write names its table and the columns that the write names. -/
theorem writeText_of_render {table : String} {q : Query} (h : w.render table = .ok q) :
    ∃ t, WriteText.read q = some t ∧ t.table = table ∧
      ∀ column, column ∈ t.columns ↔ column ∈ w.columns := by
  have hinsert {rows : List Values} (h : (Insertion.mk table rows).render = .ok q) :
      ∃ t, WriteText.read q = some t ∧ t.table = table ∧
        ∀ column, column ∈ t.columns ↔ column ∈ rows.flatMap KeyMap.keys := by
    refine ⟨_, Insertion.writeText_render h, rfl, fun column => ?_⟩
    simpa [WriteText.columns] using Insertion.mem_columns (s := ⟨table, rows⟩)
  have hupsert {rows : List Values} {conflict : List String}
      (h : (Upsert.mk ⟨table, rows⟩ conflict).render = .ok q) :
      ∃ t, WriteText.read q = some t ∧ t.table = table ∧
        ∀ column, column ∈ t.columns ↔ column ∈ rows.flatMap KeyMap.keys ++ conflict := by
    refine ⟨_, Upsert.writeText_render h, rfl, fun column => ?_⟩
    -- what is overwritten is named before
    have hassigned := @Upsert.assigned_subset ⟨⟨table, rows⟩, conflict⟩ column
    simp only [WriteText.columns, List.mem_append, Insertion.mem_columns, List.mem_flatMap (b := column),
      List.mem_cons, List.not_mem_nil, or_false, or_self] at hassigned ⊢
    refine ⟨?_, .inl⟩
    rintro (hnamed | ⟨_, hcolumn, rfl⟩)
    · exact hnamed
    · exact hassigned hcolumn
  cases w with
  | insert values => simpa [columns] using hinsert h
  | insertMany rows => exact hinsert h
  | update predicates values =>
    exact ⟨_, Update.writeText_render h, rfl, fun column => by simp [WriteText.columns, columns]⟩
  | upsert conflict values => simpa [columns] using hupsert h
  | upsertMany conflict rows =>
    obtain ⟨t, hread, htable, hcolumns⟩ := hupsert h
    refine ⟨t, hread, htable, fun column => (hcolumns column).trans ?_⟩
    rw [columns, List.mem_append, List.mem_append, or_comm]

end Write

/-- A write is refused with nothing asked, or its statement is put. -/
theorem Write.play_perform_cases (h : w.rows ≠ []) (r : Repository) (responses : List Response) :
    (w.Faulty r.entity ∧ ∃ e : QueryError,
      (w.perform r).run.play responses = ⟨.error (.query e.message), [], responses⟩) ∨
    (¬ w.Faulty r.entity ∧ (∀ column ∈ w.columns, r.entity.hasColumn column = true) ∧
      ∃ query, w.render r.entity.table = .ok query ∧
        (w.perform r).run.play responses = (w.put r query).run.play responses) := by
  rw [perform_eq h, Transaction.play_bind, Transaction.play_ofExcept]
  rcases r.checkColumns_cases w.columns with
    ⟨hcheck, hdeclared⟩ | ⟨column, hcolumn, hundeclared, hcheck⟩
  · rw [hcheck, Played.andThen_ok, Transaction.play_bind, Transaction.play_ofExcept]
    have hnone : ¬ ∃ column ∈ w.columns, r.entity.hasColumn column = false := by
      rintro ⟨column, hcolumn, hundeclared⟩
      simp [hdeclared column hcolumn] at hundeclared
    have hrender := exists_render r.entity.table h
    cases hquery : w.render r.entity.table with
    | error e =>
      have hunwritable : w.Unwritable := by
        by_contra hwritable
        obtain ⟨query, hok⟩ := hrender.mpr hwritable
        simp [hquery] at hok
      exact .inl ⟨.inr hunwritable, e, rfl⟩
    | ok query =>
      have hwritable : ¬ w.Unwritable := hrender.mp ⟨query, hquery⟩
      exact .inr ⟨fun hfaulty => hfaulty.elim hnone hwritable, hdeclared, query, rfl, rfl⟩
  · rw [hcheck, Played.andThen_error]
    exact .inl ⟨.inl ⟨column, hcolumn, hundeclared⟩, _, rfl⟩

/-- A write that is faulty is refused before anything is asked. Any other write asks one statement, which
names the table of the entity and the columns of the write, and all of these are columns of the entity. -/
theorem Write.play_perform (h : w.rows ≠ []) (r : Repository) (responses : List Response) :
    (w.Faulty r.entity → ∃ e : QueryError,
      (w.perform r).run.play responses = ⟨.error (.query e.message), [], responses⟩) ∧
    (¬ w.Faulty r.entity → ∃ query t, ((w.perform r).run.play responses).asked = [(w.call, query)] ∧
      WriteText.read query = some t ∧ t.table = r.entity.table ∧
      ∀ column, column ∈ t.columns ↔ column ∈ w.columns ∧ r.entity.hasColumn column = true) := by
  rcases w.play_perform_cases h r responses with
    ⟨hfaulty, hrefused⟩ | ⟨hsound, hdeclared, query, hquery, hput⟩
  · exact ⟨fun _ => hrefused, fun hsound => absurd hfaulty hsound⟩
  · refine ⟨fun hfaulty => absurd hfaulty hsound, fun _ => ?_⟩
    obtain ⟨t, hread, htable, hcolumns⟩ := writeText_of_render hquery
    refine ⟨query, t, by rw [hput, play_put], hread, htable, fun column => (hcolumns column).trans ?_⟩
    exact ⟨fun hcolumn => ⟨hcolumn, hdeclared column hcolumn⟩, And.left⟩

/-- A repository of users, whose names are unique. -/
def members : Repository :=
  ⟨.declare "User" "user" "uuid" ["name", "role_uuid"], ⟨["name"]⟩⟩

/-- Users to be upserted by name, the second with a null and without a role. -/
def memberRows : List Values :=
  [.ofList [("name", .text "Eve"), ("role_uuid", .text "a")], .ofList [("name", .null)]]

/-- Users can be upserted by name, but not by a column that they do not have. -/
theorem members_perform :
    (Write.upsertMany ["name"] memberRows).rows ≠ [] ∧
      (∃ query t, (((Write.upsertMany ["name"] memberRows).perform members).run.play []).asked =
          [(.fetchAll, query)] ∧ WriteText.read query = some t ∧ t.table = "user" ∧
        ∀ column, column ∈ t.columns ↔ column ∈ (Write.upsertMany ["name"] memberRows).columns ∧
          members.entity.hasColumn column = true) ∧
      ∃ e : QueryError, ((Write.upsertMany ["login"] memberRows).perform members).run.play [] =
        ⟨.error (.query e.message), [], []⟩ := by
  have hrows : (Write.upsertMany ["name"] memberRows).rows ≠ [] := by decide
  have hsound : ¬ (Write.upsertMany ["name"] memberRows).Faulty members.entity := by
    unfold Write.Faulty Write.Unwritable
    decide
  have hfaulty : (Write.upsertMany ["login"] memberRows).Faulty members.entity :=
    .inl ⟨"login", by decide, by decide⟩
  exact ⟨hrows, (Write.play_perform hrows members []).2 hsound,
    (Write.play_perform (by decide) members []).1 hfaulty⟩

end EagerLoad
