import EagerLoad.Proofs.Maps
import EagerLoad.Proofs.Repository.Writes
import Mathlib.Data.UInt

/-!
# Updates of several records

Records are updated one after the other, each row being checked just before its own statement is put. So a
faulty row stops the updates, but what was asked for the rows before it has been asked: nothing is asked
exactly where the first row is faulty, or where there is no row.
-/

namespace EagerLoad

open Sql

namespace Repository

variable (r : Repository)

/-- The primary key of a row, unless it is null. -/
def keyOf (row : Values) : Option Value :=
  (row.get? r.entity.primaryKey).filter fun value => !value.isNull

/-- A row cannot be updated without a primary key, with a column that the entity does not have, or with
no column beside the primary key. -/
def FaultyRow (row : Values) : Prop :=
  r.keyOf row = none ∨
    (∃ column ∈ row.keys, column ≠ r.entity.primaryKey ∧ r.entity.hasColumn column = false) ∨
    ∀ column ∈ row.keys, column = r.entity.primaryKey

instance : DecidablePred r.FaultyRow := fun _ => inferInstanceAs (Decidable (_ ∨ _ ∨ _))

/-- The rows before the first faulty one. -/
def soundRows (rows : List Values) : List Values :=
  rows.takeWhile fun row => ¬ r.FaultyRow row

/-- The first faulty row. -/
def firstFaulty (rows : List Values) : Option Values :=
  rows.find? fun row => r.FaultyRow row

/-- The update that sets the other columns of a row where the primary key has a value. -/
def updateOf (row : Values) (key : Value) : Update :=
  ⟨r.entity.table, row.erase r.entity.primaryKey, [.compare (.bare r.entity.primaryKey) .equal key]⟩

/-- The statement of a row sets its columns where the primary key is that of the row. -/
def Updates (row : Values) (query : Query) : Prop :=
  ∃ key, r.keyOf row = some key ∧ (r.updateOf row key).render = .ok query

/-- An error with which a faulty row is refused: a validation error if it has no key. -/
def Refuses (row : Values) (e : Error) : Prop :=
  (r.keyOf row = none ∧ e = .validation s!"update_many row is missing '{r.entity.primaryKey}'") ∨
    (r.keyOf row ≠ none ∧ ∃ fault : QueryError, e = .query fault.message)

/-- What the statement at a position of some updates is answered. -/
def affectedBy (responses : List Response) (i : Nat) : Except Error UInt64 :=
  Response.answer .execute responses[i]?

/-- How the updates of rows end whose sound rows have the given statements. -/
inductive Ending (rows : List Values) (queries : List Query) (responses : List Response)
    (run : Played (Except Error UInt64)) : Prop
  /-- A statement fails, and those behind it are not put. -/
  | failed (i : Nat) (e : Error) (within : i < queries.length)
    (before : ∀ j < i, ∃ n, affectedBy responses j = .ok n) (fails : affectedBy responses i = .error e)
    (asked : run.asked = (queries.take (i + 1)).map fun query => (.execute, query))
    (result : run.result = .error (r.uniques.translate e))
  /-- All are answered, and the first faulty row is refused. -/
  | refused (row : Values) (e : Error) (faulty : r.firstFaulty rows = some row) (refuses : r.Refuses row e)
    (answered : ∀ i < queries.length, ∃ n, affectedBy responses i = .ok n)
    (asked : run.asked = queries.map fun query => (.execute, query))
    (result : run.result = .error e)
  /-- All are answered, and no row is faulty. -/
  | finished (counts : List UInt64) (sound : r.firstFaulty rows = none)
    (answered : (List.range queries.length).map (affectedBy responses) = counts.map .ok)
    (asked : run.asked = queries.map fun query => (.execute, query))
    (result : run.result = .ok counts.sum)

variable {r} {row : Values} {rows : List Values} {responses : List Response}

/-- The columns of a row with a key are checked, and then its statement is made. -/
theorem updateByKey_of_key {key : Value} (hkey : r.keyOf row = some key) : r.updateByKey row =
    r.checkColumns (r.updateOf row key).values.keys >>= fun _ => built (r.updateOf row key).render := by
  unfold keyOf at hkey
  simp only [updateByKey, hkey, updateOf]

/-- A row with a key is not faulty if its other columns are declared and there is one. -/
theorem not_faultyRow_iff {key : Value} (hkey : r.keyOf row = some key) : ¬ r.FaultyRow row ↔
    (∀ column ∈ (r.updateOf row key).values.keys, r.entity.hasColumn column = true) ∧
      (r.updateOf row key).values.keys ≠ [] := by
  simp only [FaultyRow, hkey, reduceCtorEq, false_or, not_or, updateOf, ne_eq,
    List.eq_nil_iff_forall_not_mem, KeyMap.mem_keys_erase]
  push Not
  simp only [ne_eq, Bool.not_eq_false, and_imp]

/-- A row is refused if it is faulty, and else has a statement. -/
theorem updateByKey_cases (r : Repository) (row : Values) :
    (¬ r.FaultyRow row ∧ ∃ query, r.Updates row query ∧ r.updateByKey row = .ok query) ∨
      (r.FaultyRow row ∧ ∃ e, r.Refuses row e ∧ r.updateByKey row = .error e) := by
  cases hkey : r.keyOf row with
  | none =>
    refine .inr ⟨.inl hkey, _, .inl ⟨hkey, rfl⟩, ?_⟩
    unfold keyOf at hkey
    simp only [updateByKey, hkey]
    rfl
  | some key =>
    have hkeyed : r.keyOf row ≠ none := by simp [hkey]
    have hsound := not_faultyRow_iff hkey
    rw [updateByKey_of_key hkey]
    rcases r.checkColumns_cases (r.updateOf row key).values.keys with
      ⟨hcheck, hdeclared⟩ | ⟨column, hcolumn, hundeclared, hcheck⟩
    · have hrender : (∃ query, (r.updateOf row key).render = .ok query) ↔ ¬ r.FaultyRow row :=
        Update.exists_render.trans (hsound.trans (and_iff_right hdeclared)).symm
      rw [hcheck]
      cases hquery : (r.updateOf row key).render with
      | error fault =>
        have hfaulty : r.FaultyRow row := by
          by_contra hnot
          obtain ⟨query, hok⟩ := hrender.mpr hnot
          simp [hquery] at hok
        exact .inr ⟨hfaulty, _, .inr ⟨hkeyed, fault, rfl⟩, rfl⟩
      | ok query => exact .inl ⟨hrender.mp ⟨query, hquery⟩, query, ⟨key, hkey, hquery⟩, rfl⟩
    · have hfaulty : r.FaultyRow row := by
        by_contra hnot
        simp [(hsound.mp hnot).1 column hcolumn] at hundeclared
      rw [hcheck]
      exact .inr ⟨hfaulty, _, .inr ⟨hkeyed, _, rfl⟩, rfl⟩

/-- A row that is faulty ends the updates. The statement of any other row is put, and the rest follows
unless it fails. -/
theorem play_updateMany_cons (r : Repository) (row : Values) (rest : List Values)
    (responses : List Response) : (r.updateMany (row :: rest)).run.play responses =
      match r.updateByKey row with
      | .error e => ⟨.error e, [], responses⟩
      | .ok query =>
        match affectedBy responses 0 with
        | .error e => ⟨.error (r.uniques.translate e), [(.execute, query)], responses.tail⟩
        | .ok affected =>
          let later := (r.updateMany rest).run.play responses.tail
          ⟨later.result.map (affected + ·), (.execute, query) :: later.asked, later.unused⟩ := by
  rw [updateMany, Transaction.play_bind, Transaction.play_ofExcept]
  cases r.updateByKey row with
  | error e => rfl
  | ok query =>
    rw [Played.andThen_ok, Transaction.play_bind, Transaction.play_mapError, Transaction.play_ask,
      affectedBy, ← List.head?_eq_getElem?]
    cases Response.answer .execute responses.head? with
    | error e => rfl
    | ok affected =>
      simp only [Except.mapError, Played.andThen_ok, Transaction.play_bind_pure, List.nil_append,
        List.singleton_append]

theorem affectedBy_tail (i : Nat) : affectedBy responses.tail i = affectedBy responses (i + 1) := by
  rw [affectedBy, affectedBy, List.getElem?_tail]

namespace Ending

variable {query : Query} {queries : List Query} {e : Error} {affected : UInt64}

/-- What is answered for a statement in front counts with what is answered for the others. -/
theorem cons (hsound : ¬ r.FaultyRow row) (hanswer : affectedBy responses 0 = .ok affected)
    {later : Played (Except Error UInt64)} (h : r.Ending rows queries responses.tail later) :
    r.Ending (row :: rows) (query :: queries) responses
      ⟨later.result.map (affected + ·), (.execute, query) :: later.asked, later.unused⟩ := by
  have hfirst : r.firstFaulty (row :: rows) = r.firstFaulty rows := by simp [firstFaulty, hsound]
  -- positions move by one
  have hanswered {n : Nat} (h : ∀ i < n, ∃ m, affectedBy responses.tail i = .ok m) :
      ∀ i < n + 1, ∃ m, affectedBy responses i = .ok m := by
    intro i hi
    cases i with
    | zero => exact ⟨affected, hanswer⟩
    | succ i => exact affectedBy_tail i ▸ h i (by omega)
  cases h with
  | failed i e within before fails asked result =>
    refine .failed (i + 1) e (by simpa using within) (hanswered before) (affectedBy_tail i ▸ fails) ?_ ?_
    · simp [asked]
    · simp [result, Except.map]
  | refused faulty e hfaulty hrefuses answered asked result =>
    refine .refused faulty e (hfirst ▸ hfaulty) hrefuses (hanswered answered) ?_ ?_
    · simp [asked]
    · simp [result, Except.map]
  | finished counts sound answered asked result =>
    refine .finished (affected :: counts) (hfirst ▸ sound) ?_ ?_ ?_
    · rw [List.length_cons, List.range_succ_eq_map, List.map_cons, List.map_map, hanswer, List.map_cons,
        ← answered]
      exact congrArg _ (List.map_congr_left fun i _ => (affectedBy_tail i).symm)
    · simp [asked]
    · simp [result, Except.map]

/-- Whatever the answers are, the first statement is put. -/
theorem asked_eq_nil {run : Played (Except Error UInt64)} (h : r.Ending rows queries responses run) :
    run.asked = [] ↔ queries = [] := by
  cases h with
  | failed i e within before fails asked result =>
    have hqueries : queries ≠ [] := List.ne_nil_of_length_pos (by omega)
    simp [asked, hqueries]
  | refused faulty e hfaulty hrefuses answered asked result => simp [asked]
  | finished counts sound answered asked result => simp [asked]

end Ending

/-- The statements of the rows before the first faulty one are put, up to the first that fails. -/
theorem exists_ending (r : Repository) (rows : List Values) (responses : List Response) :
    ∃ queries, List.Forall₂ r.Updates (r.soundRows rows) queries ∧
      r.Ending rows queries responses ((r.updateMany rows).run.play responses) := by
  induction rows generalizing responses with
  | nil => exact ⟨[], .nil, .finished [] rfl rfl rfl rfl⟩
  | cons row rest ih =>
    rw [play_updateMany_cons]
    rcases r.updateByKey_cases row with ⟨hsound, query, hquery, hput⟩ | ⟨hfaulty, e, hrefuses, hput⟩
    · obtain ⟨queries, hqueries, hending⟩ := ih responses.tail
      have hrows : r.soundRows (row :: rest) = row :: r.soundRows rest := by simp [soundRows, hsound]
      refine ⟨query :: queries, hrows ▸ .cons hquery hqueries, ?_⟩
      rw [hput]
      cases hanswer : affectedBy responses 0 with
      | error e => exact .failed 0 e (by simp) (by simp) hanswer (by simp) rfl
      | ok affected => exact hending.cons hsound hanswer
    · have hrows : r.soundRows (row :: rest) = [] := by simp [soundRows, hfaulty]
      have hfirst : r.firstFaulty (row :: rest) = some row := by simp [firstFaulty, hfaulty]
      refine ⟨[], hrows ▸ .nil, ?_⟩
      rw [hput]
      exact .refused row e hfirst hrefuses (by simp) rfl rfl

/-- Updates put the statements of the rows before the first faulty one, in order and up to the first that
fails, and nothing for the faulty row or behind it. So nothing is put exactly where the first row is
faulty or there is no row. -/
theorem play_updateMany (r : Repository) (rows : List Values) (responses : List Response) :
    ∃ queries, List.Forall₂ r.Updates (r.soundRows rows) queries ∧
      r.Ending rows queries responses ((r.updateMany rows).run.play responses) ∧
      (((r.updateMany rows).run.play responses).asked = [] ↔ ∀ row ∈ rows.head?, r.FaultyRow row) := by
  obtain ⟨queries, hqueries, hending⟩ := r.exists_ending rows responses
  refine ⟨queries, hqueries, hending, hending.asked_eq_nil.trans ?_⟩
  have hlength : queries = [] ↔ r.soundRows rows = [] := by
    rw [← List.length_eq_zero_iff, ← List.length_eq_zero_iff, hqueries.length_eq]
  rw [hlength]
  cases rows with
  | nil => simp [soundRows]
  | cons row rest => simp [soundRows, List.takeWhile_cons]

end Repository

/-- Two rows to update, the second without the primary key. -/
def renamedMembers : List Values :=
  [.ofList [("name", .text "Eve"), ("uuid", .text "a")], .ofList [("name", .text "Ann")]]

/-- The second row is refused for lack of its key, but the first has been updated by then. -/
theorem members_updated_in_part : (∃ row ∈ renamedMembers, members.FaultyRow row) ∧
    (members.updateMany renamedMembers).run.play [.affected 1] =
      ⟨.error (.validation "update_many row is missing 'uuid'"),
        [(.execute, ⟨"UPDATE \"user\" SET \"name\" = $1 WHERE \"uuid\" = $2 RETURNING *",
          [.text "Eve", .text "a"]⟩)], []⟩ := by
  refine ⟨by decide, ?_⟩
  rfl

end EagerLoad
