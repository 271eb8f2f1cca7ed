import EagerLoad.Proofs.Hydration.Loading

/-!
# Which batches a load puts

A load puts its statement, and then for each batch at most one, in the order of the batches. What has been
hydrated when a batch is prepared is told from the answers alone; as long as nothing fails, the batch is put
if and only if a record of its parent node has a complete key.
-/

namespace EagerLoad

open Sql

variable {p : Plan} {b : Batch} {a : Arena} {responses left : List Response} {next i : Nat}
  {values : KeyMap Value} {columns : List String} {pending : PendingBatch} {e : Error}

/-- The records after a hydration step, unless it fails. -/
def Arena.hydrated (a : Arena) (step : Hydrate Unit) : Except Error Arena :=
  (step a).1.map fun _ => (step a).2

/-- The records after the rows of a statement were folded, with the answers that are left, unless the
statement or the folding fails. -/
def Arena.fetched (a : Arena) (fold : List Row → Hydrate Unit) (responses : List Response) :
    Except Error (Arena × List Response) := do
  let rows ← Response.answer .fetchAll responses.head?
  let a ← a.hydrated (fold rows)
  return (a, responses.tail)

namespace Transaction

theorem play_hydrate (step : Hydrate Unit) (a : Arena) (responses : List Response) :
    (Transaction.hydrate step a).run.play responses = ⟨a.hydrated step, [], responses⟩ := by
  unfold Transaction.hydrate Arena.hydrated
  split <;> rename_i hstep <;> rw [hstep] <;> rfl

/-- A statement is put once, and what follows goes on with the records that its rows make. -/
theorem play_fetch {β : Type} (query : Query) (fold : List Row → Hydrate Unit) (a : Arena)
    (next : Arena → Transaction β) (responses : List Response) :
    (Transaction.ask .fetchAll query >>= fun rows =>
        Transaction.hydrate (fold rows) a >>= next).run.play responses =
      match a.fetched fold responses with
      | .error e => ⟨.error e, [(.fetchAll, query)], responses.tail⟩
      | .ok (a, left) =>
        let later := (next a).run.play left
        ⟨later.result, (.fetchAll, query) :: later.asked, later.unused⟩ := by
  rw [play_bind, play_ask]
  unfold Arena.fetched
  cases Response.answer .fetchAll responses.head? with
  | error e => rfl
  | ok rows =>
    rw [Played.andThen_ok, play_bind, play_hydrate]
    change _ = match a.hydrated (fold rows) >>= fun a => pure (a, responses.tail) with
      | .error e => _
      | .ok (a, left) => _
    cases a.hydrated (fold rows) <;> rfl

end Transaction

namespace Plan

/-- A batch is awaited if a record of its parent node, which is the parent of the node that it names, has
values other than null in all columns of its keys. -/
def Awaits (p : Plan) (b : Batch) (a : Arena) : Prop :=
  ∃ parent, p.parentOf b = some parent ∧ ∃ record ∈ a.records, record.node = parent ∧
    ∀ column ∈ b.parentColumns, ∃ v, record.values.get? column = some v ∧ v.isNull = false

/-- Load a batch after others, if it is awaited. -/
def advance (p : Plan) (i : Nat) (b : Batch) (a : Arena) (left : List Response) :
    Except Error (Arena × List Response) :=
  match p.prepareBatch b a with
  | none => .ok (a, left)
  | some pending => a.fetched (p.absorbBatch i b pending) left

/-- The records that are hydrated before a batch, and the answers that are left for it and those behind it,
unless a statement or the folding of its rows failed by then. -/
def progress (p : Plan) (responses : List Response) : Nat → Except Error (Arena × List Response)
  | 0 => Arena.empty.fetched p.absorbPrimaries responses
  | i + 1 => do
    let (a, left) ← p.progress responses i
    match p.batches[i]? with
    | none => return (a, left)
    | some b => p.advance i b a left

/-- What is put for a batch. It is nothing if the batch is not awaited, or if something failed before. -/
def pendingAt (p : Plan) (responses : List Response) (i : Nat) : Option PendingBatch :=
  match p.batches[i]?, p.progress responses i with
  | some b, .ok (a, _) => p.prepareBatch b a
  | _, _ => none

/-- The batches that are put from a position on. -/
def putFrom (p : Plan) (responses : List Response) (next : Nat) : List (Nat × PendingBatch) :=
  (List.range' next (p.batches.length - next)).filterMap fun i => (p.pendingAt responses i).map (i, ·)

/-- The batches that a load puts, with their positions. -/
def put (p : Plan) (responses : List Response) : List (Nat × PendingBatch) :=
  p.putFrom responses 0

end Plan

/-- A key is complete if no column lacks a value or has a null. -/
theorem exists_completeKey : (∃ key, completeKey values columns = some key) ↔
    ∀ column ∈ columns, ∃ v, values.get? column = some v ∧ v.isNull = false := by
  induction columns with
  | nil => simp [completeKey]
  | cons column rest ih =>
    rw [List.forall_mem_cons, ← ih, completeKey_cons]
    cases values.get? column with
    | none => simp
    | some v => cases hnull : v.isNull <;> cases completeKey values rest <;> simp [Option.filter, hnull]

namespace Plan

/-- A batch is put for the records hydrated so far exactly if it is awaited. -/
theorem exists_prepareBatch : (∃ pending, p.prepareBatch b a = some pending) ↔ p.Awaits b a := by
  cases hparent : p.parentOf b with
  | none =>
    have hnone : p.prepareBatch b a = none := by
      unfold parentOf at hparent
      unfold prepareBatch
      cases hn : p.node? b.node with
      | none => rfl
      | some n =>
        rw [hn, Option.bind_some] at hparent
        simp [hparent]
    simp [hnone, Awaits, hparent]
  | some parent =>
    have hkeyed : a.keyed parent b.parentColumns ≠ [] ↔
        ∃ record ∈ a.records, record.node = parent ∧
          ∃ key, completeKey record.values b.parentColumns = some key := by
      constructor
      · intro hne
        obtain ⟨⟨key, q⟩, hmem⟩ := List.exists_mem_of_ne_nil _ hne
        obtain ⟨record, hrecord, hnode, hkey⟩ := Arena.mem_keyed.mp hmem
        exact ⟨record, List.mem_of_getElem? hrecord, hnode, key, hkey⟩
      · rintro ⟨record, hrecord, hnode, key, hkey⟩
        obtain ⟨q, hq⟩ := List.getElem?_of_mem hrecord
        exact List.ne_nil_of_mem (Arena.mem_keyed.mpr ⟨record, hq, hnode, hkey⟩)
    simp only [exists_completeKey] at hkeyed
    rw [prepareBatch_eq hparent]
    unfold Awaits
    simp only [hparent, Option.some.injEq, exists_eq_left', ← hkeyed]
    split <;> rename_i hnil <;> simp [hnil]

/-- What failed stays failed. -/
theorem progress_error (h : p.progress responses next = .error e) (hle : next ≤ i) :
    p.progress responses i = .error e := by
  induction hle with
  | refl => exact h
  | step _ ih =>
    rw [progress, ih]
    rfl

/-- Behind what failed nothing is put. -/
theorem putFrom_error (h : p.progress responses next = .error e) : p.putFrom responses next = [] := by
  refine List.filterMap_eq_nil_iff.mpr fun i hi => ?_
  have hfailed := progress_error h (List.mem_range'_1.mp hi).1
  unfold pendingAt
  rw [hfailed]
  cases p.batches[i]? <;> rfl

/-- The batches that are put from a position on are the one at the position, if it is put, and those
behind it. -/
theorem putFrom_cons (hb : p.batches[next]? = some b) (h : p.progress responses next = .ok (a, left)) :
    p.putFrom responses next =
      ((p.prepareBatch b a).map (next, ·)).toList ++ p.putFrom responses (next + 1) := by
  have hlt : next < p.batches.length := (List.getElem?_eq_some_iff.mp hb).1
  have hpending : p.pendingAt responses next = p.prepareBatch b a := by
    unfold pendingAt
    rw [hb, h]
  have hlength : p.batches.length - next = p.batches.length - (next + 1) + 1 := by omega
  rw [putFrom, hlength, List.range'_succ, List.filterMap_cons, hpending]
  cases p.prepareBatch b a <;> rfl

/-- The calls for some batches. -/
def callsOf (put : List (Nat × PendingBatch)) : List (Call × Query) :=
  put.map fun e => (.fetchAll, e.2.statement.render)

/-- The first of some batches is put if it is awaited, and the others follow unless that fails. -/
theorem play_loadBatches_cons (p : Plan) (b : Batch) (i : Nat) (rest : List (Batch × Nat)) (a : Arena)
    (left : List Response) :
    let run := (p.loadBatches ((b, i) :: rest) a).run.play left
    let first := callsOf ((p.prepareBatch b a).map (i, ·)).toList
    match p.advance i b a left with
    | .error e => run.asked = first ∧ run.result = .error e
    | .ok (a, left) =>
      let later := (p.loadBatches rest a).run.play left
      run.asked = first ++ later.asked ∧ run.result = later.result := by
  rw [loadBatches]
  unfold advance
  cases p.prepareBatch b a with
  | none => exact ⟨rfl, rfl⟩
  | some pending =>
    have hplay := Transaction.play_fetch pending.statement.render (p.absorbBatch i b pending) a
      (p.loadBatches rest) left
    dsimp only at hplay ⊢
    cases hfetched : a.fetched (p.absorbBatch i b pending) left with
    | error e =>
      rw [hfetched] at hplay
      exact ⟨congrArg Played.asked hplay, congrArg Played.result hplay⟩
    | ok reached =>
      rw [hfetched] at hplay
      have hresult := congrArg Played.result hplay
      exact ⟨congrArg Played.asked hplay, hresult⟩

/-- Loading the batches from a position on puts those that are awaited, up to a failure. -/
theorem play_loadBatches_from {batches : List (Batch × Nat)}
    (hbatches : batches = p.batches.zipIdx.drop next) (hnext : next ≤ p.batches.length)
    (h : p.progress responses next = .ok (a, left)) :
    ((p.loadBatches batches a).run.play left).asked = callsOf (p.putFrom responses next) ∧
      ((p.loadBatches batches a).run.play left).result =
        (p.progress responses p.batches.length).map (·.1) := by
  induction batches generalizing next a left with
  | nil =>
    have hlast : next = p.batches.length := by
      have hlength := congrArg List.length hbatches
      simp only [List.length_nil, List.length_drop, List.length_zipIdx] at hlength
      omega
    subst hlast
    have hput : p.putFrom responses p.batches.length = [] := by simp [putFrom]
    rw [h, hput]
    exact ⟨rfl, rfl⟩
  | cons entry rest ih =>
    obtain ⟨b, i⟩ := entry
    obtain ⟨hlt, rfl, hb, hrest⟩ := of_cons_eq_drop_zipIdx hbatches
    have hstep : p.progress responses (i + 1) = p.advance i b a left := by
      rw [progress, h]
      simp only [hb]
      rfl
    have hplay := p.play_loadBatches_cons b i rest a left
    rw [← hstep] at hplay
    rw [putFrom_cons hb h, callsOf, List.map_append]
    cases hreached : p.progress responses (i + 1) with
    | error e =>
      rw [hreached] at hplay
      rw [putFrom_error hreached, progress_error hreached hlt, List.map_nil, List.append_nil]
      exact hplay
    | ok reached =>
      rw [hreached] at hplay
      obtain ⟨hasked, hresult⟩ := ih hrest hlt hreached
      exact ⟨hplay.1.trans (congrArg _ hasked), hplay.2.trans hresult⟩

/-- A load puts its statement and then the batches that are awaited, up to a failure. -/
theorem play_load_put (p : Plan) (statement : Select) (responses : List Response) :
    ((p.load statement).run.play responses).asked =
        (.fetchAll, statement.render) :: callsOf (p.put responses) ∧
      ((p.load statement).run.play responses).result =
        (p.progress responses p.batches.length).map fun reached => p.finish reached.1 := by
  have hplay := Transaction.play_fetch statement.render p.absorbPrimaries .empty
    (fun a => p.loadBatches p.batches.zipIdx a >>= fun a => pure (p.finish a)) responses
  change (p.load statement).run.play responses = match p.progress responses 0 with
    | .error e => _
    | .ok (a, left) => _ at hplay
  cases hreached : p.progress responses 0 with
  | error e =>
    rw [hreached] at hplay
    rw [hplay, put, putFrom_error hreached, progress_error hreached (Nat.zero_le _)]
    exact ⟨rfl, rfl⟩
  | ok reached =>
    obtain ⟨hasked, hresult⟩ := play_loadBatches_from List.drop_zero.symm (Nat.zero_le _) hreached
    rw [hreached] at hplay
    simp only [Transaction.play_bind_pure, hasked, hresult] at hplay
    rw [hplay]
    refine ⟨rfl, ?_⟩
    cases p.progress responses p.batches.length <;> rfl

/-- How the batches that are put follow from the answers. -/
structure PutInOrder (p : Plan) (responses : List Response) (put : List (Nat × PendingBatch)) : Prop where
  ascending : put.Pairwise fun e e' => e.1 < e'.1
  /-- As long as nothing fails, a batch is put exactly if it is awaited. -/
  awaited : ∀ i b a left, p.batches[i]? = some b → p.progress responses i = .ok (a, left) →
    (i ∈ put.map (·.1) ↔ p.Awaits b a)
  /-- What is put for a batch is prepared for the records hydrated so far. -/
  prepared : ∀ i pending, (i, pending) ∈ put → ∃ b a left, p.batches[i]? = some b ∧
    p.progress responses i = .ok (a, left) ∧ p.prepareBatch b a = some pending

theorem length_put_le (p : Plan) (responses : List Response) :
    (p.put responses).length ≤ p.batches.length := by
  refine (List.length_filterMap_le _ _).trans ?_
  simp

theorem mem_put : (i, pending) ∈ p.put responses ↔ ∃ b a left, p.batches[i]? = some b ∧
    p.progress responses i = .ok (a, left) ∧ p.prepareBatch b a = some pending := by
  have hpending : p.pendingAt responses i = some pending ↔ ∃ b a left, p.batches[i]? = some b ∧
      p.progress responses i = .ok (a, left) ∧ p.prepareBatch b a = some pending := by
    unfold pendingAt
    cases p.batches[i]? with
    | none => simp
    | some b =>
      cases p.progress responses i with
      | error e => simp
      | ok reached => simp [Prod.ext_iff]
  rw [← hpending, put, putFrom, List.mem_filterMap]
  constructor
  · rintro ⟨j, -, hj⟩
    obtain ⟨_, hput, heq⟩ := Option.map_eq_some_iff.mp hj
    cases heq
    exact hput
  · intro hput
    obtain ⟨b, -, -, hb, -⟩ := hpending.mp hput
    have hlt := (List.getElem?_eq_some_iff.mp hb).1
    exact ⟨i, List.mem_range'_1.mpr (by omega), by rw [hput]; rfl⟩

theorem putInOrder (p : Plan) (responses : List Response) : p.PutInOrder responses (p.put responses) := by
  constructor
  case ascending =>
    refine List.Pairwise.filterMap _ (fun i i' hlt e he e' he' => ?_) List.pairwise_lt_range'
    obtain ⟨_, -, rfl⟩ := Option.map_eq_some_iff.mp he
    obtain ⟨_, -, rfl⟩ := Option.map_eq_some_iff.mp he'
    exact hlt
  case awaited =>
    intro i b a left hb h
    rw [← exists_prepareBatch, List.mem_map]
    constructor
    · rintro ⟨⟨_, pending⟩, hmem, rfl⟩
      obtain ⟨b', a', left', hb', h', hprepare⟩ := mem_put.mp hmem
      obtain rfl := Option.some.inj (hb.symm.trans hb')
      cases h.symm.trans h'
      exact ⟨pending, hprepare⟩
    · rintro ⟨pending, hprepare⟩
      exact ⟨(i, pending), mem_put.mpr ⟨b, a, left, hb, h, hprepare⟩, rfl⟩
  case prepared => exact fun i pending hmem => mem_put.mp hmem

end Plan

end EagerLoad
