import EagerLoad.Hydration.Arena
import Mathlib.Data.List.Basic
import Mathlib.Data.List.Range

/-!
# The lists of an arena

Beside its records an arena keeps where they are found, which of them are roots, and which belong to which
record. These are updated one after the other when a record is added. That they stay in step is one lemma
about adding a record, and follows for whatever adds records in no other way.
-/

namespace EagerLoad

namespace Arena

variable {a a' a'' : Arena} {node q q' : Nat} {parent : Option Nat} {key : String} {e : KeyedRecord}
  {r : Record} {test : KeyedRecord → Bool}

/-- The records with what they are found by, in order of creation. -/
def log (a : Arena) : List KeyedRecord :=
  List.zipWith (fun r noted => ⟨r, noted.1.1, noted.1.2.2⟩) a.records a.seen

/-- The positions of the records that satisfy a test, in order. -/
def positions (a : Arena) (test : KeyedRecord → Bool) : List Nat :=
  (a.log.zipIdx.filter fun e => test e.1).map (·.2)

/-- What is kept beside the records is in step with them. -/
structure InStep (a : Arena) : Prop where
  /-- Each record is seen once, in order, as one of its node. -/
  seen : a.seen.map (fun noted => (noted.1.2.1, noted.2)) = a.records.zipIdx.map fun e => (e.1.node, e.2)
  /-- The roots are the records without a parent. -/
  roots : a.roots = a.positions fun e => e.parent.isNone
  /-- Below a record are those records whose parent it is. -/
  children : ∀ node q, a.childrenOf node q = a.positions fun e => e.node = node && e.parent = some q

theorem inStep_empty : empty.InStep :=
  ⟨rfl, rfl, fun _ _ => rfl⟩

@[simp] theorem records_push : (a.push e).records = a.records ++ [e.toRecord] := by
  unfold push
  split <;> rfl

@[simp] theorem seen_push :
    (a.push e).seen = a.seen ++ [((e.parent, e.node, e.key), a.records.length)] := by
  unfold push
  split <;> rfl

theorem roots_push :
    (a.push e).roots = a.roots ++ if e.parent.isNone then [a.records.length] else [] := by
  unfold push
  cases e.parent <;> simp

theorem childrenOf_push : (a.push e).childrenOf node q = a.childrenOf node q ++
    if e.node = node ∧ e.parent = some q then [a.records.length] else [] := by
  unfold push childrenOf
  cases e.parent with
  | none => simp
  | some parent =>
    refine (Listing.under_add ..).trans ?_
    simp only [Prod.mk.injEq, Option.some.injEq]
    exact congrArg _ (if_congr (by tauto) rfl rfl)

theorem record_of_log (h : a.log[q]? = some e) : a.records[q]? = some e.toRecord := by
  obtain ⟨r, noted, hr, -, rfl⟩ := List.getElem?_zipWith_eq_some.mp h
  exact hr

theorem mem_records_of_log (h : e ∈ a.log) : e.toRecord ∈ a.records := by
  obtain ⟨q, hq⟩ := List.getElem?_of_mem h
  exact List.mem_of_getElem? (record_of_log hq)

theorem mem_positions : q ∈ a.positions test ↔ ∃ e, a.log[q]? = some e ∧ test e = true := by
  simp [positions, List.mk_mem_zipIdx_iff_getElem?]

theorem nodup_positions (a : Arena) (test : KeyedRecord → Bool) : (a.positions test).Nodup := by
  refine List.Nodup.sublist (List.filter_sublist.map _) ?_
  rw [List.zipIdx_map_snd]
  exact List.nodup_range'

namespace InStep

variable (ha : a.InStep)

include ha

theorem length_seen : a.seen.length = a.records.length := by
  simpa using congrArg List.length ha.seen

theorem length_log : a.log.length = a.records.length := by
  simp [log, ha.length_seen]

theorem positions_seen : a.seen.map (·.2) = List.range a.records.length := by
  have hpositions := congrArg (List.map (·.2)) ha.seen
  rwa [List.map_map, List.map_map, show ((·.2) ∘ fun e : Record × Nat => (e.1.node, e.2)) = (·.2) from rfl,
    List.zipIdx_map_snd, ← List.range_eq_range'] at hpositions

/-- What is seen at a position is the record there. -/
theorem of_seen (h : a.seen[q]? = some ((parent, node, key), q')) :
    q' = q ∧ ∃ r, a.records[q]? = some r ∧ r.node = node := by
  have heq := congrArg (·[q]?) ha.seen
  simp only [List.getElem?_map, h, Option.map_some, List.getElem?_zipIdx, Nat.zero_add] at heq
  obtain ⟨_, he, hpair⟩ := Option.map_eq_some_iff.mp heq.symm
  obtain ⟨r, hr, rfl⟩ := Option.map_eq_some_iff.mp he
  cases hpair
  exact ⟨rfl, r, hr, rfl⟩

/-- Every record is in the log. -/
theorem exists_log (hr : a.records[q]? = some r) : ∃ e, a.log[q]? = some e ∧ e.toRecord = r := by
  obtain ⟨hlt, -⟩ := List.getElem?_eq_some_iff.mp hr
  have hseen := List.getElem?_eq_getElem (ha.length_seen.symm ▸ hlt)
  exact ⟨_, List.getElem?_zipWith_eq_some.mpr ⟨r, _, hr, hseen, rfl⟩, rfl⟩

theorem mem_log (hr : r ∈ a.records) : ∃ e ∈ a.log, e.toRecord = r := by
  obtain ⟨q, hq⟩ := List.getElem?_of_mem hr
  obtain ⟨e, he, heq⟩ := ha.exists_log hq
  exact ⟨e, List.mem_of_getElem? he, heq⟩

/-- A record is seen as what is in the log. -/
theorem log_eq_some_iff : a.log[q]? = some e ↔
    a.records[q]? = some e.toRecord ∧ a.seen[q]? = some ((e.parent, e.node, e.key), q) := by
  constructor
  · intro he
    obtain ⟨r, ⟨⟨parent, node, key⟩, q'⟩, hr, hseen, rfl⟩ := List.getElem?_zipWith_eq_some.mp he
    obtain ⟨rfl, r', hr', rfl⟩ := ha.of_seen hseen
    obtain rfl := Option.some.inj (hr.symm.trans hr')
    exact ⟨hr, hseen⟩
  · rintro ⟨hr, hseen⟩
    exact List.getElem?_zipWith_eq_some.mpr ⟨_, _, hr, hseen, rfl⟩

/-- A record that is found has what was looked for. -/
theorem of_find? (h : a.find? node parent key = some q) :
    ∃ e, a.log[q]? = some e ∧ e.node = node ∧ e.parent = parent ∧ e.key = key := by
  obtain ⟨before, after, hsplit, -⟩ := List.lookup_eq_some_iff.mp h
  have hseen : a.seen[before.length]? = some ((parent, node, key), q) := by simp [hsplit]
  obtain ⟨rfl, r, hr, rfl⟩ := ha.of_seen hseen
  exact ⟨⟨r, parent, key⟩, ha.log_eq_some_iff.mpr ⟨hr, hseen⟩, rfl, rfl, rfl⟩

/-- A record that is not found is not there. -/
theorem of_find?_eq_none (h : a.find? node parent key = none) (he : e ∈ a.log) :
    ¬(e.node = node ∧ e.parent = parent ∧ e.key = key) := by
  rintro ⟨rfl, rfl, rfl⟩
  obtain ⟨q, hq⟩ := List.getElem?_of_mem he
  have hseen := List.mem_of_getElem? (ha.log_eq_some_iff.mp hq).2
  simpa using List.lookup_eq_none_iff.mp h _ hseen

/-- A root is a record without a parent. -/
theorem mem_roots : q ∈ a.roots ↔ ∃ e, a.log[q]? = some e ∧ e.parent = none := by
  simp [ha.roots, mem_positions]

/-- A child is a record of the node and the parent. -/
theorem mem_childrenOf :
    q ∈ a.childrenOf node q' ↔ ∃ e, a.log[q]? = some e ∧ e.node = node ∧ e.parent = some q' := by
  simp [ha.children, mem_positions]

theorem mem_roots_iff (he : a.log[q]? = some e) : q ∈ a.roots ↔ e.parent = none := by
  simp [ha.mem_roots, he]

theorem mem_childrenOf_iff (he : a.log[q]? = some e) :
    q ∈ a.childrenOf node q' ↔ e.node = node ∧ e.parent = some q' := by
  simp [ha.mem_childrenOf, he]

/-- The roots are positions of records. -/
theorem lt_of_mem_roots (hq : q ∈ a.roots) : q < a.records.length := by
  obtain ⟨e, he, -⟩ := ha.mem_roots.mp hq
  exact (List.getElem?_eq_some_iff.mp (record_of_log he)).1

/-- Children are positions of records. -/
theorem lt_of_mem_childrenOf (hq : q ∈ a.childrenOf node q') : q < a.records.length := by
  obtain ⟨e, he, -⟩ := ha.mem_childrenOf.mp hq
  exact (List.getElem?_eq_some_iff.mp (record_of_log he)).1

theorem nodup_roots : a.roots.Nodup :=
  ha.roots ▸ nodup_positions ..

theorem nodup_childrenOf : (a.childrenOf node q).Nodup :=
  ha.children node q ▸ nodup_positions ..

theorem log_push : (a.push e).log = a.log ++ [e] := by
  rw [log, records_push, seen_push, List.zipWith_append ha.length_seen.symm]
  rfl

/-- The new record comes last, and the others stay. -/
theorem log_push_getElem? : (a.push e).log[q]? = if q = a.records.length then some e else a.log[q]? := by
  rw [ha.log_push, List.getElem?_append, ha.length_log]
  split
  · rename_i hlt
    rw [if_neg hlt.ne]
  · rename_i hle
    rw [List.getElem?_singleton, List.getElem?_eq_none (by rw [ha.length_log]; omega)]
    exact if_congr (by omega) rfl rfl

theorem log_length : a.log[a.records.length]? = none :=
  List.getElem?_eq_none ha.length_log.le

theorem positions_push : (a.push e).positions test =
    a.positions test ++ if test e then [a.records.length] else [] := by
  rw [positions, ha.log_push, List.zipIdx_append, List.filter_append, List.map_append, Nat.zero_add,
    ha.length_log]
  by_cases h : test e = true <;> simp [positions, h]

/-- Adding a record keeps everything in step. -/
theorem push (e : KeyedRecord) : (a.push e).InStep := by
  constructor
  case seen =>
    rw [seen_push, records_push, List.map_append, ha.seen, List.zipIdx_append, List.map_append]
    simp
  case roots => rw [roots_push, ha.positions_push, ha.roots]
  case children =>
    intro node q
    rw [childrenOf_push, ha.positions_push, ha.children]
    simp

end InStep

/-- An arena with more records: every list has more entries at its end, and every record is found where it
was. -/
structure Grows (a a' : Arena) : Prop where
  records : a.records <+: a'.records
  roots : a.roots <+: a'.roots
  children : ∀ node q, a.childrenOf node q <+: a'.childrenOf node q
  seen : a.seen <+: a'.seen
  found : ∀ node parent key q, a.find? node parent key = some q → a'.find? node parent key = some q

namespace Grows

theorem refl (a : Arena) : a.Grows a :=
  ⟨List.prefix_refl _, List.prefix_refl _, fun _ _ => List.prefix_refl _, List.prefix_refl _,
    fun _ _ _ _ h => h⟩

theorem trans (h : a.Grows a') (h' : a'.Grows a'') : a.Grows a'' where
  records := h.records.trans h'.records
  roots := h.roots.trans h'.roots
  children node q := (h.children node q).trans (h'.children node q)
  seen := h.seen.trans h'.seen
  found node parent key q hq := h'.found node parent key q (h.found node parent key q hq)

theorem push (a : Arena) (e : KeyedRecord) : a.Grows (a.push e) where
  records := records_push ▸ List.prefix_append ..
  roots := roots_push ▸ List.prefix_append ..
  children _ _ := childrenOf_push ▸ List.prefix_append ..
  seen := seen_push ▸ List.prefix_append ..
  found node parent key q hq := by
    rw [find?, seen_push, List.lookup_append, show a.seen.lookup _ = some q from hq, Option.some_or]

theorem getElem? (h : a.Grows a') (hr : a.records[q]? = some r) : a'.records[q]? = some r := by
  obtain ⟨more, hmore⟩ := h.records
  obtain ⟨hlt, -⟩ := List.getElem?_eq_some_iff.mp hr
  rw [← hmore, List.getElem?_append_left hlt, hr]

end Grows

/-- An arena to which records of some sort were added, and nothing else was done. -/
def Adds (a a' : Arena) (made : KeyedRecord → Prop) : Prop :=
  ∃ new : List KeyedRecord, a' = new.foldl push a ∧ ∀ e ∈ new, made e

namespace Adds

variable {made made' : KeyedRecord → Prop}

theorem refl (a : Arena) (made : KeyedRecord → Prop) : a.Adds a made :=
  ⟨[], rfl, by simp⟩

theorem trans (h : a.Adds a' made) (h' : a'.Adds a'' made) : a.Adds a'' made := by
  obtain ⟨new, rfl, hmade⟩ := h
  obtain ⟨more, rfl, hmade'⟩ := h'
  exact ⟨new ++ more, List.foldl_append.symm, List.forall_mem_append.mpr ⟨hmade, hmade'⟩⟩

theorem mono (h : a.Adds a' made) (himp : ∀ e, made e → made' e) : a.Adds a' made' := by
  obtain ⟨new, hnew, hmade⟩ := h
  exact ⟨new, hnew, fun e he => himp e (hmade e he)⟩

theorem push (h : made e) : a.Adds (a.push e) made :=
  ⟨[e], rfl, by simpa using h⟩

/-- What only adds records keeps everything in step. -/
theorem inStep (h : a.Adds a' made) (ha : a.InStep) : a'.InStep := by
  obtain ⟨new, rfl, -⟩ := h
  induction new generalizing a with
  | nil => exact ha
  | cons e rest ih => exact ih (ha.push e)

theorem grows (h : a.Adds a' made) : a.Grows a' := by
  obtain ⟨new, rfl, -⟩ := h
  induction new generalizing a with
  | nil => exact .refl a
  | cons e rest ih => exact (Grows.push a e).trans ih

theorem exists_log (h : a.Adds a' made) (ha : a.InStep) :
    ∃ new, a'.log = a.log ++ new ∧ ∀ e ∈ new, made e := by
  obtain ⟨new, rfl, hmade⟩ := h
  refine ⟨new, ?_, hmade⟩
  clear hmade
  induction new generalizing a with
  | nil => exact (List.append_nil _).symm
  | cons e rest ih =>
    rw [List.foldl_cons, ih (ha.push e), ha.log_push, List.append_assoc, List.singleton_append]

end Adds

/-- An arena to which records of nodes of a kind were added, and nothing else was done. -/
def Extends (a a' : Arena) (kind : Nat → Prop) : Prop :=
  a.Adds a' fun e => kind e.node

namespace Extends

variable {kind kind' : Nat → Prop}

theorem refl (a : Arena) (kind : Nat → Prop) : a.Extends a kind :=
  Adds.refl ..

theorem trans (h : a.Extends a' kind) (h' : a'.Extends a'' kind) : a.Extends a'' kind :=
  Adds.trans h h'

theorem mono (h : a.Extends a' kind) (himp : ∀ id, kind id → kind' id) : a.Extends a' kind' :=
  Adds.mono h fun e => himp e.node

theorem push (h : kind e.node) : a.Extends (a.push e) kind :=
  Adds.push h

theorem inStep (h : a.Extends a' kind) (ha : a.InStep) : a'.InStep :=
  Adds.inStep h ha

theorem grows (h : a.Extends a' kind) : a.Grows a' :=
  Adds.grows h

theorem exists_records (h : a.Extends a' kind) :
    ∃ new, a'.records = a.records ++ new ∧ ∀ r ∈ new, kind r.node := by
  obtain ⟨new, rfl, hkind⟩ := h
  refine ⟨new.map (·.toRecord), ?_, by simpa using hkind⟩
  clear hkind
  induction new generalizing a with
  | nil => exact (List.append_nil _).symm
  | cons e rest ih =>
    rw [List.foldl_cons, ih, records_push, List.append_assoc, List.singleton_append, List.map_cons]

/-- Records stay where they are. -/
theorem getElem? (h : a.Extends a' kind) (hr : a.records[q]? = some r) : a'.records[q]? = some r :=
  h.grows.getElem? hr

/-- A record of another kind was there before. -/
theorem getElem?_of_not (h : a.Extends a' kind) (hr : a'.records[q]? = some r) (hkind : ¬ kind r.node) :
    a.records[q]? = some r := by
  obtain ⟨new, hnew, hnewkind⟩ := h.exists_records
  rw [hnew, List.getElem?_append] at hr
  split at hr
  · exact hr
  · exact absurd (hnewkind r (List.mem_of_getElem? hr)) hkind

/-- What is known of the records stays. -/
theorem log_getElem? (h : a.Extends a' kind) (ha : a.InStep) (he : a.log[q]? = some e) :
    a'.log[q]? = some e := by
  obtain ⟨new, hnew, -⟩ := Adds.exists_log h ha
  obtain ⟨hlt, -⟩ := List.getElem?_eq_some_iff.mp he
  rw [hnew, List.getElem?_append_left hlt, he]

/-- What is known of a record of another kind was known before. -/
theorem log_of_not (h : a.Extends a' kind) (ha : a.InStep) (he : a'.log[q]? = some e)
    (hkind : ¬ kind e.node) : a.log[q]? = some e := by
  obtain ⟨new, hnew, hnewkind⟩ := Adds.exists_log h ha
  rw [hnew, List.getElem?_append] at he
  split at he
  · exact he
  · exact absurd (hnewkind e (List.mem_of_getElem? he)) hkind

end Extends

end Arena

end EagerLoad
