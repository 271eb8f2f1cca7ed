import EagerLoad.Proofs.Hydration.Grouping

/-!
# Groups of parent records

Before a batch is put, the records of its parent node are grouped by key. There is one group for each
key, in the order in which keys are first seen; it holds all records of the key in their order, and the
key of the first of them. The positions of the records and the keys to ask for are collected apart; they
are in step, since both are read off these groups.
-/

namespace EagerLoad

namespace Listing

variable {κ : Type} [DecidableEq κ] {listing : Listing κ} {ks : List κ} {f : κ → List Nat} {key : κ}

theorem under_eq_nil (h : key ∉ listing.map (·.1)) : listing.under key = [] := by
  induction listing with
  | nil => rfl
  | cons entry rest ih =>
    rw [List.map_cons, List.mem_cons, not_or] at h
    rw [under_cons, if_neg h.1, ih h.2]

theorem under_map (hmem : key ∈ ks) : under (ks.map fun k => (k, f k)) key = f key := by
  induction ks with
  | nil => exact absurd hmem List.not_mem_nil
  | cons k rest ih =>
    rw [List.map_cons, under_cons]
    split
    · rename_i hkey
      rw [hkey]
    · rename_i hkey
      exact ih (List.mem_of_ne_of_mem hkey hmem)

/-- A new key gets an entry at the end. -/
theorem add_of_not_mem {q : Nat} (h : key ∉ listing.map (·.1)) :
    listing.add key q = listing ++ [(key, [q])] := by
  induction listing with
  | nil => rfl
  | cons entry rest ih =>
    rw [List.map_cons, List.mem_cons, not_or] at h
    rw [add, if_neg h.1, ih h.2, List.cons_append]

/-- A position is listed at the end of the entry of its key. -/
theorem add_map {q : Nat} (hks : ks.Nodup) (hmem : key ∈ ks) :
    add key q (ks.map fun k => (k, f k)) = ks.map fun k => (k, f k ++ if k = key then [q] else []) := by
  induction ks with
  | nil => exact absurd hmem List.not_mem_nil
  | cons k rest ih =>
    obtain ⟨hk, hrest⟩ := List.nodup_cons.mp hks
    rw [List.map_cons, List.map_cons, add]
    split
    · rename_i hkey
      subst hkey
      rw [if_pos rfl]
      refine congrArg (_ :: ·) (List.map_congr_left fun k' hk' => ?_)
      have hne : k' ≠ key := fun heq => hk (heq ▸ hk')
      rw [if_neg hne, List.append_nil]
    · rename_i hkey
      rw [if_neg (Ne.symm hkey), List.append_nil, ih hrest (List.mem_of_ne_of_mem hkey hmem)]

end Listing

/-- Parent records that share a key. -/
structure KeyGroup where
  /-- The identities of the key. -/
  identity : List String
  /-- The key of the group's first record. -/
  key : List Value
  /-- The positions of the records, in order. -/
  parents : List Nat

/-- The positions of some groups, by the identities of their keys. -/
def KeyGroup.listing (groups : List KeyGroup) : Listing (List String) :=
  groups.map fun g => (g.identity, g.parents)

/-- The positions and the keys that are collected are in step: they are those of the same groups. -/
structure KeyedParents.Groups (known : KeyedParents) (groups : List KeyGroup) : Prop where
  parents : known.parents = KeyGroup.listing groups
  keys : known.keys = groups.map (·.key)

/-- The records of a node that have complete keys, each as its key and position. -/
def Arena.keyed (a : Arena) (node : Nat) (columns : List String) : List (List Value × Nat) :=
  a.records.zipIdx.filterMap fun e =>
    if e.1.node = node then (completeKey e.1.values columns).map (·, e.2) else none

variable {keyed : List (List Value × Nat)} {key : List Value} {q : Nat} {k : List String}
  {g : KeyGroup} {known : KeyedParents}

/-- The positions with keys of some identities. -/
def withIdentities (k : List String) (keyed : List (List Value × Nat)) : List (List Value × Nat) :=
  keyed.filter fun e => identities e.1 = k

/-- The group of the positions with keys of some identities. -/
def keyGroup (keyed : List (List Value × Nat)) (k : List String) : KeyGroup where
  identity := k
  key := ((withIdentities k keyed).head?.map (·.1)).getD []
  parents := (withIdentities k keyed).map (·.2)

/-- One group for each key, in the order in which keys are first seen. -/
def keyGroups (keyed : List (List Value × Nat)) : List KeyGroup :=
  (keyed.map fun e => identities e.1).eraseDups.map (keyGroup keyed)

theorem withIdentities_concat : withIdentities k (keyed ++ [(key, q)]) =
    withIdentities k keyed ++ if identities key = k then [(key, q)] else [] := by
  by_cases h : identities key = k <;> simp [withIdentities, h]

/-- A position does not concern the groups of other keys. -/
theorem keyGroup_concat_of_ne (h : identities key ≠ k) :
    keyGroup (keyed ++ [(key, q)]) k = keyGroup keyed k := by
  simp only [keyGroup, withIdentities_concat, if_neg h, List.append_nil]

/-- A position comes last in the group of its key. -/
theorem keyGroup_concat (h : identities key ∈ keyed.map fun e => identities e.1) :
    keyGroup (keyed ++ [(key, q)]) (identities key) =
      { keyGroup keyed (identities key) with
        parents := (keyGroup keyed (identities key)).parents ++ [q] } := by
  obtain ⟨e, he, heq⟩ := List.mem_map.mp h
  have hne : withIdentities (identities key) keyed ≠ [] := by
    refine List.ne_nil_of_mem (a := e) (List.mem_filter.mpr ⟨he, ?_⟩)
    simpa using heq
  simp only [keyGroup, withIdentities_concat, if_true, List.head?_append_of_ne_nil _ hne,
    List.map_append, List.map_cons, List.map_nil]

/-- A new key opens a group. -/
theorem keyGroup_concat_new (h : identities key ∉ keyed.map fun e => identities e.1) :
    keyGroup (keyed ++ [(key, q)]) (identities key) = ⟨identities key, key, [q]⟩ := by
  have hnil : withIdentities (identities key) keyed = [] := by
    refine List.filter_eq_nil_iff.mpr fun e he heq => h ?_
    exact List.mem_map.mpr ⟨e, he, of_decide_eq_true heq⟩
  simp [keyGroup, withIdentities_concat, hnil]

theorem mem_keyGroups : g ∈ keyGroups keyed ↔ ∃ e ∈ keyed, keyGroup keyed (identities e.1) = g := by
  simp [keyGroups]

/-- A group has the positions with keys of its identities. -/
theorem mem_parents_keyGroup :
    q ∈ (keyGroup keyed k).parents ↔ ∃ key, (key, q) ∈ keyed ∧ identities key = k := by
  simp [keyGroup, withIdentities]

/-- A group has the key of its first position. -/
theorem head?_keyGroup (h : k ∈ keyed.map fun e => identities e.1) :
    ∃ q, (keyGroup keyed k).parents.head? = some q ∧ ((keyGroup keyed k).key, q) ∈ keyed ∧
      identities (keyGroup keyed k).key = k := by
  obtain ⟨e, he, rfl⟩ := List.mem_map.mp h
  have hmem : e ∈ withIdentities (identities e.1) keyed := List.mem_filter.mpr ⟨he, by simp⟩
  obtain ⟨first, rest, hfirst⟩ := List.exists_cons_of_ne_nil (List.ne_nil_of_mem hmem)
  have hin : first ∈ withIdentities (identities e.1) keyed := hfirst ▸ List.mem_cons_self
  obtain ⟨hkeyed, hids⟩ := List.mem_filter.mp hin
  have hkey : (keyGroup keyed (identities e.1)).key = first.1 := by simp [keyGroup, hfirst]
  rw [hkey]
  exact ⟨first.2, by simp [keyGroup, hfirst], hkeyed, of_decide_eq_true hids⟩

/-- A known key opens no group. -/
theorem keyGroups_concat (h : identities key ∈ keyed.map fun e => identities e.1) :
    keyGroups (keyed ++ [(key, q)]) =
      (keyed.map fun e => identities e.1).eraseDups.map (keyGroup (keyed ++ [(key, q)])) := by
  rw [keyGroups, List.map_append, List.map_singleton, eraseDups_concat, if_pos h]

/-- The group of a new key comes last. -/
theorem keyGroups_concat_new (h : identities key ∉ keyed.map fun e => identities e.1) :
    keyGroups (keyed ++ [(key, q)]) = keyGroups keyed ++ [⟨identities key, key, [q]⟩] := by
  rw [keyGroups, List.map_append, List.map_singleton, eraseDups_concat, if_neg h, List.map_append,
    List.map_singleton, keyGroup_concat_new h]
  refine congrArg (· ++ _) (List.map_congr_left fun k hk => ?_)
  exact keyGroup_concat_of_ne fun heq => h (heq ▸ List.mem_eraseDups.mp hk)

namespace KeyedParents.Groups

theorem parents_eq (h : known.Groups (keyGroups keyed)) :
    known.parents =
      (keyed.map fun e => identities e.1).eraseDups.map fun k => (k, (keyGroup keyed k).parents) := by
  rw [h.parents, KeyGroup.listing, keyGroups, List.map_map]
  rfl

/-- One more record of a known key is listed with those before it. -/
theorem add_known (h : known.Groups (keyGroups keyed))
    (hmem : identities key ∈ keyed.map fun e => identities e.1) :
    (known.add key q).Groups (keyGroups (keyed ++ [(key, q)])) := by
  have hlisted := List.mem_eraseDups.mpr hmem
  have hseen : (known.parents.under (identities key)).isEmpty = false := by
    obtain ⟨first, hfirst, -⟩ := head?_keyGroup hmem
    rw [h.parents_eq, Listing.under_map hlisted, List.isEmpty_eq_false_iff]
    rintro hnil
    simp [hnil] at hfirst
  constructor
  case parents =>
    refine (congrArg (Listing.add (identities key) q) h.parents_eq).trans ?_
    rw [Listing.add_map (nodup_eraseDups _) hlisted, KeyGroup.listing, keyGroups_concat hmem, List.map_map]
    refine List.map_congr_left fun k _ => Prod.ext rfl ?_
    rw [Function.comp_apply]
    split
    · rename_i hk
      rw [hk, keyGroup_concat hmem]
    · rename_i hk
      rw [keyGroup_concat_of_ne (Ne.symm hk), List.append_nil]
  case keys =>
    have hkeys : (known.add key q).keys = known.keys := if_neg (Bool.eq_false_iff.mp hseen)
    rw [hkeys, h.keys, keyGroups_concat hmem, keyGroups, List.map_map, List.map_map]
    refine List.map_congr_left fun k _ => ?_
    rw [Function.comp_apply, Function.comp_apply]
    by_cases hk : k = identities key
    · rw [hk, keyGroup_concat hmem]
    · rw [keyGroup_concat_of_ne (Ne.symm hk)]

/-- A record of a new key is listed apart, and its key is asked for. -/
theorem add_new (h : known.Groups (keyGroups keyed))
    (hmem : identities key ∉ keyed.map fun e => identities e.1) :
    (known.add key q).Groups (keyGroups (keyed ++ [(key, q)])) := by
  have hnew : identities key ∉ known.parents.map (·.1) := by
    rw [h.parents_eq, List.map_map]
    simpa [Function.comp_def] using hmem
  rw [keyGroups_concat_new hmem]
  constructor
  case parents =>
    refine (Listing.add_of_not_mem hnew).trans ?_
    rw [h.parents, KeyGroup.listing, KeyGroup.listing, List.map_append, List.map_singleton]
  case keys =>
    have hkeys : (known.add key q).keys = known.keys ++ [key] :=
      if_pos (List.isEmpty_iff.mpr (Listing.under_eq_nil hnew))
    rw [hkeys, h.keys, List.map_append, List.map_singleton]

/-- One more record keeps the positions and the keys in step. -/
theorem add (h : known.Groups (keyGroups keyed)) :
    (known.add key q).Groups (keyGroups (keyed ++ [(key, q)])) := by
  by_cases hmem : identities key ∈ keyed.map fun e => identities e.1
  · exact h.add_known hmem
  · exact h.add_new hmem

end KeyedParents.Groups

/-- The positions are in the groups, each in one of them. -/
theorem existsUnique_keyGroup (hnodup : (keyed.map (·.2)).Nodup) :
    (∃ key, (key, q) ∈ keyed) ↔ ∃! g, g ∈ keyGroups keyed ∧ q ∈ g.parents := by
  constructor
  · rintro ⟨key, hkey⟩
    refine ⟨keyGroup keyed (identities key), ⟨mem_keyGroups.mpr ⟨_, hkey, rfl⟩, ?_⟩, ?_⟩
    · exact mem_parents_keyGroup.mpr ⟨key, hkey, rfl⟩
    · rintro g ⟨hg, hq⟩
      obtain ⟨e, -, rfl⟩ := mem_keyGroups.mp hg
      obtain ⟨key', hkey', hids⟩ := mem_parents_keyGroup.mp hq
      cases List.inj_on_of_nodup_map hnodup hkey' hkey rfl
      rw [hids]
  · rintro ⟨g, ⟨hg, hq⟩, -⟩
    obtain ⟨e, -, rfl⟩ := mem_keyGroups.mp hg
    obtain ⟨key, hkey, -⟩ := mem_parents_keyGroup.mp hq
    exact ⟨key, hkey⟩

/-- A position is the first of a group if its key is new. -/
theorem heads_keyGroups_concat : (keyGroups (keyed ++ [(key, q)])).filterMap (·.parents.head?) =
    (keyGroups keyed).filterMap (·.parents.head?) ++
      if identities key ∈ keyed.map (fun e => identities e.1) then [] else [q] := by
  split
  · rename_i hmem
    rw [keyGroups_concat hmem, keyGroups, List.append_nil, List.filterMap_map, List.filterMap_map]
    refine List.filterMap_congr fun k _ => ?_
    rw [Function.comp_apply, Function.comp_apply]
    by_cases hkey : k = identities key
    · obtain ⟨first, hfirst, -⟩ := head?_keyGroup hmem
      rw [hkey, keyGroup_concat hmem, List.head?_append, hfirst, Option.some_or]
    · rw [keyGroup_concat_of_ne (Ne.symm hkey)]
  · rename_i hmem
    rw [keyGroups_concat_new hmem, List.filterMap_append]
    rfl

/-- If positions ascend, then so do the first ones of the groups. -/
theorem pairwise_heads_keyGroups (hascending : (keyed.map (·.2)).Pairwise (· < ·)) :
    ((keyGroups keyed).filterMap (·.parents.head?)).Pairwise (· < ·) := by
  induction keyed using List.reverseRecOn with
  | nil => exact .nil
  | append_singleton keyed e ih =>
    obtain ⟨key, q⟩ := e
    rw [List.map_append, List.pairwise_append] at hascending
    obtain ⟨hbefore, -, hlast⟩ := hascending
    rw [heads_keyGroups_concat]
    split
    · rw [List.append_nil]
      exact ih hbefore
    · refine List.pairwise_append.mpr ⟨ih hbefore, List.pairwise_singleton _ _, fun q' hq' => ?_⟩
      obtain ⟨g, hg, hhead⟩ := List.mem_filterMap.mp hq'
      obtain ⟨e, -, rfl⟩ := mem_keyGroups.mp hg
      obtain ⟨key', hkey', -⟩ := mem_parents_keyGroup.mp (List.mem_of_mem_head? hhead)
      exact hlast q' (List.mem_map_of_mem hkey')

/-- Parents are grouped by key. -/
theorem Arena.groups_groupParents (a : Arena) (node : Nat) (columns : List String) :
    (a.groupParents node columns).Groups (keyGroups (a.keyed node columns)) := by
  rw [groupParents, keyed]
  generalize a.records.zipIdx = entries
  induction entries using List.reverseRecOn with
  | nil => exact ⟨rfl, rfl⟩
  | append_singleton entries e ih =>
    obtain ⟨r, position⟩ := e
    rw [List.foldl_append, List.foldl_cons, List.foldl_nil, List.filterMap_append]
    by_cases hnode : r.node = node
    · cases hkey : completeKey r.values columns with
      | none => simpa [hnode, hkey] using ih
      | some key => simpa [hnode, hkey] using ih.add
    · simpa [hnode] using ih

/-- The records that are grouped. -/
theorem Arena.mem_keyed {a : Arena} {node : Nat} {columns : List String} :
    (key, q) ∈ a.keyed node columns ↔
      ∃ r, a.records[q]? = some r ∧ r.node = node ∧ completeKey r.values columns = some key := by
  rw [keyed, List.mem_filterMap]
  constructor
  · rintro ⟨⟨r, q'⟩, hr, h⟩
    dsimp only at h
    split at h
    · rename_i hnode
      obtain ⟨key', hkey, heq⟩ := Option.map_eq_some_iff.mp h
      cases heq
      exact ⟨r, List.mk_mem_zipIdx_iff_getElem?.mp hr, hnode, hkey⟩
    · cases h
  · rintro ⟨r, hr, hnode, hkey⟩
    exact ⟨(r, q), List.mk_mem_zipIdx_iff_getElem?.mpr hr, by simp [hnode, hkey]⟩

/-- The records that are grouped stand in the order in which they were made. -/
theorem Arena.keyed_sublist (a : Arena) (node : Nat) (columns : List String) :
    ((a.keyed node columns).map (·.2)).Sublist (List.range' 0 a.records.length) := by
  rw [keyed, ← List.zipIdx_map_snd]
  generalize a.records.zipIdx = entries
  induction entries with
  | nil => exact .refl _
  | cons e rest ih =>
    rw [List.filterMap_cons]
    split
    · exact ih.cons _
    · rename_i e' he
      have hposition : e'.2 = e.2 := by
        split at he
        · obtain ⟨key, -, rfl⟩ := Option.map_eq_some_iff.mp he
          rfl
        · cases he
      rw [List.map_cons, List.map_cons, hposition]
      exact ih.cons_cons _

/-- A record is grouped once. -/
theorem Arena.keyed_nodup (a : Arena) (node : Nat) (columns : List String) :
    ((a.keyed node columns).map (·.2)).Nodup :=
  (a.keyed_sublist node columns).nodup List.nodup_range'

end EagerLoad
