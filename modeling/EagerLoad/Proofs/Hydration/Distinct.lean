import EagerLoad.Proofs.Hydration.Calls
import EagerLoad.Proofs.Hydration.Forest
import EagerLoad.Proofs.Hydration.Success
import EagerLoad.Proofs.Values.Identity

/-!
# Records of different keys

Two rows that are folded into a node below the same parent make one record exactly if the database takes
their keys to be equal, and a batch asks for the key of each parent record whose key is complete. Both hold
of keys whose identities agree with the database, that is of all but numbers that JSON has no text for and
the two zeros.
-/

namespace EagerLoad

open Arena

variable {p : Plan} {n : Node} {row row' : Row} {parent : Option Nat} {a a' c c' : Arena} {q q' : Nat}
  {v w : Value} {b : Batch}

/-- A record that is added is found, if there was none like it. -/
theorem Arena.find?_push {r : KeyedRecord} (h : a.find? r.node r.parent r.key = none) :
    (a.push r).find? r.node r.parent r.key = some a.records.length := by
  rw [find?] at h ⊢
  rw [seen_push, List.lookup_append, h, Option.none_or, List.lookup_cons_self]

/-- A row that has the labels of a node and a key makes a record there, the one that was there if there was
one, and it is found from then on. -/
theorem Node.exists_absorbed (hrow : row.Has n) (hv : row.named (n.label n.primaryKey) = .ok v)
    (hnull : v.isNull = false) (parent : Option Nat) (a : Arena) :
    ∃ q c, n.absorb row parent a = (.ok (some q), c) ∧ a.Adds c (fun _ => True) ∧
      c.find? n.id parent v.identity = some q ∧ ∀ q', a.find? n.id parent v.identity = some q' → q' = q := by
  cases hfound : a.find? n.id parent v.identity with
  | some q =>
    refine ⟨q, a, ?_, .refl .., hfound, fun q' hq' => (Option.some.inj hq').symm⟩
    simp only [absorb, hv, hnull, hfound, Bool.false_eq_true, if_false]
  | none =>
    obtain ⟨values, hvalues⟩ := exists_readColumns hrow
    let r : KeyedRecord := { node := n.id, values, parent, key := v.identity }
    refine ⟨a.records.length, a.push r, ?_, .push trivial, find?_push (r := r) hfound,
      fun q' hq' => by cases hq'⟩
    simp only [absorb, hv, hnull, hfound, hvalues, Bool.false_eq_true, if_false, r]

/-- Two rows that are folded one after the other below the same parent make one record exactly if their keys
have one identity. -/
theorem Node.absorbed_eq_iff (hv : row.named (n.label n.primaryKey) = .ok v)
    (hw : row'.named (n.label n.primaryKey) = .ok w) (hrow : row.Has n) (hrow' : row'.Has n)
    (hvnull : v.isNull = false) (hwnull : w.isNull = false) (parent : Option Nat) (ha : a.InStep) :
    ∃ q c, n.absorb row parent a = (.ok (some q), c) ∧ c.InStep ∧ ∀ a', a'.InStep → c.Grows a' →
      ∃ q' c', n.absorb row' parent a' = (.ok (some q'), c') ∧ (q = q' ↔ v.identity = w.identity) := by
  obtain ⟨q, c, hq, hadds, hfound, -⟩ := exists_absorbed hrow hv hvnull parent a
  refine ⟨q, c, hq, hadds.inStep ha, fun a' ha' hgrows => ?_⟩
  obtain ⟨q', c', hq', hadds', hfound', hknown⟩ := exists_absorbed hrow' hw hwnull parent a'
  refine ⟨q', c', hq', ?_, fun heq => ?_⟩
  · -- The record that both rows made has one key.
    rintro rfl
    have hc' := hadds'.inStep ha'
    obtain ⟨r, hr, -, -, hkey⟩ := hc'.of_find? (hadds'.grows.found _ _ _ _ (hgrows.found _ _ _ _ hfound))
    obtain ⟨r', hr', -, -, hkey'⟩ := hc'.of_find? hfound'
    rw [← hkey, ← hkey', Option.some.inj (hr.symm.trans hr')]
  · rw [heq] at hfound
    exact hknown q (hgrows.found _ _ _ _ hfound)

/-- A value of one of the types of keys is not null. -/
theorem Value.SameKind.isNull_eq_false (h : v.SameKind w) : v.isNull = false ∧ w.isNull = false := by
  cases h <;> exact ⟨rfl, rfl⟩

/-- Key tuples have values of the same types, and none of them is ambiguous. -/
def ComparableKeys (key key' : List Value) : Prop :=
  List.Forall₂ (fun v w => v.SameKind w ∧ v.Unambiguous w) key key'

/-- Tuples with one identity are equal for the database. -/
theorem ComparableKeys.sqlEq {key key' : List Value} (h : ComparableKeys key key')
    (heq : identities key = identities key') : List.Forall₂ Value.SqlEq key key' := by
  induction h with
  | nil => exact .nil
  | cons hvalue _ ih =>
    obtain ⟨hfirst, hrest⟩ := List.cons.inj heq
    exact .cons (((Value.identity_agrees_iff hvalue.1).mpr hvalue.2).mp hfirst) (ih hrest)

/-- A batch asks for the key of each parent record that has a complete key. -/
theorem Plan.binds_key {node : Nat} {r : Record} {key : List Value} (hparent : p.parentOf b = some node)
    (hr : a.records[q]? = some r) (hnode : r.node = node)
    (hkey : completeKey r.values b.parentColumns = some key) :
    ∃ pending keys, p.prepareBatch b a = some pending ∧ pending.statement = b.forParents keys ∧
      ∃ asked ∈ keys, q ∈ pending.parentsOf (identities asked) ∧ identities asked = identities key ∧
        ∃ r' ∈ a.records, r'.node = node ∧ completeKey r'.values b.parentColumns = some asked := by
  have hmem : (key, q) ∈ a.keyed node b.parentColumns := mem_keyed.mpr ⟨r, hr, hnode, hkey⟩
  have hids : identities key ∈ (a.keyed node b.parentColumns).map fun e => identities e.1 :=
    List.mem_map_of_mem hmem
  obtain ⟨hfirst, hidentities⟩ := identities_keyGroup hids
  refine ⟨_, _, (prepareBatch_eq hparent).trans (if_neg (List.ne_nil_of_mem hmem)), rfl,
    (keyGroup (a.keyed node b.parentColumns) (identities key)).key, ?_, ?_, hidentities, ?_⟩
  · exact List.mem_map_of_mem (List.mem_map_of_mem (List.mem_eraseDups.mpr hids))
  · rw [hidentities, PendingBatch.parentsOf_eq rfl]
    exact List.mem_map.mpr ⟨(key, q), List.mem_filter.mpr ⟨hmem, by simp⟩, rfl⟩
  · obtain ⟨⟨key', q'⟩, hin, hkey'⟩ := List.mem_map.mp hfirst
    obtain ⟨r', hr', hnode', hcomplete⟩ := mem_keyed.mp hin
    exact ⟨r', List.mem_of_getElem? hr', hnode', hkey' ▸ hcomplete⟩

/-- Keys of one type have one identity exactly if the database takes them to be equal, unless they are
different numbers without a text or the two zeros, and that of null exactly if they have no text. So of keys
that are neither, rows with different ones make different records and rows with equal ones the same, whatever
else is folded in between, in every arena whose lists are in step with its records, as they are whatever is
folded; and a batch asks for a key that equals that of each parent record without a null in its key
columns. -/
theorem keys_kept_apart (h : v.SameKind w) :
    ((v.identity = w.identity ↔ v.SqlEq w) ↔ v.Unambiguous w) ∧
    (v.identity = Value.null.identity ↔ v.isNonfinite = true) ∧
    (v.Unambiguous w → ∀ (n : Node) (row row' : Row), row.Has n → row'.Has n →
      row.named (n.label n.primaryKey) = .ok v → row'.named (n.label n.primaryKey) = .ok w →
      ∀ (parent : Option Nat) (a : Arena), a.InStep →
        ∃ q c, n.absorb row parent a = (.ok (some q), c) ∧ c.InStep ∧ ∀ a', a'.InStep → c.Grows a' →
          ∃ q' c', n.absorb row' parent a' = (.ok (some q'), c') ∧ (q = q' ↔ v.SqlEq w)) ∧
    ∀ (p : Plan) (b : Batch) (a : Arena) (node : Nat), p.parentOf b = some node →
      (∀ r ∈ a.records, ∀ r' ∈ a.records, r.node = node → r'.node = node → ∀ key key',
        completeKey r.values b.parentColumns = some key → completeKey r'.values b.parentColumns = some key' →
        ComparableKeys key key') →
      ∀ q r, a.records[q]? = some r → r.node = node →
        (∀ column ∈ b.parentColumns, ∃ v, r.values.get? column = some v ∧ v.isNull = false) →
        ∃ key pending keys, completeKey r.values b.parentColumns = some key ∧
          p.prepareBatch b a = some pending ∧ pending.statement = b.forParents keys ∧
          ∃ asked ∈ keys, q ∈ pending.parentsOf (identities asked) ∧
            List.Forall₂ Value.SqlEq asked key := by
  have hagrees := Value.identity_agrees_iff h
  refine ⟨hagrees, Value.identity_eq_null h, ?_, ?_⟩
  · intro hclear n row row' hrow hrow' hv hw parent a ha
    obtain ⟨hvnull, hwnull⟩ := h.isNull_eq_false
    obtain ⟨q, c, hq, hc, hlater⟩ := Node.absorbed_eq_iff hv hw hrow hrow' hvnull hwnull parent ha
    refine ⟨q, c, hq, hc, fun a' ha' hgrows => ?_⟩
    obtain ⟨q', c', hq', hsame⟩ := hlater a' ha' hgrows
    exact ⟨q', c', hq', hsame.trans (hagrees.mpr hclear)⟩
  · intro p b a node hparent hcomparable q r hr hnode hcolumns
    obtain ⟨key, hkey⟩ := exists_completeKey.mpr hcolumns
    obtain ⟨pending, keys, hpending, hstatement, asked, hasked, hq, hids, r', hr', hnode', hkey'⟩ :=
      Plan.binds_key hparent hr hnode hkey
    exact ⟨key, pending, keys, hkey, hpending, hstatement, asked, hasked, hq,
      (hcomparable r' hr' r (List.mem_of_getElem? hr) hnode' hnode asked key hkey' hkey).sqlEq hids⟩

/-- Roles whose keys are numbers: the keys 7 and 8 make two records, and the batch of the users asks for
the key of the first. -/
theorem forum_roles_kept_apart :
    let editor : Row := .ofValues [("r0.uuid", .int32 7), ("r0.name", .text "editor")]
    let reader : Row := .ofValues [("r0.uuid", .int32 8), ("r0.name", .text "reader")]
    ((Value.int32 7).identity = (Value.int32 8).identity ↔ (Value.int32 7).SqlEq (.int32 8)) ∧
    ∃ p b a, forum.compile { Request.forModel "Role" with relations := ["users"], limit := none } = .ok p ∧
      (∃ q c, p.root.absorb editor none .empty = (.ok (some q), c) ∧ c.InStep ∧
        ∀ a', a'.InStep → c.Grows a' → ∃ q' c', p.root.absorb reader none a' = (.ok (some q'), c') ∧
          (q = q' ↔ (Value.int32 7).SqlEq (.int32 8))) ∧
      p.batches[0]? = some b ∧ p.absorbPrimary editor .empty = (.ok (), a) ∧
      ∃ r key pending keys, a.records[0]? = some r ∧ completeKey r.values b.parentColumns = some key ∧
        p.prepareBatch b a = some pending ∧ pending.statement = b.forParents keys ∧
        ∃ asked ∈ keys, 0 ∈ pending.parentsOf (identities asked) ∧ List.Forall₂ Value.SqlEq asked key := by
  intro editor reader
  have hplan : ∃ p b, forum.compile
        { Request.forModel "Role" with relations := ["users"], limit := none } = .ok p ∧
      p.batches[0]? = some b ∧ p.parentOf b = some 0 ∧ b.parentColumns = ["uuid"] ∧
      p.root.primaryKey = "uuid" ∧ p.root.columns = ["uuid", "name"] ∧ p.root.tableAlias = "r0" ∧
      ∃ a, p.absorbPrimary editor .empty = (.ok (), a) ∧ a.records =
        [⟨0, .ofList [("uuid", .int32 7), ("name", .text "editor")]⟩] :=
    ⟨_, _, by cbv, by cbv, by cbv, by cbv, by cbv, by cbv, by cbv, _, by cbv, by cbv⟩
  obtain ⟨p, b, hcompile, hb, hparent, hcolumns, hprimary, hall, halias, a, ha, hrecords⟩ := hplan
  have hlabel (column : String) : p.root.label column = columnLabel "r0" column := by
    rw [Node.label, halias]
  have hhas {row : Row} (huuid : ∃ v, row.named "r0.uuid" = .ok v) (hname : ∃ v, row.named "r0.name" = .ok v) :
      row.Has p.root := by
    intro column hcolumn
    rw [hprimary, hall] at hcolumn
    rw [hlabel]
    simp only [List.mem_cons, List.not_mem_nil, or_false] at hcolumn
    rcases hcolumn with rfl | rfl | rfl
    · exact huuid
    · exact huuid
    · exact hname
  have hkind (m n : Int32) : (Value.int32 m).SameKind (.int32 n) ∧ (Value.int32 m).Unambiguous (.int32 n) :=
    ⟨.int32 m n, fun h => absurd h Bool.false_ne_true, fun h => absurd h Bool.false_ne_true⟩
  obtain ⟨hagrees, -, happart, hbinds⟩ := keys_kept_apart (hkind 7 8).1
  refine ⟨hagrees.mpr (hkind 7 8).2, p, b, a, hcompile, ?_, hb, ha, ?_⟩
  · exact happart (hkind 7 8).2 p.root editor reader (hhas ⟨_, rfl⟩ ⟨_, rfl⟩) (hhas ⟨_, rfl⟩ ⟨_, rfl⟩)
      (by rw [hlabel, hprimary]; rfl) (by rw [hlabel, hprimary]; rfl) none .empty inStep_empty
  · let role : Record := ⟨0, .ofList [("uuid", .int32 7), ("name", .text "editor")]⟩
    have hkey : completeKey role.values b.parentColumns = some [.int32 7] := by rw [hcolumns]; rfl
    have hrole : a.records[0]? = some role := by rw [hrecords]; rfl
    refine ⟨role, (hbinds p b a 0 hparent ?_ 0 role hrole rfl ?_).imp fun key => ?_⟩
    · intro r hr r' hr' _ _ key key' hr₁ hr₁'
      rw [hrecords] at hr hr'
      rw [List.mem_singleton.mp hr, show completeKey _ _ = _ from hkey] at hr₁
      rw [List.mem_singleton.mp hr', show completeKey _ _ = _ from hkey] at hr₁'
      cases hr₁
      cases hr₁'
      exact .cons (hkind 7 7) .nil
    · exact exists_completeKey.mp ⟨_, hkey⟩
    · rintro ⟨pending, keys, h⟩
      exact ⟨pending, keys, hrole, h⟩

/-- Two roles whose keys are the two infinite numbers make one record, and their keys are told neither from
each other nor from null. The two zeros are equal, and make two. -/
theorem forum_infinite_roles_merged :
    let infinite : Value := .float64 (.ofBits 0x7ff0000000000000)
    let least : Value := .float64 (.ofBits 0xfff0000000000000)
    let zero : Value := .float64 (.ofBits 0)
    let minus : Value := .float64 (.ofBits 0x8000000000000000)
    let role (key : Value) : Row := .ofValues [("r0.uuid", key), ("r0.name", .text "editor")]
    ¬infinite.SqlEq least ∧ infinite.identity = least.identity ∧ infinite.identity = Value.null.identity ∧
    zero.SqlEq minus ∧ zero.identity ≠ minus.identity ∧
    ∃ p, forum.compile { Request.forModel "Role" with limit := none } = .ok p ∧
      (p.absorbPrimaries [role infinite, role least] .empty).1.isOk ∧
      (p.absorbPrimaries [role infinite, role least] .empty).2.roots = [0] ∧
      (p.absorbPrimaries [role zero, role minus] .empty).1.isOk ∧
      (p.absorbPrimaries [role zero, role minus] .empty).2.roots = [0, 1] := by
  intro infinite least zero minus role
  refine ⟨?_, by decide +kernel, by decide +kernel, ?_, by decide +kernel, ?_⟩
  · unfold infinite least Value.SqlEq
    decide +kernel
  · unfold zero minus Value.SqlEq
    decide +kernel
  · exact ⟨_, by cbv, by decide +kernel, by decide +kernel, by decide +kernel, by decide +kernel⟩

end EagerLoad
