import EagerLoad.Proofs.Plan.Attachments

/-!
# Hops are attached in scope

What a hop joins to the statement of its parent refers to the parent's alias and to the aliases that it
introduces itself, and the batch that a hop opens refers to its own aliases only. Where the joins of the
relation fit its entities, the columns referred to are declared.
-/

namespace EagerLoad

open Sql

variable {s : Schema} {r : Request} {d : Draft} {id : s.RelationId} {m n : Node} {a : Attachment}
  {seen : Introduced s}

/-- Behind the alias of a node stands the entity that it loads, or a sub-select of that entity's
columns. -/
def Node.IntroducedIn (n : Node) (seen : Introduced s) : Prop :=
  ∃ id : s.EntityId, n.entity = id ∧ ((n.tableAlias, .entity id) ∈ seen ∨
    n.strategy = .boundedLateral ∧
      (n.tableAlias, .lateral (.entity id) (s.entity id).columns) ∈ seen)

namespace Node.IntroducedIn

theorem mono {seen' : Introduced s} (h : n.IntroducedIn seen) (hsub : seen ⊆ seen') :
    n.IntroducedIn seen' := by
  obtain ⟨id, hid, hmem | ⟨hstrategy, hmem⟩⟩ := h
  · exact ⟨id, hid, .inl (hsub hmem)⟩
  · exact ⟨id, hid, .inr ⟨hstrategy, hsub hmem⟩⟩

/-- Behind the alias of a node stands something that has the columns of the entity that it loads. -/
theorem exists_has {e : s.EntityId} (h : n.IntroducedIn seen) (hn : n.entity = e) :
    ∃ behind, (n.tableAlias, behind) ∈ seen ∧ ∀ column ∈ (s.entity e).columns, behind.Has column := by
  obtain ⟨id, hid, h⟩ := h
  obtain rfl : id = e := Fin.ext (hid.symm.trans hn)
  rcases h with hmem | ⟨-, hmem⟩
  · exact ⟨_, hmem, fun column hcolumn => hcolumn⟩
  · exact ⟨_, hmem, fun column hcolumn => hcolumn⟩

end Node.IntroducedIn

section Joins

variable (hr : r.Unqualified)

include hr

/-- A condition of a hop is well scoped if its own columns are declared. -/
theorem Schema.scoped_adjusted {tableAlias : String} {c : Condition} {behind : Behind s}
    (h : ∀ column ∈ c.columns, column.Declared seen) (hmem : (tableAlias, behind) ∈ seen) :
    ((s.hop r m id).adjusted tableAlias c).Scoped r seen := by
  have hadjustment : (s.hop r m id).adjustment = r.adjustments.get? (s.relation id).name := rfl
  unfold Hop.adjusted
  cases hget : r.adjustments.get? (s.relation id).name with
  | none => simpa [hadjustment, hget] using Condition.scoped_of_declared h
  | some adjustment =>
    simpa [hadjustment, hget] using Condition.scoped_narrowed h hget (hr _ _ hget) hmem

/-- The adjustment of a hop is well scoped. -/
theorem Schema.scoped_adjustments {tableAlias : String} {behind : Behind s}
    (hmem : (tableAlias, behind) ∈ seen) :
    ∀ c ∈ (s.hop r m id).adjustments tableAlias, c.Scoped r seen := by
  intro c hc
  obtain ⟨adjustment, hget, rfl⟩ : ∃ adjustment,
      r.adjustments.get? (s.relation id).name = some adjustment ∧
        adjustment.qualified tableAlias = c := by
    simpa [Hop.adjustments, Schema.hop] using hc
  exact Condition.scoped_adjustment hget (hr _ _ hget) hmem

/-- The join of a target's table is well scoped if both sides of its condition have their columns. -/
theorem Schema.scopedAll_targetJoin (m : Node) {pairs : JoinPairs} {left : String} (tableAlias : String)
    {behind : Behind s} (hmem : (left, behind) ∈ seen) (hleft : ∀ column ∈ pairs.left, behind.Has column)
    (hright : pairs.right ⊆ (s.target id).columns) :
    Join.ScopedAll r [s.targetJoin r id m pairs left tableAlias] seen
      (seen ++ [(tableAlias, .entity (s.relation id).target)]) := by
  refine ⟨.entity (s.relation id).target, rfl, ?_, rfl⟩
  have hown : (tableAlias, .entity (s.relation id).target) ∈
      seen ++ [(tableAlias, .entity (s.relation id).target)] := by simp
  exact s.scoped_adjusted hr
    (Condition.declared_pairsEqual (List.mem_append_left _ hmem) hown hleft hright) hown

/-- A to-one hop joins what is well scoped, and introduces its target. -/
theorem Schema.scopedAll_partnerJoins
    (hfit : JoinsFit (s.relation id).join (s.relation id).junction (s.entity (s.relation id).source)
      (s.target id)) {middle tableAlias : String} {behind : Behind s}
    (hmem : (m.tableAlias, behind) ∈ seen)
    (hhas : ∀ column ∈ (s.entity (s.relation id).source).columns, behind.Has column) :
    ∃ more, Join.ScopedAll r (s.partnerJoins r id m middle tableAlias) seen (seen ++ more) ∧
      (tableAlias, .entity (s.relation id).target) ∈ seen ++ more := by
  have hleft : ∀ column ∈ (s.relation id).join.left, behind.Has column :=
    fun column hcolumn => hhas column (hfit.left hcolumn)
  cases hj : (s.relation id).junction with
  | none =>
    simp only [partnerJoins, hj]
    exact ⟨_, s.scopedAll_targetJoin hr m tableAlias hmem hleft (hfit.direct hj), by simp⟩
  | some junction =>
    simp only [partnerJoins, hj]
    have hmiddle : (middle, .junction id) ∈ seen ++ [(middle, .junction id)] := by simp
    have htarget := s.scopedAll_targetJoin hr m tableAlias hmiddle (fun _ _ => trivial)
      (hfit.through junction hj).2
    refine ⟨[(middle, .junction id), (tableAlias, .entity (s.relation id).target)], ?_, by simp⟩
    refine ⟨.junction id, ⟨junction, hj, rfl⟩, Condition.scoped_of_declared ?_, ?_⟩
    · exact Condition.declared_pairsEqual (List.mem_append_left _ hmem) hmiddle hleft fun _ _ => trivial
    · simpa using htarget

omit hr

/-- The statement of a collection joins a junction to its target, and the alias with which the join of
the relation is compared has the columns that the join names. -/
theorem Schema.scopedAll_linkJoins
    (hfit : JoinsFit (s.relation id).join (s.relation id).junction (s.entity (s.relation id).source)
      (s.target id)) {inner : String} (middle : String)
    (hmem : (inner, .entity (s.relation id).target) ∈ seen) :
    ∃ more, Join.ScopedAll r (s.linkJoins id inner middle) seen (seen ++ more) ∧
      ∃ behind, (s.linkAlias id inner middle, behind) ∈ seen ++ more ∧
        ∀ column ∈ (s.relation id).join.right, behind.Has column := by
  cases hj : (s.relation id).junction with
  | none =>
    simp only [linkJoins, linkAlias, hj]
    refine ⟨[], List.append_nil seen, .entity (s.relation id).target, ?_, ?_⟩
    · exact List.mem_append_left _ hmem
    · exact fun column hcolumn => hfit.direct hj hcolumn
  | some junction =>
    simp only [linkJoins, linkAlias, hj]
    have hmiddle : (middle, .junction id) ∈ seen ++ [(middle, .junction id)] := by simp
    refine ⟨[(middle, .junction id)], ⟨.junction id, ⟨junction, hj, rfl⟩, ?_, rfl⟩, .junction id,
      hmiddle, fun _ _ => trivial⟩
    exact Condition.scoped_of_declared (Condition.declared_pairsEqual hmiddle
      (List.mem_append_left _ hmem) (fun _ _ => trivial) fun column hcolumn =>
        (hfit.through junction hj).2 hcolumn)

/-- The ordering of a collection is on columns that are declared. -/
theorem Schema.declared_collectionOrder {tableAlias : String} {ordering : List SortKey}
    {order : List (Column × Direction)}
    (hdeclared : s.Declared) (h : (s.target id).collectionOrder tableAlias ordering = .ok order)
    (hmem : (tableAlias, .entity (s.relation id).target) ∈ seen) :
    ∀ key ∈ order, key.1.Declared seen := by
  intro key hkey
  obtain ⟨column, hcolumn, heq⟩ :=
    Entity.columns_of_collectionOrder (hdeclared _ (List.getElem_mem _)) h key hkey
  rw [heq]
  exact Column.declared_of hmem hcolumn

/-- The sub-select of a bounded hop is well scoped where the parent is introduced. -/
theorem Schema.scoped_collectionSelect (hdeclared : s.Declared) (hr : r.Unqualified)
    (hfit : JoinsFit (s.relation id).join (s.relation id).junction (s.entity (s.relation id).source)
      (s.target id)) {inner : String} (middle : String) (limit : Nat) {ordering : List SortKey}
    {order : List (Column × Direction)} {behind : Behind s}
    (horder : (s.target id).collectionOrder inner ordering = .ok order)
    (hmem : (m.tableAlias, behind) ∈ seen)
    (hhas : ∀ column ∈ (s.entity (s.relation id).source).columns, behind.Has column) :
    ∃ within, Select.Scoped r { s.collectionSelect r id m inner middle limit with ordering := order }
      seen (.entity (s.relation id).target) within := by
  have hinner : (inner, .entity (s.relation id).target) ∈
      seen ++ [(inner, .entity (s.relation id).target)] := by simp
  obtain ⟨more, hjoins, link, hlink, hlinkHas⟩ := s.scopedAll_linkJoins hfit middle hinner
  have hown := List.mem_append_left more hinner
  refine ⟨_, ⟨_, rfl, rfl⟩, hjoins, fun q hq => ?_, fun c hc => ?_,
    s.declared_collectionOrder hdeclared horder hown⟩
  · obtain ⟨column, hcolumn, rfl⟩ := List.mem_map.mp hq
    exact Column.declared_of hown hcolumn
  · rcases List.mem_cons.mp hc with rfl | hc
    · have hparent := List.mem_append_left more
        (List.mem_append_left [(inner, Behind.entity (s.relation id).target)] hmem)
      exact Condition.scoped_of_declared (Condition.declared_pairsEqual hparent hlink
        (fun column hcolumn => hhas column (hfit.left hcolumn)) hlinkHas)
    · exact s.scoped_adjustments hr hown c hc

end Joins

/-- A hop is attached by joins in the statement of its parent, which are well scoped after the parent's
alias and introduce the alias of the new node. -/
structure Schema.JoinedTo (s : Schema) (r : Request) (id : s.RelationId) (d : Draft) (m : Node)
    (a : Attachment) (joins : List Join) (tables : List String) : Prop where
  source : a.source = m.source
  draft : ∃ notes, a.draft = { d with aliases := d.aliases.after tables, notes }.modify m.source
    (Select.bringIn joins a.tableAlias (s.target id).columns)
  refers : ∀ seen : Introduced s, m.IntroducedIn seen → ∃ more,
    Join.ScopedAll r joins seen (seen ++ more) ∧
      ((s.hop r m id).node d a).IntroducedIn (seen ++ more)

section Placing

variable (hr : r.Unqualified) (hfit : JoinsFit (s.relation id).join (s.relation id).junction
    (s.entity (s.relation id).source) (s.target id)) (hm : m.entity = (s.relation id).source)

include hr hm

theorem Schema.joinedTo_joinSelf {selfKey : String} {ordering : List SortKey}
    (hself : selfKey ∈ (s.target id).columns)
    (h : (s.hop r m id).joinSelf selfKey ordering d = .ok a) :
    ∃ joins tables, s.JoinedTo r id d m a joins tables := by
  obtain ⟨column, hcolumn, -, ha⟩ := joinSelf_eq h
  refine ⟨_, [(s.target id).table], congrArg (·.source) ha, ⟨_, congrArg (·.draft) ha⟩, fun seen hseen => ?_⟩
  obtain ⟨behind, hparent, hhas⟩ := hseen.exists_has hm
  have hown : (a.tableAlias, .entity (s.relation id).target) ∈
      seen ++ [(a.tableAlias, .entity (s.relation id).target)] := by simp
  refine ⟨_, ⟨.entity (s.relation id).target, rfl, s.scoped_adjusted hr ?_ hown, rfl⟩,
    (s.relation id).target, rfl, .inl hown⟩
  simp only [Condition.columns, List.forall_mem_cons]
  exact ⟨Column.declared_of (List.mem_append_left _ hparent) (hhas _ hcolumn),
    Column.declared_of hown hself, fun _ h => absurd h List.not_mem_nil⟩

include hfit

theorem Schema.joinedTo_joinDirect :
    ∃ joins tables, s.JoinedTo r id d m ((s.hop r m id).joinDirect d) joins tables := by
  obtain ⟨middle, tableAlias, tables, -, -, -, -, ha⟩ := s.joinDirect_eq r id m d
  rw [ha]
  refine ⟨_, tables, rfl, ⟨_, rfl⟩, fun seen hseen => ?_⟩
  obtain ⟨behind, hparent, hhas⟩ := hseen.exists_has hm
  obtain ⟨more, hjoins, hown⟩ := s.scopedAll_partnerJoins hr hfit hparent hhas
  exact ⟨more, hjoins, (s.relation id).target, rfl, .inl hown⟩

theorem Schema.joinedTo_joinLateral (hdeclared : s.Declared) {limit : Nat} {ordering : List SortKey}
    (h : (s.hop r m id).joinLateral limit ordering d = .ok a) :
    ∃ joins tables, s.JoinedTo r id d m a joins tables := by
  obtain ⟨inner, middle, tables, order, horder, -, -, -, ha⟩ := joinLateral_eq h
  refine ⟨_, tables, congrArg (·.source) ha, ⟨_, congrArg (·.draft) ha⟩, fun seen hseen => ?_⟩
  obtain ⟨behind, hparent, hhas⟩ := hseen.exists_has hm
  obtain ⟨within, hscoped⟩ := s.scoped_collectionSelect hdeclared hr hfit middle limit horder hparent hhas
  have hown : (a.tableAlias, .lateral (.entity (s.relation id).target) (s.target id).columns) ∈
      seen ++ [(a.tableAlias, .lateral (.entity (s.relation id).target) (s.target id).columns)] := by
    simp
  refine ⟨_, ⟨_, ⟨_, within, hscoped, ?_⟩, ?_, rfl⟩, (s.relation id).target, rfl,
    .inr ⟨congrArg (·.strategy) ha, hown⟩⟩
  · simp [Select.offered, collectionSelect, Projection.offered?, Column.of, Function.comp_def]
  · exact Condition.scoped_of_declared fun _ h => absurd h List.not_mem_nil

end Placing

/-- A hop opens a batch whose statement is well scoped by itself and introduces the alias of the new
node. -/
structure Schema.OpensBatch (s : Schema) (r : Request) (id : s.RelationId) (d : Draft) (m : Node)
    (a : Attachment) (batch : Batch) (tables : List String) : Prop where
  source : a.source = .batch d.batches.length
  draft : a.draft = { d with aliases := d.aliases.after tables, batches := d.batches ++ [batch] }
  refers : ∃ first, ∃ seen : Introduced s, batch.statement.Scoped r [] first seen ∧
    (∀ column ∈ batch.link, column.Declared seen) ∧ ((s.hop r m id).node d a).IntroducedIn seen

theorem Schema.opensBatch_loadBatch (hdeclared : s.Declared) (hr : r.Unqualified)
    (hfit : JoinsFit (s.relation id).join (s.relation id).junction (s.entity (s.relation id).source)
      (s.target id)) {ordering : List SortKey} (h : (s.hop r m id).loadBatch ordering d = .ok a) :
    ∃ batch tables, s.OpensBatch r id d m a batch tables := by
  obtain ⟨middle, tables, order, horder, -, -, ha⟩ := loadBatch_eq h
  refine ⟨_, tables, congrArg (·.source) ha, congrArg (·.draft) ha, ?_⟩
  have hsource : (a.tableAlias, .entity (s.relation id).target) ∈
      [(a.tableAlias, Behind.entity (s.relation id).target)] := by simp
  obtain ⟨more, hjoins, link, hlink, hlinkHas⟩ := s.scopedAll_linkJoins (r := r) hfit middle hsource
  have hown := List.mem_append_left more hsource
  have hlinked : ∀ column ∈ (s.relation id).join.right.map
      (Column.of (s.linkAlias id a.tableAlias middle)),
        column.Declared ([(a.tableAlias, Behind.entity (s.relation id).target)] ++ more) := by
    intro column hcolumn
    obtain ⟨name, hname, rfl⟩ := List.mem_map.mp hcolumn
    exact Column.declared_of hlink (hlinkHas name hname)
  refine ⟨_, _, ⟨⟨_, rfl, rfl⟩, hjoins, fun q hq => ?_,
    s.scoped_adjustments hr hown, ?_⟩, hlinked, (s.relation id).target, rfl, .inl hown⟩
  · rcases List.mem_append.mp hq with hq | hq
    · obtain ⟨i, column, hcolumn, rfl⟩ := Projection.mem_ofLink.mp hq
      exact hlinked column (List.mem_of_getElem? hcolumn)
    · exact Projection.scoped_labelledColumns hown (fun column hcolumn => hcolumn) q hq
  · split at horder
    · cases horder
      exact fun key hkey => absurd hkey List.not_mem_nil
    · exact s.declared_collectionOrder hdeclared horder hown

/-- Every placed hop joins the statement of its parent or opens a batch. -/
theorem Schema.joinedTo_or_opensBatch (hdeclared : s.Declared) (hr : r.Unqualified)
    (hfit : JoinsFit (s.relation id).join (s.relation id).junction (s.entity (s.relation id).source)
      (s.target id)) (hm : m.entity = (s.relation id).source)
    (hself : ∀ key, r.selfKey = some key → (s.relation id).target = d.root.entity →
      key ∈ (s.target id).columns) (h : (s.hop r m id).place r d = .ok a) :
    (∃ joins tables, s.JoinedTo r id d m a joins tables) ∨
      ∃ batch tables, s.OpensBatch r id d m a batch tables := by
  rcases Hop.place_cases h with ⟨-, rfl⟩ | ⟨-, key, hkey, hroot, h⟩ | ⟨-, limit, -, h⟩ | ⟨-, -, h⟩
  · exact .inl (s.joinedTo_joinDirect hr hfit hm)
  · exact .inl (s.joinedTo_joinSelf hr hm (hself key hkey hroot) h)
  · exact .inl (s.joinedTo_joinLateral hr hfit hm hdeclared h)
  · exact .inr (s.opensBatch_loadBatch hdeclared hr hfit h)

end EagerLoad
