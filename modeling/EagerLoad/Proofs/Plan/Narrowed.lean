import EagerLoad.Proofs.Plan.Places
import EagerLoad.Proofs.Plan.Refusals

/-!
# What adjustments change in a plan

A request with adjustments compiles to the plan of the request without them, narrowed at each node whose name
has a condition stored: in the condition of its join, in the sub-select that is joined for it, or in the
batch that it opens. Nothing else changes.
-/

namespace EagerLoad

open Sql

variable {s : Schema} {r : Request} {root : s.EntityId} {hops path : List s.RelationId} {d d' : Draft}
  {id : s.RelationId} {m n : Node} {a : Attachment} {p : Plan} {q : Select} {tableAlias : String}

/-- The conditions by which aliases are narrowed. -/
abbrev Narrowing := String → Option Condition

namespace Sql

/-- A join of what satisfies a further condition. A sub-select is filtered inside, where its bound counts. -/
def Join.filtered (j : Join) (c : Condition) : Join :=
  match j.target with
  | .table _ => { j with on := j.on.both (c.qualified j.tableAlias) }
  | .lateral sub => { j with target := .lateral (sub.filtered (c.qualified sub.tableAlias)) }

/-- A join of what satisfies the condition for its alias. -/
def Join.narrowed (f : Narrowing) (j : Join) : Join :=
  match f j.tableAlias with
  | some c => j.filtered c
  | none => j

/-- A statement with its joins narrowed. -/
def Select.narrowed (f : Narrowing) (q : Select) : Select :=
  { q with joins := q.joins.map (·.narrowed f) }

/-- A statement with its source narrowed. -/
def Select.narrowedSource (f : Narrowing) (q : Select) : Select :=
  match f q.tableAlias with
  | some c => q.filtered (c.qualified q.tableAlias)
  | none => q

end Sql

/-- A batch with its joins and its own target narrowed. -/
def Batch.narrowed (f : Narrowing) (b : Batch) : Batch :=
  { b with statement := (b.statement.narrowed f).narrowedSource f }

/-- The conditions that are stored for the names of nodes, each for the alias of its node. -/
def KeyMap.storedFor (adjustments : KeyMap Condition) (nodes : List Node) : Narrowing := fun tableAlias =>
  (nodes.find? (·.tableAlias == tableAlias)).bind fun n => adjustments.get? n.name

/-- A plan narrowed at each node below the root whose name has a condition stored. -/
def Plan.narrowed (p : Plan) (adjustments : KeyMap Condition) : Plan :=
  let f := adjustments.storedFor p.others
  { p with primary := p.primary.narrowed f, batches := p.batches.map (·.narrowed f) }

/-- The request without its adjustments. -/
def Request.unadjusted (r : Request) : Request :=
  { r with adjustments := .empty }

/-- The hop without an adjustment. -/
def Hop.unadjusted (h : Hop) : Hop :=
  { h with adjustment := none }

namespace Draft

def narrowedBy (d : Draft) (f : Narrowing) : Draft :=
  { d with primary := d.primary.narrowed f, batches := d.batches.map (·.narrowed f) }

/-- A draft narrowed at each of its nodes whose name has a condition stored. -/
def narrowed (d : Draft) (adjustments : KeyMap Condition) : Draft :=
  d.narrowedBy (adjustments.storedFor d.others)

end Draft

def Attachment.narrowedBy (a : Attachment) (f : Narrowing) : Attachment :=
  { a with draft := a.draft.narrowedBy f }

/-- A narrowing has for a new node the adjustment of its hop, and nothing for other new aliases. -/
structure Narrowing.Fits (f : Narrowing) (h : Hop) (d : Draft) (a : Attachment) : Prop where
  own : f a.tableAlias = h.adjustment
  apart : ∀ tableAlias, ¬d.aliases.Given tableAlias → tableAlias ≠ a.tableAlias → f tableAlias = none

section Congr

variable {f f' : Narrowing}

/-- Only the aliases that stand in a statement matter. -/
theorem Sql.Select.narrowed_congr (h : ∀ tableAlias ∈ q.places, f tableAlias = f' tableAlias) :
    q.narrowed f = q.narrowed f' := by
  have hjoins : q.joins.map (·.narrowed f) = q.joins.map (·.narrowed f') := by
    refine List.map_congr_left fun j hj => ?_
    unfold Join.narrowed
    rw [h j.tableAlias (List.mem_cons_of_mem _ (List.mem_map_of_mem hj))]
  unfold Select.narrowed
  rw [hjoins]

theorem Draft.narrowedBy_congr (root : s.EntityId)
    (h : ∀ tableAlias ∈ (d.plan s root).places, f tableAlias = f' tableAlias) :
    d.narrowedBy f = d.narrowedBy f' := by
  have hprimary : d.primary.narrowed f = d.primary.narrowed f' :=
    Select.narrowed_congr fun tableAlias hmem => h tableAlias (List.mem_append_left _ hmem)
  have hbatches : d.batches.map (·.narrowed f) = d.batches.map (·.narrowed f') := by
    refine List.map_congr_left fun b hb => ?_
    have hplaces : ∀ tableAlias ∈ b.statement.places, f tableAlias = f' tableAlias := fun tableAlias hmem =>
      h tableAlias (List.mem_append_right _ (List.mem_flatMap.mpr ⟨b, hb, hmem⟩))
    have hsource : f (b.statement.narrowed f').tableAlias = f' (b.statement.narrowed f').tableAlias :=
      hplaces b.statement.tableAlias List.mem_cons_self
    unfold Batch.narrowed Select.narrowedSource
    rw [Select.narrowed_congr hplaces, hsource]
  unfold Draft.narrowedBy
  rw [hprimary, hbatches]

end Congr

section Commuting

variable (f : Narrowing)

/-- A map over a list and a change of one element, in either order. -/
theorem map_modify_comm {α β : Type} {g : α → β} {change : α → α} {change' : β → β}
    (h : ∀ x, g (change x) = change' (g x)) (l : List α) (i : Nat) :
    (l.modify i change).map g = (l.map g).modify i change' := by
  induction l generalizing i with
  | nil => cases i <;> rfl
  | cons x rest ih =>
    cases i with
    | zero => simp only [List.modify_zero_cons, List.map_cons, h]
    | succ i => simp only [List.modify_succ_cons, List.map_cons, ih]

theorem Draft.narrowedBy_entrust (d : Draft) (n : Node) :
    (d.entrust n).narrowedBy f = (d.narrowedBy f).entrust n := by
  unfold entrust
  cases n.source with
  | primary => rfl
  | batch i =>
    simp only [narrowedBy]
    rw [map_modify_comm]
    exact fun _ => rfl

/-- What is brought into a statement is narrowed with it. -/
theorem Draft.narrowedBy_modify (d : Draft) (source : RowSource) (joins : List Join) (tableAlias : String)
    (columns : List String) :
    (d.modify source (Select.bringIn joins tableAlias columns)).narrowedBy f =
      (d.narrowedBy f).modify source (Select.bringIn (joins.map (·.narrowed f)) tableAlias columns) := by
  cases source with
  | primary =>
    simp only [modify, narrowedBy, Select.narrowed, Select.bringIn, List.map_append]
  | batch i =>
    simp only [modify, narrowedBy]
    rw [map_modify_comm]
    intro b
    have hsource (q : Select) : (q.bringIn (joins.map (·.narrowed f)) tableAlias columns).narrowedSource f =
        (q.narrowedSource f).bringIn (joins.map (·.narrowed f)) tableAlias columns := by
      have halias : (q.bringIn (joins.map (·.narrowed f)) tableAlias columns).tableAlias = q.tableAlias := rfl
      unfold Select.narrowedSource
      rw [halias]
      cases f q.tableAlias <;> rfl
    have hjoins : (b.statement.bringIn joins tableAlias columns).narrowed f =
        (b.statement.narrowed f).bringIn (joins.map (·.narrowed f)) tableAlias columns := by
      simp only [Select.narrowed, Select.bringIn, List.map_append]
    simp only [Batch.narrowed, hjoins, hsource]

end Commuting

namespace Hop

variable {h : Hop} {f : Narrowing} {kind : JoinKind} {table : String} {on : Condition}
  {ordering : List SortKey}

/-- A join of the target's table is narrowed where it is joined. -/
theorem narrowed_table (hown : f tableAlias = h.adjustment) :
    Join.narrowed f ⟨kind, .table table, tableAlias, on⟩ =
      ⟨kind, .table table, tableAlias, h.adjusted tableAlias on⟩ := by
  unfold Join.narrowed adjusted
  rw [hown]
  cases h.adjustment <;> rfl

/-- A statement that is filtered by the adjustment, if there is one, has it as its last condition. -/
theorem filtered_adjustment (h : Hop) (q : Select) (tableAlias : String) :
    (match h.adjustment with
      | some c => q.filtered (c.qualified tableAlias)
      | none => q) = { q with conditions := q.conditions ++ h.adjustments tableAlias } := by
  unfold adjustments
  cases h.adjustment with
  | none =>
    cases q
    simp
  | some c => rfl

/-- A join of a sub-select is narrowed inside the sub-select. -/
theorem narrowed_lateral {sub : Select} (hown : f tableAlias = h.adjustment) :
    Join.narrowed f ⟨kind, .lateral sub, tableAlias, on⟩ =
      ⟨kind, .lateral { sub with conditions := sub.conditions ++ h.adjustments sub.tableAlias },
        tableAlias, on⟩ := by
  rw [← filtered_adjustment]
  unfold Join.narrowed
  rw [hown]
  cases h.adjustment <;> rfl

theorem narrowed_other {target : JoinTarget} (hnone : f tableAlias = none) :
    Join.narrowed f ⟨kind, target, tableAlias, on⟩ = ⟨kind, target, tableAlias, on⟩ := by
  unfold Join.narrowed
  rw [hnone]

/-- A batch without joins to be narrowed is narrowed at its source. -/
theorem narrowed_batch {b : Batch} (hown : f b.statement.tableAlias = h.adjustment)
    (hjoins : b.statement.joins.map (·.narrowed f) = b.statement.joins) :
    b.narrowed f =
      { b with statement :=
        { b.statement with
          conditions := b.statement.conditions ++ h.adjustments b.statement.tableAlias } } := by
  have hjoined (q : Select) (hq : q.joins.map (·.narrowed f) = q.joins) : q.narrowed f = q := by
    cases q
    simpa [Select.narrowed] using hq
  rw [← filtered_adjustment, Batch.narrowed, hjoined _ hjoins]
  unfold Select.narrowedSource
  rw [hown]

theorem joinDirect_narrowed (hf : f.Fits h d (h.unadjusted.joinDirect d)) :
    h.joinDirect (d.narrowedBy f) = (h.unadjusted.joinDirect d).narrowedBy f := by
  have hunadjusted : h.unadjusted.junction = h.junction := rfl
  unfold joinDirect at hf ⊢
  cases hj : h.junction with
  | none =>
    simp only [hunadjusted, hj] at hf ⊢
    simp only [Attachment.narrowedBy, Draft.narrowedBy_modify, List.map_cons, List.map_nil,
      narrowed_table hf.own]
    rfl
  | some junction =>
    simp only [hunadjusted, hj] at hf ⊢
    have hmiddle := hf.apart _ (d.aliases.not_given_take junction.table)
      (d.aliases.given_take junction.table).ne_take
    simp only [Attachment.narrowedBy, Draft.narrowedBy_modify, List.map_cons, List.map_nil,
      narrowed_table hf.own, narrowed_other hmiddle]
    rfl

theorem joinSelf_narrowed {selfKey : String} (h' : h.unadjusted.joinSelf selfKey ordering d = .ok a)
    (hf : f.Fits h d a) : h.joinSelf selfKey ordering (d.narrowedBy f) = .ok (a.narrowedBy f) := by
  obtain ⟨_, hcolumn, h'⟩ := bind_eq_ok.mp h'
  obtain rfl := Except.ok.inj h'
  refine bind_eq_ok.mpr ⟨_, hcolumn, congrArg Except.ok ?_⟩
  simp only [Attachment.narrowedBy, Draft.narrowedBy_modify, List.map_cons, List.map_nil,
    narrowed_table hf.own]
  rfl

theorem joinLateral_narrowed {limit : Nat} (h' : h.unadjusted.joinLateral limit ordering d = .ok a)
    (hf : f.Fits h d a) : h.joinLateral limit ordering (d.narrowedBy f) = .ok (a.narrowedBy f) := by
  have hunadjusted : h.unadjusted.junction = h.junction := rfl
  unfold joinLateral at h' ⊢
  cases hj : h.junction
  all_goals
    simp only [hunadjusted, hj] at h' ⊢
    obtain ⟨order, horder, h'⟩ := bind_eq_ok.mp h'
    obtain rfl := Except.ok.inj h'
    refine bind_eq_ok.mpr ⟨order, horder, congrArg Except.ok ?_⟩
    simp only [Attachment.narrowedBy, Draft.narrowedBy_modify, List.map_cons, List.map_nil,
      narrowed_lateral hf.own]
    rfl

theorem loadBatch_narrowed (h' : h.unadjusted.loadBatch ordering d = .ok a) (hf : f.Fits h d a) :
    h.loadBatch ordering (d.narrowedBy f) = .ok (a.narrowedBy f) := by
  have hunadjusted : h.unadjusted.junction = h.junction := rfl
  unfold loadBatch at h' ⊢
  cases hj : h.junction with
  | none =>
    simp only [hunadjusted, hj] at h' ⊢
    obtain ⟨order, horder, h'⟩ := Schema.ite_bind_eq_ok.mp h'
    obtain rfl := Except.ok.inj h'
    refine Schema.ite_bind_eq_ok.mpr ⟨order, horder, congrArg Except.ok ?_⟩
    simp only [Attachment.narrowedBy, Draft.narrowedBy, List.map_append, List.map_cons, List.map_nil]
    rw [narrowed_batch (h := h)]
    · simp only [List.length_map]
      rfl
    · exact hf.own
    · rfl
  | some junction =>
    simp only [hunadjusted, hj] at h' ⊢
    obtain ⟨order, horder, h'⟩ := Schema.ite_bind_eq_ok.mp h'
    obtain rfl := Except.ok.inj h'
    refine Schema.ite_bind_eq_ok.mpr ⟨order, horder, congrArg Except.ok ?_⟩
    have hmiddle := hf.apart ((d.aliases.take h.unadjusted.target.table).2.take junction.table).1
      (fun hgiven => hgiven.take.ne_take rfl) (d.aliases.given_take h.unadjusted.target.table).ne_take.symm
    simp only [Attachment.narrowedBy, Draft.narrowedBy, List.map_append, List.map_cons, List.map_nil]
    rw [narrowed_batch (h := h)]
    · simp only [List.length_map]
      rfl
    · exact hf.own
    · rw [List.map_singleton, narrowed_other hmiddle]

/-- A hop is placed in a narrowed draft as it is without its adjustment, and then narrowed. -/
theorem place_narrowed (h' : h.unadjusted.place r.unadjusted d = .ok a) (hf : f.Fits h d a) :
    h.place r (d.narrowedBy f) = .ok (a.narrowedBy f) := by
  have hcardinality : h.unadjusted.cardinality = h.cardinality := rfl
  have hself : r.unadjusted.selfKey = r.selfKey := rfl
  have hlimit : r.unadjusted.limit = r.limit := rfl
  have htarget : h.unadjusted.targetId = d.root.entity ↔ h.targetId = (d.narrowedBy f).root.entity := Iff.rfl
  unfold place at h' ⊢
  simp only [hcardinality, hself, hlimit, htarget] at h'
  cases hc : h.cardinality with
  | one =>
    simp only [hc] at h' ⊢
    obtain rfl := Except.ok.inj h'
    rw [joinDirect_narrowed hf]
  | many =>
    simp only [hc] at h' ⊢
    cases hs : r.selfKey with
    | none =>
      cases hl : r.limit with
      | none =>
        simp only [hs, hl] at h' ⊢
        exact loadBatch_narrowed h' hf
      | some limit =>
        simp only [hs, hl] at h' ⊢
        exact joinLateral_narrowed h' hf
    | some selfKey =>
      simp only [hs] at h' ⊢
      split at h'
      · rename_i hroot
        rw [if_pos hroot]
        exact joinSelf_narrowed h' hf
      · rename_i hroot
        rw [if_neg hroot]
        cases hl : r.limit with
        | none =>
          simp only [hl] at h' ⊢
          exact loadBatch_narrowed h' hf
        | some limit =>
          simp only [hl] at h' ⊢
          exact joinLateral_narrowed h' hf

end Hop

namespace KeyMap

variable {adjustments : KeyMap Condition} {nodes : List Node}

theorem storedFor_eq_none (h : ∀ n ∈ nodes, n.tableAlias ≠ tableAlias) :
    adjustments.storedFor nodes tableAlias = none := by
  have hfind : nodes.find? (·.tableAlias == tableAlias) = none := by
    simpa [List.find?_eq_none] using h
  unfold storedFor
  rw [hfind]
  rfl

/-- The alias of a node has what is stored for the name of the node. -/
theorem storedFor_of_mem (h : (nodes.map (·.tableAlias)).Nodup) (hn : n ∈ nodes) :
    adjustments.storedFor nodes n.tableAlias = adjustments.get? n.name := by
  have hfind : nodes.find? (·.tableAlias == n.tableAlias) = some n := by
    cases hfound : nodes.find? (·.tableAlias == n.tableAlias) with
    | none =>
      have hne := List.find?_eq_none.mp hfound n hn
      simp at hne
    | some k =>
      have halias : k.tableAlias = n.tableAlias := by simpa using List.find?_some hfound
      rw [List.inj_on_of_nodup_map h (List.mem_of_find?_eq_some hfound) hn halias]
  unfold storedFor
  rw [hfind]
  rfl

/-- A further node changes what is stored for its own alias only. -/
theorem storedFor_append (hne : n.tableAlias ≠ tableAlias) :
    adjustments.storedFor (nodes ++ [n]) tableAlias = adjustments.storedFor nodes tableAlias := by
  have hsingle : [n].find? (·.tableAlias == tableAlias) = none := by
    simpa using hne
  unfold storedFor
  rw [List.find?_append, hsingle, Option.or_none]

end KeyMap

namespace Schema

/-- Attaching a hop to a narrowed draft gives the narrowed draft that attaching it without its adjustment
gives. -/
theorem attach_narrowed (hplaces : ∀ tableAlias ∈ (d.plan s root).places, d.aliases.Given tableAlias)
    (hnodes : ∀ k ∈ d.others, d.aliases.Given k.tableAlias) (hapart : (d'.others.map (·.tableAlias)).Nodup)
    (h : (s.hop r.unadjusted m id).attach r.unadjusted d = .ok (n, d')) :
    (s.hop r m id).attach r (d.narrowed r.adjustments) = .ok (n, d'.narrowed r.adjustments) := by
  obtain ⟨a, hplace, hn, hd'⟩ := Hop.attach_eq_ok h
  obtain ⟨-, hothers⟩ := Hop.nodes_of_attach h
  have hnew : ¬d.aliases.Given n.tableAlias := hn ▸ not_given_of_place hplace
  have halias : a.tableAlias = n.tableAlias := hn ▸ rfl
  let f := r.adjustments.storedFor d'.others
  have hfits : f.Fits (s.hop r m id) d a := by
    constructor
    case own =>
      have hname : (s.hop r m id).adjustment = r.adjustments.get? n.name := hn ▸ rfl
      rw [halias, hname]
      exact KeyMap.storedFor_of_mem hapart (by simp [hothers])
    case apart =>
      intro tableAlias hgiven hne
      refine KeyMap.storedFor_eq_none fun k hk heq => ?_
      rw [hothers, List.mem_append, List.mem_singleton] at hk
      rcases hk with hk | rfl
      · exact hgiven (heq ▸ hnodes k hk)
      · exact hne (heq.symm.trans halias.symm)
  -- the new alias stands nowhere in the draft, so what is there is narrowed as before
  have hsame : d.narrowed r.adjustments = d.narrowedBy f := by
    refine Draft.narrowedBy_congr root fun tableAlias hmem => ?_
    simp only [f, hothers]
    exact (KeyMap.storedFor_append fun heq => hnew (heq ▸ hplaces _ hmem)).symm
  have hplaced : (s.hop r m id).place r (d.narrowedBy f) = .ok (a.narrowedBy f) :=
    Hop.place_narrowed hplace hfits
  have hbefore : (a.narrowedBy f).draft.others = d.others := (Hop.placed_of_place hplace).others_eq
  have hnarrowed : d'.narrowed r.adjustments =
      { (a.narrowedBy f).draft with
        others := d.others ++ [n]
        notes := a.draft.notes.visit n }.entrust n := by
    change d'.narrowedBy f = _
    rw [hd', Draft.narrowedBy_entrust]
    rfl
  rw [hsame, hnarrowed]
  refine bind_eq_ok.mpr ⟨_, hplaced, ?_⟩
  rw [hbefore, hn]
  rfl

/-- Walking a path from a narrowed draft leads to the narrowed draft. -/
theorem walk_narrowed {here : s.EntityId} (h : s.Compiling r.unadjusted root hops d) (hmem : m ∈ d.nodes)
    (hhere : m.entity = here) (hchain : s.IsChain here path)
    (hw : s.walk r.unadjusted m d path = .ok d') :
    s.walk r m (d.narrowed r.adjustments) path = .ok (d'.narrowed r.adjustments) := by
  -- The walk stays among the drafts of the compilation without adjustments, whose aliases are given out.
  induction path generalizing hops here m d with
  | nil =>
    cases hw
    rfl
  | cons id rest ih =>
    obtain ⟨hsource, hrest⟩ := hchain
    have hloading : (d.narrowed r.adjustments).loading? (s.relation id).target =
        d.loading? (s.relation id).target := rfl
    unfold walk at hw ⊢
    rw [hloading]
    cases hloaded : d.loading? (s.relation id).target with
    | some n =>
      rw [hloaded] at hw
      obtain ⟨hnode, hentity⟩ := h.noted.of_loading? hloaded
      exact ih (h.reuse hloaded) (List.mem_cons_of_mem _ hnode) hentity hrest hw
    | none =>
      rw [hloaded] at hw
      obtain ⟨⟨n, d₁⟩, hattach, hw⟩ := bind_eq_ok.mp hw
      have hnext := h.attach hmem (hhere.trans (by rw [hsource])) hloaded hattach
      have hplaces : ∀ tableAlias ∈ (d.plan s root).places, d.aliases.Given tableAlias :=
        fun tableAlias hplace => h.introduces.given _ ((d.plan s root).places_sublist.subset hplace)
      have hnodes : ∀ k ∈ d.others, d.aliases.Given k.tableAlias := fun k hk =>
        h.projecting.given k (List.mem_cons_of_mem _ hk)
      obtain ⟨a, -, rfl, -⟩ := Hop.attach_eq_ok hattach
      obtain ⟨-, hothers⟩ := Hop.nodes_of_attach hattach
      refine bind_eq_ok.mpr ⟨_, attach_narrowed hplaces hnodes hnext.apart hattach, ?_⟩
      exact ih hnext (by simp [Draft.nodes, hothers]) rfl hrest hw

/-- Walking the paths to several relations from a narrowed draft leads to the narrowed draft. -/
theorem walks_narrowed {names : List String} (h : s.Compiling r.unadjusted root hops d)
    (hw : names.foldlM (fun d name => s.walk r.unadjusted d.root d (s.path root name)) d = .ok d') :
    names.foldlM (fun d name => s.walk r d.root d (s.path root name)) (d.narrowed r.adjustments) =
      .ok (d'.narrowed r.adjustments) := by
  induction names generalizing hops d with
  | nil =>
    cases hw
    rfl
  | cons name rest ih =>
    rw [List.foldlM_cons] at hw ⊢
    obtain ⟨d₁, hfirst, hw⟩ := bind_eq_ok.mp hw
    have hentity : d.root.entity = root := by
      rw [h.root_eq]
      rfl
    have hchain := isChain_path root name
    refine bind_eq_ok.mpr ⟨_, walk_narrowed h List.mem_cons_self hentity hchain hfirst, ?_⟩
    exact ih (h.walk List.mem_cons_self hentity hchain hfirst) hw

/-- Where a request without its adjustments compiles, the request compiles to the narrowed plan. -/
theorem compile_narrowed (h : s.compile r.unadjusted = .ok p) : s.compile r = .ok (p.narrowed r.adjustments) := by
  obtain ⟨root, hroot, hkeyed⟩ := bind_eq_ok.mp h
  obtain ⟨_, hkey, hwalked⟩ := bind_eq_ok.mp hkeyed
  obtain ⟨d, hd, hp⟩ := bind_eq_ok.mp hwalked
  obtain rfl := Except.ok.inj hp
  have hstart : (s.rootDraft root).narrowed r.adjustments = s.rootDraft root := rfl
  have hd' := walks_narrowed .start hd
  rw [hstart] at hd'
  refine bind_eq_ok.mpr ⟨root, hroot, bind_eq_ok.mpr ⟨_, hkey, bind_eq_ok.mpr ⟨_, hd', ?_⟩⟩⟩
  rfl

/-- A request compiles to the narrowed plan of the request without its adjustments, and is refused for what
that is refused for. -/
theorem compile_eq_narrowed (r : Request) :
    s.compile r = (s.compile r.unadjusted).map (·.narrowed r.adjustments) := by
  have hcheck : s.checkRequest r.unadjusted = s.checkRequest r :=
    checkRequest_congr rfl rfl rfl fun _ => Iff.rfl
  rcases s.compile_cases r.unadjusted with ⟨e, hfails, hcompile⟩ | ⟨-, root, p, -, hcompile, -⟩
  · rw [hcompile]
    rcases s.compile_cases r with ⟨e', hfails', hcompile'⟩ | ⟨hpasses, -⟩
    · rw [hcompile']
      rw [hcheck, hfails'] at hfails
      obtain rfl := Except.error.inj hfails
      rfl
    · rw [hcheck, hpasses] at hfails
      cases hfails
  · rw [hcompile, compile_narrowed hcompile]
    rfl

end Schema

end EagerLoad
