import EagerLoad.Plan.Compile
import EagerLoad.Proofs.Schema.ShortestPath

/-!
# What compiling passes through

Compiling a request walks the paths to its relations hop by hop. `Compiling` lists the drafts that are
passed on the way, so that what every compiled plan has in common is proved by one induction over hops:
a hop either goes on from the node that loads its target already, or attaches a node below the node at
which the walk stands, which loads the source of the hop.
-/

namespace EagerLoad

open Sql

/-- A computation in two steps succeeds exactly if both steps do. -/
theorem bind_eq_ok {ε α β : Type} {x : Except ε α} {f : α → Except ε β} {b : β} :
    x >>= f = .ok b ↔ ∃ a, x = .ok a ∧ f a = .ok b := by
  cases x with
  | error e => simp [bind, Except.bind]
  | ok a => simp [bind, Except.bind]

namespace Draft

variable (d : Draft) (source : RowSource) (change : Select → Select) (n : Node)

/-- The root and the nodes attached to it. -/
def nodes (d : Draft) : List Node :=
  d.root :: d.others

@[simp] theorem root_modify : (d.modify source change).root = d.root := by
  cases source <;> rfl

@[simp] theorem others_modify : (d.modify source change).others = d.others := by
  cases source <;> rfl

@[simp] theorem aliases_modify : (d.modify source change).aliases = d.aliases := by
  cases source <;> rfl

@[simp] theorem notes_modify : (d.modify source change).notes = d.notes := by
  cases source <;> rfl

@[simp] theorem root_entrust : (d.entrust n).root = d.root := by
  unfold entrust
  split <;> rfl

@[simp] theorem others_entrust : (d.entrust n).others = d.others := by
  unfold entrust
  split <;> rfl

@[simp] theorem aliases_entrust : (d.entrust n).aliases = d.aliases := by
  unfold entrust
  split <;> rfl

@[simp] theorem notes_entrust : (d.entrust n).notes = d.notes := by
  unfold entrust
  split <;> rfl

@[simp] theorem primary_entrust : (d.entrust n).primary = d.primary := by
  unfold entrust
  split <;> rfl

end Draft

namespace Hop

variable {h : Hop} {r : Request} {d : Draft} {a : Attachment}

/-- The node that an attachment of the hop adds to a draft. -/
def node (h : Hop) (d : Draft) (a : Attachment) : Node :=
  { id := d.others.length + 1
    name := h.name
    relation := some h.id
    entity := h.targetId
    parent := some h.parent.id
    cardinality := h.cardinality
    strategy := a.strategy
    source := a.source
    tableAlias := a.tableAlias
    primaryKey := h.target.primaryKey
    columns := h.target.columns }

/-- The ways in which a hop is placed. -/
theorem place_cases (hp : h.place r d = .ok a) :
    (h.cardinality = .one ∧ a = h.joinDirect d) ∨
      (h.cardinality = .many ∧ ∃ selfKey, r.selfKey = some selfKey ∧ h.targetId = d.root.entity ∧
        h.joinSelf selfKey r.ordering d = .ok a) ∨
      (h.cardinality = .many ∧ ∃ limit, r.limit = some limit ∧
        h.joinLateral limit r.ordering d = .ok a) ∨
      (h.cardinality = .many ∧ r.limit = none ∧ h.loadBatch r.ordering d = .ok a) := by
  unfold place at hp
  cases hc : h.cardinality with
  | one =>
    simp only [hc] at hp
    exact .inl ⟨rfl, (Except.ok.inj hp).symm⟩
  | many =>
    cases hself : r.selfKey with
    | none =>
      cases hlimit : r.limit with
      | none => exact .inr (.inr (.inr ⟨rfl, rfl, by simpa [hc, hself, hlimit] using hp⟩))
      | some limit => exact .inr (.inr (.inl ⟨rfl, limit, rfl, by simpa [hc, hself, hlimit] using hp⟩))
    | some selfKey =>
      by_cases htarget : h.targetId = d.root.entity
      · exact .inr (.inl ⟨rfl, selfKey, rfl, htarget, by simpa [hc, hself, htarget] using hp⟩)
      · cases hlimit : r.limit with
        | none =>
          exact .inr (.inr (.inr ⟨rfl, rfl, by simpa [hc, hself, htarget, hlimit] using hp⟩))
        | some limit =>
          exact .inr (.inr (.inl ⟨rfl, limit, rfl, by simpa [hc, hself, htarget, hlimit] using hp⟩))

/-- What an attachment does to the draft apart from its statements and aliases. -/
structure Placed (h : Hop) (d : Draft) (a : Attachment) : Prop where
  root_eq : a.draft.root = d.root
  others_eq : a.draft.others = d.others
  /-- A node joins the statement of its parent, or opens a batch of its own. -/
  source : (a.source = h.parent.source ∧ a.strategy ≠ .batched ∧ ∃ aliases notes change,
      a.draft = { d with aliases, notes }.modify h.parent.source change) ∨
    (a.source = .batch d.batches.length ∧ a.strategy = .batched ∧ h.cardinality = .many ∧
      ∃ aliases batch, a.draft = { d with aliases, batches := d.batches ++ [batch] } ∧
        batch.node = d.others.length + 1 ∧ batch.parentColumns = h.join.left)
  /-- A join that may multiply the rows of its statement is noted. -/
  notes : a.draft.notes =
    if a.strategy = .boundedLateral ∨ a.strategy = .selfAliased then d.notes.multiply a.source else d.notes

theorem placed_joinDirect : Placed h d (h.joinDirect d) := by
  unfold joinDirect
  split
  all_goals exact ⟨by simp, by simp, .inl ⟨rfl, by simp, _, _, _, rfl⟩, by simp⟩

theorem placed_joinSelf {selfKey : String} {ordering : List SortKey}
    (hp : h.joinSelf selfKey ordering d = .ok a) : Placed h d a := by
  obtain ⟨_, -, ha⟩ := bind_eq_ok.mp hp
  cases ha
  exact ⟨by simp, by simp, .inl ⟨rfl, by simp, _, _, _, rfl⟩, by simp⟩

theorem placed_joinLateral {limit : Nat} {ordering : List SortKey}
    (hp : h.joinLateral limit ordering d = .ok a) : Placed h d a := by
  obtain ⟨_, -, ha⟩ := bind_eq_ok.mp hp
  cases ha
  exact ⟨by simp, by simp, .inl ⟨rfl, by simp, _, _, _, rfl⟩, by simp⟩

theorem placed_loadBatch {ordering : List SortKey} (hmany : h.cardinality = .many)
    (hp : h.loadBatch ordering d = .ok a) : Placed h d a := by
  unfold loadBatch at hp
  dsimp only at hp
  split at hp
  all_goals
    obtain ⟨_, -, ha⟩ := bind_eq_ok.mp hp
    cases ha
    exact ⟨rfl, rfl, .inr ⟨rfl, rfl, hmany, _, _, rfl, rfl, rfl⟩, by simp⟩

/-- However a hop is placed, the root and the nodes attached before stay. -/
theorem placed_of_place (hp : h.place r d = .ok a) : Placed h d a := by
  rcases place_cases hp with ⟨-, rfl⟩ | ⟨-, _, -, -, hp⟩ | ⟨-, _, -, hp⟩ | ⟨hmany, -, hp⟩
  · exact placed_joinDirect
  · exact placed_joinSelf hp
  · exact placed_joinLateral hp
  · exact placed_loadBatch hmany hp

theorem Placed.children_eq (hp : Placed h d a) : a.draft.notes.children = d.notes.children := by
  rw [hp.notes]
  split <;> simp

theorem Placed.visited_eq (hp : Placed h d a) : a.draft.notes.visited = d.notes.visited := by
  rw [hp.notes]
  split <;> simp

/-- What attaching a hop amounts to. -/
theorem attach_eq_ok {n : Node} {d' : Draft} (ha : h.attach r d = .ok (n, d')) :
    ∃ a, h.place r d = .ok a ∧ n = h.node d a ∧
      d' = { a.draft with others := d.others ++ [n], notes := a.draft.notes.visit n }.entrust n := by
  obtain ⟨a, hp, hn⟩ := bind_eq_ok.mp ha
  cases hn
  exact ⟨a, hp, rfl, by rw [(placed_of_place hp).others_eq]⟩

/-- Attaching a hop keeps the root and adds one node after the others. -/
theorem nodes_of_attach {n : Node} {d' : Draft} (ha : h.attach r d = .ok (n, d')) :
    d'.root = d.root ∧ d'.others = d.others ++ [n] := by
  obtain ⟨a, hp, -, rfl⟩ := attach_eq_ok ha
  simp [(placed_of_place hp).root_eq]

end Hop

/-- The draft of a compilation as a plan. -/
def Draft.plan (s : Schema) (root : s.EntityId) (d : Draft) : Plan :=
  ⟨d.root, d.others, d.notes.children, (s.entity root).table, d.primary, d.batches,
    d.notes.multipliesRows⟩

/-- Whether a node may give several rows of the primary statement for one parent. -/
def Plan.multiplies (n : Node) : Bool :=
  n.source = .primary && (n.strategy = .boundedLateral || n.strategy = .selfAliased)

/-- What is noted of a draft is what its nodes are. -/
structure Draft.Noted (d : Draft) : Prop where
  visited : d.notes.visited = d.others.map fun n => (n.entity, n)
  multiplies : d.notes.multipliesRows = d.others.any Plan.multiplies

namespace Draft.Noted

variable {d d' : Draft} {h : Hop} {r : Request} {n : Node} {entity : Nat}

/-- Attaching a hop notes its node. -/
theorem attach (hd : d.Noted) (ha : h.attach r d = .ok (n, d')) : d'.Noted := by
  obtain ⟨a, hp, hn, rfl⟩ := Hop.attach_eq_ok ha
  have hnotes := (Hop.placed_of_place hp).notes
  have hstrategy : n.strategy = a.strategy := hn ▸ rfl
  have hsource : n.source = a.source := hn ▸ rfl
  constructor
  case visited =>
    simp [(Hop.placed_of_place hp).visited_eq, hd.visited]
  case multiplies =>
    have hmultiplies : a.draft.notes.multipliesRows = (d.notes.multipliesRows || Plan.multiplies n) := by
      rw [hnotes, Plan.multiplies, hstrategy, hsource]
      split
      · rename_i hmultiplies
        rcases hmultiplies with h | h <;> simp [h]
      · rename_i hsingle
        obtain ⟨hlateral, hself⟩ := not_or.mp hsingle
        simp [hlateral, hself]
    simp [hmultiplies, hd.multiplies]

/-- An entity that was reached is loaded by a node. -/
theorem of_loading? (hd : d.Noted) (hloaded : d.loading? entity = some n) :
    n ∈ d.others ∧ n.entity = entity := by
  rw [loading?, hd.visited] at hloaded
  obtain ⟨_, _, hsplit, -⟩ := List.lookup_eq_some_iff.mp hloaded
  have hmem : (entity, n) ∈ d.others.map fun n => (n.entity, n) :=
    hsplit ▸ List.mem_append_right _ List.mem_cons_self
  obtain ⟨m, hm, heq⟩ := List.mem_map.mp hmem
  cases heq
  exact ⟨hm, rfl⟩

/-- An entity that was not reached is loaded by no node. -/
theorem loading?_eq_none (hd : d.Noted) :
    d.loading? entity = none ↔ entity ∉ d.others.map (·.entity) := by
  rw [loading?, hd.visited, List.lookup_eq_none_iff, List.forall_mem_map, List.mem_map]
  simp only [bne_iff_ne, ne_eq, not_exists, not_and]
  exact forall₂_congr fun n _ => not_congr eq_comm

end Draft.Noted

namespace Schema

variable {s : Schema} {r : Request} {root : s.EntityId}

/-- The drafts that a compilation passes through, with the hops walked so far. -/
inductive Compiling (s : Schema) (r : Request) (root : s.EntityId) :
    List s.RelationId → Draft → Prop
  /-- Only the root is loaded. -/
  | start : Compiling s r root [] (s.rootDraft root)
  /-- The target of the hop is loaded already. -/
  | reuse {hops : List s.RelationId} {d : Draft} {id : s.RelationId} {n : Node} :
    Compiling s r root hops d → d.loading? (s.relation id).target = some n →
    Compiling s r root (hops ++ [id]) d
  /-- The hop is attached below a node that loads its source. -/
  | attach {hops : List s.RelationId} {d d' : Draft} {id : s.RelationId} {parent n : Node} :
    Compiling s r root hops d → parent ∈ d.nodes → parent.entity = (s.relation id).source →
    d.loading? (s.relation id).target = none →
    (s.hop r parent id).attach r d = .ok (n, d') →
    Compiling s r root (hops ++ [id]) d'

/-- The root stays as it is. -/
theorem Compiling.root_eq {hops : List s.RelationId} {d : Draft} (h : s.Compiling r root hops d) :
    d.root = (s.rootDraft root).root := by
  induction h with
  | start => rfl
  | reuse _ _ ih => exact ih
  | attach _ _ _ _ ha ih => rw [(Hop.nodes_of_attach ha).1, ih]

/-- Every draft that a compilation passes through is noted as it is. -/
theorem Compiling.noted {hops : List s.RelationId} {d : Draft} (h : s.Compiling r root hops d) :
    d.Noted := by
  induction h with
  | start => exact ⟨rfl, rfl⟩
  | reuse _ _ ih => exact ih
  | attach _ _ _ _ ha ih => exact ih.attach ha

/-- Walking a chain from a node that loads its first source passes through drafts of the compilation. -/
theorem Compiling.walk {hops path : List s.RelationId} {here : s.EntityId} {current : Node}
    {d d' : Draft} (h : s.Compiling r root hops d) (hmem : current ∈ d.nodes)
    (hhere : current.entity = here) (hchain : s.IsChain here path)
    (hw : s.walk r current d path = .ok d') : s.Compiling r root (hops ++ path) d' := by
  induction path generalizing hops here current d with
  | nil =>
    cases hw
    simpa using h
  | cons id rest ih =>
    obtain ⟨hsource, hrest⟩ := hchain
    rw [List.append_cons]
    unfold Schema.walk at hw
    split at hw
    · rename_i n hn
      obtain ⟨hnmem, hentity⟩ := h.noted.of_loading? hn
      exact ih (h.reuse hn) (List.mem_cons_of_mem _ hnmem) hentity hrest hw
    · rename_i hn
      obtain ⟨⟨n, d₁⟩, ha, hw⟩ := bind_eq_ok.mp hw
      obtain ⟨a, -, rfl, -⟩ := Hop.attach_eq_ok ha
      have hnodes := Hop.nodes_of_attach ha
      refine ih (h.attach hmem (hhere.trans (by rw [hsource])) hn ha) ?_ rfl hrest hw
      simp [Draft.nodes, hnodes.2]

/-- Compiling a request walks the paths to its relations, one after the other. -/
theorem compile_eq_ok {p : Plan} (h : s.compile r = .ok p) :
    ∃ root d, s.entityNamed r.model = .ok root ∧
      s.Compiling r root (r.relationNames.flatMap (s.path root)) d ∧ p = Draft.plan s root d := by
  obtain ⟨root, hroot, h⟩ := bind_eq_ok.mp h
  obtain ⟨_, -, h⟩ := bind_eq_ok.mp h
  obtain ⟨d, hd, h⟩ := bind_eq_ok.mp h
  cases h
  refine ⟨root, d, hroot, ?_, rfl⟩
  have hwalk : ∀ (names : List String) (hops : List s.RelationId) (d₀ : Draft),
      s.Compiling r root hops d₀ →
      names.foldlM (fun d name => s.walk r d.root d (s.path root name)) d₀ = .ok d →
      s.Compiling r root (hops ++ names.flatMap (s.path root)) d := by
    intro names
    induction names with
    | nil =>
      rintro hops d₀ h hd
      cases hd
      simpa using h
    | cons name rest ih =>
      intro hops d₀ h hd
      rw [List.foldlM_cons] at hd
      obtain ⟨d₁, hd₁, hd⟩ := bind_eq_ok.mp hd
      have hentity : d₀.root.entity = root := by
        rw [h.root_eq]
        rfl
      rw [List.flatMap_cons, ← List.append_assoc]
      exact ih _ _ (h.walk List.mem_cons_self hentity (isChain_path root name) hd₁) hd
  simpa using hwalk _ [] _ .start hd

end Schema

end EagerLoad
