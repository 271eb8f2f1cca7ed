import EagerLoad.Proofs.Plan.Compilation
import EagerLoad.Schema.Basic
import Mathlib.Data.List.Forall2
import Mathlib.Data.List.Nodup

/-!
# What a schema is checked for

Each check of a builder succeeds exactly if its declaration has what is checked. A schema that is built
has one relation for each declaration, whose joins are not empty and name columns of the entities that
they join.
-/

namespace EagerLoad

variable {e source target : Entity} {d : Declaration} {entities : List Entity}
  {relation : Relation entities.length} {registry registry' : Registry entities.length}

/-- The joins of a relation name columns of the entities at its ends. -/
structure JoinsFit (join : JoinPairs) (junction : Option Junction) (source target : Entity) : Prop where
  join_ne_nil : join ≠ []
  left : join.left ⊆ source.columns
  /-- Without a junction the join leads to the target. -/
  direct : junction = none → join.right ⊆ target.columns
  through : ∀ j, junction = some j → j.target ≠ [] ∧ j.target.right ⊆ target.columns

/-- A relation is what a declaration stands for among some entities. -/
structure Declaration.Declares (d : Declaration) (relation : Relation entities.length) : Prop where
  source : (entities.get relation.source).name = d.source
  target : (entities.get relation.target).name = d.target
  name : relation.name = d.name
  cardinality : relation.cardinality = d.cardinality
  join : relation.join = d.join
  junction : relation.junction = d.junction
  inverse : relation.inverse = d.inverse

/-- Two relations have one name and one source. -/
def Relation.Clashes {n : Nat} (r r' : Relation n) : Prop :=
  r.source = r'.source ∧ r.name = r'.name

/-- Where no two relations clash, a relation clashes with itself only. -/
theorem Relation.Clashes.eq {s : Schema} (h : s.relations.Pairwise (¬ ·.Clashes ·))
    {id id' : s.RelationId} (hclash : (s.relation id).Clashes (s.relation id')) : id = id' := by
  have hapart := List.pairwise_iff_getElem.mp h
  rcases lt_trichotomy id id' with hlt | heq | hlt
  · exact absurd hclash (hapart id id' id.isLt id'.isLt hlt)
  · exact heq
  · exact absurd ⟨hclash.1.symm, hclash.2.symm⟩ (hapart id' id id'.isLt id.isLt hlt)

/-- A computation that stops where a test holds. -/
theorem stop_bind_eq_ok {ε α β : Type} {c : Prop} [Decidable c] {error : ε} {f : α → Except ε β}
    {x : Except ε β} {b : β} :
    (if c then throw error >>= f else x) = .ok b ↔ ¬ c ∧ x = .ok b := by
  by_cases hc : c
  · simp [hc, throw, throwThe, MonadExceptOf.throw, bind, Except.bind]
  · simp [hc]

/-- A check of every item of a list succeeds exactly if it does for each. -/
theorem forM_eq_ok {ε α : Type} {check : α → Except ε Unit} {l : List α} :
    l.forM check = .ok () ↔ ∀ a ∈ l, check a = .ok () := by
  induction l with
  | nil => simp [pure, Except.pure]
  | cons a rest ih =>
    change (check a >>= fun _ => rest.forM check) = .ok () ↔ _
    rw [bind_eq_ok, List.forall_mem_cons, ih]
    exact ⟨fun ⟨(), ha, hrest⟩ => ⟨ha, hrest⟩, fun ⟨ha, hrest⟩ => ⟨(), ha, hrest⟩⟩

/-- Names are entered if they are distinct and new. -/
theorem NameMap.enter_isOk_iff {names : NameMap entities.length} {ids : List (Fin entities.length)} :
    (∃ entered, enter entities names ids = .ok entered) ↔
      (ids.map fun id => (entities.get id).name).Nodup ∧
        ∀ id ∈ ids, names.lookup (entities.get id).name = none := by
  induction ids generalizing names with
  | nil => simp [enter]
  | cons id rest ih =>
    rw [enter, List.map_cons, List.nodup_cons, List.forall_mem_cons]
    cases hfound : names.lookup (entities.get id).name with
    | some other => simp
    | none =>
      have hnew (k : Fin entities.length) :
          (names ++ [((entities.get id).name, id)]).lookup (entities.get k).name = none ↔
            names.lookup (entities.get k).name = none ∧ (entities.get k).name ≠ (entities.get id).name := by
        rw [List.lookup_append, Option.or_eq_none_iff, List.lookup_eq_none_iff, List.lookup_eq_none_iff]
        simp
      simp only [ih, hnew, true_and, List.mem_map, not_exists, not_and]
      constructor
      · rintro ⟨hnodup, hrest⟩
        exact ⟨⟨fun k hk => (hrest k hk).2, hnodup⟩, fun k hk => (hrest k hk).1⟩
      · rintro ⟨⟨hfirst, hnodup⟩, hrest⟩
        exact ⟨hnodup, fun k hk => ⟨hrest k hk, hfirst k hk⟩⟩

/-- All names are entered exactly if they are distinct. -/
theorem NameMap.enter_finRange_isOk_iff :
    (∃ entered, enter entities [] (List.finRange entities.length) = .ok entered) ↔
      (entities.map (·.name)).Nodup := by
  have hnames : (List.finRange entities.length).map (fun id => (entities.get id).name) =
      entities.map (·.name) := List.ext_getElem (by simp) (by simp)
  rw [enter_isOk_iff, hnames]
  simp

/-- Where names are distinct, an entity is found by its name and by no other one. -/
theorem NameMap.lookup_ofEntities (hnames : (entities.map (·.name)).Nodup) {name : String}
    {id : Fin entities.length} :
    (ofEntities entities).lookup name = some id ↔ (entities.get id).name = name := by
  refine ⟨lookup_ofEntities_eq_some, fun h => ?_⟩
  cases hfound : (ofEntities entities).lookup name with
  | none => exact absurd h (lookup_ofEntities_eq_none.mp hfound _ (List.get_mem _ _))
  | some other =>
    have hsame : (entities.map (·.name)).get ⟨other, by simp⟩ = (entities.map (·.name)).get ⟨id, by simp⟩ := by
      simpa using (lookup_ofEntities_eq_some hfound).trans h.symm
    exact congrArg some (Fin.ext (Fin.mk.inj (hnames.get_inj_iff.mp hsame)))

namespace Registry

variable {n : Nat} {g g' : Registry n}

/-- What a registry is searched by depends on its relations only. -/
theorem eq_of_relations_eq (h : g.relations = g'.relations) : g = g' := by
  obtain ⟨relations, _, _, rfl, rfl⟩ := g
  obtain ⟨relations', _, _, rfl, rfl⟩ := g'
  obtain rfl : relations = relations' := h
  rfl

theorem mem_taken {source : Fin n} {name : String} :
    (source, name) ∈ g.taken ↔ ∃ r ∈ g.relations, r.source = source ∧ r.name = name := by
  simp [g.taken_eq]

/-- What is listed at an entity are the relations that start there. -/
theorem mem_startingAt {e : Fin n} {r : Relation n} :
    r ∈ g.startingAt e ↔ r ∈ g.relations ∧ r.source = e := by
  have hlisted : g.adjacency[e.val]?.getD [] = Relation.startingAt g.relations e := by
    simp [g.adjacency_eq]
  have hzip (i : Nat) : i ∈ Relation.startingAt g.relations e ↔
      ∃ other, g.relations[i]? = some other ∧ other.source = e := by
    simp [Relation.startingAt, List.mem_zipIdx_iff_getElem?]
  rw [startingAt, hlisted, List.mem_filterMap]
  constructor
  · rintro ⟨i, hi, hr⟩
    obtain ⟨other, hother, hsource⟩ := (hzip i).mp hi
    obtain rfl := Option.some.inj (hother.symm.trans hr)
    exact ⟨List.mem_of_getElem? hr, hsource⟩
  · rintro ⟨hr, hsource⟩
    obtain ⟨i, hi⟩ := List.mem_iff_getElem?.mp hr
    exact ⟨i, (hzip i).mpr ⟨r, hi, hsource⟩, hi⟩

end Registry

theorem Entity.checkJoin_eq_ok {name : String} {columns : List String} :
    e.checkJoin name columns = .ok () ↔ columns ⊆ e.columns := by
  unfold Entity.checkJoin
  cases hfind : columns.find? fun column => !e.hasColumn column with
  | some column =>
    have hmem := List.mem_of_find?_eq_some hfind
    have hnot := List.find?_some hfind
    simp only [reduceCtorEq, false_iff]
    intro hsub
    simp [Entity.hasColumn, hsub hmem] at hnot
  | none =>
    simp only [true_iff]
    intro column hcolumn
    have hnot := List.find?_eq_none.mp hfind column hcolumn
    simpa [Entity.hasColumn] using hnot

theorem Declaration.checkColumns_eq_ok :
    d.checkColumns source target = .ok () ↔ JoinsFit d.join d.junction source target := by
  unfold Declaration.checkColumns
  rw [stop_bind_eq_ok, bind_eq_ok, List.isEmpty_iff]
  cases hj : d.junction with
  | none =>
    constructor
    · rintro ⟨hjoin, _, hleft, hright⟩
      exact ⟨hjoin, Entity.checkJoin_eq_ok.mp hleft, fun _ => Entity.checkJoin_eq_ok.mp hright,
        fun _ hj => nomatch hj⟩
    · intro h
      exact ⟨h.join_ne_nil, (), Entity.checkJoin_eq_ok.mpr h.left,
        Entity.checkJoin_eq_ok.mpr (h.direct rfl)⟩
  | some junction =>
    simp only [stop_bind_eq_ok, List.isEmpty_iff]
    constructor
    · rintro ⟨hjoin, _, hleft, htarget, hright⟩
      refine ⟨hjoin, Entity.checkJoin_eq_ok.mp hleft, (nomatch ·), fun j hj => ?_⟩
      cases hj
      exact ⟨htarget, Entity.checkJoin_eq_ok.mp hright⟩
    · intro h
      obtain ⟨htarget, hright⟩ := h.through _ rfl
      exact ⟨h.join_ne_nil, (), Entity.checkJoin_eq_ok.mpr h.left, htarget,
        Entity.checkJoin_eq_ok.mpr hright⟩

/-- A declaration is resolved to what it stands for, if no relation before has its name and source and its
joins fit. -/
theorem Declaration.resolve_eq_ok (hnames : (entities.map (·.name)).Nodup) :
    d.resolve entities (.ofEntities entities) registry = .ok relation ↔ d.Declares relation ∧
      (∀ r ∈ registry.relations, ¬ r.Clashes relation) ∧
      JoinsFit d.join d.junction (entities.get relation.source) (entities.get relation.target) := by
  have hend {name : String} {id : Fin entities.length} :
      d.endpoint (.ofEntities entities) name = .ok id ↔ (entities.get id).name = name := by
    rw [← NameMap.lookup_ofEntities hnames, endpoint]
    cases (NameMap.ofEntities entities).lookup name <;> simp
  unfold resolve
  simp only [bind_eq_ok, stop_bind_eq_ok, hend, Registry.mem_taken]
  constructor
  · rintro ⟨source, hsource, target, htarget, hfree, ⟨⟩, hcheck, hrelation⟩
    cases hrelation
    exact ⟨⟨hsource, htarget, rfl, rfl, rfl, rfl, rfl⟩, fun r hr hclash => hfree ⟨r, hr, hclash.1, hclash.2⟩,
      checkColumns_eq_ok.mp hcheck⟩
  · rintro ⟨h, hfree, hfit⟩
    refine ⟨relation.source, h.source, relation.target, h.target, fun ⟨r, hr, hsource, hname⟩ => ?_, (),
      checkColumns_eq_ok.mpr hfit, ?_⟩
    · exact hfree r hr ⟨hsource, hname.trans h.name.symm⟩
    · rw [← h.name, ← h.cardinality, ← h.join, ← h.junction, ← h.inverse]
      rfl

/-- Declarations are resolved one by one, if no two relations have one name and one source and all joins
fit. -/
theorem Declaration.resolveAll_eq_ok (hnames : (entities.map (·.name)).Nodup)
    {declarations : List Declaration} :
    Declaration.resolveAll entities (.ofEntities entities) registry declarations = .ok registry' ↔
      ∃ new, registry'.relations = registry.relations ++ new ∧
        List.Forall₂ (fun d r => d.Declares r ∧
          JoinsFit d.join d.junction (entities.get r.source) (entities.get r.target))
            declarations new ∧
        new.Pairwise (¬ ·.Clashes ·) ∧ ∀ a ∈ registry.relations, ∀ r ∈ new, ¬ a.Clashes r := by
  induction declarations generalizing registry with
  | nil =>
    have hsame : .ok registry = (.ok registry' : Except SchemaError _) ↔
        registry'.relations = registry.relations :=
      ⟨fun h => Except.ok.inj h ▸ rfl, fun h => congrArg _ (Registry.eq_of_relations_eq h.symm)⟩
    simp [resolveAll, hsame]
  | cons d rest ih =>
    have hadd (r : Relation entities.length) : (registry.add r).relations = registry.relations ++ [r] := rfl
    simp only [resolveAll, bind_eq_ok, resolve_eq_ok hnames, ih, hadd]
    constructor
    · rintro ⟨relation, ⟨hdeclares, hfree, hfit⟩, new, hrelations, hnew, hpairwise, hapart⟩
      refine ⟨relation :: new, by simpa using hrelations, .cons ⟨hdeclares, hfit⟩ hnew,
        List.pairwise_cons.mpr ⟨hapart relation (by simp), hpairwise⟩, fun a ha r hr => ?_⟩
      rcases List.mem_cons.mp hr with rfl | hr
      · exact hfree a ha
      · exact hapart a (List.mem_append_left _ ha) r hr
    · rintro ⟨_, hrelations, hall, hpairwise, hapart⟩
      obtain ⟨relation, new, ⟨hdeclares, hfit⟩, hnew, rfl⟩ := List.forall₂_cons_left_iff.mp hall
      obtain ⟨hfirst, hpairwise⟩ := List.pairwise_cons.mp hpairwise
      refine ⟨relation, ⟨hdeclares, fun a ha => hapart a ha relation List.mem_cons_self, hfit⟩, new,
        by simpa using hrelations, hnew, hpairwise, fun a ha r hr => ?_⟩
      rcases List.mem_append.mp ha with ha | ha
      · exact hapart a ha r (List.mem_cons_of_mem _ hr)
      · obtain rfl := List.mem_singleton.mp ha
        exact hfirst r hr

theorem Registry.checkInverse_eq_ok {r : Relation entities.length} :
    registry.checkInverse entities r = .ok () ↔ ∀ inverse, r.inverse = some inverse →
      ∃ other ∈ registry.relations, other.source = r.target ∧ other.name = inverse := by
  unfold Registry.checkInverse
  cases hinverse : r.inverse with
  | none => simp
  | some inverse =>
    have hany : (registry.startingAt r.target).any (·.name == inverse) = true ↔
        ∃ other ∈ registry.relations, other.source = r.target ∧ other.name = inverse := by
      simp [mem_startingAt, and_assoc]
    simp only [Option.some.injEq, forall_eq', ← hany]
    split <;> simp_all

/-- A schema is built from declarations exactly if names are distinct, its relations are what the
declarations stand for, and inverses are relations of it. What it is searched by has then been filled as the
relations were registered. -/
theorem Schema.build_eq_ok {declarations : List Declaration} {s : Schema} :
    Schema.build entities declarations = .ok s ↔ (entities.map (·.name)).Nodup ∧
      ∃ relations : List (Relation entities.length), s = .ofRelations entities relations ∧
        List.Forall₂ (fun d r => d.Declares r ∧
          JoinsFit d.join d.junction (entities.get r.source) (entities.get r.target))
            declarations relations ∧
        relations.Pairwise (¬ ·.Clashes ·) ∧
        ∀ r ∈ relations, ∀ inverse, r.inverse = some inverse →
          ∃ other ∈ relations, other.source = r.target ∧ other.name = inverse := by
  unfold Schema.build
  split
  · rename_i e hentered
    have hnames : ¬ (entities.map (·.name)).Nodup := by
      rw [← NameMap.enter_finRange_isOk_iff, hentered]
      simp
    simp [hnames]
  · rename_i names hentered
    have hnames : (entities.map (·.name)).Nodup := NameMap.enter_finRange_isOk_iff.mp ⟨names, hentered⟩
    obtain rfl : names = .ofEntities entities := NameMap.enter_eq hentered
    have hempty : (Registry.empty entities.length).relations = [] := rfl
    simp only [bind_eq_ok, Declaration.resolveAll_eq_ok hnames, hempty, List.nil_append]
    constructor
    · rintro ⟨registry, ⟨_, rfl, hnew, hpairwise, -⟩, ⟨⟩, hinverses, hs⟩
      cases hs
      refine ⟨hnames, _, congrArg (Schema.mk entities _ · rfl) (Registry.eq_of_relations_eq rfl), hnew,
        hpairwise, fun r hr => ?_⟩
      exact Registry.checkInverse_eq_ok.mp (forM_eq_ok.mp hinverses r hr)
    · rintro ⟨-, relations, rfl, hnew, hpairwise, hinverses⟩
      exact ⟨(ofRelations entities relations).registry, ⟨relations, rfl, hnew, hpairwise, by simp⟩, (),
        forM_eq_ok.mpr fun r hr => Registry.checkInverse_eq_ok.mpr (hinverses r hr), rfl⟩

/-- The relations of a built schema have joins that fit. -/
theorem Schema.build_joinsFit {declarations : List Declaration} {s : Schema}
    (h : Schema.build entities declarations = .ok s) (id : s.RelationId) :
    JoinsFit (s.relation id).join (s.relation id).junction (s.entity (s.relation id).source)
      (s.entity (s.relation id).target) := by
  obtain ⟨-, relations, rfl, hnew, -⟩ := Schema.build_eq_ok.mp h
  obtain ⟨hlength, hall⟩ := List.forall₂_iff_get.mp hnew
  obtain ⟨hdeclares, hfit⟩ := hall id (hlength.symm ▸ id.isLt) id.isLt
  rw [← hdeclares.join, ← hdeclares.junction] at hfit
  exact hfit

/-- The entities of a built schema are the declared ones. -/
theorem Schema.declared_of_build {declarations : List Declaration} {s : Schema}
    (hdeclared : ∀ e ∈ entities, e.Declared) (h : Schema.build entities declarations = .ok s) :
    s.Declared := by
  obtain ⟨-, relations, rfl, -⟩ := Schema.build_eq_ok.mp h
  exact hdeclared

end EagerLoad
