import EagerLoad.Proofs.Schema.Build
import EagerLoad.Proofs.Schema.ShortestPath

/-!
# Validation is sound and complete

What declarations have to satisfy is said without reference to the order in which they are checked. A
schema is built from declarations exactly if they satisfy it, and then holds what they declare, in their
order.
-/

namespace EagerLoad

variable {entities : List Entity} {declarations : List Declaration} {s : Schema}
  {relations : List (Relation entities.length)}

/-- Declarations of entities and relations that make a schema. -/
structure WellDeclared (entities : List Entity) (declarations : List Declaration) : Prop where
  /-- Entities have distinct names. -/
  distinct : (entities.map (·.name)).Nodup
  source : ∀ d ∈ declarations, ∃ e ∈ entities, e.name = d.source
  target : ∀ d ∈ declarations, ∃ e ∈ entities, e.name = d.target
  /-- No source has two relations of one name. -/
  unique : (declarations.map fun d => (d.source, d.name)).Nodup
  joins : ∀ d ∈ declarations, ∀ source ∈ entities, ∀ target ∈ entities, source.name = d.source →
    target.name = d.target → JoinsFit d.join d.junction source target
  /-- An inverse is declared on the target, before or after. -/
  inverses : ∀ d ∈ declarations, ∀ inverse, d.inverse = some inverse →
    ∃ other ∈ declarations, other.source = d.target ∧ other.name = inverse

/-- A schema holds what was declared. -/
structure Schema.Represents (s : Schema) (entities : List Entity) (declarations : List Declaration) :
    Prop where
  /-- Entities keep their order. -/
  entities_eq : s.entities = entities
  /-- An entity is found by its own name and by no other. -/
  found : ∀ name id, s.findEntity? name = some id ↔ (s.entity id).name = name
  /-- The relations are the declarations in their order, with their fields unchanged. -/
  relations : List.Forall₂ Declaration.Declares declarations s.relations
  /-- What starts at an entity are the relations that were declared on it, in their order. -/
  outgoing : ∀ e, (s.outgoing e).map (·.val) =
    (declarations.zipIdx.filter fun (d, _) => d.source = (s.entity e).name).map (·.2)
  /-- A relation is found by its source and its own name, and by no other. -/
  named : ∀ e name id, s.relationNamed? e name = some id ↔
    (s.relation id).source = e ∧ (s.relation id).name = name

theorem exists_forall₂ {α β : Type} {R : α → β → Prop} {l : List α} (h : ∀ a ∈ l, ∃ b, R a b) :
    ∃ m, List.Forall₂ R l m := by
  induction l with
  | nil => exact ⟨[], .nil⟩
  | cons a rest ih =>
    obtain ⟨b, hb⟩ := h a List.mem_cons_self
    obtain ⟨m, hm⟩ := ih fun a ha => h a (List.mem_cons_of_mem _ ha)
    exact ⟨b :: m, .cons hb hm⟩

theorem exists_of_forall₂ {α β : Type} {R : α → β → Prop} {l : List α} {m : List β}
    (h : List.Forall₂ R l m) :
    (∀ a ∈ l, ∃ b ∈ m, R a b) ∧ ∀ b ∈ m, ∃ a ∈ l, R a b := by
  induction h with
  | nil => simp
  | cons hab _ ih =>
    constructor
    · intro a' ha'
      rcases List.mem_cons.mp ha' with rfl | ha'
      · exact ⟨_, List.mem_cons_self, hab⟩
      · obtain ⟨b', hb', hR⟩ := ih.1 a' ha'
        exact ⟨b', List.mem_cons_of_mem _ hb', hR⟩
    · intro b' hb'
      rcases List.mem_cons.mp hb' with rfl | hb'
      · exact ⟨_, List.mem_cons_self, hab⟩
      · obtain ⟨a', ha', hR⟩ := ih.2 b' hb'
        exact ⟨a', List.mem_cons_of_mem _ ha', hR⟩

/-- Where entities have distinct names, a name is that of one entity. -/
theorem name_eq_iff (hnames : (entities.map (·.name)).Nodup) {i j : Fin entities.length} :
    (entities.get i).name = (entities.get j).name ↔ i = j := by
  rw [← NameMap.lookup_ofEntities hnames, (NameMap.lookup_ofEntities hnames).mpr rfl, Option.some.injEq,
    eq_comm]

theorem eq_entity_of_name_eq (hnames : (entities.map (·.name)).Nodup) {e e' : Entity}
    (he : e ∈ entities) (he' : e' ∈ entities) (h : e.name = e'.name) : e = e' :=
  (List.inj_on_of_nodup_map hnames) he he' h

/-- Relations clash exactly if their declarations have one source and one name. -/
theorem pairwise_not_clashes_iff (hnames : (entities.map (·.name)).Nodup)
    (h : List.Forall₂ Declaration.Declares declarations relations) :
    relations.Pairwise (¬ ·.Clashes ·) ↔ (declarations.map fun d => (d.source, d.name)).Nodup := by
  have hmap : declarations.map (fun d => (d.source, d.name)) =
      relations.map fun r => ((entities.get r.source).name, r.name) := by
    induction h with
    | nil => rfl
    | cons hd _ ih => rw [List.map_cons, List.map_cons, ih, hd.source, hd.name]
  have hclash (r r' : Relation entities.length) : ¬ r.Clashes r' ↔
      ((entities.get r.source).name, r.name) ≠ ((entities.get r'.source).name, r'.name) := by
    rw [ne_eq, Prod.mk.injEq, name_eq_iff hnames, Relation.Clashes]
  rw [hmap, List.Nodup, List.pairwise_map]
  exact ⟨List.Pairwise.imp (hclash _ _).mp, List.Pairwise.imp (hclash _ _).mpr⟩

/-- The relations of a schema have their inverses exactly if the declarations do. -/
theorem inverses_iff (hnames : (entities.map (·.name)).Nodup)
    (h : List.Forall₂ Declaration.Declares declarations relations) :
    (∀ r ∈ relations, ∀ inverse, r.inverse = some inverse →
        ∃ other ∈ relations, other.source = r.target ∧ other.name = inverse) ↔
      ∀ d ∈ declarations, ∀ inverse, d.inverse = some inverse →
        ∃ other ∈ declarations, other.source = d.target ∧ other.name = inverse := by
  obtain ⟨hleft, hright⟩ := exists_of_forall₂ h
  constructor
  · intro hinverses d hd inverse hinverse
    obtain ⟨r, hr, hdeclares⟩ := hleft d hd
    obtain ⟨other, hother, hsource, hname⟩ :=
      hinverses r hr inverse (hdeclares.inverse.trans hinverse)
    obtain ⟨d', hd', hdeclares'⟩ := hright other hother
    refine ⟨d', hd', ?_, hdeclares'.name.symm.trans hname⟩
    rw [← hdeclares'.source, ← hdeclares.target, name_eq_iff hnames]
    exact hsource
  · intro hinverses r hr inverse hinverse
    obtain ⟨d, hd, hdeclares⟩ := hright r hr
    obtain ⟨d', hd', hsource, hname⟩ := hinverses d hd inverse (hdeclares.inverse.symm.trans hinverse)
    obtain ⟨other, hother, hdeclares'⟩ := hleft d' hd'
    refine ⟨other, hother, (name_eq_iff hnames).mp ?_, hdeclares'.name.trans hname⟩
    rw [hdeclares'.source, hsource, hdeclares.target]

/-- Every declaration stands for a relation whose joins fit. -/
theorem WellDeclared.exists_relations (h : WellDeclared entities declarations) :
    ∃ relations : List (Relation entities.length), List.Forall₂ (fun d r => d.Declares r ∧
      JoinsFit d.join d.junction (entities.get r.source) (entities.get r.target))
        declarations relations := by
  refine exists_forall₂ fun d hd => ?_
  obtain ⟨source, hsource, hsourceName⟩ := h.source d hd
  obtain ⟨target, htarget, htargetName⟩ := h.target d hd
  obtain ⟨i, rfl⟩ := List.get_of_mem hsource
  obtain ⟨j, rfl⟩ := List.get_of_mem htarget
  exact ⟨⟨d.name, i, j, d.cardinality, d.join, d.junction, d.inverse⟩,
    ⟨hsourceName, htargetName, rfl, rfl, rfl, rfl, rfl⟩,
    h.joins d hd _ hsource _ htarget hsourceName htargetName⟩

/-- What a schema is built from is well declared. -/
theorem Schema.build_wellDeclared (h : Schema.build entities declarations = .ok s) :
    WellDeclared entities declarations := by
  obtain ⟨hnames, relations, rfl, hall, hpairwise, hinverses⟩ := Schema.build_eq_ok.mp h
  have hdeclares : List.Forall₂ Declaration.Declares declarations relations :=
    hall.imp fun _ _ h => h.1
  have hends := (exists_of_forall₂ hall).1
  refine ⟨hnames, ?source, ?target, (pairwise_not_clashes_iff hnames hdeclares).mp hpairwise, ?joins,
    (inverses_iff hnames hdeclares).mp hinverses⟩
  case source =>
    intro d hd
    obtain ⟨r, -, hr, -⟩ := hends d hd
    exact ⟨_, List.get_mem _ _, hr.source⟩
  case target =>
    intro d hd
    obtain ⟨r, -, hr, -⟩ := hends d hd
    exact ⟨_, List.get_mem _ _, hr.target⟩
  case joins =>
    intro d hd source hsource target htarget hsourceName htargetName
    obtain ⟨r, -, hr, hfit⟩ := hends d hd
    obtain rfl : entities.get r.source = source :=
      eq_entity_of_name_eq hnames (List.get_mem _ _) hsource (hr.source.trans hsourceName.symm)
    obtain rfl : entities.get r.target = target :=
      eq_entity_of_name_eq hnames (List.get_mem _ _) htarget (hr.target.trans htargetName.symm)
    exact hfit

/-- A schema is built from what is well declared. -/
theorem WellDeclared.exists_build (h : WellDeclared entities declarations) :
    ∃ s, Schema.build entities declarations = .ok s := by
  obtain ⟨relations, hall⟩ := h.exists_relations
  have hdeclares : List.Forall₂ Declaration.Declares declarations relations :=
    hall.imp fun _ _ h => h.1
  exact ⟨.ofRelations entities relations, Schema.build_eq_ok.mpr ⟨h.distinct, relations, rfl, hall,
    (pairwise_not_clashes_iff h.distinct hdeclares).mpr h.unique,
    (inverses_iff h.distinct hdeclares).mpr h.inverses⟩⟩

/-- A test of declarations holds where one of the relations for which they stand does. -/
theorem filter_zipIdx_congr {p : Declaration → Bool} {q : Relation entities.length → Bool}
    (hpq : ∀ d r, d.Declares r → p d = q r)
    (h : List.Forall₂ Declaration.Declares declarations relations) (start : Nat) :
    ((declarations.zipIdx start).filter fun (d, _) => p d).map (·.2) =
      ((relations.zipIdx start).filter fun (r, _) => q r).map (·.2) := by
  induction h generalizing start with
  | nil => rfl
  | cons hd _ ih =>
    rw [List.zipIdx_cons, List.zipIdx_cons, List.filter_cons, List.filter_cons]
    simp only [hpq _ _ hd]
    split
    · rw [List.map_cons, List.map_cons, ih]
    · exact ih _

/-- What starts at an entity, by the positions of what was declared on it. -/
theorem Schema.outgoing_eq (hnames : (s.entities.map (·.name)).Nodup)
    (h : List.Forall₂ Declaration.Declares declarations s.relations) (e : s.EntityId) :
    (s.outgoing e).map (·.val) =
      (declarations.zipIdx.filter fun (d, _) => d.source = (s.entity e).name).map (·.2) := by
  have hsame (d : Declaration) (r : Relation s.entities.length) (hd : d.Declares r) :
      decide (d.source = (s.entity e).name) = decide (r.source = e) := by
    rw [← hd.source, decide_eq_decide]
    exact name_eq_iff hnames
  rw [Schema.outgoing_eq_filter]
  exact (Schema.filter_finRange (fun r => decide (r.source = e)) s.relations).trans
    (filter_zipIdx_congr hsame h 0).symm

/-- A built schema holds what was declared. -/
theorem Schema.build_represents (h : Schema.build entities declarations = .ok s) :
    s.Represents entities declarations := by
  obtain ⟨hnames, relations, rfl, hall, hpairwise, -⟩ := Schema.build_eq_ok.mp h
  have hdeclares : List.Forall₂ Declaration.Declares declarations relations :=
    hall.imp fun _ _ h => h.1
  refine ⟨rfl, fun name id => NameMap.lookup_ofEntities hnames, hdeclares, Schema.outgoing_eq hnames hdeclares,
    fun e name id => ⟨fun hfound => ?_, ?_⟩⟩
  · obtain ⟨hsource, hname, -⟩ := Schema.relationNamed?_eq_some hfound
    exact ⟨hsource, hname⟩
  · rintro ⟨hsource, hname⟩
    cases hfound : (Schema.ofRelations entities relations).relationNamed? e name with
    | none => exact absurd hname (Schema.relationNamed?_eq_none hfound id hsource)
    | some other =>
      obtain ⟨hsource', hname', -⟩ := Schema.relationNamed?_eq_some hfound
      have hsame : other = id := Relation.Clashes.eq hpairwise
        ⟨hsource'.trans hsource.symm, hname'.trans hname.symm⟩
      rw [hsame]

/-- Validation is sound and complete: a schema is built exactly from what is well declared, and then holds
what was declared, in its order. -/
theorem Schema.build_iff_wellDeclared (entities : List Entity) (declarations : List Declaration) :
    ((∃ s, Schema.build entities declarations = .ok s) ↔ WellDeclared entities declarations) ∧
      ∀ s, Schema.build entities declarations = .ok s → s.Represents entities declarations :=
  ⟨⟨fun ⟨_, hs⟩ => Schema.build_wellDeclared hs, WellDeclared.exists_build⟩,
    fun _ => Schema.build_represents⟩

/-- Users and their posts. -/
def authorship : List Entity :=
  [.declare "User" "user" "id" ["name"], .declare "Post" "post" "id" ["author_id"]]

/-- Each relation is the inverse of the other one, the first of one that is declared later. -/
def authorshipDeclarations : List Declaration :=
  [⟨"User", "posts", "Post", .many, [("id", "author_id")], none, some "author"⟩,
    ⟨"Post", "author", "User", .one, [("author_id", "id")], none, some "posts"⟩]

theorem authorship_represented : WellDeclared authorship authorshipDeclarations ∧
    ∃ s, Schema.build authorship authorshipDeclarations = .ok s ∧
      s.Represents authorship authorshipDeclarations := by
  obtain ⟨hiff, hrepresents⟩ := Schema.build_iff_wellDeclared authorship authorshipDeclarations
  have hbuild : ∃ s, Schema.build authorship authorshipDeclarations = .ok s := ⟨_, rfl⟩
  obtain ⟨s, hs⟩ := hbuild
  exact ⟨hiff.mp ⟨s, hs⟩, s, hs, hrepresents s hs⟩

end EagerLoad
