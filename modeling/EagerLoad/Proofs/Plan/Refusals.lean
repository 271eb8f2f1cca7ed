import EagerLoad.Proofs.Plan.Attachments
import EagerLoad.Proofs.Plan.Shape
import EagerLoad.Proofs.Schema.Build

/-!
# Which requests are refused

A request is refused for its model, for its key of the root, or for its ordering: a collection must have every
column of the ordering, and the source of a self join the first one, or its own primary key where there is no
ordering. Entities that are declared with their keys never lack the latter. Only hops that are attached count,
which are the first to reach their targets. So neither the bound nor the adjustments matter, nor the order in
which relations are named.
-/

namespace EagerLoad

open Sql

variable {s : Schema} {r : Request} {root : s.EntityId} {id : s.RelationId} {d : Draft} {current : Node}

namespace Schema

/-- Of some hops the ones that are attached where entities are loaded already: the first to each target that
is not loaded. -/
def newHops (s : Schema) (loaded : List Nat) : List s.RelationId → List s.RelationId
  | [] => []
  | id :: rest =>
    let target : Nat := (s.relation id).target
    if target ∈ loaded then newHops s loaded rest
    else id :: newHops s (loaded ++ [target]) rest

/-- The hops that are walked for a request, path by path. -/
def hopsOf (s : Schema) (r : Request) (root : s.EntityId) : List s.RelationId :=
  r.relationNames.flatMap (s.path root)

/-- A hop is attached if it is the first of the walk to reach its target. -/
def Attaches (s : Schema) (r : Request) (root : s.EntityId) (id : s.RelationId) : Prop :=
  ∃ before after, s.hopsOf r root = before ++ id :: after ∧
    ∀ other ∈ before, (s.relation other).target ≠ (s.relation id).target

/-- A hop to many is attached by a self join if it leads to the root's type and the request gives a key. -/
def SelfAliased (s : Schema) (r : Request) (root : s.EntityId) (id : s.RelationId) : Prop :=
  (s.relation id).cardinality = .many ∧ r.selfKey ≠ none ∧ (s.relation id).target = root

instance (r : Request) (root : s.EntityId) : DecidablePred (s.SelfAliased r root) :=
  fun _ => inferInstanceAs (Decidable (_ ∧ _ ∧ _))

/-- The column on which the source of a self join is joined: the first one of the ordering, else the primary
key. -/
def selfColumn (s : Schema) (r : Request) (id : s.RelationId) : String :=
  match r.ordering with
  | first :: _ => first.column
  | [] => (s.entity (s.relation id).source).primaryKey

/-- The columns by which a hop is attached, with the entity that must have them. -/
def orderedBy (s : Schema) (r : Request) (root : s.EntityId) (id : s.RelationId) : Entity × List String :=
  if s.SelfAliased r root id then (s.entity (s.relation id).source, [s.selfColumn r id])
  else match (s.relation id).cardinality with
    | .one => (s.target id, [])
    | .many => (s.target id, r.ordering.map (·.column))

/-- The ordering of a hop names a column that is not there: a collection that is not joined to the root's type
lacks one of them, or the source of a self join lacks the first one. -/
def OrderedInVain (s : Schema) (r : Request) (root : s.EntityId) (id : s.RelationId) : Prop :=
  ((s.relation id).cardinality = .many ∧ ¬ s.SelfAliased r root id ∧
      ∃ key ∈ r.ordering, key.column ∉ (s.target id).columns) ∨
    (s.SelfAliased r root id ∧
      ∃ key, r.ordering.head? = some key ∧ key.column ∉ (s.entity (s.relation id).source).columns)

/-- Fail with the first column that a hop needs in vain. -/
def checkHop (s : Schema) (r : Request) (root : s.EntityId) (id : s.RelationId) : Except Error Unit :=
  (s.orderedBy r root id).2.forM (s.orderedBy r root id).1.requireColumn

/-- Fail with what a request is refused for: its model, its key of the root, or the first hop that cannot be
attached. -/
def checkRequest (s : Schema) (r : Request) : Except Error Unit := do
  let root ← s.entityNamed r.model
  r.selfKey.forM (s.entity root).requireColumn
  (s.newHops [] (s.hopsOf r root)).forM (s.checkHop r root)

/-- What a request is refused for. -/
inductive Refuses (s : Schema) (r : Request) : Prop
  | model (undeclared : ∀ e ∈ s.entities, e.name ≠ r.model)
  | selfKey (root : s.EntityId) (named : s.entityNamed r.model = .ok root) (key : String)
      (given : r.selfKey = some key) (undeclared : key ∉ (s.entity root).columns)
  | ordering (root : s.EntityId) (named : s.entityNamed r.model = .ok root) (id : s.RelationId)
      (attached : s.Attaches r root id) (inVain : s.OrderedInVain r root id)
  /-- Without an ordering, the source of a self join lacks its own primary key. -/
  | unkeyed (root : s.EntityId) (named : s.entityNamed r.model = .ok root) (id : s.RelationId)
      (attached : s.Attaches r root id) (joined : s.SelfAliased r root id) (unordered : r.ordering = [])
      (undeclared : (s.entity (s.relation id).source).primaryKey ∉ (s.entity (s.relation id).source).columns)

end Schema

/-- Whether a computation succeeds does not depend on what is made of its result. -/
theorem map_bind_ok {ε α β : Type} (x : Except ε α) (f : α → β) :
    (x >>= fun a => .ok (f a)).map (fun _ => ()) = x.map fun _ => () := by
  cases x <;> rfl

namespace Entity

variable {e : Entity} {column : String}

/-- The ordering of a collection is refused for the columns of the ordering only. -/
theorem map_collectionOrder (e : Entity) (tableAlias : String) (ordering : List SortKey) :
    (e.collectionOrder tableAlias ordering).map (fun _ => ()) =
      (ordering.map (·.column)).forM e.requireColumn := by
  cases ordering with
  | nil => rfl
  | cons first rest =>
    have hcolumns : ((first :: rest).map (·.column)).forM e.requireColumn =
        (first :: rest).forM fun o => e.requireColumn o.column := List.forM_map
    rw [hcolumns]
    have hunit (x : Except Error Unit) : x.map (fun _ => ()) = x := by
      cases x <;> rfl
    exact (map_bind_ok ((first :: rest).forM fun o => e.requireColumn o.column) _).trans (hunit _)

end Entity

/-- A self join is refused for the column on which its source is joined only. -/
theorem map_joinSelf (selfKey : String) (current : Node) (id : s.RelationId) (d : Draft) :
    ((s.hop r current id).joinSelf selfKey r.ordering d).map (fun _ => ()) =
      [s.selfColumn r id].forM (s.entity (s.relation id).source).requireColumn := by
  have hone (x : Except Error Unit) : x.map (fun _ => ()) = x >>= fun _ => .ok () := by
    cases x <;> rfl
  unfold Schema.selfColumn
  cases r.ordering with
  | nil => exact (map_bind_ok ((s.entity (s.relation id).source).requireColumn _) _).trans (hone _)
  | cons first rest =>
    exact (map_bind_ok ((s.entity (s.relation id).source).requireColumn first.column) _).trans (hone _)

/-- A hop is placed exactly where its ordering passes, and else refused with the first column that does
not. -/
theorem map_place (h : d.root.entity = root) :
    ((s.hop r current id).place r d).map (fun _ => ()) = s.checkHop r root id := by
  have htarget : (s.hop r current id).targetId = d.root.entity ↔ (s.relation id).target = root := by
    rw [h]
    exact Fin.ext_iff.symm
  have hlateral (limit : Nat) : ((s.hop r current id).joinLateral limit r.ordering d).map (fun _ => ()) =
      (r.ordering.map (·.column)).forM (s.target id).requireColumn := by
    rw [← (s.target id).map_collectionOrder _ r.ordering]
    exact map_bind_ok _ _
  have hbatch : ((s.hop r current id).loadBatch r.ordering d).map (fun _ => ()) =
      (r.ordering.map (·.column)).forM (s.target id).requireColumn := by
    cases r.ordering with
    | nil => rfl
    | cons first rest =>
      rw [← (s.target id).map_collectionOrder (d.aliases.take (s.target id).table).1 (first :: rest)]
      exact map_bind_ok ((s.target id).collectionOrder _ (first :: rest)) _
  have hhop : (s.hop r current id).cardinality = (s.relation id).cardinality := rfl
  have hcardinality : (s.relation id).cardinality = .one ∨ (s.relation id).cardinality = .many := by
    cases (s.relation id).cardinality <;> simp
  unfold Schema.checkHop Schema.orderedBy Schema.SelfAliased Hop.place
  rcases hcardinality with hone | hmany
  · simp only [hhop, hone, reduceCtorEq, false_and, if_false]
    rfl
  · simp only [hhop, hmany, true_and]
    cases r.selfKey with
    | none => cases r.limit <;> simp [hlateral, hbatch]
    | some selfKey =>
      by_cases hself : (s.relation id).target = root
      · simp only [htarget, hself, map_joinSelf, ne_eq, reduceCtorEq, not_false_eq_true, and_self, if_true]
      · cases r.limit <;> simp [htarget, hself, hlateral, hbatch]

/-- The entities that a draft has reached. -/
def Draft.reached (d : Draft) : List Nat :=
  d.notes.visited.map (·.1)

theorem Draft.loading?_eq_none {entity : Nat} : d.loading? entity = none ↔ entity ∉ d.reached := by
  rw [loading?, List.lookup_eq_none_iff, reached, List.mem_map]
  simp only [bne_iff_ne, ne_eq, not_exists, not_and]
  exact forall₂_congr fun _ _ => not_congr eq_comm

namespace Schema

/-- A draft with further hops attached. -/
structure Extended (s : Schema) (hops : List s.RelationId) (d d' : Draft) : Prop where
  root_eq : d'.root = d.root
  reached : d'.reached = d.reached ++ hops.map fun id => (s.relation id).target.val
  relations : d'.others.map (·.relation) = d.others.map (·.relation) ++ hops.map fun id => some id.val

/-- The attempt to attach hops to a draft ends with the first that cannot be attached, if there is one. -/
inductive Attempt (s : Schema) (r : Request) (root : s.EntityId) (hops : List s.RelationId) (d : Draft) :
    Except Error Draft → Prop
  | refused (e : Error) (check : hops.forM (s.checkHop r root) = .error e) :
    Attempt s r root hops d (.error e)
  | attached (d' : Draft) (check : hops.forM (s.checkHop r root) = .ok ()) (extended : s.Extended hops d d') :
    Attempt s r root hops d (.ok d')

theorem Extended.refl (s : Schema) (d : Draft) : s.Extended [] d d :=
  ⟨rfl, by simp, by simp⟩

theorem Extended.trans {hops hops' : List s.RelationId} {d d' d'' : Draft} (h : s.Extended hops d d')
    (h' : s.Extended hops' d' d'') : s.Extended (hops ++ hops') d d'' where
  root_eq := h'.root_eq.trans h.root_eq
  reached := by rw [h'.reached, h.reached, List.map_append, List.append_assoc]
  relations := by rw [h'.relations, h.relations, List.map_append, List.append_assoc]

/-- Further hops are attempted on what attaching hops has made, unless one of these is refused. -/
theorem Attempt.bind {α : Type} {hops hops' : List s.RelationId} {x : Except Error α} {draft : α → Draft}
    {f : α → Except Error Draft} (h : s.Attempt r root hops d (x.map draft))
    (h' : ∀ a, s.Extended hops d (draft a) → s.Attempt r root hops' (draft a) (f a)) :
    s.Attempt r root (hops ++ hops') d (x >>= f) := by
  have happend : (hops ++ hops').forM (s.checkHop r root) =
      hops.forM (s.checkHop r root) >>= fun _ => hops'.forM (s.checkHop r root) :=
    List.forM_append
  cases x with
  | error e =>
    cases h with
    | refused e check => exact .refused e (by rw [happend, check]; rfl)
  | ok a =>
    cases h with
    | attached d' check extended =>
      have hrest := h' a extended
      change s.Attempt r root (hops ++ hops') d (f a)
      generalize f a = y at hrest ⊢
      cases hrest with
      | refused e check' => exact .refused e (by rw [happend, check]; exact check')
      | attached d'' check' extended' =>
        exact .attached d'' (by rw [happend, check]; exact check') (extended.trans extended')

/-- A hop is attached if its ordering passes. -/
theorem attempt_attach (h : d.root.entity = root) (current : Node) (id : s.RelationId) :
    s.Attempt r root [id] d (((s.hop r current id).attach r d).map (·.2)) := by
  have hcheck : [id].forM (s.checkHop r root) = s.checkHop r root id := by
    change (s.checkHop r root id >>= fun _ => .ok ()) = _
    cases s.checkHop r root id <;> rfl
  have hplaced : ((s.hop r current id).place r d).map (fun _ => ()) = s.checkHop r root id := map_place h
  rw [← hplaced] at hcheck
  cases hattach : (s.hop r current id).attach r d with
  | error e =>
    refine .refused e (hcheck.trans ?_)
    unfold Hop.attach at hattach
    cases hplace : (s.hop r current id).place r d with
    | error e' =>
      rw [hplace] at hattach
      cases hattach
      rfl
    | ok a =>
      rw [hplace] at hattach
      cases hattach
  | ok attached =>
    obtain ⟨n, d'⟩ := attached
    obtain ⟨a, hplace, rfl, hd'⟩ := Hop.attach_eq_ok hattach
    obtain ⟨hroot, hothers⟩ := Hop.nodes_of_attach hattach
    have hreached : d'.reached = d.reached ++ [(s.relation id).target.val] := by
      rw [Draft.reached, hd', Draft.notes_entrust, Notes.visited_visit, List.map_append,
        (Hop.placed_of_place hplace).visited_eq]
      rfl
    exact .attached d' (hcheck.trans (by rw [hplace]; rfl))
      ⟨hroot, hreached, by rw [hothers, List.map_append]; rfl⟩

/-- Walking a path attempts the hops that are new to it. -/
theorem attempt_walk (h : d.root.entity = root) (current : Node) (path : List s.RelationId) :
    s.Attempt r root (s.newHops (d.reached) path) d (s.walk r current d path) := by
  induction path generalizing current d with
  | nil => exact .attached d rfl (.refl s d)
  | cons id rest ih =>
    unfold walk newHops
    cases hloaded : d.loading? (s.relation id).target with
    | some n =>
      have hmem : (s.relation id).target.val ∈ d.reached := by
        by_contra hnot
        rw [Draft.loading?_eq_none.mpr hnot] at hloaded
        cases hloaded
      simp only [if_pos hmem]
      exact ih h n
    | none =>
      simp only [if_neg (Draft.loading?_eq_none.mp hloaded)]
      refine (attempt_attach h current id).bind fun attached hextended => ?_
      have hloaded' : d.reached ++ [(s.relation id).target.val] =
          attached.2.reached := hextended.reached.symm
      rw [hloaded']
      exact ih (hextended.root_eq ▸ h) attached.1

theorem newHops_append (s : Schema) (loaded : List Nat) (path path' : List s.RelationId) :
    s.newHops loaded (path ++ path') = s.newHops loaded path ++
      s.newHops (loaded ++ (s.newHops loaded path).map fun id => (s.relation id).target.val) path' := by
  induction path generalizing loaded with
  | nil => simp [newHops]
  | cons id rest ih =>
    simp only [List.cons_append, newHops]
    split
    · exact ih loaded
    · rw [ih, List.cons_append, List.map_cons, List.append_assoc loaded]
      rfl

/-- Walking several paths, each from the root, attempts the hops that are new to them. -/
theorem attempt_walks (h : d.root.entity = root) (names : List String) :
    s.Attempt r root (s.newHops (d.reached) (names.flatMap (s.path root))) d
      (names.foldlM (fun d name => s.walk r d.root d (s.path root name)) d) := by
  induction names generalizing d with
  | nil => exact .attached d rfl (.refl s d)
  | cons name rest ih =>
    rw [List.flatMap_cons, newHops_append, List.foldlM_cons]
    have hwalk : s.Attempt r root (s.newHops (d.reached) (s.path root name)) d
        ((s.walk r d.root d (s.path root name)).map id) := by
      rw [Except.map_id]
      exact attempt_walk h d.root (s.path root name)
    refine hwalk.bind fun d' hextended => ?_
    rw [← hextended.reached]
    exact ih (hextended.root_eq ▸ h)

/-- A request compiles exactly if it passes its check, and else fails with what it is refused for. The nodes
of its plan are those of the hops that are new to its walk. -/
theorem compile_cases (s : Schema) (r : Request) :
    (∃ e, s.checkRequest r = .error e ∧ s.compile r = .error e) ∨
      (s.checkRequest r = .ok () ∧ ∃ root p, s.entityNamed r.model = .ok root ∧ s.compile r = .ok p ∧
        p.others.map (·.relation) = (s.newHops [] (s.hopsOf r root)).map fun id => some id.val) := by
  unfold checkRequest compile
  cases hroot : s.entityNamed r.model with
  | error e => exact .inl ⟨e, rfl, rfl⟩
  | ok root =>
    have hwalks := attempt_walks (d := s.rootDraft root) (r := r) rfl r.relationNames
    cases hkey : r.selfKey.forM (s.entity root).requireColumn with
    | error e =>
      simp only [bind, Except.bind, hkey]
      exact .inl ⟨e, rfl, rfl⟩
    | ok =>
      simp only [bind, Except.bind, hkey]
      generalize r.relationNames.foldlM (fun d name => s.walk r d.root d (s.path root name))
        (s.rootDraft root) = walked at hwalks ⊢
      cases hwalks with
      | refused e check => exact .inl ⟨e, check, rfl⟩
      | attached d check extended =>
        exact .inr ⟨check, root, Draft.plan s root d, rfl, rfl, extended.relations⟩

/-- A check does not depend on the bound or the adjustments, and not on the order in which relations are
named. -/
theorem checkRequest_congr {r' : Request} (hmodel : r'.model = r.model) (hselfKey : r'.selfKey = r.selfKey)
    (hordering : r'.ordering = r.ordering) (hrelations : ∀ name, name ∈ r'.relations ↔ name ∈ r.relations) :
    s.checkRequest r' = s.checkRequest r := by
  have hnames : r'.relationNames = r.relationNames := sortedNames_eq_iff.mpr hrelations
  have hhops (root : s.EntityId) : s.hopsOf r' root = s.hopsOf r root := by
    unfold hopsOf
    rw [hnames]
  have hcheck (root : s.EntityId) : s.checkHop r' root = s.checkHop r root := by
    funext id
    have hself : s.SelfAliased r' root id ↔ s.SelfAliased r root id := by
      unfold SelfAliased
      rw [hselfKey]
    simp only [checkHop, orderedBy, selfColumn, hself, hordering]
  unfold checkRequest
  simp only [hmodel, hselfKey, hhops, hcheck]

end Schema

/-- Pages that link to further pages, with a key that is none of their columns. -/
def unkeyedPages : Schema := .ofRelations
  [⟨"Page", "page", "id", ["code"]⟩]
  [⟨"links", 0, 0, .many, [("code", "code")], none, none⟩]

/-- Pages with the pages to which they are joined, in some order. -/
def linkedPages (ordering : List SortKey) : Request :=
  { Request.forModel "Page" with relations := ["links"], selfKey := some "code", ordering }

example : unkeyedPages.checkHop (linkedPages []) ⟨0, by decide⟩ ⟨0, by decide⟩ =
    .error (.query "Unknown column 'id' on entity 'Page'") := by
  rfl

example : ∃ p, unkeyedPages.compile (linkedPages [⟨"code", .ascending⟩]) = .ok p :=
  ⟨_, by cbv⟩

end EagerLoad
