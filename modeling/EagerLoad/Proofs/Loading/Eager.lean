import EagerLoad.Proofs.Loading.Delivery

/-!
# The meaning of eager loading

Over a database, a compiled plan without a self key loads one record for each root row that satisfies the
predicates, in table order, and below it the rows to which it leads. Only the collections that the plan
hides come back empty.
-/

namespace EagerLoad

open Sql

variable {s : Schema} {r : Request} {db : Database} {root : s.EntityId} {d : Draft} {p : Plan}
  {predicates : List Condition} {hops : List s.RelationId}

/-- What is known of the draft of a compilation without a self key. -/
theorem Schema.Compiling.finished (h : s.Compiling r root hops d) (hself : r.selfKey = none)
    (hr : r.Unqualified) (hsuits : s.Suits db) (hfit : ∀ id : s.RelationId,
      JoinsFit (s.relation id).join (s.relation id).junction (s.entity (s.relation id).source)
        (s.target id)) (hstaged : (d.plan s root).Staged) : d.Finished s r db root := by
  obtain ⟨hselects, hbatches⟩ := h.selects hself hr hsuits hfit
  refine ⟨hsuits.declared, ?_, ⟨hops, h.rooted⟩, h.treeMatches, h.sourced, hstaged, hselects, hbatches⟩
  rw [h.root_eq]
  exact ⟨rfl, rfl, rfl⟩

/-- The rows of the primary statement are made of the scopes of the matching root rows. -/
theorem Draft.Selects.rows_selectFor (h : d.Selects s r db root)
    (hpredicates : ∀ c ∈ predicates, c.Unqualified) :
    ((d.plan s root).selectFor predicates [] none none).rows db =
      (((db.rows (s.entity root).table).filter fun row => predicates.all (db.satisfies row)).flatMap
        (d.scopes db)).map d.primary.rowOf := by
  obtain ⟨projections, joins, hprimary⟩ : ∃ projections joins, d.primary =
      { source := .table (s.entity root).table d.root.tableAlias, projections, joins } :=
    ⟨_, _, h.statement⟩
  have hstatement : (d.plan s root).selectFor predicates [] none none =
      { source := .table (s.entity root).table d.root.tableAlias, projections, joins,
        conditions := Condition.qualifiedAll d.root.tableAlias predicates } := by
    simp [Plan.selectFor, Draft.plan, hprimary, orderingOn]
  have hholds : ∀ row ∈ db.rows (s.entity root).table, ∀ scope ∈ d.scopes db row,
      ((Condition.qualifiedAll d.root.tableAlias predicates).all fun c =>
        c.holds db (scope.value d.root.tableAlias)) = predicates.all (db.satisfies row) := by
    intro row _ scope hscope
    rw [Condition.qualifiedAll_eq_map, List.all_map, Bool.eq_iff_iff, List.all_eq_true, List.all_eq_true]
    apply forall₂_congr
    intro c hc
    rw [Function.comp_apply, Database.holds_qualified (hpredicates c hc) (h.shown row scope hscope).1]
  have hscopes (row : Tuple) : Join.extendAll db d.root.tableAlias joins [(d.root.tableAlias, row)] =
      d.scopes db row := by
    rw [Draft.scopes, hprimary]
  have hunordered : ∀ a b : Scope, db.scopeLe d.root.tableAlias [] a b = true := fun _ _ => rfl
  rw [hstatement]
  simp only [Select.rows, Select.tuples, Select.rowsIn, Source.rowsIn, Source.tableAlias, hscopes]
  rw [filter_flatMap_of_forall hholds, insertionSort_of_forall hunordered]
  simp [page, Select.rowOf, Select.tupleOf, hprimary, Source.tableAlias]

/-- The record of a row depends on the rows to which the nodes below lead. -/
theorem LoadTree.record_congr {t : LoadTree} {targets targets' : Node → Tuple → List Tuple}
    (h : ∀ u ∈ t.subtrees, ∀ c ∈ u.children, targets c.info = targets' c.info) :
    t.record targets = t.record targets' := by
  induction t using LoadTree.induction with
  | node n children ih =>
    ext row
    have hchild : ∀ c ∈ children, targets c.info = targets' c.info ∧
        c.record targets = c.record targets' := fun c hc =>
      ⟨h _ (mem_subtrees_self _) c hc,
        ih c hc fun u hu => h u (mem_subtrees_node.mpr (.inr ⟨c, hc, hu⟩))⟩
    simp only [record]
    rw [recordEntries_eq_map, recordEntries_eq_map]
    refine congrArg Json.object (congrArg _ (List.map_congr_left fun c hc => ?_))
    rw [(hchild c hc).1, (hchild c hc).2]

namespace Draft.Finished

variable (h : d.Finished s r db root) (hr : r.Unqualified) (hfree : s.LinkFree)
  (hpredicates : ∀ c ∈ predicates, c.Unqualified)

include h hr hfree hpredicates

/-- There is a run of the plan on the rows that the database has for its statements. -/
theorem exists_run : ∃ transcript a a',
    (d.plan s root).absorbPrimaries
        (((d.plan s root).selectFor predicates [] none none).rows db) .empty = (.ok (), a) ∧
      (d.plan s root).Runs d.batches.zipIdx a transcript a' ∧
      ∀ e ∈ transcript, e.2 = e.1.rows db := by
  have hmem {u : LoadTree} (hu : u ∈ d.tree.subtrees) : u.info ∈ d.nodes :=
    h.tree.nodes.mem_iff.mp (LoadTree.info_mem_nodes hu)
  have hcovers : (d.plan s root).Covers .primary
      (((d.plan s root).selectFor predicates [] none none).rows db) := by
    intro row hrow u hu hsource
    rw [h.selects.rows_selectFor hpredicates] at hrow
    obtain ⟨scope, -, rfl⟩ := List.mem_map.mp hrow
    exact (h.readOff_primary (hmem hu) hsource [scope]).has (List.mem_singleton_self _)
  obtain ⟨a, hfold⟩ := h.staged.exists_absorbPrimaries hcovers .empty
  have hrows {i : Nat} {b : Batch} (hb : d.batches[i]? = some b)
      (hnames : (d.plan s root).NamesOpener i b) {keys : List (List Value)} {row : Row}
      (hrow : row ∈ (b.forParents keys).rows db) :=
    h.rows_of_opened hr hfree (h.opened_of_namesOpener hb hnames) hrow
  obtain ⟨transcript, a', hruns, hreply⟩ := (h.staged.stage_zero hfold).exists_runs h.staged (·.rows db)
    (fun i b hb hnames keys row hrow => (hrows hb hnames hrow).1)
    (fun i b hb hnames keys row hrow u hu hsource => (hrows hb hnames hrow).2.1 _ (hmem hu) hsource)
    List.drop_zero.symm
  exact ⟨transcript, a, a', hfold, hruns, hreply⟩

/-- The rows that come back in a run are nested into the records of the matching root rows. -/
theorem nest_eq (hsuits : s.Suits db) (hfit : ∀ id : s.RelationId, JoinsFit (s.relation id).join
    (s.relation id).junction (s.entity (s.relation id).source) (s.target id))
    {answers : Nat → List Row} {transcript : Transcript}
    (hanswered : (d.plan s root).Answered
      (((d.plan s root).selectFor predicates [] none none).rows db) answers d.batches.zipIdx transcript)
    (hreply : ∀ e ∈ transcript, e.2 = e.1.rows db)
    (hnames : ∀ b i, (b, i) ∈ d.batches.zipIdx → (d.plan s root).NamesOpener i b ∨ answers i = []) :
    (d.plan s root).nest answers d.tree (((d.plan s root).selectFor predicates [] none none).rows db) =
      ((db.rows (s.entity root).table).filter fun row => predicates.all (db.satisfies row)).map
        (d.tree.record (s.delivered r db (d.plan s root))) := by
  rw [h.selects.rows_selectFor hpredicates] at hanswered ⊢
  have hmatching : ((db.rows (s.entity root).table).filter fun row =>
      predicates.all (db.satisfies row)) ⊆ db.rows (s.entity root).table := List.filter_subset_self _
  have hnodup : (((db.rows (s.entity root).table).filter fun row =>
      predicates.all (db.satisfies row)).map (s.entity root).identity).Nodup :=
    (hsuits.unique _ (List.getElem_mem _)).sublist (List.filter_sublist.map _)
  have hprimary : ∀ row ∈ ((((db.rows (s.entity root).table).filter fun row =>
      predicates.all (db.satisfies row)).flatMap (d.scopes db)).map d.primary.rowOf),
      d.Genuine s db .primary row := by
    intro row hrow
    obtain ⟨scope, hscope, rfl⟩ := List.mem_map.mp hrow
    obtain ⟨origin, horigin, hscope⟩ := List.mem_flatMap.mp hscope
    exact h.genuine_primary (hmatching horigin) hscope
  have hinfo : (d.plan s root).tree.info = d.root := d.info_tree
  have hdelivers := h.delivers hr hfree hanswered hreply hnames hprimary hsuits hfit
  refine hdelivers.nest_eq (fun t ht c hc row => h.delivered_subset _ ht hc row)
    (LoadTree.mem_subtrees_self _) (fun u hu hsource => ?_) ?_ ?_ fun _ => List.Subset.refl _
  · have hmem : u.info ∈ d.nodes := h.tree.nodes.mem_iff.mp (LoadTree.info_mem_nodes hu)
    rw [hinfo, h.sourced.root] at hsource
    exact h.readOff_primary hmem hsource _
  · exact h.stands_delivered (LoadTree.mem_subtrees_self _) (h.selects.stands _ hmatching hnodup)
  · rw [hinfo, h.loadsRoot.rowsAt_eq]
    exact hmatching

end Draft.Finished

/-- Loading a compiled plan from a database gives one record for each root row that satisfies the
predicates, in table order, with the records of the rows to which it leads. Nothing is delivered for the
batched collections that the plan hides; without any, records are as they are meant to be. -/
theorem load_eq_record {entities : List Entity} {declarations : List Declaration}
    (hbuild : Schema.build entities declarations = .ok s) (hcompile : s.compile r = .ok p)
    (hself : r.selfKey = none) (hr : r.Unqualified) (hpredicates : ∀ c ∈ predicates, c.Unqualified)
    (hsuits : s.Suits db) (hfree : s.LinkFree) :
    (∃ secondary : List Select,
      let statement := p.selectFor predicates [] none none
      (p.load statement).run.play ((statement :: secondary).map fun q => .rows (q.rows db)) =
        ⟨.ok (((db.rows p.rootTable).filter fun row => predicates.all (db.satisfies row)).map
            (p.tree.record (s.delivered r db p))),
          (statement :: secondary).map fun q => (.fetchAll, q.render), []⟩) ∧
      ((∀ n ∈ p.others, p.hides n = false) →
        p.tree.record (s.delivered r db p) = p.tree.record (s.targetsAt r db)) := by
  have hstaged := Schema.compile_staged hcompile
  have hfit := Schema.build_joinsFit hbuild
  obtain ⟨root, d, -, hd, rfl⟩ := Schema.compile_eq_ok hcompile
  have h := hd.finished hself hr hsuits hfit hstaged
  constructor
  · obtain ⟨transcript, a, a', hfold, hruns, hreply⟩ := h.exists_run hr hfree hpredicates
    obtain ⟨answers, hanswered, hnames, hnest⟩ := hstaged.finish_eq_nest hfold hruns
    have hrecords := h.nest_eq hr hfree hpredicates hsuits hfit hanswered hreply hnames
    have hresponses : (transcript.map (·.1)).map (fun q => Response.rows (q.rows db)) =
        transcript.replies.map .rows := by
      rw [Transcript.replies, List.map_map, List.map_map]
      exact List.map_congr_left fun e he => congrArg Response.rows (hreply e he).symm
    refine ⟨transcript.map (·.1), Plan.play_load.mpr
      ⟨_, transcript, a, a', hfold, hruns, ?_, ?_, ?_, ?_⟩⟩
    · rw [hnest]
      exact hrecords.symm
    · rw [List.map_cons, hresponses]
      exact replies_map_rows (_ :: transcript.replies)
    · simp [Transcript.calls]
    · simp
  · intro hnone
    refine LoadTree.record_congr fun t ht c hc => funext fun row => ?_
    obtain ⟨-, hmem, -⟩ := h.child ht hc
    rw [Schema.delivered, hnone _ hmem]
    rfl

/-- A database in which values are equal if they have the same identity, and are ordered by it. -/
def Database.byIdentity (columns : String → List String) (rows : String → List Tuple) : Database where
  columns := columns
  rows := rows
  compare operator v w :=
    if v.isNull || w.isNull then none
    else some (match operator with
      | .notEqual => v.identity != w.identity
      | _ => v.identity == w.identity)
  compare_null := by simp [Value.isNull]
  le v w := decide (v.identity ≤ w.identity)
  le_total v w := by simpa using String.le_total _ _
  le_trans u v w := by simpa using String.le_trans

/-- The declarations of the forum's relations. -/
def forumDeclarations : List Declaration :=
  [⟨"Role", "users", "User", .many, [("uuid", "role_uuid")], none, some "role"⟩,
    ⟨"User", "role", "Role", .one, [("role_uuid", "uuid")], none, some "users"⟩,
    ⟨"User", "posts", "Post", .many, [("uuid", "author_uuid")], none, some "author"⟩,
    ⟨"Post", "author", "User", .one, [("author_uuid", "uuid")], none, some "posts"⟩]

theorem forum_build : Schema.build forum.entities forumDeclarations = .ok forum := by
  rfl

/-- An editor with a post, and a user without a role. -/
def forumDatabase : Database := .byIdentity (fun _ => []) fun
  | "role" => [⟨[("uuid", .text "a"), ("name", .text "editor")]⟩]
  | "user" => [⟨[("uuid", .text "b"), ("name", .text "Eve"), ("role_uuid", .text "a")]⟩,
    ⟨[("uuid", .text "c"), ("name", .text "Bob"), ("role_uuid", .null)]⟩]
  | "post" => [⟨[("uuid", .text "d"), ("title", .text "News"), ("author_uuid", .text "b")]⟩]
  | _ => []

theorem forum_suits : forum.Suits forumDatabase := by
  constructor
  case declared => exact forum_declared
  case key =>
    simp [forum, forumDatabase, Database.byIdentity, Entity.declare, Tuple.cell]
  case unique =>
    have hne : (Value.text "b").identity ≠ (Value.text "c").identity := by cbv
    simp [forum, forumDatabase, Database.byIdentity, Entity.declare, Tuple.cell, Entity.identity, hne]
  case equal =>
    intro id pair _ left _ right _ hleft hright
    simp only [forumDatabase, Database.byIdentity, Value.isNull_iff, Bool.or_eq_true, hleft, hright,
      or_self, if_false, Option.some.injEq, beq_iff_eq, true_and]
    exact eq_comm

theorem forum_linkFree : forum.LinkFree := by
  have hcolumns : ∀ e ∈ forum.entities, ∀ column ∈ e.columns, column.toList.head? ≠ some '_' := by
    decide
  intro e he column hcolumn i heq
  apply hcolumns e he column hcolumn
  rw [heq, linkName, String.toList_append]
  rfl

/-- The editors of the forum with all users of their role. -/
theorem forum_load_eq_record :
    let r := { Request.forModel "Role" with relations := ["users"], limit := none }
    let editors := [Condition.compare ⟨none, "name"⟩ .equal (.text "editor")]
    ∃ p, forum.compile r = .ok p ∧ ∃ secondary,
      (p.load (p.selectFor editors [] none none)).run.play
          ((p.selectFor editors [] none none :: secondary).map fun q => .rows (q.rows forumDatabase)) =
        ⟨.ok (((forumDatabase.rows p.rootTable).filter fun row =>
            editors.all (forumDatabase.satisfies row)).map
              (p.tree.record (forum.targetsAt r forumDatabase))),
          (p.selectFor editors [] none none :: secondary).map fun q => (.fetchAll, q.render), []⟩ := by
  intro r editors
  have hshown : ∃ p, forum.compile r = .ok p ∧ (p.others.all fun n => !p.hides n) = true :=
    ⟨_, by cbv, by cbv⟩
  obtain ⟨p, hcompile, hshown⟩ := hshown
  have hr : r.Unqualified := by
    rintro name c hc
    cases hc
  have heditors : ∀ c ∈ editors, c.Unqualified := by
    simp [editors, Condition.Unqualified, Condition.columns]
  obtain ⟨hload, hrecord⟩ :=
    load_eq_record forum_build hcompile rfl hr heditors forum_suits forum_linkFree
  refine ⟨p, hcompile, ?_⟩
  rw [← hrecord fun n hn => by simpa using List.all_eq_true.mp hshown n hn]
  exact hload

/-- Users with the authors of their posts: the author is joined into the batch of the posts, which then
names the author and is not put, so a user that has a post comes back without. -/
theorem forum_posts_hidden :
    let r := { Request.forModel "User" with relations := ["author"], limit := none }
    ∃ p, forum.compile r = .ok p ∧
      (∀ more, ((p.load (p.selectFor [] [] none none)).run.play
          (.rows ((p.selectFor [] [] none none).rows forumDatabase) :: more)).result =
        .ok [.obj [("name", .str "Eve"), ("posts", .arr []), ("role_uuid", .str "a"), ("uuid", .str "b")],
          .obj [("name", .str "Bob"), ("posts", .arr []), ("role_uuid", .null), ("uuid", .str "c")]]) ∧
      (forumDatabase.rows p.rootTable).map (p.tree.record (forum.targetsAt r forumDatabase)) =
        [.obj [("name", .str "Eve"),
            ("posts", .arr [.obj [
              ("author", .obj [("name", .str "Eve"), ("role_uuid", .str "a"), ("uuid", .str "b")]),
              ("author_uuid", .str "b"), ("title", .str "News"), ("uuid", .str "d")]]),
            ("role_uuid", .str "a"), ("uuid", .str "b")],
          .obj [("name", .str "Bob"), ("posts", .arr []), ("role_uuid", .null), ("uuid", .str "c")]] :=
  ⟨_, by cbv, fun more => by rfl, by cbv⟩

end EagerLoad
