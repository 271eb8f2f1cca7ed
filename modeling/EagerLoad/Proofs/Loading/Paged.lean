import EagerLoad.Proofs.Loading.Answers
import EagerLoad.Proofs.Loading.Eager
import EagerLoad.Proofs.Loading.Multiplicity

/-!
# Pages count roots

A page of root rows is loaded as the plain selection of the root's table returns it, in the same order,
and each row with the record that it has on every other page: what the joins bring in for it, and what the
batches return for all parents. This holds where the page is cut inside a derived table, and where there
is none. Where it is cut from the joined rows, it takes to-one relations that join a row once.
-/

namespace EagerLoad

open Sql

variable {s : Schema} {r : Request} {db : Database} {root : s.EntityId} {hops : List s.RelationId}
  {d : Draft} {p : Plan} {predicates : List Condition} {ordering : List SortKey}
  {limit offset : Option Nat} {row : Tuple} {source : RowSource} {rows : List Tuple}

namespace Plan

/-- The rows of the primary statement for a root row. -/
def rowsFor (p : Plan) (db : Database) (row : Tuple) : List Row :=
  (Join.extendAll db p.root.tableAlias p.primary.joins [(p.root.tableAlias, row)]).map p.primary.rowOf

/-- The record of a root row, whatever other rows are loaded: its columns, and below them what the joins
bring in for it and what comes back for the batches. -/
def recordIn (p : Plan) (db : Database) (row : Tuple) : Json :=
  .object ((p.root.columnsOf row).entries.map (fun (column, value) => (column, value.toJson)) ++
    p.nestBelow (p.allAnswers db) p.root (p.rowsFor db row) p.tree.children)

end Plan

/-- A row that a statement makes has a value for each of its labels. -/
theorem Sql.Select.carries_rowOf (q : Select) (scope : Scope) : (q.rowOf scope).Carries q := by
  intro c label hmem
  have hcells : label ∈ (q.projections.flatMap (·.cells q.source.tableAlias scope)).map (·.1) :=
    List.mem_map.mpr ⟨_, List.mem_flatMap.mpr ⟨_, hmem, List.mem_singleton_self _⟩, rfl⟩
  obtain ⟨v, hv⟩ := mem_keys_iff.mp hcells
  refine ⟨v, Row.named_ofValues ?_⟩
  rw [Select.tupleOf, Projection.tuple.eq_def]
  cases hprojections : q.projections with
  | nil => simp [hprojections] at hmem
  | cons first rest => rwa [hprojections] at hv

namespace Draft

variable (h : s.Compiling r root hops d)

include h

/-- Rows that a statement makes have the labels of the nodes that are read from it. -/
theorem covers_of_made (hdeclared : s.Declared) {rows : List Row}
    (hmade : ∀ row ∈ rows, (d.plan s root).Made db source row) :
    (d.plan s root).Covers source rows := by
  intro row hrow u hu hsource
  have hnodes : ∀ u ∈ (d.plan s root).tree.subtrees, u.info ∈ d.nodes :=
    fun u hu => h.treeMatches.nodes.mem_iff.mp (LoadTree.info_mem_nodes hu)
  obtain ⟨⟨q, link⟩, hq⟩ := Option.isSome_iff_exists.mp (h.sourced.isSome_statement? (hnodes u hu))
  rw [hsource] at hq
  obtain ⟨scope, -, rfl⟩ := hmade row hrow q link hq
  exact (h.projecting.labelsOf_statement hdeclared hq).1.has hnodes (q.carries_rowOf scope) u hu hsource

/-- Every root row is a block of rows with its key, which have the columns of the row for the root. -/
theorem keys_rowsFor (hself : ∀ n ∈ d.others, n.strategy ≠ .selfAliased) (hkeyed : s.Keyed db)
    (hrow : row ∈ db.rows (s.entity root).table) :
    d.root.Keys ((d.plan s root).rowsFor db) (s.entity root).identity row ∧
      d.root.firstValues ((d.plan s root).rowsFor db row) = d.root.columnsOf row := by
  have hprojecting := h.projecting
  have hroot : s.Loads d.root root := h.root_eq ▸ ⟨rfl, rfl, rfl⟩
  have hread : d.root.ReadOff d.primary.rowOf (d.scopes db row) := by
    intro scope _ column hcolumn
    have hstatement : (d.plan s root).statement? .primary = some (d.primary, []) := rfl
    obtain ⟨hlabels, hshape⟩ := hprojecting.labelsOf_statement hkeyed.declared hstatement
    exact hlabels.named_rowOf hshape List.mem_cons_self h.sourced.root hcolumn (.inl rfl) scope
  have hcell : ∀ scope ∈ d.scopes db row, ∀ column, scope.cell d.root.tableAlias column = row.cell column :=
    fun scope hscope column => by
      rw [Join.cell_of_mem_extendAll hprojecting.rootAlias_not_mem hscope, Scope.cell_cons_self]
  have hne : d.scopes db row ≠ [] := Join.extendAll_ne_nil (hprojecting.left hself) _
  have hrows : (d.plan s root).rowsFor db row = (d.scopes db row).map d.primary.rowOf := rfl
  refine ⟨⟨?_, fun made hmade => ?_⟩, ?_⟩
  · rw [hrows]
    exact mt List.map_eq_nil_iff.mp hne
  · rw [hrows] at hmade
    obtain ⟨scope, hscope, rfl⟩ := List.mem_map.mp hmade
    have hnull : row.cell d.root.primaryKey ≠ .null := by
      rw [hroot.primaryKey]
      exact hkeyed.key _ (List.getElem_mem _) row hrow
    rw [hread.key?_eq hscope, Node.scopeKey?_of_cell (hcell scope hscope _) hnull, hroot.rowKey_eq]
  · rw [hrows]
    exact hread.firstValues_eq hne fun scope hscope column _ => hcell scope hscope column

/-- The rows of a batch have the labels of its link. -/
theorem exists_link_of_mem_forParents {row : Row} {i : Nat} {b : Batch} {keys : List (List Value)}
    (hb : d.batches[i]? = some b) (hrow : row ∈ (b.forParents keys).rows db) :
    ∃ link, b.linkLabels.mapM row.named = .ok link := by
  obtain ⟨tableAlias, hselects⟩ := h.projecting.link i b hb
  have hstatement : (d.plan s root).statement? (.batch i) = some (b.statement, b.link) :=
    congrArg (Option.map _) hb
  obtain ⟨scope, -, rfl⟩ := Plan.made_of_mem_forParents (p := d.plan s root) hb hrow _ _ hstatement
  refine Row.exists_mapM_named fun label hlabel => ?_
  obtain ⟨c, hc⟩ := (hselects.linkIn keys).mem hlabel
  exact b.statement.carries_rowOf scope c label hc

/-- The blocks of some root rows are nested into their records. -/
theorem nest_rowsFor (hself : ∀ n ∈ d.others, n.strategy ≠ .selfAliased) (hkeyed : s.Keyed db)
    (hsub : rows.Subperm (db.rows (s.entity root).table)) :
    (d.plan s root).nest ((d.plan s root).allAnswers db) d.tree
        (rows.flatMap ((d.plan s root).rowsFor db)) = rows.map ((d.plan s root).recordIn db) := by
  have hkeys : ∀ row ∈ rows, _ := fun row hrow => keys_rowsFor h hself hkeyed (hsub.subset hrow)
  have hnodup : (rows.map (s.entity root).identity).Nodup := by
    obtain ⟨l, hperm, hl⟩ := hsub
    exact (hperm.map _).nodup_iff.mp ((hkeyed.unique _ (List.getElem_mem _)).sublist (hl.map _))
  have htree : d.tree = .node d.root d.tree.children := by
    rw [← d.info_tree]
    cases d.tree
    rfl
  rw [htree, Plan.nest_flatMap hnodup fun row hrow => (hkeys row hrow).1]
  refine List.map_congr_left fun row hrow => ?_
  rw [(hkeys row hrow).2]
  rfl

/-- The rows of the primary statement for a page are the blocks of the root rows on it. -/
theorem rows_selectFor (hkeyed : s.Keyed db) (hfit : ∀ id : s.RelationId, JoinsFit (s.relation id).join
      (s.relation id).junction (s.entity (s.relation id).source) (s.target id))
    (hpredicates : ∀ c ∈ predicates, c.Unqualified)
    (hcounts : (d.plan s root).multipliesRows = true ∨ (limit = none ∧ offset = none) ∨
      (r.Unqualified ∧ s.LeadsToOne r db ∧ s.LinksOnce db)) :
    ((d.plan s root).selectFor predicates ordering limit offset).rows db =
      ((d.plan s root).rootRows db predicates ordering limit offset).flatMap
        ((d.plan s root).rowsFor db) := by
  have hsingle : (d.plan s root).multipliesRows = true ∨ (limit = none ∧ offset = none) ∨
      ∀ row ∈ db.rows (s.entity root).table, (d.scopes db row).length = 1 := by
    cases hmultiplies : (d.plan s root).multipliesRows with
    | true => exact .inl rfl
    | false =>
      refine .inr ((hcounts.resolve_left (by simp [hmultiplies])).imp_right ?_)
      rintro ⟨hr, hleads, hlinks⟩ row hrow
      refine h.length_scopes hr hkeyed hleads hlinks hfit (fun n hn => ?_) hrow
      exact Bool.eq_false_iff.mpr (List.any_eq_false.mp (h.noted.multiplies ▸ hmultiplies) n hn)
  rw [h.projecting.rows_selectFor hpredicates hsingle, List.map_flatMap]
  rfl

end Draft

/-- Loading a page of root rows returns, in order, a record for each row that the plain selection of the
root's table returns for the page, and a row has the same record on every page. A page that is cut from
the joined rows counts roots if every to-one relation joins a row once. -/
theorem load_selectFor {entities : List Entity} {declarations : List Declaration}
    (hbuild : Schema.build entities declarations = .ok s) (hcompile : s.compile r = .ok p)
    (hself : ∀ n ∈ p.others, n.strategy ≠ .selfAliased) (hkeyed : s.Keyed db) (hapart : s.LinksApart)
    (hpredicates : ∀ c ∈ predicates, c.Unqualified)
    (hcounts : p.multipliesRows = true ∨ (limit = none ∧ offset = none) ∨
      (r.Unqualified ∧ s.LeadsToOne r db ∧ s.LinksOnce db)) :
    ∃ secondary : List Select,
      let statement := p.selectFor predicates ordering limit offset
      (p.load statement).run.play ((statement :: secondary).map fun q => .rows (q.rows db)) =
        ⟨.ok (((p.rootSelect predicates ordering limit offset).tuples db).map (p.recordIn db)),
          (statement :: secondary).map fun q => (.fetchAll, q.render), []⟩ := by
  have hstaged := Schema.compile_staged hcompile
  have hfit := Schema.build_joinsFit hbuild
  obtain ⟨root, d, -, h, rfl⟩ := Schema.compile_eq_ok hcompile
  have hsub := (d.plan s root).rootRows_subperm db predicates ordering limit offset
  have hrows : ((d.plan s root).selectFor predicates ordering limit offset).rows db =
      ((d.plan s root).rootRows db predicates ordering limit offset).flatMap
        ((d.plan s root).rowsFor db) := Draft.rows_selectFor h hkeyed hfit hpredicates hcounts
  have hprimary : ∀ row ∈ ((d.plan s root).selectFor predicates ordering limit offset).rows db,
      (d.plan s root).Made db .primary row := by
    intro row hrow q link hq
    cases hq
    rw [hrows] at hrow
    obtain ⟨origin, horigin, hrow⟩ := List.mem_flatMap.mp hrow
    obtain ⟨scope, hscope, rfl⟩ := List.mem_map.mp hrow
    refine ⟨scope, h.projecting.scopes_primary ▸ ?_, rfl⟩
    exact List.mem_flatMap.mpr ⟨origin, hsub.subset horigin, hscope⟩
  obtain ⟨transcript, answers, hreply, hanswered, hnames, hplay⟩ := hstaged.exists_play (·.rows db)
    ((d.plan s root).selectFor predicates ordering limit offset)
    (Draft.covers_of_made h hkeyed.declared hprimary)
    (fun i b hb _ keys row hrow => Draft.exists_link_of_mem_forParents h hb hrow)
    (fun i b hb _ keys => Draft.covers_of_made h hkeyed.declared fun row hrow => Plan.made_of_mem_forParents hb hrow)
  refine ⟨transcript.map (·.1), hplay.trans ?_⟩
  have halike := Draft.alike_allAnswers h hfit hapart hstaged hanswered hreply hkeyed hprimary hnames
  rw [Plan.tuples_rootSelect hpredicates, ← Draft.nest_rowsFor h hself hkeyed hsub, ← hrows,
    ← halike.nest_eq]
  rfl

theorem forum_linksApart : forum.LinksApart := by
  have hcolumns : ∀ id : forum.RelationId, ∀ column ∈ (forum.relation id).join.left,
      column.toList.head? ≠ some '_' := by decide
  intro id column hcolumn i heq
  apply hcolumns id column hcolumn
  rw [heq, linkName, String.toList_append]
  rfl

/-- The first user of the forum, with the role. -/
theorem forum_load_selectFor :
    let r := { Request.forModel "User" with relations := ["role"], limit := none }
    ∃ p, forum.compile r = .ok p ∧ (∃ secondary,
      let statement := p.selectFor [] [] (some 1) (some 0)
      (p.load statement).run.play
          ((statement :: secondary).map fun q => .rows (q.rows forumDatabase)) =
        ⟨.ok (((p.rootSelect [] [] (some 1) (some 0)).tuples forumDatabase).map
            (p.recordIn forumDatabase)),
          (statement :: secondary).map fun q => (.fetchAll, q.render), []⟩) ∧
      ((p.rootSelect [] [] (some 1) (some 0)).tuples forumDatabase).map (p.recordIn forumDatabase) =
        [.obj [("name", .str "Eve"), ("role", .obj [("name", .str "editor"), ("uuid", .str "a")]),
          ("role_uuid", .str "a"), ("uuid", .str "b")]] := by
  intro r
  have hcompile : ∃ p, forum.compile r = .ok p ∧
      (p.others.all fun n => n.strategy ≠ .selfAliased) = true ∧
      ((p.rootSelect [] [] (some 1) (some 0)).tuples forumDatabase).map (p.recordIn forumDatabase) =
        [.obj [("name", .str "Eve"), ("role", .obj [("name", .str "editor"), ("uuid", .str "a")]),
          ("role_uuid", .str "a"), ("uuid", .str "b")]] := ⟨_, by cbv, by cbv, by cbv⟩
  obtain ⟨p, hp, hstrategies, hrecords⟩ := hcompile
  have hself : ∀ n ∈ p.others, n.strategy ≠ .selfAliased := by
    simpa using List.all_eq_true.mp hstrategies
  have hr : r.Unqualified := by
    rintro name c hc
    cases hc
  have hleads : forum.LeadsToOne r forumDatabase := by
    unfold Schema.LeadsToOne
    decide +kernel
  have hlinks : forum.LinksOnce forumDatabase := by
    unfold Schema.LinksOnce
    decide +kernel
  have hnone : ∀ c ∈ ([] : List Condition), c.Unqualified := fun c hc => absurd hc List.not_mem_nil
  exact ⟨p, hp, load_selectFor forum_build hp hself forum_suits.keyed forum_linksApart hnone
    (.inr (.inr ⟨hr, hleads, hlinks⟩)), hrecords⟩

/-- Books, each with its genre, to which a junction leads. -/
def library : Schema := .ofRelations
  [.declare "Book" "book" "id" ["title"], .declare "Genre" "genre" "id" ["label"]]
  [⟨"genre", 0, 1, .one, [("id", "book_id")], some ⟨"book_genre", [("genre_id", "id")]⟩, none⟩]

/-- Two novels, of which the junction has the first one twice. -/
def libraryDatabase : Database := .byIdentity (fun _ => []) fun
  | "book" => [⟨[("id", .text "a"), ("title", .text "Emma")]⟩,
    ⟨[("id", .text "b"), ("title", .text "Ulysses")]⟩]
  | "book_genre" => [⟨[("book_id", .text "a"), ("genre_id", .text "c")]⟩,
    ⟨[("book_id", .text "a"), ("genre_id", .text "c")]⟩,
    ⟨[("book_id", .text "b"), ("genre_id", .text "c")]⟩]
  | "genre" => [⟨[("id", .text "c"), ("label", .text "novel")]⟩]
  | _ => []

theorem library_keyed : library.Keyed libraryDatabase := by
  constructor
  case declared => simp [Schema.Declared, library, Entity.declared_declare]
  case key => simp [library, libraryDatabase, Database.byIdentity, Entity.declare, Tuple.cell]
  case unique => decide +kernel
  case equal =>
    intro id pair _ left _ right _ hleft hright hsame
    simp [libraryDatabase, Database.byIdentity, Value.isNull_iff, hleft, hright, hsame]

/-- A page of two books is one short, although every book has one genre: the page is cut from the joined
rows, and the junction joins the first book twice. -/
theorem library_page_short :
    let r := { Request.forModel "Book" with relations := ["genre"] }
    Schema.build library.entities [⟨"Book", "genre", "Genre", .one, [("id", "book_id")],
        some ⟨"book_genre", [("genre_id", "id")]⟩, none⟩] = .ok library ∧
      library.Keyed libraryDatabase ∧ library.LeadsToOne r libraryDatabase ∧
      ∃ p, library.compile r = .ok p ∧ (p.others.all fun n => n.strategy ≠ .selfAliased) = true ∧
        (p.rootSelect [] [] (some 2) none).tuples libraryDatabase = libraryDatabase.rows "book" ∧
        ∀ more, ((p.load (p.selectFor [] [] (some 2) none)).run.play
            (.rows ((p.selectFor [] [] (some 2) none).rows libraryDatabase) :: more)).result =
          .ok [.obj [("genre", .obj [("id", .str "c"), ("label", .str "novel")]), ("id", .str "a"),
            ("title", .str "Emma")]] := by
  intro r
  have hleads : library.LeadsToOne r libraryDatabase := by
    unfold Schema.LeadsToOne
    decide +kernel
  exact ⟨by rfl, library_keyed, hleads, _, by cbv, by cbv, by cbv, fun more => by rfl⟩

end EagerLoad
