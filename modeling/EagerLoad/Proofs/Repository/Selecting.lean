import EagerLoad.Proofs.Repository.Listing
import EagerLoad.Proofs.Sql.Normal
import EagerLoad.Proofs.Sql.Placeholders
import EagerLoad.Proofs.Sql.Upserts

/-!
# Reading with and without a plan

Records without relations can be read by a statement over the table of their entity, or by the plan that
loads the entity alone. Both ways ask the same: the texts differ in what is selected, and agree from `FROM`
on, as do the values that are bound.
-/

namespace EagerLoad

namespace Sql

/-- The characters from the first `FROM` on that is not part of an identifier, where reading starts inside of
an identifier or not. -/
def fromOn : Bool → List Char → List Char
  | _, [] => []
  | true, c :: rest => fromOn (c ≠ '"') rest
  | false, c :: rest =>
    if ['F', 'R', 'O', 'M'].isPrefixOf (c :: rest) then c :: rest else fromOn (c = '"') rest

/-- The text of a statement from its `FROM` clause on. -/
def fromClause (sql : String) : String :=
  String.ofList (fromOn false sql.toList)

theorem fromOn_plain {cs : List Char} (h : ∀ c ∈ cs, c ≠ 'F' ∧ c ≠ '"') (rest : List Char) :
    fromOn false (cs ++ rest) = fromOn false rest := by
  induction cs with
  | nil => rfl
  | cons c cs ih =>
    obtain ⟨⟨hletter, hquote⟩, hcs⟩ := List.forall_mem_cons.mp h
    simp [fromOn, hletter.symm, hquote, ih hcs]

/-- A doubled quote does not end an identifier. -/
theorem fromOn_quoted (cs rest : List Char) :
    fromOn true ((cs.flatMap fun c => if c = '"' then ['"', '"'] else [c]) ++ '"' :: rest) =
      fromOn false rest := by
  induction cs with
  | nil => simp [fromOn]
  | cons c cs ih =>
    by_cases hquote : c = '"' <;> simpa [fromOn, hquote] using ih

theorem fromOn_quoteName (name : String) (rest : List Char) :
    fromOn false ((quoteName name).toList ++ rest) = fromOn false rest := by
  simpa [quoteName, fromOn] using fromOn_quoted name.toList rest

/-- Whether a piece may hold a `FROM` that is not part of an identifier, or a part of an identifier. -/
def Piece.mayHoldFrom : Piece → Bool
  | .text s => s.toList.any fun c => c = 'F' || c = '"'
  | .name _ => false
  | .param _ => true

/-- What is written for other pieces is passed over. -/
theorem fromOn_writeFrom {pieces : List Piece} (h : ∀ p ∈ pieces, p.mayHoldFrom = false) (n : Nat)
    (rest : List Char) : fromOn false ((Piece.writeFrom n pieces).sql.toList ++ rest) = fromOn false rest := by
  induction pieces with
  | nil => rfl
  | cons p later ih =>
    obtain ⟨hp, hlater⟩ := List.forall_mem_cons.mp h
    cases p with
    | text s =>
      have hplain : ∀ c ∈ s.toList, c ≠ 'F' ∧ c ≠ '"' := by simpa [Piece.mayHoldFrom] using hp
      rw [Piece.writeFrom, String.toList_append, List.append_assoc, fromOn_plain hplain, ih hlater]
    | name s => rw [Piece.writeFrom, String.toList_append, List.append_assoc, fromOn_quoteName, ih hlater]
    | param v => cases hp

section Projections

variable {scope : Option String}

theorem Column.mayHoldFrom_pieces (c : Column) : ∀ p ∈ c.pieces scope, p.mayHoldFrom = false := by
  unfold Column.pieces
  split <;> simp [Piece.mayHoldFrom]

theorem Projection.mayHoldFrom_pieces (projection : Projection) :
    ∀ p ∈ projection.pieces scope, p.mayHoldFrom = false := by
  cases projection with
  | column column label =>
    cases label with
    | none => exact column.mayHoldFrom_pieces
    | some label =>
      refine List.forall_mem_append.mpr ⟨column.mayHoldFrom_pieces, ?_⟩
      simp [Piece.mayHoldFrom]
  | everything tableAlias => simp [Projection.pieces, Piece.mayHoldFrom]

theorem Projection.mayHoldFrom_listPieces (projections : List Projection) :
    ∀ p ∈ Projection.listPieces scope projections, p.mayHoldFrom = false := by
  cases projections with
  | nil => simp [Projection.listPieces, Piece.mayHoldFrom]
  | cons projection rest =>
    refine forall_mem_intercalate (by simp [Piece.mayHoldFrom]) fun g hg => ?_
    obtain ⟨projection, -, rfl⟩ := List.mem_map.mp hg
    exact projection.mayHoldFrom_pieces

end Projections

namespace Select

/-- What is written behind the keyword `FROM` of a statement. -/
def clauses (s : Select) : List Piece :=
  s.source.pieces ++ Join.listPieces (some s.tableAlias) s.joins ++
    wherePieces (some s.tableAlias) s.conditions ++ orderPieces (some s.tableAlias) s.ordering ++
    numberClause "LIMIT" s.limit ++ numberClause "OFFSET" s.offset

/-- The projections of a statement as written. -/
def selected (s : Select) : String :=
  (Query.ofPieces (Projection.listPieces (some s.tableAlias) s.projections)).sql

theorem pieces_eq (s : Select) : s.pieces = .text "SELECT " ::
    (Projection.listPieces (some s.tableAlias) s.projections ++ .text " FROM " :: s.clauses) := by
  obtain ⟨source, projections, joins, conditions, ordering, limit, offset⟩ := s
  simp [pieces, clauses, tableAlias]

/-- A statement is written as its projections and then its other clauses, which bind all values. -/
theorem render_eq (s : Select) : s.render =
    ⟨"SELECT " ++ (s.selected ++ (" FROM " ++ (Query.ofPieces s.clauses).sql)),
      (Query.ofPieces s.clauses).params⟩ := by
  have hbound := @Projection.bound_listPieces (some s.tableAlias) s.projections
  have hsql : s.render.sql = "SELECT " ++ (s.selected ++ (" FROM " ++ (Query.ofPieces s.clauses).sql)) := by
    rw [render, s.pieces_eq, Query.ofPieces, Piece.writeFrom, Piece.sql_append, hbound]
    rfl
  have hparams : s.render.params = (Query.ofPieces s.clauses).params := by
    rw [render, Query.ofPieces, Query.ofPieces, Piece.params_writeFrom, Piece.params_writeFrom, s.pieces_eq]
    simp
  rw [← hsql, ← hparams]

/-- The clauses from `FROM` on are found in the text, whatever identifiers stand before them. -/
theorem fromClause_render (s : Select) :
    fromClause s.render.sql = "FROM " ++ (Query.ofPieces s.clauses).sql := by
  have hselect : ∀ c ∈ "SELECT ".toList, c ≠ 'F' ∧ c ≠ '"' := by simp
  have hblank : ∀ c ∈ [' '], c ≠ 'F' ∧ c ≠ '"' := by simp
  have hkeyword : " FROM ".toList = [' '] ++ "FROM ".toList := rfl
  have hfound (rest : List Char) : fromOn false ("FROM ".toList ++ rest) = "FROM ".toList ++ rest := rfl
  simp only [fromClause, render_eq, String.toList_append]
  rw [fromOn_plain hselect, selected, Query.ofPieces, fromOn_writeFrom (Projection.mayHoldFrom_listPieces _),
    hkeyword, List.append_assoc, fromOn_plain hblank, hfound, ← String.toList_append, String.ofList_toList]

end Select

end Sql

open Sql

variable {s : Schema} {id : s.EntityId} {model : String} {r : Repository}

/-- The plan of an entity alone. -/
def Schema.rootPlan (s : Schema) (id : s.EntityId) : Plan :=
  (s.rootDraft id).plan s id

theorem Schema.compile_forModel (h : s.entityNamed model = .ok id) :
    s.compile (.forModel model) = .ok (s.rootPlan id) := by
  rw [compile]
  simp only [Request.forModel, h]
  rfl

/-- Orderings on the columns of an alias are written like those on unqualified columns. -/
theorem orderPieces_orderingOn (scope : Option String) (a : String) (ordering : List SortKey) :
    orderPieces scope (orderingOn a ordering) =
      orderPieces (some a) (ordering.map fun o => (.bare o.column, o.direction)) := by
  rw [← @orderPieces_qualified scope, List.map_map]
  rfl

namespace Repository

/-- The alias of the table that is read. -/
def tableAlias (r : Repository) : String :=
  (AliasSupply.fresh.take r.entity.table).1

/-- Every column of the entity, each under its label, as written; a star if the entity has none. -/
def labelledText (r : Repository) : String :=
  if r.entity.columns = [] then "*"
  else ", ".intercalate (r.entity.columns.map fun column => quoteName r.tableAlias ++ "." ++
    quoteName column ++ " AS " ++ quoteName (columnLabel r.tableAlias column))

/-- The statement of the plan of the entity alone. -/
theorem selectFor_rootPlan (hentity : r.entity = s.entity id) (predicates : List Condition)
    (ordering : List SortKey) (limit offset : Option Nat) :
    (s.rootPlan id).selectFor predicates ordering limit offset =
      { source := .table r.entity.table r.tableAlias
        projections := labelledColumns r.tableAlias r.entity.columns
        conditions := Condition.qualifiedAll r.tableAlias predicates
        ordering := orderingOn r.tableAlias ordering
        limit, offset } := by
  rw [tableAlias, hentity]
  rfl

/-- Whether columns are qualified by the plan or belong to the only alias, the clauses are written alike. -/
theorem clauses_selectFor (hentity : r.entity = s.entity id) (predicates : List Condition)
    (ordering : List SortKey) (limit offset : Option Nat) :
    ((s.rootPlan id).selectFor predicates ordering limit offset).clauses =
      (r.bareSelect predicates ordering limit offset).clauses := by
  rw [selectFor_rootPlan hentity, Select.clauses, wherePieces_qualified, orderPieces_orderingOn]
  rfl

theorem selected_bareSelect (predicates : List Condition) (ordering : List SortKey)
    (limit offset : Option Nat) :
    (r.bareSelect predicates ordering limit offset).selected = quoteName r.tableAlias ++ ".*" := by
  rfl

theorem selected_selectFor (hentity : r.entity = s.entity id) (predicates : List Condition)
    (ordering : List SortKey) (limit offset : Option Nat) :
    ((s.rootPlan id).selectFor predicates ordering limit offset).selected = r.labelledText := by
  have hunbound : ∀ g ∈ (labelledColumns r.tableAlias r.entity.columns).map (·.pieces (some r.tableAlias)),
      Piece.bound g = [] := by
    simp [labelledColumns, Projection.pieces]
  rw [selectFor_rootPlan hentity, Select.selected, labelledText, Query.ofPieces]
  by_cases hcolumns : r.entity.columns = []
  · rw [if_pos hcolumns, hcolumns]
    rfl
  · rw [if_neg hcolumns, Projection.listPieces]
    · refine (Piece.sql_separated_unbound hunbound 0 ", ").trans ?_
      rw [labelledColumns, List.map_map, List.map_map]
      refine congrArg _ (List.map_congr_left fun column _ => ?_)
      simp [Projection.pieces, Column.pieces, Column.of, Piece.writeFrom, String.append_assoc]
    · simpa [labelledColumns] using hcolumns

/-- Reading an entity by the statement of its repository and reading it by the plan that loads it alone bind the
same values, and put the same text from `FROM` on. What stands before `FROM` is a star in the one text and
every column under its label in the other. -/
theorem bareSelect_render_agrees (h : s.entityNamed model = .ok id) (hentity : r.entity = s.entity id) :
    ∃ plan, s.compile (.forModel model) = .ok plan ∧
      ∀ (predicates : List Condition) (ordering : List SortKey) (limit offset : Option Nat),
        let plain := (r.bareSelect predicates ordering limit offset).render
        let planned := (plan.selectFor predicates ordering limit offset).render
        planned.params = plain.params ∧ fromClause planned.sql = fromClause plain.sql ∧
          plain.sql = "SELECT " ++ (quoteName r.tableAlias ++ ".*" ++ (" " ++ fromClause plain.sql)) ∧
          planned.sql = "SELECT " ++ (r.labelledText ++ (" " ++ fromClause planned.sql)) := by
  refine ⟨_, Schema.compile_forModel h, fun predicates ordering limit offset => ?_⟩
  have hclauses := clauses_selectFor hentity predicates ordering limit offset
  have hplanned := selected_selectFor hentity predicates ordering limit offset
  -- in front of the keyword stands a blank
  have hblank (text : String) : " " ++ ("FROM " ++ text) = " FROM " ++ text := (String.append_assoc ..).symm
  refine ⟨?_, ?_, ?_, ?_⟩
  · rw [Select.render_eq, Select.render_eq, hclauses]
  · rw [Select.fromClause_render, Select.fromClause_render, hclauses]
  · rw [Select.fromClause_render, hblank, Select.render_eq, selected_bareSelect]
  · rw [Select.fromClause_render, hblank, Select.render_eq, hplanned]

end Repository

/-- Roles by a name or a key, where only the key is qualified, or without a name. -/
def namedRoles : List Condition :=
  [.or [.compare (.bare "name") .equal (.text "FROM"), .inList (.of "r0" "uuid") [.text "a", .null] false],
    .not (.compare (.bare "name") .equal .null)]

/-- The first of these roles, as they are read with and without the plan. -/
theorem roles_bareSelect_agrees :
    forum.entityNamed "Role" = .ok ⟨0, by decide⟩ ∧ roles.entity = forum.entity ⟨0, by decide⟩ ∧
      ∃ plan, forum.compile (.forModel "Role") = .ok plan ∧
        let planned := (plan.selectFor namedRoles [⟨"name", .descending⟩] (some 5) none).render
        planned.params = [.text "FROM", .text "a"] ∧
          fromClause planned.sql = "FROM \"role\" AS \"r0\" WHERE (\"r0\".\"name\" = $1 OR " ++
            "\"r0\".\"uuid\" IN ($2, NULL)) AND NOT (\"r0\".\"name\" IS NULL) " ++
            "ORDER BY \"r0\".\"name\" DESC LIMIT 5" := by
  have hnamed : forum.entityNamed "Role" = .ok ⟨0, by decide⟩ := by rfl
  have hentity : roles.entity = forum.entity ⟨0, by decide⟩ := rfl
  obtain ⟨plan, hplan, hagrees⟩ := Repository.bareSelect_render_agrees hnamed hentity
  obtain ⟨hparams, hclause, -⟩ := hagrees namedRoles [⟨"name", .descending⟩] (some 5) none
  exact ⟨hnamed, hentity, plan, hplan, hparams.trans rfl, hclause.trans (by cbv)⟩

end EagerLoad
