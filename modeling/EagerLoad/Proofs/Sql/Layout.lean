import EagerLoad.Proofs.Sql.Evaluation
import EagerLoad.Proofs.Sql.Lexemes
import EagerLoad.Sql.Write

/-!
# The layout of statements

The pieces of every statement fit together: a column, a condition or a name is followed by a text that
starts free. Statements nested in others are reached by an induction over what a statement nests.
-/

namespace EagerLoad.Sql

/-- The sub-select of a source. -/
def Source.nested : Source → List Select
  | .table _ _ => []
  | .derived query _ => [query]

/-- The sub-select of the target of a join. -/
def JoinTarget.nested : JoinTarget → List Select
  | .table _ => []
  | .lateral query => [query]

/-- The sub-selects right below a statement. -/
def Select.nested (s : Select) : List Select :=
  s.source.nested ++ s.joins.flatMap (·.target.nested)

theorem Select.sizeOf_lt_of_mem_nested {s q : Select} (h : q ∈ s.nested) : sizeOf q < sizeOf s := by
  obtain ⟨source, projections, joins, conditions, ordering, limit, offset⟩ := s
  rcases List.mem_append.mp h with h | h
  · cases source with
    | table table tableAlias => cases h
    | derived query tableAlias =>
      simp only [Source.nested, List.mem_singleton] at h
      subst h
      simp +arith
  · obtain ⟨⟨kind, target, tableAlias, on⟩, hjoin, h⟩ := List.mem_flatMap.mp h
    have hsize := List.sizeOf_lt_of_mem hjoin
    cases target with
    | table table => cases h
    | lateral query =>
      simp only [JoinTarget.nested, List.mem_singleton] at h
      subst h
      simp +arith at hsize ⊢
      omega

/-- A statement about statements holds if it passes from what a statement nests to the statement. -/
@[elab_as_elim]
theorem Select.induction {motive : Select → Prop}
    (nest : ∀ s, (∀ q ∈ s.nested, motive q) → motive s) (s : Select) : motive s :=
  nest s fun q _ => induction nest q
termination_by sizeOf s
decreasing_by exact sizeOf_lt_of_mem_nested ‹_›

/-- Pieces that fit behind any pieces. -/
structure Following (pieces : List Piece) : Prop extends Fitting pieces where
  opens : ∀ q ∈ pieces.head?, q.opens = true

section Parts

variable {scope : Option String} {l m : List Piece}

theorem Following.nil : Following [] :=
  ⟨.nil, by simp⟩

theorem Fitting.followed (hl : Fitting l) (hm : Following m) : Fitting (l ++ m) :=
  hl.append hm.toFitting (.inr hm.opens)

theorem Following.followed (hl : Following l) (hm : Following m) : Following (l ++ m) := by
  refine ⟨hl.toFitting.followed hm, ?_⟩
  cases l with
  | nil => exact hm.opens
  | cons p rest => exact hl.opens

/-- A text that stands free before pieces that fit. -/
theorem Following.text {s : String} (hopens : (Piece.text s).opens = true)
    (hplain : (Piece.text s).plain = true) (hcloses : (Piece.text s).closes = true)
    (hm : Fitting m) : Following (.text s :: m) :=
  ⟨hm.cons hplain hcloses, by simpa using hopens⟩

/-- A text that stands free at its start only. -/
theorem Following.last {s : String} (hopens : (Piece.text s).opens = true)
    (hplain : (Piece.text s).plain = true) : Following [.text s] :=
  ⟨.singleton hplain, by simpa using hopens⟩

theorem Fitting.name (s : String) : Fitting [.name s] :=
  .singleton rfl

theorem Fitting.param (v : Value) : Fitting [.param v] :=
  .singleton rfl

theorem Column.pieces_fit (c : Column) : Fitting (c.pieces scope) := by
  unfold Column.pieces
  split
  · exact (Fitting.name _).followed (.text rfl rfl rfl (.name _))
  · exact .name _

namespace Condition

theorem piecesAll_eq_map (items : List Condition) :
    piecesAll scope items = items.map (pieces scope) := by
  induction items with
  | nil => rfl
  | cons item rest ih => rw [piecesAll, ih, List.map_cons]

theorem truth_fits (value : Bool) : Fitting [.text (truth value)] :=
  .singleton (by cases value <;> rfl)

theorem group_fits {separator : String} {neutral : Bool} {groups : List (List Piece)}
    (h : ∀ g ∈ groups, Fitting g) (hplain : (Piece.text separator).plain = true)
    (hopens : (Piece.text separator).opens = true)
    (hcloses : (Piece.text separator).closes = true) :
    Fitting (group separator neutral groups) := by
  unfold group
  split
  · exact truth_fits neutral
  · exact h _ List.mem_cons_self
  · exact (Fitting.separated h hplain hopens hcloses).enclosed rfl rfl rfl rfl

/-- A list of values between commas. -/
theorem values_fit (values : List Value) :
    Fitting (separated ", " (values.map fun value => [.param value])) := by
  refine .separated (fun g hg => ?_) rfl rfl rfl
  obtain ⟨value, -, rfl⟩ := List.mem_map.mp hg
  exact .param value

theorem pieces_fit (c : Condition) : Fitting (c.pieces scope) := by
  induction c using induction with
  | compare column operator v =>
    have hvalue : Following [.text (" " ++ operator.symbol ++ " "), .param v] := by
      cases operator <;> exact .text rfl rfl rfl (.param v)
    unfold pieces
    refine column.pieces_fit.followed ?_
    split
    · exact .last rfl rfl
    · exact .last rfl rfl
    · exact hvalue
  | inList column values negated =>
    cases values with
    | nil => exact truth_fits negated
    | cons value rest =>
      have hopening (negated : Bool) :
          Following (.text (if negated then " NOT IN (" else " IN (") ::
            separated ", " ((value :: rest).map fun value => [.param value])) := by
        cases negated <;> exact .text rfl rfl rfl (values_fit _)
      rw [pieces]
      · exact (column.pieces_fit.followed (hopening negated)).followed (.last rfl rfl)
      · simp
  | isNull column negated =>
    rw [pieces]
    exact column.pieces_fit.followed (by cases negated <;> exact .last rfl rfl)
  | columnsEqual left right =>
    rw [pieces]
    exact left.pieces_fit.followed (.text rfl rfl rfl right.pieces_fit)
  | and items ih =>
    rw [pieces, piecesAll_eq_map]
    exact group_fits (by simpa using ih) rfl rfl rfl
  | or items ih =>
    rw [pieces, piecesAll_eq_map]
    exact group_fits (by simpa using ih) rfl rfl rfl
  | not c ih =>
    rw [pieces]
    exact ih.enclosed rfl rfl rfl rfl
  | literal truth => exact truth_fits truth

end Condition

theorem wherePieces_follow (scope : Option String) (conditions : List Condition) :
    Following (wherePieces scope conditions) := by
  cases conditions with
  | nil => exact .nil
  | cons c rest =>
    refine .text rfl rfl rfl (.separated (fun g hg => ?_) rfl rfl rfl)
    rw [Condition.piecesAll_eq_map] at hg
    obtain ⟨c, -, rfl⟩ := List.mem_map.mp hg
    exact c.pieces_fit

theorem orderPieces_follow (ordering : List (Column × Direction)) :
    Following (orderPieces scope ordering) := by
  cases ordering with
  | nil => exact .nil
  | cons key rest =>
    refine .text rfl rfl rfl (.separated (fun g hg => ?_) rfl rfl rfl)
    obtain ⟨⟨column, direction⟩, -, rfl⟩ := List.mem_map.mp hg
    exact column.pieces_fit.followed (by cases direction <;> exact .last rfl rfl)

theorem Projection.listPieces_fit (scope : Option String) (projections : List Projection) :
    Fitting (Projection.listPieces scope projections) := by
  cases projections with
  | nil => exact .singleton rfl
  | cons projection rest =>
    refine .separated (fun g hg => ?_) rfl rfl rfl
    obtain ⟨projection, -, rfl⟩ := List.mem_map.mp hg
    cases projection with
    | column column label =>
      cases label with
      | none => exact column.pieces_fit
      | some label => exact column.pieces_fit.followed (.text rfl rfl rfl (.name label))
    | everything tableAlias => exact (Fitting.name tableAlias).followed (.last rfl rfl)

end Parts

/-- A number behind a text that ends free is read into one word. -/
theorem run_number {front : String} (h : endsFree front.toList = true) (n : Nat) :
    Reading.run ([], .between) (front ++ toString n).toList =
      (lexemes front, .word (toString n).toList.reverse) := by
  have hfront : Reading.run ([], .between) front.toList = (lexemes front, .between) := by
    obtain ⟨out, r, hrun⟩ : ∃ out r, Reading.run ([], .between) front.toList = (out, r) := ⟨_, _, rfl⟩
    simp only [endsFree, readingAfter, hrun] at h
    cases r <;> simp_all [lexemes, lexemesOf, Reading.finish]
  have hnumber : (toString n).toList = Nat.toDigits 10 n := Nat.toList_repr
  have hdigit : ∀ c ∈ Nat.toDigits 10 n, c.isDigit = true := fun c hc =>
    Nat.isDigit_of_mem_toDigits (by decide) (by decide) hc
  rw [String.toList_append, hnumber, Reading.run, List.foldl_append]
  change Reading.run (Reading.run ([], .between) front.toList) _ = _
  rw [hfront]
  cases hdigits : Nat.toDigits 10 n with
  | nil => exact absurd hdigits Nat.toDigits_ne_nil
  | cons c rest =>
    rw [hdigits] at hdigit
    have hword : ∀ d ∈ c :: rest, isWordChar d = true := fun d hd => by
      simp [isWordChar, Char.isAlphanum, hdigit d hd]
    have hstart : Reading.step (lexemes front, .between) c = (lexemes front, .word [c]) := by
      have hc := hdigit c List.mem_cons_self
      have hquote : c ≠ '"' := by rintro rfl; cases hc
      have hdollar : c ≠ '$' := by rintro rfl; cases hc
      simp [Reading.step, Reading.goOn?, Reading.start, Reading.finish, hquote, hdollar,
        hword c List.mem_cons_self]
    have hgoOn : ∀ d ∈ rest, ∀ read, (Reading.word read).goOn? d = some (.word (d :: read)) :=
      fun d hd read => by simp [Reading.goOn?, hword d (List.mem_cons_of_mem _ hd)]
    change Reading.run (Reading.step (lexemes front, .between) c) rest = _
    rw [hstart, Reading.run_eq, run_of_goOn? hgoOn]
    simp

theorem lexemes_number {front : String} (h : endsFree front.toList = true) (n : Nat) :
    lexemes (front ++ toString n) = lexemes front ++ [.word (toString n)] := by
  rw [lexemes, lexemesOf, run_number h]
  simp only [Reading.finish, List.reverse_reverse, String.ofList_toList]

/-- A number behind a keyword and a blank. -/
theorem numberClause_follows {keyword : String} (number : Option Nat)
    (hends : endsFree (" " ++ keyword ++ " ").toList = true)
    (hplain : (lexemes (" " ++ keyword ++ " ")).all (·.number?.isNone) = true) :
    Following (numberClause keyword number) := by
  cases number with
  | none => exact .nil
  | some n =>
    refine .last ?_ ?_
    · simp only [Piece.opens, String.toList_append]
      rfl
    · simp only [Piece.plain, endsOutside, readingAfter, run_number hends, lexemes_number hends,
        List.all_append, hplain]
      rfl

namespace Select

/-- The joins of a statement fit behind what it reads from. -/
theorem joins_follow (scope : Option String) {joins : List Join}
    (h : ∀ j ∈ joins, ∀ q ∈ j.target.nested, Fitting q.pieces) :
    Following (Join.listPieces scope joins) := by
  induction joins with
  | nil => exact .nil
  | cons j rest ih =>
    obtain ⟨kind, target, tableAlias, on⟩ := j
    have htarget : Fitting target.pieces := by
      cases target with
      | table table => exact .name table
      | lateral query =>
        refine Fitting.enclosed ?_ rfl rfl rfl rfl
        exact h _ List.mem_cons_self query List.mem_cons_self
    have hkeyword : Following (.text " " :: .text kind.keyword :: .text " " :: target.pieces) := by
      refine .text rfl rfl rfl ?_
      cases kind <;> exact (Fitting.singleton rfl).followed (.text rfl rfl rfl htarget)
    have hon : Following (.text " AS " :: .name tableAlias :: .text " ON " :: on.pieces scope) :=
      .text rfl rfl rfl ((Fitting.name _).followed (.text rfl rfl rfl on.pieces_fit))
    exact (hkeyword.followed hon).followed (ih fun j hj => h j (List.mem_cons_of_mem _ hj))

/-- The pieces of a statement fit, whatever it nests. -/
theorem pieces_fit (s : Select) : Fitting s.pieces := by
  induction s using Select.induction with
  | nest s ih =>
    obtain ⟨source, projections, joins, conditions, ordering, limit, offset⟩ := s
    have hsource : Fitting source.pieces := by
      cases source with
      | table table tableAlias =>
        exact (Fitting.name table).followed (.text rfl rfl rfl (.name tableAlias))
      | derived query tableAlias =>
        have hquery : Fitting query.pieces := ih query (List.mem_append_left _ List.mem_cons_self)
        exact (hquery.cons rfl rfl).followed (.text rfl rfl rfl (.name tableAlias))
    have hjoins := joins_follow (some source.tableAlias) fun j hj q hq =>
      ih q (List.mem_append_right _ (List.mem_flatMap.mpr ⟨j, hj, hq⟩))
    have hfront := (Projection.listPieces_fit (some source.tableAlias) projections).cons
      (p := .text "SELECT ") rfl rfl
    have hfrom : Following (.text " FROM " :: source.pieces) := .text rfl rfl rfl hsource
    exact (((((hfront.followed hfrom).followed hjoins).followed (wherePieces_follow _ conditions)).followed
      (orderPieces_follow ordering)).followed (numberClause_follows limit rfl rfl)).followed
      (numberClause_follows offset rfl rfl)

end Select

/-- What a writing statement ends in. -/
theorem returning_follows : Following [.text " RETURNING *"] :=
  .last rfl rfl

namespace Insertion

theorem nameList_fits (names : List String) : Fitting (nameList names) := by
  refine .separated (fun g hg => ?_) rfl rfl rfl
  obtain ⟨name, -, rfl⟩ := List.mem_map.mp hg
  exact .name name

theorem tuple_fits (columns : List String) (row : Values) : Fitting (tuple columns row) := by
  refine Fitting.enclosed (.separated (fun g hg => ?_) rfl rfl rfl) rfl rfl rfl rfl
  obtain ⟨column, -, rfl⟩ := List.mem_map.mp hg
  unfold cell
  split
  · exact .param _
  · exact .singleton rfl

theorem pieces_fit {s : Insertion} {pieces : List Piece} (h : s.pieces = .ok pieces) :
    Fitting pieces := by
  unfold Insertion.pieces at h
  split at h
  · cases h
  split at h
  · split at h
    · cases h
    cases h
    exact ((Fitting.name s.table).followed (.last rfl rfl)).cons rfl rfl
  · cases h
    have hrows : Fitting (separated ", " (s.rows.map (tuple s.columns))) := by
      refine .separated (fun g hg => ?_) rfl rfl rfl
      obtain ⟨row, -, rfl⟩ := List.mem_map.mp hg
      exact tuple_fits s.columns row
    have hcolumns : Following (.text " (" :: nameList s.columns) :=
      .text rfl rfl rfl (nameList_fits s.columns)
    have htable := ((Fitting.name s.table).followed hcolumns).cons (p := .text "INSERT INTO ") rfl rfl
    exact htable.followed (.text rfl rfl rfl hrows)

end Insertion

/-- What an upsert does on conflict fits behind what it inserts. -/
theorem Upsert.pieces_fit {inserted : List Piece} {conflict assigned : List String}
    (h : Fitting inserted) : Fitting (inserted ++ .text " ON CONFLICT (" :: Insertion.nameList conflict
      ++ .text ") DO UPDATE SET " :: separated ", " (assigned.map fun column =>
        [.name column, .text " = EXCLUDED.", .name column])
      ++ [.text " RETURNING *"]) := by
  have hassigned : Fitting (separated ", " (assigned.map fun column =>
      [.name column, .text " = EXCLUDED.", .name column])) := by
    refine .separated (fun g hg => ?_) rfl rfl rfl
    obtain ⟨column, -, rfl⟩ := List.mem_map.mp hg
    exact (Fitting.name column).followed (.text rfl rfl rfl (.name column))
  have hconflict : Following (.text " ON CONFLICT (" :: Insertion.nameList conflict) :=
    .text rfl rfl rfl (Insertion.nameList_fits conflict)
  exact ((h.followed hconflict).followed (.text rfl rfl rfl hassigned)).followed returning_follows

theorem Update.pieces_fit (s : Update) : Fitting (.text "UPDATE " :: .name s.table :: .text " SET "
    :: separated ", " (s.values.entries.map fun (column, value) =>
      [.name column, .text " = ", .param value])
    ++ wherePieces none s.conditions ++ [.text " RETURNING *"]) := by
  have hassigned : Fitting (separated ", " (s.values.entries.map fun (column, value) =>
      [Piece.name column, .text " = ", .param value])) := by
    refine .separated (fun g hg => ?_) rfl rfl rfl
    obtain ⟨⟨column, value⟩, -, rfl⟩ := List.mem_map.mp hg
    exact (Fitting.name column).followed (.text rfl rfl rfl (.param value))
  have htable := ((Fitting.name s.table).followed (.text (s := " SET ") rfl rfl rfl hassigned)).cons
    (p := .text "UPDATE ") rfl rfl
  exact (htable.followed (wherePieces_follow none s.conditions)).followed returning_follows

theorem Deletion.pieces_fit (s : Deletion) : Fitting (.text "DELETE FROM " :: .name s.table
    :: wherePieces none s.conditions ++ [.text " RETURNING *"]) := by
  have htable := ((Fitting.name s.table).followed (wherePieces_follow none s.conditions)).cons
    (p := .text "DELETE FROM ") rfl rfl
  exact htable.followed returning_follows

theorem RowCount.pieces_fit (s : RowCount) :
    Fitting (.text "SELECT count(*) AS \"count\" FROM " :: .name s.table
      :: wherePieces none s.conditions) :=
  ((Fitting.name s.table).followed (wherePieces_follow none s.conditions)).cons rfl rfl

theorem RowProbe.pieces_fit (s : RowProbe) :
    Fitting (.text "SELECT EXISTS (SELECT 1 FROM " :: .name s.table
      :: wherePieces none s.conditions ++ [.text ") AS \"exists\""]) := by
  have htable := ((Fitting.name s.table).followed (wherePieces_follow none s.conditions)).cons
    (p := .text "SELECT EXISTS (SELECT 1 FROM ") rfl rfl
  exact htable.followed (.last rfl rfl)

end EagerLoad.Sql
