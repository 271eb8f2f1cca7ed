import EagerLoad.Proofs.Sql.Conditions

/-!
# Rendering is faithful

The reader recovers the normal form of every statement from its text and parameters, whatever names hold
and however statements and conditions nest. So two statements are written alike exactly if they have the
same normal form.
-/

namespace EagerLoad.Sql

/-- Clauses that stand in lexemes, without anything before the first. -/
structure ReadsClauses (ls : List Lexeme) (found : List (String × List Item)) : Prop where
  balanced : Balanced ls
  clauses : clauses (itemsOf ls) = ([], found)

/-- A clause that may be missing. -/
def optionalClause (keyword : String) (content : Option (List Item)) : List (String × List Item) :=
  content.toList.map fun items => (keyword, items)

theorem lookup_optionalClause (keyword sought : String) (content : Option (List Item)) :
    (optionalClause keyword content).lookup sought = if sought = keyword then content else none := by
  cases content with
  | none => simp [optionalClause]
  | some items =>
    by_cases h : sought = keyword
    · simp [optionalClause, h]
    · have hne : (sought == keyword) = false := by simpa using h
      simp [optionalClause, List.lookup_cons, h, hne]

theorem clauses_append {items later : List Item} {found : List (String × List Item)}
    (h : clauses later = ([], found)) :
    clauses (items ++ later) = ((clauses items).1, (clauses items).2 ++ found) := by
  induction items with
  | nil => simpa [clauses] using h
  | cons i rest ih =>
    simp only [List.cons_append, clauses, ih]
    cases i.clause? <;> simp

theorem clauses_eq_nil {items : List Item} (h : ∀ i ∈ items, i.clause? = none) :
    clauses items = (items, []) := by
  induction items with
  | nil => rfl
  | cons i rest ih =>
    simp [clauses, h i List.mem_cons_self, ih fun i hi => h i (List.mem_cons_of_mem _ hi)]

namespace ReadsClauses

variable {l m : List Lexeme} {found later : List (String × List Item)}

theorem nil : ReadsClauses [] [] := ⟨.nil, rfl⟩

theorem append (hl : ReadsClauses l found) (hm : ReadsClauses m later) :
    ReadsClauses (l ++ m) (found ++ later) := by
  refine ⟨hl.balanced.append hm.balanced, ?_⟩
  rw [hl.balanced.itemsOf_append hm.balanced, clauses_append hm.clauses, hl.clauses]

/-- A keyword with what follows. -/
theorem clause (keyword : String) (hkeyword : keyword ∈ Item.clauseWords) (hl : Balanced l)
    (hnone : ∀ i ∈ itemsOf l, i.clause? = none) :
    ReadsClauses (.word keyword :: l) [(keyword, itemsOf l)] := by
  have hword : Balanced [.word keyword] := fun _ _ => rfl
  refine ⟨hword.append hl, ?_⟩
  have hitems : itemsOf ([.word keyword] ++ l) = .token (.word keyword) :: itemsOf l :=
    hword.itemsOf_append hl
  rw [← List.singleton_append, hitems]
  simp [Sql.clauses, Item.clause?, hkeyword, clauses_eq_nil hnone]

end ReadsClauses

section Clauses

variable {a : String}

theorem Projection.reads_listPieces (projections : List Projection) :
    Balanced (tokens (listPieces (some a) projections)) ∧
      (∀ i ∈ itemsOf (tokens (listPieces (some a) projections)), i.clause? = none) ∧
      readProjections (itemsOf (tokens (listPieces (some a) projections))) =
        some (projections.map (·.qualified a)) := by
  cases projections with
  | nil =>
    have hitems : itemsOf (tokens (listPieces (some a) [])) = [.token (.mark '*')] := rfl
    refine ⟨fun _ _ => rfl, ?_, rfl⟩
    rw [hitems]
    decide
  | cons p rest =>
    obtain ⟨hbalanced, hclause, hread⟩ := reads_commas (List.cons_ne_nil p rest)
      fun q _ => q.reads (a := a)
    rw [listPieces, tokens_separated lexemes_comma, List.map_map]
    · refine ⟨hbalanced, hclause, ?_⟩
      -- A star by itself would not be read as a projection.
      unfold readProjections
      split
      · rename_i hstar
        rw [Function.comp_def] at hstar
        rw [hstar] at hread
        cases hread
      · exact hread
    · simp

theorem reads_where (conditions : List Condition) :
    ∃ content, ReadsClauses (tokens (wherePieces (some a) conditions))
        (optionalClause "WHERE" content) ∧
      readClause readConditions [] content = some (conditions.map (·.normal a)) := by
  cases conditions with
  | nil => exact ⟨none, .nil, rfl⟩
  | cons c rest =>
    have hreads : ∀ d ∈ c :: rest, Reads readFactor (tokens (d.pieces (some a))) (d.normal a) :=
      fun d _ => d.reads
    have hbalanced := (Balanced.intercalate (l := .word "AND") (fun _ _ => rfl) rfl
      fun d hd => (hreads d hd).balanced).1
    have hclause := forall_separated (l := .word "AND") (P := fun i => i.clause? = none)
      (fun _ _ => rfl) rfl rfl (fun _ hi => (Item.solid_iff.mp hi).2.2.2) hreads
    have hpieces : tokens (wherePieces (some a) (c :: rest)) = .word "WHERE" ::
        [.word "AND"].intercalate ((c :: rest).map fun d => tokens (d.pieces (some a))) := by
      rw [wherePieces, tokens_cons, tokens_separated lexemes_and, Condition.piecesAll_eq_map,
        List.map_map]
      · rfl
      · simp
    rw [hpieces]
    exact ⟨some _, .clause _ (by decide) hbalanced hclause, readConditions_separated (by simp) hreads⟩

theorem reads_order (ordering : List (Column × Direction)) :
    ∃ content, ReadsClauses (tokens (orderPieces (some a) ordering))
        (optionalClause "ORDER" content) ∧
      readClause readOrdering [] content =
        some (ordering.map fun (column, direction) => (column.qualified a, direction)) := by
  cases ordering with
  | nil => exact ⟨none, .nil, rfl⟩
  | cons key rest =>
    obtain ⟨hbalanced, hclause, hread⟩ := reads_commas (List.cons_ne_nil key rest)
      fun key _ => reads_sortKey (a := a) key.1 key.2
    have hby : Balanced [.word "BY"] := fun _ _ => rfl
    have hpieces : tokens (orderPieces (some a) (key :: rest)) = .word "ORDER" :: ([.word "BY"] ++
        [.mark ','].intercalate ((key :: rest).map fun key =>
          tokens (key.1.pieces (some a) ++ [.text (" " ++ key.2.keyword)]))) := by
      rw [orderPieces, tokens_cons, tokens_separated lexemes_comma, List.map_map]
      · rfl
      · simp
    have hitems := hby.itemsOf_append hbalanced
    rw [hpieces]
    refine ⟨some _, .clause _ (by decide) (hby.append hbalanced) ?_, ?_⟩
    · rw [hitems]
      intro i hi
      rcases List.mem_append.mp hi with hi | hi
      · obtain rfl : i = .token (.word "BY") := List.mem_singleton.mp hi
        rfl
      · exact hclause i hi
    · rw [hitems]
      exact hread

/-- No keyword of a clause is a number. -/
theorem toString_not_mem_clauseWords (n : Nat) : toString n ∉ Item.clauseWords := by
  have hwords : ∀ word ∈ Item.clauseWords, word.toList.all Char.isDigit = false := by decide
  have hdigits : (toString n).toList.all Char.isDigit = true := by
    have hnumber : (toString n).toList = Nat.toDigits 10 n := Nat.toList_repr
    rw [hnumber, List.all_eq_true]
    exact fun c hc => Nat.isDigit_of_mem_toDigits (by decide) (by decide) hc
  intro hmem
  rw [hwords _ hmem] at hdigits
  cases hdigits

theorem reads_number (keyword : String) (hkeyword : keyword ∈ Item.clauseWords)
    (hlexemes : lexemes (" " ++ keyword ++ " ") = [.word keyword])
    (hends : endsFree (" " ++ keyword ++ " ").toList = true) (number : Option Nat) :
    ∃ content, ReadsClauses (tokens (numberClause keyword number)) (optionalClause keyword content) ∧
      readClause readBound none content = some number := by
  cases number with
  | none => exact ⟨none, .nil, rfl⟩
  | some n =>
    have hpieces : tokens (numberClause keyword (some n)) = .word keyword :: [.word (toString n)] := by
      rw [numberClause, tokens_cons, Piece.lexemes, lexemes_number hends, hlexemes]
      rfl
    have hitems : itemsOf [.word (toString n)] = [.token (.word (toString n))] := rfl
    rw [hpieces]
    refine ⟨some _, .clause keyword hkeyword (fun _ _ => rfl) ?_, ?_⟩
    · rw [hitems]
      intro i hi
      obtain rfl := List.mem_singleton.mp hi
      simp only [Item.clause?, toString_not_mem_clauseWords, if_false]
    · have hnumber : (toString n).toNat? = some n := Nat.toNat?_repr n
      rw [hitems]
      simp only [readClause, readBound, readNumber, hnumber, Option.map_some]

/-- What a statement reads from is read back, if the statement that it nests is. -/
theorem Source.reads (source : Source)
    (h : ∀ q ∈ source.nested, Balanced (tokens q.pieces) ∧
      readSelect (itemsOf (tokens q.pieces)) = some q.normal) :
    Reads readSource (tokens source.pieces) source.normal := by
  cases source with
  | table table tableAlias => exact ⟨fun _ _ => rfl, rfl, rfl⟩
  | derived query tableAlias =>
    obtain ⟨hbalanced, hread⟩ := h query List.mem_cons_self
    obtain ⟨hgroup, hitems⟩ := hbalanced.enclosed
    have hlater : Balanced [.word "AS", .name tableAlias] := fun _ _ => rfl
    have hall := hgroup.itemsOf_append hlater
    rw [hitems, hread] at hall
    have hpieces : tokens (Source.derived query tableAlias).pieces =
        .mark '(' :: (tokens query.pieces ++ [.mark ')']) ++ [.word "AS", .name tableAlias] := by
      have hopen : (Piece.text "(").lexemes = [.mark '('] := rfl
      have hclose : tokens [.text ") AS ", .name tableAlias] =
          [.mark ')', .word "AS", .name tableAlias] := rfl
      rw [pieces, tokens_append, tokens_cons, hopen, hclose]
      simp
    rw [hpieces]
    exact ⟨hgroup.append hlater, by rw [hall]; rfl, by rw [hall]; rfl⟩

/-- The first word of a kind of join. -/
def JoinKind.word : JoinKind → String
  | .inner => "INNER"
  | .left => "LEFT"

/-- A join behind the first word of its kind is read back, if the statement that it nests is. -/
theorem Join.reads (kind : JoinKind) {target : JoinTarget} (tableAlias : String) (on : Condition)
    (h : ∀ q ∈ target.nested, Balanced (tokens q.pieces) ∧
      readSelect (itemsOf (tokens q.pieces)) = some q.normal) :
    Reads (readJoin kind) (.word "JOIN" :: tokens target.pieces ++
        ([.word "AS", .name tableAlias, .word "ON"] ++ tokens (on.pieces (some a))))
      ⟨kind, target.normal, tableAlias, on.normal a⟩ := by
  have hcondition := on.reads (a := a)
  have halias : Balanced [.word "AS", .name tableAlias, .word "ON"] := fun _ _ => rfl
  have hlater := halias.itemsOf_append hcondition.balanced
  cases target with
  | table table =>
    have hfront : Balanced (.word "JOIN" :: tokens (JoinTarget.table table).pieces) := fun _ _ => rfl
    have hall := hfront.itemsOf_append (halias.append hcondition.balanced)
    rw [hlater] at hall
    refine ⟨hfront.append (halias.append hcondition.balanced), ?_, ?_⟩
    · rw [hall, List.all_append, List.all_append, hcondition.solid]
      rfl
    · rw [hall]
      exact congrArg (Option.map _) hcondition.condition
  | lateral query =>
    obtain ⟨hbalanced, hread⟩ := h query List.mem_cons_self
    obtain ⟨hgroup, hitems⟩ := hbalanced.enclosed
    have hwords : Balanced [.word "JOIN", .word "LATERAL"] := fun _ _ => rfl
    have hfront := hwords.append hgroup
    have hall := hfront.itemsOf_append (halias.append hcondition.balanced)
    rw [hlater, hwords.itemsOf_append hgroup, hitems, hread] at hall
    have hpieces : .word "JOIN" :: tokens (JoinTarget.lateral query).pieces =
        [.word "JOIN", .word "LATERAL"] ++ .mark '(' :: (tokens query.pieces ++ [.mark ')']) := by
      have hopen : (Piece.text "LATERAL (").lexemes = [.word "LATERAL", .mark '('] := rfl
      have hclose : tokens [.text ")"] = [.mark ')'] := rfl
      rw [JoinTarget.pieces, tokens_append, tokens_cons, hopen, hclose]
      simp
    rw [hpieces]
    refine ⟨hfront.append (halias.append hcondition.balanced), ?_, ?_⟩
    · rw [hall, List.all_append, List.all_append, List.all_append, hcondition.solid]
      rfl
    · rw [hall]
      exact congrArg (Option.map _) hcondition.condition

/-- The joins of a statement are read back, if the statements that they nest are. -/
theorem reads_joins (joins : List Join)
    (h : ∀ j ∈ joins, ∀ q ∈ j.target.nested, Balanced (tokens q.pieces) ∧
      readSelect (itemsOf (tokens q.pieces)) = some q.normal) :
    ∃ found, ReadsClauses (tokens (Join.listPieces (some a) joins)) found ∧
      (∀ clause ∈ found, clause.1 = "INNER" ∨ clause.1 = "LEFT") ∧
      readEach (fun clause => readJoin clause.1 clause.2) (found.filterMap joinClause?) =
        some (Join.normalAll a joins) := by
  induction joins with
  | nil => exact ⟨[], .nil, by simp, rfl⟩
  | cons j rest ih =>
    obtain ⟨kind, target, tableAlias, on⟩ := j
    have htarget : ∀ q ∈ target.nested, Balanced (tokens q.pieces) ∧
        readSelect (itemsOf (tokens q.pieces)) = some q.normal := h _ List.mem_cons_self
    obtain ⟨hbalanced, hsolid, hread⟩ := Join.reads (a := a) kind tableAlias on htarget
    obtain ⟨found, hfound, hkeys, hjoins⟩ := ih fun j hj => h j (List.mem_cons_of_mem _ hj)
    have hclause := ReadsClauses.clause kind.word (by cases kind <;> decide) hbalanced
      fun i hi => (Item.solid_iff.mp (List.all_eq_true.mp hsolid i hi)).2.2.2
    have hpieces : tokens (Join.listPieces (some a) (⟨kind, target, tableAlias, on⟩ :: rest)) =
        .word kind.word :: (.word "JOIN" :: tokens target.pieces ++
          ([.word "AS", .name tableAlias, .word "ON"] ++ tokens (on.pieces (some a)))) ++
            tokens (Join.listPieces (some a) rest) := by
      have hfront : tokens (.text " " :: .text kind.keyword :: .text " " :: target.pieces) =
          .word kind.word :: .word "JOIN" :: tokens target.pieces := by cases kind <;> rfl
      have hlater : tokens (.text " AS " :: .name tableAlias :: .text " ON " :: on.pieces (some a)) =
          [.word "AS", .name tableAlias, .word "ON"] ++ tokens (on.pieces (some a)) := rfl
      rw [Join.listPieces, tokens_append, tokens_append, hfront, hlater]
      rfl
    rw [hpieces]
    refine ⟨_, hclause.append hfound, ?_, ?_⟩
    · intro clause hmem
      rcases List.mem_append.mp hmem with hmem | hmem
      · obtain rfl := List.mem_singleton.mp hmem
        cases kind <;> simp [JoinKind.word]
      · exact hkeys clause hmem
    · have hkind (items : List Item) : joinClause? (kind.word, items) = some (kind, items) := by
        cases kind <;> rfl
      rw [List.filterMap_append, List.filterMap_cons_some (hkind _), List.filterMap_nil,
        List.singleton_append]
      exact readEach_cons hread hjoins

end Clauses

/-- Every clause of a statement is found under its keyword. -/
theorem readSelect_of_clauses {items selected read : List Item} {found : List (String × List Item)}
    {filter keys most skipped : Option (List Item)}
    (hkeys : ∀ clause ∈ found, clause.1 = "INNER" ∨ clause.1 = "LEFT")
    (h : clauses items = ([], [("SELECT", selected)] ++ [("FROM", read)] ++ found ++
      optionalClause "WHERE" filter ++ optionalClause "ORDER" keys ++ optionalClause "LIMIT" most ++
      optionalClause "OFFSET" skipped)) :
    readSelect items = do
      let projections ← readProjections selected
      let source ← readSource read
      let joins ← readEach (fun clause => readJoin clause.1 clause.2) (found.filterMap joinClause?)
      let conditions ← readClause readConditions [] filter
      let ordering ← readClause readOrdering [] keys
      let limit ← readClause readBound none most
      let offset ← readClause readBound none skipped
      return ⟨source, projections, joins, conditions, ordering, limit, offset⟩ := by
  have hlookup : ∀ keyword, keyword ≠ "INNER" → keyword ≠ "LEFT" → found.lookup keyword = none := by
    intro keyword hinner hleft
    refine List.lookup_eq_none_iff.mpr fun clause hclause => bne_iff_ne.mpr ?_
    rcases hkeys clause hclause with hkey | hkey <;> rw [hkey] <;> assumption
  have hkinds (content : Option (List Item)) (keyword : String) (hinner : keyword ≠ "INNER")
      (hleft : keyword ≠ "LEFT") : (optionalClause keyword content).filterMap joinClause? = [] := by
    cases content with
    | none => rfl
    | some items => simp [optionalClause, joinClause?, hinner, hleft]
  generalize hfull : [("SELECT", selected)] ++ [("FROM", read)] ++ found ++
    optionalClause "WHERE" filter ++ optionalClause "ORDER" keys ++ optionalClause "LIMIT" most ++
    optionalClause "OFFSET" skipped = full at h
  have hselect : full.lookup "SELECT" = some selected := by rw [← hfull]; rfl
  have hfrom : full.lookup "FROM" = some read := by rw [← hfull]; rfl
  have hwhere : full.lookup "WHERE" = filter := by
    simp [← hfull, List.lookup_append, List.lookup_cons, lookup_optionalClause, hlookup]
  have horder : full.lookup "ORDER" = keys := by
    simp [← hfull, List.lookup_append, List.lookup_cons, lookup_optionalClause, hlookup]
  have hlimit : full.lookup "LIMIT" = most := by
    simp [← hfull, List.lookup_append, List.lookup_cons, lookup_optionalClause, hlookup]
  have hoffset : full.lookup "OFFSET" = skipped := by
    simp [← hfull, List.lookup_append, List.lookup_cons, lookup_optionalClause, hlookup]
  have hjoins : full.filterMap joinClause? = found.filterMap joinClause? := by
    simp [← hfull, hkinds, joinClause?]
  simp only [readSelect, h, hselect, hfrom, hwhere, horder, hlimit, hoffset, hjoins]
  rfl

/-- A statement is read back in its normal form, whatever it nests. -/
theorem Select.reads (s : Select) :
    Balanced (tokens s.pieces) ∧ readSelect (itemsOf (tokens s.pieces)) = some s.normal := by
  induction s using Select.induction with
  | nest s ih =>
    obtain ⟨source, projections, joins, conditions, ordering, limit, offset⟩ := s
    obtain ⟨hprojections, hnone, hselected⟩ :=
      Projection.reads_listPieces (a := source.tableAlias) projections
    have hselect := ReadsClauses.clause "SELECT" (by decide) hprojections hnone
    have hsource := Source.reads source fun q hq => ih q (List.mem_append_left _ hq)
    have hfrom := ReadsClauses.clause "FROM" (by decide) hsource.balanced
      fun i hi => (Item.solid_iff.mp (hsource.solid_of_mem hi)).2.2.2
    obtain ⟨found, hjoins, hkeys, hjoined⟩ := reads_joins (a := source.tableAlias) joins
      fun j hj q hq => ih q (List.mem_append_right _ (List.mem_flatMap.mpr ⟨j, hj, hq⟩))
    obtain ⟨filter, hwhere, hconditions⟩ := reads_where (a := source.tableAlias) conditions
    obtain ⟨keys, horder, hordering⟩ := reads_order (a := source.tableAlias) ordering
    obtain ⟨most, hlimit, hmost⟩ := reads_number "LIMIT" (by decide) rfl rfl limit
    obtain ⟨skipped, hoffset, hskipped⟩ := reads_number "OFFSET" (by decide) rfl rfl offset
    have hall := (((((hselect.append hfrom).append hjoins).append hwhere).append horder).append
      hlimit).append hoffset
    have hpieces : tokens (Select.pieces ⟨source, projections, joins, conditions, ordering, limit,
        offset⟩) = .word "SELECT" :: tokens (Projection.listPieces (some source.tableAlias) projections)
          ++ .word "FROM" :: tokens source.pieces
          ++ tokens (Join.listPieces (some source.tableAlias) joins)
          ++ tokens (wherePieces (some source.tableAlias) conditions)
          ++ tokens (orderPieces (some source.tableAlias) ordering)
          ++ tokens (numberClause "LIMIT" limit) ++ tokens (numberClause "OFFSET" offset) := by
      simp only [Select.pieces, tokens_append, tokens_cons]
      rfl
    rw [hpieces]
    refine ⟨hall.balanced, ?_⟩
    rw [readSelect_of_clauses hkeys hall.clauses, hselected, hsource.reads, hjoined, hconditions,
      hordering, hmost, hskipped]
    rfl

/-- Reading the text and the parameters of a statement gives its normal form, and two statements have the
same text and parameters exactly if they have the same normal form. -/
theorem read_render (s : Select) :
    Select.read s.render = some s.normal ∧ ∀ t : Select, t.render = s.render ↔ t.normal = s.normal := by
  have hread (s : Select) : Select.read s.render = some s.normal := by
    obtain ⟨hbalanced, hread⟩ := s.reads
    have hlexemes : (lexemes s.render.sql).map (Lexeme.bind s.render.params) = tokens s.pieces := by
      rw [Select.render, Query.ofPieces, lexemes_writeFrom s.pieces_fit, Piece.params_writeFrom]
      exact bind_lexemesFrom [] s.pieces_fit.plain
    rw [Select.read, hlexemes, hbalanced]
    simpa using hread
  refine ⟨hread s, fun t => ⟨fun heq => ?_, fun heq => ?_⟩⟩
  · have hsame := hread t
    rw [heq, hread s] at hsame
    exact (Option.some.inj hsame).symm
  · rw [Select.render, Select.render, ← t.pieces_normal, ← s.pieces_normal, heq]

/-- A text that no statement is written to, read by the precedence of its connectives. -/
example : Select.read ⟨"SELECT * FROM \"a\"\"\" AS \"t\" " ++
    "WHERE NOT \"t\".\"$1\" = $1 AND TRUE OR \"t\".\" OR \" IS NULL", [.bool true]⟩ =
    some { source := .table "a\"" "t", conditions := [.or [.and [.not (.compare (.of "t" "$1") .equal
      (.bool true)), .literal true], .isNull (.of "t" " OR ") false]] } := by
  cbv

end EagerLoad.Sql
