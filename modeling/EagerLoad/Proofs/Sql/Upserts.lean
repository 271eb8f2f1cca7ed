import EagerLoad.Proofs.Maps
import EagerLoad.Proofs.Names
import EagerLoad.Proofs.Sql.Balance
import EagerLoad.Sql.Write
import Mathlib.Data.List.Sort

/-!
# What an upsert overwrites

The text of an upsert is split at its parentheses and read part by part: the header, what each row
proposes, the columns in conflict and the assignments. Assignments are written once for all rows, so a row
in conflict is overwritten in every column that some row supplies: with its own values where it supplies
one, and with defaults where only other rows do.
-/

namespace EagerLoad.Sql

/-- What a row proposes for a column. -/
inductive Proposal where
  | default
  | value (v : Value)

/-- What the text of an insert says. -/
structure InsertText where
  table : String
  columns : List String
  /-- What each row proposes for the columns. -/
  tuples : List (List Proposal)

/-- What the text of an upsert says. -/
structure UpsertText where
  insert : InsertText
  conflict : List String
  /-- The columns that are overwritten on conflict, each with the column of the proposed row. -/
  assigned : List (String × String)

namespace Lexeme

/-- Whether the lexeme is a parenthesis. -/
def isParenthesis : Lexeme → Bool
  | .mark c => c = '(' || c = ')'
  | _ => false

/-- Whether the lexeme is a comma. -/
def isComma : Lexeme → Bool
  | .mark c => c = ','
  | _ => false

/-- Whether the lexeme is a certain keyword. -/
def isWord (keyword : String) : Lexeme → Bool
  | .word text => text = keyword
  | _ => false

end Lexeme

/-- An identifier. -/
def readName : List Lexeme → Option String
  | [.name text] => some text
  | _ => none

/-- A value to insert. -/
def readProposal : List Lexeme → Option Proposal
  | [.word "DEFAULT"] => some .default
  | [.word "NULL"] => some (.value .null)
  | [.value v] => some (.value v)
  | _ => none

/-- An assignment of a column of the proposed row. -/
def readAssignment : List Lexeme → Option (String × String)
  | [.name column, .operator "=", .word "EXCLUDED", .mark '.', .name proposed] => some (column, proposed)
  | _ => none

/-- Lexemes with commas between them. -/
def readList {α : Type} (read : List Lexeme → Option α) (ls : List Lexeme) : Option (List α) :=
  readEach read (ls.splitOnP Lexeme.isComma)

/-- Further rows behind a comma, and what follows them. -/
def readTuples : List (List Lexeme) → Option (List (List Proposal) × List (List Lexeme))
  | [.mark ','] :: entries :: rest => do
    let tuple ← readList readProposal entries
    let (tuples, after) ← readTuples rest
    return (tuple :: tuples, after)
  | rest => some ([], rest)

/-- An insert at the front of what stands between parentheses, and what follows it. -/
def readInsert : List (List Lexeme) → Option (InsertText × List (List Lexeme))
  | [.word "INSERT", .word "INTO", .name table] :: names :: [.word "VALUES"] :: entries :: rest => do
    let columns ← readList readName names
    let tuple ← readList readProposal entries
    let (tuples, after) ← readTuples rest
    return (⟨table, columns, tuple :: tuples⟩, after)
  | (.word "INSERT" :: .word "INTO" :: .name table :: .word "DEFAULT" :: .word "VALUES" :: rest) ::
      after => some (⟨table, [], [[]]⟩, rest :: after)
  | _ => none

/-- What an upsert does on conflict. -/
def readConflict : List (List Lexeme) → Option (List String × List (String × String))
  | [[.word "ON", .word "CONFLICT"], names, .word "DO" :: .word "UPDATE" :: .word "SET" :: rest] =>
    match rest.splitOnP (Lexeme.isWord "RETURNING") with
    | [assignments, [.mark '*']] => do
      let conflict ← readList readName names
      let assigned ← readList readAssignment assignments
      return (conflict, assigned)
    | _ => none
  | _ => none

/-- The upsert of a text with its parameters. -/
def UpsertText.read (q : Query) : Option UpsertText := do
  let ls := (lexemes q.sql).map (Lexeme.bind q.params)
  let (insert, rest) ← readInsert (ls.splitOnP Lexeme.isParenthesis)
  let (conflict, assigned) ← readConflict rest
  return ⟨insert, conflict, assigned⟩

namespace UpsertText

variable (t : UpsertText)

/-- The columns that are overwritten in a row in conflict. -/
def targets : List String :=
  t.assigned.map (·.1)

/-- What a proposed row holds in a column; what is not inserted is the default. -/
def proposed (tuple : List Proposal) (column : String) : Proposal :=
  ((t.insert.columns.zip tuple).lookup column).getD .default

/-- What each row overwrites if it is in conflict, by column. -/
def overwrites : List (List (String × Proposal)) :=
  t.insert.tuples.map fun tuple =>
    t.assigned.map fun (column, source) => (column, t.proposed tuple source)

end UpsertText

/-- What a row proposes for a column: its value, or the default if it has none. -/
def Values.proposal (row : Values) (column : String) : Proposal :=
  match row.get? column with
  | some v => .value v
  | none => .default

section Reading

variable {α β : Type}

/-- What neither the separator nor any item is does not occur in a separated list. -/
theorem forall_mem_intercalate {p : α → Bool} {a : α} (ha : p a = false) {groups : List (List α)}
    (h : ∀ g ∈ groups, ∀ b ∈ g, p b = false) : ∀ b ∈ [a].intercalate groups, p b = false := by
  induction groups with
  | nil => simp
  | cons g rest ih =>
    have hg := h g List.mem_cons_self
    have hrest := ih fun g hg => h g (List.mem_cons_of_mem _ hg)
    cases rest with
    | nil => simpa using hg
    | cons g' rest =>
      rw [List.intercalate_cons_cons]
      intro b hb
      simp only [List.mem_append, List.mem_singleton] at hb
      rcases hb with (hb | rfl) | hb
      · exact hg b hb
      · exact ha
      · exact hrest b hb

/-- What is not split in front joins the first part. -/
theorem splitOnP_append {p : α → Bool} {front back first : List α} {later : List (List α)}
    (hfront : ∀ a ∈ front, p a = false) (hback : back.splitOnP p = first :: later) :
    (front ++ back).splitOnP p = (front ++ first) :: later := by
  induction front with
  | nil => exact hback
  | cons a rest ih =>
    obtain ⟨ha, hrest⟩ := List.forall_mem_cons.mp hfront
    rw [List.cons_append, List.splitOnP_cons_eq_if_modifyHead, ih hrest, ha]
    rfl

theorem readList_intercalate {read : List Lexeme → Option β} {f : α → List Lexeme} {g : α → β}
    {xs : List α} (hne : xs ≠ []) (hcomma : ∀ x ∈ xs, ∀ l ∈ f x, l.isComma = false)
    (h : ∀ x ∈ xs, read (f x) = some (g x)) :
    readList read ([.mark ','].intercalate (xs.map f)) = some (xs.map g) := by
  rw [readList, splitOnP_intercalate rfl (by simpa using hne) (by simpa using hcomma)]
  exact readEach_map h

end Reading

namespace Insertion

variable {columns : List String} {row : Values} {rows : List Values} {after : List Lexeme}

/-- The lexemes of names with commas between them. -/
theorem tokens_nameList (names : List String) :
    tokens (nameList names) = [.mark ','].intercalate (names.map fun name => [.name name]) := by
  rw [nameList, tokens_separated lexemes_comma, List.map_map]
  rfl

theorem readList_nameList {names : List String} (hne : names ≠ []) :
    readList readName (tokens (nameList names)) = some names := by
  rw [tokens_nameList, readList_intercalate hne (g := id) (by simp [Lexeme.isComma]) fun _ _ => rfl,
    List.map_id]

/-- The lexemes of what a row writes between parentheses. -/
def entries (columns : List String) (row : Values) : List Lexeme :=
  [.mark ','].intercalate (columns.map fun column => (cell row column).lexemes)

theorem tokens_tuple (columns : List String) (row : Values) :
    tokens (tuple columns row) = .mark '(' :: (entries columns row ++ [.mark ')']) := by
  have hcells : tokens (separated ", " (columns.map fun column => [cell row column])) =
      entries columns row := by
    rw [tokens_separated lexemes_comma, List.map_map, entries]
    simp [Function.comp_def]
  rw [tuple, List.cons_append, tokens_cons, tokens_append, hcells]
  rfl

/-- A cell holds what the row proposes. -/
theorem lexemes_cell (row : Values) (column : String) :
    readProposal (cell row column).lexemes = some (row.proposal column) ∧
      ∀ l ∈ (cell row column).lexemes, l.isComma = false ∧ l.isParenthesis = false := by
  unfold cell Values.proposal
  cases row.get? column with
  | none =>
    have hdefault : (Piece.text "DEFAULT").lexemes = [.word "DEFAULT"] := rfl
    exact ⟨rfl, by simp [hdefault, Lexeme.isComma, Lexeme.isParenthesis]⟩
  | some v =>
    cases v <;> exact ⟨rfl, by simp [Piece.lexemes, Value.isNull, Lexeme.isComma, Lexeme.isParenthesis]⟩

theorem readList_entries (hne : columns ≠ []) (row : Values) :
    readList readProposal (entries columns row) = some (columns.map row.proposal) :=
  readList_intercalate hne (fun column _ l hl => ((lexemes_cell row column).2 l hl).1)
    fun column _ => (lexemes_cell row column).1

theorem isParenthesis_entries (columns : List String) (row : Values) :
    ∀ l ∈ entries columns row, l.isParenthesis = false := by
  refine forall_mem_intercalate rfl fun g hg l hl => ?_
  obtain ⟨column, -, rfl⟩ := List.mem_map.mp hg
  exact ((lexemes_cell row column).2 l hl).2

theorem isParenthesis_nameList (names : List String) :
    ∀ l ∈ tokens (nameList names), l.isParenthesis = false := by
  rw [tokens_nameList]
  refine forall_mem_intercalate rfl fun g hg l hl => ?_
  obtain ⟨name, -, rfl⟩ := List.mem_map.mp hg
  rw [List.mem_singleton.mp hl]
  rfl

/-- Rows are split into what stands between their parentheses, with the commas between them. -/
theorem splitOnP_tuples {lead : List Lexeme} (hlead : ∀ l ∈ lead, l.isParenthesis = false) :
    (lead ++ tokens (separated ", " ((row :: rows).map (tuple columns))) ++ after).splitOnP
        Lexeme.isParenthesis =
      lead :: entries columns row :: (rows.flatMap fun row => [[.mark ','], entries columns row]) ++
        after.splitOnP Lexeme.isParenthesis := by
  -- the front of the first row, up to its parenthesis
  have hfirst (row : Values) {lead : List Lexeme} (hlead : ∀ l ∈ lead, l.isParenthesis = false)
      (rest : List Lexeme) :
      (lead ++ tokens (tuple columns row) ++ rest).splitOnP Lexeme.isParenthesis =
        lead :: entries columns row :: rest.splitOnP Lexeme.isParenthesis := by
    rw [tokens_tuple, List.append_assoc, List.cons_append, List.append_assoc, List.singleton_append,
      List.splitOnP_append_cons_of_forall_mem hlead _ rfl,
      List.splitOnP_append_cons_of_forall_mem (isParenthesis_entries columns row) _ rfl]
  rw [tokens_separated lexemes_comma]
  induction rows generalizing row lead with
  | nil => simpa using hfirst row hlead after
  | cons next rest ih =>
    have hcomma : ∀ l ∈ [Lexeme.mark ','], l.isParenthesis = false := by simp [Lexeme.isParenthesis]
    have hrest := @ih next _ hcomma
    simp only [List.map_cons, List.intercalate_cons_cons] at hrest ⊢
    rw [← List.append_assoc lead, ← List.append_assoc lead, List.append_assoc _ _ after,
      List.append_assoc _ [_] _, hfirst row hlead, ← List.append_assoc, hrest]
    rfl

/-- Rows are read one after the other, up to what is no further row. -/
theorem readTuples_entries (hne : columns ≠ []) (rows : List Values) {later : List (List Lexeme)}
    (hlater : later.head? ≠ some [.mark ',']) :
    readTuples ((rows.flatMap fun row => [[.mark ','], entries columns row]) ++ later) =
      some (rows.map fun row => columns.map row.proposal, later) := by
  induction rows with
  | nil =>
    simp only [List.flatMap_nil, List.nil_append, List.map_nil]
    unfold readTuples
    split
    · simp at hlater
    · rfl
  | cons row rest ih =>
    simp only [List.flatMap_cons, List.cons_append, List.nil_append, readTuples]
    rw [readList_entries hne row, ih]
    rfl

/-- What the text of an insert says. -/
def said (s : Insertion) : InsertText :=
  ⟨s.table, s.columns, s.rows.map fun row => s.columns.map row.proposal⟩

/-- An insert is read back as what it says, before whatever follows it. -/
theorem reads {s : Insertion} {pieces : List Piece} (h : s.pieces = .ok pieces) {first : List Lexeme}
    {later : List (List Lexeme)} (hafter : after.splitOnP Lexeme.isParenthesis = first :: later)
    (hfirst : first ≠ [.mark ',']) :
    readInsert ((tokens pieces ++ after).splitOnP Lexeme.isParenthesis) =
      some (s.said, first :: later) := by
  unfold Insertion.pieces at h
  split at h
  · cases h
  rename_i hrows
  split at h
  case h_1 hcolumns =>
    split at h
    · cases h
    rename_i hlength
    cases h
    have htokens : tokens [.text "INSERT INTO ", .name s.table, .text " DEFAULT VALUES"] =
        [.word "INSERT", .word "INTO", .name s.table, .word "DEFAULT", .word "VALUES"] := rfl
    -- without columns there is one row
    have hone : s.rows.map (fun row => s.columns.map row.proposal) = [[]] := by
      rw [hcolumns]
      rcases hs : s.rows with _ | ⟨row, _ | ⟨row', rest⟩⟩
      · simp [hs] at hrows
      · rfl
      · simp [hs] at hlength
    rw [htokens, splitOnP_append (by simp [Lexeme.isParenthesis]) hafter, said, hone, hcolumns]
    rfl
  case h_2 hcolumns =>
    cases h
    obtain ⟨row, rows, hs⟩ : ∃ row rows, s.rows = row :: rows := by
      cases hs : s.rows with
      | nil => simp [hs] at hrows
      | cons row rows => exact ⟨row, rows, rfl⟩
    have htokens : tokens (.text "INSERT INTO " :: .name s.table :: .text " (" :: nameList s.columns
        ++ .text ") VALUES " :: separated ", " (s.rows.map (tuple s.columns))) ++ after =
        [.word "INSERT", .word "INTO", .name s.table] ++ .mark '(' :: (tokens (nameList s.columns) ++
          .mark ')' :: ([.word "VALUES"] ++ tokens (separated ", " (s.rows.map (tuple s.columns)))
            ++ after)) := by
      simp only [tokens_append, tokens_cons, List.append_assoc, List.cons_append]
      rfl
    rw [htokens, List.splitOnP_append_cons_of_forall_mem (by simp [Lexeme.isParenthesis]) _ rfl,
      List.splitOnP_append_cons_of_forall_mem (isParenthesis_nameList s.columns) _ rfl, hs,
      splitOnP_tuples (by simp [Lexeme.isParenthesis]), hafter]
    have htuples := readTuples_entries hcolumns rows (by simpa using hfirst : (first :: later).head? ≠ _)
    simp only [List.cons_append, readInsert, readList_nameList hcolumns, readList_entries hcolumns,
      htuples]
    rw [said, hs]
    rfl

end Insertion

namespace Upsert

variable {s : Upsert} {q : Query}

/-- The columns that are assigned on conflict: the first of the conflict if there is no other one. -/
def assigned (s : Upsert) : List String :=
  match s.updateColumns with
  | [] => s.conflict.take 1
  | columns => columns

/-- The upsert of one of the rows by itself. -/
def alone (s : Upsert) (row : Values) : Upsert :=
  ⟨⟨s.insert.table, [row]⟩, s.conflict⟩

/-- What the text of an upsert says. -/
def said (s : Upsert) : UpsertText :=
  ⟨s.insert.said, s.conflict, s.assigned.map fun column => (column, column)⟩

/-- What is written on conflict. -/
def conflictPieces (s : Upsert) : List Piece :=
  .text " ON CONFLICT (" :: Insertion.nameList s.conflict ++ .text ") DO UPDATE SET "
    :: separated ", " (s.assigned.map fun column => [.name column, .text " = EXCLUDED.", .name column])
    ++ [.text " RETURNING *"]

theorem render_eq_ok : s.render = .ok q ↔ s.conflict ≠ [] ∧
    ∃ inserted, s.insert.pieces = .ok inserted ∧ q = .ofPieces (inserted ++ s.conflictPieces) := by
  unfold render conflictPieces assigned
  cases hconflict : s.conflict with
  | nil => simp
  | cons first rest =>
    cases s.insert.pieces with
    | error e => simp [bind, Except.bind]
    | ok inserted =>
      cases s.updateColumns <;> simp [bind, Except.bind, pure, Except.pure, eq_comm (a := q)]

theorem assigned_ne_nil (h : s.conflict ≠ []) : s.assigned ≠ [] := by
  unfold assigned
  split
  · simpa using h
  · rename_i hcolumns
    exact hcolumns

/-- The lexemes of an assignment. -/
def assignment (column : String) : List Lexeme :=
  [.name column, .operator "=", .word "EXCLUDED", .mark '.', .name column]

theorem tokens_conflictPieces (s : Upsert) : tokens s.conflictPieces = [.word "ON", .word "CONFLICT"] ++
    .mark '(' :: (tokens (Insertion.nameList s.conflict) ++ .mark ')' ::
      ([.word "DO", .word "UPDATE", .word "SET"] ++ ([.mark ','].intercalate (s.assigned.map assignment) ++
        [.word "RETURNING", .mark '*']))) := by
  have hassigned : tokens (separated ", " (s.assigned.map fun column =>
      [.name column, .text " = EXCLUDED.", .name column])) =
        [.mark ','].intercalate (s.assigned.map assignment) := by
    rw [tokens_separated lexemes_comma, List.map_map]
    rfl
  simp only [conflictPieces, tokens_append, tokens_cons, hassigned, List.append_assoc, List.cons_append]
  rfl

/-- What is written on conflict is split at its parentheses and read. -/
theorem reads_conflictPieces (h : s.conflict ≠ []) : ∃ later,
    (tokens s.conflictPieces).splitOnP Lexeme.isParenthesis = [.word "ON", .word "CONFLICT"] :: later ∧
      readConflict ([.word "ON", .word "CONFLICT"] :: later) =
        some (s.conflict, s.assigned.map fun column => (column, column)) := by
  have hmem {p : Lexeme → Bool} (hcomma : p (.mark ',') = false)
      (h : ∀ column, ∀ l ∈ assignment column, p l = false) :
      ∀ l ∈ [.mark ','].intercalate (s.assigned.map assignment), p l = false := by
    refine forall_mem_intercalate hcomma fun g hg => ?_
    obtain ⟨column, -, rfl⟩ := List.mem_map.mp hg
    exact h column
  have hparenthesis := hmem (p := Lexeme.isParenthesis) rfl (by simp [assignment, Lexeme.isParenthesis])
  have hreturning := hmem (p := Lexeme.isWord "RETURNING") rfl (by simp [assignment, Lexeme.isWord])
  have hassigned : readList readAssignment ([.mark ','].intercalate (s.assigned.map assignment)) =
      some (s.assigned.map fun column => (column, column)) :=
    readList_intercalate (assigned_ne_nil h) (by simp [assignment, Lexeme.isComma]) fun _ _ => rfl
  have hend : List.splitOnP Lexeme.isParenthesis [.word "RETURNING", .mark '*'] =
      [[.word "RETURNING", .mark '*']] := rfl
  have hset : List.splitOnP Lexeme.isParenthesis ([.word "DO", .word "UPDATE", .word "SET"] ++
      ([.mark ','].intercalate (s.assigned.map assignment) ++ [.word "RETURNING", .mark '*'])) = [_] :=
    splitOnP_append (by simp [Lexeme.isParenthesis]) (splitOnP_append hparenthesis hend)
  rw [tokens_conflictPieces,
    List.splitOnP_append_cons_of_forall_mem (by simp [Lexeme.isParenthesis]) _ rfl,
    List.splitOnP_append_cons_of_forall_mem (Insertion.isParenthesis_nameList s.conflict) _ rfl, hset]
  refine ⟨_, rfl, ?_⟩
  simp only [List.cons_append, List.nil_append, readConflict]
  rw [List.splitOnP_append_cons_of_forall_mem hreturning _ rfl,
    List.splitOnP_eq_singleton (by simp [Lexeme.isWord])]
  simp only [Insertion.readList_nameList h, hassigned]
  rfl

/-- An upsert is read back as what it says. -/
theorem read_eq_said (h : s.render = .ok q) : UpsertText.read q = some s.said := by
  obtain ⟨hconflict, inserted, hinserted, rfl⟩ := render_eq_ok.mp h
  have hfit : Fitting (inserted ++ s.conflictPieces) := by
    simpa [conflictPieces] using @pieces_fit _ s.conflict s.assigned (Insertion.pieces_fit hinserted)
  obtain ⟨later, hlater, hconflicts⟩ := reads_conflictPieces hconflict
  rw [UpsertText.read, bind_lexemes_ofPieces hfit, tokens_append]
  simp only [Insertion.reads hinserted hlater (by simp)]
  rw [said]
  change (readConflict _ >>= _) = _
  rw [hconflicts]
  rfl

/-- What an upsert overwrites, as its text says it. -/
structure Overwrites (s : Upsert) (t : UpsertText) : Prop where
  table : t.insert.table = s.insert.table
  conflict : t.conflict = s.conflict
  /-- Each assignment is that of a column with the column of the same name in the proposed row. -/
  paired : ∀ column source, (column, source) ∈ t.assigned → source = column
  /-- Whichever row it is that is in conflict, the same columns are overwritten, with what that row
  proposes. -/
  rows : t.overwrites =
    s.insert.rows.map fun row => t.targets.map fun column => (column, row.proposal column)
  /-- Each column is overwritten once. -/
  ascending : t.targets.Pairwise (· < ·)
  /-- Overwritten is what any row supplies outside of the conflict, or else the first column of it. -/
  target : ∀ column, column ∈ t.targets ↔
    (column ∉ s.conflict ∧ ∃ row ∈ s.insert.rows, column ∈ row.keys) ∨
      ((∀ row ∈ s.insert.rows, row.keys ⊆ s.conflict) ∧ s.conflict.head? = some column)

theorem mem_updateColumns {column : String} : column ∈ s.updateColumns ↔
    column ∉ s.conflict ∧ ∃ row ∈ s.insert.rows, column ∈ row.keys := by
  rw [updateColumns, List.mem_filter, Insertion.columns, mem_sortedNames, List.mem_flatMap, and_comm]
  simp

theorem updateColumns_eq_nil :
    s.updateColumns = [] ↔ ∀ row ∈ s.insert.rows, row.keys ⊆ s.conflict := by
  rw [List.eq_nil_iff_forall_not_mem]
  simp only [mem_updateColumns, not_and, not_exists]
  constructor
  · intro h row hrow column hcolumn
    by_contra hnot
    exact h column hnot row hrow hcolumn
  · exact fun h column hnot row hrow hcolumn => hnot (h row hrow hcolumn)

theorem targets_said : s.said.targets = s.assigned := by
  rw [UpsertText.targets, said, List.map_map]
  exact List.map_id _

theorem ascending_assigned (s : Upsert) : s.assigned.Pairwise (· < ·) := by
  unfold assigned
  split
  · rcases s.conflict with _ | ⟨first, rest⟩ <;> simp
  · exact (sortedNames_ascending _).filter _

theorem mem_assigned {column : String} : column ∈ s.assigned ↔
    (column ∉ s.conflict ∧ ∃ row ∈ s.insert.rows, column ∈ row.keys) ∨
      ((∀ row ∈ s.insert.rows, row.keys ⊆ s.conflict) ∧ s.conflict.head? = some column) := by
  rw [← updateColumns_eq_nil, ← mem_updateColumns]
  unfold assigned
  split
  · rename_i hnil
    rcases hconflict : s.conflict with _ | ⟨first, rest⟩ <;> simp [hnil, eq_comm]
  · rename_i hcolumns
    exact ⟨.inl, fun h => h.resolve_right fun h => hcolumns h.1⟩

/-- A row supplies what it proposes other than defaults. -/
theorem proposal_eq_default {row : Values} {column : String} (h : column ∉ row.keys) :
    row.proposal column = .default := by
  have hnone : row.get? column = none := lookup_eq_none_iff_not_mem.mpr h
  rw [Values.proposal, hnone]

/-- What a proposed row holds in a column is what the row proposes for it. -/
theorem proposed_said {row : Values} (hrow : row ∈ s.insert.rows) (column : String) :
    s.said.proposed (s.insert.columns.map row.proposal) column = row.proposal column := by
  have hzip : s.said.insert.columns.zip (s.insert.columns.map row.proposal) =
      s.insert.columns.map fun column => (column, row.proposal column) :=
    List.map_prod_left_eq_zip.symm
  rw [UpsertText.proposed, hzip]
  by_cases hmem : column ∈ s.insert.columns
  · rw [List.lookup_graph _ hmem]
    rfl
  · have hlookup : (s.insert.columns.map fun column => (column, row.proposal column)).lookup column =
        none := by
      rw [lookup_eq_none_iff_not_mem, List.map_map]
      simpa using hmem
    rw [hlookup, proposal_eq_default fun hkey => hmem ?_]
    · rfl
    · exact mem_sortedNames.mpr (List.mem_flatMap.mpr ⟨row, hrow, hkey⟩)

theorem said_overwrites (s : Upsert) : s.Overwrites s.said where
  table := rfl
  conflict := rfl
  paired := by
    intro column source hmem
    obtain ⟨_, -, heq⟩ := List.mem_map.mp hmem
    cases heq
    rfl
  rows := by
    rw [targets_said, UpsertText.overwrites]
    simp only [said, Insertion.said, List.map_map]
    refine List.map_congr_left fun row hrow => List.map_congr_left fun column _ => ?_
    exact congrArg _ (proposed_said hrow column)
  ascending := targets_said ▸ s.ascending_assigned
  target _ := targets_said ▸ mem_assigned

/-- Outside of the conflict, overwritten is what any row supplies. -/
theorem Overwrites.mem_targets {t : UpsertText} (h : s.Overwrites t) {column : String}
    (hcolumn : column ∉ s.conflict) :
    column ∈ t.targets ↔ ∃ row ∈ s.insert.rows, column ∈ row.keys := by
  rw [h.target]
  constructor
  · rintro (⟨-, hrow⟩ | ⟨-, hfirst⟩)
    · exact hrow
    · exact absurd (List.mem_of_head? hfirst) hcolumn
  · exact fun hrow => .inl ⟨hcolumn, hrow⟩

/-- One row can be upserted whatever it supplies. -/
theorem exists_render_alone (h : s.conflict ≠ []) (row : Values) : ∃ q, (s.alone row).render = .ok q := by
  have hpieces : ∃ inserted, (s.alone row).insert.pieces = .ok inserted := by
    unfold Insertion.pieces
    rw [if_neg (by simp [alone])]
    split
    · exact ⟨_, if_neg (by simp [alone])⟩
    · exact ⟨_, rfl⟩
  obtain ⟨inserted, hinserted⟩ := hpieces
  exact ⟨_, render_eq_ok.mpr ⟨h, inserted, hinserted, rfl⟩⟩

/-- Assignments are made once for all rows of an upsert: a row in conflict is overwritten in every column
outside of the conflict that some row supplies, with the values of the row that it is in conflict with, or
with defaults where that row supplies none. Upserting that row by itself leaves out the columns that only
other rows supply. -/
theorem render_overwrites (h : s.render = .ok q) : ∃ t, UpsertText.read q = some t ∧ s.Overwrites t ∧
    ∀ row ∈ s.insert.rows, ∃ q' t', (s.alone row).render = .ok q' ∧ UpsertText.read q' = some t' ∧
      (s.alone row).Overwrites t' ∧
      (∀ column ∉ s.conflict, column ∈ t.targets ↔ column ∈ t'.targets ∨ (column ∉ row.keys ∧
        row.proposal column = .default ∧ ∃ other ∈ s.insert.rows, column ∈ other.keys)) ∧
      ((∀ other ∈ s.insert.rows, other.keys = row.keys) → t'.targets = t.targets) := by
  refine ⟨s.said, read_eq_said h, s.said_overwrites, fun row hrow => ?_⟩
  obtain ⟨q', hq'⟩ := exists_render_alone (render_eq_ok.mp h).1 row
  have halone := (s.alone row).said_overwrites
  refine ⟨q', (s.alone row).said, hq', read_eq_said hq', halone, fun column hcolumn => ?_, fun hsame => ?_⟩
  · rw [s.said_overwrites.mem_targets hcolumn, halone.mem_targets hcolumn]
    constructor
    · rintro ⟨other, hother, hkey⟩
      by_cases hrowKey : column ∈ row.keys
      · exact .inl ⟨row, List.mem_singleton_self row, hrowKey⟩
      · exact .inr ⟨hrowKey, proposal_eq_default hrowKey, other, hother, hkey⟩
    · rintro (⟨other, hother, hkey⟩ | ⟨-, -, hothers⟩)
      · obtain rfl := List.mem_singleton.mp hother
        exact ⟨other, hrow, hkey⟩
      · exact hothers
  · refine halone.ascending.eq_of_mem_iff s.said_overwrites.ascending fun column => ?_
    have hsupplied : (∃ other ∈ s.insert.rows, column ∈ other.keys) ↔ column ∈ row.keys :=
      ⟨fun ⟨other, hother, hkey⟩ => hsame other hother ▸ hkey, fun hkey => ⟨row, hrow, hkey⟩⟩
    have hwithin : (∀ other ∈ s.insert.rows, other.keys ⊆ s.conflict) ↔ row.keys ⊆ s.conflict :=
      ⟨fun h => h row hrow, fun h other hother => hsame other hother ▸ h⟩
    rw [halone.target, s.said_overwrites.target, hsupplied, hwithin]
    simp [alone]

end Upsert

/-- Two users to upsert by login, the second without a name. -/
def partialUsers : Upsert :=
  ⟨⟨"user", [.ofList [("login", .text "a"), ("name", .text "n"), ("password", .text "x")],
    .ofList [("login", .text "b"), ("password", .text "y")]]⟩, ["login"]⟩

/-- The users as they are upserted: the name of the second one is its default. -/
def partialUsersQuery : Query :=
  ⟨"INSERT INTO \"user\" (\"login\", \"name\", \"password\") VALUES ($1, $2, $3), ($4, DEFAULT, $5) " ++
    "ON CONFLICT (\"login\") DO UPDATE SET \"name\" = EXCLUDED.\"name\", " ++
    "\"password\" = EXCLUDED.\"password\" RETURNING *",
    [.text "a", .text "n", .text "x", .text "b", .text "y"]⟩

set_option maxRecDepth 4000 in
theorem render_partialUsers : partialUsers.render = .ok partialUsersQuery := by
  rfl

theorem partialUsers_overwrites : partialUsers.render = .ok partialUsersQuery ∧
    ∃ t, UpsertText.read partialUsersQuery = some t ∧ partialUsers.Overwrites t := by
  obtain ⟨t, hread, hoverwrites, -⟩ := Upsert.render_overwrites render_partialUsers
  exact ⟨render_partialUsers, t, hread, hoverwrites⟩

/-- A name that is stored for the second user is overwritten with the default, although that row has
another column to update and leaves the name alone when it is upserted by itself. -/
theorem partialUsers_overwrites_name : ∃ row ∈ partialUsers.insert.rows,
    partialUsers.render = .ok partialUsersQuery ∧
      (∃ t, UpsertText.read partialUsersQuery = some t ∧ "name" ∈ t.targets ∧ "name" ∉ row.keys ∧
        partialUsers.updateColumns ≠ []) ∧
      ∃ q' t', (partialUsers.alone row).render = .ok q' ∧ UpsertText.read q' = some t' ∧
        t'.targets = ["password"] := by
  have hsecond : .ofList [("login", .text "b"), ("password", .text "y")] ∈ partialUsers.insert.rows :=
    .tail _ (.head _)
  obtain ⟨q', hq'⟩ := @Upsert.exists_render_alone partialUsers (by decide)
    (.ofList [("login", .text "b"), ("password", .text "y")])
  refine ⟨_, hsecond, render_partialUsers, ⟨_, Upsert.read_eq_said render_partialUsers, ?_, ?_, ?_⟩, q', _,
    hq', Upsert.read_eq_said hq', ?_⟩
  · rw [Upsert.targets_said]
    decide
  · decide
  · decide
  · rw [Upsert.targets_said]
    rfl

end EagerLoad.Sql
