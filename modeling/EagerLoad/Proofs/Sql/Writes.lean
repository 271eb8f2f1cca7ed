import EagerLoad.Proofs.Sql.Upserts

/-!
# The columns that a writing statement names

The text of an insert, an upsert or an update is read for its table and for the columns that it names:
those to insert, those in conflict, and those that are assigned. Values are passed over, and so are the
conditions of an update.
-/

namespace EagerLoad.Sql

/-- The table and the columns that the text of a writing statement names. -/
structure WriteText where
  table : String
  inserted : List String
  conflict : List String
  /-- The columns on both sides of the assignments. -/
  assigned : List String

/-- Every column that is named. -/
def WriteText.columns (t : WriteText) : List String :=
  t.inserted ++ t.conflict ++ t.assigned

/-- The column to which a value is assigned. -/
def readSetting : List Lexeme → Option String
  | .name column :: .operator "=" :: value => (readProposal value).map fun _ => column
  | _ => none

/-- Whether the assignments of an update end here. -/
def Lexeme.endsSettings (l : Lexeme) : Bool :=
  l.isWord "WHERE" || l.isWord "RETURNING"

/-- What an update names. -/
def readUpdate : List Lexeme → Option WriteText
  | .word "UPDATE" :: .name table :: .word "SET" :: rest =>
    (readList readSetting (rest.takeWhile fun l => !l.endsSettings)).map fun assigned =>
      ⟨table, [], [], assigned⟩
  | _ => none

/-- The columns that are named behind an insert: none where its rows are returned, else those of what is
done on conflict. -/
def readBehindInsert : List (List Lexeme) → Option (List String × List String)
  | [[.word "RETURNING", .mark '*']] => some ([], [])
  | rest => (readConflict rest).map fun c => (c.1, c.2.flatMap fun a => [a.1, a.2])

/-- What an insert names, and what is written behind it. -/
def readInserting (ls : List Lexeme) : Option WriteText := do
  let (insert, rest) ← readInsert (ls.splitOnP Lexeme.isParenthesis)
  let (conflict, assigned) ← readBehindInsert rest
  return ⟨insert.table, insert.columns, conflict, assigned⟩

/-- What a text with its parameters names, if it is that of a writing statement. -/
def WriteText.read (q : Query) : Option WriteText :=
  let ls := (lexemes q.sql).map (Lexeme.bind q.params)
  match readUpdate ls with
  | some t => some t
  | none => readInserting ls

/-- An insert is read with what is written behind it. -/
theorem Insertion.writeText_ofPieces {s : Insertion} {pieces after : List Piece} (h : s.pieces = .ok pieces)
    (hfit : Fitting (pieces ++ after)) {first : List Lexeme} {later : List (List Lexeme)}
    (hafter : (tokens after).splitOnP Lexeme.isParenthesis = first :: later)
    (hfirst : first ≠ [.mark ',']) {conflict assigned : List String}
    (hbehind : readBehindInsert (first :: later) = some (conflict, assigned)) :
    WriteText.read (.ofPieces (pieces ++ after)) = some ⟨s.table, s.columns, conflict, assigned⟩ := by
  have hupdate : readUpdate (tokens pieces ++ tokens after) = none := by
    unfold Insertion.pieces at h
    split at h
    · cases h
    split at h
    · split at h
      · cases h
      · cases h
        rfl
    · cases h
      rfl
  rw [WriteText.read, bind_lexemes_ofPieces hfit, tokens_append]
  simp only [hupdate, readInserting, Insertion.reads h hafter hfirst]
  change (readBehindInsert _ >>= _) = _
  rw [hbehind]
  rfl

/-- An insert names the columns of its rows. -/
theorem Insertion.writeText_render {s : Insertion} {q : Query} (h : s.render = .ok q) :
    WriteText.read q = some ⟨s.table, s.columns, [], []⟩ := by
  unfold Insertion.render at h
  cases hpieces : s.pieces with
  | error e =>
    rw [hpieces] at h
    cases h
  | ok pieces =>
    rw [hpieces] at h
    cases h
    exact Insertion.writeText_ofPieces hpieces ((Insertion.pieces_fit hpieces).followed returning_follows) rfl
      (by simp) rfl

theorem Insertion.mem_columns {s : Insertion} {column : String} :
    column ∈ s.columns ↔ column ∈ s.rows.flatMap KeyMap.keys :=
  mem_sortedNames

/-- An upsert names the columns of its rows, those of the conflict, and those that are overwritten. -/
theorem Upsert.writeText_render {s : Upsert} {q : Query} (h : s.render = .ok q) : WriteText.read q =
    some ⟨s.insert.table, s.insert.columns, s.conflict, s.assigned.flatMap fun column => [column, column]⟩ := by
  obtain ⟨hconflict, inserted, hinserted, rfl⟩ := render_eq_ok.mp h
  obtain ⟨later, hlater, hread⟩ := reads_conflictPieces hconflict
  have hfit : Fitting (inserted ++ s.conflictPieces) := by
    simpa [conflictPieces] using @pieces_fit _ s.conflict s.assigned (Insertion.pieces_fit hinserted)
  refine Insertion.writeText_ofPieces hinserted hfit hlater (by simp) ?_
  rw [readBehindInsert, hread, Option.map_some, List.flatMap_map]
  · simp

/-- What is overwritten is a column of a row or of the conflict. -/
theorem Upsert.assigned_subset (s : Upsert) :
    s.assigned ⊆ s.insert.rows.flatMap KeyMap.keys ++ s.conflict := by
  intro column hcolumn
  rcases mem_assigned.mp hcolumn with ⟨-, row, hrow, hkey⟩ | ⟨-, hfirst⟩
  · exact List.mem_append_left _ (List.mem_flatMap.mpr ⟨row, hrow, hkey⟩)
  · exact List.mem_append_right _ (List.mem_of_head? hfirst)

theorem Insertion.columns_eq_nil {s : Insertion} : s.columns = [] ↔ ∀ row ∈ s.rows, row.keys = [] := by
  simp only [List.eq_nil_iff_forall_not_mem, mem_columns, List.mem_flatMap, not_exists, not_and]
  exact ⟨fun h row hrow column => h column row hrow, fun h column row hrow => h row hrow column⟩

/-- Rows can be inserted unless there are several of them and none has a column. -/
theorem Insertion.exists_pieces {s : Insertion} (hrows : s.rows ≠ []) :
    (∃ pieces, s.pieces = .ok pieces) ↔ ¬ (1 < s.rows.length ∧ ∀ row ∈ s.rows, row.keys = []) := by
  rw [← columns_eq_nil, pieces, if_neg (by simpa using hrows)]
  split
  · rename_i hcolumns
    by_cases hlength : 1 < s.rows.length <;> simp [hcolumns, hlength]
  · rename_i hcolumns
    exact ⟨fun _ h => hcolumns h.2, fun _ => ⟨_, rfl⟩⟩

theorem Insertion.exists_render {s : Insertion} (hrows : s.rows ≠ []) :
    (∃ q, s.render = .ok q) ↔ ¬ (1 < s.rows.length ∧ ∀ row ∈ s.rows, row.keys = []) := by
  rw [← exists_pieces hrows, render]
  cases s.pieces <;> simp [bind, Except.bind, pure, Except.pure]

/-- So they can be upserted if there is a column of a conflict. -/
theorem Upsert.exists_render {s : Upsert} (hrows : s.insert.rows ≠ []) : (∃ q, s.render = .ok q) ↔
    s.conflict ≠ [] ∧ ¬ (1 < s.insert.rows.length ∧ ∀ row ∈ s.insert.rows, row.keys = []) := by
  rw [← Insertion.exists_pieces hrows]
  constructor
  · rintro ⟨q, hq⟩
    obtain ⟨hconflict, inserted, hinserted, -⟩ := render_eq_ok.mp hq
    exact ⟨hconflict, inserted, hinserted⟩
  · rintro ⟨hconflict, inserted, hinserted⟩
    exact ⟨_, render_eq_ok.mpr ⟨hconflict, inserted, hinserted, rfl⟩⟩

/-- Values can be assigned if there are any. -/
theorem Update.exists_render {s : Update} : (∃ q, s.render = .ok q) ↔ s.values.keys ≠ [] := by
  rw [render, KeyMap.isEmpty, KeyMap.keys]
  by_cases hvalues : s.values.entries = [] <;> simp [hvalues]

/-- The lexemes of an assignment of a value. -/
def setting (e : String × Value) : List Lexeme :=
  .name e.1 :: .operator "=" :: (Piece.param e.2).lexemes

/-- A value is neither a comma nor the end of the assignments. -/
theorem readProposal_param (v : Value) : (∃ proposal, readProposal (Piece.param v).lexemes = some proposal) ∧
    ∀ l ∈ (Piece.param v).lexemes, l.isComma = false ∧ l.endsSettings = false := by
  by_cases hnull : v.isNull = true
  · simp [Piece.lexemes, hnull, readProposal, Lexeme.isComma, Lexeme.endsSettings, Lexeme.isWord]
  · simp [Piece.lexemes, hnull, readProposal, Lexeme.isComma, Lexeme.endsSettings, Lexeme.isWord]

theorem setting_plain (e : String × Value) :
    ∀ l ∈ setting e, l.isComma = false ∧ l.endsSettings = false := by
  refine List.forall_mem_cons.mpr ⟨⟨rfl, rfl⟩, List.forall_mem_cons.mpr ⟨⟨rfl, ?_⟩, ?_⟩⟩
  · rfl
  · exact (readProposal_param e.2).2

/-- The assignments of an update end at its conditions, or where its rows are returned. -/
theorem takeWhile_settings {settings : List Lexeme} (h : ∀ l ∈ settings, l.endsSettings = false)
    (conditions : List Condition) :
    (settings ++ tokens (wherePieces none conditions ++ [.text " RETURNING *"])).takeWhile
      (fun l => !l.endsSettings) = settings := by
  have hend : (tokens (wherePieces none conditions ++ [.text " RETURNING *"])).takeWhile
      (fun l => !l.endsSettings) = [] := by
    cases conditions <;> rfl
  rw [List.takeWhile_append_of_pos fun l hl => by simp [h l hl], hend, List.append_nil]

/-- An update names the columns of its values. -/
theorem Update.writeText_render {s : Update} {q : Query} (h : s.render = .ok q) :
    WriteText.read q = some ⟨s.table, [], [], s.values.keys⟩ := by
  unfold Update.render at h
  split at h
  · cases h
  rename_i hvalues
  cases h
  have hentries : s.values.entries ≠ [] := by simpa [KeyMap.isEmpty] using hvalues
  have hsettings : tokens (separated ", " (s.values.entries.map fun e =>
      [.name e.1, .text " = ", .param e.2])) =
        [.mark ','].intercalate (s.values.entries.map setting) := by
    rw [tokens_separated lexemes_comma, List.map_map]
    refine congrArg _ (List.map_congr_left fun e _ => ?_)
    simp [setting, Piece.lexemes]
    rfl
  have hread : readList readSetting ([.mark ','].intercalate (s.values.entries.map setting)) =
      some s.values.keys := by
    refine readList_intercalate hentries (fun e _ l hl => (setting_plain e l hl).1) fun e _ => ?_
    obtain ⟨proposal, hproposal⟩ := (readProposal_param e.2).1
    simp [readSetting, setting, hproposal]
  have hends : ∀ l ∈ [.mark ','].intercalate (s.values.entries.map setting), l.endsSettings = false := by
    refine forall_mem_intercalate rfl fun g hg l hl => ?_
    obtain ⟨e, -, rfl⟩ := List.mem_map.mp hg
    exact (setting_plain e l hl).2
  rw [WriteText.read, bind_lexemes_ofPieces s.pieces_fit]
  have htokens : tokens (.text "UPDATE " :: .name s.table :: .text " SET "
      :: separated ", " (s.values.entries.map fun e => [.name e.1, .text " = ", .param e.2])
      ++ wherePieces none s.conditions ++ [.text " RETURNING *"]) =
        .word "UPDATE" :: .name s.table :: .word "SET" ::
          ([.mark ','].intercalate (s.values.entries.map setting) ++
            tokens (wherePieces none s.conditions ++ [.text " RETURNING *"])) := by
    rw [← hsettings]
    simp only [tokens_append, tokens_cons, List.append_assoc, List.cons_append]
    rfl
  simp only [htokens, readUpdate, takeWhile_settings hends, hread, Option.map_some]

end EagerLoad.Sql
