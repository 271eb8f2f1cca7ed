import EagerLoad.Proofs.Sql.Balance

/-!
# Reading conditions back

A condition is written as one factor: a comparison, a negation, a truth value or a group between
parentheses. The reader recovers its normal form, and so it does for what a statement projects and by
what it is ordered.
-/

namespace EagerLoad.Sql

section Conditions

variable {a : String} {ls : List Lexeme} {c : Condition}

/-- One factor is a list of factors. -/
theorem Reads.factors (h : Reads readFactor ls c) : readFactors (itemsOf ls) = some [c] := by
  rw [readFactors, List.splitOnP_eq_singleton fun i hi => (Item.solid_iff.mp (h.solid_of_mem hi)).1]
  simp [readEach, h.reads]

/-- One factor is an expression. -/
theorem Reads.condition (h : Reads readFactor ls c) : readCondition (itemsOf ls) = some c := by
  rw [readCondition, List.splitOnP_eq_singleton fun i hi => (Item.solid_iff.mp (h.solid_of_mem hi)).2.1]
  simp [readEach, h.factors, Condition.all, Condition.any]

/-- An expression between parentheses is a factor. -/
theorem Reads.enclosed (hl : Balanced ls) (h : readCondition (itemsOf ls) = some c) :
    Reads readFactor (.mark '(' :: (ls ++ [.mark ')'])) c where
  balanced := hl.enclosed.1
  solid := by rw [hl.enclosed.2]; rfl
  reads := by rw [hl.enclosed.2, h]; rfl

theorem readFactors_separated {cs : List Condition} {f : Condition → List Lexeme}
    {g : Condition → Condition} (hne : cs ≠ []) (h : ∀ c ∈ cs, Reads readFactor (f c) (g c)) :
    readFactors (itemsOf ([.word "AND"].intercalate (cs.map f))) = some (cs.map g) :=
  readEach_separated (fun _ _ => rfl) rfl rfl (fun _ hi => (Item.solid_iff.mp hi).1) hne h

/-- Factors with `AND` between them have no `OR` at the top. -/
theorem splitOnP_or_separated {cs : List Condition} {f : Condition → List Lexeme}
    {g : Condition → Condition} (h : ∀ c ∈ cs, Reads readFactor (f c) (g c)) :
    (itemsOf ([.word "AND"].intercalate (cs.map f))).splitOnP (·.isWord "OR") =
      [itemsOf ([.word "AND"].intercalate (cs.map f))] :=
  List.splitOnP_eq_singleton (forall_separated (P := fun i => i.isWord "OR" = false)
    (fun _ _ => rfl) rfl rfl (fun _ hi => (Item.solid_iff.mp hi).2.1) h)

/-- Factors with `AND` between them are read as their conjunction. -/
theorem readCondition_and {cs : List Condition} {f : Condition → List Lexeme}
    {g : Condition → Condition} (hne : cs ≠ []) (h : ∀ c ∈ cs, Reads readFactor (f c) (g c)) :
    readCondition (itemsOf ([.word "AND"].intercalate (cs.map f))) = some (.all (cs.map g)) := by
  rw [readCondition, splitOnP_or_separated h]
  simp [readEach, readFactors_separated hne h, Condition.any]

/-- Factors with `AND` between them are read as a list of conditions. -/
theorem readConditions_separated {cs : List Condition} {f : Condition → List Lexeme}
    {g : Condition → Condition} (hne : cs ≠ []) (h : ∀ c ∈ cs, Reads readFactor (f c) (g c)) :
    readConditions (itemsOf ([.word "AND"].intercalate (cs.map f))) = some (cs.map g) := by
  rw [readConditions, splitOnP_or_separated h]
  exact readFactors_separated hne h

/-- Factors with `OR` between them are read as their disjunction. -/
theorem readCondition_or {cs : List Condition} {f : Condition → List Lexeme}
    {g : Condition → Condition} (hne : cs ≠ []) (h : ∀ c ∈ cs, Reads readFactor (f c) (g c)) :
    readCondition (itemsOf ([.word "OR"].intercalate (cs.map f))) = some (.any (cs.map g)) := by
  have hbranch : ∀ c ∈ cs,
      Reads (fun branch => (readFactors branch).map Condition.all) (f c) (g c) := fun c hc =>
    ⟨(h c hc).balanced, (h c hc).solid, by simp [(h c hc).factors, Condition.all]⟩
  rw [readCondition, readEach_separated (fun _ _ => rfl) rfl rfl
    (fun _ hi => (Item.solid_iff.mp hi).2.1) hne hbranch]
  rfl

/-- Values with commas between them are read one by one. -/
theorem readValues_separated {values : List Value} (hne : values ≠ []) :
    Balanced (tokens (separated ", " (values.map fun v => [.param v]))) ∧
      readValues (itemsOf (tokens (separated ", " (values.map fun v => [.param v])))) = some values := by
  have hvalue : ∀ v ∈ values, Reads readValue (tokens [.param v]) v := by
    intro v _
    cases v <;> exact ⟨fun _ _ => rfl, rfl, rfl⟩
  obtain ⟨hbalanced, -, hread⟩ := reads_commas hne hvalue
  rw [List.map_id'] at hread
  rw [tokens_separated lexemes_comma, List.map_map]
  exact ⟨hbalanced, hread⟩

/-- A comparison is read back as it is, or as a null test. -/
theorem Condition.reads_compare (column : Column) (operator : Comparison) (v : Value) :
    Reads readFactor (tokens ((compare column operator v).pieces (some a)))
      ((compare column operator v).normal a) := by
  by_cases hnull : v.isNull = true
  · obtain rfl : v = .null := by cases v <;> first | rfl | cases hnull
    cases operator <;>
      simp only [normal, qualified, tidied, pieces, Value.isNull, tokens_append, tokens_column] <;>
      exact ⟨fun _ _ => rfl, rfl, rfl⟩
  · have hpieces : tokens ((compare column operator v).pieces (some a)) =
        tokens (column.pieces (some a)) ++ lexemes (" " ++ operator.symbol ++ " ") ++ [.value v] := by
      rw [pieces, tokens_append, tokens_cons, tokens_value hnull, Piece.lexemes, List.append_assoc] <;>
        simp [hnull]
    have hnormal : (compare column operator v).normal a = compare (column.qualified a) operator v := by
      rw [normal, qualified, tidied] <;> simp [hnull]
    rw [hpieces, hnormal, tokens_column]
    cases operator <;> exact ⟨fun _ _ => rfl, rfl, rfl⟩

/-- A list of candidates is read back as it is, or as a truth value. -/
theorem Condition.reads_inList (column : Column) (values : List Value) (negated : Bool) :
    Reads readFactor (tokens ((inList column values negated).pieces (some a)))
      ((inList column values negated).normal a) := by
  cases values with
  | nil => cases negated <;> exact ⟨fun _ _ => rfl, rfl, rfl⟩
  | cons value rest =>
    obtain ⟨hvalues, hread⟩ := readValues_separated (List.cons_ne_nil value rest)
    obtain ⟨hgroup, hitems⟩ := hvalues.enclosed
    -- The keywords before the list of candidates stand between balanced parts.
    have hreads (negated : Bool) (front : List Lexeme) (hfront : Balanced front)
        (hsolid : (itemsOf front).all Item.solid = true)
        (hfactor : ∀ condition query, readFactor (itemsOf front ++
          [.group condition (some (value :: rest)) query]) =
            some (.inList (column.qualified a) (value :: rest) negated)) :
        Reads readFactor (front ++ .mark '(' ::
          (tokens (separated ", " ((value :: rest).map fun v => [.param v])) ++ [.mark ')']))
          (.inList (column.qualified a) (value :: rest) negated) := by
      have hall := hfront.itemsOf_append hgroup
      rw [hitems, hread] at hall
      refine ⟨hfront.append hgroup, ?_, ?_⟩
      · rw [hall, List.all_append, hsolid]
        rfl
      · rw [hall, hfactor]
    have hpieces : tokens ((inList column (value :: rest) negated).pieces (some a)) =
        tokens (column.pieces (some a)) ++ lexemes (if negated then " NOT IN (" else " IN (") ++
          (tokens (separated ", " ((value :: rest).map fun v => [.param v])) ++ [.mark ')']) := by
      rw [pieces]
      · simp only [tokens_append, tokens_cons, List.append_assoc]
        rfl
      · simp
    rw [hpieces, tokens_column]
    cases negated
    · exact hreads false [.name _, .mark '.', .name _, .word "IN"] (fun _ _ => rfl) rfl fun _ _ => rfl
    · exact hreads true [.name _, .mark '.', .name _, .word "NOT", .word "IN"] (fun _ _ => rfl) rfl
        fun _ _ => rfl

/-- A group of conditions is read back if what stands between its parentheses is. -/
theorem Condition.reads_group {separator : String} {l : Lexeme} {neutral : Bool}
    {gather : List Condition → Condition} (hseparator : lexemes separator = [l]) (hl : Balanced [l])
    (hitem : itemsOf [l] = [.token l]) (hsingle : ∀ c, gather [c] = c) {item : Condition}
    {rest : List Condition}
    (h : ∀ c ∈ item :: rest, Reads readFactor (tokens (c.pieces (some a))) (c.normal a))
    (hread : readCondition (itemsOf ([l].intercalate
      ((item :: rest).map fun c => tokens (c.pieces (some a))))) =
        some (gather ((item :: rest).map (normal a)))) :
    Reads readFactor (tokens (group separator neutral ((item :: rest).map (pieces (some a)))))
      (gather ((item :: rest).map (normal a))) := by
  cases rest with
  | nil =>
    rw [List.map_singleton, List.map_singleton, hsingle]
    exact h item List.mem_cons_self
  | cons other rest =>
    have hbalanced := (Balanced.intercalate hl hitem fun c hc => (h c hc).balanced).1
    have hreads := Reads.enclosed hbalanced hread
    have htokens : tokens (group separator neutral ((item :: other :: rest).map (pieces (some a)))) =
        .mark '(' :: ([l].intercalate
          ((item :: other :: rest).map fun c => tokens (c.pieces (some a))) ++ [.mark ')']) := by
      rw [List.map_cons, List.map_cons, group]
      · rw [tokens_append, tokens_cons, tokens_separated hseparator]
        simp
        rfl
      all_goals simp
    rw [htokens]
    exact hreads

/-- A condition is read back in its normal form. -/
theorem Condition.reads (c : Condition) :
    Reads readFactor (tokens (c.pieces (some a))) (c.normal a) := by
  induction c using induction with
  | compare column operator v => exact reads_compare column operator v
  | inList column values negated => exact reads_inList column values negated
  | isNull column negated =>
    rw [pieces, tokens_append, tokens_column]
    cases negated <;> exact ⟨fun _ _ => rfl, rfl, rfl⟩
  | columnsEqual left right =>
    rw [pieces, tokens_append, tokens_cons, tokens_column, tokens_column]
    exact ⟨fun _ _ => rfl, rfl, rfl⟩
  | and items ih =>
    cases items with
    | nil => exact ⟨fun _ _ => rfl, rfl, rfl⟩
    | cons item rest =>
      rw [pieces, piecesAll_eq_map, normal_and]
      exact reads_group lexemes_and (fun _ _ => rfl) rfl (fun _ => rfl) ih (readCondition_and (by simp) ih)
  | or items ih =>
    cases items with
    | nil => exact ⟨fun _ _ => rfl, rfl, rfl⟩
    | cons item rest =>
      rw [pieces, piecesAll_eq_map, normal_or]
      exact reads_group lexemes_or (fun _ _ => rfl) rfl (fun _ => rfl) ih (readCondition_or (by simp) ih)
  | not c ih =>
    obtain ⟨hbalanced, hsolid, hread⟩ := Reads.enclosed ih.balanced ih.condition
    have htokens : tokens ((Condition.not c).pieces (some a)) =
        [.word "NOT"] ++ .mark '(' :: (tokens (c.pieces (some a)) ++ [.mark ')']) := by
      rw [pieces, tokens_append, tokens_cons]
      rfl
    have hnot : Balanced [.word "NOT"] := fun _ _ => rfl
    have hitems := hnot.itemsOf_append hbalanced
    rw [htokens]
    refine ⟨hnot.append hbalanced, ?_, ?_⟩
    · rw [hitems, List.all_append, hsolid]
      rfl
    · rw [hitems]
      exact congrArg (Option.map Condition.not) hread
  | literal truth => cases truth <;> exact ⟨fun _ _ => rfl, rfl, rfl⟩

theorem Projection.reads (p : Projection) :
    Reads readProjection (tokens (p.pieces (some a))) (p.qualified a) := by
  cases p with
  | column c label =>
    cases label with
    | none =>
      rw [pieces, tokens_column]
      exact ⟨fun _ _ => rfl, rfl, rfl⟩
    | some label =>
      rw [pieces, tokens_append, tokens_column]
      exact ⟨fun _ _ => rfl, rfl, rfl⟩
  | everything other => exact ⟨fun _ _ => rfl, rfl, rfl⟩

theorem reads_sortKey (column : Column) (direction : Direction) :
    Reads readSortKey (tokens (column.pieces (some a) ++ [.text (" " ++ direction.keyword)]))
      (column.qualified a, direction) := by
  rw [tokens_append, tokens_column]
  cases direction <;> exact ⟨fun _ _ => rfl, rfl, rfl⟩

end Conditions

end EagerLoad.Sql
