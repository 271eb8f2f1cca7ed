import EagerLoad.Proofs.Hydration.Nested
import EagerLoad.Proofs.Loading.Standing

/-!
# Grouping rows that come in blocks

If the rows of the root come in blocks, one for each key, then every block is one record, and the record is
made of its block alone. Of the rows that come back for a batch only those matter that link to a record.
-/

namespace EagerLoad

variable {α : Type} {n : Node} {children : List LoadTree} {t : LoadTree} {p : Plan}
  {answers answers' : Nat → List Row} {rows : List Row} {l : List α} {blocks : α → List Row}
  {key : α → String} {a : α}

namespace Node

/-- The rows of a block have the key of the block. -/
def Keys (n : Node) (blocks : α → List Row) (key : α → String) (a : α) : Prop :=
  blocks a ≠ [] ∧ ∀ row ∈ blocks a, n.key? row = some (key a)

variable (hnodup : (l.map key).Nodup) (h : ∀ a ∈ l, n.Keys blocks key a)

include hnodup h

theorem keys_flatMap : n.keys (l.flatMap blocks) = l.map key := by
  have hblock : ∀ a ∈ l, ((blocks a).filterMap n.key?).eraseDups = [key a].eraseDups := by
    intro a ha
    obtain ⟨hne, hkey⟩ := h a ha
    have hsame : (blocks a).filterMap n.key? = (blocks a).flatMap fun _ => [key a] := by
      rw [List.filterMap_eq_flatMap_toList]
      exact List.flatMap_congr fun row hrow => by rw [hkey row hrow, Option.toList_some]
    rw [hsame, eraseDups_flatMap_const hne]
  rw [keys, List.filterMap_flatMap, eraseDups_flatMap_congr hblock, ← List.map_eq_flatMap,
    eraseDups_of_nodup hnodup]

theorem rowsOf_flatMap (ha : a ∈ l) : n.rowsOf (key a) (l.flatMap blocks) = blocks a := by
  have hsettled : ∀ b ∈ l, ∀ row ∈ blocks b,
      decide (n.key? row = some (key a)) = decide (key b = key a) := fun b hb row hrow => by
    rw [(h b hb).2 row hrow]
    simp
  rw [rowsOf, filter_flatMap_of_forall hsettled, filter_eq_singleton_of_nodup hnodup ha,
    List.flatMap_singleton]

end Node

namespace Plan

/-- Every block of rows is one record. -/
theorem nest_flatMap (hnodup : (l.map key).Nodup) (h : ∀ a ∈ l, n.Keys blocks key a) :
    p.nest answers (.node n children) (l.flatMap blocks) = l.map fun a =>
      .object ((n.firstValues (blocks a)).entries.map (fun (column, value) => (column, value.toJson)) ++
        p.nestBelow answers n (blocks a) children) := by
  rw [nest_node, Node.keys_flatMap hnodup h, List.map_map]
  refine List.map_congr_left fun a ha => ?_
  simp only [Function.comp_apply, Node.rowsOf_flatMap hnodup h ha]

/-- Two families of answers have the same rows for the records of a tree. -/
def Alike (p : Plan) (answers answers' : Nat → List Row) (t : LoadTree) (rows : List Row) : Prop :=
  ∀ u ∈ t.subtrees, ∀ c ∈ u.children, c.info.source ≠ u.info.source → ∀ i b,
    c.info.source = .batch i → p.batches[i]? = some b →
    ∀ values ∈ p.recordsOf answers u.info.id t rows,
      b.linked values (answers i) = b.linked values (answers' i)

/-- Answers that have the same rows for the records are nested in the same way. -/
theorem Alike.nest_eq (h : p.Alike answers answers' t rows) :
    p.nest answers t rows = p.nest answers' t rows := by
  induction t using LoadTree.induction generalizing rows with
  | node n children ih =>
    rw [nest_node, nest_node]
    refine List.map_congr_left fun key hkey => ?_
    have hbelow : ∀ c ∈ children, p.rowsBelow answers n (n.rowsOf key rows) c.info =
        p.rowsBelow answers' n (n.rowsOf key rows) c.info := by
      intro c hc
      by_cases hsource : c.info.source = n.source
      · rw [rowsBelow_of_eq hsource, rowsBelow_of_eq hsource]
      · rw [rowsBelow, rowsBelow, if_neg hsource, if_neg hsource]
        split
        · rfl
        · rename_i i hi
          split
          · rename_i b hb
            refine h _ (LoadTree.mem_subtrees_self _) c hc hsource i b hi hb _ ?_
            exact mem_recordsOf.mpr ⟨key, hkey, .inl ⟨rfl, rfl⟩⟩
          · rfl
    simp only [nestBelow_eq_map]
    refine congrArg Json.object (congrArg _ (List.map_congr_left fun c hc => ?_))
    rw [← hbelow c hc, ih c hc]
    intro u hu c' hc' hsource i b hi hb values hvalues
    refine h u ?_ c' hc' hsource i b hi hb values ?_
    · exact LoadTree.mem_subtrees_node.mpr (.inr ⟨c, hc, hu⟩)
    · exact mem_recordsOf.mpr ⟨key, hkey, .inr ⟨c, hc, hvalues⟩⟩

end Plan

end EagerLoad
