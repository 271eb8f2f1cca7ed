import EagerLoad.Proofs.Description.Words
import EagerLoad.Proofs.Sql.Placeholders
import Std.Data.String.ToInt

/-!
# Descriptions as fingerprints

Values and conditions that are described alike are equal, as far as the texts of their numbers with a
fraction, identifiers, dates and times tell these apart.
-/

namespace EagerLoad

open Description

/-- Lists are equal if a map that tells their elements apart makes them equal. -/
theorem eq_of_map_eq {α β : Type} {f : α → β} {xs ys : List α}
    (h : ∀ x ∈ xs, ∀ y ∈ ys, f x = f y → x = y) (heq : xs.map f = ys.map f) : xs = ys := by
  induction xs generalizing ys with
  | nil => exact (List.map_eq_nil_iff.mp heq.symm).symm
  | cons x rest ih =>
    cases ys with
    | nil => cases heq
    | cons y rest' =>
      obtain ⟨hfirst, hrest⟩ := List.cons.inj heq
      rw [h x List.mem_cons_self y List.mem_cons_self hfirst, ih (fun x hx y hy =>
        h x (List.mem_cons_of_mem _ hx) y (List.mem_cons_of_mem _ hy)) hrest]

namespace Json

/-- A statement about JSON values holds if it passes from their parts to them. -/
@[elab_as_elim]
theorem induction {motive : Json → Prop} (null : motive .null) (bool : ∀ b, motive (.bool b))
    (num : ∀ n, motive (.num n)) (str : ∀ s, motive (.str s))
    (arr : ∀ items, (∀ j ∈ items, motive j) → motive (.arr items))
    (obj : ∀ fields : List (String × Json), (∀ field ∈ fields, motive field.2) → motive (.obj fields)) :
    ∀ j, motive j
  | .null => null
  | .bool b => bool b
  | .num n => num n
  | .str s => str s
  | .arr items => arr items fun j _ => induction null bool num str arr obj j
  | .obj fields => obj fields fun field hfield =>
    have : sizeOf field.2 < sizeOf fields :=
      Nat.lt_trans (by cases field; simp +arith) (List.sizeOf_lt_of_mem hfield)
    induction null bool num str arr obj field.2

mutual

/-- The numbers in a JSON value. -/
def leaves : Json → List Value
  | .num n => [.json (.num n)]
  | .arr items => itemLeaves items
  | .obj fields => fieldLeaves fields
  | _ => []

/-- The numbers in the items of an array. -/
def itemLeaves : List Json → List Value
  | [] => []
  | item :: rest => item.leaves ++ itemLeaves rest

/-- The numbers in the fields of an object. -/
def fieldLeaves : List (String × Json) → List Value
  | [] => []
  | (_, value) :: rest => value.leaves ++ fieldLeaves rest

end

theorem itemLeaves_eq_flatMap (items : List Json) : itemLeaves items = items.flatMap leaves := by
  induction items with
  | nil => rfl
  | cons item rest ih => rw [itemLeaves, ih, List.flatMap_cons]

theorem fieldLeaves_eq_flatMap (fields : List (String × Json)) :
    fieldLeaves fields = fields.flatMap fun field => field.2.leaves := by
  induction fields with
  | nil => rfl
  | cons field rest ih => rw [fieldLeaves, ih, List.flatMap_cons]

theorem describeItems_eq_map (items : List Json) : describeItems items = items.map describe := by
  induction items with
  | nil => rfl
  | cons item rest ih => rw [describeItems, ih, List.map_cons]

theorem describeFields_eq_map (fields : List (String × Json)) :
    describeFields fields = fields.map fun field => (field.1, field.2.describe) := by
  induction fields with
  | nil => rfl
  | cons field rest ih => rw [describeFields, ih, List.map_cons]

end Json

namespace Description

theorem Clear.single {name : String} {d : Description} (hname : isWord name = true) (hd : Clear d) :
    Clear (.tuple name [d]) :=
  .tuple hname (by simpa using hd)

theorem clear_ofBool (b : Bool) : Clear (.ofBool b) := by
  cases b <;> exact .word rfl

theorem ofString_injective {s t : String} (h : ofString s = ofString t) : s = t := by
  have hquote : quote s = quote t := atom.inj h
  have htext : (quote s).toList ++ [] = (quote t).toList ++ [] := by rw [hquote]
  exact (quote_unique htext).1

theorem ofBool_injective {b c : Bool} (h : ofBool b = ofBool c) : b = c := by
  cases b <;> cases c <;> simp [ofBool] at h ⊢

theorem clear_ofString (s : String) : Clear (.ofString s) :=
  .quoted s

/-- A record whose fields have the given names. -/
theorem Clear.named (names : List String) {name : String} {fields : List (String × Description)}
    (hname : isWord name = true) (hnames : fields.map (·.1) = names)
    (hwords : (names.all fun field => isWord field && !field.toList.contains ':') = true)
    (h : (fields.map (·.2)).Forall Clear) : Clear (.record name fields) := by
  refine .record hname (fun field hfield => ?_) (List.forall_mem_map.mp (List.forall_iff_forall_mem.mp h))
  rw [← hnames] at hwords
  simpa using List.all_eq_true.mp hwords field.1 (List.mem_map_of_mem hfield)

/-- Several descriptions in brackets. -/
theorem Clear.list {α : Type} {f : α → Description} {xs : List α} (h : ∀ x ∈ xs, Clear (f x)) :
    Clear (.sequence "" (xs.map f)) :=
  .sequence (.inl rfl) (List.forall_mem_map.mpr h)

end Description

theorem Json.clear (j : Json) : j.describe.Clear := by
  induction j using Json.induction with
  | null => exact .word rfl
  | bool b => exact .single rfl (clear_ofBool b)
  | num n => exact .single rfl (.word (isWord_number n))
  | str s => exact .single rfl (clear_ofString s)
  | arr items ih =>
    rw [describe, describeItems_eq_map]
    exact .sequence (.inr ⟨"Array", rfl, rfl⟩) (List.forall_mem_map.mpr ih)
  | obj fields ih =>
    rw [describe, describeFields_eq_map]
    exact .dictionary (.inr ⟨"Object", rfl, rfl⟩) (List.forall_mem_map.mpr ih)

namespace Value

/-- A statement about values holds if it passes from the items of arrays to these, and holds of all else. -/
@[elab_as_elim]
theorem induction {motive : Value → Prop} (array : ∀ items, (∀ v ∈ items, motive v) → motive (.array items))
    (other : ∀ v, (∀ items, v ≠ .array items) → motive v) : ∀ v, motive v
  | .array items => array items fun v _ => induction array other v
  | .null => other _ (by simp)
  | .bool _ => other _ (by simp)
  | .int32 _ => other _ (by simp)
  | .int64 _ => other _ (by simp)
  | .float32 _ => other _ (by simp)
  | .float64 _ => other _ (by simp)
  | .text _ => other _ (by simp)
  | .bytes _ => other _ (by simp)
  | .uuid _ => other _ (by simp)
  | .dateTime _ => other _ (by simp)
  | .date _ => other _ (by simp)
  | .time _ => other _ (by simp)
  | .json _ => other _ (by simp)

mutual

/-- The parts of a value that are told apart by nothing but their text: numbers with a fraction,
identifiers, dates and times, and the numbers of JSON. -/
def leaves : Value → List Value
  | .float32 x => [.float32 x]
  | .float64 x => [.float64 x]
  | .uuid u => [.uuid u]
  | .dateTime i => [.dateTime i]
  | .date d => [.date d]
  | .time t => [.time t]
  | .json j => j.leaves
  | .array items => itemLeaves items
  | _ => []

/-- The leaves of the items of an array. -/
def itemLeaves : List Value → List Value
  | [] => []
  | item :: rest => item.leaves ++ itemLeaves rest

end

theorem itemLeaves_eq_flatMap (items : List Value) : itemLeaves items = items.flatMap leaves := by
  induction items with
  | nil => rfl
  | cons item rest ih => rw [itemLeaves, ih, List.flatMap_cons]

theorem describeItems_eq_map (items : List Value) : describeItems items = items.map describe := by
  induction items with
  | nil => rfl
  | cons item rest ih => rw [describeItems, ih, List.map_cons]

theorem clear (v : Value) : v.describe.Clear := by
  induction v using Value.induction with
  | array items ih =>
    rw [describe, describeItems_eq_map]
    exact .single rfl (.list ih)
  | other v hv =>
    cases v with
    | null => exact .word rfl
    | bool b => exact .single rfl (clear_ofBool b)
    | int32 n => exact .single rfl (.word (isWord_intToString _))
    | int64 n => exact .single rfl (.word (isWord_intToString _))
    | float32 x => exact .single rfl (.word (isWord_numberText _ _))
    | float64 x => exact .single rfl (.word (isWord_numberText _ _))
    | text s => exact .single rfl (clear_ofString s)
    | bytes content => exact .single rfl (.list fun n _ => .word (isWord_toString _))
    | uuid u => exact .single rfl (.word (isWord_uuid u))
    | dateTime i => exact .single rfl (.word (isWord_instant i))
    | date d => exact .single rfl (.word (isWord_date d))
    | time t => exact .single rfl (.word (isWord_time t))
    | json j => exact .single rfl j.clear
    | array items => exact absurd rfl (hv items)

end Value

/-- Leaves that are told apart by their texts. -/
def Legible (leaves : List Value) : Prop :=
  ∀ v ∈ leaves, ∀ w ∈ leaves, v.describe.text = w.describe.text → v = w

section Equal

variable {leaves : List Value}

/-- What a whole has among its leaves, each part has. -/
theorem part_subset {α : Type} {f : α → List Value} {xs : List α} (h : xs.flatMap f ⊆ leaves) {x : α}
    (hx : x ∈ xs) : f x ⊆ leaves :=
  fun _ hv => h (List.mem_flatMap.mpr ⟨x, hx, hv⟩)

/-- JSON values described alike are equal. -/
theorem Json.eq_of_describe (h : Legible leaves) {i j : Json} (hi : i.leaves ⊆ leaves)
    (hj : j.leaves ⊆ leaves) (heq : i.describe = j.describe) : i = j := by
  induction i using Json.induction generalizing j with
  | null => cases j <;> simp [describe] at heq ⊢
  | bool b =>
    cases j with
    | bool c =>
      simp only [describe, tuple.injEq, List.cons.injEq, and_true, true_and] at heq
      rw [ofBool_injective heq]
    | _ => simp [describe] at heq
  | num n =>
    cases j with
    | num m =>
      have hvalue := h (.json (.num n)) (hi List.mem_cons_self) (.json (.num m)) (hj List.mem_cons_self)
        (by rw [Value.describe, Value.describe, heq])
      exact Value.json.inj hvalue
    | _ => simp [describe] at heq
  | str s =>
    cases j with
    | str t =>
      simp only [describe, tuple.injEq, List.cons.injEq, and_true, true_and] at heq
      rw [ofString_injective heq]
    | _ => simp [describe] at heq
  | arr items ih =>
    cases j with
    | arr items' =>
      simp only [describe, describeItems_eq_map, sequence.injEq, true_and] at heq
      rw [Json.leaves, itemLeaves_eq_flatMap] at hi hj
      rw [eq_of_map_eq (fun x hx y hy => ih x hx (part_subset hi hx) (part_subset hj hy)) heq]
    | _ => simp [describe] at heq
  | obj fields ih =>
    cases j with
    | obj fields' =>
      simp only [describe, describeFields_eq_map, dictionary.injEq, true_and] at heq
      rw [Json.leaves, fieldLeaves_eq_flatMap] at hi hj
      refine congrArg Json.obj (eq_of_map_eq (fun x hx y hy hxy => ?_) heq)
      obtain ⟨hkey, hvalue⟩ := Prod.mk.inj hxy
      exact Prod.ext hkey (ih x hx (part_subset hi hx) (part_subset hj hy) hvalue)
    | _ => simp [describe] at heq

/-- A leaf is equal to what is described like it. -/
theorem Legible.eq (h : Legible leaves) {v w : Value} (hv : [v] ⊆ leaves) (hw : [w] ⊆ leaves)
    (heq : v.describe = w.describe) : v = w :=
  h v (hv List.mem_cons_self) w (hw List.mem_cons_self) (congrArg Description.text heq)

/-- Values described alike are equal. -/
theorem Value.eq_of_describe (h : Legible leaves) {v w : Value} (hv : v.leaves ⊆ leaves)
    (hw : w.leaves ⊆ leaves) (heq : v.describe = w.describe) : v = w := by
  induction v using Value.induction generalizing w with
  | array items ih =>
    cases w with
    | array items' =>
      simp only [describe, describeItems_eq_map, tuple.injEq, List.cons.injEq, and_true, true_and,
        sequence.injEq] at heq
      rw [Value.leaves, itemLeaves_eq_flatMap] at hv hw
      rw [eq_of_map_eq (fun x hx y hy => ih x hx (part_subset hv hx) (part_subset hw hy)) heq]
    | _ => simp [describe] at heq
  | other v hother =>
    cases v with
    | null => cases w <;> simp [describe] at heq ⊢
    | bool b =>
      cases w with
      | bool c =>
        simp only [describe, tuple.injEq, List.cons.injEq, and_true, true_and] at heq
        rw [ofBool_injective heq]
      | _ => simp [describe] at heq
    | int32 n =>
      cases w with
      | int32 m =>
        simp only [describe, tuple.injEq, List.cons.injEq, and_true, true_and, atom.injEq] at heq
        rw [Int32.toInt_inj.mp (Int.repr_injective heq)]
      | _ => simp [describe] at heq
    | int64 n =>
      cases w with
      | int64 m =>
        simp only [describe, tuple.injEq, List.cons.injEq, and_true, true_and, atom.injEq] at heq
        rw [Int64.toInt_inj.mp (Int.repr_injective heq)]
      | _ => simp [describe] at heq
    | text s =>
      cases w with
      | text t =>
        simp only [describe, tuple.injEq, List.cons.injEq, and_true, true_and] at heq
        rw [ofString_injective heq]
      | _ => simp [describe] at heq
    | bytes content =>
      cases w with
      | bytes content' =>
        simp only [describe, tuple.injEq, List.cons.injEq, and_true, true_and, sequence.injEq] at heq
        have hbytes := eq_of_map_eq (fun n _ m _ hnm =>
          UInt8.toNat_inj.mp (Nat.repr_injective (atom.inj hnm))) heq
        rw [hbytes]
      | _ => simp [describe] at heq
    | float32 x =>
      cases w with
      | float32 y => exact h.eq hv hw heq
      | _ => simp [describe] at heq
    | float64 x =>
      cases w with
      | float64 y => exact h.eq hv hw heq
      | _ => simp [describe] at heq
    | uuid u =>
      cases w with
      | uuid u' => exact h.eq hv hw heq
      | _ => simp [describe] at heq
    | dateTime i =>
      cases w with
      | dateTime i' => exact h.eq hv hw heq
      | _ => simp [describe] at heq
    | date d =>
      cases w with
      | date d' => exact h.eq hv hw heq
      | _ => simp [describe] at heq
    | time t =>
      cases w with
      | time t' => exact h.eq hv hw heq
      | _ => simp [describe] at heq
    | json j =>
      cases w with
      | json k =>
        simp only [describe, tuple.injEq, List.cons.injEq, and_true, true_and] at heq
        rw [Json.eq_of_describe h hv hw heq]
      | _ => simp [describe] at heq
    | array items => exact absurd rfl (hother items)

end Equal

namespace Sql

theorem Column.clear (c : Column) : c.describe.Clear := by
  refine .named ["qualifier", "name"] rfl rfl rfl ⟨?_, clear_ofString c.name⟩
  cases c.qualifier with
  | none => exact .word rfl
  | some a => exact .single rfl (clear_ofString a)

theorem Column.eq_of_describe {c d : Column} (h : c.describe = d.describe) : c = d := by
  obtain ⟨qualifier, name⟩ := c
  obtain ⟨qualifier', name'⟩ := d
  simp only [describe, record.injEq, List.cons.injEq, Prod.mk.injEq, true_and, and_true] at h
  obtain ⟨hqualifier, hname⟩ := h
  rw [ofString_injective hname]
  cases qualifier <;> cases qualifier' <;>
    simp only [Option.map, ofOption, tuple.injEq, List.cons.injEq, and_true, true_and, reduceCtorEq]
      at hqualifier
  · rfl
  · rw [ofString_injective hqualifier]

theorem Comparison.eq_of_name {o o' : Comparison} (h : o.name = o'.name) : o = o' := by
  cases o <;> cases o' <;> first | rfl | (revert h; decide)

namespace Condition

theorem describeAll_eq_map (items : List Condition) : describeAll items = items.map describe := by
  induction items with
  | nil => rfl
  | cons item rest ih => rw [describeAll, ih, List.map_cons]

/-- The leaves of the values of a condition. -/
def leaves (c : Condition) : List Value :=
  c.values.flatMap Value.leaves

theorem clear (c : Condition) : c.describe.Clear := by
  induction c using induction with
  | compare column operator v =>
    exact .named ["column", "operator", "value"] rfl rfl rfl
      ⟨column.clear, .word (by cases operator <;> rfl), v.clear⟩
  | inList column values negated =>
    exact .named ["column", "values", "negated"] rfl rfl rfl
      ⟨column.clear, .list fun v _ => v.clear, clear_ofBool negated⟩
  | isNull column negated =>
    exact .named ["column", "negated"] rfl rfl rfl ⟨column.clear, clear_ofBool negated⟩
  | columnsEqual left right =>
    refine .tuple rfl (List.forall_iff_forall_mem.mp ?_)
    exact ⟨left.clear, right.clear⟩
  | and items ih =>
    rw [describe, describeAll_eq_map]
    exact .single rfl (.list ih)
  | or items ih =>
    rw [describe, describeAll_eq_map]
    exact .single rfl (.list ih)
  | not c ih => exact .single rfl ih
  | literal truth => exact .single rfl (clear_ofBool truth)

theorem leaves_group (items : List Condition) :
    (valuesAll items).flatMap Value.leaves = items.flatMap leaves := by
  rw [valuesAll_eq_flatMap, List.flatMap_assoc]
  rfl

/-- Conditions described alike are equal. -/
theorem eq_of_describe {parts : List Value} (h : Legible parts) {c d : Condition} (hc : c.leaves ⊆ parts)
    (hd : d.leaves ⊆ parts) (heq : c.describe = d.describe) : c = d := by
  induction c using induction generalizing d with
  | compare column operator v =>
    cases d with
    | compare column' operator' v' =>
      simp only [describe, record.injEq, List.cons.injEq, Prod.mk.injEq, true_and, and_true,
        atom.injEq] at heq
      obtain ⟨hcolumn, hoperator, hvalue⟩ := heq
      rw [leaves, values, List.flatMap_singleton] at hc hd
      rw [Column.eq_of_describe hcolumn, Comparison.eq_of_name hoperator,
        Value.eq_of_describe h hc hd hvalue]
    | _ => simp [describe] at heq
  | inList column values negated =>
    cases d with
    | inList column' values' negated' =>
      simp only [describe, record.injEq, List.cons.injEq, Prod.mk.injEq, true_and, and_true,
        sequence.injEq] at heq
      obtain ⟨hcolumn, hvalues, hnegated⟩ := heq
      obtain rfl : values = values' := eq_of_map_eq (fun v hv w hw =>
        Value.eq_of_describe h (part_subset hc hv) (part_subset hd hw)) hvalues
      rw [Column.eq_of_describe hcolumn, ofBool_injective hnegated]
    | _ => simp [describe] at heq
  | isNull column negated =>
    cases d with
    | isNull column' negated' =>
      simp only [describe, record.injEq, List.cons.injEq, Prod.mk.injEq, true_and, and_true] at heq
      rw [Column.eq_of_describe heq.1, ofBool_injective heq.2]
    | _ => simp [describe] at heq
  | columnsEqual left right =>
    cases d with
    | columnsEqual left' right' =>
      simp only [describe, tuple.injEq, List.cons.injEq, true_and, and_true] at heq
      rw [Column.eq_of_describe heq.1, Column.eq_of_describe heq.2]
    | _ => simp [describe] at heq
  | and items ih =>
    cases d with
    | and items' =>
      simp only [describe, describeAll_eq_map, tuple.injEq, List.cons.injEq, and_true, true_and,
        sequence.injEq] at heq
      rw [leaves, values, leaves_group] at hc hd
      rw [eq_of_map_eq (fun x hx y hy => ih x hx (part_subset hc hx) (part_subset hd hy)) heq]
    | _ => simp [describe] at heq
  | or items ih =>
    cases d with
    | or items' =>
      simp only [describe, describeAll_eq_map, tuple.injEq, List.cons.injEq, and_true, true_and,
        sequence.injEq] at heq
      rw [leaves, values, leaves_group] at hc hd
      rw [eq_of_map_eq (fun x hx y hy => ih x hx (part_subset hc hx) (part_subset hd hy)) heq]
    | _ => simp [describe] at heq
  | not c ih =>
    cases d with
    | not other =>
      simp only [describe, tuple.injEq, List.cons.injEq, and_true, true_and] at heq
      have hother : other.leaves ⊆ parts := hd
      rw [ih hc hother heq]
    | _ => simp [describe] at heq
  | literal truth =>
    cases d with
    | literal truth' =>
      simp only [describe, tuple.injEq, List.cons.injEq, and_true, true_and] at heq
      rw [ofBool_injective heq]
    | _ => simp [describe] at heq

end Condition

end Sql

end EagerLoad
