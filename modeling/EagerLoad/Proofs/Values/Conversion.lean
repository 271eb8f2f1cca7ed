import EagerLoad.Proofs.Description.Fingerprint
import EagerLoad.Proofs.Maps
import EagerLoad.Proofs.Values.Texts
import EagerLoad.Row

/-!
# JSON read as values and written back

Reading a JSON value takes its numbers apart by size and keeps its objects as they are. Written back it is
the value that was read, unless an integer above the signed 64-bit range was read as a floating-point
number. Reading what was written gives the same value again in any case.
-/

namespace EagerLoad

namespace Json

/-- A number stands in a JSON value outside every object. -/
inductive Occurs (n : Number) : Json → Prop
  | number : Occurs n (.num n)
  | item {items : List Json} {item : Json} : item ∈ items → Occurs n item → Occurs n (.arr items)

/-- No integer outside the objects is above the signed 64-bit range. -/
def Narrow (j : Json) : Prop :=
  ∀ n lower upper, j.Occurs (.int n lower upper) → n < 0x8000000000000000

theorem narrow_arr {items : List Json} : (arr items).Narrow ↔ ∀ item ∈ items, item.Narrow := by
  constructor
  · exact fun h item hitem n lower upper hn => h n lower upper (.item hitem hn)
  · intro h n lower upper hn
    cases hn with
    | item hitem hn => exact h _ hitem n lower upper hn

end Json

namespace Value

theorem ofJsonItems_eq_map (items : List Json) : ofJsonItems items = items.map ofJson := by
  induction items with
  | nil => rfl
  | cons item rest ih => rw [ofJsonItems, ih, List.map_cons]

theorem toJsonItems_eq_map (items : List Value) : toJsonItems items = items.map toJson := by
  induction items with
  | nil => rfl
  | cons item rest ih => rw [toJsonItems, ih, List.map_cons]

theorem toJson_ofJson_arr (items : List Json) :
    (ofJson (.arr items)).toJson = .arr (items.map fun item => (ofJson item).toJson) := by
  rw [ofJson, toJson, ofJsonItems_eq_map, toJsonItems_eq_map, List.map_map]
  rfl

end Value

namespace Number

variable {n : Int} (lower : -0x8000000000000000 ≤ n) (upper : n < 0x10000000000000000)

/-- An integer of the signed range is written back as it was read. -/
theorem toJson_toValue_of_lt (h : n < 0x8000000000000000) :
    (int n lower upper).toValue.toJson = .num (.int n lower upper) := by
  unfold toValue
  dsimp only
  split
  · rename_i hnarrow
    simp only [Value.toJson, ofInt32, Int32.toInt_ofInt_of_le hnarrow.1 hnarrow.2]
  · simp only [Value.toJson, ofInt64, Int64.toInt_ofInt_of_le lower h]

/-- An integer above that range is read as a floating-point number, and that is finite. -/
theorem toValue_of_le (h : 0x8000000000000000 ≤ n) : ∃ finite : (Float.ofNat n.toNat).isFinite = true,
    (int n lower upper).toValue = .float64 (.ofNat n.toNat) ∧
      (int n lower upper).toValue.toJson = .num (.real (.ofNat n.toNat) finite) := by
  have hfinite : (Float.ofNat n.toNat).isFinite = true := Decimal.isFinite_ofNat (by omega) (by omega)
  have hvalue : (int n lower upper).toValue = .float64 (.ofNat n.toNat) := by
    unfold toValue
    dsimp only
    rw [if_neg (by omega), if_neg (by omega)]
  refine ⟨hfinite, hvalue, ?_⟩
  rw [hvalue, Value.toJson, Json.ofFloat_of_isFinite hfinite]

end Number

namespace Value

/-- What was written and is read again is the value that was written. -/
theorem ofJson_toJson_ofJson (j : Json) : ofJson (ofJson j).toJson = ofJson j := by
  induction j using Json.induction with
  | num n =>
    rw [ofJson]
    cases n with
    | int n lower upper =>
      rcases Int.lt_or_le n 0x8000000000000000 with h | h
      · rw [Number.toJson_toValue_of_lt lower upper h, ofJson]
      · obtain ⟨finite, hvalue, hjson⟩ := Number.toValue_of_le lower upper h
        rw [hjson, hvalue]
        rfl
    | real x finite =>
      rw [Number.toValue, toJson, Json.ofFloat_of_isFinite finite]
      rfl
  | arr items ih =>
    rw [toJson_ofJson_arr, ofJson, ofJson, ofJsonItems_eq_map, ofJsonItems_eq_map, List.map_map]
    exact congrArg array (List.map_congr_left ih)
  | _ => rfl

/-- What is read is written back exactly if it is narrow. -/
theorem toJson_ofJson_iff (j : Json) : (ofJson j).toJson = j ↔ j.Narrow := by
  induction j using Json.induction with
  | num n =>
    rw [ofJson]
    cases n with
    | int n lower upper =>
      rcases Int.lt_or_le n 0x8000000000000000 with h | h
      · refine iff_of_true (Number.toJson_toValue_of_lt lower upper h) fun m _ _ hm => ?_
        cases hm
        exact h
      · obtain ⟨finite, -, hjson⟩ := Number.toValue_of_le lower upper h
        rw [hjson]
        refine iff_of_false (fun hnumber => ?_) fun hnarrow => absurd (hnarrow n lower upper .number) (by omega)
        cases hnumber
    | real x finite =>
      rw [Number.toValue, toJson, Json.ofFloat_of_isFinite finite]
      refine iff_of_true rfl fun m _ _ hm => ?_
      cases hm
  | arr items ih =>
    rw [toJson_ofJson_arr, Json.narrow_arr, Json.arr.injEq]
    nth_rewrite 2 [← List.map_id items]
    rw [List.map_inj_left]
    exact forall₂_congr ih
  | _ =>
    refine iff_of_true rfl fun m _ _ hm => ?_
    cases hm

end Value

/-- The row of an object is written back as the object, if its fields are. -/
theorem Row.toJson_of_ofJson {map : KeyMap Json} (h : ∀ field ∈ map.entries, field.2.Narrow) :
    ∃ row, ofJson (.ofMap map) = .ok row ∧ row.toJson = .ok (.ofMap map) := by
  refine ⟨_, rfl, ?_⟩
  have hfields : (map.entries.map fun field => (field.1, (Value.ofJson field.2).toJson)) = map.entries := by
    nth_rewrite 2 [← List.map_id map.entries]
    refine List.map_congr_left fun field hfield => ?_
    rw [(Value.toJson_ofJson_iff field.2).mpr (h field hfield), id]
  rw [toJson, decoded_ofValues]
  change Except.ok (Json.object _) = _
  rw [List.map_map, Function.comp_def, hfields, Json.object, KeyMap.entries_ofList map.ascending]
  rfl

/-- Reading what was written gives the same value. What is written is what was read exactly if no integer
outside the objects is above the signed 64-bit range, and an object whose fields are of this kind is read as
a row that is written back as the object. -/
theorem conversions_settle :
    (∀ j, Value.ofJson (Value.ofJson j).toJson = Value.ofJson j) ∧
    (∀ j, (Value.ofJson j).toJson = j ↔
      ∀ n lower upper, j.Occurs (.int n lower upper) → n < 0x8000000000000000) ∧
    ∀ map : KeyMap Json,
      (∀ field ∈ map.entries, ∀ n lower upper, field.2.Occurs (.int n lower upper) → n < 0x8000000000000000) →
        ∃ row, Row.ofJson (.ofMap map) = .ok row ∧ row.toJson = .ok (.ofMap map) :=
  ⟨Value.ofJson_toJson_ofJson, Value.toJson_ofJson_iff, fun _ => Row.toJson_of_ofJson⟩

/-- An object with the greatest signed integer in an array, and a greater one in an object. -/
theorem greatest_settles :
    let greatest : Json := .num (.int 0x7fffffffffffffff (by decide) (by decide))
    let above : Json := .num (.int 0x8000000000000000 (by decide) (by decide))
    let map : KeyMap Json := .ofList [("ids", .arr [greatest]), ("meta", .obj [("id", above)])]
    ∃ row, Row.ofJson (.ofMap map) = .ok row ∧ row.toJson = .ok (.ofMap map) := by
  intro greatest above map
  refine conversions_settle.2.2 map ?_
  intro field hfield n lower upper hn
  have hentries : map.entries = [("ids", .arr [greatest]), ("meta", .obj [("id", above)])] :=
    KeyMap.entries_ofList (.cons (List.forall_mem_singleton.mpr (by decide +kernel)) (.cons nofun .nil))
  rw [hentries] at hfield
  simp only [List.mem_cons, List.not_mem_nil, or_false] at hfield
  rcases hfield with rfl | rfl
  · cases hn with
    | item hitem hn =>
      rw [List.mem_singleton.mp hitem] at hn
      unfold greatest at hn
      cases hn
      decide
  · cases hn

end EagerLoad
