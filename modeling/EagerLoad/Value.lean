import EagerLoad.Calendar
import EagerLoad.Json
import EagerLoad.Text.Basic

/-!
# Database values

Values that columns hold and statements bind. Each value has a JSON form, and the compact text of that
form is the identity by which rows are grouped. JSON reads back as a value of the narrowest integer
type that holds it; an object stays JSON.
-/

namespace EagerLoad

/-- A universally unique identifier: 128 bits, written as 32 hexadecimal digits in groups of 8, 4, 4, 4
and 12. -/
structure Uuid where
  bits : BitVec 128
deriving DecidableEq

namespace Uuid

/-- Read 32 hexadecimal digits, leaving hyphens out of account. -/
def ofText? (s : String) : Option Uuid := do
  let digits := s.toList.filter (· ≠ '-')
  guard (digits.length = 32 ∧ digits.all Text.isHexDigit)
  return ⟨BitVec.ofNat 128 (Text.natOfDigits 16 digits)⟩

/-- The text in lower case with hyphens. -/
def text (u : Uuid) : String :=
  let digits := (List.range 32).map fun i => Nat.digitChar ((u.bits.toNat >>> (4 * (31 - i))) % 16)
  String.ofList (digits.take 8 ++ '-' :: (digits.drop 8).take 4 ++ '-' :: (digits.drop 12).take 4
    ++ '-' :: (digits.drop 16).take 4 ++ '-' :: digits.drop 20)

end Uuid

/-- A value of a column or a bound parameter. -/
inductive Value where
  | null
  | bool (b : Bool)
  | int32 (n : Int32)
  | int64 (n : Int64)
  | float32 (x : Float32)
  | float64 (x : Float)
  | text (s : String)
  | bytes (content : List UInt8)
  | uuid (u : Uuid)
  | dateTime (i : Instant)
  | date (d : Date)
  | time (t : TimeOfDay)
  | json (j : Json)
  | array (items : List Value)

namespace Value

instance : Inhabited Value := ⟨.null⟩

/-- Whether the value is SQL's null. The JSON null is a value like others. -/
def isNull : Value → Bool
  | .null => true
  | _ => false

theorem isNull_iff {v : Value} : v.isNull = true ↔ v = .null := by
  cases v <;> simp [isNull]

end Value

/-- A 32-bit integer as a JSON number. -/
def Number.ofInt32 (n : Int32) : Number :=
  .int n.toInt (Int.le_trans (by decide) n.le_toInt) (Int.lt_trans n.toInt_lt (by decide))

/-- A 64-bit integer as a JSON number. -/
def Number.ofInt64 (n : Int64) : Number :=
  .int n.toInt n.le_toInt (Int.lt_trans n.toInt_lt (by decide))

/-- A byte as a JSON number. -/
def Number.ofByte (n : UInt8) : Number :=
  .int n.toNat (Int.le_trans (by decide) (Int.natCast_nonneg _))
    (Int.lt_trans (Int.ofNat_lt.mpr n.toNat_lt) (by decide))

/-- A 32-bit number as a 64-bit one. -/
def widen (x : Float32) : Float :=
  .ofBits (.ofNat (Decimal.widened x.toBits.toNat))

mutual

/-- The JSON form of a value. Identifiers, dates and times are strings, bytes are an array. -/
def Value.toJson : Value → Json
  | .null => .null
  | .bool b => .bool b
  | .int32 n => .num (.ofInt32 n)
  | .int64 n => .num (.ofInt64 n)
  | .float32 x => .ofFloat (widen x)
  | .float64 x => .ofFloat x
  | .text s => .str s
  | .bytes content => .arr (content.map fun n => .num (.ofByte n))
  | .uuid u => .str u.text
  | .dateTime i => .str (i.text ++ "+00:00")
  | .date d => .str d.text
  | .time t => .str t.text
  | .json j => j
  | .array items => .arr (Value.toJsonItems items)

/-- The JSON forms of the items of an array. -/
def Value.toJsonItems : List Value → List Json
  | [] => []
  | item :: rest => item.toJson :: Value.toJsonItems rest

end

/-- The value of a JSON number: the narrowest signed integer type that holds it, else a 64-bit float. -/
def Number.toValue : Number → Value
  | .int n _ _ =>
    if -0x80000000 ≤ n ∧ n < 0x80000000 then .int32 (.ofInt n)
    else if n < 0x8000000000000000 then .int64 (.ofInt n)
    else .float64 (.ofNat n.toNat)
  | .real x _ => .float64 x

mutual

/-- The value of a JSON value. Strings stay text, arrays are read item by item, objects stay JSON. -/
def Value.ofJson : Json → Value
  | .null => .null
  | .bool b => .bool b
  | .num n => n.toValue
  | .str s => .text s
  | .arr items => .array (Value.ofJsonItems items)
  | .obj fields => .json (.obj fields)

/-- The values of the items of a JSON array. -/
def Value.ofJsonItems : List Json → List Value
  | [] => []
  | item :: rest => Value.ofJson item :: Value.ofJsonItems rest

end

/-- The text by which values are compared when rows are grouped. -/
def Value.identity (v : Value) : String :=
  v.toJson.text

end EagerLoad
