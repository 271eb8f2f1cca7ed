import EagerLoad.Decimal.Layout
import EagerLoad.KeyMap

/-!
# JSON values and their compact text

Numbers are integers of the signed or unsigned 64-bit range or finite floating-point numbers, so every
value has a text. The compact text has no blanks and escapes only quotes, backslashes and control
characters.
-/

namespace EagerLoad

/-- A JSON number. -/
inductive Number where
  /-- An integer between the least signed and the greatest unsigned 64-bit one. -/
  | int (n : Int) (lower : -0x8000000000000000 ≤ n) (upper : n < 0x10000000000000000)
  /-- A finite number with a fraction or an exponent. -/
  | real (x : Float) (finite : x.isFinite = true)
deriving DecidableEq

/-- The integer as a number, when it is in range. -/
def Number.ofInt? (n : Int) : Option Number :=
  if h : -0x8000000000000000 ≤ n ∧ n < 0x10000000000000000 then some (.int n h.1 h.2) else none

/-- The floating-point number, when it is finite. -/
def Number.ofFloat? (x : Float) : Option Number :=
  if h : x.isFinite = true then some (.real x h) else none

/-- A JSON value. The fields of an object are kept as a list; `Json.object` puts them in key order. -/
inductive Json where
  | null
  | bool (b : Bool)
  | num (n : Number)
  | str (s : String)
  | arr (items : List Json)
  | obj (fields : List (String × Json))

namespace Json

instance : Inhabited Json := ⟨.null⟩

/-- The object with these fields in key order; of equal keys the last one counts. -/
def object (fields : List (String × Json)) : Json :=
  .obj (KeyMap.ofList fields).entries

/-- The object of a map. -/
def ofMap (map : KeyMap Json) : Json :=
  .obj map.entries

/-- A floating-point number, or null when JSON has no text for it. -/
def ofFloat (x : Float) : Json :=
  match Number.ofFloat? x with
  | some n => .num n
  | none => .null

/-- Numbers are positional between 10⁻⁵ and 10¹⁶, positive exponents carry a sign, and a tie goes to
the even digit. -/
def numberLayout : Decimal.Layout := ⟨.toEven, -5, 15, true⟩

/-- A hexadecimal digit in lower case. -/
def hexDigit (n : Nat) : Char :=
  Nat.digitChar (n % 16)

/-- A character inside a quoted text. -/
def escapeChar (c : Char) : List Char :=
  if c = '"' then ['\\', '"']
  else if c = '\\' then ['\\', '\\']
  else if c = '\n' then ['\\', 'n']
  else if c = '\r' then ['\\', 'r']
  else if c = '\t' then ['\\', 't']
  else if c = '\x08' then ['\\', 'b']
  else if c = '\x0c' then ['\\', 'f']
  else if c.toNat < 0x20 then ['\\', 'u', '0', '0', hexDigit (c.toNat / 16), hexDigit c.toNat]
  else [c]

/-- A text between quotes. -/
def quote (s : String) : String :=
  "\"" ++ String.ofList (s.toList.flatMap escapeChar) ++ "\""

end Json

/-- The text of a number. -/
def Number.text : Number → String
  | .int n _ _ => toString n
  | .real x _ => Json.numberLayout.finite Decimal.binary64 x.toBits.toNat

mutual

/-- The compact text of a value. -/
def Json.text : Json → String
  | .null => "null"
  | .bool true => "true"
  | .bool false => "false"
  | .num n => n.text
  | .str s => Json.quote s
  | .arr items => "[" ++ ",".intercalate (Json.itemTexts items) ++ "]"
  | .obj fields => "\x7b" ++ ",".intercalate (Json.fieldTexts fields) ++ "\x7d"

/-- The texts of the items of an array. -/
def Json.itemTexts : List Json → List String
  | [] => []
  | item :: rest => item.text :: Json.itemTexts rest

/-- The texts of the fields of an object, each with its key. -/
def Json.fieldTexts : List (String × Json) → List String
  | [] => []
  | (key, value) :: rest => (Json.quote key ++ ":" ++ value.text) :: Json.fieldTexts rest

end

end EagerLoad
