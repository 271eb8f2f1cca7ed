import EagerLoad.Sql.Condition
import EagerLoad.Text.Printable

/-!
# Descriptions of values and conditions

A description names the shape of a value in full: constructors, fields and leaves. Conditions described
alike have the same structure, so a description serves as a fingerprint, and it is how an unexpected
value is shown in a message.
-/

namespace EagerLoad

/-- A described value. -/
inductive Description where
  /-- A leaf, or a name without arguments. -/
  | atom (text : String)
  /-- A name with arguments in parentheses. -/
  | tuple (name : String) (arguments : List Description)
  /-- A name with named fields in braces. -/
  | record (name : String) (fields : List (String × Description))
  /-- Items in brackets, after a label. -/
  | sequence (label : String) (items : List Description)
  /-- Entries in braces, after a label. -/
  | dictionary (label : String) (entries : List (String × Description))

namespace Description

/-- The hexadecimal digits of a number in lower case. -/
def hexDigits (n : Nat) : List Char :=
  Nat.toDigits 16 n

/-- A character inside a described text. -/
def escapeChar (c : Char) : List Char :=
  if c = '"' then ['\\', '"']
  else if c = '\\' then ['\\', '\\']
  else if c = '\n' then ['\\', 'n']
  else if c = '\r' then ['\\', 'r']
  else if c = '\t' then ['\\', 't']
  else if c.toNat = 0 then ['\\', '0']
  else if Text.isPrintable c then [c]
  else ['\\', 'u', '\x7b'] ++ hexDigits c.toNat ++ ['\x7d']

/-- A text between quotes. -/
def quote (s : String) : String :=
  "\"" ++ String.ofList (s.toList.flatMap escapeChar) ++ "\""

mutual

/-- The text of a description. -/
def text : Description → String
  | .atom s => s
  | .tuple name arguments => name ++ "(" ++ ", ".intercalate (texts arguments) ++ ")"
  | .record name fields => name ++ " \x7b " ++ ", ".intercalate (fieldTexts fields) ++ " \x7d"
  | .sequence label items => label ++ "[" ++ ", ".intercalate (texts items) ++ "]"
  | .dictionary label entries =>
    label ++ "\x7b" ++ ", ".intercalate (entryTexts entries) ++ "\x7d"

/-- The texts of several descriptions. -/
def texts : List Description → List String
  | [] => []
  | d :: rest => d.text :: texts rest

/-- The texts of fields, each after its name. -/
def fieldTexts : List (String × Description) → List String
  | [] => []
  | (name, d) :: rest => (name ++ ": " ++ d.text) :: fieldTexts rest

/-- The texts of entries, each after its quoted key. -/
def entryTexts : List (String × Description) → List String
  | [] => []
  | (key, d) :: rest => (quote key ++ ": " ++ d.text) :: entryTexts rest

end

/-- Numbers are positional from 10⁻⁴ and below 10¹⁶, and a tie goes upward. -/
def numberLayout : Decimal.Layout := ⟨.upward, -4, 15, false⟩

/-- The text of the number that some bits stand for in a format. -/
def numberText (format : Decimal.BinaryFormat) (bits : Nat) : String :=
  if format.storedExponent bits = (1 <<< format.exponentBits) - 1 then
    if format.storedFraction bits ≠ 0 then "NaN"
    else if format.isNegative bits then "-inf"
    else "inf"
  else numberLayout.finite format bits

/-- A truth value. -/
def ofBool (b : Bool) : Description :=
  .atom (if b then "true" else "false")

/-- A name without arguments, or with one. -/
def ofOption : Option Description → Description
  | none => .atom "None"
  | some d => .tuple "Some" [d]

/-- A quoted text. -/
def ofString (s : String) : Description :=
  .atom (quote s)

end Description

mutual

/-- A JSON value, described. -/
def Json.describe : Json → Description
  | .null => .atom "Null"
  | .bool b => .tuple "Bool" [.ofBool b]
  | .num n => .tuple "Number" [.atom n.text]
  | .str s => .tuple "String" [.ofString s]
  | .arr items => .sequence "Array " (Json.describeItems items)
  | .obj fields => .dictionary "Object " (Json.describeFields fields)

/-- The items of a JSON array, described. -/
def Json.describeItems : List Json → List Description
  | [] => []
  | item :: rest => item.describe :: Json.describeItems rest

/-- The fields of a JSON object, described. -/
def Json.describeFields : List (String × Json) → List (String × Description)
  | [] => []
  | (key, value) :: rest => (key, value.describe) :: Json.describeFields rest

end

mutual

/-- A value, described. -/
def Value.describe : Value → Description
  | .null => .atom "Null"
  | .bool b => .tuple "Bool" [.ofBool b]
  | .int32 n => .tuple "Int32" [.atom (toString n.toInt)]
  | .int64 n => .tuple "Int64" [.atom (toString n.toInt)]
  | .float32 x => .tuple "Float32" [.atom (Description.numberText Decimal.binary32 x.toBits.toNat)]
  | .float64 x => .tuple "Float64" [.atom (Description.numberText Decimal.binary64 x.toBits.toNat)]
  | .text s => .tuple "String" [.ofString s]
  | .bytes content =>
    .tuple "Bytes" [.sequence "" (content.map fun n => .atom (toString n.toNat))]
  | .uuid u => .tuple "Uuid" [.atom u.text]
  | .dateTime i => .tuple "DateTime" [.atom (i.text ++ "Z")]
  | .date d => .tuple "Date" [.atom d.text]
  | .time t => .tuple "Time" [.atom t.text]
  | .json j => .tuple "Json" [j.describe]
  | .array items => .tuple "Array" [.sequence "" (Value.describeItems items)]

/-- The items of an array, described. -/
def Value.describeItems : List Value → List Description
  | [] => []
  | item :: rest => item.describe :: Value.describeItems rest

end

namespace Sql

/-- A column, described. -/
def Column.describe (c : Column) : Description :=
  .record "ColumnRef"
    [("qualifier", .ofOption (c.qualifier.map .ofString)), ("name", .ofString c.name)]

/-- The name of a comparison. -/
def Comparison.name : Comparison → String
  | .equal => "Equal"
  | .notEqual => "NotEqual"
  | .greater => "GreaterThan"
  | .greaterOrEqual => "GreaterThanOrEqual"
  | .less => "LessThan"
  | .lessOrEqual => "LessThanOrEqual"
  | .like => "Like"
  | .ilike => "ILike"

mutual

/-- A condition, described. -/
def Condition.describe : Condition → Description
  | .compare column operator value =>
    .record "Compare" [("column", column.describe), ("operator", .atom operator.name),
      ("value", value.describe)]
  | .inList column values negated =>
    .record "InList" [("column", column.describe),
      ("values", .sequence "" (values.map Value.describe)), ("negated", .ofBool negated)]
  | .isNull column negated =>
    .record "Null" [("column", column.describe), ("negated", .ofBool negated)]
  | .columnsEqual left right => .tuple "ColumnsEqual" [left.describe, right.describe]
  | .and items => .tuple "And" [.sequence "" (Condition.describeAll items)]
  | .or items => .tuple "Or" [.sequence "" (Condition.describeAll items)]
  | .not item => .tuple "Not" [item.describe]
  | .literal value => .tuple "Literal" [.ofBool value]

/-- Several conditions, described. -/
def Condition.describeAll : List Condition → List Description
  | [] => []
  | item :: rest => item.describe :: Condition.describeAll rest

end

/-- Conditions by name, described. -/
def describeConditions (conditions : KeyMap Condition) : Description :=
  .dictionary "" (conditions.entries.map fun (name, condition) => (name, condition.describe))

end Sql

end EagerLoad
