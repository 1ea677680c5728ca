import QueryScript.Json.Basic
import QueryScript.Text.Timestamp

/-!
# Column types

The type of a column is found in two ways: from the name that a driver gives it, or from the
values in it.  `detect` types one value; `Tally.resolve` settles the type of a column whose
values differ.
-/

namespace QueryScript

/-- The type of a column. -/
inductive ColumnType where
  | integer
  | bigint
  | decimal
  | varchar
  | boolean
  | datetime
  | uuid
  | object
  | array
  | binary
  | unknown
deriving DecidableEq, Repr

namespace ColumnType

/-- The type's name. -/
def name : ColumnType → String
  | .integer => "integer"
  | .bigint => "bigint"
  | .decimal => "decimal"
  | .varchar => "varchar"
  | .boolean => "boolean"
  | .datetime => "datetime"
  | .uuid => "uuid"
  | .object => "object"
  | .array => "array"
  | .binary => "binary"
  | .unknown => "unknown"

/-- All types. -/
def all : List ColumnType :=
  [.integer, .bigint, .decimal, .varchar, .boolean, .datetime, .uuid, .object, .array, .binary,
    .unknown]

/-- The type with a name. -/
def ofName? (name : String) : Option ColumnType :=
  all.find? (·.name == name)

/-- Types of numbers. -/
def isNumeric : ColumnType → Bool
  | .integer | .bigint | .decimal => true
  | _ => false

/-- Hexadecimal digits. -/
def isHexDigit (c : Char) : Bool :=
  c.isDigit || ('a' ≤ c && c ≤ 'f') || ('A' ≤ c && c ≤ 'F')

/-- Whether a text is a universally unique identifier in its form with hyphens. -/
def isUuid (s : String) : Bool :=
  let groups := Text.splitChars (· == '-') s.toList
  groups.map List.length == [8, 4, 4, 4, 12] && groups.all (·.all isHexDigit)

/-- The first natural number that 32 bits with a sign do not hold. -/
def integerLimit : Nat := 2147483648

/-- The type of a number: integers of 32 bits, signs apart, larger ones, and doubles. -/
def ofNumber : Number → ColumnType
  | .int i => if i.natAbs < integerLimit then .integer else .bigint
  | .double _ => .decimal

/-- The type of a value; `null` has none. -/
def detect : Json → Option ColumnType
  | .null => none
  | .bool _ => some .boolean
  | .num n => some (ofNumber n)
  | .str s =>
    if Text.Timestamp.isTimestamp s then some .datetime
    else if isUuid s then some .uuid
    else some .varchar
  | .arr _ => some .array
  | .obj _ => some .object

/-- The type names that drivers use, by the type they mean. -/
def nativeNames : List (ColumnType × List String) :=
  [(.integer, ["INT", "INT2", "INT4", "INTEGER", "SMALLINT", "TINYINT", "MEDIUMINT", "SERIAL",
      "SMALLSERIAL"]),
    (.bigint, ["INT8", "BIGINT", "BIGSERIAL"]),
    (.decimal, ["FLOAT", "FLOAT4", "FLOAT8", "REAL", "DOUBLE", "DOUBLE PRECISION", "NUMERIC",
      "DECIMAL", "MONEY", "NUMBER"]),
    (.boolean, ["BOOL", "BOOLEAN", "BIT"]),
    (.datetime, ["DATE", "TIME", "TIMETZ", "TIMESTAMP", "TIMESTAMPTZ", "DATETIME", "DATETIME2",
      "SMALLDATETIME", "DATETIMEOFFSET"]),
    (.uuid, ["UUID", "UNIQUEIDENTIFIER"]),
    (.object, ["JSON", "JSONB"]),
    (.varchar, ["CHAR", "NCHAR", "VARCHAR", "NVARCHAR", "CHARACTER", "CHARACTER VARYING",
      "BPCHAR", "TEXT", "TINYTEXT", "MEDIUMTEXT", "LONGTEXT", "NTEXT", "CLOB", "NCLOB", "CITEXT",
      "NAME", "ENUM", "VARCHAR2", "NVARCHAR2", "XML"]),
    (.binary, ["BYTEA", "BLOB", "TINYBLOB", "MEDIUMBLOB", "LONGBLOB", "BINARY", "VARBINARY",
      "IMAGE", "RAW"])]

/-- Whether a driver's type name, in capitals, is that of an array. -/
def isNativeArray (cs : List Char) : Bool :=
  cs.head? == some '_' || "[]".toList.isSuffixOf cs || "ARRAY".toList.isPrefixOf cs

/-- The type that a driver's type name means; what stands in parentheses does not count. -/
def ofNative (typeName : String) : ColumnType :=
  let cs := (Text.trimChars typeName.toList).map Char.toUpper
  if isNativeArray cs then .array
  else
    let base := String.ofList (Text.trimChars (cs.takeWhile (· ≠ '(')))
    match nativeNames.find? (·.2.contains base) with
    | some (t, _) => t
    | none => .unknown

end ColumnType

/-- How often each type occurs in a column, in the order of first occurrence. -/
abbrev Tally := List (ColumnType × Nat)

namespace Tally

/-- The tally with one more occurrence. -/
def add : Tally → ColumnType → Tally
  | [], t => [(t, 1)]
  | (u, n) :: rest, t => if u = t then (u, n + 1) :: rest else (u, n) :: add rest t

/-- The type that occurs most often, the first of several. -/
def mostFrequent : Tally → ColumnType × Nat → ColumnType
  | [], best => best.1
  | (t, n) :: rest, best => mostFrequent rest (if best.2 < n then (t, n) else best)

/-- The type of a column.  Numbers widen to the largest kind among them, numbers beside text
are text, and of other mixtures the most frequent type wins. -/
def resolve : Tally → ColumnType
  | [] => .varchar
  | [(t, _)] => t
  | first :: rest =>
    let types := (first :: rest).map (·.1)
    if types.all ColumnType.isNumeric then
      if types.contains .decimal then .decimal else .bigint
    else if types.any ColumnType.isNumeric && types.contains .varchar then .varchar
    else mostFrequent rest first

end Tally

end QueryScript
