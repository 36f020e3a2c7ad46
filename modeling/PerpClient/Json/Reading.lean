import PerpClient.Json.Value
/-!
# Reading JSON as typed values

The ledger's replies are JSON read into records, numbers, texts and tagged variants. A reply
of the wrong shape is refused with a text that says what was found and what was expected:

* `invalid type: integer `5`, expected a string` when the kind of value is wrong;
* `invalid value: integer `-1`, expected u64` when a number is out of its range;
* `missing field `context`` when a required field of a record is absent;
* `unknown variant `X`, expected one of `A`, `B`` for a tag that names no variant.

A record's fields are read in the order of their names, so the first wrong field by name is
the one reported; a missing field is reported only when every present field was right, and then
the first one missing in the record's own order. Fields a record does not know are ignored; a
field that may be missing may also be `null`.
-/

namespace PerpClient.Json

/-- A typed value read from JSON, or why it could not be read. -/
abbrev Reading (α : Type) := Except String α

namespace Reading

/-- One character as a complaint writes it inside quotes. -/
def escaped (c : Char) : List Char :=
  if c = '"' then ['\\', '"']
  else if c = '\\' then ['\\', '\\']
  else if c = '\n' then ['\\', 'n']
  else if c = '\r' then ['\\', 'r']
  else if c = '\t' then ['\\', 't']
  else if c.toNat = 0 then ['\\', '0']
  else if c.toNat < 32 ∨ c.toNat = 127 then
    ['\\', 'u', '\x7b'] ++ Nat.toDigits 16 c.toNat ++ ['\x7d']
  else [c]

/-- Text with its quotes, as a complaint shows it. -/
def quoted (s : String) : String :=
  "\"" ++ String.ofList (s.toList.flatMap escaped) ++ "\""

/-- A number with decimals, with its point: `1.5`, `2.0`. -/
def decimalText (m : Int) (e : Nat) : String :=
  let digits := (Nat.toDigits 10 m.natAbs).reverse
  let frac := (digits.take e ++ List.replicate (e - digits.length) '0').reverse
  let whole := (digits.drop e).reverse
  let frac := (frac.reverse.dropWhile (· = '0')).reverse
  let sign := if m < 0 then "-" else ""
  sign ++ String.ofList (if whole.isEmpty then ['0'] else whole) ++ "." ++
    String.ofList (if frac.isEmpty then ['0'] else frac)

/-- How a found value is named in a complaint. -/
def found : Value → String
  | .null => "null"
  | .bool b => s!"boolean `{b}`"
  | .num m 0 => s!"integer `{m}`"
  | .num m e => s!"floating point `{decimalText m e}`"
  | .str s => s!"string {quoted s}"
  | .arr _ => "sequence"
  | .obj _ => "map"

/-- The complaint about a value of the wrong kind. -/
def invalidType (v : Value) (expected : String) : String :=
  s!"invalid type: {found v}, expected {expected}"

/-- The complaint about a value out of its range. -/
def invalidValue (v : Value) (expected : String) : String :=
  s!"invalid value: {found v}, expected {expected}"

/-- The complaint about a required field that is absent. -/
def missingField (name : String) : String := s!"missing field `{name}`"

/-- Names as a complaint lists them: `a`, `a` or `b`, one of `a`, `b`, `c`. -/
def oneOf (names : List String) : String :=
  match names with
  | [a] => s!"`{a}`"
  | [a, b] => s!"`{a}` or `{b}`"
  | _ => "one of " ++ ", ".intercalate (names.map fun n => s!"`{n}`")

/-- The complaint about a tag that names no variant. -/
def unknownVariant (name : String) (variants : List String) : String :=
  if variants.isEmpty then s!"unknown variant `{name}`, there are no variants"
  else s!"unknown variant `{name}`, expected {oneOf variants}"

/-- An unsigned number below `2^bits`, named `name` in complaints. -/
def unsigned (bits : Nat) (name : String) (v : Value) : Reading Nat :=
  match v with
  | .num m 0 => if 0 ≤ m ∧ m.toNat < Nat.pow 2 bits then .ok m.toNat else .error (invalidValue v name)
  | _ => .error (invalidType v name)

/-- A 64-bit unsigned number. -/
def u64 (v : Value) : Reading UInt64 := (unsigned 64 "u64" v).map Nat.toUInt64

/-- An 8-bit unsigned number. -/
def u8 (v : Value) : Reading UInt8 := (unsigned 8 "u8" v).map Nat.toUInt8

/-- A 32-bit unsigned number. -/
def u32 (v : Value) : Reading UInt32 := (unsigned 32 "u32" v).map Nat.toUInt32

/-- A count the size of a machine word. -/
def usize (v : Value) : Reading Nat := unsigned 64 "usize" v

/-- A text. -/
def string (v : Value) : Reading String :=
  match v with
  | .str s => .ok s
  | _ => .error (invalidType v "a string")

/-- A truth value. -/
def bool (v : Value) : Reading Bool :=
  match v with
  | .bool b => .ok b
  | _ => .error (invalidType v "a boolean")

/-- A value that may be `null`. -/
def option {α : Type} (r : Value → Reading α) (v : Value) : Reading (Option α) :=
  match v with
  | .null => .ok none
  | _ => some <$> r v

/-- A list of values. -/
def seq {α : Type} (r : Value → Reading α) (v : Value) : Reading (List α) :=
  match v with
  | .arr xs => xs.mapM r
  | _ => .error (invalidType v "a sequence")

/-- A field of a record: its name, whether it may be missing, and how its value is read. -/
structure Field where
  name : String
  optional : Bool
  check : Value → Reading Unit

/-- A required field read by `r`. -/
def required {α : Type} (name : String) (r : Value → Reading α) : Field :=
  ⟨name, false, fun v => (r v).map fun _ => ()⟩

/-- A field that may be missing or `null`, read by `r` otherwise. -/
def optional {α : Type} (name : String) (r : Value → Reading α) : Field :=
  ⟨name, true, fun v => (option r v).map fun _ => ()⟩

/-- Checks an object as the record `name`: its known fields in the order of their names, then
the required fields that are missing, in the record's order. Answers the object's fields. -/
def record (name : String) (fields : List Field) (v : Value) : Reading (List (String × Value)) := do
  let fs ← match v with
    | .obj fs => pure fs
    | _ => throw (invalidType v s!"struct {name}")
  let byName := fs.mergeSort fun a b => decide (a.1 ≤ b.1)
  byName.forM fun (k, x) =>
    match fields.find? (·.name = k) with
    | some f => f.check x
    | none => pure ()
  fields.forM fun f =>
    if !f.optional && !(fs.any (·.1 = f.name)) then throw (missingField f.name) else pure ()
  pure fs

/-- A required field of checked fields. -/
def get {α : Type} (fs : List (String × Value)) (name : String) (r : Value → Reading α) : Reading α :=
  match fs.find? (·.1 = name) with
  | some (_, x) => r x
  | none => .error (missingField name)

/-- A field of checked fields that may be missing or `null`. -/
def getOpt {α : Type} (fs : List (String × Value)) (name : String) (r : Value → Reading α) :
    Reading (Option α) :=
  match fs.find? (·.1 = name) with
  | some (_, x) => option r x
  | none => .ok none

/-- The tag of a variant written as its name or as an object with one field, and the content
of the latter. -/
def variant (v : Value) : Reading (String × Option Value) :=
  match v with
  | .str s => .ok (s, none)
  | .obj [(k, x)] => .ok (k, some x)
  | .obj _ => .error (invalidValue v "map with a single key")
  | _ => .error (invalidType v "string or map")

end Reading

end PerpClient.Json
