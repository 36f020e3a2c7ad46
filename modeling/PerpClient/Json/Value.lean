/-!
# JSON values

The client talks JSON on two sides: the ledger's remote-procedure interface, and its own
request interface (`Api`). A number keeps its decimal digits exactly, as a mantissa and a count
of decimals, so that integers of any size pass through unchanged. An object is a list of named
fields; a field that is missing and a field that is `null` read alike (`Value.field?`).
-/

namespace PerpClient.Json

/-- A JSON value. -/
inductive Value where
  | null
  | bool (b : Bool)
  /-- The number `mantissa · 10^(-exponent)`. -/
  | num (mantissa : Int) (exponent : Nat)
  | str (s : String)
  | arr (items : List Value)
  | obj (fields : List (String × Value))
  deriving Inhabited

namespace Value

/-- An integer. -/
def int (i : Int) : Value := .num i 0

/-- A natural number. -/
def nat (n : Nat) : Value := .num (n : Int) 0

/-- The value of a field that is present and not `null`. -/
def field? (v : Value) (k : String) : Option Value :=
  match v with
  | .obj fields =>
    match fields.find? (·.1 == k) with
    | some (_, .null) => none
    | some (_, x) => some x
    | none => none
  | _ => none

/-- Whether a field is present, `null` or not. -/
def hasKey (v : Value) (k : String) : Bool :=
  match v with
  | .obj fields => fields.any (·.1 == k)
  | _ => false

/-- An integer value (no decimals). -/
def int? : Value → Option Int
  | .num m 0 => some m
  | _ => none

/-- A value in `[0, 2^bits)`. -/
def word? (bits : Nat) (v : Value) : Option Nat := do
  let i ← v.int?
  if 0 ≤ i ∧ i.toNat < Nat.pow 2 bits then some i.toNat else none

/-- A value in the signed 64-bit range. -/
def int64? (v : Value) : Option Int64 := do
  let i ← v.int?
  if -9223372036854775808 ≤ i ∧ i < 9223372036854775808 then some (Int64.ofInt i) else none

/-- A truth value. -/
def bool? : Value → Option Bool
  | .bool b => some b
  | _ => none

/-- A string. -/
def str? : Value → Option String
  | .str s => some s
  | _ => none

/-- A list. -/
def arr? : Value → Option (List Value)
  | .arr xs => some xs
  | _ => none

/-- The fields of an object. -/
def obj? : Value → Option (List (String × Value))
  | .obj fs => some fs
  | _ => none

/-- A number as the nearest float. -/
def float? : Value → Option Float
  | .num m e =>
    let magnitude := Float.ofScientific m.natAbs true e
    some (if m < 0 then -magnitude else magnitude)
  | _ => none

end Value

end PerpClient.Json
