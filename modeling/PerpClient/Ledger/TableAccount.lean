import PerpClient.Ledger.TransactionError
import PerpClient.Transaction.Wire
/-!
# Lookup table accounts

The account of an address lookup table starts with a header of `56` bytes, then lists the
addresses, 32 bytes each:

* a 4-byte little-endian state tag: `0` for an account not yet made a table, `1` for a table;
* for a table: the slot it was deactivated at (8 bytes), the slot it was last extended at (8),
  the index extension started from (1), the authority as an optional address (a tag byte `0`
  or `1`, then 32 bytes when `1`), and 2 bytes of padding.

A header that ends early or has an unknown tag is invalid account data; an account not made a
table is uninitialized; so is a table whose addresses do not fill whole 32-byte slots.
-/

namespace PerpClient

/-- What the state tag of a table account says. -/
inductive TableState where
  | uninitialized
  | table
  deriving DecidableEq

namespace LookupTable

/-- The bytes before the first address. -/
def headerSize : Nat := 56

/-- The state of a table account, if its header reads. -/
def readState (data : List UInt8) : Option TableState :=
  match data with
  | 0 :: 0 :: 0 :: 0 :: _ => some .uninitialized
  | 1 :: 0 :: 0 :: 0 :: rest =>
    match rest.drop 17 with
    | 0 :: more => if more.length ≥ 2 then some .table else none
    | 1 :: more => if more.length ≥ 34 then some .table else none
    | _ => none
  | _ => none

/-- The table an account holds, or why it holds none. -/
def ofAccountData (key : Pubkey) (data : List UInt8) : Except InstructionError LookupTable :=
  match readState data with
  | none => .error .invalidAccountData
  | some .uninitialized => .error .uninitializedAccount
  | some .table =>
    let rest := data.drop headerSize
    if data.length < headerSize ∨ rest.length % 32 ≠ 0 then .error .invalidAccountData
    else
      match (Wire.readMany Wire.readPubkey (rest.length / 32)).run' rest with
      | .ok addresses => .ok ⟨key, addresses⟩
      | .error _ => .error .invalidAccountData

end LookupTable

end PerpClient
