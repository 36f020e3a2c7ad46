import PerpClient.Json.Value
import PerpClient.Bytes.Hex
import PerpClient.Program
import PerpClient.Curve.Signing
import PerpClient.Account.Layout
/-!
# Reading requests

Requests are JSON objects. A field that is absent or `null` takes its default; a field of the
wrong type or out of its range makes the whole request malformed, which every reader here
reports as `none`.

Addresses are base58 text or references: `{"perp_market": i}` and `{"spot_market": i}` (the
market accounts), `{"state": true}`, `{"user": {"authority", "sub_account_id"}}`,
`{"signer": n}` (the public key of the signing key whose seed is 32 bytes `n`) and
`{"const": name}` for the program id, the lookup tables and the no-oracle address.
-/

namespace PerpClient.Api

open Json

/-- A word field, `dflt` when absent. -/
def wordOr (v : Value) (k : String) (bits : Nat) (dflt : Nat) : Option Nat :=
  match v.field? k with
  | none => some dflt
  | some x => x.word? bits

/-- A word field, zero when absent. -/
def word (v : Value) (k : String) (bits : Nat) : Option Nat := wordOr v k bits 0

/-- A word field that must be present. -/
def wordReq (v : Value) (k : String) (bits : Nat) : Option Nat :=
  (v.field? k).bind (Value.word? bits)

/-- An optional word field. -/
def wordOpt (v : Value) (k : String) (bits : Nat) : Option (Option Nat) :=
  match v.field? k with
  | none => some none
  | some x => (x.word? bits).map some

/-- A signed 64-bit field, zero when absent. -/
def int64 (v : Value) (k : String) : Option Int64 :=
  match v.field? k with
  | none => some 0
  | some x => x.int64?

/-- A truth-value field, `dflt` when absent. -/
def flagOr (v : Value) (k : String) (dflt : Bool) : Option Bool :=
  match v.field? k with
  | none => some dflt
  | some x => x.bool?

/-- A truth-value field, false when absent. -/
def flag (v : Value) (k : String) : Option Bool := flagOr v k false

/-- A text field, `dflt` when absent. -/
def textOr (v : Value) (k : String) (dflt : String) : Option String :=
  match v.field? k with
  | none => some dflt
  | some x => x.str?

/-- A text field, empty when absent. -/
def text (v : Value) (k : String) : Option String := textOr v k ""

/-- A text field that must be present. -/
def textReq (v : Value) (k : String) : Option String := (v.field? k).bind Value.str?

/-- A list field, empty when absent. -/
def list (v : Value) (k : String) : Option (List Value) :=
  match v.field? k with
  | none => some []
  | some x => x.arr?

/-- Hex text as bytes. -/
def hexBytes? (v : Value) : Option (List UInt8) := v.str?.bind Hex.decode?

/-- A hex field, empty when absent. -/
def hexField (v : Value) (k : String) : Option (List UInt8) :=
  match v.field? k with
  | none => some []
  | some x => hexBytes? x

/-- A hex field of exactly `n` bytes, zeros when absent. -/
def fixedHex (v : Value) (k : String) (n : Nat) : Option (FixedBytes n) :=
  match v.field? k with
  | none => some (FixedBytes.zeros n)
  | some x => do
    let bs ← hexBytes? x
    if h : bs.length = n then some ⟨bs, h⟩ else none

/-- A list of 16-bit indexes. -/
def indexList (v : Value) (k : String) : Option (List UInt16) := do
  let xs ← list v k
  xs.mapM fun x => (x.word? 16).map Nat.toUInt16

/-- The signing key whose seed is 32 copies of a byte. -/
def seededKeypair (n : UInt8) : Signing.Keypair := Signing.Keypair.ofSeed (List.replicate 32 n)

/-- The well-known addresses by name. -/
def constantAddress? : String → Option Pubkey
  | "NO_ORACLE" => some Program.noOracle
  | "PERPS_PROGRAM_ID" => some Program.programId
  | "DEVNET_LOOKUP" => some Program.devnetLookupTable
  | "MAINNET_LOOKUP" => some Program.mainnetLookupTable
  | _ => none

/-- The user reference's authority and sub-account. -/
def userReference (authority : Option Pubkey) (v : Value) : Option Pubkey := do
  let a ← authority
  let sub ← word v "sub_account_id" 16
  pure (Program.userAccountAddress a sub.toUInt16)

/-- An address: base58 text or a reference (fuel bounds the nesting of user references). -/
def pubkeyWith : Nat → Value → Option Pubkey
  | 0, _ => none
  | fuel + 1, v =>
    match v with
    | .str s => Pubkey.ofBase58? s
    | .obj _ =>
      if let some x := v.field? "perp_market" then
        (x.word? 16).map fun i => Program.perpMarketAddress i.toUInt16
      else if let some x := v.field? "spot_market" then
        (x.word? 16).map fun i => Program.spotMarketAddress i.toUInt16
      else if let some x := v.field? "state" then
        if x.bool? = some true then some Program.stateAccount else none
      else if let some x := v.field? "user" then
        userReference ((x.field? "authority").bind (pubkeyWith fuel)) x
      else if let some x := v.field? "signer" then
        (x.word? 8).map fun n => Pubkey.ofBytes (seededKeypair n.toUInt8).publicKey
      else if let some x := v.field? "const" then
        x.str?.bind constantAddress?
      else none
    | _ => none

/-- An address: base58 text or a reference. -/
def pubkey? (v : Value) : Option Pubkey := pubkeyWith 8 v

/-- An address field, the zero address when absent. -/
def key (v : Value) (k : String) : Option Pubkey :=
  match v.field? k with
  | none => some Pubkey.zero
  | some x => pubkey? x

/-- An address field that must be present. -/
def keyReq (v : Value) (k : String) : Option Pubkey := (v.field? k).bind pubkey?

/-- A list of addresses. -/
def keyList (v : Value) (k : String) : Option (List Pubkey) := do
  let xs ← list v k
  xs.mapM pubkey?

/-- An enumeration field by name, `dflt` when absent. -/
def named {α : Type} (v : Value) (k : String) (ofName? : String → Option α) (dflt : α) :
    Option α :=
  match v.field? k with
  | none => some dflt
  | some x => x.str?.bind ofName?

/-- A base58 block hash. -/
def blockhash? (v : Value) : Option Blockhash := v.str?.bind Blockhash.ofBase58?

/-- A base58 signature. -/
def signature? (v : Value) : Option Signature := do
  let s ← v.str?
  match Signature.parse s with
  | .ok sig => some sig
  | .error _ => none

/-- A signature field, all zeros when absent. -/
def signatureField (v : Value) (k : String) : Option Signature :=
  match v.field? k with
  | none => some Signature.zero
  | some x => signature? x

end PerpClient.Api
