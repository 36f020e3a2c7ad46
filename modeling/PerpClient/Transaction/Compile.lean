import PerpClient.Transaction.Message
import PerpClient.Ordered
/-!
# Compiling messages

A message lists each account its instructions touch once, with the union of what the
instructions ask of it: a signer if any instruction needs its signature, writable if any
instruction writes it, invoked if it is a program called. The payer signs and is written.
Accounts are grouped in the order the runtime reads privileges from: the payer, then the other
writable signers, read-only signers, writable non-signers and read-only non-signers, each group
by ascending address bytes. The header counts the signers and the read-only accounts of each
kind, each count a byte.

A format-0 message may load non-signer, non-program accounts from lookup tables instead: each
table takes, in address order, the writable accounts it holds and then the read-only ones, and
the loaded accounts come after the listed ones, all writable loads before all read-only loads.
Instructions then name accounts by position in that whole list, which must fit a byte.

* `compileKeys_payer`: the payer is a writable signer of every compiled key set.
-/

namespace PerpClient

/-- What the instructions of a message ask of one account. -/
structure KeyUse where
  isSigner : Bool
  isWritable : Bool
  isInvoked : Bool
  deriving DecidableEq, Inhabited

/-- Why a message does not compile. -/
inductive CompileError where
  /-- A count or an account position does not fit a byte. -/
  | accountIndexOverflow
  /-- A lookup table position does not fit a byte. -/
  | tableIndexOverflow
  /-- An instruction names an account the message does not list. -/
  | unknownInstructionKey (key : Pubkey)
  deriving DecidableEq

/-- The text of a compile error. -/
def CompileError.message : CompileError → String
  | .accountIndexOverflow => "account index overflowed during compilation"
  | .tableIndexOverflow => "address lookup table index overflowed during compilation"
  | .unknownInstructionKey k =>
    "encountered unknown account key " ++ "\x60" ++ k.toBase58 ++ "\x60" ++
      " during instruction compilation"

/-- The name of a compile error as a debugging text shows it. -/
def CompileError.name : CompileError → String
  | .accountIndexOverflow => "AccountIndexOverflow"
  | .tableIndexOverflow => "AddressLookupTableIndexOverflow"
  | .unknownInstructionKey k => "UnknownInstructionKey(" ++ k.toBase58 ++ ")"

namespace Compile

/-- Keys with their uses, by ascending address bytes. -/
abbrev KeyUses := List (Pubkey × KeyUse)

/-- No use yet. -/
def unused : KeyUse := ⟨false, false, false⟩

/-- Adds one instruction's demands. -/
def addInstruction (m : KeyUses) (ix : Instruction) : KeyUses :=
  let m := Ordered.alter Pubkey.compareBytes ix.programId
    (fun u => { u.getD unused with isInvoked := true }) m
  ix.accounts.foldl (fun m a => Ordered.alter Pubkey.compareBytes a.pubkey (fun u =>
    let u := u.getD unused
    { u with isSigner := u.isSigner || a.isSigner, isWritable := u.isWritable || a.isWritable }) m) m

/-- Every key the instructions touch, and the payer as a writable signer. -/
def compileKeys (instructions : List Instruction) (payer : Pubkey) : KeyUses :=
  Ordered.alter Pubkey.compareBytes payer
    (fun u => { u.getD unused with isSigner := true, isWritable := true })
    (instructions.foldl addInstruction [])

/-- The payer is a writable signer of every compiled key set. -/
theorem compileKeys_payer (instructions : List Instruction) (payer : Pubkey) :
    ∃ u, Ordered.find? Pubkey.compareBytes payer (compileKeys instructions payer) = some u ∧
      u.isSigner = true ∧ u.isWritable = true := by
  refine ⟨_, Ordered.find?_insert_self Pubkey.compareBytes ?_ _ _ _, rfl, rfl⟩
  intro k
  unfold Pubkey.compareBytes
  generalize k.bytes = bs
  induction bs with
  | nil => rfl
  | cons b rest ih => simp [PerpClient.compareBytes, ih]

/-- A count as a byte. -/
def countByte (n : Nat) : Except CompileError UInt8 :=
  if n < 256 then .ok n.toUInt8 else .error .accountIndexOverflow

/-- The header and the listed keys: the payer, then writable signers, read-only signers,
writable non-signers and read-only non-signers. -/
def components (payer : Pubkey) (m : KeyUses) : Except CompileError (MessageHeader × List Pubkey) := do
  let rest := Ordered.erase Pubkey.compareBytes payer m
  let pick := fun (p : KeyUse → Bool) => (rest.filter fun e => p e.2).map (·.1)
  let writableSigners := payer :: pick fun u => u.isSigner && u.isWritable
  let readonlySigners := pick fun u => u.isSigner && !u.isWritable
  let writableOthers := pick fun u => !u.isSigner && u.isWritable
  let readonlyOthers := pick fun u => !u.isSigner && !u.isWritable
  let header : MessageHeader := {
    numRequiredSignatures := ← countByte (writableSigners.length + readonlySigners.length)
    numReadonlySignedAccounts := ← countByte readonlySigners.length
    numReadonlyUnsignedAccounts := ← countByte readonlyOthers.length }
  pure (header, writableSigners ++ readonlySigners ++ writableOthers ++ readonlyOthers)

/-- The position of a key, as a byte that wraps around. -/
def wrappedPosition (keys : List Pubkey) (k : Pubkey) : UInt8 := (keys.idxOf k).toUInt8

/-- An instruction by wrapped positions in the legacy key list. -/
def legacyInstruction (keys : List Pubkey) (ix : Instruction) : CompiledInstruction :=
  ⟨wrappedPosition keys ix.programId, ix.accounts.map (wrappedPosition keys ·.pubkey), ix.data⟩

/-- The legacy message of instructions paid by `payer`; a count that does not fit a byte is
an error. -/
def legacy (instructions : List Instruction) (payer : Pubkey) (blockhash : Blockhash) :
    Except CompileError Message := do
  let (header, keys) ← components payer (compileKeys instructions payer)
  pure (.legacy ⟨header, keys, blockhash, instructions.map (legacyInstruction keys)⟩)

/-- Takes the keys of `m` that pass `p` and that a table holds: their positions in the table
(the first place each occurs) and the keys, in address order. -/
def drain (m : KeyUses) (addresses : List Pubkey) (p : KeyUse → Bool) :
    Except CompileError (List UInt8 × List Pubkey) :=
  m.foldlM (fun (acc : List UInt8 × List Pubkey) (e : Pubkey × KeyUse) =>
    if p e.2 then
      match addresses.idxOf? e.1 with
      | some i => if i < 256 then .ok (acc.1 ++ [i.toUInt8], acc.2 ++ [e.1]) else .error .tableIndexOverflow
      | none => .ok acc
    else .ok acc) ([], [])

/-- The lookup of one table, if the table holds any loadable key, with the keys it loads
(writable, then read-only) and the keys left. -/
def extractLookup (m : KeyUses) (table : LookupTable) :
    Except CompileError (KeyUses × Option (TableLookup × List Pubkey × List Pubkey)) := do
  let (wIdx, wKeys) ← drain m table.addresses fun u => !u.isSigner && !u.isInvoked && u.isWritable
  let m := m.filter fun e => e.1 ∉ wKeys
  let (rIdx, rKeys) ← drain m table.addresses fun u => !u.isSigner && !u.isInvoked && !u.isWritable
  let m := m.filter fun e => e.1 ∉ rKeys
  if wIdx.isEmpty && rIdx.isEmpty then pure (m, none)
  else pure (m, some (⟨table.key, wIdx, rIdx⟩, wKeys, rKeys))

/-- The position of a key in the whole key list, which must fit a byte. -/
def position (keys : List Pubkey) (k : Pubkey) : Except CompileError UInt8 :=
  match keys.idxOf? k with
  | some i => .ok i.toUInt8
  | none => .error (.unknownInstructionKey k)

/-- An instruction by positions in the whole key list. -/
def v0Instruction (keys : List Pubkey) (ix : Instruction) : Except CompileError CompiledInstruction := do
  pure ⟨← position keys ix.programId, ← ix.accounts.mapM (position keys ·.pubkey), ix.data⟩

/-- The format-0 message of instructions paid by `payer`, loading what it can from the tables. -/
def v0 (instructions : List Instruction) (payer : Pubkey) (tables : List LookupTable)
    (blockhash : Blockhash) : Except CompileError Message := do
  let (m, lookups) ← tables.foldlM (fun (acc : KeyUses × List (TableLookup × List Pubkey × List Pubkey))
      (t : LookupTable) => do
    let (m, found) ← extractLookup acc.1 t
    pure (m, acc.2 ++ found.toList)) (compileKeys instructions payer, [])
  let (header, keys) ← components payer m
  let all := keys ++ (lookups.map (·.2.1)).flatten ++ (lookups.map (·.2.2)).flatten
  if all.length > 256 then throw .accountIndexOverflow
  let compiled ← instructions.mapM (v0Instruction all)
  pure (.v0 ⟨header, keys, blockhash, compiled⟩ (lookups.map (·.1)))

end Compile

end PerpClient
