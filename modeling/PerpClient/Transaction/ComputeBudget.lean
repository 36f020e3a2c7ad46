import PerpClient.Transaction.Message
import PerpClient.Account.Layout
import PerpClient.Program
/-!
# Compute budget instructions

The compute budget program reads two instructions this library writes: "set the unit limit"
(tag byte `2` and a 32-bit little-endian count) and "set the unit price" (tag byte `3` and a
64-bit price in micro-lamports). `computeUnitLimit` reads the limit a message asks for back: the
first instruction addressed to the compute budget program whose payload starts with tag `2` and
holds the four count bytes.
-/

namespace PerpClient.ComputeBudget

/-- The compute budget program. -/
def programId : Pubkey := Program.addressOfText "ComputeBudget111111111111111111111111111111"

/-- The tag of "set the unit limit". -/
def setLimitTag : UInt8 := 2

/-- The tag of "set the unit price". -/
def setPriceTag : UInt8 := 3

/-- Asks for a compute unit limit. -/
def setComputeUnitLimit (units : UInt32) : Instruction :=
  { programId := programId, accounts := [], data := setLimitTag :: Layout.writeU32 units }

/-- Offers a price per compute unit. -/
def setComputeUnitPrice (price : UInt64) : Instruction :=
  { programId := programId, accounts := [], data := setPriceTag :: Layout.writeU64 price }

/-- The limit one compiled instruction asks for, if it is a limit request. -/
def limitOf (keys : List Pubkey) (ix : CompiledInstruction) : Option UInt32 :=
  match keys[ix.programIdIndex.toNat]? with
  | none => none
  | some program =>
    if program ≠ programId then none
    else match ix.data with
      | tag :: b0 :: b1 :: b2 :: b3 :: _ =>
        if tag = setLimitTag then some (leValue [b0, b1, b2, b3]).toUInt32 else none
      | _ => none

/-- The compute unit limit a message asks for, if any. -/
def computeUnitLimit (m : Message) : Option UInt32 :=
  m.instructions.findSome? (limitOf m.staticAccountKeys)

end PerpClient.ComputeBudget
