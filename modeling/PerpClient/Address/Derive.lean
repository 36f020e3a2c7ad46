import PerpClient.Address.Basic
import PerpClient.Curve.Edwards
import PerpClient.Hash.Sha256
/-!
# Program-derived addresses

An address derived from seeds for a program is a SHA-256 digest that is deliberately *off* the
curve, so that no signing key can exist for it. The candidate for a bump byte is
`sha256(seeds ‖ [bump] ‖ program ‖ "ProgramDerivedAddress")`; the derived address is the first
candidate off the curve, trying bumps from 255 down to 0.

* `candidate` is the digest for one bump, `find?` the search, `derive` the address itself (the
  search for the seeds this library uses always succeeds; `derive` falls back to the zero
  address only where no bump does).
-/

namespace PerpClient.Derive

/-- The marker appended to every derivation. -/
def marker : List UInt8 := "ProgramDerivedAddress".toUTF8.toList

/-- The digest for one bump byte. -/
def candidate (seeds : List (List UInt8)) (program : Pubkey) (bump : UInt8) : List UInt8 :=
  Sha256.hash (seeds.flatten ++ [bump] ++ program.bytes ++ marker)

/-- The first bump, counting down from `bump`, whose digest is off the curve, with its address. -/
def search (seeds : List (List UInt8)) (program : Pubkey) : Nat → Option (Pubkey × UInt8)
  | 0 =>
    let c := candidate seeds program 0
    if Edwards.isCurvePoint c then none else some (Pubkey.ofBytes c, 0)
  | n + 1 =>
    let c := candidate seeds program (n + 1).toUInt8
    if Edwards.isCurvePoint c then search seeds program n else some (Pubkey.ofBytes c, (n + 1).toUInt8)

/-- The derived address and its bump, trying 255 down to 0. -/
def find? (seeds : List (List UInt8)) (program : Pubkey) : Option (Pubkey × UInt8) :=
  search seeds program 255

/-- The derived address of seeds for a program. -/
def derive (seeds : List (List UInt8)) (program : Pubkey) : Pubkey :=
  ((find? seeds program).map Prod.fst).getD Pubkey.zero

end PerpClient.Derive
