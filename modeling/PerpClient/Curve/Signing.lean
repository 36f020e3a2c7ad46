import PerpClient.Curve.Edwards
import PerpClient.Hash.Sha512
/-!
# Ed25519 signing keys and signatures

A signing key is expanded from a 32-byte secret seed by SHA-512: the low half, clamped (the three
low bits and the top bit cleared, the bit below the top set), is the secret scalar `a`; the high
half is the prefix that makes nonces deterministic. The public key is `a·B` written as a point.

A signature of a message `M` is `R ‖ S` with `r = H(prefix ‖ M)`, `R = r·B`,
`k = H(R ‖ A ‖ M)` and `S = r + k·a` modulo the group order, where `H` is SHA-512 read as a
little-endian number.
-/

namespace PerpClient.Signing

open PerpClient.Field PerpClient.Edwards

/-- A signing key expanded from its seed. -/
structure Keypair where
  /-- The secret scalar. -/
  scalar : Nat
  /-- The nonce prefix. -/
  prefixBytes : List UInt8
  /-- The 32-byte public key. -/
  publicKey : List UInt8

/-- Clears the three low bits and the top bit and sets the bit below it. -/
def clamp (bs : List UInt8) : Nat :=
  let n := ofLittleEndian bs
  (n - n % 8) % Nat.pow 2 254 + Nat.pow 2 254

/-- The key of a 32-byte seed. -/
def Keypair.ofSeed (seed : List UInt8) : Keypair :=
  let h := Sha512.hash seed
  let a := clamp (h.take 32)
  { scalar := a, prefixBytes := h.drop 32, publicKey := (Point.base.smul a).encode }

/-- The 64-byte signature of a message. -/
def Keypair.sign (kp : Keypair) (msg : List UInt8) : List UInt8 :=
  let r := ofLittleEndian (Sha512.hash (kp.prefixBytes ++ msg)) % groupOrder
  let bigR := (Point.base.smul r).encode
  let k := ofLittleEndian (Sha512.hash (bigR ++ kp.publicKey ++ msg)) % groupOrder
  let s := (r + k * kp.scalar) % groupOrder
  bigR ++ toLittleEndian s 32

end PerpClient.Signing
