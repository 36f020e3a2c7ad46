import PerpClient.Bytes.Base58
/-!
# Addresses, block hashes and signatures

An address (`Pubkey`) and a block hash are 32 bytes, a signature is 64; each carries its length
in its type, so every value has one base58 text and one wire form. All three are written in
base58; reading refuses text that is not base58 or stands for the wrong number of bytes.

Addresses are ordered by their raw bytes (`Pubkey.compareBytes`), which is the order the
tracked-account maps and the transaction compiler keep; it is not the order of the text.
Two addresses compare equal exactly when they are equal (`Pubkey.compareBytes_eq_eq_iff`).
-/

namespace PerpClient

/-- Lexicographic order of byte strings, a shorter prefix first. -/
def compareBytes : List UInt8 → List UInt8 → Ordering
  | [], [] => .eq
  | [], _ :: _ => .lt
  | _ :: _, [] => .gt
  | a :: as, b :: bs => if a < b then .lt else if b < a then .gt else compareBytes as bs

/-- Byte strings are equal in byte order exactly when they are equal. -/
theorem compareBytes_eq_eq_iff (as bs : List UInt8) : compareBytes as bs = .eq ↔ as = bs := by
  induction as generalizing bs with
  | nil => cases bs <;> simp [compareBytes]
  | cons a as ih =>
    cases bs with
    | nil => simp [compareBytes]
    | cons b bs =>
      simp only [compareBytes, List.cons.injEq]
      by_cases hab : a < b
      · simp [hab, UInt8.ne_of_lt hab]
      · by_cases hba : b < a
        · simp [hab, hba, (UInt8.ne_of_lt hba).symm]
        · -- neither byte is below the other: they are equal, and the rest decides
          obtain rfl : a = b := UInt8.le_antisymm (UInt8.not_lt.mp hba) (UInt8.not_lt.mp hab)
          simp [hab, ih]

/-- Swapping two byte strings swaps their order. -/
theorem compareBytes_swap : ∀ as bs : List UInt8, compareBytes bs as = (compareBytes as bs).swap
  | [], [] => rfl
  | [], _ :: _ => rfl
  | _ :: _, [] => rfl
  | a :: as, b :: bs => by
    simp only [compareBytes]
    by_cases hab : a < b
    · have hba : ¬b < a := fun h => absurd (UInt8.lt_trans hab h) (UInt8.lt_irrefl a)
      simp only [hab, hba, ↓reduceIte]
      rfl
    · by_cases hba : b < a
      · simp only [hab, hba, ↓reduceIte]
        rfl
      · simp only [hab, hba, ↓reduceIte]
        exact compareBytes_swap as bs

/-- Byte order is transitive. -/
theorem compareBytes_trans : ∀ {as bs cs : List UInt8}, compareBytes as bs = .lt →
    compareBytes bs cs = .lt → compareBytes as cs = .lt
  | [], [], _, h, _ => by simp [compareBytes] at h
  | [], _ :: _, [], _, h => by simp [compareBytes] at h
  | [], _ :: _, _ :: _, _, _ => rfl
  | _ :: _, [], _, h, _ => by simp [compareBytes] at h
  | _ :: _, _ :: _, [], _, h => by simp [compareBytes] at h
  | a :: as, b :: bs, c :: cs, h₁, h₂ => by
    simp only [compareBytes] at h₁ h₂ ⊢
    by_cases hab : a < b
    · have hac : a < c := by
        by_cases hbc : b < c
        · exact UInt8.lt_trans hab hbc
        · by_cases hcb : c < b
          · simp [hbc, hcb] at h₂
          · obtain rfl : b = c := UInt8.le_antisymm (UInt8.not_lt.mp hcb) (UInt8.not_lt.mp hbc)
            exact hab
      simp [hac]
    · by_cases hba : b < a
      · simp [hab, hba] at h₁
      · obtain rfl : a = b := UInt8.le_antisymm (UInt8.not_lt.mp hba) (UInt8.not_lt.mp hab)
        simp only [hab, if_false] at h₁
        by_cases hac : a < c
        · simp [hac]
        · by_cases hca : c < a
          · simp [hac, hca] at h₂
          · simp only [hac, hca, if_false] at h₂ ⊢
            exact compareBytes_trans h₁ h₂

/-- The first `n` bytes of a byte string, zero-filled when it is shorter. -/
def fitBytes (n : Nat) (bs : List UInt8) : List UInt8 :=
  (bs ++ List.replicate n 0).take n

theorem length_fitBytes (n : Nat) (bs : List UInt8) : (fitBytes n bs).length = n := by
  simp [fitBytes]

/-- A 32-byte account address. -/
structure Pubkey where
  bytes : List UInt8
  length_bytes : bytes.length = 32
  deriving DecidableEq

namespace Pubkey

/-- The address of the first 32 bytes of a byte string (zero-filled). -/
def ofBytes (bs : List UInt8) : Pubkey := ⟨fitBytes 32 bs, length_fitBytes 32 bs⟩

/-- The address of exactly 32 bytes, if the count is right. -/
def ofBytes? (bs : List UInt8) : Option Pubkey :=
  if h : bs.length = 32 then some ⟨bs, h⟩ else none

/-- The all-zero address. -/
def zero : Pubkey := ofBytes []

/-- Base58 text of an address. -/
def toBase58 (k : Pubkey) : String := Base58.encode k.bytes

/-- Reads an address from base58 text: at most 44 characters that stand for 32 bytes. -/
def ofBase58? (s : String) : Option Pubkey :=
  if s.length > 44 then none else (Base58.decode? s).bind ofBytes?

/-- Order by raw bytes. -/
def compareBytes (a b : Pubkey) : Ordering := PerpClient.compareBytes a.bytes b.bytes

/-- Two addresses are equal in byte order exactly when they are equal. -/
theorem compareBytes_eq_eq_iff (a b : Pubkey) : compareBytes a b = .eq ↔ a = b := by
  unfold compareBytes
  rw [PerpClient.compareBytes_eq_eq_iff]
  obtain ⟨as, ha⟩ := a
  obtain ⟨bs, hb⟩ := b
  simp

theorem compareBytes_swap (a b : Pubkey) : compareBytes b a = (compareBytes a b).swap :=
  PerpClient.compareBytes_swap a.bytes b.bytes

theorem compareBytes_trans {a b c : Pubkey} (h₁ : compareBytes a b = .lt)
    (h₂ : compareBytes b c = .lt) : compareBytes a c = .lt :=
  PerpClient.compareBytes_trans h₁ h₂

instance : Inhabited Pubkey := ⟨zero⟩

end Pubkey

/-- A 32-byte block hash. -/
structure Blockhash where
  bytes : List UInt8
  length_bytes : bytes.length = 32
  deriving DecidableEq

namespace Blockhash

/-- The hash of the first 32 bytes of a byte string (zero-filled). -/
def ofBytes (bs : List UInt8) : Blockhash := ⟨fitBytes 32 bs, length_fitBytes 32 bs⟩

/-- Base58 text of a hash. -/
def toBase58 (h : Blockhash) : String := Base58.encode h.bytes

/-- Reads a hash from base58 text: at most 44 characters that stand for 32 bytes. -/
def ofBase58? (s : String) : Option Blockhash :=
  if s.length > 44 then none
  else (Base58.decode? s).bind fun bs => if h : bs.length = 32 then some ⟨bs, h⟩ else none

instance : Inhabited Blockhash := ⟨ofBytes []⟩

end Blockhash

/-- A 64-byte signature. -/
structure Signature where
  bytes : List UInt8
  length_bytes : bytes.length = 64
  deriving DecidableEq

namespace Signature

/-- The signature of the first 64 bytes of a byte string (zero-filled). -/
def ofBytes (bs : List UInt8) : Signature := ⟨fitBytes 64 bs, length_fitBytes 64 bs⟩

/-- The all-zero signature, which an unsigned transaction carries. -/
def zero : Signature := ofBytes []

/-- Base58 text of a signature. -/
def toBase58 (s : Signature) : String := Base58.encode s.bytes

/-- Why a text is no signature. -/
inductive ParseError where
  /-- Too long, or standing for a number of bytes other than 64. -/
  | wrongSize
  /-- A character that is not a base58 digit. -/
  | invalid
  deriving DecidableEq

/-- The text of a parse error. -/
def ParseError.message : ParseError → String
  | .wrongSize => "string decoded to wrong size for signature"
  | .invalid => "failed to decode string to signature"

/-- Reads a signature from base58 text: at most 88 characters that stand for 64 bytes. -/
def parse (s : String) : Except ParseError Signature :=
  if s.length > 88 then .error .wrongSize
  else match Base58.decode? s with
    | none => .error .invalid
    | some bs => if h : bs.length = 64 then .ok ⟨bs, h⟩ else .error .wrongSize

instance : Inhabited Signature := ⟨zero⟩

end Signature

end PerpClient
