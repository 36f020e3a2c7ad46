import PerpClient.Transaction.Wire
import PerpClient.Curve.Signing
/-!
# Signing transactions

The first `numRequiredSignatures` accounts of a message are its signers, and signature `i`
belongs to account `i`. Both formats sign the message bytes (format 0 with its marker byte).

A legacy transaction is signed in place: each given key must be one of the signers, its
signature goes to that signer's place, and afterwards no place may still be empty. A format-0
transaction is signed afresh: exactly as many keys as signers must be given, and each signer
must be among them.

* `signV0_length`: a signed format-0 transaction has one signature per signer.
-/

namespace PerpClient

/-- Why a transaction cannot be signed. -/
inductive SignerError where
  | keypairPubkeyMismatch
  | notEnoughSigners
  | tooManySigners
  deriving DecidableEq

/-- The text of a signing error. -/
def SignerError.message : SignerError → String
  | .keypairPubkeyMismatch => "keypair-pubkey mismatch"
  | .notEnoughSigners => "not enough signers"
  | .tooManySigners => "too many signers"

/-- The public key of a signing key, as an address. -/
def Signing.Keypair.pubkey (kp : Signing.Keypair) : Pubkey := Pubkey.ofBytes kp.publicKey

namespace Transaction

/-- The accounts that must sign a message. -/
def requiredSigners (m : Message) : List Pubkey :=
  m.staticAccountKeys.take m.header.numRequiredSignatures.toNat

/-- A transaction with all-zero signatures, one per signer. -/
def unsigned (m : Message) : Transaction :=
  ⟨List.replicate m.header.numRequiredSignatures.toNat Signature.zero, m⟩

/-- Puts a signature at a place. -/
def setSignature (sigs : List Signature) (i : Nat) (s : Signature) : List Signature :=
  sigs.set i s

/-- Signs a legacy transaction in place with the given keys. -/
def signLegacy (tx : Transaction) (keys : List Signing.Keypair) : Except SignerError Transaction := do
  let signers := requiredSigners tx.message
  let positions ← keys.mapM fun kp =>
    match signers.idxOf? kp.pubkey with
    | some i => .ok i
    | none => .error .keypairPubkeyMismatch
  let data := tx.message.encode
  let sigs := (keys.zip positions).foldl (fun sigs (kp, i) =>
    setSignature sigs i (Signature.ofBytes (kp.sign data))) tx.signatures
  if sigs.any (· = Signature.zero) then throw .notEnoughSigners
  pure { tx with signatures := sigs }

/-- Signs a format-0 message afresh with exactly its signers' keys. -/
def signV0 (m : Message) (keys : List Signing.Keypair) : Except SignerError Transaction := do
  let signers := requiredSigners m
  if keys.length > signers.length then throw .tooManySigners
  if keys.length < signers.length then throw .notEnoughSigners
  let data := m.encode
  let sigs ← signers.mapM fun k =>
    match keys.find? (·.pubkey = k) with
    | some kp => .ok (Signature.ofBytes (kp.sign data))
    | none => .error .keypairPubkeyMismatch
  pure ⟨sigs, m⟩

/-- Signs a transaction the way its format is signed. -/
def sign (tx : Transaction) (keys : List Signing.Keypair) : Except SignerError Transaction :=
  match tx.message with
  | .legacy _ => tx.signLegacy keys
  | .v0 _ _ => signV0 tx.message keys

/-- The first signature, which names the transaction; all zero when there is none. -/
def firstSignature (tx : Transaction) : Signature := tx.signatures.headD Signature.zero

/-- Mapping with a failing function keeps the length when it succeeds. -/
theorem length_of_mapM_ok {α β ε : Type} (f : α → Except ε β) :
    ∀ (xs : List α) (ys : List β), xs.mapM f = .ok ys → ys.length = xs.length
  | [], ys, h => by
    simp only [List.mapM_nil, pure, Except.pure, Except.ok.injEq] at h
    subst h; rfl
  | x :: xs, ys, h => by
    simp only [List.mapM_cons, bind, Except.bind, pure, Except.pure] at h
    split at h
    · simp at h
    · split at h
      · simp at h
      · rename_i zs hzs
        simp only [Except.ok.injEq] at h
        subst h
        simp [length_of_mapM_ok f xs zs hzs]

/-- A signed format-0 transaction has one signature per signer. -/
theorem signV0_length (m : Message) (keys : List Signing.Keypair) (tx : Transaction)
    (h : signV0 m keys = .ok tx) : tx.signatures.length = (requiredSigners m).length := by
  unfold signV0 at h
  simp only [bind, Except.bind, pure, Except.pure] at h
  split at h
  · simp at h
  · split at h
    · simp at h
    · split at h
      · simp at h
      · rename_i sigs hsigs
        simp only [Except.ok.injEq] at h
        subst h
        exact length_of_mapM_ok _ _ _ hsigs

end Transaction

end PerpClient
