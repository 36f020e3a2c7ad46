import PerpClient.Ledger.Rpc
/-!
# Batch account loading

Loading many accounts asks the ledger in requests of at most `maxMultipleAccounts` addresses,
sent together; the first failing request fails the whole, and a response with fewer accounts
than asked for is a transport error. A ledger that answers at once has answered a request before
the next goes out, so a failure stops the later requests; one that answers later has them all.
The result is stamped with the lowest slot any request was served at, so no account claims to be
newer than it is.

Single loads made close together are coalesced: they wait for one flush that loads every
address once (in the order first asked) and answers each load with its account and the shared
slot. A failed flush answers every load with the same client error; a foreign failure becomes a
transport error with its text.

* `flatten_chunksOf`: chunking loses no address.
-/

namespace PerpClient

/-- The most addresses one multi-account request may carry. -/
def maxMultipleAccounts : Nat := 100

/-- Splits a list into pieces of `n` (the last may be shorter); `fuel` bounds the pieces. -/
def chunksOfWith {α : Type} (n : Nat) : Nat → List α → List (List α)
  | 0, _ => []
  | _, [] => []
  | fuel + 1, xs => xs.take n :: chunksOfWith n fuel (xs.drop n)

/-- Splits a list into pieces of `n` addresses, `n` positive. -/
def chunksOf {α : Type} (n : Nat) (xs : List α) : List (List α) := chunksOfWith n xs.length xs

/-- Chunking with enough fuel loses nothing. -/
theorem flatten_chunksOfWith {α : Type} (n : Nat) (hn : 0 < n) :
    ∀ (fuel : Nat) (xs : List α), xs.length ≤ fuel → (chunksOfWith n fuel xs).flatten = xs
  | 0, xs, h => by
    have : xs = [] := List.eq_nil_of_length_eq_zero (Nat.le_zero.mp h)
    subst this; rfl
  | fuel + 1, [], _ => rfl
  | fuel + 1, x :: xs, h => by
    simp only [chunksOfWith, List.flatten_cons]
    rw [flatten_chunksOfWith n hn fuel]
    · exact List.take_append_drop n (x :: xs)
    · simp only [List.length_drop, List.length_cons] at h ⊢
      omega

/-- Chunking loses no address. -/
theorem flatten_chunksOf {α : Type} (n : Nat) (hn : 0 < n) (xs : List α) :
    (chunksOf n xs).flatten = xs :=
  flatten_chunksOfWith n hn xs.length xs (Nat.le_refl _)

namespace Loader

variable {σ : Type}

/-- Reads one chunk of addresses; a response with another number of accounts than asked for is
a transport error. -/
def readChunk (ledger : Ledger σ) (chunk : List Pubkey) :
    Client σ (Stamped (List (Option (List UInt8)))) := do
  let loaded ← ledger.getMultipleAccounts chunk
  if loaded.data.length ≠ chunk.length then
    throw (.client (.rpc s!"asked for {chunk.length} accounts, got {loaded.data.length}"))
  pure loaded

/-- Reads chunks with their requests sent together and their answers joined in order. A ledger
that answers at once answers each request as it is sent, so the first chunk refused ends the
reads and no later chunk is asked. Against one that answers later, every chunk is asked before the
first answer comes back; the answers come back in the order asked, and the first chunk refused
ends the reads. -/
def readChunks (ledger : Ledger σ) (chunks : List (List Pubkey)) :
    Client σ (List (Stamped (List (Option (List UInt8))))) :=
  if ledger.answersAtOnce then chunks.mapM (readChunk ledger)
  else ExceptT.mk do
    let answers ← chunks.mapM fun c => (readChunk ledger c).run
    pure (answers.mapM id)

/-- Loads many accounts in requests of at most `maxMultipleAccounts`, stamped with the lowest
slot; no address at all loads nothing at slot 0. -/
def loadMany (ledger : Ledger σ) (keys : List Pubkey) :
    Client σ (Stamped (List (Option (List UInt8)))) := do
  if keys.isEmpty then return ⟨[], 0⟩
  let chunks ← readChunks ledger (chunksOf maxMultipleAccounts keys)
  let slot := (chunks.map (·.slot)).foldl min (chunks.headD ⟨[], 0⟩).slot
  pure ⟨(chunks.map (·.data)).flatten, slot⟩

/-- Each address once, in the order first asked. -/
def distinct (keys : List Pubkey) : List Pubkey :=
  keys.foldl (fun acc k => if k ∈ acc then acc else acc ++ [k]) []

/-- The answer to one load of a flush. -/
abbrev LoadAnswer := Except ClientError (Stamped (Option (List UInt8)))

/-- The client error every load of a failed flush is answered with. -/
def flushError (f : Failure) : ClientError :=
  match f.clientError? with
  | some e => e
  | none => .rpc f.headline

/-- Flushes coalesced loads: loads every address once and answers each load in order. -/
def flush (ledger : Ledger σ) (keys : List Pubkey) : StateM σ (List LoadAnswer) := do
  let unique := distinct keys
  match ← (loadMany ledger unique).run with
  | .ok loaded =>
    pure (keys.map fun k =>
      .ok ⟨(unique.idxOf? k).bind fun i => (loaded.data[i]?).join, loaded.slot⟩)
  | .error f => pure (keys.map fun _ => .error (flushError f))

end Loader

end PerpClient
