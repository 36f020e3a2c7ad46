import PerpClient.Ledger.Rpc
/-!
# A ledger that cannot be reached

A client whose endpoint is not an absolute address cannot build a single request: every
request fails in transport with the same text, and an account read names the account first.
-/

namespace PerpClient

/-- Why no request to an endpoint without a base address can be built. -/
def unreachableText : String := "builder error: relative URL without a base"

namespace Ledger

variable {σ : Type}

/-- The ledger behind an endpoint that is not an absolute address. -/
def unreachable : Ledger σ where
  getAccount k := throw (.client (.rpc s!"AccountNotFound: pubkey={k.toBase58}: {unreachableText}"))
  getMultipleAccounts _ := throw (.client (.rpc unreachableText))
  getLatestBlockhash := throw (.client (.rpc unreachableText))
  getSlot := throw (.client (.rpc unreachableText))
  simulate _ := throw (.client (.rpc unreachableText))
  sendRawTransaction _ _ := throw (.client (.rpc unreachableText))
  getSignatureStatus _ := throw (.client (.rpc unreachableText))
  getAddressLookupTable k :=
    throw (.client (.rpc s!"AccountNotFound: pubkey={k.toBase58}: {unreachableText}"))

/-- One ledger or another, as the state says. -/
def choose (useFirst : σ → Bool) (a b : Ledger σ) : Ledger σ where
  getAccount k := do if useFirst (← get) then a.getAccount k else b.getAccount k
  getMultipleAccounts ks := do
    if useFirst (← get) then a.getMultipleAccounts ks else b.getMultipleAccounts ks
  getLatestBlockhash := do if useFirst (← get) then a.getLatestBlockhash else b.getLatestBlockhash
  getSlot := do if useFirst (← get) then a.getSlot else b.getSlot
  simulate tx := do if useFirst (← get) then a.simulate tx else b.simulate tx
  sendRawTransaction w c := do
    if useFirst (← get) then a.sendRawTransaction w c else b.sendRawTransaction w c
  getSignatureStatus sig := do
    if useFirst (← get) then a.getSignatureStatus sig else b.getSignatureStatus sig
  getAddressLookupTable k := do
    if useFirst (← get) then a.getAddressLookupTable k else b.getAddressLookupTable k

end Ledger

end PerpClient
