import PerpClient.Api.Ledger
import PerpClient.Loader
/-!
# The loader request

`loader {delay_ms?, steps}` drives a batch loader over a scripted ledger. `load_many` loads
addresses in chunked requests; `load` makes one single load per address, all at once, so they
coalesce into one flush.
-/

namespace PerpClient.Api

open Json

/-- Loaded accounts as `{slot, data: [hex | null]}`. -/
def loadedOut (l : Stamped (List (Option (List UInt8)))) : Value :=
  .obj [("slot", .nat l.slot.toNat),
    ("data", .arr (l.data.map fun d => (d.map hexOut).getD .null))]

/-- One loaded account as `{slot, data: hex | null}`. -/
def loadedOneOut (l : Stamped (Option (List UInt8))) : Value :=
  .obj [("slot", .nat l.slot.toNat), ("data", (l.data.map hexOut).getD .null)]

/-- The scripted ledger as the client's ledger, on its own. -/
def scriptedLedger : Ledger ScriptedLedger := Scripted.ledger id fun l _ => l

/-- One step of the loader request. -/
def loaderStep (l : ScriptedLedger) (v : Value) : Option (ScriptedLedger × Value) := do
  if let some r ← ledgerStep l v then return r
  match ← stepName v with
  | "load_many" =>
    let keys ← keyList v "pubkeys"
    let (r, l') := (Loader.loadMany scriptedLedger keys).run.run l
    pure (l', outcomeOut loadedOut r)
  | "load" =>
    let keys ← keyList v "pubkeys"
    if keys.isEmpty then return (l, .arr [])
    let (answers, l') := (Loader.flush scriptedLedger keys).run l
    pure (l', .arr (answers.map fun
      | .ok a => loadedOneOut a
      | .error e => clientErrorOut e e.message))
  | _ => none

/-- `loader {delay_ms?, steps}`. -/
def loaderOp (v : Value) : Option Value := do
  let _ ← wordOr v "delay_ms" 64 10
  runSteps loaderStep ScriptedLedger.initial v

end PerpClient.Api
