import PerpClient.Api.Steps
import PerpClient.Ledger.Scripted
/-!
# Scripting the ledger in requests

The steps that script a ledger (`set_slot`, `set_account`, `fail_reads`, `script_statuses`,
...) each answer `"ok"`; `ledger` answers the counters. Requests that drive the client over a
scripted ledger accept these steps among their own.
-/

namespace PerpClient.Api

open Json

/-- A signature status `{status, slot?, reason?}`. -/
def readStatus (v : Value) : Option SignatureStatus := do
  match ← textReq v "status" with
  | "Confirmed" => pure (.confirmed (← word v "slot" 64).toUInt64)
  | "Failed" => pure (.failed (← word v "slot" 64).toUInt64 (← text v "reason"))
  | "Pending" => pure .pending
  | "Unknown" => pure .unknown
  | _ => none

/-- A scripted status: a status, or `{"status": "RpcError", reason}`. -/
def readScriptedStatus (v : Value) : Option ScriptedStatus := do
  if (← textReq v "status") = "RpcError" then pure (.rpcError (← text v "reason"))
  else pure (.status (← readStatus v))

/-- A lookup table `{key, addresses}`. -/
def readLookupTable (v : Value) : Option LookupTable := do
  pure ⟨← key v "key", ← keyList v "addresses"⟩

/-- A lookup table as `{key, addresses}`. -/
def lookupTableOut (t : LookupTable) : Value :=
  .obj [("key", keyOut t.key), ("addresses", .arr (t.addresses.map keyOut))]

/-- A status as `{status, slot?, reason?}`. -/
def statusOut : SignatureStatus → Value
  | .confirmed slot => .obj [("status", .str "Confirmed"), ("slot", .nat slot.toNat)]
  | .failed slot reason =>
    .obj [("status", .str "Failed"), ("slot", .nat slot.toNat), ("reason", .str reason)]
  | .pending => .obj [("status", .str "Pending")]
  | .unknown => .obj [("status", .str "Unknown")]

/-- The counters of a scripted ledger. -/
def ledgerOut (l : ScriptedLedger) : Value :=
  .obj [("multiple_accounts_calls", .nat l.multipleAccountsCalls),
    ("blockhash_calls", .nat l.blockhashCalls), ("lookup_table_calls", .nat l.lookupTableCalls),
    ("status_calls", .nat l.statusCalls), ("send_calls", .nat l.sendCalls),
    ("simulated_cu_limits", .arr (l.simulatedLimits.map fun
      | some u => .nat u.toNat
      | none => .null)),
    ("sent_sizes", .arr (l.sentSizes.map .nat)), ("slot", .nat l.slot.toNat)]

/-- An optional text field. -/
def textOpt (v : Value) (k : String) : Option (Option String) :=
  match v.field? k with
  | none => some none
  | some x => x.str?.map some

/-- One ledger step, if the step is one: the new ledger and the answer. -/
def ledgerStep (l : ScriptedLedger) (v : Value) : Option (Option (ScriptedLedger × Value)) := do
  let ok := Value.str "ok"
  match ← stepName v with
  | "set_slot" => pure (some ({ l with slot := (← word v "slot" 64).toUInt64 }, ok))
  | "slot_step" => pure (some ({ l with slotStep := (← word v "step" 64).toUInt64 }, ok))
  | "set_account" =>
    let data ← (← readAccountData v)
    pure (some (l.setAccount (← keyReq v "address") data, ok))
  | "remove_account" => pure (some (l.removeAccount (← keyReq v "address"), ok))
  | "set_lookup_table" => pure (some (l.setLookupTable (← readLookupTable v), ok))
  | "fail_reads" =>
    let failure := (← textOpt v "reason").map fun r => (⟨r, ·⟩ : Bool → ReadFailure)
    let plain ← flag v "plain"
    pure (some ({ l with failReads := failure.map (· plain) }, ok))
  | "fail_blockhash" => pure (some ({ l with failBlockhash := ← textOpt v "reason" }, ok))
  | "fail_sends" =>
    pure (some ({ l with sendsToFail := ← word v "count" 64, sendsToSkip := ← word v "skip" 64 }, ok))
  | "set_blockhash" =>
    pure (some ({ l with blockhash := ← (v.field? "hash").bind blockhash? }, ok))
  | "set_simulation" =>
    match v.field? "rpc_error" with
    | some e => pure (some ({ l with simulation := .error (← e.str?) }, ok))
    | none =>
      let units ← wordOpt v "units_consumed" 64
      let error ← textOpt v "error"
      let logs ← (← list v "logs").mapM Value.str?
      pure (some ({ l with simulation := .ok ⟨units.map Nat.toUInt64, error, logs⟩ }, ok))
  | "script_statuses" =>
    let statuses ← (← list v "statuses").mapM readScriptedStatus
    pure (some ({ l with statuses := l.statuses ++ statuses }, ok))
  | "drop_trailing" => pure (some ({ l with dropTrailing := ← word v "count" 64 }, ok))
  | "ledger" => pure (some (l, ledgerOut l))
  | _ => pure none

end PerpClient.Api
