import PerpClient.Api.Steps
import PerpClient.Cache
/-!
# The cache request

`cache {steps}` drives one slot-stamped cache from text keys to JSON values. A stored value is
never `null`, since `null` stands for an absent value.
-/

namespace PerpClient.Api

open Json

/-- A stamped value as `{data, slot}`. -/
def stampedOut {α : Type} (f : α → Value) (s : Stamped α) : Value :=
  .obj [("data", f s.data), ("slot", .nat s.slot.toNat)]

/-- A possibly absent stamped value; absent is `null`. -/
def stampedOpt {α : Type} (f : α → Value) : Option (Stamped α) → Value
  | some s => stampedOut f s
  | none => .null

/-- A present JSON value. -/
def present (v : Value) : Option Value :=
  match v with
  | .null => none
  | _ => some v

/-- A `[key, value]` pair of a batch. -/
def batchEntry (v : Value) : Option (String × Value) := do
  match ← v.arr? with
  | [k, x] => pure (← k.str?, ← present x)
  | _ => none

/-- One step of the cache request. -/
def cacheStep (c : SlotCache String Value) (v : Value) :
    Option (SlotCache String Value × Value) := do
  match ← stepName v with
  | "put" =>
    let k ← textReq v "key"
    let x ← (v.field? "value").bind present
    let slot ← word v "slot" 64
    let (c', applied) := c.put k x slot.toUInt64
    pure (c', .bool applied)
  | "put_batch" =>
    let entries ← (← list v "entries").mapM batchEntry
    let slot ← word v "slot" 64
    let (c', n) := c.putBatch entries slot.toUInt64
    pure (c', .nat n)
  | "get" => pure (c, stampedOpt id (c.get? (← textReq v "key")))
  | "get_many" =>
    let ks ← (← list v "keys").mapM Value.str?
    pure (c, .arr ((c.getMany ks).map (stampedOpt id)))
  | "get_all" =>
    let sorted := c.toList.mergeSort fun a b => decide (a.1 ≤ b.1)
    pure (c, .arr (sorted.map fun (k, s) => .arr [.str k, .nat s.slot.toNat, s.data]))
  | "contains" => pure (c, .bool (c.contains (← textReq v "key")))
  | "remove" =>
    let (c', old) := c.remove (← textReq v "key")
    pure (c', stampedOpt id old)
  | "clear" => pure (SlotCache.empty, .nat 0)
  | "len" => pure (c, .nat c.size)
  | "is_empty" => pure (c, .bool c.isEmpty)
  | _ => none

/-- `cache {steps}`. -/
def cacheOp (v : Value) : Option Value := runSteps cacheStep SlotCache.empty v

end PerpClient.Api
