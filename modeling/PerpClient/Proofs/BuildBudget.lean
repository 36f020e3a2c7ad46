import PerpClient.Proofs.CompiledLimit
import PerpClient.Ledger.Unreachable
/-!
# The compute budget of a built transaction

A build takes its block hash and lookup tables (`prepare`), settles the units and the price, and
compiles the transaction behind its compute budget instructions (`finishWith`). A fixed policy
names its units; a simulated one dry-runs a probe, the same transaction asking for the most
units, and sizes the limit from what the probe consumed, or falls back to the policy's units. A
failed dry run ends the build only when the policy says so.

Everything here holds for any message compilers that keep the order of the instructions and keep
invoked keys static (`MessageCompiler.KeepsOrder`, `MessageCompiler.KeepsInvokedStatic`).

* `run_chooseBudget_fixed`, `run_chooseBudget_simulated`: what the budget step settles on;
* `run_finishWith_eq_ok`: a finished build is the dry run's failure or a transaction that asks
  for the units settled on, with the caller's instructions, and fits a packet;
* `buildWith_budget`: all of it for a whole build, whatever compute budget instructions the
  caller's own instructions hold; `build_budget` is the build with the Solana compilers.
-/

namespace PerpClient

namespace Client

variable {σ α β : Type}

/-- A run that ends well ran both of its parts well, the second from where the first left off. -/
theorem run_bind_eq_ok {x : Client σ α} {f : α → Client σ β} {s s' : σ} {b : β}
    (h : (x >>= f).run.run s = (.ok b, s')) :
    ∃ a s₁, x.run.run s = (.ok a, s₁) ∧ (f a).run.run s₁ = (.ok b, s') := by
  rw [ExceptT.run_bind, run_bind_pair] at h
  cases hx : x.run.run s with
  | mk r s₁ =>
    rw [hx] at h
    cases r with
    | error e => cases h
    | ok a => exact ⟨a, s₁, rfl, h⟩

end Client

namespace Builder

variable {σ : Type}

/-- An outcome lifted into a run ends well only with its own value, in the same state. -/
theorem run_liftOutcome_eq_ok {α : Type} {o : Outcome α} {s s' : σ} {a : α}
    (h : (liftOutcome o : Client σ α).run.run s = (.ok a, s')) : o = .ok a ∧ s' = s := by
  cases o with
  | error e => cases h
  | ok b =>
    cases h
    exact ⟨rfl, rfl⟩

/-! ## 1. The steps of a build -/

/-- The block hash and the lookup tables a build compiles with: the given hash or the latest
one, then the tables of its format. -/
def prepare (env : BuilderEnv σ) (params : BuildParams) :
    Client σ (Blockhash × List LookupTable) := do
  let blockhash ← match params.blockhash with
    | some b => pure b
    | none => env.ledger.getLatestBlockhash
  let tables ← lookupTablesFor env params
  pure (blockhash, tables)

/-- The rest of a build on its block hash and tables: the budget, then the transaction, compiled
by `mc`. -/
def finishWith (mc : MessageCompiler) (env : BuilderEnv σ) (instructions : List Instruction)
    (params : BuildParams) (blockhash : Blockhash) (tables : List LookupTable) :
    Client σ BuildResult := do
  match ← chooseBudgetWith mc env instructions params tables blockhash with
  | .error (error, logs) => pure (.simulationFailed error logs)
  | .ok (units, price) =>
    let tx ← liftOutcome
      (compileWith mc (withComputeBudget instructions units price) params tables blockhash)
    let size := tx.wireSize
    if size > packetDataSize then throw (.client (.transactionTooLarge size packetDataSize))
    pure (.ready tx)

theorem buildWith_eq (mc : MessageCompiler) (env : BuilderEnv σ) (instructions : List Instruction)
    (params : BuildParams) :
    buildWith mc env instructions params =
      prepare env params >>= fun p => finishWith mc env instructions params p.1 p.2 := by
  unfold buildWith prepare
  -- after the binds are reassociated, the rest of the build is `finishWith` unfolded
  cases params.blockhash <;> simp only [bind_assoc, pure_bind] <;> rfl

theorem build_eq (env : BuilderEnv σ) (instructions : List Instruction) (params : BuildParams) :
    build env instructions params =
      prepare env params >>= fun p => finishWith .solana env instructions params p.1 p.2 :=
  buildWith_eq .solana env instructions params

/-- What a transaction built for `instructions` with `units` at `price` shows: the limit read
back from its message, the instructions behind one or two compute budget instructions, and a
size that fits a packet. -/
def Budgeted (instructions : List Instruction) (units : UInt32) (price : UInt64)
    (tx : Transaction) : Prop :=
  ComputeBudget.computeUnitLimit tx.message = some units ∧
    tx.message.instructions.length = instructions.length + 1 + (if price > 0 then 1 else 0) ∧
    tx.wireSize ≤ packetDataSize

/-! ## 2. The budget -/

section Budget

variable {mc : MessageCompiler} {env : BuilderEnv σ} {instructions : List Instruction}
  {params : BuildParams} {tables : List LookupTable} {blockhash : Blockhash}

/-- A fixed policy settles on its units and price at once. -/
theorem run_chooseBudget_fixed {units : UInt32} {price : UInt64}
    (hb : params.budget = .fixed units price) (s : σ) :
    (chooseBudgetWith mc env instructions params tables blockhash).run.run s =
      (.ok (.ok (units, price)), s) := by
  unfold chooseBudgetWith
  rw [hb]
  rfl

/-- A simulated policy dry-runs the probe and settles on what its outcome says: the failure
itself when a failed dry run ends the build, the units sized from the consumption when the dry
run went through and reports it, and the fallback units otherwise. -/
theorem run_chooseBudget_simulated {price : UInt64} {multiplier : Float}
    {lowerBound : Option UInt32} {fallbackUnits : UInt32} {exitEarly : Bool}
    (hb : params.budget = .simulated price multiplier lowerBound fallbackUnits exitEarly)
    {s s' : σ} {c : Except (String × List String) (UInt32 × UInt64)}
    (h : (chooseBudgetWith mc env instructions params tables blockhash).run.run s = (.ok c, s')) :
    ∃ probe outcome,
      compileWith mc (withComputeBudget instructions Budget.maxComputeUnits price) params tables
        blockhash = .ok probe ∧
      (env.ledger.simulate probe).run.run s = (.ok outcome, s') ∧
      (∀ error, outcome.error = some error →
        c = if exitEarly then .error (error, outcome.logs) else .ok (fallbackUnits, price)) ∧
      (∀ consumed, outcome.error = none → outcome.unitsConsumed = some consumed →
        c = .ok (Budget.unitsFromSimulation consumed multiplier lowerBound, price)) ∧
      (outcome.error = none → outcome.unitsConsumed = none → c = .ok (fallbackUnits, price)) := by
  unfold chooseBudgetWith at h
  rw [hb] at h
  obtain ⟨probe, s₁, hlift, hrest⟩ := Client.run_bind_eq_ok h
  obtain ⟨hprobe, rfl⟩ := run_liftOutcome_eq_ok hlift
  obtain ⟨outcome, s₂, hsim, hrest⟩ := Client.run_bind_eq_ok hrest
  refine ⟨probe, outcome, hprobe, ?_⟩
  cases herr : outcome.error with
  | some error =>
    have hrun : (if exitEarly then .error (error, outcome.logs) else .ok (fallbackUnits, price) :
        Except (String × List String) (UInt32 × UInt64)) = c ∧ s₂ = s' := by
      cases exitEarly <;> simp only [herr, Bool.false_eq_true, ↓reduceIte] at hrest <;> cases hrest <;>
        exact ⟨rfl, rfl⟩
    obtain ⟨rfl, rfl⟩ := hrun
    refine ⟨hsim, fun e he => ?_, fun _ h _ => ?_, fun h _ => ?_⟩
    · cases he
      rfl
    all_goals cases h
  | none =>
    cases hused : outcome.unitsConsumed with
    | some consumed =>
      simp only [herr, hused] at hrest
      cases hrest
      refine ⟨hsim, fun _ h => ?_, fun _ _ hc => ?_, fun _ h => ?_⟩
      · cases h
      · cases hc
        rfl
      · cases h
    | none =>
      simp only [herr, hused] at hrest
      cases hrest
      refine ⟨hsim, fun _ h => ?_, fun _ _ hc => ?_, fun _ _ => rfl⟩
      · cases h
      · cases hc

/-- A finished build is the dry run's failure exactly when the budget step settled on it, and
otherwise, with compilers that keep both laws, a transaction that shows the units and the price
the budget step settled on. -/
theorem run_finishWith_eq_ok (hord : mc.KeepsOrder) (hstatic : mc.KeepsInvokedStatic)
    {s s' : σ} {r : BuildResult}
    (h : (finishWith mc env instructions params blockhash tables).run.run s = (.ok r, s')) :
    ∃ c s₁, (chooseBudgetWith mc env instructions params tables blockhash).run.run s =
        (.ok c, s₁) ∧
      (∀ error logs, r = .simulationFailed error logs ↔ c = .error (error, logs)) ∧
      (∀ units price, c = .ok (units, price) →
        ∃ tx, r = .ready tx ∧ Budgeted instructions units price tx) := by
  unfold finishWith at h
  obtain ⟨c, s₁, hc, hsettled⟩ := Client.run_bind_eq_ok h
  refine ⟨c, s₁, hc, ?_⟩
  cases c with
  | error p =>
    obtain ⟨error, logs⟩ := p
    cases hsettled
    exact ⟨fun _ _ => by simp [Prod.ext_iff], fun _ _ hok => by cases hok⟩
  | ok p =>
    obtain ⟨units, price⟩ := p
    obtain ⟨tx, s₂, hlift, hsized⟩ := Client.run_bind_eq_ok hsettled
    obtain ⟨htx, rfl⟩ := run_liftOutcome_eq_ok hlift
    by_cases hsize : tx.wireSize > packetDataSize
    · simp only [hsize, ↓reduceIte] at hsized
      cases hsized
    · simp only [hsize, ↓reduceIte] at hsized
      cases hsized
      have hfits : tx.wireSize ≤ packetDataSize := Nat.le_of_not_gt hsize
      obtain ⟨hlimit, hcount⟩ := computeUnitLimit_compileWith hord hstatic htx hfits
      refine ⟨fun _ _ => by simp, fun _ _ hok => ?_⟩
      cases hok
      exact ⟨tx, rfl, hlimit, hcount, hfits⟩

end Budget

/-! ## 3. A whole build -/

/-- **The compute budget of a build**, with any message compilers that keep the order of the
instructions and keep invoked keys static. A build that ends well took its block hash and tables,
and then: with a fixed policy it built a transaction asking for the policy's units; with a
simulated policy it dry-ran the probe (the same instructions asking for the most units, on the
same hash and tables) in the state it had reached. It ended with the dry run's failure exactly
when the policy ends on failure and the dry run failed. Otherwise the transaction asks for the
units sized from the consumption when the dry run went through and reports it, and for the
fallback units when the dry run failed or reports none. Every built transaction holds the
caller's instructions behind one or two compute budget instructions and fits a packet, whatever
compute budget instructions the caller's own ones hold. -/
theorem buildWith_budget (mc : MessageCompiler) (hord : mc.KeepsOrder)
    (hstatic : mc.KeepsInvokedStatic) (env : BuilderEnv σ) (instructions : List Instruction)
    (params : BuildParams) (s s' : σ) (r : BuildResult)
    (h : (buildWith mc env instructions params).run.run s = (.ok r, s')) :
    ∃ blockhash tables s₁, (prepare env params).run.run s = (.ok (blockhash, tables), s₁) ∧
      (∀ units price, params.budget = .fixed units price →
        ∃ tx, r = .ready tx ∧ Budgeted instructions units price tx) ∧
      (∀ price multiplier lowerBound fallbackUnits exitEarly,
        params.budget = .simulated price multiplier lowerBound fallbackUnits exitEarly →
        ∃ probe outcome s₂,
          compileWith mc (withComputeBudget instructions Budget.maxComputeUnits price) params
            tables blockhash = .ok probe ∧
          (env.ledger.simulate probe).run.run s₁ = (.ok outcome, s₂) ∧
          (∀ error logs, r = .simulationFailed error logs ↔
            exitEarly = true ∧ outcome.error = some error ∧ logs = outcome.logs) ∧
          (∀ consumed, outcome.error = none → outcome.unitsConsumed = some consumed →
            ∃ tx, r = .ready tx ∧ Budgeted instructions
              (Budget.unitsFromSimulation consumed multiplier lowerBound) price tx) ∧
          ((outcome.error.isSome ∧ exitEarly = false) ∨
              (outcome.error = none ∧ outcome.unitsConsumed = none) →
            ∃ tx, r = .ready tx ∧ Budgeted instructions fallbackUnits price tx)) := by
  rw [buildWith_eq] at h
  obtain ⟨⟨blockhash, tables⟩, s₁, hprep, hfin⟩ := Client.run_bind_eq_ok h
  obtain ⟨c, s₂, hc, hfailed, hready⟩ := run_finishWith_eq_ok hord hstatic hfin
  refine ⟨blockhash, tables, s₁, hprep, ?fixed, ?simulated⟩
  case fixed =>
    intro units price hb
    rw [run_chooseBudget_fixed hb] at hc
    cases hc
    exact hready units price rfl
  case simulated =>
    intro price multiplier lowerBound fallbackUnits exitEarly hb
    obtain ⟨probe, outcome, hprobe, hsim, herror, hused, hnone⟩ := run_chooseBudget_simulated hb hc
    refine ⟨probe, outcome, s₂, hprobe, hsim, fun error logs => ?_, fun consumed hok hc' =>
      hready _ _ (hused consumed hok hc'), ?_⟩
    · -- the budget step settles on a failure only when a failed dry run ends the build
      rw [hfailed]
      cases herr : outcome.error with
      | some e =>
        rw [herror e herr]
        cases exitEarly <;> simp [Prod.ext_iff, eq_comm]
      | none =>
        cases hc' : outcome.unitsConsumed with
        | some consumed => simp [hused consumed herr hc']
        | none => simp [hnone herr hc']
    · rintro (⟨hsome, hlate⟩ | ⟨herr, hnil⟩)
      · obtain ⟨e, he⟩ := Option.isSome_iff_exists.mp hsome
        have hfall : c = .ok (fallbackUnits, price) := by
          rw [herror e he, hlate]
          rfl
        exact hready _ _ hfall
      · exact hready _ _ (hnone herr hnil)

/-- **The compute budget of a build** with the Solana compilers, which keep both laws: the
general statement at the compilers the client uses. -/
theorem build_budget (env : BuilderEnv σ) (instructions : List Instruction)
    (params : BuildParams) (s s' : σ) (r : BuildResult)
    (h : (build env instructions params).run.run s = (.ok r, s')) :
    ∃ blockhash tables s₁, (prepare env params).run.run s = (.ok (blockhash, tables), s₁) ∧
      (∀ units price, params.budget = .fixed units price →
        ∃ tx, r = .ready tx ∧ Budgeted instructions units price tx) ∧
      (∀ price multiplier lowerBound fallbackUnits exitEarly,
        params.budget = .simulated price multiplier lowerBound fallbackUnits exitEarly →
        ∃ probe outcome s₂,
          compile (withComputeBudget instructions Budget.maxComputeUnits price) params tables
            blockhash = .ok probe ∧
          (env.ledger.simulate probe).run.run s₁ = (.ok outcome, s₂) ∧
          (∀ error logs, r = .simulationFailed error logs ↔
            exitEarly = true ∧ outcome.error = some error ∧ logs = outcome.logs) ∧
          (∀ consumed, outcome.error = none → outcome.unitsConsumed = some consumed →
            ∃ tx, r = .ready tx ∧ Budgeted instructions
              (Budget.unitsFromSimulation consumed multiplier lowerBound) price tx) ∧
          ((outcome.error.isSome ∧ exitEarly = false) ∨
              (outcome.error = none ∧ outcome.unitsConsumed = none) →
            ∃ tx, r = .ready tx ∧ Budgeted instructions fallbackUnits price tx)) :=
  buildWith_budget .solana MessageCompiler.solana_keepsOrder MessageCompiler.solana_keepsInvokedStatic
    env instructions params s s' r h

/-! ## 4. A build that needs no request

A legacy build on a given block hash with a fixed policy asks nothing of the ledger, so it goes
through even on a ledger that cannot be reached. Paid by the compute budget program itself, its
message lists that one key, and every step can be followed by rewriting. -/

/-- The build environment of a ledger that cannot be reached. -/
def offlineEnv : BuilderEnv Unit :=
  ⟨Ledger.unreachable, ComputeBudget.programId, fun _ => none, fun _ s => s⟩

/-- A legacy build paid by the compute budget program, at a fixed 200000 units and no price, on
the all-zero block hash. -/
def offlineParams : BuildParams :=
  ⟨ComputeBudget.programId, .legacy, .fixed 200000 0, none, some (Blockhash.ofBytes [])⟩

/-- The transaction of the limit alone, paid by the compute budget program. -/
def limitOnlyTx (units : UInt32) (blockhash : Blockhash) : Transaction :=
  Transaction.unsigned (.legacy ⟨⟨1, 0, 0⟩, [ComputeBudget.programId], blockhash,
    [⟨0, [], ComputeBudget.setLimitTag :: Layout.writeU32 units⟩]⟩)

theorem compareBytes_programId :
    Pubkey.compareBytes ComputeBudget.programId ComputeBudget.programId = .eq :=
  (Pubkey.compareBytes_eq_eq_iff _ _).mpr rfl

/-- Paid by the compute budget program, the limit alone compiles to one key that signs, is
written and is invoked. -/
theorem compileKeys_limit_programId (units : UInt32) :
    Compile.compileKeys [ComputeBudget.setComputeUnitLimit units] ComputeBudget.programId =
      [(ComputeBudget.programId, ⟨true, true, true⟩)] := by
  simp [Compile.compileKeys, Compile.addInstruction, Ordered.alter, Ordered.insert, Ordered.find?,
    compareBytes_programId, ComputeBudget.setComputeUnitLimit, Compile.unused]

theorem compile_limit_programId (units : UInt32) (blockhash : Blockhash) :
    compileWith .solana (withComputeBudget [] units 0)
      ⟨ComputeBudget.programId, .legacy, .fixed units 0, none, some blockhash⟩ [] blockhash =
        .ok (limitOnlyTx units blockhash) := by
  have hw : withComputeBudget [] units 0 = [ComputeBudget.setComputeUnitLimit units] := rfl
  have hc : Compile.components ComputeBudget.programId
      [(ComputeBudget.programId, ⟨true, true, true⟩)] = .ok (⟨1, 0, 0⟩, [ComputeBudget.programId]) := by
    simp [Compile.components, Ordered.erase, compareBytes_programId]
    rfl
  simp only [compileWith, MessageCompiler.solana, hw, Compile.legacy, compileKeys_limit_programId,
    hc]
  simp [Compile.legacyInstruction, Compile.wrappedPosition, ComputeBudget.setComputeUnitLimit,
    limitOnlyTx]

theorem wireSize_limitOnlyTx (units : UInt32) (blockhash : Blockhash) :
    (limitOnlyTx units blockhash).wireSize = 142 := by
  simp [limitOnlyTx, Transaction.wireSize, Transaction.encode, Transaction.unsigned, Message.encode,
    MessageBody.encode, Wire.encodeList, Pubkey.length_bytes, Blockhash.length_bytes,
    Message.header, Message.body]
  rfl

theorem run_build_offline :
    (build offlineEnv [] offlineParams).run.run () =
      (.ok (.ready (limitOnlyTx 200000 (Blockhash.ofBytes []))), ()) := by
  simp only [build, buildWith, offlineParams, lookupTablesFor, chooseBudgetWith, pure_bind,
    compile_limit_programId, liftOutcome, wireSize_limitOnlyTx, packetDataSize]
  rfl

theorem build_budget_offline :
    (build offlineEnv [] offlineParams).run.run () =
        (.ok (.ready (limitOnlyTx 200000 (Blockhash.ofBytes []))), ()) ∧
      ∃ blockhash tables s₁,
        (prepare offlineEnv offlineParams).run.run () = (.ok (blockhash, tables), s₁) ∧
        (∀ units price, offlineParams.budget = .fixed units price →
          ∃ tx, BuildResult.ready (limitOnlyTx 200000 (Blockhash.ofBytes [])) = .ready tx ∧
            Budgeted [] units price tx) ∧
        (∀ price multiplier lowerBound fallbackUnits exitEarly,
          offlineParams.budget = .simulated price multiplier lowerBound fallbackUnits exitEarly →
          ∃ probe outcome s₂,
            compile (withComputeBudget [] Budget.maxComputeUnits price) offlineParams tables
              blockhash = .ok probe ∧
            (offlineEnv.ledger.simulate probe).run.run s₁ = (.ok outcome, s₂) ∧
            (∀ error logs, BuildResult.ready (limitOnlyTx 200000 (Blockhash.ofBytes [])) =
                .simulationFailed error logs ↔
              exitEarly = true ∧ outcome.error = some error ∧ logs = outcome.logs) ∧
            (∀ consumed, outcome.error = none → outcome.unitsConsumed = some consumed →
              ∃ tx, BuildResult.ready (limitOnlyTx 200000 (Blockhash.ofBytes [])) = .ready tx ∧
                Budgeted [] (Budget.unitsFromSimulation consumed multiplier lowerBound) price tx) ∧
            ((outcome.error.isSome ∧ exitEarly = false) ∨
                (outcome.error = none ∧ outcome.unitsConsumed = none) →
              ∃ tx, BuildResult.ready (limitOnlyTx 200000 (Blockhash.ofBytes [])) = .ready tx ∧
                Budgeted [] fallbackUnits price tx)) :=
  ⟨run_build_offline, build_budget offlineEnv [] offlineParams () () _ run_build_offline⟩

end Builder

end PerpClient
