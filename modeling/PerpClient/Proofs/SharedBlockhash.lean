import PerpClient.Proofs.BuildBudget
import PerpClient.Api.Build
/-!
# Building a group of transactions on one block hash

A bulk build and a named build take one block hash for the whole group, the given one or the
latest one, and then build each instruction set in turn on it; the first build that fails ends
the group with its failure. The market lookup table is fetched the first time a build needs it
and kept, so a group fetches it at most once, and a build never fetches it again once it is
kept.

What a run requests is read off counters the surroundings keep (`BuilderEnv.Counts`): one of block
hash requests and one of lookup table requests, each moved by its own request and by nothing
else the builder does. The scripted ledger keeps both (`counts_buildEnv`).

Runs are followed with triples (`Client.Triple`): from a state with a property, a run ends well
in a state with a second property, or fails in a state with a third.

* `Client.run_mapM_eq_ok_iff`, `Client.run_mapM_eq_error_iff`: running a step on each item in
  turn ends well exactly when every run does (`RunsEach`), and fails with the first failure
  (`FailsFirst`);
* `recentBlockhash_build`: a ready build on a given block hash carries that hash;
* `triple_build_table`: a build requests the market table only where none is kept, and keeps
  the table it gets (`BuilderEnv.FetchedOnce`);
* `BulkRun`, `bulkRun`: what a bulk build does, its requests counted;
* `buildMap_eq_buildBulk`: a named build is the bulk build of its sets in name order;
* `buildGroup_contract`: all of it for every group and every build.
-/

namespace PerpClient

namespace Client

variable {σ α β : Type}

/-! ## 1. Runs of client computations -/

theorem run_pure (a : α) (s : σ) : (pure a : Client σ α).run.run s = (.ok a, s) := rfl

theorem run_get_bind (k : σ → Client σ α) (s : σ) : (get >>= k).run.run s = (k s).run.run s := rfl

theorem run_bind_of_ok {x : Client σ α} {f : α → Client σ β} {s s₁ : σ} {a : α}
    (hx : x.run.run s = (.ok a, s₁)) : (x >>= f).run.run s = (f a).run.run s₁ := by
  rw [ExceptT.run_bind, run_bind_pair, hx]

theorem run_bind_of_error {x : Client σ α} {f : α → Client σ β} {s s₁ : σ} {e : Failure}
    (hx : x.run.run s = (.error e, s₁)) : (x >>= f).run.run s = (.error e, s₁) := by
  rw [ExceptT.run_bind, run_bind_pair, hx]
  rfl

theorem run_bind_eq_ok_iff {x : Client σ α} {f : α → Client σ β} {s s' : σ} {b : β} :
    (x >>= f).run.run s = (.ok b, s') ↔
      ∃ a s₁, x.run.run s = (.ok a, s₁) ∧ (f a).run.run s₁ = (.ok b, s') := by
  constructor
  · exact run_bind_eq_ok
  · rintro ⟨a, s₁, hx, hf⟩
    rw [run_bind_of_ok hx, hf]

/-- A run that fails failed in its first part, or ended that part well and failed in the rest. -/
theorem run_bind_eq_error_iff {x : Client σ α} {f : α → Client σ β} {s s' : σ} {e : Failure} :
    (x >>= f).run.run s = (.error e, s') ↔
      x.run.run s = (.error e, s') ∨
        ∃ a s₁, x.run.run s = (.ok a, s₁) ∧ (f a).run.run s₁ = (.error e, s') := by
  constructor
  · intro h
    cases hx : x.run.run s with
    | mk r s₁ =>
      cases r with
      | error e' =>
        rw [run_bind_of_error hx] at h
        cases h
        exact .inl rfl
      | ok a =>
        rw [run_bind_of_ok hx] at h
        exact .inr ⟨a, s₁, rfl, h⟩
  · rintro (hx | ⟨a, s₁, hx, hf⟩)
    · exact run_bind_of_error hx
    · rw [run_bind_of_ok hx, hf]

/-! ## 2. Running a step on each item in turn -/

/-- `RunsEach f xs s ys s'`: running `f` on each of `xs` in turn, each from the state the one
before left and the first from `s`, ends well every time, with the results `ys` and the last
state `s'`. -/
inductive RunsEach (f : α → Client σ β) : List α → σ → List β → σ → Prop
  | nil (s : σ) : RunsEach f [] s [] s
  | cons {x : α} {xs : List α} {y : β} {ys : List β} {s s₁ s' : σ} :
    (f x).run.run s = (.ok y, s₁) → RunsEach f xs s₁ ys s' → RunsEach f (x :: xs) s (y :: ys) s'

/-- Running `f` on each of `xs` in turn from `s` fails first at one of them, with the failure `e`
in the state `s'`: the runs on the items before it ended well. -/
def FailsFirst (f : α → Client σ β) (xs : List α) (s : σ) (e : Failure) (s' : σ) : Prop :=
  ∃ pre x post ys s₁, xs = pre ++ x :: post ∧ RunsEach f pre s ys s₁ ∧
    (f x).run.run s₁ = (.error e, s')

theorem run_mapM_eq_ok_iff {f : α → Client σ β} {xs : List α} {s s' : σ} {ys : List β} :
    (xs.mapM f).run.run s = (.ok ys, s') ↔ RunsEach f xs s ys s' := by
  induction xs generalizing s ys with
  | nil =>
    rw [List.mapM_nil, run_pure]
    constructor
    · intro h
      cases h
      exact .nil _
    · intro h
      cases h
      rfl
  | cons x xs ih =>
    rw [List.mapM_cons, run_bind_eq_ok_iff]
    constructor
    · rintro ⟨y, s₁, hx, hrest⟩
      obtain ⟨ys', s₂, hxs, hpure⟩ := run_bind_eq_ok hrest
      cases hpure
      exact .cons hx (ih.mp hxs)
    · intro h
      cases h with
      | cons hx hxs =>
        exact ⟨_, _, hx, by rw [run_bind_of_ok (ih.mpr hxs)]; rfl⟩

theorem run_mapM_eq_error_iff {f : α → Client σ β} {xs : List α} {s s' : σ} {e : Failure} :
    (xs.mapM f).run.run s = (.error e, s') ↔ FailsFirst f xs s e s' := by
  induction xs generalizing s with
  | nil =>
    rw [List.mapM_nil, run_pure]
    constructor
    · intro h
      cases h
    · rintro ⟨pre, x, post, ys, s₁, hsplit, -, -⟩
      exact absurd hsplit.symm (by simp)
  | cons x xs ih =>
    rw [List.mapM_cons, run_bind_eq_error_iff]
    constructor
    · rintro (hx | ⟨y, s₁, hx, hrest⟩)
      · exact ⟨[], x, xs, [], s, rfl, .nil s, hx⟩
      · rcases run_bind_eq_error_iff.mp hrest with hxs | ⟨ys, s₂, -, hpure⟩
        · obtain ⟨pre, x', post, ys', s₃, rfl, hpre, hx'⟩ := ih.mp hxs
          exact ⟨x :: pre, x', post, y :: ys', s₃, rfl, .cons hx hpre, hx'⟩
        · cases hpure
    · rintro ⟨pre, x', post, ys, s₁, hsplit, hpre, hx'⟩
      cases pre with
      | nil =>
        obtain ⟨rfl, rfl⟩ := List.cons.inj hsplit
        cases hpre
        exact .inl hx'
      | cons p pre =>
        obtain ⟨rfl, rfl⟩ := List.cons.inj hsplit
        cases hpre with
        | cons hp hpre' =>
          exact .inr ⟨_, _, hp, run_bind_of_error (ih.mpr ⟨pre, x', post, _, s₁, rfl, hpre', hx'⟩)⟩

/-! ## 3. Triples -/

/-- Run from a state where `P` holds, `x` ends well with a result `a` in a state where `Q a` holds,
or fails in a state where `R` holds. -/
structure Triple (P : σ → Prop) (x : Client σ α) (Q : α → σ → Prop) (R : σ → Prop) : Prop where
  ok : ∀ {s a s'}, P s → x.run.run s = (.ok a, s') → Q a s'
  error : ∀ {s e s'}, P s → x.run.run s = (.error e, s') → R s'

variable {P R : σ → Prop}

theorem Triple.bind {Q : α → σ → Prop} {Q' : β → σ → Prop} {x : Client σ α}
    {f : α → Client σ β} (hx : Triple P x Q R) (hf : ∀ a, Triple (Q a) (f a) Q' R) :
    Triple P (x >>= f) Q' R :=
  ⟨fun hs h => by
    obtain ⟨a, s₁, h1, h2⟩ := run_bind_eq_ok h
    exact (hf a).ok (hx.ok hs h1) h2,
   fun hs h => by
    rcases run_bind_eq_error_iff.mp h with h1 | ⟨a, s₁, h1, h2⟩
    · exact hx.error hs h1
    · exact (hf a).error (hx.ok hs h1) h2⟩

theorem triple_pure {Q : α → σ → Prop} (a : α) (h : ∀ s, P s → Q a s) :
    Triple P (pure a : Client σ α) Q R := by
  refine ⟨fun hs hrun => ?_, fun _ hrun => ?_⟩
  · cases hrun
    exact h _ hs
  · cases hrun

theorem Triple.mono {P' R' : σ → Prop} {Q Q' : α → σ → Prop} {x : Client σ α}
    (h : Triple P x Q R) (hP : ∀ s, P' s → P s) (hQ : ∀ a s, Q a s → Q' a s)
    (hR : ∀ s, R s → R' s) : Triple P' x Q' R' :=
  ⟨fun hs hrun => hQ _ _ (h.ok (hP _ hs) hrun), fun hs hrun => hR _ (h.error (hP _ hs) hrun)⟩

/-- A run of a step whose posts agree ends, well or not, in a state where that post holds. -/
theorem Triple.post {x : Client σ α} (h : Triple P x (fun _ => R) R) {s s' : σ}
    {r : Except Failure α} (hs : P s) (hrun : x.run.run s = (r, s')) : R s' := by
  cases r with
  | ok a => exact h.ok hs hrun
  | error e => exact h.error hs hrun

/-- A step that keeps a part of the state keeps every property of that part, and a failed run of
it leaves every weaker one. -/
theorem triple_of_keeps {γ : Type} {f : σ → γ} {x : Client σ α} (h : Keeps f x.run)
    (Φ Ψ : γ → Prop) (hΦ : ∀ v, Φ v → Ψ v) :
    Triple (fun s => Φ (f s)) x (fun _ s => Φ (f s)) (fun s => Ψ (f s)) := by
  have hend : ∀ {s r s'}, x.run.run s = (r, s') → f s' = f s := fun {s r s'} hrun => by
    have hkeep : f (x.run.run s).2 = f s := h s
    rwa [hrun] at hkeep
  refine ⟨fun hs hrun => ?_, fun hs hrun => ?_⟩
  · rw [hend hrun]
    exact hs
  · rw [hend hrun]
    exact hΦ _ hs

theorem triple_of_keeps_eq {γ : Type} {f : σ → γ} {x : Client σ α} (h : Keeps f x.run) (k : γ) :
    Triple (fun s => f s = k) x (fun _ s => f s = k) (fun s => f s = k) :=
  triple_of_keeps h (· = k) (· = k) fun _ h => h

theorem triple_get_bind {Q : α → σ → Prop} {k : σ → Client σ α}
    (h : ∀ s₀, Triple (fun s => s = s₀ ∧ P s) (k s₀) Q R) : Triple P (get >>= k) Q R :=
  ⟨fun {s _ _} hs hrun => (h s).ok ⟨rfl, hs⟩ hrun, fun {s _ _} hs hrun => (h s).error ⟨rfl, hs⟩ hrun⟩

/-- What every run of a step keeps, running the step on each item in turn keeps. -/
theorem RunsEach.post {f : α → Client σ β} (h : ∀ x, Triple P (f x) (fun _ => P) R)
    {xs : List α} {s s' : σ} {ys : List β} (hr : RunsEach f xs s ys s') (hs : P s) : P s' := by
  induction hr with
  | nil => exact hs
  | cons hx _ ih => exact ih ((h _).ok hs hx)

theorem FailsFirst.post {f : α → Client σ β} (h : ∀ x, Triple P (f x) (fun _ => P) R)
    {xs : List α} {s s' : σ} {e : Failure} (hf : FailsFirst f xs s e s') (hs : P s) : R s' := by
  obtain ⟨pre, x, post, ys, s₁, -, hpre, hx⟩ := hf
  exact (h x).error (hpre.post h hs) hx

/-- Every result of a run on each item in turn is a result of one run of the step. -/
theorem RunsEach.forall_mem {f : α → Client σ β} {Q : β → Prop}
    (h : ∀ x s b s', (f x).run.run s = (.ok b, s') → Q b) {xs : List α} {s s' : σ} {ys : List β}
    (hr : RunsEach f xs s ys s') : ∀ y ∈ ys, Q y := by
  induction hr with
  | nil => simp
  | cons hx _ ih =>
    intro y hy
    rcases List.mem_cons.mp hy with rfl | hy
    · exact h _ _ _ _ hx
    · exact ih y hy

/-- Running a step on each named item, answering each name with the step's result, is running it
on the items alone and pairing the results with the names. -/
theorem mapM_named (g : α → Client σ β) (xs : List (String × α)) :
    (xs.mapM fun (name, a) => do pure (name, ← g a)) =
      (fun rs => (xs.map Prod.fst).zip rs) <$> (xs.map Prod.snd).mapM g := by
  induction xs with
  | nil => simp
  | cons x xs ih =>
    simp only [List.mapM_cons, ih, List.map_cons, map_bind, bind_assoc, bind_map_left, pure_bind,
      map_pure, List.zip_cons_cons]

end Client

/-! ## 4. What the surroundings count -/

open Client

variable {σ : Type}

/-- What the surroundings of a builder count: `hashes`, the block hash requests, and `fetches`,
the lookup table requests. Each request moves its own count by one, whatever its outcome; a dry
run and the keeping of a table move neither. No request changes the kept table, and keeping a
table keeps that one. -/
structure BuilderEnv.Counts (env : BuilderEnv σ) (hashes fetches : σ → Nat) : Prop where
  getLatestBlockhash : ∀ {s r s'}, env.ledger.getLatestBlockhash.run.run s = (r, s') →
    hashes s' = hashes s + 1 ∧ fetches s' = fetches s ∧ env.cachedTable s' = env.cachedTable s
  getAddressLookupTable : ∀ {k s r s'}, (env.ledger.getAddressLookupTable k).run.run s = (r, s') →
    hashes s' = hashes s ∧ fetches s' = fetches s + 1 ∧ env.cachedTable s' = env.cachedTable s
  simulate : ∀ {tx s r s'}, (env.ledger.simulate tx).run.run s = (r, s') →
    hashes s' = hashes s ∧ fetches s' = fetches s ∧ env.cachedTable s' = env.cachedTable s
  cacheTable : ∀ t s, hashes (env.cacheTable t s) = hashes s ∧
    fetches (env.cacheTable t s) = fetches s ∧ env.cachedTable (env.cacheTable t s) = some t

namespace BuilderEnv.Counts

variable {env : BuilderEnv σ} {hashes fetches : σ → Nat}

theorem keeps_of {α γ : Type} {f : σ → γ} {x : Client σ α}
    (h : ∀ {s r s'}, x.run.run s = (r, s') → f s' = f s) : Keeps f x.run :=
  fun _ => h rfl

theorem keeps_simulate_hashes (hc : env.Counts hashes fetches) (tx : Transaction) :
    Keeps hashes (env.ledger.simulate tx).run :=
  keeps_of fun hrun => (hc.simulate hrun).1

theorem keeps_getAddressLookupTable_hashes (hc : env.Counts hashes fetches) (k : Pubkey) :
    Keeps hashes (env.ledger.getAddressLookupTable k).run :=
  keeps_of fun hrun => (hc.getAddressLookupTable hrun).1

/-- A dry run keeps the table count and the kept table. -/
theorem keeps_simulate_table (hc : env.Counts hashes fetches) (tx : Transaction) :
    Keeps (fun s => (fetches s, env.cachedTable s)) (env.ledger.simulate tx).run :=
  keeps_of fun hrun => by
    obtain ⟨-, h2, h3⟩ := hc.simulate hrun
    rw [h2, h3]

/-- A block hash request keeps the table count and the kept table. -/
theorem keeps_getLatestBlockhash_table (hc : env.Counts hashes fetches) :
    Keeps (fun s => (fetches s, env.cachedTable s)) env.ledger.getLatestBlockhash.run :=
  keeps_of fun hrun => by
    obtain ⟨-, h2, h3⟩ := hc.getLatestBlockhash hrun
    rw [h2, h3]

end BuilderEnv.Counts

namespace BuilderEnv

/-! ## 5. How many times the table was requested -/

variable (env : BuilderEnv σ) (fetches : σ → Nat) (n : Nat) (c₀ : Option LookupTable)

/-- Since a state with `n` table requests and the kept table `c₀`: no request was made and the
kept table is the same, or none was kept, one request was made, and a table is kept now. -/
def FetchedOnce (s : σ) : Prop :=
  fetches s = n ∧ env.cachedTable s = c₀ ∨ c₀ = none ∧ fetches s = n + 1 ∧ env.cachedTable s ≠ none

/-- What a failed run leaves since such a state: as in `FetchedOnce`, or one request made while no
table was kept, which may be the request that failed. -/
def FetchTried (s : σ) : Prop :=
  fetches s = n ∧ env.cachedTable s = c₀ ∨ c₀ = none ∧ fetches s = n + 1

variable {env fetches n c₀} {s : σ}

theorem fetchedOnce_start : env.FetchedOnce fetches (fetches s) (env.cachedTable s) s :=
  .inl ⟨rfl, rfl⟩

theorem FetchedOnce.tried (h : env.FetchedOnce fetches n c₀ s) : env.FetchTried fetches n c₀ s :=
  h.imp_right fun h => ⟨h.1, h.2.1⟩

/-- Where no table is kept, none was requested. -/
theorem FetchedOnce.of_none (h : env.FetchedOnce fetches n c₀ s) (hs : env.cachedTable s = none) :
    fetches s = n ∧ c₀ = none := by
  rcases h with ⟨hn, hc⟩ | ⟨-, -, hkept⟩
  · exact ⟨hn, hc ▸ hs⟩
  · exact absurd hs hkept

/-- Where a table was requested, it is kept. -/
theorem FetchedOnce.kept_of_ne (h : env.FetchedOnce fetches n c₀ s) (hn : fetches s ≠ n) :
    env.cachedTable s ≠ none := by
  rcases h with ⟨h, -⟩ | ⟨-, -, hkept⟩
  · exact absurd h hn
  · exact hkept

theorem FetchTried.le (h : env.FetchTried fetches n c₀ s) : fetches s ≤ n + 1 := by
  rcases h with ⟨h, -⟩ | ⟨-, h⟩ <;> omega

/-- From where a table was kept, nothing was requested and the same table is kept. -/
theorem FetchTried.of_kept (h : env.FetchTried fetches n c₀ s) (hc₀ : c₀ ≠ none) :
    fetches s = n ∧ env.cachedTable s = c₀ := by
  rcases h with h | ⟨h, -⟩
  · exact h
  · exact absurd h hc₀

end BuilderEnv

namespace Compile

/-! ## 6. The block hash a transaction is compiled on -/

theorem legacy_recentBlockhash {ixs : List Instruction} {payer : Pubkey} {blockhash : Blockhash}
    {m : Message} (h : legacy ixs payer blockhash = .ok m) : m.body.recentBlockhash = blockhash := by
  obtain ⟨header, keys, -, rfl⟩ := legacy_eq_ok h
  rfl

theorem v0_recentBlockhash {ixs : List Instruction} {payer : Pubkey} {tables : List LookupTable}
    {blockhash : Blockhash} {m : Message} (h : v0 ixs payer tables blockhash = .ok m) :
    m.body.recentBlockhash = blockhash := by
  unfold v0 at h
  obtain ⟨⟨m', lookups⟩, -, h⟩ := Resolver.except_bind_eq_ok h
  obtain ⟨⟨header, keys⟩, -, h⟩ := Resolver.except_bind_eq_ok h
  dsimp only at h
  split at h
  next =>
    obtain ⟨_, hthrow, -⟩ := Resolver.except_bind_eq_ok h
    cases hthrow
  next =>
    obtain ⟨compiled, -, h⟩ := Resolver.except_bind_eq_ok h
    cases h
    rfl

end Compile

namespace Builder

variable {env : BuilderEnv σ}

/-! ## 7. The steps of a build keep what their requests keep -/

section Keeping

variable {γ : Type} {f : σ → γ}

theorem keeps_liftOutcome {α : Type} (o : Outcome α) : Keeps f (liftOutcome o : Client σ α).run := by
  cases o with
  | ok a => exact keeps_run_pure a
  | error e => exact keeps_run_throw e

theorem keeps_chooseBudgetWith (mc : MessageCompiler)
    (hsim : ∀ tx, Keeps f (env.ledger.simulate tx).run) (instructions : List Instruction)
    (params : BuildParams) (tables : List LookupTable) (blockhash : Blockhash) :
    Keeps f (chooseBudgetWith mc env instructions params tables blockhash).run := by
  unfold chooseBudgetWith
  split
  · exact keeps_run_pure _
  · refine (keeps_liftOutcome _).run_bind fun probe => (hsim probe).run_bind fun outcome => ?_
    split
    · split
      · exact keeps_run_pure _
      · exact keeps_run_pure _
    · exact keeps_run_pure _
    · exact keeps_run_pure _

theorem keeps_finishWith (mc : MessageCompiler) (hsim : ∀ tx, Keeps f (env.ledger.simulate tx).run)
    (instructions : List Instruction) (params : BuildParams) (blockhash : Blockhash)
    (tables : List LookupTable) :
    Keeps f (finishWith mc env instructions params blockhash tables).run := by
  unfold finishWith
  refine (keeps_chooseBudgetWith mc hsim _ _ _ _).run_bind fun c => ?_
  split
  · exact keeps_run_pure _
  · refine (keeps_liftOutcome _).run_bind fun tx => ?_
    dsimp only
    split
    · exact (keeps_run_throw _).run_bind fun _ => keeps_run_pure _
    · exact keeps_run_pure _

theorem keeps_fetchMarketLookupTable (hget : ∀ k, Keeps f (env.ledger.getAddressLookupTable k).run)
    (hcache : ∀ t s, f (env.cacheTable t s) = f s) : Keeps f (fetchMarketLookupTable env).run := by
  intro s
  apply keepsAt_run_get_bind
  split
  · exact keeps_run_pure _ s
  · refine ((hget _).run_bind fun t => ?_) s
    have hkeep : Keeps f (modify (env.cacheTable t) : Client σ PUnit).run := hcache t
    exact hkeep.run_bind fun _ => keeps_run_pure _

theorem keeps_lookupTablesFor (hget : ∀ k, Keeps f (env.ledger.getAddressLookupTable k).run)
    (hcache : ∀ t s, f (env.cacheTable t s) = f s) (params : BuildParams) :
    Keeps f (lookupTablesFor env params).run := by
  unfold lookupTablesFor
  split
  · exact keeps_run_pure _
  · exact keeps_run_pure _
  · exact (keeps_fetchMarketLookupTable hget hcache).run_bind fun _ => keeps_run_pure _

/-- A build on a given block hash keeps what its table requests, the keeping of a table and its
dry runs keep. -/
theorem keeps_build_of_blockhash {params : BuildParams} {b : Blockhash}
    (hb : params.blockhash = some b) (hget : ∀ k, Keeps f (env.ledger.getAddressLookupTable k).run)
    (hcache : ∀ t s, f (env.cacheTable t s) = f s) (hsim : ∀ tx, Keeps f (env.ledger.simulate tx).run)
    (instructions : List Instruction) : Keeps f (build env instructions params).run := by
  rw [build_eq]
  unfold prepare
  rw [hb]
  exact ((keeps_run_pure b).run_bind fun _ => (keeps_lookupTablesFor hget hcache params).run_bind
    fun _ => keeps_run_pure _).run_bind fun _ => keeps_finishWith .solana hsim _ _ _ _

end Keeping

/-! ## 8. One build -/

section OneBuild

variable {hashes fetches : σ → Nat}

/-- A built transaction is compiled on the block hash it was built on. -/
theorem recentBlockhash_compile {ixs : List Instruction} {params : BuildParams}
    {tables : List LookupTable} {blockhash : Blockhash} {tx : Transaction}
    (h : compileWith .solana ixs params tables blockhash = .ok tx) :
    tx.message.body.recentBlockhash = blockhash := by
  unfold compileWith at h
  split at h
  · split at h
    next m hm =>
      cases h
      exact Compile.legacy_recentBlockhash hm
    next => cases h
  · split at h
    next m hm =>
      cases h
      exact Compile.v0_recentBlockhash hm
    next => cases h

theorem recentBlockhash_finish {instructions : List Instruction} {params : BuildParams}
    {blockhash : Blockhash} {tables : List LookupTable} {s s' : σ} {tx : Transaction}
    (h : (finishWith .solana env instructions params blockhash tables).run.run s =
      (.ok (.ready tx), s')) :
    tx.message.body.recentBlockhash = blockhash := by
  unfold finishWith at h
  obtain ⟨c, s₁, -, hsettled⟩ := run_bind_eq_ok h
  cases c with
  | error p => cases hsettled
  | ok p =>
    obtain ⟨tx', s₂, hlift, hsized⟩ := run_bind_eq_ok hsettled
    obtain ⟨htx, rfl⟩ := run_liftOutcome_eq_ok hlift
    by_cases hsize : tx'.wireSize > packetDataSize
    · simp only [hsize, ↓reduceIte] at hsized
      cases hsized
    · simp only [hsize, ↓reduceIte] at hsized
      cases hsized
      exact recentBlockhash_compile htx

/-- **A ready build on a given block hash carries that hash.** -/
theorem recentBlockhash_build {params : BuildParams} {b : Blockhash} (hb : params.blockhash = some b)
    {instructions : List Instruction} {s s' : σ} {tx : Transaction}
    (h : (build env instructions params).run.run s = (.ok (.ready tx), s')) :
    tx.message.body.recentBlockhash = b := by
  rw [build_eq] at h
  obtain ⟨⟨blockhash, tables⟩, s₁, hprep, hfin⟩ := run_bind_eq_ok h
  have hhash : blockhash = b := by
    unfold prepare at hprep
    rw [hb] at hprep
    obtain ⟨b', s₂, hpure, hrest⟩ := run_bind_eq_ok hprep
    cases hpure
    obtain ⟨ts, s₃, -, hpure'⟩ := run_bind_eq_ok hrest
    cases hpure'
    rfl
  exact hhash ▸ recentBlockhash_finish hfin

/-- A build on a given block hash requests none. -/
theorem keeps_build_hashes (hc : env.Counts hashes fetches) {params : BuildParams} {b : Blockhash}
    (hb : params.blockhash = some b) (instructions : List Instruction) :
    Keeps hashes (build env instructions params).run :=
  keeps_build_of_blockhash hb hc.keeps_getAddressLookupTable_hashes (fun t s => (hc.cacheTable t s).1)
    hc.keeps_simulate_hashes instructions

variable (n : Nat) (c₀ : Option LookupTable)

/-- A step that keeps the table count and the kept table keeps `FetchedOnce`. -/
theorem triple_of_keeps_table {α : Type} {x : Client σ α}
    (h : Keeps (fun s => (fetches s, env.cachedTable s)) x.run) :
    Triple (env.FetchedOnce fetches n c₀) x (fun _ => env.FetchedOnce fetches n c₀)
      (env.FetchTried fetches n c₀) :=
  triple_of_keeps h (fun v => v.1 = n ∧ v.2 = c₀ ∨ c₀ = none ∧ v.1 = n + 1 ∧ v.2 ≠ none)
    (fun v => v.1 = n ∧ v.2 = c₀ ∨ c₀ = none ∧ v.1 = n + 1) fun _ h => h.imp_right fun h => ⟨h.1, h.2.1⟩

/-- Fetching the market table takes the kept one; where none is kept, it requests the table once
and keeps it. -/
theorem triple_fetchMarketLookupTable (hc : env.Counts hashes fetches) :
    Triple (env.FetchedOnce fetches n c₀) (fetchMarketLookupTable env)
      (fun t s => env.FetchedOnce fetches n c₀ s ∧ env.cachedTable s = some t)
      (env.FetchTried fetches n c₀) := by
  refine triple_get_bind fun s₀ => ?_
  split
  next t ht => exact triple_pure t fun s ⟨hs, hinv⟩ => ⟨hinv, hs ▸ ht⟩
  next ht =>
    refine ⟨fun ⟨hs, hinv⟩ hrun => ?_, fun ⟨hs, hinv⟩ hrun => ?_⟩
    · obtain ⟨hn, hc₀⟩ := hinv.of_none (hs ▸ ht)
      obtain ⟨t, s₁, hget, hrest⟩ := run_bind_eq_ok hrun
      obtain ⟨_, s₂, hmod, hpure⟩ := run_bind_eq_ok hrest
      cases hmod
      obtain ⟨-, hf₁, -⟩ := hc.getAddressLookupTable hget
      obtain ⟨-, hf₂, hkept⟩ := hc.cacheTable t s₁
      cases hpure
      exact ⟨.inr ⟨hc₀, by omega, by simp [hkept]⟩, hkept⟩
    · obtain ⟨hn, hc₀⟩ := hinv.of_none (hs ▸ ht)
      rcases run_bind_eq_error_iff.mp hrun with hget | ⟨t, s₁, -, hrest⟩
      · obtain ⟨-, hf₁, -⟩ := hc.getAddressLookupTable hget
        exact .inr ⟨hc₀, by omega⟩
      · rcases run_bind_eq_error_iff.mp hrest with hmod | ⟨_, _, -, hpure⟩
        · cases hmod
        · cases hpure

theorem triple_lookupTablesFor (hc : env.Counts hashes fetches) (params : BuildParams) :
    Triple (env.FetchedOnce fetches n c₀) (lookupTablesFor env params)
      (fun _ => env.FetchedOnce fetches n c₀) (env.FetchTried fetches n c₀) := by
  unfold lookupTablesFor
  split
  · exact triple_pure _ fun _ hs => hs
  · exact triple_pure _ fun _ hs => hs
  · exact (triple_fetchMarketLookupTable n c₀ hc).bind fun _ => triple_pure _ fun _ hs => hs.1

/-- **A build requests the market table only where none is kept**, and keeps the table it gets. -/
theorem triple_build_table (hc : env.Counts hashes fetches) (instructions : List Instruction)
    (params : BuildParams) :
    Triple (env.FetchedOnce fetches n c₀) (build env instructions params)
      (fun _ => env.FetchedOnce fetches n c₀) (env.FetchTried fetches n c₀) := by
  rw [build_eq]
  refine Triple.bind ?_ fun _ => triple_of_keeps_table n c₀ (keeps_finishWith .solana hc.keeps_simulate_table _ _ _ _)
  have htables : ∀ b : Blockhash, Triple (env.FetchedOnce fetches n c₀)
      (lookupTablesFor env params >>= fun tables => pure (b, tables))
      (fun _ => env.FetchedOnce fetches n c₀) (env.FetchTried fetches n c₀) := fun _ =>
    (triple_lookupTablesFor n c₀ hc params).bind fun _ => triple_pure _ fun _ hs => hs
  unfold prepare
  dsimp only
  split
  · exact (triple_pure _ fun _ hs => hs).bind htables
  · exact (triple_of_keeps_table n c₀ hc.keeps_getLatestBlockhash_table).bind htables

end OneBuild

/-! ## 9. A group of builds on one block hash -/

section Group

variable {hashes fetches : σ → Nat} {params : BuildParams} {s s₁ s' : σ}

/-- The block hash a group shares, taken from `s` to `s₁`: the given one, without a request, or
the latest one, requested once. -/
def SharedHash (env : BuilderEnv σ) (params : BuildParams) (s : σ) (b : Blockhash) (s₁ : σ) : Prop :=
  params.blockhash = some b ∧ s₁ = s ∨
    params.blockhash = none ∧ env.ledger.getLatestBlockhash.run.run s = (.ok b, s₁)

theorem with_blockhash_of_eq_some {b : Blockhash} (h : params.blockhash = some b) :
    { params with blockhash := some b } = params := by
  cases params
  cases h
  rfl

theorem run_withSharedBlockhash_eq_ok {p : BuildParams} :
    (withSharedBlockhash env params).run.run s = (.ok p, s₁) ↔
      ∃ b, SharedHash env params s b s₁ ∧ p = { params with blockhash := some b } := by
  unfold withSharedBlockhash
  split
  next b hb =>
    rw [run_pure]
    constructor
    · intro h
      cases h
      exact ⟨b, .inl ⟨hb, rfl⟩, (with_blockhash_of_eq_some hb).symm⟩
    · rintro ⟨b', ⟨hb', rfl⟩ | ⟨hnone, -⟩, rfl⟩
      · rw [with_blockhash_of_eq_some hb']
      · rw [hb] at hnone
        cases hnone
  next hb =>
    rw [run_bind_eq_ok_iff]
    constructor
    · rintro ⟨b, s₂, hget, hpure⟩
      cases hpure
      exact ⟨b, .inr ⟨hb, hget⟩, rfl⟩
    · rintro ⟨b, ⟨hsome, -⟩ | ⟨-, hget⟩, rfl⟩
      · rw [hb] at hsome
        cases hsome
      · exact ⟨b, s₁, hget, rfl⟩

theorem run_withSharedBlockhash_eq_error {e : Failure} :
    (withSharedBlockhash env params).run.run s = (.error e, s₁) ↔
      params.blockhash = none ∧ env.ledger.getLatestBlockhash.run.run s = (.error e, s₁) := by
  unfold withSharedBlockhash
  split
  next b hb =>
    rw [run_pure]
    constructor
    · intro h
      cases h
    · rintro ⟨hnone, -⟩
      rw [hb] at hnone
      cases hnone
  next hb =>
    rw [run_bind_eq_error_iff]
    constructor
    · rintro (hget | ⟨b, s₂, -, hpure⟩)
      · exact ⟨hb, hget⟩
      · cases hpure
    · rintro ⟨-, hget⟩
      exact .inl hget

/-- Sharing a hash requests it only when none is given, and moves nothing else that is counted. -/
theorem SharedHash.counts (hc : env.Counts hashes fetches) {b : Blockhash}
    (h : SharedHash env params s b s₁) :
    hashes s₁ = hashes s + (if params.blockhash = none then 1 else 0) ∧
      fetches s₁ = fetches s ∧ env.cachedTable s₁ = env.cachedTable s := by
  rcases h with ⟨hb, rfl⟩ | ⟨hb, hget⟩
  · simp [hb]
  · obtain ⟨h1, h2, h3⟩ := hc.getLatestBlockhash hget
    simp [hb, h1, h2, h3]

variable (sets : List (List Instruction))

theorem run_buildBulk_eq_ok_iff {rs : List BuildResult} :
    (buildBulk env sets params).run.run s = (.ok rs, s') ↔
      ∃ b s₁, SharedHash env params s b s₁ ∧
        RunsEach (fun ixs => build env ixs { params with blockhash := some b }) sets s₁ rs s' := by
  unfold buildBulk
  rw [run_bind_eq_ok_iff]
  constructor
  · rintro ⟨p, s₁, hp, hrest⟩
    obtain ⟨b, hsh, rfl⟩ := run_withSharedBlockhash_eq_ok.mp hp
    exact ⟨b, s₁, hsh, run_mapM_eq_ok_iff.mp hrest⟩
  · rintro ⟨b, s₁, hsh, hruns⟩
    exact ⟨_, s₁, run_withSharedBlockhash_eq_ok.mpr ⟨b, hsh, rfl⟩, run_mapM_eq_ok_iff.mpr hruns⟩

theorem run_buildBulk_eq_error_iff {e : Failure} :
    (buildBulk env sets params).run.run s = (.error e, s') ↔
      params.blockhash = none ∧ env.ledger.getLatestBlockhash.run.run s = (.error e, s') ∨
        ∃ b s₁, SharedHash env params s b s₁ ∧
          FailsFirst (fun ixs => build env ixs { params with blockhash := some b }) sets s₁ e s' := by
  unfold buildBulk
  rw [run_bind_eq_error_iff, run_withSharedBlockhash_eq_error]
  constructor
  · rintro (hget | ⟨p, s₁, hp, hrest⟩)
    · exact .inl hget
    · obtain ⟨b, hsh, rfl⟩ := run_withSharedBlockhash_eq_ok.mp hp
      exact .inr ⟨b, s₁, hsh, run_mapM_eq_error_iff.mp hrest⟩
  · rintro (hget | ⟨b, s₁, hsh, hfails⟩)
    · exact .inl hget
    · exact .inr ⟨_, s₁, run_withSharedBlockhash_eq_ok.mpr ⟨b, hsh, rfl⟩,
        run_mapM_eq_error_iff.mpr hfails⟩

/-- What the sharing of the hash leaves and every build on the shared hash keeps, a bulk build
keeps; a failed request for the hash leaves its own post. -/
theorem triple_buildBulk {P R : σ → Prop} {s₀ : σ}
    (hshared : ∀ b s₁, SharedHash env params s₀ b s₁ → P s₁)
    (hfail : ∀ e s₁, params.blockhash = none →
      env.ledger.getLatestBlockhash.run.run s₀ = (.error e, s₁) → R s₁)
    (hbuild : ∀ b, ∀ ixs, Triple P (build env ixs { params with blockhash := some b }) (fun _ => P) R) :
    Triple (fun s => s = s₀) (buildBulk env sets params) (fun _ => P) R := by
  refine ⟨fun hs hrun => ?_, fun hs hrun => ?_⟩
  · subst hs
    obtain ⟨b, s₁, hsh, hruns⟩ := (run_buildBulk_eq_ok_iff sets).mp hrun
    exact hruns.post (hbuild b) (hshared b s₁ hsh)
  · subst hs
    rcases (run_buildBulk_eq_error_iff sets).mp hrun with ⟨hnone, hget⟩ | ⟨b, s₁, hsh, hfails⟩
    · exact hfail _ _ hnone hget
    · exact hfails.post (hbuild b) (hshared b s₁ hsh)

end Group

/-- What a bulk build of `sets` run from `s` does. It ends well exactly when it shares a hash and
every build on that hash ends well in turn, with their results in order, and it fails exactly
when the request for the hash fails or a build on it fails first; every ready transaction
carries the shared hash. It requests a hash once, and none when one is given; it requests the
market table at most once, none where a table is kept, and keeps the table it requested. -/
structure BulkRun (env : BuilderEnv σ) (hashes fetches : σ → Nat) (sets : List (List Instruction))
    (params : BuildParams) (s : σ) : Prop where
  ok_iff : ∀ {rs s'}, (buildBulk env sets params).run.run s = (.ok rs, s') ↔
    ∃ b s₁, SharedHash env params s b s₁ ∧
      RunsEach (fun ixs => build env ixs { params with blockhash := some b }) sets s₁ rs s'
  error_iff : ∀ {e s'}, (buildBulk env sets params).run.run s = (.error e, s') ↔
    params.blockhash = none ∧ env.ledger.getLatestBlockhash.run.run s = (.error e, s') ∨
      ∃ b s₁, SharedHash env params s b s₁ ∧
        FailsFirst (fun ixs => build env ixs { params with blockhash := some b }) sets s₁ e s'
  ready_shared : ∀ {rs s'}, (buildBulk env sets params).run.run s = (.ok rs, s') →
    ∃ b s₁, SharedHash env params s b s₁ ∧
      ∀ tx, BuildResult.ready tx ∈ rs → tx.message.body.recentBlockhash = b
  hash_requests : ∀ {r s'}, (buildBulk env sets params).run.run s = (r, s') →
    hashes s' = hashes s + if params.blockhash = none then 1 else 0
  table_requests_le : ∀ {r s'}, (buildBulk env sets params).run.run s = (r, s') →
    fetches s' ≤ fetches s + 1
  table_requests_of_kept : ∀ {r s'}, (buildBulk env sets params).run.run s = (r, s') →
    env.cachedTable s ≠ none → fetches s' = fetches s ∧ env.cachedTable s' = env.cachedTable s
  kept_of_table_request : ∀ {rs s'}, (buildBulk env sets params).run.run s = (.ok rs, s') →
    fetches s' ≠ fetches s → env.cachedTable s' ≠ none

theorem bulkRun {hashes fetches : σ → Nat} (hc : env.Counts hashes fetches)
    (sets : List (List Instruction)) (params : BuildParams) (s : σ) :
    BulkRun env hashes fetches sets params s := by
  have hhashes : Triple (fun s' => s' = s) (buildBulk env sets params)
      (fun _ s' => hashes s' = hashes s + if params.blockhash = none then 1 else 0)
      (fun s' => hashes s' = hashes s + if params.blockhash = none then 1 else 0) :=
    triple_buildBulk sets (fun _ _ hsh => (hsh.counts hc).1)
      (fun _ _ hnone hget => by rw [(hc.getLatestBlockhash hget).1, hnone]; rfl)
      fun _ ixs => triple_of_keeps_eq (keeps_build_hashes hc rfl ixs) _
  have htable : Triple (fun s' => s' = s) (buildBulk env sets params)
      (fun _ => env.FetchedOnce fetches (fetches s) (env.cachedTable s))
      (env.FetchTried fetches (fetches s) (env.cachedTable s)) :=
    triple_buildBulk sets
      (fun _ _ hsh => by
        obtain ⟨-, h2, h3⟩ := hsh.counts hc
        exact .inl ⟨h2, h3⟩)
      (fun _ _ _ hget => by
        obtain ⟨-, h2, h3⟩ := hc.getLatestBlockhash hget
        exact .inl ⟨h2, h3⟩)
      fun _ ixs => triple_build_table _ _ hc ixs _
  have htried := htable.mono (fun _ h => h) (fun _ _ h => BuilderEnv.FetchedOnce.tried h) fun _ h => h
  refine ⟨run_buildBulk_eq_ok_iff sets, run_buildBulk_eq_error_iff sets, fun hrun => ?_,
    fun hrun => hhashes.post rfl hrun, fun hrun => (htried.post rfl hrun).le,
    fun hrun hkept => (htried.post rfl hrun).of_kept hkept,
    fun hrun hn => (htable.ok rfl hrun).kept_of_ne hn⟩
  obtain ⟨b, s₁, hsh, hruns⟩ := (run_buildBulk_eq_ok_iff sets).mp hrun
  have hready : ∀ ixs s r s', (build env ixs { params with blockhash := some b }).run.run s =
      (.ok r, s') → ∀ tx, r = .ready tx → tx.message.body.recentBlockhash = b := by
    rintro ixs _ _ _ h tx rfl
    exact recentBlockhash_build rfl h
  exact ⟨b, s₁, hsh, fun tx hmem => hruns.forall_mem hready _ hmem tx rfl⟩

/-- **A named build is a bulk build** of the sets in ascending name order, each result paired
with its name. -/
theorem buildMap_eq_buildBulk (named : List (String × List Instruction)) (params : BuildParams) :
    buildMap env named params =
      (fun rs => ((Ordered.ofList compare named).map Prod.fst).zip rs) <$>
        buildBulk env ((Ordered.ofList compare named).map Prod.snd) params := by
  unfold buildMap buildBulk
  rw [map_bind]
  congr 1
  funext p
  exact mapM_named (fun ixs => build env ixs p) _

/-- From where the market table is kept, a build requests no table and keeps the same one. -/
theorem build_of_kept {hashes fetches : σ → Nat} (hc : env.Counts hashes fetches)
    {instructions : List Instruction} {params : BuildParams} {s s' : σ} {r : Except Failure BuildResult}
    (hkept : env.cachedTable s ≠ none) (hrun : (build env instructions params).run.run s = (r, s')) :
    fetches s' = fetches s ∧ env.cachedTable s' = env.cachedTable s := by
  have htried := (triple_build_table (fetches s) (env.cachedTable s) hc instructions params).mono
    (fun _ h => h) (fun _ _ h => BuilderEnv.FetchedOnce.tried h) fun _ h => h
  exact (htried.post BuilderEnv.fetchedOnce_start hrun).of_kept hkept

/-- **Builds of a group share one block hash.** A bulk build requests the latest hash once, and
none when a hash is given; it ends exactly as the builds of its sets in turn on that hash, the
first failure ending it, and every transaction it makes ready carries that hash (`BulkRun`). A
named build is the bulk build of its sets in ascending name order, each result under its name.
Once the market table is kept, no build requests it again. -/
theorem buildGroup_contract (env : BuilderEnv σ) (hashes fetches : σ → Nat)
    (hc : env.Counts hashes fetches) (params : BuildParams) :
    (∀ sets s, BulkRun env hashes fetches sets params s) ∧
      (∀ named, buildMap env named params =
        (fun rs => ((Ordered.ofList compare named).map Prod.fst).zip rs) <$>
          buildBulk env ((Ordered.ofList compare named).map Prod.snd) params) ∧
      (∀ instructions s r s', env.cachedTable s ≠ none →
        (build env instructions params).run.run s = (r, s') →
        fetches s' = fetches s ∧ env.cachedTable s' = env.cachedTable s) :=
  ⟨fun sets s => bulkRun hc sets params s, fun named => buildMap_eq_buildBulk named params,
    fun _ _ _ _ hkept hrun => build_of_kept hc hkept hrun⟩

end Builder

/-! ## 10. The scripted ledger counts its requests -/

namespace Scripted

variable {σ : Type}

theorem snd_run_onLedger {α : Type} (view : σ → ScriptedLedger) (update : ScriptedLedger → σ → σ)
    (g : ScriptedLedger → ScriptedLedger × Outcome α) (s : σ) :
    ((onLedger view update g).run.run s).2 = update (g (view s)).1 s := by
  unfold onLedger
  rw [run_get_bind]
  obtain ⟨l, r⟩ := g (view s)
  cases r <;> rfl

theorem calls_getLatestBlockhash (l : ScriptedLedger) :
    (getLatestBlockhash l).1.blockhashCalls = l.blockhashCalls + 1 ∧
      (getLatestBlockhash l).1.lookupTableCalls = l.lookupTableCalls := by
  unfold getLatestBlockhash
  dsimp only
  split <;> exact ⟨rfl, rfl⟩

theorem calls_getAddressLookupTable (k : Pubkey) (l : ScriptedLedger) :
    (getAddressLookupTable k l).1.blockhashCalls = l.blockhashCalls ∧
      (getAddressLookupTable k l).1.lookupTableCalls = l.lookupTableCalls + 1 := by
  unfold getAddressLookupTable
  dsimp only
  split
  · exact ⟨rfl, rfl⟩
  · split <;> exact ⟨rfl, rfl⟩

theorem calls_simulate (tx : Transaction) (l : ScriptedLedger) :
    (simulate tx l).1.blockhashCalls = l.blockhashCalls ∧
      (simulate tx l).1.lookupTableCalls = l.lookupTableCalls := by
  unfold simulate
  dsimp only
  split <;> exact ⟨rfl, rfl⟩

end Scripted

namespace Api

/-- The build request's surroundings count the block hash and lookup table requests its ledger
answers. -/
theorem counts_buildEnv (marketTable : Pubkey) :
    (buildEnv marketTable).Counts (·.ledger.blockhashCalls) (·.ledger.lookupTableCalls) := by
  refine ⟨fun {s r s'} hrun => ?_, fun {k s r s'} hrun => ?_, fun {tx s r s'} hrun => ?_,
    fun _ _ => ⟨rfl, rfl, rfl⟩⟩
  -- each request runs on the ledger and puts the ledger it leaves back in place
  all_goals
    dsimp only [buildEnv, Scripted.ledger] at hrun
    have hs' := congrArg Prod.snd hrun
    rw [Scripted.snd_run_onLedger] at hs'
    subst hs'
  · obtain ⟨h1, h2⟩ := Scripted.calls_getLatestBlockhash s.ledger
    exact ⟨h1, h2, rfl⟩
  · obtain ⟨h1, h2⟩ := Scripted.calls_getAddressLookupTable k s.ledger
    exact ⟨h1, h2, rfl⟩
  · obtain ⟨h1, h2⟩ := Scripted.calls_simulate tx s.ledger
    exact ⟨h1, h2, rfl⟩

/-- The group contract for the build request's surroundings, with the default params. -/
theorem buildGroup_contract_scripted :
    (buildEnv Program.mainnetLookupTable).Counts (·.ledger.blockhashCalls)
        (·.ledger.lookupTableCalls) ∧
      (∀ sets s, Builder.BulkRun (buildEnv Program.mainnetLookupTable) (·.ledger.blockhashCalls)
        (·.ledger.lookupTableCalls) sets defaultBuildParams s) ∧
      (∀ named, Builder.buildMap (buildEnv Program.mainnetLookupTable) named defaultBuildParams =
        (fun rs => ((Ordered.ofList compare named).map Prod.fst).zip rs) <$>
          Builder.buildBulk (buildEnv Program.mainnetLookupTable)
            ((Ordered.ofList compare named).map Prod.snd) defaultBuildParams) ∧
      (∀ instructions s r s', (buildEnv Program.mainnetLookupTable).cachedTable s ≠ none →
        (Builder.build (buildEnv Program.mainnetLookupTable) instructions defaultBuildParams).run.run s =
          (r, s') →
        s'.ledger.lookupTableCalls = s.ledger.lookupTableCalls ∧
          (buildEnv Program.mainnetLookupTable).cachedTable s' =
            (buildEnv Program.mainnetLookupTable).cachedTable s) :=
  ⟨counts_buildEnv _, Builder.buildGroup_contract _ _ _ (counts_buildEnv _) defaultBuildParams⟩

end Api

end PerpClient
