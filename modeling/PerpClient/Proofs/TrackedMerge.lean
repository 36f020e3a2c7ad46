import PerpClient.Proofs.OracleDiscovery
import PerpClient.Proofs.LastActiveTable
/-!
# Merging tracked accounts

Extending a subscription merges a second set of tracked accounts into the first
(`TrackedAccounts.merge`). What is tracked stays as it is; only what is new is added and
reported: a market by its index, an oracle or a user by its address, never the no-oracle
address. The caller loads and watches exactly the reported additions, so they have to be the
real difference between the two sets.

Markets and oracles are ordered maps, and both are merged the same way: a pair of the other map
is added at its place when its key is neither skipped nor present (`Ordered.mergeAbsent`).

* `Ordered.perm_mergeAbsent`: the merged map is the old one with the added pairs;
* `Ordered.mem_keys_mergeAbsent`: its keys are the old ones and every key of the other map that
  is not skipped;
* `Ordered.find?_mergeAbsent`: a key already present keeps its value;
* `Ordered.mergeAbsent_again`: merging the same map once more adds nothing.

Users are a list kept free of repeats (`TrackedAccounts.users_mergeUsers`).
`TrackedAccounts.merge_laws` puts the five parts together (`TrackedAccounts.MergeLaws`).
-/

namespace PerpClient

/-! ## 1. Merging an ordered map -/

namespace Ordered

variable {κ α : Type} {cmp : κ → κ → Ordering}

/-- Inserting a key that no key of the map compares equal to adds its pair and replaces none. -/
theorem insert_perm_of_absent {k : κ} (v : α) {m : List (κ × α)}
    (hk : ∀ p ∈ m, cmp k p.1 ≠ .eq) : (insert cmp k v m).Perm ((k, v) :: m) := by
  induction m with
  | nil => exact .refl _
  | cons p rest ih =>
    obtain ⟨k', v'⟩ := p
    simp only [insert]
    split
    · exact .refl _
    · rename_i heq
      exact absurd heq (hk _ List.mem_cons_self)
    · exact ((ih fun p hp => hk p (List.mem_cons_of_mem _ hp)).cons _).trans (.swap _ _ _)

/-- Inserting one key leaves the value of every other key, where only equal keys compare
equal. -/
theorem find?_insert_of_ne (hcmp : ∀ a b, cmp a b = .eq ↔ a = b) {j k : κ} (h : j ≠ k) (v : α)
    (m : List (κ × α)) : find? cmp j (insert cmp k v m) = find? cmp j m := by
  induction m with
  | nil => simp [insert, find?, hcmp, h]
  | cons p rest ih =>
    obtain ⟨k', v'⟩ := p
    simp only [insert]
    split
    · simp [find?, hcmp, h]
    · rename_i heq
      obtain rfl := (hcmp k k').mp heq
      simp [find?, hcmp, h]
    · simp [find?, ih]

/-- One pair of a merge: added at its place unless its key is skipped or already present. -/
def mergeStep (cmp : κ → κ → Ordering) (skip : κ → Prop) [DecidablePred skip]
    (acc : List (κ × α) × List (κ × α)) (p : κ × α) : List (κ × α) × List (κ × α) :=
  if skip p.1 ∨ contains cmp p.1 acc.1 = true then acc
  else (insert cmp p.1 p.2 acc.1, acc.2 ++ [p])

/-- Merges the pairs of `other` into `mine`, each added unless its key is skipped or already
present; answers the merged map and the pairs added, in order. -/
def mergeAbsent (cmp : κ → κ → Ordering) (skip : κ → Prop) [DecidablePred skip]
    (mine other : List (κ × α)) : List (κ × α) × List (κ × α) :=
  other.foldl (mergeStep cmp skip) (mine, [])

section Merge

variable (skip : κ → Prop) [DecidablePred skip]

/-- **The merged map is the old one with the added pairs**: no pair is lost or replaced. -/
theorem perm_mergeAbsent (mine other : List (κ × α)) :
    (mergeAbsent cmp skip mine other).1.Perm (mine ++ (mergeAbsent cmp skip mine other).2) := by
  -- the fold from any accumulator whose map is `mine` with the pairs added so far
  suffices h : ∀ acc : List (κ × α) × List (κ × α), acc.1.Perm (mine ++ acc.2) →
      (other.foldl (mergeStep cmp skip) acc).1.Perm
        (mine ++ (other.foldl (mergeStep cmp skip) acc).2) from h _ (by simp)
  induction other with
  | nil => exact fun _ h => h
  | cons p rest ih =>
    intro acc hacc
    rw [List.foldl_cons]
    apply ih
    unfold mergeStep
    split
    · exact hacc
    · rename_i hnew
      have habs : ∀ q ∈ acc.1, cmp p.1 q.1 ≠ .eq := fun q hq heq =>
        hnew (.inr ((contains_iff cmp p.1 acc.1).mpr ⟨q, hq, heq⟩))
      calc (insert cmp p.1 p.2 acc.1).Perm (p :: acc.1) := insert_perm_of_absent p.2 habs
        List.Perm _ (p :: (mine ++ acc.2)) := hacc.cons p
        List.Perm _ (mine ++ (acc.2 ++ [p])) := by
          rw [← List.append_assoc]
          exact (List.perm_append_singleton _ _).symm

/-- A merge that meets only skipped or present keys changes nothing and adds nothing. -/
theorem mergeAbsent_of_forall (m other : List (κ × α))
    (h : ∀ p ∈ other, skip p.1 ∨ contains cmp p.1 m = true) :
    mergeAbsent cmp skip m other = (m, []) := by
  induction other with
  | nil => rfl
  | cons p rest ih =>
    unfold mergeAbsent at ih ⊢
    rw [List.foldl_cons, mergeStep, if_pos (h p List.mem_cons_self)]
    exact ih fun q hq => h q (List.mem_cons_of_mem _ hq)

variable (hcmp : ∀ a b, cmp a b = .eq ↔ a = b)
include hcmp

/-- **The keys of a merged map**: the old ones and every key of the other map not skipped. -/
theorem mem_keys_mergeAbsent (k : κ) (mine other : List (κ × α)) :
    k ∈ (mergeAbsent cmp skip mine other).1.map (·.1) ↔
      k ∈ mine.map (·.1) ∨ (k ∈ other.map (·.1) ∧ ¬skip k) := by
  unfold mergeAbsent
  -- the fold from any accumulator, read one pair at a time
  suffices h : ∀ acc : List (κ × α) × List (κ × α),
      k ∈ (other.foldl (mergeStep cmp skip) acc).1.map (·.1) ↔
        k ∈ acc.1.map (·.1) ∨ (k ∈ other.map (·.1) ∧ ¬skip k) from h _
  induction other with
  | nil => simp
  | cons p rest ih =>
    intro acc
    rw [List.foldl_cons, ih]
    simp only [List.map_cons, List.mem_cons, mergeStep]
    split
    · rename_i hkeep
      have hp : ¬skip p.1 → p.1 ∈ acc.1.map (·.1) := fun hs =>
        (contains_iff_mem_keys hcmp _ _).mp (hkeep.resolve_left hs)
      grind
    · rename_i hadd
      have hs : ¬skip p.1 := fun hs => hadd (.inl hs)
      rw [mem_keys_insert hcmp]
      grind

/-- **A key already present keeps its value** through a merge. -/
theorem find?_mergeAbsent {k : κ} {v : α} {mine : List (κ × α)} (hk : find? cmp k mine = some v)
    (other : List (κ × α)) : find? cmp k (mergeAbsent cmp skip mine other).1 = some v := by
  unfold mergeAbsent
  suffices h : ∀ acc : List (κ × α) × List (κ × α), find? cmp k acc.1 = some v →
      find? cmp k (other.foldl (mergeStep cmp skip) acc).1 = some v from h _ hk
  induction other with
  | nil => exact fun _ h => h
  | cons p rest ih =>
    intro acc hacc
    rw [List.foldl_cons]
    apply ih
    unfold mergeStep
    split
    · exact hacc
    · rename_i hnew
      have hne : k ≠ p.1 := by
        rintro rfl
        exact hnew (.inr (by simp [contains, hacc]))
      rw [find?_insert_of_ne hcmp hne]
      exact hacc

/-- **Merging the same map once more adds nothing** and leaves the merged map as it is. -/
theorem mergeAbsent_again (mine other : List (κ × α)) :
    mergeAbsent cmp skip (mergeAbsent cmp skip mine other).1 other =
      ((mergeAbsent cmp skip mine other).1, []) := by
  refine mergeAbsent_of_forall skip _ other fun p hp => ?_
  by_cases hs : skip p.1
  · exact .inl hs
  · have hmem : p.1 ∈ other.map (·.1) := List.mem_map_of_mem hp
    refine .inr ((contains_iff_mem_keys hcmp _ _).mpr ?_)
    exact (mem_keys_mergeAbsent skip hcmp p.1 mine other).mpr (.inr ⟨hmem, hs⟩)

end Merge

end Ordered

/-! ## 2. Users -/

theorem mem_appendNew {α : Type} [DecidableEq α] {x : α} (xs ys : List α) :
    x ∈ appendNew xs ys ↔ x ∈ xs ∨ x ∈ ys := by
  induction ys generalizing xs with
  | nil => simp [appendNew]
  | cons y ys ih =>
    rw [appendNew_cons, ih]
    split
    · grind
    · simp only [List.mem_append, List.mem_cons]
      grind

namespace TrackedAccounts

/-- Merging users appends each user of the other list not listed yet. -/
theorem fst_mergeUsers (mine other : List Pubkey) :
    (mergeUsers mine other).1 = appendNew mine other := by
  unfold mergeUsers appendNew
  refine (@List.foldl_hom _ _ _ Prod.fst _ _ other (mine, []) fun acc u => ?_).symm
  by_cases h : u ∈ acc.1 <;> simp [h]

/-- **Users stay distinct**: merging appends only users not listed yet. -/
theorem users_mergeUsers {mine : List Pubkey} (h : mine.Nodup) (other : List Pubkey) :
    (mergeUsers mine other).1.Nodup := by
  rw [fst_mergeUsers]
  exact nodup_appendNew h other

/-- A merge of users already listed changes nothing and adds nothing. -/
theorem mergeUsers_of_forall (m other : List Pubkey) (h : ∀ u ∈ other, u ∈ m) :
    mergeUsers m other = (m, []) := by
  induction other with
  | nil => rfl
  | cons u rest ih =>
    unfold mergeUsers at ih ⊢
    simp only [List.foldl_cons, h u List.mem_cons_self, ↓reduceIte]
    exact ih fun v hv => h v (List.mem_cons_of_mem _ hv)

/-! ## 3. Markets and oracles are ordered maps merged alike -/

/-- Markets merge by index with nothing skipped; the additions are answered by address. -/
theorem mergeMarkets_eq (mine other : List (UInt16 × Pubkey)) :
    mergeMarkets mine other =
      ((Ordered.mergeAbsent compareIndex (fun _ => False) mine other).1,
        (Ordered.mergeAbsent compareIndex (fun _ => False) mine other).2.map (·.2)) := by
  unfold mergeMarkets Ordered.mergeAbsent
  refine @List.foldl_hom _ _ _
    (fun r : List (UInt16 × Pubkey) × List (UInt16 × Pubkey) => (r.1, r.2.map (·.2))) _ _ other
    (mine, []) fun acc p => ?_
  by_cases h : Ordered.contains compareIndex p.1 acc.1 = true <;> simp [Ordered.mergeStep, h]

/-- Oracles merge by address, the no-oracle address skipped. -/
theorem mergeOracles_eq (mine other : List (Pubkey × OracleSource)) :
    mergeOracles mine other =
      Ordered.mergeAbsent Pubkey.compareBytes (· = Program.noOracle) mine other := rfl

theorem mergeMarkets_again (mine other : List (UInt16 × Pubkey)) :
    mergeMarkets (mergeMarkets mine other).1 other = ((mergeMarkets mine other).1, []) := by
  simp only [mergeMarkets_eq]
  rw [Ordered.mergeAbsent_again _ (fun _ _ => compareIndex_eq_iff)]
  rfl

theorem mergeOracles_again (mine other : List (Pubkey × OracleSource)) :
    mergeOracles (mergeOracles mine other).1 other = ((mergeOracles mine other).1, []) := by
  simp only [mergeOracles_eq]
  exact Ordered.mergeAbsent_again _ Pubkey.compareBytes_eq_eq_iff mine other

theorem mergeUsers_again (mine other : List Pubkey) :
    mergeUsers (mergeUsers mine other).1 other = ((mergeUsers mine other).1, []) :=
  mergeUsers_of_forall _ other fun u hu => by
    rw [fst_mergeUsers, mem_appendNew]
    exact .inr hu

/-! ## 4. The merged set, part by part -/

section Parts

variable (t other : TrackedAccounts)

/-- The merged set: the state when there was none, and each map and the users merged. -/
theorem fst_merge : (t.merge other).1 =
    ⟨t.state.or other.state, (mergeMarkets t.perpMarkets other.perpMarkets).1,
      (mergeMarkets t.spotMarkets other.spotMarkets).1, (mergeOracles t.oracles other.oracles).1,
      (mergeUsers t.users other.users).1⟩ := by
  rcases t with ⟨_ | s, _, _, _, _⟩ <;> rcases other with ⟨_ | s', _, _, _, _⟩ <;> rfl

@[simp] theorem state_merge : (t.merge other).1.state = t.state.or other.state := by
  rw [fst_merge]

@[simp] theorem perpMarkets_merge :
    (t.merge other).1.perpMarkets = (mergeMarkets t.perpMarkets other.perpMarkets).1 := rfl

@[simp] theorem spotMarkets_merge :
    (t.merge other).1.spotMarkets = (mergeMarkets t.spotMarkets other.spotMarkets).1 := rfl

@[simp] theorem oracles_merge :
    (t.merge other).1.oracles = (mergeOracles t.oracles other.oracles).1 := rfl

@[simp] theorem users_merge : (t.merge other).1.users = (mergeUsers t.users other.users).1 := rfl

/-- The additions of a merge: the state when there was none, then the new perp markets, spot
markets, oracles and users. -/
theorem snd_merge : (t.merge other).2 =
    (if t.state.isNone then other.state.toList else []).map (·, AccountKind.state) ++
      (mergeMarkets t.perpMarkets other.perpMarkets).2.map (·, AccountKind.perpMarket) ++
      (mergeMarkets t.spotMarkets other.spotMarkets).2.map (·, AccountKind.spotMarket) ++
      (mergeOracles t.oracles other.oracles).2.map (fun (p, s) => (p, AccountKind.oracle s)) ++
      (mergeUsers t.users other.users).2.map (·, AccountKind.user) := by
  rcases t with ⟨_ | s, _, _, _, _⟩ <;> rcases other with ⟨_ | s', _, _, _, _⟩ <;> rfl

end Parts

/-- The targets of merged markets are the old ones and the added ones. -/
theorem perm_mergeMarkets (mine other : List (UInt16 × Pubkey)) (kind : AccountKind) :
    ((mergeMarkets mine other).1.map fun (_, p) => (p, kind)).Perm
      (mine.map (fun (_, p) => (p, kind)) ++ (mergeMarkets mine other).2.map (·, kind)) := by
  rw [mergeMarkets_eq, List.map_map]
  refine ((Ordered.perm_mergeAbsent _ mine other).map _).trans ?_
  rw [List.map_append]
  exact .refl _

/-- The targets of merged oracles are the old ones and the added ones. -/
theorem perm_mergeOracles (mine other : List (Pubkey × OracleSource)) :
    ((mergeOracles mine other).1.map fun (p, s) => (p, AccountKind.oracle s)).Perm
      (mine.map (fun (p, s) => (p, AccountKind.oracle s)) ++
        (mergeOracles mine other).2.map fun (p, s) => (p, AccountKind.oracle s)) := by
  rw [mergeOracles_eq, ← List.map_append]
  exact (Ordered.perm_mergeAbsent _ mine other).map _

/-- The target of a merged state: the old one, or the other set's when there was none. -/
theorem state_targets_or (a b : Option Pubkey) :
    ((a.or b).map fun s => (s, AccountKind.state)).toList =
      (a.map fun s => (s, AccountKind.state)).toList ++
        (if a.isNone then b.toList else []).map (·, AccountKind.state) := by
  cases a <;> cases b <;> rfl

/-- **The merged targets are the old ones and the reported additions**, so the additions are
exactly what the merge tracks anew. -/
theorem targets_merge_perm (t other : TrackedAccounts) :
    (t.merge other).1.targets.Perm (t.targets ++ (t.merge other).2) := by
  have hp := perm_mergeMarkets t.perpMarkets other.perpMarkets .perpMarket
  have hsp := perm_mergeMarkets t.spotMarkets other.spotMarkets .spotMarket
  have ho := perm_mergeOracles t.oracles other.oracles
  unfold targets
  rw [snd_merge, state_merge, perpMarkets_merge, spotMarkets_merge, oracles_merge, users_merge,
    state_targets_or, mergeUsers_fst, List.perm_iff_count]
  -- each of the five parts is the old one with its additions: count a target part by part
  intro x
  have := hp.count_eq x
  have := hsp.count_eq x
  have := ho.count_eq x
  simp only [List.map_append, List.count_append] at *
  omega

/-- **Merging the same set once more changes nothing and reports nothing.** -/
theorem merge_again (t other : TrackedAccounts) :
    (t.merge other).1.merge other = ((t.merge other).1, []) := by
  have hp := mergeMarkets_again t.perpMarkets other.perpMarkets
  have hsp := mergeMarkets_again t.spotMarkets other.spotMarkets
  have ho := mergeOracles_again t.oracles other.oracles
  have hu := mergeUsers_again t.users other.users
  have hs : (t.state.or other.state).or other.state = t.state.or other.state ∧
      (if (t.state.or other.state).isNone then other.state.toList else []) = [] := by
    cases t.state <;> cases other.state <;> simp
  refine Prod.ext ?_ ?_
  · rw [fst_merge, state_merge, perpMarkets_merge, spotMarkets_merge, oracles_merge, users_merge,
      hp, hsp, ho, hu, hs.1]
    exact (fst_merge t other).symm
  · rw [snd_merge, state_merge, perpMarkets_merge, spotMarkets_merge, oracles_merge, users_merge,
      hp, hsp, ho, hu, hs.2]
    rfl

/-! ## 5. The laws of a merge -/

/-- What merging `other` into `t` does to the tracked accounts and what it reports. -/
structure MergeLaws (t other : TrackedAccounts) : Prop where
  /-- The merged targets are the old ones and the reported additions. -/
  targets_perm : (t.merge other).1.targets.Perm (t.targets ++ (t.merge other).2)
  /-- A state already set keeps its address. -/
  state_kept : ∀ s, t.state = some s → (t.merge other).1.state = some s
  /-- A perp market index already tracked keeps its address. -/
  perp_kept : ∀ i p, Ordered.find? compareIndex i t.perpMarkets = some p →
    Ordered.find? compareIndex i (t.merge other).1.perpMarkets = some p
  /-- A spot market index already tracked keeps its address. -/
  spot_kept : ∀ i p, Ordered.find? compareIndex i t.spotMarkets = some p →
    Ordered.find? compareIndex i (t.merge other).1.spotMarkets = some p
  /-- An oracle already tracked keeps its feed model. -/
  oracle_kept : ∀ o s, Ordered.find? Pubkey.compareBytes o t.oracles = some s →
    Ordered.find? Pubkey.compareBytes o (t.merge other).1.oracles = some s
  /-- The users already tracked stay first, in their order. -/
  users_kept : t.users <+: (t.merge other).1.users
  /-- Without a state, the other set's state is taken. -/
  state_taken : t.state = none → (t.merge other).1.state = other.state
  /-- Every perp market index of the other set is tracked. -/
  perp_tracked : ∀ i ∈ other.perpMarkets.map (·.1), i ∈ (t.merge other).1.perpMarkets.map (·.1)
  /-- Every spot market index of the other set is tracked. -/
  spot_tracked : ∀ i ∈ other.spotMarkets.map (·.1), i ∈ (t.merge other).1.spotMarkets.map (·.1)
  /-- Every oracle of the other set but the no-oracle address is tracked. -/
  oracle_tracked : ∀ o ∈ other.oracles.map (·.1), o ≠ Program.noOracle →
    o ∈ (t.merge other).1.oracles.map (·.1)
  /-- Every user of the other set is tracked. -/
  user_tracked : ∀ u ∈ other.users, u ∈ (t.merge other).1.users
  /-- No user is tracked twice. -/
  users_nodup : (t.merge other).1.users.Nodup
  /-- Merging the same set again adds nothing and changes nothing. -/
  again : (t.merge other).1.merge other = ((t.merge other).1, [])

/-- **Merging tracked accounts** into a set whose users are distinct keeps everything tracked
as it was, tracks everything the other set tracks (the no-oracle address apart), keeps users
distinct, reports exactly its additions, and is idempotent. -/
theorem merge_laws (t other : TrackedAccounts) (hu : t.users.Nodup) : MergeLaws t other where
  targets_perm := targets_merge_perm t other
  state_kept s h := by simp [h]
  perp_kept i p h := by
    rw [perpMarkets_merge, mergeMarkets_eq]
    exact Ordered.find?_mergeAbsent _ (fun _ _ => compareIndex_eq_iff) h _
  spot_kept i p h := by
    rw [spotMarkets_merge, mergeMarkets_eq]
    exact Ordered.find?_mergeAbsent _ (fun _ _ => compareIndex_eq_iff) h _
  oracle_kept o s h := by
    rw [oracles_merge, mergeOracles_eq]
    exact Ordered.find?_mergeAbsent _ Pubkey.compareBytes_eq_eq_iff h _
  users_kept := by
    rw [users_merge, mergeUsers_fst]
    exact List.prefix_append _ _
  state_taken h := by simp [h]
  perp_tracked i hi := by
    rw [perpMarkets_merge, mergeMarkets_eq,
      Ordered.mem_keys_mergeAbsent _ (fun _ _ => compareIndex_eq_iff)]
    exact .inr ⟨hi, not_false⟩
  spot_tracked i hi := by
    rw [spotMarkets_merge, mergeMarkets_eq,
      Ordered.mem_keys_mergeAbsent _ (fun _ _ => compareIndex_eq_iff)]
    exact .inr ⟨hi, not_false⟩
  oracle_tracked o ho hreal := by
    rw [oracles_merge, mergeOracles_eq, Ordered.mem_keys_mergeAbsent _ Pubkey.compareBytes_eq_eq_iff]
    exact .inr ⟨ho, hreal⟩
  user_tracked u hu' := by
    rw [users_merge, fst_mergeUsers, mem_appendNew]
    exact .inr hu'
  users_nodup := users_mergeUsers hu _
  again := merge_again t other

/-- A merge that meets a tracked market, a new one, the no-oracle address and a user named twice. -/
theorem merge_laws_repeated_user :
    [Pubkey.ofBytes [9]].Nodup ∧
      MergeLaws ⟨none, [(0, Pubkey.ofBytes [1])], [], [], [Pubkey.ofBytes [9]]⟩
        ⟨some (Pubkey.ofBytes [5]), [(0, Pubkey.ofBytes [1]), (1, Pubkey.ofBytes [2])], [],
          [(Program.noOracle, .quoteAsset)],
          [Pubkey.ofBytes [9], Pubkey.ofBytes [8], Pubkey.ofBytes [8]]⟩ :=
  ⟨by simp, merge_laws _ _ (by simp)⟩

end TrackedAccounts

end PerpClient
