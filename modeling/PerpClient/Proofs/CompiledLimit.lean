import Mathlib.Data.List.Forall2
import PerpClient.Transaction.Builder
import PerpClient.Proofs.OracleDiscovery
import PerpClient.Proofs.AccountOrder
/-!
# The unit limit of a compiled message

The builder puts "set the unit limit" first among the instructions it compiles, and reading the
limit back takes the first limit request addressed to the compute budget program. So a built
transaction asks for its own limit, whatever its other instructions ask, as long as its first
compiled instruction still stands for the limit request and names the compute budget program by
its place among the static keys. The builder is written over its message compilers; what it
needs of them is two laws (`MessageCompiler.KeepsOrder`, `MessageCompiler.KeepsInvokedStatic`):

* order kept: the compiled instructions stand one for one, in order, for the given ones, each
  with its data (`Compile.OrderKept`);
* invoked keys static: every program the instructions invoke is a static key, named by its place
  there (`Compile.InvokedStatic`).

The Solana compilers keep both (`MessageCompiler.solana_keepsOrder`,
`MessageCompiler.solana_keepsInvokedStatic`): the compiled key set lists each key once, in byte
order, with every program invoked (`invoked_compileKeys`); an invoked key is never loaded from a
lookup table (`Invoked.extractLookup`); and the header and key list keep every key
(`mem_components`). The place fits a byte, since a transaction that fits a packet lists at most
38 keys of 32 bytes (`length_keys_le_wireSize`).

* `computeUnitLimit_compileWith`: under the two laws, a compiled transaction that fits a packet
  asks for the units of its first instruction, and holds as many instructions as it was given.
-/

namespace PerpClient

/-- A loop of steps that may fail keeps what each successful step keeps. -/
theorem foldlM_except_invariant {ε α β : Type} (P : β → Prop) {f : β → α → Except ε β} :
    ∀ (xs : List α) {b r : β}, (∀ b a b', a ∈ xs → P b → f b a = .ok b' → P b') → P b →
      xs.foldlM f b = .ok r → P r
  | [], _, _, _, hb, h => by
    cases h
    exact hb
  | a :: xs, b, r, hstep, hb, h => by
    rw [List.foldlM_cons] at h
    obtain ⟨b', hb', hr⟩ := Resolver.except_bind_eq_ok h
    exact foldlM_except_invariant P xs (fun c x c' hx => hstep c x c' (.tail a hx))
      (hstep b a b' (.head xs) hb hb') hr

namespace Compile

variable {k : Pubkey}

/-! ## 1. Positions -/

theorem getElem?_idxOf {keys : List Pubkey} (h : k ∈ keys) : keys[keys.idxOf k]? = some k := by
  rw [List.getElem?_eq_getElem (List.idxOf_lt_length_of_mem h), List.getElem_idxOf]

theorem getElem?_toUInt8_idxOf {keys : List Pubkey} (h : k ∈ keys) (hlt : keys.idxOf k < 256) :
    keys[(keys.idxOf k).toUInt8.toNat]? = some k := by
  rw [UInt8.toNat_ofNat_of_lt' hlt, getElem?_idxOf h]

/-- A listed key is found at its position, also with more keys behind the list. -/
theorem idxOf?_append_of_mem {keys : List Pubkey} (h : k ∈ keys) (more : List Pubkey) :
    (keys ++ more).idxOf? k = some (keys.idxOf k) := by
  induction keys with
  | nil => simp at h
  | cons a rest ih =>
    by_cases ha : a = k
    · subst ha
      simp [List.idxOf?_cons]
    · have hk : k ∈ rest := by simpa [Ne.symm ha] using h
      have hbeq : (a == k) = false := by simpa using ha
      simp [List.idxOf?_cons, List.idxOf_cons, hbeq, ih hk]

/-! ## 2. Invoked keys -/

/-- The key is listed, and every entry of it is invoked. -/
def Invoked (k : Pubkey) (m : KeyUses) : Prop :=
  k ∈ m.map (·.1) ∧ ∀ e ∈ m, e.1 = k → e.2.isInvoked = true

/-- An invoked key has an invoked use. -/
theorem Invoked.find? {m : KeyUses} (h : Invoked k m) :
    ∃ u, Ordered.find? Pubkey.compareBytes k m = some u ∧ u.isInvoked = true := by
  obtain ⟨hmem, hinv⟩ := h
  induction m with
  | nil => simp at hmem
  | cons e rest ih =>
    obtain ⟨k', u⟩ := e
    by_cases hk : k' = k
    · subst hk
      refine ⟨u, ?_, hinv _ (.head _) rfl⟩
      simp [Ordered.find?, (Pubkey.compareBytes_eq_eq_iff k' k').mpr rfl]
    · have hmem' : k ∈ rest.map (·.1) := by simpa [Ne.symm hk] using hmem
      have hne : Pubkey.compareBytes k k' ≠ .eq :=
        fun h => hk ((Pubkey.compareBytes_eq_eq_iff k k').mp h).symm
      simp only [Ordered.find?, hne, if_false]
      exact ih hmem' fun e he => hinv e (.tail _ he)

/-- Setting an entry keeps a key invoked, when the new use keeps an invoked old use invoked. -/
theorem Invoked.alter {m : KeyUses} (h : Invoked k m) (k' : Pubkey) {f : Option KeyUse → KeyUse}
    (hf : ∀ u, u.isInvoked = true → (f (some u)).isInvoked = true) :
    Invoked k (Ordered.alter Pubkey.compareBytes k' f m) := by
  refine ⟨(Ordered.mem_keys_insert Pubkey.compareBytes_eq_eq_iff _ _ _ _).mpr (.inr h.1), ?_⟩
  intro e he hk
  rcases Ordered.mem_insert _ _ _ _ he with rfl | he
  · obtain rfl : k' = k := hk
    obtain ⟨u, hu, hinv⟩ := h.find?
    simp only [hu]
    exact hf u hinv
  · exact h.2 e he hk

/-- Setting the entries of a list of accounts keeps a key invoked, when every new use keeps an
invoked old use invoked. -/
theorem Invoked.foldl_alter {g : AccountMeta → Option KeyUse → KeyUse}
    (hg : ∀ a u, u.isInvoked = true → (g a (some u)).isInvoked = true) :
    ∀ (accs : List AccountMeta) {m : KeyUses}, Invoked k m →
      Invoked k (accs.foldl (fun m a => Ordered.alter Pubkey.compareBytes a.pubkey (g a) m) m)
  | [], _, h => h
  | a :: accs, _, h => Invoked.foldl_alter hg accs (h.alter a.pubkey (hg a))

/-- Adding an instruction keeps every invoked key invoked: its program becomes invoked, and its
accounts keep what they were. -/
theorem Invoked.addInstruction {m : KeyUses} (h : Invoked k m) (ix : Instruction) :
    Invoked k (addInstruction m ix) :=
  Invoked.foldl_alter (fun _ _ hu => hu) ix.accounts (h.alter ix.programId fun _ _ => rfl)

theorem Invoked.foldl_addInstruction {m : KeyUses} (h : Invoked k m) :
    ∀ ixs : List Instruction, Invoked k (ixs.foldl Compile.addInstruction m)
  | [] => h
  | ix :: ixs => (h.addInstruction ix).foldl_addInstruction ixs

/-! ### The key set lists each key once, in byte order -/

/-- The keys of a key set strictly ascend in byte order. -/
abbrev KeysSorted (m : KeyUses) : Prop := Ordered.Sorted Pubkey.compareBytes m

theorem KeysSorted.alter {m : KeyUses} (h : KeysSorted m) (k : Pubkey)
    (f : Option KeyUse → KeyUse) : KeysSorted (Ordered.alter Pubkey.compareBytes k f m) :=
  h.insert Pubkey.compareBytes_eq_eq_iff Pubkey.compareBytes_swap Pubkey.compareBytes_trans k _

theorem KeysSorted.foldl_alter {g : AccountMeta → Option KeyUse → KeyUse} :
    ∀ (accs : List AccountMeta) {m : KeyUses}, KeysSorted m →
      KeysSorted (accs.foldl (fun m a => Ordered.alter Pubkey.compareBytes a.pubkey (g a) m) m)
  | [], _, h => h
  | a :: accs, _, h => KeysSorted.foldl_alter accs (h.alter a.pubkey (g a))

theorem KeysSorted.addInstruction {m : KeyUses} (h : KeysSorted m) (ix : Instruction) :
    KeysSorted (addInstruction m ix) :=
  KeysSorted.foldl_alter ix.accounts (h.alter ix.programId _)

/-- Setting a key to an invoked use makes it invoked: in a sorted key set the new entry is its
only one. -/
theorem invoked_alter_self {m : KeyUses} (h : KeysSorted m) (k : Pubkey)
    {f : Option KeyUse → KeyUse} (hf : ∀ o, (f o).isInvoked = true) :
    Invoked k (Ordered.alter Pubkey.compareBytes k f m) := by
  refine ⟨(Ordered.mem_keys_insert Pubkey.compareBytes_eq_eq_iff _ _ _ _).mpr (.inl rfl), ?_⟩
  intro e he hk
  rw [h.eq_of_mem_insert Pubkey.compareBytes_eq_eq_iff Pubkey.compareBytes_swap he hk]
  exact hf _

/-- An instruction's program is invoked once the instruction is added. -/
theorem invoked_addInstruction_self {m : KeyUses} (h : KeysSorted m) (ix : Instruction) :
    Invoked ix.programId (addInstruction m ix) :=
  Invoked.foldl_alter (fun _ _ hu => hu) ix.accounts (invoked_alter_self h ix.programId fun _ => rfl)

/-- Adding instructions to a sorted key set leaves the program of each of them invoked. -/
theorem invoked_foldl_addInstruction : ∀ (ixs : List Instruction) {m : KeyUses}, KeysSorted m →
    ∀ ix ∈ ixs, Invoked ix.programId (ixs.foldl Compile.addInstruction m)
  | [], _, _, _, hix => absurd hix List.not_mem_nil
  | i :: ixs, _, h, ix, hix => by
    rcases List.mem_cons.mp hix with rfl | hix
    · exact (invoked_addInstruction_self h ix).foldl_addInstruction ixs
    · exact invoked_foldl_addInstruction ixs (h.addInstruction i) ix hix

/-- The program of every instruction is invoked in the compiled key set. -/
theorem invoked_compileKeys {ix : Instruction} {ixs : List Instruction} (hix : ix ∈ ixs)
    (payer : Pubkey) : Invoked ix.programId (compileKeys ixs payer) :=
  (invoked_foldl_addInstruction ixs List.Pairwise.nil ix hix).alter payer fun _ hu => hu

/-! ## 3. Lookup tables leave invoked keys listed -/

/-- The keys a table takes all have entries that pass the test. -/
theorem drain_keys {m : KeyUses} {addresses : List Pubkey} {p : KeyUse → Bool}
    {r : List UInt8 × List Pubkey} (h : drain m addresses p = .ok r) :
    ∀ k ∈ r.2, ∃ e ∈ m, e.1 = k ∧ p e.2 = true := by
  unfold drain at h
  refine foldlM_except_invariant
    (fun acc : List UInt8 × List Pubkey => ∀ k ∈ acc.2, ∃ e ∈ m, e.1 = k ∧ p e.2 = true) m ?_
    (fun _ hk => absurd hk List.not_mem_nil) h
  intro acc e acc' he hacc hstep
  -- a step keeps the keys taken, or takes the key of an entry that passes
  split at hstep
  next hp =>
    split at hstep
    next =>
      split at hstep
      next =>
        cases hstep
        intro k hk
        rcases List.mem_append.mp hk with hk | hk
        · exact hacc k hk
        · obtain rfl := List.mem_singleton.mp hk
          exact ⟨e, he, rfl, hp⟩
      next => cases hstep
    next =>
      cases hstep
      exact hacc
  next =>
    cases hstep
    exact hacc

/-- Dropping keys other than an invoked one keeps it invoked. -/
theorem Invoked.filter_not_mem {m : KeyUses} (h : Invoked k m) {ks : List Pubkey}
    (hk : k ∉ ks) : Invoked k (m.filter fun e => e.1 ∉ ks) := by
  obtain ⟨hmem, hinv⟩ := h
  obtain ⟨e, he, rfl⟩ := List.mem_map.mp hmem
  refine ⟨List.mem_map.mpr ⟨e, List.mem_filter.mpr ⟨he, by simpa using hk⟩, rfl⟩, ?_⟩
  intro e' he' hk'
  exact hinv e' (List.mem_filter.mp he').1 hk'

/-- A table never takes an invoked key for a test that only uses not invoked pass. -/
theorem Invoked.not_mem_drain {m : KeyUses} (h : Invoked k m) {addresses : List Pubkey}
    {p : KeyUse → Bool} {r : List UInt8 × List Pubkey} (hd : drain m addresses p = .ok r)
    (hp : ∀ u : KeyUse, u.isInvoked = true → p u = false) : k ∉ r.2 := by
  intro hk
  obtain ⟨e, he, rfl, hpe⟩ := drain_keys hd k hk
  rw [hp e.2 (h.2 e he rfl)] at hpe
  cases hpe

/-- A lookup table never takes an invoked key. -/
theorem Invoked.extractLookup {m : KeyUses} (h : Invoked k m) {t : LookupTable}
    {r : KeyUses × Option (TableLookup × List Pubkey × List Pubkey)}
    (hx : extractLookup m t = .ok r) : Invoked k r.1 := by
  unfold Compile.extractLookup at hx
  obtain ⟨⟨wIdx, wKeys⟩, hw, hx⟩ := Resolver.except_bind_eq_ok hx
  obtain ⟨⟨rIdx, rKeys⟩, hr, hx⟩ := Resolver.except_bind_eq_ok hx
  have h₁ := h.filter_not_mem (h.not_mem_drain hw fun u hu => by simp [hu])
  have h₂ := h₁.filter_not_mem (h₁.not_mem_drain hr fun u hu => by simp [hu])
  dsimp only at hx
  split at hx <;> (cases hx; exact h₂)

/-- The listed keys hold every key of the key set. -/
theorem mem_components {payer : Pubkey} {m : KeyUses} {r : MessageHeader × List Pubkey}
    (h : components payer m = .ok r) (hk : k ∈ m.map (·.1)) : k ∈ r.2 := by
  unfold components at h
  obtain ⟨_, -, h⟩ := Resolver.except_bind_eq_ok h
  obtain ⟨_, -, h⟩ := Resolver.except_bind_eq_ok h
  obtain ⟨_, -, h⟩ := Resolver.except_bind_eq_ok h
  cases h
  by_cases hp : k = payer
  · subst hp
    exact List.mem_append_left _ (List.mem_append_left _ (List.mem_append_left _ List.mem_cons_self))
  · obtain ⟨e, he, rfl⟩ := List.mem_map.mp hk
    have hrest : e ∈ Ordered.erase Pubkey.compareBytes payer m :=
      List.mem_filter.mpr ⟨he, decide_eq_true fun h => hp ((Pubkey.compareBytes_eq_eq_iff _ _).mp h).symm⟩
    have hpick : ∀ q : KeyUse → Bool, q e.2 = true →
        e.1 ∈ ((Ordered.erase Pubkey.compareBytes payer m).filter fun e => q e.2).map (·.1) :=
      fun q hq => List.mem_map.mpr ⟨e, List.mem_filter.mpr ⟨hrest, hq⟩, rfl⟩
    -- every use other than the payer's falls in the group its two flags name
    cases hs : e.2.isSigner <;> cases hw : e.2.isWritable
    · exact List.mem_append_right _ (hpick (fun u => !u.isSigner && !u.isWritable) (by simp [hs, hw]))
    · exact List.mem_append_left _
        (List.mem_append_right _ (hpick (fun u => !u.isSigner && u.isWritable) (by simp [hs, hw])))
    · exact List.mem_append_left _ (List.mem_append_left _
        (List.mem_append_right _ (hpick (fun u => u.isSigner && !u.isWritable) (by simp [hs, hw]))))
    · exact List.mem_append_left _ (List.mem_append_left _ (List.mem_append_left _
        (List.mem_cons_of_mem _ (hpick (fun u => u.isSigner && u.isWritable) (by simp [hs, hw])))))

/-! ## 4. Compiled instructions -/

/-- The compiled instructions of `m` stand one for one, in order, for `ixs`, each with the data
of its instruction. -/
def OrderKept (ixs : List Instruction) (m : Message) : Prop :=
  List.Forall₂ (fun c ix => c.data = ix.data) m.instructions ixs

/-- The program of each of `ixs` is a static key of `m`, and its compiled instruction names it by
its place there. -/
def InvokedStatic (ixs : List Instruction) (m : Message) : Prop :=
  List.Forall₂ (fun c ix => ix.programId ∈ m.staticAccountKeys ∧
    c.programIdIndex = (m.staticAccountKeys.idxOf ix.programId).toUInt8) m.instructions ixs

theorem legacy_eq_ok {ixs : List Instruction} {payer : Pubkey} {blockhash : Blockhash}
    {m : Message} (h : legacy ixs payer blockhash = .ok m) :
    ∃ header keys, components payer (compileKeys ixs payer) = .ok (header, keys) ∧
      m = .legacy ⟨header, keys, blockhash, ixs.map (legacyInstruction keys)⟩ := by
  unfold legacy at h
  obtain ⟨⟨header, keys⟩, hc, h⟩ := Resolver.except_bind_eq_ok h
  cases h
  exact ⟨header, keys, hc, rfl⟩

/-- A legacy message keeps the instructions in order and names each program by its place among
the listed keys. -/
theorem legacy_kept {ixs : List Instruction} {payer : Pubkey} {blockhash : Blockhash}
    {m : Message} (h : legacy ixs payer blockhash = .ok m) :
    OrderKept ixs m ∧ InvokedStatic ixs m := by
  obtain ⟨header, keys, hc, rfl⟩ := legacy_eq_ok h
  refine ⟨?_, ?_⟩
  · show List.Forall₂ _ (ixs.map (legacyInstruction keys)) ixs
    exact List.forall₂_map_left_iff.mpr (List.forall₂_same.mpr fun _ _ => rfl)
  · show List.Forall₂ _ (ixs.map (legacyInstruction keys)) ixs
    exact List.forall₂_map_left_iff.mpr (List.forall₂_same.mpr fun ix hix =>
      ⟨mem_components hc (invoked_compileKeys hix payer).1, rfl⟩)

/-- A successful map over a list that starts with `x` starts with the image of `x`. -/
theorem mapM_cons_eq_ok {ε α β : Type} {f : α → Except ε β} {x : α} {xs : List α} {ys : List β}
    (h : (x :: xs).mapM f = .ok ys) :
    ∃ y ys', f x = .ok y ∧ xs.mapM f = .ok ys' ∧ ys = y :: ys' := by
  rw [List.mapM_cons] at h
  obtain ⟨y, hy, h⟩ := Resolver.except_bind_eq_ok h
  obtain ⟨ys', hys, h⟩ := Resolver.except_bind_eq_ok h
  cases h
  exact ⟨y, ys', hy, hys, rfl⟩

/-- A successful map relates each result to its argument as every step does. -/
theorem forall₂_of_mapM_eq_ok {ε α β : Type} {f : α → Except ε β} {R : β → α → Prop} :
    ∀ {xs : List α} {ys : List β}, (∀ x ∈ xs, ∀ y, f x = .ok y → R y x) →
      xs.mapM f = .ok ys → List.Forall₂ R ys xs
  | [], ys, _, h => by
    simp only [List.mapM_nil, pure, Except.pure, Except.ok.injEq] at h
    subst h
    exact .nil
  | x :: xs, _, hR, h => by
    obtain ⟨y, ys', hy, hys, rfl⟩ := mapM_cons_eq_ok h
    exact .cons (hR x List.mem_cons_self y hy)
      (forall₂_of_mapM_eq_ok (fun x' hx' => hR x' (List.mem_cons_of_mem _ hx')) hys)

theorem position_append_of_mem {keys : List Pubkey} (h : k ∈ keys) (more : List Pubkey) :
    position (keys ++ more) k = .ok (keys.idxOf k).toUInt8 := by
  rw [position, idxOf?_append_of_mem h]

/-- A compiled format-0 instruction names its program by the program's position and carries its
data. -/
theorem v0Instruction_eq_ok {all : List Pubkey} {ix : Instruction} {c : CompiledInstruction}
    (h : v0Instruction all ix = .ok c) :
    position all ix.programId = .ok c.programIdIndex ∧ c.data = ix.data := by
  unfold v0Instruction at h
  obtain ⟨i, hpos, h⟩ := Resolver.except_bind_eq_ok h
  obtain ⟨accs, -, h⟩ := Resolver.except_bind_eq_ok h
  cases h
  exact ⟨hpos, rfl⟩

/-- A format-0 message keeps the instructions in order and names each program by its place among
the listed keys: a program is invoked, so no table takes it. -/
theorem v0_kept {ixs : List Instruction} {payer : Pubkey} {tables : List LookupTable}
    {blockhash : Blockhash} {m : Message} (h : v0 ixs payer tables blockhash = .ok m) :
    OrderKept ixs m ∧ InvokedStatic ixs m := by
  unfold v0 at h
  obtain ⟨⟨m', lookups⟩, hloop, h⟩ := Resolver.except_bind_eq_ok h
  have hinv : ∀ ix ∈ ixs, Invoked ix.programId m' := fun ix hix => by
    refine foldlM_except_invariant (fun acc => Invoked ix.programId acc.1) tables ?_
      (invoked_compileKeys hix payer) hloop
    intro acc t acc' _ hacc hstep
    obtain ⟨⟨m'', found⟩, hx, hstep⟩ := Resolver.except_bind_eq_ok hstep
    cases hstep
    exact hacc.extractLookup hx
  obtain ⟨⟨header, keys⟩, hc, h⟩ := Resolver.except_bind_eq_ok h
  dsimp only at h
  split at h
  next =>
    obtain ⟨_, hthrow, -⟩ := Resolver.except_bind_eq_ok h
    cases hthrow
  next =>
    obtain ⟨compiled, hcomp, h⟩ := Resolver.except_bind_eq_ok h
    cases h
    refine ⟨forall₂_of_mapM_eq_ok (fun _ _ _ hc => (v0Instruction_eq_ok hc).2) hcomp,
      forall₂_of_mapM_eq_ok (fun ix hix c hc' => ?_) hcomp⟩
    have hmem : ix.programId ∈ keys := mem_components hc (hinv ix hix).1
    have hpos := (v0Instruction_eq_ok hc').1
    rw [List.append_assoc, position_append_of_mem hmem] at hpos
    exact ⟨hmem, (Except.ok.inj hpos).symm⟩

end Compile

/-! ### The laws a builder's compilers keep -/

namespace MessageCompiler

/-- **Order kept**: both compilers keep the instructions one for one, in order, with their
data. -/
def KeepsOrder (mc : MessageCompiler) : Prop :=
  (∀ ixs payer blockhash m, mc.legacy ixs payer blockhash = .ok m → Compile.OrderKept ixs m) ∧
    ∀ ixs payer tables blockhash m, mc.v0 ixs payer tables blockhash = .ok m →
      Compile.OrderKept ixs m

/-- **Invoked keys static**: both compilers keep every program the instructions invoke among
the static keys, and name it by its place there. -/
def KeepsInvokedStatic (mc : MessageCompiler) : Prop :=
  (∀ ixs payer blockhash m, mc.legacy ixs payer blockhash = .ok m →
      Compile.InvokedStatic ixs m) ∧
    ∀ ixs payer tables blockhash m, mc.v0 ixs payer tables blockhash = .ok m →
      Compile.InvokedStatic ixs m

theorem solana_keepsOrder : solana.KeepsOrder :=
  ⟨fun _ _ _ _ h => (Compile.legacy_kept h).1, fun _ _ _ _ _ h => (Compile.v0_kept h).1⟩

theorem solana_keepsInvokedStatic : solana.KeepsInvokedStatic :=
  ⟨fun _ _ _ _ h => (Compile.legacy_kept h).2, fun _ _ _ _ _ h => (Compile.v0_kept h).2⟩

end MessageCompiler

/-! ## 5. Keys on the wire -/

namespace Transaction

/-- The listed keys take 32 bytes each. -/
theorem length_flatMap_bytes (keys : List Pubkey) :
    (keys.flatMap Pubkey.bytes).length = 32 * keys.length := by
  induction keys with
  | nil => rfl
  | cons k rest ih =>
    rw [List.flatMap_cons, List.length_append, k.length_bytes, ih, List.length_cons]
    omega

/-- A transaction takes at least 32 bytes for each listed key. -/
theorem length_keys_le_wireSize (tx : Transaction) :
    32 * tx.message.staticAccountKeys.length ≤ tx.wireSize := by
  obtain ⟨sigs, m⟩ := tx
  have hbody : 32 * m.body.accountKeys.length ≤ m.body.encode.length := by
    simp only [MessageBody.encode, Wire.encodeList, List.length_append, length_flatMap_bytes]
    omega
  cases m with
  | legacy b =>
    simp only [wireSize, encode, Message.encode, Message.staticAccountKeys, Message.body,
      List.length_append] at hbody ⊢
    omega
  | v0 b lookups =>
    simp only [wireSize, encode, Message.encode, Message.staticAccountKeys, Message.body,
      List.length_append] at hbody ⊢
    omega

end Transaction

/-! ## 6. The limit a compiled transaction asks for -/

namespace Compile

/-- A compiled message leads with `ix`: its first instruction names the program of `ix` by its
place among the static keys, and carries the data of `ix`. -/
def LeadsWith (m : Message) (ix : Instruction) : Prop :=
  ∃ c rest, m.instructions = c :: rest ∧
    m.staticAccountKeys[c.programIdIndex.toNat]? = some ix.programId ∧ c.data = ix.data

/-- A message that keeps its instructions and their programs, with static keys that fit a byte,
leads with its first instruction. -/
theorem leadsWith_of_kept {ix : Instruction} {rest : List Instruction} {m : Message}
    (hord : OrderKept (ix :: rest) m) (hstatic : InvokedStatic (ix :: rest) m)
    (hlen : m.staticAccountKeys.length ≤ 256) : LeadsWith m ix := by
  obtain ⟨c, cs, hdata, -, hins⟩ := List.forall₂_cons_right_iff.mp hord
  obtain ⟨c', cs', ⟨hmem, hidx⟩, -, hins'⟩ := List.forall₂_cons_right_iff.mp hstatic
  obtain ⟨rfl, -⟩ := List.cons.inj (hins'.symm.trans hins)
  have hlt : m.staticAccountKeys.idxOf ix.programId < 256 :=
    Nat.lt_of_lt_of_le (List.idxOf_lt_length_of_mem hmem) hlen
  refine ⟨c', cs, hins, ?_, hdata⟩
  rw [hidx]
  exact getElem?_toUInt8_idxOf hmem hlt

end Compile

namespace ComputeBudget

theorem leValue_writeU32 (u : UInt32) : (leValue (Layout.writeU32 u)).toUInt32 = u := by
  have hlt : u.toNat < Nat.pow 256 4 := u.toNat_lt
  rw [Layout.writeU32, leValue_littleEndian, Nat.mod_eq_of_lt hlt]
  exact UInt32.ofNat_toNat

/-- A message that leads with a limit request asks for its units, whatever follows. -/
theorem computeUnitLimit_of_leadsWith {m : Message} {u : UInt32}
    (h : Compile.LeadsWith m (setComputeUnitLimit u)) : computeUnitLimit m = some u := by
  obtain ⟨c, rest, hins, hkey, hdata⟩ := h
  have hlimit : limitOf m.staticAccountKeys c = some u := by
    obtain ⟨b0, b1, b2, b3, hb⟩ : ∃ b0 b1 b2 b3, Layout.writeU32 u = [b0, b1, b2, b3] :=
      ⟨_, _, _, _, rfl⟩
    have hv := leValue_writeU32 u
    rw [hb] at hv
    unfold limitOf
    rw [hkey, hdata]
    simp [setComputeUnitLimit, hb, hv]
  rw [computeUnitLimit, hins, List.findSome?_cons, hlimit]

end ComputeBudget

namespace Builder

/-- The compute budget instructions are one or two: the limit, and the price when it is not
zero. -/
theorem length_withComputeBudget (ixs : List Instruction) (units : UInt32) (price : UInt64) :
    (withComputeBudget ixs units price).length = ixs.length + 1 + (if price > 0 then 1 else 0) := by
  unfold withComputeBudget
  split <;> simp

/-- What compilers that keep both laws compile, in either format: a message that keeps the
instructions and their programs. -/
theorem compileWith_eq_ok {mc : MessageCompiler} (hord : mc.KeepsOrder)
    (hstatic : mc.KeepsInvokedStatic) {ixs : List Instruction} {params : BuildParams}
    {tables : List LookupTable} {blockhash : Blockhash} {tx : Transaction}
    (h : compileWith mc ixs params tables blockhash = .ok tx) :
    ∃ m, tx = Transaction.unsigned m ∧ Compile.OrderKept ixs m ∧ Compile.InvokedStatic ixs m := by
  unfold compileWith at h
  split at h
  · split at h
    next m hm =>
      cases h
      exact ⟨m, rfl, hord.1 _ _ _ _ hm, hstatic.1 _ _ _ _ hm⟩
    next => cases h
  · split at h
    next m hm =>
      cases h
      exact ⟨m, rfl, hord.2 _ _ _ _ _ hm, hstatic.2 _ _ _ _ _ hm⟩
    next => cases h

/-- **The limit of a compiled transaction.** With compilers that keep the order of the
instructions and keep invoked keys static, a compiled transaction that fits a packet asks for the
limit it was built with, whatever the instructions behind it ask, and holds those instructions
behind one or two compute budget instructions. -/
theorem computeUnitLimit_compileWith {mc : MessageCompiler} (hord : mc.KeepsOrder)
    (hstatic : mc.KeepsInvokedStatic) {ixs : List Instruction} {units : UInt32} {price : UInt64}
    {params : BuildParams} {tables : List LookupTable} {blockhash : Blockhash} {tx : Transaction}
    (h : compileWith mc (withComputeBudget ixs units price) params tables blockhash = .ok tx)
    (hsize : tx.wireSize ≤ packetDataSize) :
    ComputeBudget.computeUnitLimit tx.message = some units ∧
      tx.message.instructions.length = ixs.length + 1 + (if price > 0 then 1 else 0) := by
  rw [← length_withComputeBudget ixs units price]
  obtain ⟨m, rfl, hkept, hprog⟩ := compileWith_eq_ok hord hstatic h
  -- a transaction that fits a packet lists at most 38 keys
  have hlen : m.staticAccountKeys.length ≤ 256 := by
    have hkeys : 32 * m.staticAccountKeys.length ≤ (Transaction.unsigned m).wireSize :=
      Transaction.length_keys_le_wireSize (Transaction.unsigned m)
    simp only [packetDataSize] at hsize
    omega
  have hlead : Compile.LeadsWith m (ComputeBudget.setComputeUnitLimit units) :=
    Compile.leadsWith_of_kept hkept hprog hlen
  exact ⟨ComputeBudget.computeUnitLimit_of_leadsWith hlead, hkept.length_eq⟩

end Builder

end PerpClient
