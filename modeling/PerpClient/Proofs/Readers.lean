import PerpClient.Account.Schema
/-!
# Readers that take exactly a layout's bytes

A record reader is a chain of field readers, each taking its field's bytes off the front. Two
facts about each field reader carry every record lemma:

* it *reads back what is written*: it answers `a` and leaves `rest` on exactly the bytes
  `write a ++ rest` (`readU16_eq_ok`, `readBool_eq_ok`, `readTag_eq_ok`, …);
* it *reads its field of the layout* (`Reads`): it succeeds exactly on bytes long enough for
  the field whose first byte the field admits, and it takes the field's width.

`Reads.bind` chains the second fact through a `do` block, so a record reader reads its record's
layout field by field, and `reads_readList` repeats a reader `n` times. The first fact chains
by `run_bind_eq_ok`.
-/

namespace PerpClient

/-! ## 1. Little-endian words -/

theorem leValue_lt (c : List UInt8) : leValue c < Nat.pow 256 c.length := by
  show leValue c < 256 ^ c.length
  induction c with
  | nil => simp [leValue]
  | cons b c ih =>
    simp only [leValue, List.foldr_cons, List.length_cons] at ih ⊢
    have hb : b.toNat < 256 := b.toNat_lt
    rw [Nat.pow_succ]
    omega

/-- Writing the number a byte string stands for, at its width, gives the bytes back. -/
theorem littleEndian_leValue (c : List UInt8) : littleEndian (leValue c) c.length = c := by
  induction c with
  | nil => rfl
  | cons b c ih =>
    simp only [leValue, List.foldr_cons, List.length_cons, littleEndian] at ih ⊢
    have hb : b.toNat < 256 := b.toNat_lt
    generalize List.foldr (fun b acc => b.toNat + 256 * acc) 0 c = v at ih ⊢
    have hlow : (b.toNat + 256 * v) % 256 = b.toNat := by omega
    have hhigh : (b.toNat + 256 * v) / 256 = v := by omega
    rw [hlow, hhigh, ih]
    simp

/-- The bytes of one width and the numbers below its range correspond one to one. -/
theorem FixedBytes.bytes_eq_littleEndian_iff {w : Nat} (b : FixedBytes w) {x : Nat}
    (hx : x < Nat.pow 256 w) : b.bytes = littleEndian x w ↔ leValue b.bytes = x := by
  obtain ⟨c, rfl⟩ := b
  constructor
  · intro h
    rw [h, leValue_littleEndian, Nat.mod_eq_of_lt hx]
  · intro h
    rw [← h, littleEndian_leValue]

theorem FixedBytes.leValue_lt {w : Nat} (b : FixedBytes w) : leValue b.bytes < Nat.pow 256 w := by
  obtain ⟨c, rfl⟩ := b
  exact PerpClient.leValue_lt c

/-! ## 2. Tag bytes -/

/-- In a list without repeats, a tag byte names a case exactly when it is that case's position. -/
theorem getElem?_eq_some_iff_tag {α : Type} (all : List α) (hnd : all.Nodup) (tag : α → UInt8)
    (htag : ∀ a, all[(tag a).toNat]? = some a) (b : UInt8) (a : α) :
    all[b.toNat]? = some a ↔ b = tag a := by
  constructor
  · intro h
    have hb : b.toNat < all.length := (List.getElem?_eq_some_iff.mp h).1
    exact UInt8.toNat_inj.mp ((List.getElem?_inj hb hnd).mp (h.trans (htag a).symm))
  · rintro rfl
    exact htag a

theorem OracleSource.ofTag?_eq_some_iff (b : UInt8) (s : OracleSource) :
    OracleSource.ofTag? b = some s ↔ b = s.tag :=
  getElem?_eq_some_iff_tag OracleSource.all (by decide) OracleSource.tag
    OracleSource.ofTag?_tag b s

theorem MarketStatus.ofTag?_eq_some_iff (b : UInt8) (s : MarketStatus) :
    MarketStatus.ofTag? b = some s ↔ b = s.tag :=
  getElem?_eq_some_iff_tag MarketStatus.all (by decide) MarketStatus.tag
    MarketStatus.ofTag?_tag b s

theorem SpotBalanceType.ofTag?_eq_some_iff (b : UInt8) (s : SpotBalanceType) :
    SpotBalanceType.ofTag? b = some s ↔ b = s.tag :=
  getElem?_eq_some_iff_tag SpotBalanceType.all (by decide) SpotBalanceType.tag
    SpotBalanceType.ofTag?_tag b s

theorem OracleSource.isSome_ofTag? (b : UInt8) : (OracleSource.ofTag? b).isSome ↔ b.toNat < 13 := by
  simp [OracleSource.ofTag?, OracleSource.all]

theorem MarketStatus.isSome_ofTag? (b : UInt8) : (MarketStatus.ofTag? b).isSome ↔ b.toNat < 9 := by
  simp [MarketStatus.ofTag?, MarketStatus.all]

theorem SpotBalanceType.isSome_ofTag? (b : UInt8) :
    (SpotBalanceType.ofTag? b).isSome ↔ b.toNat < 2 := by
  simp [SpotBalanceType.ofTag?, SpotBalanceType.all]

namespace Layout

variable {α β : Type}

/-! ## 3. Running a reader -/

theorem run_bind_eq_ok (x : Reader α) (f : α → Reader β) (bs : List UInt8) (b : β)
    (rest : List UInt8) :
    (x >>= f).run bs = .ok (b, rest) ↔
      ∃ a bs', x.run bs = .ok (a, bs') ∧ (f a).run bs' = .ok (b, rest) := by
  simp only [StateT.run_bind]
  cases h : x.run bs with
  | error e => simp [bind, Except.bind]
  | ok p =>
    obtain ⟨a, bs'⟩ := p
    simp only [bind, Except.bind, Except.ok.injEq, Prod.mk.injEq]
    constructor
    · intro hf
      exact ⟨a, bs', ⟨rfl, rfl⟩, hf⟩
    · rintro ⟨_, _, ⟨rfl, rfl⟩, hf⟩
      exact hf

theorem run_pure_eq_ok (a b : α) (bs rest : List UInt8) :
    (pure a : Reader α).run bs = .ok (b, rest) ↔ a = b ∧ bs = rest := by
  show Except.ok (a, bs) = Except.ok (b, rest) ↔ _
  simp

theorem run_throw_ne_ok (e : LayoutError) (bs : List UInt8) (a : α) (rest : List UInt8) :
    (throw e : Reader α).run bs ≠ .ok (a, rest) := by
  intro h
  cases h

theorem run_map_eq_ok (f : α → β) (x : Reader α) (bs : List UInt8) (b : β) (rest : List UInt8) :
    (f <$> x).run bs = .ok (b, rest) ↔ ∃ a, x.run bs = .ok (a, rest) ∧ f a = b := by
  simp only [StateT.run_map]
  cases x.run bs with
  | error e => simp [Functor.map, Except.map]
  | ok p =>
    obtain ⟨a, bs'⟩ := p
    simp only [Functor.map, Except.map, Except.ok.injEq, Prod.mk.injEq]
    constructor
    · rintro ⟨rfl, rfl⟩
      exact ⟨a, ⟨rfl, rfl⟩, rfl⟩
    · rintro ⟨_, ⟨rfl, rfl⟩, rfl⟩
      exact ⟨rfl, rfl⟩

/-! ## 4. Each field reads back what is written -/

theorem readBytes_eq_ok (n : Nat) (bs : List UInt8) (x : FixedBytes n) (rest : List UInt8) :
    (readBytes n).run bs = .ok (x, rest) ↔ bs = x.bytes ++ rest := by
  unfold readBytes
  simp only [StateT.run]
  split
  · obtain ⟨xb, hx⟩ := x
    simp only [Except.ok.injEq, Prod.mk.injEq, FixedBytes.mk.injEq]
    constructor
    · rintro ⟨rfl, rfl⟩
      simp
    · rintro rfl
      subst hx
      simp
  · rename_i h
    simp only [reduceCtorEq, false_iff]
    rintro rfl
    have hx := x.length_bytes
    simp only [List.length_append] at h
    omega

theorem readU8_eq_ok (bs : List UInt8) (x : UInt8) (rest : List UInt8) :
    readU8.run bs = .ok (x, rest) ↔ bs = x :: rest := by
  cases bs <;> simp [readU8, StateT.run]

/-- A word read from `w` little-endian bytes: the bytes are exactly those of the word, when
decoding and encoding are inverse below `256 ^ w`. -/
theorem readWord_eq_ok (w : Nat) (dec : Nat → α) (enc : α → Nat)
    (henc : ∀ x, enc x < Nat.pow 256 w)
    (hdec : ∀ n x, n < Nat.pow 256 w → (dec n = x ↔ n = enc x)) (bs rest : List UInt8) (x : α) :
    (readBytes w >>= fun b => pure (dec (leValue b.bytes))).run bs = .ok (x, rest) ↔
      bs = littleEndian (enc x) w ++ rest := by
  simp only [run_bind_eq_ok, readBytes_eq_ok, run_pure_eq_ok]
  constructor
  · rintro ⟨b, bs', rfl, hx, rfl⟩
    rw [(b.bytes_eq_littleEndian_iff (henc x)).mpr ((hdec _ x b.leValue_lt).mp hx)]
  · rintro rfl
    refine ⟨⟨littleEndian (enc x) w, length_littleEndian _ _⟩, rest, rfl, ?_, rfl⟩
    rw [leValue_littleEndian, Nat.mod_eq_of_lt (henc x)]
    exact (hdec _ x (henc x)).mpr rfl

theorem readU16_eq_ok (bs : List UInt8) (x : UInt16) (rest : List UInt8) :
    readU16.run bs = .ok (x, rest) ↔ bs = writeU16 x ++ rest :=
  readWord_eq_ok 2 _ UInt16.toNat (fun x => x.toNat_lt) (fun n x _ => by
    rw [← UInt16.toNat_inj]
    simp only [Nat.toUInt16_eq, UInt16.toNat_ofNat']
    have : Nat.pow 256 2 = 2 ^ 16 := rfl
    omega) bs rest x

theorem readU32_eq_ok (bs : List UInt8) (x : UInt32) (rest : List UInt8) :
    readU32.run bs = .ok (x, rest) ↔ bs = writeU32 x ++ rest :=
  readWord_eq_ok 4 _ UInt32.toNat (fun x => x.toNat_lt) (fun n x _ => by
    rw [← UInt32.toNat_inj]
    simp only [Nat.toUInt32_eq, UInt32.toNat_ofNat']
    have : Nat.pow 256 4 = 2 ^ 32 := rfl
    omega) bs rest x

theorem readU64_eq_ok (bs : List UInt8) (x : UInt64) (rest : List UInt8) :
    readU64.run bs = .ok (x, rest) ↔ bs = writeU64 x ++ rest :=
  readWord_eq_ok 8 _ UInt64.toNat (fun x => x.toNat_lt) (fun n x _ => by
    rw [← UInt64.toNat_inj]
    simp only [Nat.toUInt64_eq, UInt64.toNat_ofNat']
    have : Nat.pow 256 8 = 2 ^ 64 := rfl
    omega) bs rest x

theorem readI64_eq_ok (bs : List UInt8) (x : Int64) (rest : List UInt8) :
    readI64.run bs = .ok (x, rest) ↔ bs = writeI64 x ++ rest := by
  simp only [readI64, run_bind_eq_ok, readU64_eq_ok, run_pure_eq_ok, writeI64]
  constructor
  · rintro ⟨w, bs', rfl, rfl, rfl⟩
    simp
  · rintro rfl
    exact ⟨x.toUInt64, rest, rfl, by simp, rfl⟩

theorem readBool_eq_ok (bs : List UInt8) (x : Bool) (rest : List UInt8) :
    readBool.run bs = .ok (x, rest) ↔ bs = writeBool x ++ rest := by
  simp only [readBool, run_bind_eq_ok, readU8_eq_ok]
  constructor
  · rintro ⟨b, bs', rfl, h⟩
    by_cases h0 : b = 0
    · rw [if_pos h0, run_pure_eq_ok] at h
      obtain ⟨rfl, rfl⟩ := h
      simp [writeBool, h0]
    · by_cases h1 : b = 1
      · rw [if_neg h0, if_pos h1, run_pure_eq_ok] at h
        obtain ⟨rfl, rfl⟩ := h
        simp [writeBool, h1]
      · rw [if_neg h0, if_neg h1] at h
        exact absurd h (run_throw_ne_ok _ _ _ _)
  · rintro rfl
    refine ⟨if x then 1 else 0, rest, rfl, ?_⟩
    cases x
    · exact (run_pure_eq_ok _ _ _ _).mpr ⟨rfl, rfl⟩
    · exact (run_pure_eq_ok _ _ _ _).mpr ⟨rfl, rfl⟩

theorem readTag_eq_ok (ofTag? : UInt8 → Option α) (tag : α → UInt8)
    (htag : ∀ b a, ofTag? b = some a ↔ b = tag a) (bs : List UInt8) (x : α) (rest : List UInt8) :
    (readTag ofTag?).run bs = .ok (x, rest) ↔ bs = tag x :: rest := by
  simp only [readTag, run_bind_eq_ok, readU8_eq_ok]
  constructor
  · rintro ⟨b, bs', rfl, h⟩
    cases hb : ofTag? b with
    | none =>
      rw [hb] at h
      exact absurd h (run_throw_ne_ok _ _ _ _)
    | some a =>
      rw [hb, run_pure_eq_ok] at h
      obtain ⟨rfl, rfl⟩ := h
      rw [(htag b a).mp hb]
  · rintro rfl
    refine ⟨tag x, rest, rfl, ?_⟩
    rw [(htag (tag x) x).mpr rfl, run_pure_eq_ok]
    exact ⟨rfl, rfl⟩

theorem readPubkey_eq_ok (bs : List UInt8) (k : Pubkey) (rest : List UInt8) :
    readPubkey.run bs = .ok (k, rest) ↔ bs = k.bytes ++ rest := by
  simp only [readPubkey, run_bind_eq_ok, readBytes_eq_ok, run_pure_eq_ok]
  constructor
  · rintro ⟨b, bs', rfl, rfl, rfl⟩
    rfl
  · rintro rfl
    exact ⟨⟨k.bytes, k.length_bytes⟩, rest, rfl, rfl, rfl⟩

/-- `n` values read one after another are `n` written values one after another. -/
theorem readList_eq_ok {x : Reader α} {w : α → List UInt8}
    (hx : ∀ bs a rest, x.run bs = .ok (a, rest) ↔ bs = w a ++ rest) (n : Nat) (bs : List UInt8)
    (xs : { xs : List α // xs.length = n }) (rest : List UInt8) :
    (readList x n).run bs = .ok (xs, rest) ↔ bs = xs.val.flatMap w ++ rest := by
  induction n generalizing bs rest with
  | zero =>
    obtain ⟨xs, hxs⟩ := xs
    rw [List.length_eq_zero_iff] at hxs
    subst hxs
    show Except.ok (_, bs) = Except.ok _ ↔ _
    simp
  | succ n ih =>
    obtain ⟨xs, hxs⟩ := xs
    cases xs with
    | nil => simp at hxs
    | cons a as =>
      simp only [readList, run_bind_eq_ok, hx, ih, run_pure_eq_ok, Subtype.mk.injEq,
        List.cons.injEq]
      constructor
      · rintro ⟨a', bs1, rfl, ⟨as', has'⟩, bs2, rfl, ⟨⟨rfl, rfl⟩, rfl⟩⟩
        simp
      · rintro rfl
        exact ⟨a, as.flatMap w ++ rest, by simp, ⟨as, by simpa using hxs⟩, rest, rfl,
          ⟨⟨rfl, rfl⟩, rfl⟩⟩

/-! ## 5. Each field reads its field of the layout -/

/-- `x` reads a record of layout `s`: it succeeds exactly on bytes long enough for the layout
that are a valid record of it, and it takes the layout's bytes off the front. -/
structure Reads (s : Schema) (x : Reader α) : Prop where
  succeeds_iff : ∀ bs, (∃ a rest, x.run bs = .ok (a, rest)) ↔
    s.size ≤ bs.length ∧ s.valid bs = true
  rest_eq : ∀ {bs a rest}, x.run bs = .ok (a, rest) → rest = bs.drop s.size

theorem Reads.pure (a : α) : Reads [] (pure a : Reader α) := by
  refine ⟨fun bs => ⟨fun _ => ⟨Nat.zero_le _, rfl⟩, fun _ => ?_⟩, fun h => ?_⟩
  · exact ⟨a, bs, (run_pure_eq_ok _ _ _ _).mpr ⟨rfl, rfl⟩⟩
  · rw [run_pure_eq_ok] at h
    rw [← h.2]
    rfl

/-- **The step lemma**: a reader of `s` followed by readers of `t` reads `s ++ t`. The
continuation may use the value read, but what it accepts may not depend on it. -/
theorem Reads.bind {s t : Schema} {x : Reader α} {k : α → Reader β} (hx : Reads s x)
    (hk : ∀ a, Reads t (k a)) : Reads (s ++ t) (x >>= k) := by
  refine ⟨fun bs => ?_, fun h => ?_⟩
  · simp only [run_bind_eq_ok, Schema.size_append, Schema.valid_append, Bool.and_eq_true]
    constructor
    · rintro ⟨b, rest, a, bs1, h1, h2⟩
      have hs := (hx.succeeds_iff bs).mp ⟨a, bs1, h1⟩
      have ht := ((hk a).succeeds_iff bs1).mp ⟨b, rest, h2⟩
      rw [hx.rest_eq h1, List.length_drop] at ht
      refine ⟨by omega, hs.2, ht.2⟩
    · rintro ⟨hlen, hs, ht⟩
      obtain ⟨a, bs1, h1⟩ := (hx.succeeds_iff bs).mpr ⟨by omega, hs⟩
      have hbs1 := hx.rest_eq h1
      obtain ⟨b, rest, h2⟩ := ((hk a).succeeds_iff bs1).mpr
        ⟨by rw [hbs1, List.length_drop]; omega, by rw [hbs1]; exact ht⟩
      exact ⟨b, rest, a, bs1, h1, h2⟩
  · obtain ⟨a, bs1, h1, h2⟩ := (run_bind_eq_ok _ _ _ _ _).mp h
    rw [(hk a).rest_eq h2, hx.rest_eq h1, List.drop_drop, Schema.size_append]

theorem Reads.cons {f : Field} {t : Schema} {x : Reader α} {k : α → Reader β} (hx : Reads [f] x)
    (hk : ∀ a, Reads t (k a)) : Reads (f :: t) (x >>= k) :=
  hx.bind hk

theorem Reads.map {s : Schema} {x : Reader α} (hx : Reads s x) (f : α → β) : Reads s (f <$> x) := by
  refine ⟨fun bs => ?_, fun h => ?_⟩
  · rw [← hx.succeeds_iff bs]
    simp only [run_map_eq_ok]
    constructor
    · rintro ⟨_, rest, a, h, -⟩
      exact ⟨a, rest, h⟩
    · rintro ⟨a, rest, h⟩
      exact ⟨f a, rest, a, h, rfl⟩
  · obtain ⟨a, h, -⟩ := (run_map_eq_ok _ _ _ _ _).mp h
    exact hx.rest_eq h

theorem reads_readBytes (n : Nat) : Reads [.bytes n] (readBytes n) := by
  refine ⟨fun bs => ?_, fun {bs a rest} h => ?_⟩
  · simp only [readBytes_eq_ok, Schema.size_cons, Schema.size_nil, Field.width,
      Schema.valid_bytes_cons, Schema.valid_nil, and_true, Nat.add_zero]
    constructor
    · rintro ⟨a, rest, rfl⟩
      simp [a.length_bytes]
    · intro h
      exact ⟨⟨bs.take n, length_take_of_le h⟩, bs.drop n, by simp⟩
  · rw [readBytes_eq_ok] at h
    subst h
    simp [Schema.size, Field.width, a.length_bytes]

theorem reads_readU8 : Reads [.bytes 1] readU8 := by
  refine ⟨fun bs => ?_, fun {bs a rest} h => ?_⟩
  · cases bs <;> simp [readU8_eq_ok, Schema.size, Field.width, Schema.valid, Field.admits]
  · rw [readU8_eq_ok] at h
    subst h
    rfl

theorem reads_readU16 : Reads [.bytes 2] readU16 := (reads_readBytes 2).bind fun _ => .pure _

theorem reads_readU32 : Reads [.bytes 4] readU32 := (reads_readBytes 4).bind fun _ => .pure _

theorem reads_readU64 : Reads [.bytes 8] readU64 := (reads_readBytes 8).bind fun _ => .pure _

theorem reads_readI64 : Reads [.bytes 8] readI64 := reads_readU64.bind fun _ => .pure _

theorem reads_readPubkey : Reads [.bytes 32] readPubkey :=
  (reads_readBytes 32).bind fun _ => .pure _

theorem reads_readBool : Reads [.bool] readBool := by
  refine ⟨fun bs => ?_, fun {bs a rest} h => ?_⟩
  · simp only [readBool_eq_ok, Schema.size_cons, Schema.size_nil, Field.width, Schema.valid,
      Bool.and_true, Nat.add_zero]
    cases bs with
    | nil => simp [writeBool]
    | cons b rest =>
      simp only [List.head?_cons, Option.all_some, Field.admits_bool, decide_eq_true_eq,
        List.length_cons]
      constructor
      · rintro ⟨x, rest', h⟩
        cases x <;> simp_all [writeBool]
      · rintro ⟨-, hb⟩
        have hb' : b.toNat = 0 ∨ b.toNat = 1 := by omega
        rcases hb' with h | h
        · obtain rfl : b = 0 := UInt8.toNat_inj.mp h
          exact ⟨false, rest, rfl⟩
        · obtain rfl : b = 1 := UInt8.toNat_inj.mp h
          exact ⟨true, rest, rfl⟩
  · rw [readBool_eq_ok] at h
    subst h
    cases a <;> rfl

theorem reads_readTag (ofTag? : UInt8 → Option α) (tag : α → UInt8) (cases : Nat)
    (htag : ∀ b a, ofTag? b = some a ↔ b = tag a) (hcases : ∀ b, (ofTag? b).isSome ↔ b.toNat < cases) :
    Reads [.tag cases] (readTag ofTag?) := by
  refine ⟨fun bs => ?_, fun {bs a rest} h => ?_⟩
  · simp only [readTag_eq_ok _ _ htag, Schema.size_cons, Schema.size_nil, Field.width,
      Schema.valid, Bool.and_true, Nat.add_zero]
    cases bs with
    | nil => simp
    | cons b rest =>
      simp only [List.head?_cons, Option.all_some, Field.admits_tag, decide_eq_true_eq,
        List.length_cons, List.cons.injEq]
      constructor
      · rintro ⟨a, rest', rfl, -⟩
        exact ⟨by omega, (hcases _).mp (by rw [(htag _ a).mpr rfl]; rfl)⟩
      · rintro ⟨-, hb⟩
        obtain ⟨a, ha⟩ := Option.isSome_iff_exists.mp ((hcases b).mpr hb)
        exact ⟨a, rest, (htag b a).mp ha, rfl⟩
  · rw [readTag_eq_ok _ _ htag] at h
    subst h
    rfl

/-- **The run lemma**: a reader of `s` repeated `n` times reads `n` records of `s`. -/
theorem reads_readList {s : Schema} {x : Reader α} (hx : Reads s x) (n : Nat) :
    Reads (Schema.replicate n s) (readList x n) := by
  induction n with
  | zero => exact .pure _
  | succ n ih =>
    have h : Reads (s ++ (Schema.replicate n s ++ [])) (readList x (n + 1)) :=
      hx.bind fun _ => ih.bind fun _ => .pure _
    rw [List.append_nil] at h
    exact h

end Layout

end PerpClient
