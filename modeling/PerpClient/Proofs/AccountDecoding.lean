import PerpClient.Proofs.Readers
/-!
# Decoding accounts against their layouts

For every kind but the quote asset, an account decodes exactly when its bytes hold the
discriminator and then a body at least as long as the kind's layout whose tag and truth-value
bytes are all ones the layout admits; bytes past the body are not read. The decoded record
writes back to exactly the body it was read from, and a record written and read back, with any
bytes after it, is the record itself (`decodeAccount_contract`).

* `*.read_eq_ok`: a record reader answers a record and leaves `rest` on exactly the bytes
  `write ++ rest`, so it reads back what is written and nothing else;
* `*.reads`: a record reader reads its record's layout, field by field;
* `AccountKind.bodyReader`: what `decodeAccount` reads after the discriminator.
-/

namespace PerpClient

open Layout

/-! ## 1. Records read back what is written

Unfolded, a record reader is a chain of field equations `bs = write a ++ bs'`; the chain pins
every field and the rest, which `grind` closes. -/

theorem ProgramState.read_eq_ok (bs : List UInt8) (s : ProgramState) (rest : List UInt8) :
    ProgramState.read.run bs = .ok (s, rest) ↔ bs = s.write ++ rest := by
  simp only [ProgramState.read, run_bind_eq_ok, readPubkey_eq_ok, readBytes_eq_ok, readU8_eq_ok,
    readU16_eq_ok, readU64_eq_ok, run_pure_eq_ok]
  cases s
  simp only [ProgramState.mk.injEq, ProgramState.write, List.append_assoc, List.cons_append,
    List.nil_append]
  constructor
  · intro h
    grind
  · intro h
    grind

theorem PerpMarket.read_eq_ok (bs : List UInt8) (m : PerpMarket) (rest : List UInt8) :
    PerpMarket.read.run bs = .ok (m, rest) ↔ bs = m.write ++ rest := by
  simp only [PerpMarket.read, run_bind_eq_ok, readPubkey_eq_ok, readBytes_eq_ok, readU16_eq_ok,
    readU32_eq_ok, readTag_eq_ok _ _ OracleSource.ofTag?_eq_some_iff,
    readTag_eq_ok _ _ MarketStatus.ofTag?_eq_some_iff, run_pure_eq_ok]
  cases m
  simp only [PerpMarket.mk.injEq, PerpMarket.write, List.append_assoc, List.cons_append,
    List.nil_append]
  constructor
  · intro h
    grind
  · intro h
    grind

theorem SpotMarket.read_eq_ok (bs : List UInt8) (m : SpotMarket) (rest : List UInt8) :
    SpotMarket.read.run bs = .ok (m, rest) ↔ bs = m.write ++ rest := by
  simp only [SpotMarket.read, run_bind_eq_ok, readPubkey_eq_ok, readBytes_eq_ok, readU16_eq_ok,
    readU32_eq_ok, readTag_eq_ok _ _ OracleSource.ofTag?_eq_some_iff,
    readTag_eq_ok _ _ MarketStatus.ofTag?_eq_some_iff, run_pure_eq_ok]
  cases m
  simp only [SpotMarket.mk.injEq, SpotMarket.write, List.append_assoc, List.cons_append,
    List.nil_append]
  constructor
  · intro h
    grind
  · intro h
    grind

theorem SpotPosition.read_eq_ok (bs : List UInt8) (p : SpotPosition) (rest : List UInt8) :
    SpotPosition.read.run bs = .ok (p, rest) ↔ bs = p.write ++ rest := by
  simp only [SpotPosition.read, run_bind_eq_ok, readBytes_eq_ok, readU8_eq_ok, readU16_eq_ok,
    readU64_eq_ok, readI64_eq_ok, readTag_eq_ok _ _ SpotBalanceType.ofTag?_eq_some_iff,
    run_pure_eq_ok]
  cases p
  simp only [SpotPosition.mk.injEq, SpotPosition.write, List.append_assoc, List.cons_append,
    List.nil_append]
  constructor
  · intro h
    grind
  · intro h
    grind

theorem PerpPosition.read_eq_ok (bs : List UInt8) (p : PerpPosition) (rest : List UInt8) :
    PerpPosition.read.run bs = .ok (p, rest) ↔ bs = p.write ++ rest := by
  simp only [PerpPosition.read, run_bind_eq_ok, readBytes_eq_ok, readU8_eq_ok, readU16_eq_ok,
    readU64_eq_ok, readI64_eq_ok, run_pure_eq_ok]
  cases p
  simp only [PerpPosition.mk.injEq, PerpPosition.write, List.append_assoc, List.cons_append,
    List.nil_append]
  constructor
  · intro h
    grind
  · intro h
    grind

theorem OracleFeed.read_eq_ok (bs : List UInt8) (f : OracleFeed) (rest : List UInt8) :
    OracleFeed.read.run bs = .ok (f, rest) ↔ bs = f.write ++ rest := by
  simp only [OracleFeed.read, run_bind_eq_ok, readI64_eq_ok, readU64_eq_ok, readBool_eq_ok,
    run_pure_eq_ok]
  cases f
  simp only [OracleFeed.mk.injEq, OracleFeed.write, List.append_assoc]
  constructor
  · intro h
    grind
  · intro h
    grind

theorem run_bind_of_eq_ok {α β : Type} {x : Reader α} {bs : List UInt8} {a : α}
    {bs' : List UInt8} (h : x.run bs = .ok (a, bs')) (f : α → Reader β) :
    (x >>= f).run bs = (f a).run bs' := by
  simp only [StateT.run_bind, h]
  rfl

theorem UserAccount.read_eq_ok (bs : List UInt8) (u : UserAccount) (rest : List UInt8) :
    UserAccount.read.run bs = .ok (u, rest) ↔ bs = u.write ++ rest := by
  constructor
  · intro h
    simp only [UserAccount.read, run_bind_eq_ok, readPubkey_eq_ok, readBytes_eq_ok, readU8_eq_ok,
      readU16_eq_ok, readU32_eq_ok, readBool_eq_ok, readList_eq_ok SpotPosition.read_eq_ok,
      readList_eq_ok PerpPosition.read_eq_ok, run_pure_eq_ok] at h
    cases u
    simp only [UserAccount.write, List.append_assoc, List.cons_append, List.nil_append]
    grind
  · -- the position lists sit in subtypes `grind` does not build, so the written bytes are
    -- read forward, field by field
    rintro rfl
    obtain ⟨authority, delegate, name, spot, hspot, perp, hperp, nextOrderId, subAccountId,
      status, margin, padding⟩ := u
    simp only [UserAccount.write, List.append_assoc, List.cons_append, List.nil_append]
    unfold UserAccount.read
    rw [run_bind_of_eq_ok ((readPubkey_eq_ok _ _ _).mpr rfl),
      run_bind_of_eq_ok ((readPubkey_eq_ok _ _ _).mpr rfl),
      run_bind_of_eq_ok ((readBytes_eq_ok _ _ _ _).mpr rfl),
      run_bind_of_eq_ok ((readList_eq_ok SpotPosition.read_eq_ok _ _ ⟨spot, hspot⟩ _).mpr rfl),
      run_bind_of_eq_ok ((readList_eq_ok PerpPosition.read_eq_ok _ _ ⟨perp, hperp⟩ _).mpr rfl),
      run_bind_of_eq_ok ((readU32_eq_ok _ _ _).mpr rfl),
      run_bind_of_eq_ok ((readU16_eq_ok _ _ _).mpr rfl),
      run_bind_of_eq_ok ((readU8_eq_ok _ _ _).mpr rfl),
      run_bind_of_eq_ok ((readBool_eq_ok _ _ _).mpr rfl),
      run_bind_of_eq_ok ((readBytes_eq_ok _ _ _ _).mpr rfl)]
    rfl

/-! ## 2. Records read their layouts, field by field -/

theorem reads_oracleSource : Reads [.tag 13] (readTag OracleSource.ofTag?) :=
  reads_readTag _ _ 13 OracleSource.ofTag?_eq_some_iff OracleSource.isSome_ofTag?

theorem reads_marketStatus : Reads [.tag 9] (readTag MarketStatus.ofTag?) :=
  reads_readTag _ _ 9 MarketStatus.ofTag?_eq_some_iff MarketStatus.isSome_ofTag?

theorem reads_spotBalanceType : Reads [.tag 2] (readTag SpotBalanceType.ofTag?) :=
  reads_readTag _ _ 2 SpotBalanceType.ofTag?_eq_some_iff SpotBalanceType.isSome_ofTag?

theorem ProgramState.reads : Reads ProgramState.schema ProgramState.read :=
  reads_readPubkey.cons fun _ =>
  reads_readPubkey.cons fun _ =>
  reads_readPubkey.cons fun _ =>
  reads_readPubkey.cons fun _ =>
  reads_readU64.cons fun _ =>
  reads_readU64.cons fun _ =>
  reads_readU16.cons fun _ =>
  reads_readU16.cons fun _ =>
  reads_readU8.cons fun _ =>
  reads_readU8.cons fun _ =>
  reads_readU8.cons fun _ =>
  (reads_readBytes 9).cons fun _ =>
  .pure _

theorem PerpMarket.reads : Reads PerpMarket.schema PerpMarket.read :=
  reads_readPubkey.cons fun _ =>
  reads_readPubkey.cons fun _ =>
  reads_oracleSource.cons fun _ =>
  (reads_readBytes 32).cons fun _ =>
  reads_readU16.cons fun _ =>
  reads_readU16.cons fun _ =>
  reads_marketStatus.cons fun _ =>
  reads_readU32.cons fun _ =>
  reads_readU32.cons fun _ =>
  (reads_readBytes 16).cons fun _ =>
  .pure _

theorem SpotMarket.reads : Reads SpotMarket.schema SpotMarket.read :=
  reads_readPubkey.cons fun _ =>
  reads_readPubkey.cons fun _ =>
  reads_oracleSource.cons fun _ =>
  reads_readPubkey.cons fun _ =>
  reads_readPubkey.cons fun _ =>
  (reads_readBytes 32).cons fun _ =>
  reads_readU16.cons fun _ =>
  reads_readU32.cons fun _ =>
  reads_marketStatus.cons fun _ =>
  (reads_readBytes 16).cons fun _ =>
  .pure _

theorem SpotPosition.reads : Reads SpotPosition.schema SpotPosition.read :=
  reads_readU64.cons fun _ =>
  reads_readI64.cons fun _ =>
  reads_readI64.cons fun _ =>
  reads_readI64.cons fun _ =>
  reads_readU16.cons fun _ =>
  reads_spotBalanceType.cons fun _ =>
  reads_readU8.cons fun _ =>
  (reads_readBytes 4).cons fun _ =>
  .pure _

theorem PerpPosition.reads : Reads PerpPosition.schema PerpPosition.read :=
  reads_readI64.cons fun _ =>
  reads_readI64.cons fun _ =>
  reads_readI64.cons fun _ =>
  reads_readI64.cons fun _ =>
  reads_readI64.cons fun _ =>
  reads_readI64.cons fun _ =>
  reads_readI64.cons fun _ =>
  reads_readI64.cons fun _ =>
  reads_readU64.cons fun _ =>
  reads_readU16.cons fun _ =>
  reads_readU8.cons fun _ =>
  (reads_readBytes 5).cons fun _ =>
  .pure _

theorem OracleFeed.reads : Reads OracleFeed.schema OracleFeed.read :=
  reads_readI64.cons fun _ =>
  reads_readU64.cons fun _ =>
  reads_readU64.cons fun _ =>
  reads_readBool.cons fun _ =>
  .pure _

theorem UserAccount.reads : Reads UserAccount.schema UserAccount.read := by
  rw [UserAccount.schema, List.append_assoc, List.append_assoc]
  exact reads_readPubkey.cons fun _ =>
    reads_readPubkey.cons fun _ =>
    (reads_readBytes 32).cons fun _ =>
    (reads_readList SpotPosition.reads positionSlots).bind fun _ =>
    (reads_readList PerpPosition.reads positionSlots).bind fun _ =>
    reads_readU32.cons fun _ =>
    reads_readU16.cons fun _ =>
    reads_readU8.cons fun _ =>
    reads_readBool.cons fun _ =>
    (reads_readBytes 8).cons fun _ =>
    .pure _

/-! ## 3. The reader of each kind -/

/-- What `decodeAccount` reads after the discriminator, for a kind: the kind's record, and for
an oracle its feed, priced as the kind's source. -/
def AccountKind.bodyReader : AccountKind → Reader DecodedAccount
  | .state => DecodedAccount.state <$> ProgramState.read
  | .perpMarket => DecodedAccount.perpMarket <$> PerpMarket.read
  | .spotMarket => DecodedAccount.spotMarket <$> SpotMarket.read
  | .oracle s => (fun feed => DecodedAccount.oracle (OraclePrice.ofFeed feed s)) <$> OracleFeed.read
  | .user => DecodedAccount.user <$> UserAccount.read

theorem AccountKind.reads_bodyReader (K : AccountKind) : Reads K.schema K.bodyReader := by
  cases K with
  | state => exact ProgramState.reads.map _
  | perpMarket => exact PerpMarket.reads.map _
  | spotMarket => exact SpotMarket.reads.map _
  | oracle s => exact OracleFeed.reads.map _
  | user => exact UserAccount.reads.map _

/-- A kind's reader answers an account of that kind, and reads back exactly what the account
writes. -/
theorem AccountKind.bodyReader_eq_ok (K : AccountKind) (bs : List UInt8) (a : DecodedAccount)
    (rest : List UInt8) :
    K.bodyReader.run bs = .ok (a, rest) ↔ a.kind = K ∧ bs = a.write ++ rest := by
  cases K with
  | oracle s =>
    simp only [bodyReader, run_map_eq_ok, OracleFeed.read_eq_ok]
    constructor
    · rintro ⟨f, rfl, rfl⟩
      exact ⟨rfl, rfl⟩
    · intro ⟨hk, hbs⟩
      cases a with
      | oracle p =>
        obtain rfl : p.source = s := by simpa [DecodedAccount.kind] using hk
        exact ⟨p.feed, hbs, rfl⟩
      | _ => simp [DecodedAccount.kind] at hk
  | _ =>
    simp only [bodyReader, run_map_eq_ok, ProgramState.read_eq_ok, PerpMarket.read_eq_ok,
      SpotMarket.read_eq_ok, UserAccount.read_eq_ok]
    constructor
    · rintro ⟨r, rfl, rfl⟩
      exact ⟨rfl, rfl⟩
    · intro ⟨hk, hbs⟩
      cases a <;> simp_all [DecodedAccount.kind, DecodedAccount.write]

/-! ## 4. Decoding -/

theorem readBody_eq_ok {α : Type} (x : Reader α) (body : List UInt8) (a : α) :
    readBody x body = .ok a ↔ ∃ rest, x.run body = .ok (a, rest) := by
  unfold readBody
  rw [show x.run' body = Prod.fst <$> x.run body from rfl]
  cases x.run body with
  | error e =>
    constructor
    · intro h
      cases h
    · rintro ⟨rest, h⟩
      cases h
  | ok p =>
    obtain ⟨a', rest⟩ := p
    constructor
    · intro h
      cases h
      exact ⟨rest, rfl⟩
    · rintro ⟨_, h⟩
      cases h
      rfl

theorem readBody_map {α β : Type} (f : α → β) (x : Reader α) (body : List UInt8) :
    readBody (f <$> x) body = (readBody x body).map f := by
  unfold readBody
  rw [show (f <$> x).run' body = Prod.fst <$> (f <$> x).run body from rfl, StateT.run_map,
    show x.run' body = Prod.fst <$> x.run body from rfl]
  cases x.run body <;> rfl

/-- Past the discriminator, a kind other than the quote asset is read with its reader. -/
theorem decodeAccount_eq {K : AccountKind} (hK : K ≠ .oracle .quoteAsset) (d : List UInt8) :
    decodeAccount K d =
      if d.length < discriminatorLength then .error (.shorterThanDiscriminator d.length)
      else readBody K.bodyReader (d.drop discriminatorLength) := by
  cases K with
  | oracle s =>
    cases s
    case quoteAsset => exact absurd rfl hK
    all_goals simp [decodeAccount, AccountKind.bodyReader, readBody_map]
  | _ => simp [decodeAccount, AccountKind.bodyReader, readBody_map]

theorem decodeAccount_eq_ok {K : AccountKind} (hK : K ≠ .oracle .quoteAsset) (d : List UInt8)
    (a : DecodedAccount) :
    decodeAccount K d = .ok a ↔ discriminatorLength ≤ d.length ∧
      ∃ rest, K.bodyReader.run (d.drop discriminatorLength) = .ok (a, rest) := by
  rw [decodeAccount_eq hK]
  by_cases hd : d.length < discriminatorLength
  · rw [if_pos hd]
    constructor
    · intro h
      cases h
    · rintro ⟨hle, -⟩
      omega
  · rw [if_neg hd, readBody_eq_ok]
    exact ⟨fun h => ⟨Nat.le_of_not_lt hd, h⟩, fun h => h.2⟩

/-- An account decodes exactly when it holds the discriminator and a valid body of its
layout. -/
theorem exists_decodeAccount_eq_ok_iff {K : AccountKind} (hK : K ≠ .oracle .quoteAsset)
    (d : List UInt8) :
    (∃ a, decodeAccount K d = .ok a) ↔
      discriminatorLength + K.bodySize ≤ d.length ∧
        K.schema.valid (d.drop discriminatorLength) = true := by
  simp only [decodeAccount_eq_ok hK]
  rw [← K.size_schema]
  constructor
  · rintro ⟨a, hd, rest, h⟩
    have hfits := ((K.reads_bodyReader).succeeds_iff _).mp ⟨a, rest, h⟩
    rw [List.length_drop] at hfits
    exact ⟨by omega, hfits.2⟩
  · intro ⟨hlen, hvalid⟩
    obtain ⟨a, rest, h⟩ := ((K.reads_bodyReader).succeeds_iff _).mpr
      ⟨by rw [List.length_drop]; omega, hvalid⟩
    exact ⟨a, by omega, rest, h⟩

/-- A decoded account is of its kind and writes back the body it was read from. -/
theorem write_of_decodeAccount_eq_ok {K : AccountKind} (hK : K ≠ .oracle .quoteAsset)
    {d : List UInt8} {a : DecodedAccount} (h : decodeAccount K d = .ok a) :
    a.kind = K ∧ encodeAccount a.write =
      List.replicate discriminatorLength 0 ++ (d.drop discriminatorLength).take K.bodySize := by
  obtain ⟨-, rest, hread⟩ := (decodeAccount_eq_ok hK d a).mp h
  obtain ⟨hkind, hbody⟩ := (K.bodyReader_eq_ok _ a rest).mp hread
  refine ⟨hkind, ?_⟩
  -- the reader took exactly the layout's bytes, so what it answers writes exactly those
  have hrest := (K.reads_bodyReader).rest_eq hread
  have hlen : a.write.length = K.bodySize := by
    have hfits := ((K.reads_bodyReader).succeeds_iff _).mp ⟨a, rest, hread⟩
    have hsum := congrArg List.length hbody
    rw [List.length_append, hrest] at hsum
    simp only [List.length_drop] at hsum hfits
    rw [← K.size_schema]
    omega
  rw [encodeAccount, hbody, ← hlen, List.take_left]

/-- A record written with the discriminator and read back, with any bytes after it, is the
record itself. -/
theorem decodeAccount_encodeAccount (a : DecodedAccount) (ha : a.kind ≠ .oracle .quoteAsset)
    (t : List UInt8) : decodeAccount a.kind (encodeAccount a.write ++ t) = .ok a := by
  rw [decodeAccount_eq_ok ha]
  refine ⟨by simp [encodeAccount, discriminatorLength], t, ?_⟩
  have hdrop : (encodeAccount a.write ++ t).drop discriminatorLength = a.write ++ t := by
    simp [encodeAccount, discriminatorLength]
  rw [hdrop, AccountKind.bodyReader_eq_ok]
  exact ⟨rfl, rfl⟩

/-- The quote asset is priced at one unit whatever the bytes. -/
theorem decodeAccount_quoteAsset (d : List UInt8) :
    decodeAccount (.oracle .quoteAsset) d = .ok (.oracle quoteAssetPrice) := rfl

/-- **Decoding against the layouts.** For every kind but the quote asset, an account decodes
exactly when it holds the 8-byte discriminator and a body of at least the kind's size (160,
126, 184, 1072 or 25 bytes) whose truth-value and tag bytes are all in range; the decoded
account is of the kind, and written back with the discriminator it gives the discriminator's
zeros and then exactly the body it was read from. A record of the kind written and read back,
with any bytes after it, is the record itself (an oracle feed comes back priced as the kind's
source). The quote asset decodes from any bytes to its fixed unit price. -/
theorem decodeAccount_contract (K : AccountKind) (hK : K ≠ .oracle .quoteAsset)
    (d : List UInt8) :
    ((∃ a, decodeAccount K d = .ok a) ↔
        discriminatorLength + K.bodySize ≤ d.length ∧
          K.schema.valid (d.drop discriminatorLength) = true) ∧
      (∀ a, decodeAccount K d = .ok a → a.kind = K ∧ encodeAccount a.write =
        List.replicate discriminatorLength 0 ++ (d.drop discriminatorLength).take K.bodySize) ∧
      (∀ a t, a.kind = K → decodeAccount K (encodeAccount a.write ++ t) = .ok a) ∧
      (∀ d', decodeAccount (.oracle .quoteAsset) d' = .ok (.oracle quoteAssetPrice)) := by
  refine ⟨exists_decodeAccount_eq_ok_iff hK d, fun a h => write_of_decodeAccount_eq_ok hK h,
    fun a t ha => ?_, decodeAccount_quoteAsset⟩
  subst ha
  exact decodeAccount_encodeAccount a hK t

theorem decodeAccount_contract_pythPull :
    AccountKind.oracle .pythPull ≠ .oracle .quoteAsset ∧
      (((∃ a, decodeAccount (.oracle .pythPull) [] = .ok a) ↔
          discriminatorLength + (AccountKind.oracle .pythPull).bodySize ≤ ([] : List UInt8).length ∧
            (AccountKind.oracle .pythPull).schema.valid
              (([] : List UInt8).drop discriminatorLength) = true) ∧
        (∀ a, decodeAccount (.oracle .pythPull) [] = .ok a → a.kind = .oracle .pythPull ∧
          encodeAccount a.write = List.replicate discriminatorLength 0 ++
            (([] : List UInt8).drop discriminatorLength).take
              (AccountKind.oracle .pythPull).bodySize) ∧
        (∀ a t, a.kind = .oracle .pythPull →
          decodeAccount (.oracle .pythPull) (encodeAccount a.write ++ t) = .ok a) ∧
        (∀ d', decodeAccount (.oracle .quoteAsset) d' = .ok (.oracle quoteAssetPrice))) :=
  ⟨by decide, decodeAccount_contract _ (by decide) []⟩

end PerpClient
