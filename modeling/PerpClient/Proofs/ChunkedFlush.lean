import PerpClient.Proofs.BatchLoader
/-!
# A flush, chunk by chunk

A flush asks the ledger for the distinct addresses of its loads, in the order first asked, in
chunks of at most `maxMultipleAccounts`, the requests sent together. A ledger that answers at once
has answered each request before the next goes out: the first request that fails or answers
another number of accounts than asked ends the flush, and no later chunk is asked. A ledger that
answers later has every request before it answers one.

The ledger here is a script (`Loader.scriptLedger`): its `i`-th request is answered by
`respond i` of the addresses asked, for any such answers, and it notes every request.
`Loader.pendingLedger` is the same script answering later.

* `length_chunksOf`, `length_mem_chunksOf`: `⌈n / 100⌉` chunks of one to a hundred addresses;
* `Loader.mapM_readChunk_script`: the chunks are asked in order up to the first refused one;
* `Loader.flush_script`: so a flush serves every load with the entry its chunk's answer holds
  for its address, at the lowest slot of the answers, or answers every load with the error of
  the chunk refused (`Loader.FlushEnd`);
* `Loader.flush_requests_chunks`: all of it for every flush;
* `Loader.flush_pending`: answering later, the script is asked every chunk, and the loads are
  answered as when it answers at once;
* `Loader.flush_refused_asks_one_chunk`: a refused first chunk of two is the only request.
-/

namespace PerpClient

/-! ## 1. Chunks -/

section Chunks

variable {α : Type} {n : Nat}

theorem chunksOfWith_cons (fuel : Nat) (x : α) (xs : List α) :
    chunksOfWith n (fuel + 1) (x :: xs) =
      (x :: xs).take n :: chunksOfWith n fuel ((x :: xs).drop n) := rfl

/-- Chunking with enough fuel makes one chunk per `n` entries, the last one possibly short. -/
theorem length_chunksOfWith (hn : 0 < n) :
    ∀ (fuel : Nat) (xs : List α), xs.length ≤ fuel →
      (chunksOfWith n fuel xs).length = (xs.length + n - 1) / n
  | 0, [], _ | _ + 1, [], _ => (Nat.div_eq_of_lt (by simp; omega)).symm
  | 0, _ :: _, h => by simp at h
  | fuel + 1, x :: xs, h => by
    simp only [List.length_cons] at h
    rw [chunksOfWith_cons, List.length_cons,
      length_chunksOfWith hn fuel _ (by simp only [List.length_drop, List.length_cons]; omega)]
    simp only [List.length_drop, List.length_cons]
    by_cases hle : xs.length + 1 ≤ n
    · rw [Nat.sub_eq_zero_of_le hle, Nat.zero_add, Nat.div_eq_of_lt (by omega : n - 1 < n),
        show xs.length + 1 + n - 1 = xs.length + n by omega, Nat.add_div_right _ hn,
        Nat.div_eq_of_lt (by omega : xs.length < n)]
    · rw [show xs.length + 1 - n + n - 1 = xs.length - n + n by omega,
        show xs.length + 1 + n - 1 = xs.length - n + n + n by omega,
        Nat.add_div_right _ hn, Nat.add_div_right _ hn, Nat.add_div_right _ hn]

/-- Every chunk holds one to `n` entries. -/
theorem length_mem_chunksOfWith (hn : 0 < n) :
    ∀ (fuel : Nat) (xs : List α), ∀ c ∈ chunksOfWith n fuel xs, 0 < c.length ∧ c.length ≤ n
  | 0, _, _, hc | _ + 1, [], _, hc => by simp [chunksOfWith] at hc
  | fuel + 1, x :: xs, c, hc => by
    rw [chunksOfWith_cons] at hc
    rcases List.mem_cons.mp hc with rfl | hc
    · simp only [List.length_take, List.length_cons]
      omega
    · exact length_mem_chunksOfWith hn fuel _ c hc

theorem length_chunksOf (hn : 0 < n) (xs : List α) :
    (chunksOf n xs).length = (xs.length + n - 1) / n :=
  length_chunksOfWith hn xs.length xs (Nat.le_refl _)

theorem length_mem_chunksOf (hn : 0 < n) (xs : List α) :
    ∀ c ∈ chunksOf n xs, 0 < c.length ∧ c.length ≤ n :=
  length_mem_chunksOfWith hn xs.length xs

end Chunks

namespace Loader

/-! ## 2. The addresses asked -/

/-- The addresses a flush asks for are those of its loads, each once, in the order first
asked. -/
theorem distinct_eq_eraseDups (keys : List Pubkey) : distinct keys = keys.eraseDups :=
  appendNew_nil_eq_eraseDups keys

theorem distinct_eq_nil_iff {keys : List Pubkey} : distinct keys = [] ↔ keys = [] := by
  rw [distinct_eq_eraseDups, List.eq_nil_iff_forall_not_mem, List.eq_nil_iff_forall_not_mem]
  simp only [List.mem_eraseDups]

/-- Appending the entries of a list none of which is listed yet, nor repeated, appends them all. -/
theorem appendNew_of_nodup {α : Type} [DecidableEq α] :
    ∀ {xs : List α} (ys : List α), (xs ++ ys).Nodup → appendNew xs ys = xs ++ ys
  | xs, [], _ => (List.append_nil xs).symm
  | xs, y :: ys, h => by
    have hy : y ∉ xs := fun hmem => (List.nodup_append.mp h).2.2 y hmem y List.mem_cons_self rfl
    rw [appendNew_cons, if_neg hy, appendNew_of_nodup ys (by simpa using h)]
    simp

theorem distinct_of_nodup {keys : List Pubkey} (h : keys.Nodup) : distinct keys = keys :=
  appendNew_of_nodup keys h

/-! ## 3. A scripted ledger -/

/-- What one multi-account request answers: the accounts asked for, at a slot. -/
abbrev ChunkRead := Stamped (List (Option (List UInt8)))

/-- The answer to requests a scripted ledger does not serve. -/
def notServed : Failure := .client (.rpc "not served")

/-- A ledger that serves multi-account reads only: the `i`-th request is answered by `respond i`
of the addresses asked, and every request is noted in order. -/
def scriptLedger (respond : Nat → List Pubkey → Outcome ChunkRead) :
    Ledger (List (List Pubkey)) where
  getAccount _ := throw notServed
  getMultipleAccounts keys := ExceptT.mk do
    let asked ← get
    set (asked ++ [keys])
    pure (respond asked.length keys)
  getLatestBlockhash := throw notServed
  getSlot := throw notServed
  simulate _ := throw notServed
  sendRawTransaction _ _ := throw notServed
  getSignatureStatus _ := throw notServed
  getAddressLookupTable _ := throw notServed

/-- Against a ledger that answers at once, the chunks are read one after another. -/
theorem readChunks_of_answersAtOnce {σ : Type} {ledger : Ledger σ}
    (h : ledger.answersAtOnce = true) (chunks : List (List Pubkey)) :
    readChunks ledger chunks = chunks.mapM (readChunk ledger) :=
  if_pos h

section Script

variable (respond : Nat → List Pubkey → Outcome ChunkRead)

/-- The answer `r` to the chunk `c` is taken: as many accounts as addresses asked. -/
def Accepted (c : List Pubkey) (r : Outcome ChunkRead) (d : ChunkRead) : Prop :=
  r = .ok d ∧ d.data.length = c.length

/-- The answer `r` to the chunk `c` is refused with the failure `e`: the request failed with it,
or answered another number of accounts than asked. -/
def Refused (c : List Pubkey) (r : Outcome ChunkRead) (e : Failure) : Prop :=
  r = .error e ∨ ∃ d, r = .ok d ∧ d.data.length ≠ c.length ∧
    e = .client (.rpc s!"asked for {c.length} accounts, got {d.data.length}")

/-- The chunks `cs`, asked one after another from the `n`-th request on, were each taken, with
the answers `ds`. -/
def Served : Nat → List (List Pubkey) → List ChunkRead → Prop
  | _, [], [] => True
  | n, c :: cs, d :: ds => Accepted c (respond n c) d ∧ Served (n + 1) cs ds
  | _, _, _ => False

/-- One chunk read from the script: the request is noted, and its answer taken or refused. -/
theorem readChunk_script (c : List Pubkey) (asked : List (List Pubkey)) :
    ((readChunk (scriptLedger respond) c).run.run asked).2 = asked ++ [c] ∧
      ((∃ d, ((readChunk (scriptLedger respond) c).run.run asked).1 = .ok d ∧
          Accepted c (respond asked.length c) d) ∨
        ∃ e, ((readChunk (scriptLedger respond) c).run.run asked).1 = .error e ∧
          Refused c (respond asked.length c) e) := by
  unfold readChunk
  rw [ExceptT.run_bind, run_bind_pair]
  have hread : ((scriptLedger respond).getMultipleAccounts c).run.run asked =
      (respond asked.length c, asked ++ [c]) := rfl
  rw [hread]
  cases hr : respond asked.length c with
  | error e => exact ⟨rfl, .inr ⟨e, rfl, .inl rfl⟩⟩
  | ok d =>
    by_cases hlen : d.data.length = c.length
    · simp only [ne_eq, hlen, not_true_eq_false, ↓reduceIte]
      exact ⟨rfl, .inl ⟨d, rfl, rfl, hlen⟩⟩
    · simp only [ne_eq, hlen, not_false_eq_true, ↓reduceIte]
      exact ⟨rfl, .inr ⟨_, rfl, .inr ⟨d, rfl, hlen, rfl⟩⟩⟩

/-- How the requests for the chunks `cs` ended, after the requests `asked`: every chunk was
taken and asked once, in order; or the chunks before one were taken, that one was refused, and
nothing after it was asked. -/
inductive ChunksEnd (asked : List (List Pubkey)) :
    List (List Pubkey) → Outcome (List ChunkRead) × List (List Pubkey) → Prop
  | served {cs ds p} : Served respond asked.length cs ds → p = (.ok ds, asked ++ cs) →
      ChunksEnd asked cs p
  | refused {pre c post ds e p} : Served respond asked.length pre ds →
      Refused c (respond (asked.length + pre.length) c) e → p = (.error e, asked ++ pre ++ [c]) →
      ChunksEnd asked (pre ++ c :: post) p

/-- A chunk taken before the others: the requests end as those for the others do, from one
request later, with the chunk's answer first. -/
theorem ChunksEnd.cons {c : List Pubkey} {cs asked : List (List Pubkey)} {d : ChunkRead}
    {q : Outcome (List ChunkRead) × List (List Pubkey)} (hd : Accepted c (respond asked.length c) d)
    (hrest : ChunksEnd respond (asked ++ [c]) cs q) :
    ChunksEnd respond asked (c :: cs) (q.1.map (d :: ·), q.2) := by
  have hlen : (asked ++ [c]).length = asked.length + 1 := by simp
  cases hrest with
  | @served _ ds _ hs hq =>
    rw [hlen] at hs
    subst hq
    exact .served (show Served respond asked.length (c :: cs) (d :: ds) from ⟨hd, hs⟩)
      (by rw [List.append_cons asked c cs]; rfl)
  | @refused pre c' post ds e _ hs he hq =>
    rw [hlen] at hs he
    subst hq
    have hidx : asked.length + (c :: pre).length = asked.length + 1 + pre.length := by
      simp only [List.length_cons]
      omega
    exact .refused (show Served respond asked.length (c :: pre) (d :: ds) from ⟨hd, hs⟩)
      (hidx ▸ he) (by rw [List.append_cons asked c pre]; rfl)

/-- **The run lemma of the chunk requests**: one after another, up to the first refused. -/
theorem mapM_readChunk_script : ∀ (cs asked : List (List Pubkey)),
    ChunksEnd respond asked cs ((cs.mapM (readChunk (scriptLedger respond))).run.run asked)
  | [], asked =>
    .served (show Served respond asked.length [] [] from trivial) (by rw [List.append_nil]; rfl)
  | c :: cs, asked => by
    rw [List.mapM_cons, ExceptT.run_bind, run_bind_pair]
    obtain ⟨hasked, hread⟩ := readChunk_script respond c asked
    generalize (readChunk (scriptLedger respond) c).run.run asked = q at hasked hread ⊢
    obtain ⟨r, asked'⟩ := q
    dsimp only at hasked
    subst hasked
    rcases hread with ⟨d, rfl, hd⟩ | ⟨e, rfl, he⟩
    · dsimp only
      rw [ExceptT.run_bind, run_bind_pair]
      have hrest := mapM_readChunk_script cs (asked ++ [c])
      generalize (cs.mapM (readChunk (scriptLedger respond))).run.run (asked ++ [c]) = q at hrest ⊢
      obtain ⟨r, asked'⟩ := q
      cases r <;> exact ChunksEnd.cons respond hd hrest
    · exact .refused (show Served respond asked.length [] [] from trivial) he
        (by rw [List.append_nil]; rfl)

/-- The script answering later: every request of a join is out before the first answer comes
back. -/
def pendingLedger : Ledger (List (List Pubkey)) :=
  { scriptLedger respond with answersAtOnce := false }

/-- **The run lemma of requests sent together**: against the script answering later, every chunk
is asked, and the answers joined in order are what asking one after another meets. -/
theorem mapM_readChunk_pending : ∀ (cs asked : List (List Pubkey)),
    ((cs.mapM fun c => (readChunk (pendingLedger respond) c).run).run asked).2 = asked ++ cs ∧
      ((cs.mapM fun c => (readChunk (pendingLedger respond) c).run).run asked).1.mapM id =
        ((cs.mapM (readChunk (scriptLedger respond))).run.run asked).1
  | [], asked => ⟨(List.append_nil asked).symm, rfl⟩
  | c :: cs, asked => by
    -- either script answers the chunk alike and notes it
    have hsame :
        (readChunk (pendingLedger respond) c).run = (readChunk (scriptLedger respond) c).run := rfl
    simp only [List.mapM_cons, ExceptT.run_bind, run_bind_pair, run_pure_pair, hsame]
    obtain ⟨hasked, -⟩ := readChunk_script respond c asked
    generalize (readChunk (scriptLedger respond) c).run.run asked = q at hasked ⊢
    obtain ⟨r, asked'⟩ := q
    dsimp only at hasked ⊢
    subst hasked
    obtain ⟨hrest, hjoin⟩ := mapM_readChunk_pending cs (asked ++ [c])
    refine ⟨by rw [hrest, List.append_assoc, List.singleton_append], ?_⟩
    rw [hjoin]
    cases r with
    | error e => rfl
    | ok d =>
      rw [run_bind_pair]
      cases ((cs.mapM (readChunk (scriptLedger respond))).run.run (asked ++ [c])).1 <;> rfl

/-! ## 4. The answers of a served flush -/

/-- Each address asked paired with the entry its chunk's answer holds in the same place. -/
def pairEntries (chunks : List (List Pubkey)) (ds : List ChunkRead) :
    List (Pubkey × Option (List UInt8)) :=
  (chunks.zip ds).flatMap fun p => p.1.zip p.2.data

/-- Answers with as many entries as asked line up with the addresses asked, chunk by chunk. -/
theorem pairEntries_of_served :
    ∀ {n : Nat} {cs : List (List Pubkey)} {ds : List ChunkRead}, Served respond n cs ds →
      pairEntries cs ds = cs.flatten.zip (ds.map (·.data)).flatten
  | _, [], [], _ => rfl
  | _, c :: cs, d :: ds, ⟨⟨_, hlen⟩, hs⟩ => by
    rw [List.flatten_cons, List.map_cons, List.flatten_cons, List.zip_append hlen.symm,
      ← pairEntries_of_served hs]
    rfl
  | _, [], _ :: _, h | _, _ :: _, [], h => h.elim

end Script

/-- Of two slots the smaller is one of them, and it is at least a bound exactly when both are;
so `List.min?` of slots is a member that every other bounds (`List.min?_eq_some_iff`). -/
instance lawfulOrderMin_uint64 : Std.LawfulOrderMin UInt64 := by
  apply Std.LawfulOrderMin.of_le_min_iff
  · intro a b c
    simp only [min, UInt64.le_iff_toNat_le]
    split <;> omega
  · intro a b
    simp only [min]
    split <;> simp

/-- The slot a read of several chunks is stamped with is the lowest of their slots. -/
theorem foldl_min_slot (ds : List ChunkRead) :
    (∀ e ∈ ds, (ds.map (·.slot)).foldl min (ds.headD ⟨[], 0⟩).slot ≤ e.slot) ∧
      (ds ≠ [] → ∃ e ∈ ds, e.slot = (ds.map (·.slot)).foldl min (ds.headD ⟨[], 0⟩).slot) := by
  cases ds with
  | nil => exact ⟨fun _ h => absurd h List.not_mem_nil, fun h => absurd rfl h⟩
  | cons d ds =>
    have hself : min d.slot d.slot = d.slot := by simp [min]
    have hmin : (d.slot :: ds.map (·.slot)).min? =
        some (((d :: ds).map (·.slot)).foldl min d.slot) := by
      rw [List.map_cons, List.foldl_cons, hself]
      rfl
    obtain ⟨hmem, hle⟩ := List.min?_eq_some_iff.mp hmin
    refine ⟨fun e he => hle e.slot ?_, fun _ => ?_⟩
    · rw [← List.map_cons]
      exact List.mem_map_of_mem he
    · rw [← List.map_cons] at hmem
      obtain ⟨e, he, hslot⟩ := List.mem_map.mp hmem
      exact ⟨e, he, hslot⟩

/-- Looking an address up among addresses zipped with entries takes the entry in the place of its
first occurrence. -/
theorem lookup_zip {α β : Type} [BEq α] [LawfulBEq α] (k : α) :
    ∀ (xs : List α) (ys : List β), (xs.zip ys).lookup k = (xs.idxOf? k).bind (ys[·]?)
  | [], _ => rfl
  | x :: xs, [] => by
    cases h : (x :: xs).idxOf? k <;> rfl
  | x :: xs, y :: ys => by
    rw [List.zip_cons_cons, List.lookup_cons, List.idxOf?_cons]
    by_cases hx : x = k
    · subst hx
      simp
    · have hkx : (k == x) = false := beq_false_of_ne (Ne.symm hx)
      have hxk : (x == k) = false := beq_false_of_ne hx
      simp only [hkx, hxk, Bool.false_eq_true, ↓reduceIte, lookup_zip k xs ys]
      cases xs.idxOf? k <;> rfl


/-- The entry a served load takes by its place among the addresses asked is the one its chunk's
answer holds for it. -/
theorem lookup_pairEntries {respond : Nat → List Pubkey → Outcome ChunkRead} {n : Nat}
    {chunks : List (List Pubkey)} {ds : List ChunkRead} (hs : Served respond n chunks ds)
    (k : Pubkey) :
    ((pairEntries chunks ds).lookup k).join =
      (chunks.flatten.idxOf? k).bind fun i => ((ds.map (·.data)).flatten[i]?).join := by
  rw [pairEntries_of_served respond hs, lookup_zip]
  cases chunks.flatten.idxOf? k <;> rfl

/-! ## 5. A flush against the script -/

section Flush

variable (respond : Nat → List Pubkey → Outcome ChunkRead)

/-- How a flush of the loads `keys` ended, after the requests `asked`, given the chunks of the
addresses to ask: every chunk served, each load answered with the entry its chunk's answer holds
for its address, all at the lowest slot of the answers; or one chunk refused after those before
it were served, nothing asked after it, and every load answered with the same error. -/
inductive FlushEnd (keys : List Pubkey) (asked : List (List Pubkey)) :
    List (List Pubkey) → List LoadAnswer × List (List Pubkey) → Prop
  | served {chunks ds slot p} : Served respond asked.length chunks ds →
      (∀ d ∈ ds, slot ≤ d.slot) → (ds ≠ [] → ∃ d ∈ ds, d.slot = slot) →
      p = (keys.map fun k => .ok ⟨((pairEntries chunks ds).lookup k).join, slot⟩, asked ++ chunks) →
      FlushEnd keys asked chunks p
  | refused {pre c post ds e p} : Served respond asked.length pre ds →
      Refused c (respond (asked.length + pre.length) c) e →
      p = (keys.map fun _ => .error (flushError e), asked ++ pre ++ [c]) →
      FlushEnd keys asked (pre ++ c :: post) p

/-- **The run lemma of a flush**, against any answers of the ledger. -/
theorem flush_script (keys : List Pubkey) (asked : List (List Pubkey)) :
    FlushEnd respond keys asked (chunksOf maxMultipleAccounts (distinct keys))
      ((flush (scriptLedger respond) keys).run asked) := by
  unfold flush
  rw [run_bind_pair]
  by_cases hnil : keys = []
  · subst hnil
    refine @FlushEnd.served respond [] asked [] [] 0 _ trivial (foldl_min_slot []).1
      (foldl_min_slot []).2 ?_
    show _ = (_, asked ++ [])
    rw [List.append_nil]
    rfl
  have hu : (distinct keys).isEmpty = false :=
    List.isEmpty_eq_false_iff.mpr fun h => hnil (distinct_eq_nil_iff.mp h)
  have hflat := flatten_chunksOf maxMultipleAccounts (by decide) (distinct keys)
  unfold loadMany
  simp only [hu, Bool.false_eq_true, ↓reduceIte]
  rw [readChunks_of_answersAtOnce (rfl : (scriptLedger respond).answersAtOnce = true),
    ExceptT.run_bind, run_bind_pair]
  have hend := mapM_readChunk_script respond (chunksOf maxMultipleAccounts (distinct keys)) asked
  generalize chunksOf maxMultipleAccounts (distinct keys) = chunks at hend hflat ⊢
  generalize (chunks.mapM (readChunk (scriptLedger respond))).run.run asked = q at hend ⊢
  cases hend with
  | @served _ ds _ hs hq =>
    subst hq
    refine @FlushEnd.served respond keys asked chunks ds
      ((ds.map (·.slot)).foldl min (ds.headD ⟨[], 0⟩).slot) _ hs (foldl_min_slot ds).1
      (foldl_min_slot ds).2 ?_
    -- each load takes the entry in the place of its address, which lines up with its chunk
    simp only [lookup_pairEntries hs, hflat]
    rfl
  | @refused pre c post ds e _ hs he hq =>
    subst hq
    exact .refused hs he rfl

/-- The answers of a ledger that refuses every request: served chunks are none. -/
theorem served_refusing {e : Failure} :
    ∀ {n : Nat} {cs : List (List Pubkey)} {ds : List ChunkRead},
      Served (fun _ _ => .error e) n cs ds → cs = []
  | _, [], _, _ => rfl
  | _, _ :: _, _ :: _, ⟨⟨h, _⟩, _⟩ => nomatch h
  | _, _ :: _, [], h => h.elim

/-- Against a ledger that refuses every request, a flush of some loads asks exactly once. -/
theorem asked_flush_refusing (e : Failure) {keys : List Pubkey} (hk : keys ≠ [])
    (asked : List (List Pubkey)) :
    ∃ c, ((flush (scriptLedger fun _ _ => .error e) keys).run asked).2 = asked ++ [c] := by
  have hflat := flatten_chunksOf maxMultipleAccounts (by decide) (distinct keys)
  have hend := flush_script (fun _ _ => .error e) keys asked
  generalize chunksOf maxMultipleAccounts (distinct keys) = chunks at hend hflat
  cases hend with
  | served hs _ _ hp =>
    cases served_refusing hs
    exact absurd (hflat.symm.trans rfl) (fun h => hk (distinct_eq_nil_iff.mp h))
  | @refused pre c _ _ _ _ hs _ hp =>
    cases served_refusing hs
    exact ⟨c, by rw [hp, List.append_nil]⟩

/-- **A flush, chunk by chunk**: it asks for the addresses of its loads, each once in the order
first asked, in consecutive chunks of one to `maxMultipleAccounts` addresses, `⌈n / 100⌉` of
them for `n` addresses; the script answering at once, the chunks are asked one after another, and
the flush either serves every load from the chunk answers at their lowest slot, or stops at the
first chunk refused and answers every load with its error. -/
theorem flush_requests_chunks (keys : List Pubkey) (asked : List (List Pubkey)) :
    distinct keys = keys.eraseDups ∧
      (chunksOf maxMultipleAccounts (distinct keys)).flatten = distinct keys ∧
      (∀ c ∈ chunksOf maxMultipleAccounts (distinct keys),
        0 < c.length ∧ c.length ≤ maxMultipleAccounts) ∧
      (chunksOf maxMultipleAccounts (distinct keys)).length =
        ((distinct keys).length + maxMultipleAccounts - 1) / maxMultipleAccounts ∧
      FlushEnd respond keys asked (chunksOf maxMultipleAccounts (distinct keys))
        ((flush (scriptLedger respond) keys).run asked) :=
  ⟨distinct_eq_eraseDups keys, flatten_chunksOf _ (by decide) _,
    length_mem_chunksOf (by decide) _, length_chunksOf (by decide) _,
    flush_script respond keys asked⟩

/-- Against the script answering later, a load asks every chunk and meets what asking one after
another meets. -/
theorem loadMany_pending (keys : List Pubkey) (asked : List (List Pubkey)) :
    (loadMany (pendingLedger respond) keys).run.run asked =
      (((loadMany (scriptLedger respond) keys).run.run asked).1,
        asked ++ chunksOf maxMultipleAccounts keys) := by
  unfold loadMany
  by_cases hnil : keys.isEmpty = true
  · rw [List.isEmpty_iff.mp hnil]
    show _ = (_, asked ++ [])
    rw [List.append_nil]
    rfl
  simp only [hnil, Bool.false_eq_true, ↓reduceIte]
  rw [readChunks_of_answersAtOnce (rfl : (scriptLedger respond).answersAtOnce = true)]
  have hpending : readChunks (pendingLedger respond) (chunksOf maxMultipleAccounts keys) =
      ExceptT.mk (do
        let answers ← (chunksOf maxMultipleAccounts keys).mapM fun c =>
          (readChunk (pendingLedger respond) c).run
        pure (answers.mapM id)) := if_neg Bool.false_ne_true
  rw [hpending, ExceptT.run_bind, ExceptT.run_bind, ExceptT.run_mk, run_bind_pair, run_bind_pair,
    run_bind_pair]
  obtain ⟨hasked, hjoin⟩ :=
    mapM_readChunk_pending respond (chunksOf maxMultipleAccounts keys) asked
  rw [run_pure_pair, hjoin, hasked]
  generalize ((chunksOf maxMultipleAccounts keys).mapM (readChunk (scriptLedger respond))).run.run
    asked = q
  cases q.1 <;> rfl

/-- **Against a ledger that answers later, a flush asks every chunk**, each once and in order, and
answers its loads as against one that answers at once. -/
theorem flush_pending (keys : List Pubkey) (asked : List (List Pubkey)) :
    (flush (pendingLedger respond) keys).run asked =
      (((flush (scriptLedger respond) keys).run asked).1,
        asked ++ chunksOf maxMultipleAccounts (distinct keys)) := by
  unfold flush
  rw [run_bind_pair, run_bind_pair, loadMany_pending]
  cases ((loadMany (scriptLedger respond) (distinct keys)).run.run asked).1 <;> rfl

end Flush

/-- A run of 101 addresses that differ in their last byte. -/
def spreadKeys : List Pubkey :=
  (List.range 101).map fun i => Pubkey.ofBytes (1 :: List.replicate 30 0 ++ [UInt8.ofNat i])

theorem nodup_spreadKeys : spreadKeys.Nodup := by
  unfold spreadKeys
  refine List.pairwise_map.mpr (List.nodup_range.imp_of_mem fun {a b} ha hb hne heq => hne ?_)
  have hlast := congrArg (fun k : Pubkey => k.bytes[31]?) heq
  simp only [Pubkey.ofBytes, fitBytes] at hlast
  have hbyte : UInt8.ofNat a = UInt8.ofNat b := by simpa using hlast
  have hmod : a % 256 = b % 256 := by simpa using congrArg UInt8.toNat hbyte
  simp only [List.mem_range] at ha hb
  omega

/-- **A refused chunk ends the flush**: against a ledger that refuses every request, a flush of
101 distinct addresses, two chunks, asks for the first chunk only. -/
theorem flush_refused_asks_one_chunk :
    (chunksOf maxMultipleAccounts (distinct spreadKeys)).length = 2 ∧
      ((flush (scriptLedger fun _ _ => .error (.client (.rpc "connection refused"))) spreadKeys).run
        []).2.length = 1 := by
  have hd := distinct_of_nodup nodup_spreadKeys
  refine ⟨?_, ?_⟩
  · rw [length_chunksOf (by decide), hd]
    rfl
  · obtain ⟨c, hc⟩ := asked_flush_refusing (.client (.rpc "connection refused"))
      (show spreadKeys ≠ [] by simp [spreadKeys]) []
    rw [hc]
    rfl

-- against a ledger that answers later, the same flush asks both chunks
example :
    ((flush (pendingLedger fun _ _ => .error (.client (.rpc "connection refused"))) spreadKeys).run
      []).2.length = 2 := by
  rw [flush_pending, List.nil_append, distinct_of_nodup nodup_spreadKeys,
    length_chunksOf (by decide)]
  rfl

end Loader

end PerpClient
