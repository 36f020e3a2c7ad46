import PerpClient.Remaining.Resolver
/-!
# Buckets of remaining accounts, request by request

A bucket is filled by requests, each an address and whether it must be writable. Whatever the
order of the requests, the bucket lists exactly the requested addresses, an entry is writable
exactly when some request for its address was, and no entry is a signer: `Bucket.Tracks`, kept
by every `Bucket.add` (`Bucket.Tracks.add`). A read-only request after a writable one never
takes writability away, and one before it never keeps it away.

The three buckets of a resolution are filled by one list of requests, each naming its bucket
(`Request`). `bucket_foldl_request` splits that list bucket by bucket, so that

* `mem_keys_foldl_request`: a bucket lists exactly the addresses requested of it;
* `isWritable_foldl_request`: an entry is writable exactly when a writable request of its
  bucket named its address;
* `isSigner_foldl_request`: no entry is a signer.
-/

namespace PerpClient

/-! ## 1. The index of a bucket

A bucket records the place of each address it lists. `Bucket.Indexed` says the record is in step
with the list: it pairs each entry's address with the entry's place, in order, and no address
has two entries. Every `Bucket.add` keeps it (`Bucket.Indexed.add`), and through it adding to a
bucket is adding to its list (`Bucket.Indexed.metas_add`): an address already listed has its one
entry made writable if asked to, a new one is appended. -/

namespace Bucket

/-- The index of a bucket is in step with its entries: it pairs the address of each entry with the
entry's place, in order, and no address has two entries. -/
structure Indexed (b : Bucket) : Prop where
  positions_eq : b.positions = (b.metas.map (·.pubkey)).zipIdx
  nodup : (b.metas.map (·.pubkey)).Nodup

theorem indexed_empty : Bucket.empty.Indexed := ⟨rfl, List.nodup_nil⟩

/-- In a numbered list without repeats, the first pair with a key holds the key's only place. -/
theorem find?_zipIdx_eq_some_iff {l : List Pubkey} (hl : l.Nodup) (n i : Nat) (k : Pubkey) :
    ((l.zipIdx n).find? (·.1 = k)).map (·.2) = some i ↔ ∃ j, i = n + j ∧ l[j]? = some k := by
  induction l generalizing n with
  | nil => simp
  | cons a l ih =>
    obtain ⟨ha, hl'⟩ := List.nodup_cons.mp hl
    rw [List.zipIdx_cons, List.find?_cons]
    by_cases hak : a = k
    · subst hak
      simp only [decide_true, Option.map_some, Option.some.injEq]
      constructor
      · rintro rfl
        exact ⟨0, rfl, rfl⟩
      · rintro ⟨j, rfl, hj⟩
        cases j with
        | zero => rfl
        | succ j =>
          have hj' : l[j]? = some a := hj
          exact absurd (List.mem_of_getElem? hj') ha
    · simp only [hak, decide_false]
      rw [ih hl' (n + 1)]
      constructor
      · rintro ⟨j, rfl, hj⟩
        exact ⟨j + 1, by omega, hj⟩
      · rintro ⟨j, rfl, hj⟩
        cases j with
        | zero => exact absurd (Option.some.inj hj) hak
        | succ j => exact ⟨j, by omega, hj⟩

variable {b : Bucket}

/-- Through an index in step, an address has a recorded place exactly where its entry is. -/
theorem Indexed.position?_eq_some_iff (h : b.Indexed) (k : Pubkey) (i : Nat) :
    b.position? k = some i ↔ (b.metas[i]?).map (·.pubkey) = some k := by
  rw [position?, h.positions_eq, find?_zipIdx_eq_some_iff h.nodup 0, ← List.getElem?_map]
  constructor
  · rintro ⟨j, rfl, hj⟩
    rwa [Nat.zero_add]
  · intro hi
    exact ⟨i, (Nat.zero_add i).symm, hi⟩

theorem Indexed.position?_eq_none_iff (h : b.Indexed) (k : Pubkey) :
    b.position? k = none ↔ k ∉ b.metas.map (·.pubkey) := by
  rw [List.mem_iff_getElem?, Option.eq_none_iff_forall_ne_some]
  simp only [ne_eq, h.position?_eq_some_iff, List.getElem?_map, not_exists]

/-- Changing the entry at the one place of an address is changing every entry of that address. -/
theorem modify_eq_map {l : List AccountMeta} (hl : (l.map (·.pubkey)).Nodup) {i : Nat} {k : Pubkey}
    (hi : (l[i]?).map (·.pubkey) = some k) (f : AccountMeta → AccountMeta) :
    l.modify i f = l.map fun m => if m.pubkey = k then f m else m := by
  have hil : i < l.length := by
    cases hget : l[i]? with
    | none =>
      rw [hget] at hi
      cases hi
    | some m => exact (List.getElem?_eq_some_iff.mp hget).1
  apply List.ext_getElem (by simp)
  intro j hj _
  have hj' : j < l.length := by simpa using hj
  rw [List.getElem_modify, List.getElem_map]
  -- the entry at `j` has the address exactly when `j` is its place
  have hkey : l[j].pubkey = k ↔ i = j := by
    rw [← List.getElem?_inj (by simpa using hil) hl, List.getElem?_map, List.getElem?_map, hi]
    simp [List.getElem?_eq_getElem hj', eq_comm]
  by_cases hij : i = j
  · simp [hij, hkey.mpr hij]
  · simp [hij, mt hkey.mp hij]

theorem Indexed.mem_of_position? (h : b.Indexed) {k : Pubkey} {i : Nat}
    (hp : b.position? k = some i) : k ∈ b.metas.map (·.pubkey) :=
  List.mem_iff_getElem?.mpr ⟨i, by rw [List.getElem?_map]; exact (h.position?_eq_some_iff k i).mp hp⟩

/-- Through an index in step, adding to a bucket is adding to its list: an address already listed
has its one entry made writable if asked to, and a new one is appended, writable as asked. -/
theorem Indexed.metas_add (h : b.Indexed) (k : Pubkey) (w : Bool) :
    (b.add k w).metas =
      if k ∈ b.metas.map (·.pubkey) then
        b.metas.map fun m => if m.pubkey = k ∧ w = true then { m with isWritable := true } else m
      else b.metas ++ [⟨k, false, w⟩] := by
  unfold Bucket.add
  cases hp : b.position? k with
  | none =>
    rw [if_neg ((h.position?_eq_none_iff k).mp hp)]
  | some i =>
    rw [if_pos (h.mem_of_position? hp)]
    cases w with
    | false => simp
    | true => simp [modify_eq_map h.nodup ((h.position?_eq_some_iff k i).mp hp)]

theorem Indexed.positions_add (h : b.Indexed) (k : Pubkey) (w : Bool) :
    (b.add k w).positions =
      if k ∈ b.metas.map (·.pubkey) then b.positions
      else b.positions ++ [(k, b.metas.length)] := by
  unfold Bucket.add
  cases hp : b.position? k with
  | none => rw [if_neg ((h.position?_eq_none_iff k).mp hp)]
  | some i =>
    rw [if_pos (h.mem_of_position? hp)]
    cases w <;> rfl

/-- Adding to a bucket lists the address once, at its first place. -/
theorem Indexed.add_keys (h : b.Indexed) (k : Pubkey) (w : Bool) :
    (b.add k w).metas.map (·.pubkey) =
      if k ∈ b.metas.map (·.pubkey) then b.metas.map (·.pubkey)
      else b.metas.map (·.pubkey) ++ [k] := by
  rw [h.metas_add]
  by_cases hk : k ∈ b.metas.map (·.pubkey)
  · rw [if_pos hk, if_pos hk, List.map_map]
    apply List.map_congr_left
    intro m _
    by_cases e : m.pubkey = k ∧ w = true
    · simp [e]
    · simp [e]
  · rw [if_neg hk, if_neg hk, List.map_append]
    rfl

/-- **The step lemma of the index**: adding keeps a bucket's index in step with its entries. -/
theorem Indexed.add (h : b.Indexed) (k : Pubkey) (w : Bool) : (b.add k w).Indexed := by
  constructor
  · rw [h.positions_add, h.add_keys]
    by_cases hk : k ∈ b.metas.map (·.pubkey)
    · rw [if_pos hk, if_pos hk, h.positions_eq]
    · rw [if_neg hk, if_neg hk, h.positions_eq, List.zipIdx_append, List.length_map]
      simp
  · rw [h.add_keys]
    split
    · exact h.nodup
    · rename_i hk
      exact List.nodup_append.mpr ⟨h.nodup, by simp,
        fun a ha b hb e => hk (List.mem_singleton.mp hb ▸ e ▸ ha)⟩

/-- **The run lemma of the index**: after any more additions, a bucket's index is in step. -/
theorem Indexed.foldl (h : b.Indexed) (more : List (Pubkey × Bool)) :
    (more.foldl (fun b e => b.add e.1 e.2) b).Indexed := by
  induction more generalizing b with
  | nil => exact h
  | cons e rest ih => exact ih (h.add e.1 e.2)

theorem mem_keys_add (h : b.Indexed) (k k' : Pubkey) (w : Bool) :
    k' ∈ (b.add k w).metas.map (·.pubkey) ↔ k' ∈ b.metas.map (·.pubkey) ∨ k' = k := by
  rw [h.add_keys]
  by_cases hk : k ∈ b.metas.map (·.pubkey)
  · rw [if_pos hk]
    constructor
    · exact .inl
    · rintro (h | rfl)
      · exact h
      · exact hk
  · rw [if_neg hk, List.mem_append, List.mem_singleton]

end Bucket

/-! ## 2. A bucket and its requests -/

/-- A bucket agrees with the requests made of it: it lists exactly the requested addresses, an
entry is writable exactly when some request for its address was, no entry is a signer, and its
index is in step with its entries. -/
structure Bucket.Tracks (reqs : List (Pubkey × Bool)) (b : Bucket) : Prop where
  mem_keys : ∀ k, k ∈ b.metas.map (·.pubkey) ↔ ∃ w, (k, w) ∈ reqs
  writable : ∀ m ∈ b.metas, m.isWritable = true ↔ (m.pubkey, true) ∈ reqs
  not_signer : ∀ m ∈ b.metas, m.isSigner = false
  indexed : b.Indexed

namespace Bucket

theorem tracks_empty : Tracks [] Bucket.empty :=
  ⟨fun _ => by simp [Bucket.empty], (fun _ hm => nomatch hm), (fun _ hm => nomatch hm),
    indexed_empty⟩

/-- **The step lemma**: adding an address keeps a bucket in agreement with its requests. -/
theorem Tracks.add {reqs : List (Pubkey × Bool)} {b : Bucket} (h : Tracks reqs b)
    (k : Pubkey) (w : Bool) : Tracks (reqs ++ [(k, w)]) (b.add k w) := by
  refine ⟨fun k' => ?_, fun m' hm' => ?_, fun m' hm' => ?_, h.indexed.add k w⟩
  · rw [mem_keys_add h.indexed, h.mem_keys]
    simp only [List.mem_append, List.mem_singleton, Prod.mk.injEq]
    constructor
    · rintro (⟨w', hw'⟩ | rfl)
      · exact ⟨w', .inl hw'⟩
      · exact ⟨w, .inr ⟨rfl, rfl⟩⟩
    · rintro ⟨w', hw' | ⟨rfl, -⟩⟩
      · exact .inl ⟨w', hw'⟩
      · exact .inr rfl
  · rw [h.indexed.metas_add] at hm'
    split at hm'
    · obtain ⟨m, hm, rfl⟩ := List.mem_map.mp hm'
      by_cases hw : m.pubkey = k ∧ w = true
      · obtain ⟨hmk, rfl⟩ := hw
        simp [hmk]
      · rw [if_neg hw, List.mem_append, h.writable m hm, List.mem_singleton]
        constructor
        · exact .inl
        · rintro (h' | h')
          · exact h'
          · simp only [Prod.mk.injEq] at h'
            exact absurd ⟨h'.1, h'.2.symm⟩ hw
    · rename_i hnew
      rcases List.mem_append.mp hm' with hm | hm
      · rw [h.writable m' hm, List.mem_append]
        simp only [List.mem_singleton, Prod.mk.injEq]
        constructor
        · exact .inl
        · rintro (h' | ⟨rfl, -⟩)
          · exact h'
          · exact absurd (List.mem_map.mpr ⟨m', hm, rfl⟩) hnew
      · rw [List.mem_singleton] at hm
        subst hm
        have hk : ∀ w', (k, w') ∉ reqs := fun w' hw' => hnew ((h.mem_keys k).mpr ⟨w', hw'⟩)
        simp [hk]
  · rw [h.indexed.metas_add] at hm'
    split at hm'
    · obtain ⟨m, hm, rfl⟩ := List.mem_map.mp hm'
      split
      · exact h.not_signer m hm
      · exact h.not_signer m hm
    · rcases List.mem_append.mp hm' with hm | hm
      · exact h.not_signer m' hm
      · rw [List.mem_singleton] at hm
        rw [hm]

/-- **The run lemma**: a bucket agrees with its requests after any more of them. -/
theorem Tracks.foldl {reqs : List (Pubkey × Bool)} {b : Bucket} (h : Tracks reqs b)
    (more : List (Pubkey × Bool)) :
    Tracks (reqs ++ more) (more.foldl (fun b e => b.add e.1 e.2) b) := by
  induction more generalizing reqs b with
  | nil => simpa using h
  | cons e rest ih =>
    have h' := ih (h.add e.1 e.2)
    simpa using h'

end Bucket

/-! ## 3. Three buckets filled by one list of requests -/

/-- The bucket a request is for. -/
inductive BucketKind where
  | oracle
  | spot
  | perp
  deriving DecidableEq

/-- A request of the resolver: an address for one bucket, read-only or writable. -/
structure Request where
  kind : BucketKind
  key : Pubkey
  writable : Bool
  deriving DecidableEq

/-- The requests of a list made of the bucket of kind `t`, in order. -/
def Request.forKind (t : BucketKind) (qs : List Request) : List (Pubkey × Bool) :=
  (qs.filter (·.kind = t)).map fun q => (q.key, q.writable)

theorem Request.mem_forKind (t : BucketKind) (qs : List Request) (k : Pubkey) (w : Bool) :
    (k, w) ∈ forKind t qs ↔ ⟨t, k, w⟩ ∈ qs := by
  simp only [forKind, List.mem_map, List.mem_filter, decide_eq_true_eq, Prod.mk.injEq]
  constructor
  · rintro ⟨⟨t', k', w'⟩, ⟨hq, rfl⟩, rfl, rfl⟩
    exact hq
  · intro hq
    exact ⟨⟨t, k, w⟩, ⟨hq, rfl⟩, rfl, rfl⟩

namespace Buckets

/-- The bucket of a kind. -/
def bucket (b : Buckets) : BucketKind → Bucket
  | .oracle => b.oracles
  | .spot => b.spotMarkets
  | .perp => b.perpMarkets

/-- Adds a request's address to its bucket. -/
def request (b : Buckets) (q : Request) : Buckets :=
  match q.kind with
  | .oracle => { b with oracles := b.oracles.add q.key q.writable }
  | .spot => { b with spotMarkets := b.spotMarkets.add q.key q.writable }
  | .perp => { b with perpMarkets := b.perpMarkets.add q.key q.writable }

theorem bucket_request (b : Buckets) (q : Request) (t : BucketKind) :
    (b.request q).bucket t =
      if q.kind = t then (b.bucket t).add q.key q.writable else b.bucket t := by
  obtain ⟨kind, key, w⟩ := q
  cases kind <;> cases t <;> rfl

/-- A list of requests fills each bucket with the requests of its kind, in order. -/
theorem bucket_foldl_request (qs : List Request) (b : Buckets) (t : BucketKind) :
    (qs.foldl request b).bucket t =
      (Request.forKind t qs).foldl (fun b e => b.add e.1 e.2) (b.bucket t) := by
  induction qs generalizing b with
  | nil => rfl
  | cons q rest ih =>
    rw [List.foldl_cons, ih, bucket_request]
    by_cases hq : q.kind = t
    · simp [Request.forKind, hq]
    · simp [Request.forKind, hq]

theorem metas_eq (b : Buckets) :
    b.metas = (b.bucket .oracle).metas ++ (b.bucket .spot).metas ++ (b.bucket .perp).metas := rfl

/-- Each bucket filled by a list of requests agrees with the requests of its kind. -/
theorem tracks_foldl_request (qs : List Request) (t : BucketKind) :
    Bucket.Tracks (Request.forKind t qs) ((qs.foldl request empty).bucket t) := by
  rw [bucket_foldl_request]
  have h := Bucket.tracks_empty.foldl (Request.forKind t qs)
  cases t <;> exact h

/-- A bucket lists exactly the addresses requested of it. -/
theorem mem_keys_foldl_request (qs : List Request) (t : BucketKind) (k : Pubkey) :
    k ∈ ((qs.foldl request empty).bucket t).metas.map (·.pubkey) ↔
      ∃ w, ⟨t, k, w⟩ ∈ qs := by
  rw [(tracks_foldl_request qs t).mem_keys]
  simp only [Request.mem_forKind]

/-- An entry is writable exactly when a writable request of its bucket named its address. -/
theorem isWritable_foldl_request (qs : List Request) (t : BucketKind) (m : AccountMeta)
    (hm : m ∈ ((qs.foldl request empty).bucket t).metas) :
    m.isWritable = true ↔ ⟨t, m.pubkey, true⟩ ∈ qs := by
  rw [(tracks_foldl_request qs t).writable m hm, Request.mem_forKind]

/-- The buckets list exactly the requested addresses. -/
theorem mem_keys_metas_foldl_request (qs : List Request) (k : Pubkey) :
    k ∈ (qs.foldl request empty).metas.map (·.pubkey) ↔ ∃ q ∈ qs, q.key = k := by
  simp only [metas_eq, List.map_append, List.mem_append, mem_keys_foldl_request]
  constructor
  · rintro ((⟨w, hq⟩ | ⟨w, hq⟩) | ⟨w, hq⟩) <;> exact ⟨_, hq, rfl⟩
  · rintro ⟨⟨t, k', w⟩, hq, rfl⟩
    cases t
    · exact .inl (.inl ⟨w, hq⟩)
    · exact .inl (.inr ⟨w, hq⟩)
    · exact .inr ⟨w, hq⟩

/-- No entry of the buckets is a signer. -/
theorem isSigner_foldl_request (qs : List Request) :
    ∀ m ∈ (qs.foldl request empty).metas, m.isSigner = false := by
  intro m hm
  simp only [metas_eq, List.mem_append] at hm
  rcases hm with (hm | hm) | hm
  · exact (tracks_foldl_request qs .oracle).not_signer m hm
  · exact (tracks_foldl_request qs .spot).not_signer m hm
  · exact (tracks_foldl_request qs .perp).not_signer m hm

end Buckets

end PerpClient
