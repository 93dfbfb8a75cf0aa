import SecureLog.Detection

/- Rewriting and splicing the log, and what the two chains say of it
   (`verifier.go`, `part_006`; the anchors `Append` writes, `example_protobuf.go`).

   An anchor carries the V-chain key `A_k` in clear, beside the V tag after record
   `k`. Whoever reads the store can therefore rewrite every record after the
   anchor: give it a new message and the V tag a replay from the anchor computes
   (`forgeFrom`), and set the tail's `TagV` to the last of them (`forgeAfter`).
   The T tags stay as they were, since no key of the T-chain is in the store.

   1. The V-chain replay from the anchor accepts the rewritten records, whatever
      the new messages (`verifyLoop_forgeFrom`), so
      `SemiTrustedVerifier.VerifyFromAnchor` accepts the rewritten store.
   2. Under idealised primitives the T-chain replay from `B_0` reaches the first
      record whose message changed with that record's old T tag, and stops there
      (`verifyLoop_forgeFrom_trusted`), so `TrustedVerifier.VerifyAll` reports
      `ErrTagMismatch` (`anchor_lets_store_reader_rewrite_log`).
   3. Without rewriting tags, whoever writes the store can still splice the
      logger's own records: leave some out, repeat or reorder them. Unless the
      result is a prefix, the replay passes the common prefix and meets a record
      whose index is not the next one (`verifyChain_splice_gap`), so both
      verifiers report `ErrGap`, whatever the primitives
      (`splice_reported_as_gap`). -/
namespace SecureLog

open scoped UInt64.CommRing

variable {B : Type} (P : Primitives B)

/-- The rewrite, by someone who read the store, of the records after a checkpoint
`(key, prev)`: each record takes the next message of `msgs` and the V tag a replay
from the checkpoint computes; its index, timestamp and T tag stay. -/
def forgeFrom : B → B → List (Record B) → List (List UInt8) → List (Record B)
  | key, prev, r :: rs, m :: ms =>
    let step := chainStep P key prev r.index r.ts m
    { r with msg := m, tagV := step.2 } :: forgeFrom step.1 step.2 rs ms
  | _, _, rs, _ => rs

/-- The store after the rewrite from anchor `a`: the records up to the anchor stay,
the later ones are rewritten with `msgs`, and the tail's `TagV` is the last V tag
written. -/
def forgeAfter (s : SpecStore B) (a : Anchor B) (msgs : List (List UInt8)) : SpecStore B :=
  let post := forgeFrom P a.key a.tagV (s.records.drop a.index.toNat) msgs
  ⟨s.records.take a.index.toNat ++ post, s.anchors,
    s.tail.map fun t => { t with tagV := (post.getLast?.map Record.tagV).getD a.tagV }⟩

/-- Records carrying the indices `expect + 1, expect + 2, …` in order. -/
def IndicesFrom : UInt64 → List (Record B) → Prop
  | _, [] => True
  | e, r :: rs => r.index = e + 1 ∧ IndicesFrom (e + 1) rs

variable {P}

/-! ## What the rewrite keeps -/

section Forge

variable {key prev : B} {rs : List (Record B)} {ms : List (List UInt8)}

theorem map_index_forgeFrom (key prev : B) (rs : List (Record B)) (ms : List (List UInt8)) :
    (forgeFrom P key prev rs ms).map Record.index = rs.map Record.index := by
  induction rs generalizing key prev ms with
  | nil => cases ms <;> rfl
  | cons r rs ih =>
    cases ms with
    | nil => rfl
    | cons m ms => simp [forgeFrom, ih]

theorem map_msg_forgeFrom (key prev : B) (rs : List (Record B)) (ms : List (List UInt8))
    (hlen : ms.length = rs.length) : (forgeFrom P key prev rs ms).map Record.msg = ms := by
  induction rs generalizing key prev ms with
  | nil => cases ms <;> simp_all [forgeFrom]
  | cons r rs ih =>
    cases ms with
    | nil => simp at hlen
    | cons m ms => simp [forgeFrom, ih _ _ _ (by simpa using hlen)]

/-- A replay that passed a list of records read their indices in order. -/
theorem indicesFrom_of_verifyLoop {c : Bool} {expect : UInt64} {lastTag t : B}
    (h : verifyLoop P c rs key prev expect lastTag = (t, none)) : IndicesFrom expect rs := by
  induction rs generalizing key prev expect lastTag with
  | nil => trivial
  | cons r rs ih =>
    obtain ⟨hi, -, h⟩ := verifyLoop_cons_eq_ok h
    exact ⟨hi, ih h⟩

/-- A replay that passed a list of records passed the first `k` of them, and resumes
from the state it reached there over the rest. -/
theorem verifyLoop_take_drop {c : Bool} {expect : UInt64} {t : B} {k : ℕ} (hk : k ≤ rs.length)
    (h : verifyLoop P c rs key prev expect prev = (t, none)) :
    ∃ t', verifyLoop P c (rs.take k) key prev expect prev = (t', none) ∧
      verifyLoop P c (rs.drop k) (P.fwdKeyN k key) t' (expect + (k : UInt64)) t' = (t, none) := by
  rw [← List.take_append_drop k rs] at h
  obtain ⟨t', ht'⟩ := verifyLoop_append_left_ok h
  rw [verifyLoop_append_of_ok _ ht', List.length_take, min_eq_left hk] at h
  exact ⟨t', ht', h⟩

/-! ## The two chains over the rewrite -/

/-- **The V-chain accepts the rewrite.** A replay from the checkpoint over the
rewritten records passes each of them and ends at the last V tag written. -/
theorem verifyLoop_forgeFrom {expect : UInt64} (lastTag : B) (hidx : IndicesFrom expect rs)
    (hlen : ms.length = rs.length) :
    verifyLoop P true (forgeFrom P key prev rs ms) key prev expect lastTag =
      (((forgeFrom P key prev rs ms).getLast?.map Record.tagV).getD lastTag, none) := by
  induction rs generalizing key prev ms expect lastTag with
  | nil => cases ms <;> rfl
  | cons r rs ih =>
    cases ms with
    | nil => simp at hlen
    | cons m ms =>
      rw [forgeFrom, verifyLoop_cons_ok (by exact hidx.1) (by rfl)]
      show verifyLoop P true (forgeFrom P _ _ rs ms) (chainStep P key prev r.index r.ts m).1
        (chainStep P key prev r.index r.ts m).2 (expect + 1) (chainStep P key prev r.index r.ts m).2 = _
      rw [ih _ hidx.2 (by simpa using hlen)]
      cases h : (forgeFrom P _ _ rs ms).getLast? <;> simp [h, List.getLast?_cons]

/-- **The T-chain refuses the rewrite.** Under idealised primitives, from a state
where the old records replay on the T-chain, the rewritten ones stop at the first
record whose message changed, with a tag mismatch. -/
theorem verifyLoop_forgeFrom_trusted (hP : Ideal P) (kV pV : B) {expect : UInt64} {lastTag t : B}
    (h : verifyLoop P false rs key prev expect lastTag = (t, none)) (hlen : ms.length = rs.length)
    (hne : ms ≠ rs.map Record.msg) :
    ∃ t', verifyLoop P false (forgeFrom P kV pV rs ms) key prev expect lastTag =
      (t', some .tagMismatch) := by
  induction rs generalizing ms kV pV key prev expect lastTag with
  | nil => exact absurd (List.eq_nil_of_length_eq_zero hlen) hne
  | cons r rs ih =>
    obtain ⟨hi, heq, h⟩ := verifyLoop_cons_eq_ok h
    cases ms with
    | nil => simp at hlen
    | cons m ms =>
      rw [forgeFrom]
      by_cases hm : m = r.msg
      · -- the record is read as before and the replay goes on
        subst hm
        rw [verifyLoop_cons_ok (by exact hi) (by exact heq)]
        exact ih _ _ h (by simpa using hlen) (by simpa using hne)
      · -- the changed message changes the T-chain's MAC
        exact ⟨lastTag, verifyLoop_cons_mismatch hi
          (heq ▸ chainStep_ne_of_input_ne hP (by simp [hm]))⟩

end Forge

/-! ## The verifiers on the rewritten store -/

/-- **An anchor lets whoever reads the store rewrite the log after it.** On a store
an honest logger left, with every anchor a checkpoint and `n + 1 < 2^64` records,
take any anchor and new messages, one for each record after it, not all as before.
After the rewrite from the anchor the log holds the messages up to the anchor
followed by the new ones; `SemiTrustedVerifier.VerifyFromAnchor` on that anchor
accepts it, and under idealised primitives `TrustedVerifier.VerifyAll` reports
`ErrTagMismatch`. -/
theorem anchor_lets_store_reader_rewrite_log (hP : Ideal P) {a0 b0 : B} {l : Logger B}
    {s : SpecStore B} (hh : Honest P a0 b0 l s) (ha : Anchored P a0 b0 s)
    (hn : s.records.length + 1 < 2 ^ 64) {a : Anchor B} (hmem : a ∈ s.anchors)
    (msgs : List (List UInt8)) (hlen : msgs.length = s.records.length - a.index.toNat)
    (hdiff : msgs ≠ (s.records.drop a.index.toNat).map Record.msg) :
    let s' := forgeAfter P s a msgs
    s'.records.map Record.msg = (s.records.take a.index.toNat).map Record.msg ++ msgs ∧
      SemiTrustedVerifier.verifyFromAnchor P SpecStore.store s' a = none ∧
      TrustedVerifier.verifyAll P SpecStore.store s' b0 = some .tagMismatch := by
  intro s'
  obtain ⟨k, -, hk, hidx, -⟩ := ha a hmem
  have hkn : a.index.toNat = k := by rw [hidx, uint64_toNat_natCast]; omega
  rw [hkn] at hlen hdiff ⊢
  have hlenpost : msgs.length = (s.records.drop k).length := by rw [List.length_drop]; exact hlen
  have hlt : k < s.records.length := by
    by_contra hge
    rw [List.drop_eq_nil_of_le (by omega)] at hlenpost hdiff
    exact hdiff (List.eq_nil_of_length_eq_zero hlenpost)
  -- the rewritten records, after the records up to the anchor
  have hrec : s'.records = s.records.take k ++ forgeFrom P a.key a.tagV (s.records.drop k) msgs := by
    simp only [s', forgeAfter, hkn]
  have hmapidx : s'.records.map Record.index = s.records.map Record.index := by
    rw [hrec, List.map_append, map_index_forgeFrom, ← List.map_append, List.take_append_drop]
  have hlen' : s'.records.length = s.records.length := by
    simpa using congrArg List.length hmapidx
  have hidx' : s'.records.map Record.index =
      (List.range s'.records.length).map (fun j => ((j + 1 : ℕ) : UInt64)) := by
    rw [hmapidx, hlen', hh.indices]
  -- the honest replays, split at the anchor
  obtain ⟨_, -, hV⟩ := verifyLoop_take_drop hk hh.replayV
  obtain ⟨tT, htT, hT⟩ := verifyLoop_take_drop hk hh.replayT
  rw [zero_add] at hV hT
  refine ⟨by rw [hrec, List.map_append, map_msg_forgeFrom _ _ _ _ hlenpost], ?_, ?_⟩
  · -- the V-chain from the anchor ends at the tail's new `TagV`
    have hne : forgeFrom P a.key a.tagV (s.records.drop k) msgs ≠ [] := by
      rw [← List.length_pos, ← List.length_map, map_index_forgeFrom, List.length_map,
        List.length_drop]; omega
    have hdrop : s'.records.drop k = forgeFrom P a.key a.tagV (s.records.drop k) msgs := by
      rw [hrec, List.drop_left' (by simp; omega)]
    have hiter := SpecStore.iter_succ_of_indices hidx' (k := k) (by omega) (by omega)
    simp only [SemiTrustedVerifier.verifyFromAnchor, verifyToTail, SpecStore.store, hidx, hiter,
      hdrop, verifyChain, verifyLoop_forgeFrom P.zero (indicesFrom_of_verifyLoop hV) hlenpost,
      List.getLast?_eq_getLast _ hne, Option.map_some', Option.getD_some]
    simp [s', forgeAfter, hkn, hh.tail_some (List.ne_nil_of_length_pos (by omega)),
      List.getLast?_eq_getLast _ hne, tailTag]
  · -- the T-chain from `B_0` stops at the first changed message
    obtain ⟨t', ht'⟩ := verifyLoop_forgeFrom_trusted hP a.key a.tagV hT hlenpost hdiff
    have hiter := SpecStore.iter_succ_of_indices hidx' (k := 0) (Nat.zero_le _) (by omega)
    rw [Nat.cast_zero, List.drop_zero] at hiter
    simp only [TrustedVerifier.verifyAll, verifyToTail, SpecStore.store, hiter, verifyChain, hrec]
    rw [verifyLoop_append_of_ok _ htT, List.length_take, min_eq_left hk, zero_add, ht']

/-- Two entries over the symbolic primitives with an anchor after each; the second
entry is rewritten from the anchor at index 1. -/
theorem anchor_lets_store_reader_rewrite_log_two_entries :
    ∃ (l : Logger Term) (s : SpecStore Term) (a : Anchor Term),
      (Honest symbolic (.seed 0) (.seed 1) l s ∧ Anchored symbolic (.seed 0) (.seed 1) s ∧
        s.records.length + 1 < 2 ^ 64 ∧ a ∈ s.anchors ∧
        [bytesOf "forged"].length = s.records.length - a.index.toNat ∧
        [bytesOf "forged"] ≠ (s.records.drop a.index.toNat).map Record.msg) ∧
      let s' := forgeAfter symbolic s a [bytesOf "forged"]
      s'.records.map Record.msg = (s.records.take a.index.toNat).map Record.msg ++ [bytesOf "forged"] ∧
        SemiTrustedVerifier.verifyFromAnchor symbolic SpecStore.store s' a = none ∧
        TrustedVerifier.verifyAll symbolic SpecStore.store s' (.seed 1) = some .tagMismatch := by
  have h₀ := honest_new (Logger.symbolicNew_eq 1)
  obtain ⟨results, l, s, hrun, hok, hh, -⟩ :=
    h₀.run_ideal symbolic_ideal [(bytesOf "a", ⟨5⟩), (bytesOf "b", ⟨6⟩)] (by decide)
  have ha : Anchored symbolic (.seed 0) (.seed 1) s := by
    have h := Anchored.run h₀ Anchored.empty [(bytesOf "a", ⟨5⟩), (bytesOf "b", ⟨6⟩)]
      (by rw [hrun]; exact hok) (by rw [hrun]; exact hh.records_tags_ne_zero symbolic_ideal)
    rwa [hrun] at h
  have hs : s = ((Logger.symbolicNew 1).run symbolic SpecStore.store SpecStore.empty
      [(bytesOf "a", ⟨5⟩), (bytesOf "b", ⟨6⟩)]).2.2 := by rw [hrun]
  obtain ⟨a, as, hA⟩ : ∃ a as, s.anchors = a :: as := by rw [hs]; exact ⟨_, _, rfl⟩
  have hfirst : a.index.toNat = 1 := by
    have h : s.anchors.head?.map (fun a => a.index.toNat) = some 1 := by rw [hs]; decide
    simpa [hA] using h
  have hmem : a ∈ s.anchors := hA ▸ List.mem_cons_self a as
  have hlen : [bytesOf "forged"].length = s.records.length - a.index.toNat := by
    rw [hfirst, hs]; decide
  have hdiff : [bytesOf "forged"] ≠ (s.records.drop a.index.toNat).map Record.msg := by
    rw [hfirst, hs]; decide
  have hn : s.records.length + 1 < 2 ^ 64 := by rw [hs]; decide
  exact ⟨l, s, a, ⟨hh, ha, hn, hmem, hlen, hdiff⟩,
    anchor_lets_store_reader_rewrite_log symbolic_ideal hh ha hn hmem _ hlen hdiff⟩

/-! ## Splicing the log -/

/-- A list that is not a prefix of `xs` leaves it after a common prefix: it is the
first `j` elements of `xs` followed by an element other than `xs`'s `j`-th. -/
theorem exists_take_append_of_not_prefix {α : Type} {rs xs : List α} (h : ¬ rs <+: xs) :
    ∃ j x rest, j ≤ xs.length ∧ rs = xs.take j ++ x :: rest ∧ xs[j]? ≠ some x := by
  induction rs generalizing xs with
  | nil => exact absurd List.nil_prefix h
  | cons y ys ih =>
    cases xs with
    | nil => exact ⟨0, y, ys, le_rfl, rfl, by simp⟩
    | cons z zs =>
      by_cases hyz : y = z
      · subst hyz
        obtain ⟨j, x, rest, hj, hrs, hx⟩ := ih (mt (List.prefix_cons_inj y).2 h)
        exact ⟨j + 1, x, rest, by simpa using hj, by simp [hrs], by simpa using hx⟩
      · exact ⟨0, y, ys, Nat.zero_le _, rfl, by simp [Ne.symm hyz]⟩

/-- **Step of a splice.** Over records carrying the indices `1, …, n` that replay from
the origin under key `k`, a replay of the first `j` of them followed by one of them
other than the `j`-th reports a gap at that record. -/
theorem verifyChain_splice_gap {rs : List (Record B)}
    (hidx : rs.map Record.index = (List.range rs.length).map (fun j => ((j + 1 : ℕ) : UInt64)))
    (hn : rs.length + 1 < 2 ^ 64) {c : Bool} {k t₀ : B} (hk : verifyChain P rs 0 k P.zero c = (t₀, none))
    {j : ℕ} (hj : j ≤ rs.length) {x : Record B} (hx : x ∈ rs) (hxj : rs[j]? ≠ some x)
    (rest : List (Record B)) :
    ∃ t, verifyChain P (rs.take j ++ x :: rest) 0 k P.zero c = (t, some .gap) := by
  obtain ⟨t, ht, -⟩ := verifyLoop_take_drop hj hk
  obtain ⟨i, hi, rfl⟩ := List.getElem_of_mem hx
  have hij : i ≠ j := by
    rintro rfl
    exact hxj (List.getElem?_eq_getElem hi)
  refine ⟨t, ?_⟩
  rw [verifyChain, verifyLoop_append_of_ok _ ht, List.length_take, min_eq_left hj, zero_add,
    verifyLoop_cons_gap]
  rw [SpecStore.index_getElem_of_indices hidx i hi, Ne, uint64_eq_iff, uint64_toNat_natCast,
    uint64_toNat_add, uint64_toNat_natCast, show (1 : UInt64).toNat = 1 from rfl]
  omega

/-- **A spliced log is reported as a gap.** Take an honest store of `n` records
(`n + 1 < 2^64`) and any list of its records, in any order, with any of them left
out or repeated, that is not a prefix of the log (a prefix is a truncation, which
the tail catches). Whatever the primitives, and whatever anchors and tail stand
beside it, `SemiTrustedVerifier.VerifyFromAnchor` from the origin `(0, A_0)` and
`TrustedVerifier.VerifyAll` report `ErrGap` on it. -/
theorem splice_reported_as_gap {a0 b0 : B} {l : Logger B} {s : SpecStore B}
    (hh : Honest P a0 b0 l s) (hn : s.records.length + 1 < 2 ^ 64) {rs : List (Record B)}
    (hmem : ∀ r ∈ rs, r ∈ s.records) (hpre : ¬ rs <+: s.records) (anchors : List (Anchor B))
    (tail : Option (TailState B)) :
    SemiTrustedVerifier.verifyFromAnchor P SpecStore.store ⟨rs, anchors, tail⟩
        ⟨0, a0, P.zero, P.zero⟩ = some .gap ∧
      TrustedVerifier.verifyAll P SpecStore.store ⟨rs, anchors, tail⟩ b0 = some .gap := by
  -- every record of the store has an index from 1 up, so the verifiers read all of `rs`
  have hiter : SpecStore.iter ⟨rs, anchors, tail⟩ 1 = rs := List.filter_eq_self.2 fun r hr => by
    obtain ⟨j, hj, e⟩ := hh.index_mem (hmem r hr)
    rw [e, decide_eq_true_iff, uint64_le_iff, uint64_toNat_natCast,
      show (1 : UInt64).toNat = 1 from rfl]
    omega
  obtain ⟨j, x, rest, hj, rfl, hx⟩ := exists_take_append_of_not_prefix hpre
  have hxmem : x ∈ s.records := hmem x (by simp)
  obtain ⟨tV, hV⟩ := verifyChain_splice_gap hh.indices (by omega) hh.replayV hj hxmem hx rest
  obtain ⟨tT, hT⟩ := verifyChain_splice_gap hh.indices (by omega) hh.replayT hj hxmem hx rest
  simp only [SemiTrustedVerifier.verifyFromAnchor, TrustedVerifier.verifyAll, verifyToTail,
    SpecStore.store, zero_add, hiter, hV, hT, and_self]

/-- Two entries over the symbolic primitives, replayed in the opposite order. -/
theorem splice_reported_as_gap_swapped :
    ∃ (l : Logger Term) (s : SpecStore Term) (rs : List (Record Term)),
      (Honest symbolic (.seed 0) (.seed 1) l s ∧ s.records.length + 1 < 2 ^ 64 ∧
        (∀ r ∈ rs, r ∈ s.records) ∧ ¬ rs <+: s.records) ∧
      SemiTrustedVerifier.verifyFromAnchor symbolic SpecStore.store ⟨rs, [], none⟩
          ⟨0, .seed 0, symbolic.zero, symbolic.zero⟩ = some .gap ∧
        TrustedVerifier.verifyAll symbolic SpecStore.store ⟨rs, [], none⟩ (.seed 1) = some .gap := by
  obtain ⟨results, l, s, hrun, -, hh, -⟩ := (honest_new (Logger.symbolicNew_eq 1)).run_ideal
    symbolic_ideal [(bytesOf "a", ⟨5⟩), (bytesOf "b", ⟨6⟩)] (by decide)
  have hs : s = ((Logger.symbolicNew 1).run symbolic SpecStore.store SpecStore.empty
      [(bytesOf "a", ⟨5⟩), (bytesOf "b", ⟨6⟩)]).2.2 := by rw [hrun]
  have hn : s.records.length + 1 < 2 ^ 64 := by rw [hs]; decide
  have hmem : ∀ r ∈ s.records.reverse, r ∈ s.records := fun _ => List.mem_reverse.1
  have hpre : ¬ s.records.reverse <+: s.records := by rw [hs]; decide
  exact ⟨l, s, s.records.reverse, ⟨hh, hn, hmem, hpre⟩,
    splice_reported_as_gap hh hn hmem hpre [] none⟩

end SecureLog
