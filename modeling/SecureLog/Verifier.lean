import SecureLog.Agreement

/- The verifiers of `verifier.go`: `SemiTrustedVerifier.VerifyFromAnchor`,
   `TrustedVerifier.VerifyAll` and `TrustedVerifier.VerifyFromAnchor`.

   The three share one body, `verifyToTail`: load the records after a start index
   with `Iter`, replay one chain from a start key and tag, and compare the result
   with the tail's tag. Each verifier is that body at its own chain and start.

   `verifyToTail_resume` says what the body does on an honest store of `n`
   records when it resumes at `k ≤ n` from the evolved key and the tag after `k`
   records: it accepts when records follow, and at `k = n` it reports
   `ErrTagMismatch`, because `VerifyChain` over no records returns its zero
   `lastTag`, not the start tag. `Anchored` is the invariant that every anchor
   held is such a checkpoint; with it the two `VerifyFromAnchor`s are
   characterised on every anchor and every `k` (`semiTrusted_verifyFromAnchor`,
   `trusted_verifyFromAnchor`), and so on every logger run from `New`
   (`verifyFromAnchor_after_run`). -/
namespace SecureLog

open scoped UInt64.CommRing

variable {B σ : Type} (P : Primitives B)

/-- The tail's tag a chain is compared with: `TagV` for the verifier chain. -/
def tailTag (useVerifierChain : Bool) (t : TailState B) : B :=
  if useVerifierChain then t.tagV else t.tagT

/-- The body the three verifiers share: load the records after `idx`, replay one
chain from `(idx, key, tag)`, and compare its result with the tail's tag. -/
def verifyToTail (useVerifierChain : Bool) (st : Store σ B) (s : σ) (idx : UInt64) (key tag : B) :
    Option Error :=
  match st.iter s (idx + 1) with
  | .error err => some err
  | .ok recs =>
    match verifyChain P recs idx key tag useVerifierChain with
    | (_, some err) => some err
    | (final, none) =>
      match st.tail s with
      | .error err => some err
      | .ok none => some (.new "tail state unavailable")
      | .ok (some tail) =>
        if !P.equal final (tailTag useVerifierChain tail) then some .tagMismatch else none

/-- `SemiTrustedVerifier.VerifyFromAnchor(a)`: the V-chain from `(A_i, μ_V,i)`. -/
def SemiTrustedVerifier.verifyFromAnchor (st : Store σ B) (s : σ) (a : Anchor B) : Option Error :=
  verifyToTail P true st s a.index a.key a.tagV

/-- `TrustedVerifier.VerifyAll()` of the verifier holding `B_0`: the T-chain from
the origin, over the records from index 1. -/
def TrustedVerifier.verifyAll (st : Store σ B) (s : σ) (initialKeyB0 : B) : Option Error :=
  verifyToTail P false st s 0 initialKeyB0 P.zero

/-- `TrustedVerifier.VerifyFromAnchor(idx, bi, tagT)`: the T-chain from `(B_i, μ_T,i)`. -/
def TrustedVerifier.verifyFromAnchor (st : Store σ B) (s : σ) (idx : UInt64) (bi tagT : B) :
    Option Error :=
  verifyToTail P false st s idx bi tagT

/-! ## Resuming a replay -/

section Resume

variable {P} {s : SpecStore B} {c : Bool} {seed : B} {t : TailState B}

/-- **Resuming at a checkpoint.** On a store holding the indices `1, …, n`, with
`n + 1 < 2^64`, whose chain-`c` replay from `seed` ends at the tail's tag, a
verifier that resumes at `k ≤ n` from `H^k(seed)` and the chain's tag after `k`
records accepts when records follow, and reports a tag mismatch at `k = n`. -/
theorem verifyToTail_resume
    (hidx : s.records.map Record.index =
      (List.range s.records.length).map (fun j => ((j + 1 : ℕ) : UInt64)))
    (hn : s.records.length + 1 < 2 ^ 64) (htail : s.tail = some t)
    (hreplay : verifyChain P s.records 0 seed P.zero c = (tailTag c t, none))
    (hnz : tailTag c t ≠ P.zero) {k : ℕ} (hk : k ≤ s.records.length) :
    verifyToTail P c SpecStore.store s k (P.fwdKeyN k seed)
        (verifyChain P (s.records.take k) 0 seed P.zero c).1 =
      if k < s.records.length then none else some .tagMismatch := by
  have hsplit : verifyLoop P c (s.records.take k ++ s.records.drop k) seed P.zero 0 P.zero =
      (tailTag c t, none) := by rw [List.take_append_drop]; exact hreplay
  obtain ⟨t', ht'⟩ := verifyLoop_append_left_ok hsplit
  rw [verifyLoop_append_of_ok _ ht', List.length_take, min_eq_left hk, zero_add] at hsplit
  have hhead : (verifyChain P (s.records.take k) 0 seed P.zero c).1 = t' := by
    rw [verifyChain, ht']
  rw [hhead, verifyToTail]
  simp only [SpecStore.store, SpecStore.iter_succ_of_indices hidx hk hn, htail]
  split_ifs with hlt
  · -- records follow the checkpoint: the replay ends at the tail's tag
    have hne : s.records.drop k ≠ [] := by simpa using hlt
    simp [verifyChain, verifyLoop_lastTag P.zero hne hsplit]
  · -- the checkpoint is the tail: the replay runs over nothing and returns zero
    rw [List.drop_eq_nil_of_le (by omega), verifyChain_nil]
    simp [Ne.symm hnz]

end Resume

/-! ## Anchors are checkpoints -/

/-- Every anchor held is the checkpoint of a record `k` held: index `k`, the
verifier key evolved `k` times, and both chains' tags after `k` records. -/
def Anchored (P : Primitives B) (a0 b0 : B) (s : SpecStore B) : Prop :=
  ∀ a ∈ s.anchors, ∃ k, 0 < k ∧ k ≤ s.records.length ∧ a.index = k ∧ a.key = P.fwdKeyN k a0 ∧
    a.tagV = (verifyFrom P (s.records.take k) 0 a0 P.zero).1 ∧
    a.tagT = (verifyFromTrusted P (s.records.take k) 0 b0 P.zero).1

namespace Anchored

variable {P} {a0 b0 : B} {l : Logger B} {s : SpecStore B}

theorem empty : Anchored P a0 b0 SpecStore.empty := fun _ h => absurd h (List.not_mem_nil _)

/-- **Step lemma.** A successful append from an honest state keeps every anchor a
checkpoint, the one it adds included. -/
theorem append {msg : List UInt8} {ts : Time} {en : Entry B} (hh : Honest P a0 b0 l s)
    (ha : Anchored P a0 b0 s) (h : (l.append P SpecStore.store s msg ts).1 = .ok en)
    (hV : (Logger.pendingRecord P l msg ts).tagV ≠ P.zero)
    (hT : (Logger.pendingRecord P l msg ts).tagT ≠ P.zero) :
    Anchored P a0 b0 (l.append P SpecStore.store s msg ts).2.2 := by
  have hh' := hh.append h hV hT
  rw [Logger.append_spec_ok h] at hh' ⊢
  intro a hmem
  have hlen : (s.records ++ [Logger.pendingRecord P l msg ts]).length = s.records.length + 1 := by
    simp
  rcases SpecStore.mem_putAnchor hmem with hmem | hnew
  · obtain ⟨k, hk0, hk, hidx, hkey, hv, ht⟩ := ha a hmem
    refine ⟨k, hk0, by rw [hlen]; omega, hidx, hkey, ?_, ?_⟩ <;>
      rw [List.take_append_of_le_length hk] <;> assumption
  · -- the new anchor is the checkpoint of the record just written
    simp only [Logger.pendingAnchor, Logger.anchorFor] at hnew
    split_ifs at hnew
    obtain rfl := Option.some.inj hnew
    refine ⟨s.records.length + 1, Nat.succ_pos _, hlen.ge, ?_, ?_, ?_, ?_⟩
    · simp [hh.index]
    · simp [hh.keyV, P.fwdKeyN_succ']
    · rw [← hlen, List.take_length, hh'.replayV]; rfl
    · rw [← hlen, List.take_length, hh'.replayT]; rfl

/-- **Run lemma.** A run of successful appends from an honest state, with no tag
the zero block, keeps every anchor a checkpoint. -/
theorem run (hh : Honest P a0 b0 l s) (ha : Anchored P a0 b0 s) (ops : List (List UInt8 × Time))
    (hok : ∀ res ∈ (l.run P SpecStore.store s ops).1, res.isOk)
    (hnz : ∀ r ∈ (l.run P SpecStore.store s ops).2.2.records, r.tagV ≠ P.zero ∧ r.tagT ≠ P.zero) :
    Anchored P a0 b0 (l.run P SpecStore.store s ops).2.2 := by
  induction ops generalizing l s with
  | nil => exact ha
  | cons op ops ih =>
    obtain ⟨msg, ts⟩ := op
    obtain ⟨en, hen, hV, hT, hok', hnz'⟩ := Logger.run_first_call hok hnz
    rw [Logger.run_cons]
    exact ih (hh.append hen hV hT) (ha.append hh hen hV hT) hok' hnz'

end Anchored

/-! ## The verifiers on an honest store -/

section Honest

variable {P} {a0 b0 : B} {l : Logger B} {s : SpecStore B}

/-- The tail of a nonempty honest store is the logger's state. -/
theorem Honest.tail_some (hh : Honest P a0 b0 l s) (hne : s.records ≠ []) :
    s.tail = some ⟨l.i, l.tagV, l.tagT⟩ := by
  simp [hh.tail, hne]

/-- **Semi-trusted verification from an anchor.** On an honest store of
`n ≥ 1` records with every anchor a checkpoint (`n + 1 < 2^64`),
`VerifyFromAnchor` accepts every anchor held before the tail and reports
`ErrTagMismatch` on an anchor at the tail. -/
theorem semiTrusted_verifyFromAnchor (hh : Honest P a0 b0 l s) (ha : Anchored P a0 b0 s)
    (hn : s.records.length + 1 < 2 ^ 64) {a : Anchor B} (hmem : a ∈ s.anchors) :
    SemiTrustedVerifier.verifyFromAnchor P SpecStore.store s a =
      if a.index = l.i then some .tagMismatch else none := by
  obtain ⟨k, hk0, hk, hidx, hkey, hv, -⟩ := ha a hmem
  have hne : s.records ≠ [] := fun h => by simp [h] at hk; omega
  have hnz : l.tagV ≠ P.zero := fun z => hne (hh.tagV_zero.1 z)
  have hkn : ((k : UInt64) = (s.records.length : UInt64)) ↔ k = s.records.length := by
    rw [uint64_eq_iff, uint64_toNat_natCast, uint64_toNat_natCast]; omega
  rw [SemiTrustedVerifier.verifyFromAnchor, hidx, hkey, hv, verifyFrom,
    verifyToTail_resume hh.indices hn (hh.tail_some hne) hh.replayV hnz hk, hh.index]
  simp only [hkn]
  split_ifs <;> first | rfl | omega

/-- **Trusted verification from a checkpoint.** On an honest store of `n ≥ 1`
records (`n + 1 < 2^64`), `VerifyFromAnchor(k, B_k, μ_T,k)` accepts for every
`k < n` and reports `ErrTagMismatch` at `k = n`. -/
theorem trusted_verifyFromAnchor (hh : Honest P a0 b0 l s) (hne : s.records ≠ [])
    (hn : s.records.length + 1 < 2 ^ 64) {k : ℕ} (hk : k ≤ s.records.length) :
    TrustedVerifier.verifyFromAnchor P SpecStore.store s k (P.fwdKeyN k b0)
        (verifyFromTrusted P (s.records.take k) 0 b0 P.zero).1 =
      if k < s.records.length then none else some .tagMismatch :=
  verifyToTail_resume hh.indices hn (hh.tail_some hne) hh.replayT
    (fun z => hne (hh.tagT_zero.1 z)) hk

/-- `VerifyAll` accepts a nonempty honest store (`n + 1 < 2^64`). -/
theorem trusted_verifyAll (hh : Honest P a0 b0 l s) (hne : s.records ≠ [])
    (hn : s.records.length + 1 < 2 ^ 64) :
    TrustedVerifier.verifyAll P SpecStore.store s b0 = none := by
  have h := trusted_verifyFromAnchor hh hne hn (Nat.zero_le _)
  rw [if_pos (List.length_pos.2 hne), Nat.cast_zero] at h
  exact h

end Honest

/-- **The verifiers on a logger's run.** A logger made by `New` appends `n ≥ 1`
entries to an empty store, every call succeeding, with no tag the zero block and
`n + 1 < 2^64`. Then `VerifyAll` accepts; `SemiTrustedVerifier.VerifyFromAnchor`
accepts every anchor held before the tail and reports `ErrTagMismatch` on an
anchor at the tail, index `n`; and `TrustedVerifier.VerifyFromAnchor(k, B_k, μ_T,k)`
accepts for every `k < n` and reports `ErrTagMismatch` at `k = n`. -/
theorem verifyFromAnchor_after_run {cfg : Config B} {randV randT : Except Error B}
    {l₀ l : Logger B} {s : SpecStore B} {results : List (Except Error (Entry B))}
    (hnew : Logger.new P cfg randV randT = .ok l₀) (ops : List (List UInt8 × Time))
    (hne : ops ≠ []) (hrun : l₀.run P SpecStore.store SpecStore.empty ops = (results, l, s))
    (hok : ∀ res ∈ results, res.isOk) (hnz : ∀ r ∈ s.records, r.tagV ≠ P.zero ∧ r.tagT ≠ P.zero)
    (hn : ops.length + 1 < 2 ^ 64) :
    TrustedVerifier.verifyAll P SpecStore.store s l₀.keyT = none ∧
    (∀ a ∈ s.anchors, SemiTrustedVerifier.verifyFromAnchor P SpecStore.store s a =
      if a.index = (ops.length : UInt64) then some .tagMismatch else none) ∧
    ∀ k ≤ ops.length, TrustedVerifier.verifyFromAnchor P SpecStore.store s k (P.fwdKeyN k l₀.keyT)
        (verifyFromTrusted P (s.records.take k) 0 l₀.keyT P.zero).1 =
      if k < ops.length then none else some .tagMismatch := by
  obtain ⟨hh, hlen⟩ := honest_of_new_run hnew ops hrun hok hnz
  have ha := Anchored.run (honest_new hnew) Anchored.empty ops (by rw [hrun]; exact hok)
    (by rw [hrun]; exact hnz)
  rw [hrun] at ha
  have hs : s.records ≠ [] := fun h => hne (List.length_eq_zero.1 (by rw [← hlen, h]; rfl))
  rw [← hlen] at hn ⊢
  refine ⟨trusted_verifyAll hh hs hn, fun a hmem => ?_, fun k hk => trusted_verifyFromAnchor hh hs hn hk⟩
  rw [semiTrusted_verifyFromAnchor hh ha hn hmem, hh.index]

set_option maxRecDepth 2000 in
/-- A logger with `AnchorEvery = 1` after one append: the store's anchor at index
1 is at the tail, and both verifiers resuming there report a tag mismatch. -/
theorem verifyFromAnchor_at_tail_mismatch :
    ∃ a, ((Logger.symbolicNew 1).run symbolic SpecStore.store SpecStore.empty
          [(bytesOf "a", ⟨5⟩)]).2.2.anchorAt 1 = some a ∧
      SemiTrustedVerifier.verifyFromAnchor symbolic SpecStore.store
        ((Logger.symbolicNew 1).run symbolic SpecStore.store SpecStore.empty
          [(bytesOf "a", ⟨5⟩)]).2.2 a = some .tagMismatch ∧
      TrustedVerifier.verifyFromAnchor symbolic SpecStore.store
        ((Logger.symbolicNew 1).run symbolic SpecStore.store SpecStore.empty
          [(bytesOf "a", ⟨5⟩)]).2.2 1 (symbolic.fwdKeyN 1 (.seed 1))
        ((Logger.symbolicNew 1).run symbolic SpecStore.store SpecStore.empty
          [(bytesOf "a", ⟨5⟩)]).2.1.tagT = some .tagMismatch := by
  obtain ⟨-, hsemi, htrusted⟩ := verifyFromAnchor_after_run symbolic (Logger.symbolicNew_eq 1)
    [(bytesOf "a", ⟨5⟩)] (List.cons_ne_nil _ _)
    (Prod.mk.eta.symm.trans (congrArg (Prod.mk _) Prod.mk.eta.symm)) (by decide) (by decide)
    (by decide)
  have htag : ((Logger.symbolicNew 1).run symbolic SpecStore.store SpecStore.empty
      [(bytesOf "a", ⟨5⟩)]).2.1.tagT = (verifyFromTrusted symbolic
        (((Logger.symbolicNew 1).run symbolic SpecStore.store SpecStore.empty
          [(bytesOf "a", ⟨5⟩)]).2.2.records.take 1) 0 (Logger.symbolicNew 1).keyT symbolic.zero).1 :=
    rfl
  obtain ⟨a, ha⟩ : ∃ a, ((Logger.symbolicNew 1).run symbolic SpecStore.store SpecStore.empty
      [(bytesOf "a", ⟨5⟩)]).2.2.anchors.find? (fun a => a.index = 1) = some a := ⟨_, rfl⟩
  refine ⟨a, ha, (hsemi a (List.mem_of_find?_eq_some ha)).trans
    (if_pos (by simpa using List.find?_some ha)), ?_⟩
  rw [htag]
  exact (htrusted 1 le_rfl).trans (if_neg (by decide))

end SecureLog
