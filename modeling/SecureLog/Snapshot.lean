import SecureLog.Detection

/- The verifiers against an `Append` in flight (`verifier.go`).

   Each verifier makes two calls on the store: it drains `Iter` and then calls
   `Tail()`. Each call is atomic under the store's lock, but nothing holds the
   store still between them, so an `Append` of the logger can land in between.
   `verifyToTailAcross` is the verifiers' body with `Iter` read on one store state
   and `Tail` on another; on a single state it is `verifyToTail` by definition.

   On an honest store, a verifier resuming at a checkpoint replays the records
   after it and ends at the logger's tag, or at zero when no record follows
   (`replay_from_checkpoint`). An `Append` that lands between the two calls moves
   the tail to a tag that is neither (the chain's tags never repeat, by chain
   binding), so `VerifyAll` and `VerifyFromAnchor` on every held anchor report a
   tag mismatch on a log no one altered (`verifiers_race_with_append`). -/
namespace SecureLog

open scoped UInt64.CommRing

variable {B σ : Type} (P : Primitives B)

/-- The body the verifiers share, with `Iter` drained on the store state `s₁` and
`Tail` read on the state `s₂` the store has reached by then. -/
def verifyToTailAcross (useVerifierChain : Bool) (st : Store σ B) (s₁ s₂ : σ) (idx : UInt64)
    (key tag : B) : Option Error :=
  match st.iter s₁ (idx + 1) with
  | .error err => some err
  | .ok recs =>
    match verifyChain P recs idx key tag useVerifierChain with
    | (_, some err) => some err
    | (final, none) =>
      match st.tail s₂ with
      | .error err => some err
      | .ok none => some (.new "tail state unavailable")
      | .ok (some tail) =>
        if !P.equal final (tailTag useVerifierChain tail) then some .tagMismatch else none

/-- `SemiTrustedVerifier.VerifyFromAnchor(a)` with an `Append` between its two calls. -/
def SemiTrustedVerifier.verifyFromAnchorAcross (st : Store σ B) (s₁ s₂ : σ) (a : Anchor B) :
    Option Error :=
  verifyToTailAcross P true st s₁ s₂ a.index a.key a.tagV

/-- `TrustedVerifier.VerifyAll()` with an `Append` between its two calls. -/
def TrustedVerifier.verifyAllAcross (st : Store σ B) (s₁ s₂ : σ) (initialKeyB0 : B) : Option Error :=
  verifyToTailAcross P false st s₁ s₂ 0 initialKeyB0 P.zero

variable {P}

/-- Over the abstract store, the body with a replay ending at `final` and a tail
`tl` present is the comparison of the two. -/
theorem verifyToTailAcross_spec {c : Bool} {s₁ s₂ : SpecStore B} {idx : UInt64} {key tag final : B}
    {tl : TailState B} (hrep : verifyChain P (s₁.iter (idx + 1)) idx key tag c = (final, none))
    (htl : s₂.tail = some tl) :
    verifyToTailAcross P c SpecStore.store s₁ s₂ idx key tag =
      if P.equal final (tailTag c tl) then none else some .tagMismatch := by
  simp only [verifyToTailAcross, SpecStore.store, hrep, htl]
  cases P.equal final (tailTag c tl) <;> rfl

section Resume

variable {s : SpecStore B} {c : Bool} {seed : B} {t : TailState B}

/-- **The replay from a checkpoint.** On a store whose chain-`c` replay from `seed`
ends at `tailTag c t`, the replay of the records after the first `k`, from the
checkpoint after them, ends at the same tag when records follow, and at zero
otherwise. -/
theorem replay_from_checkpoint
    (hreplay : verifyChain P s.records 0 seed P.zero c = (tailTag c t, none)) {k : ℕ}
    (hk : k ≤ s.records.length) :
    verifyChain P (s.records.drop k) k (P.fwdKeyN k seed)
        (verifyChain P (s.records.take k) 0 seed P.zero c).1 c =
      (if k < s.records.length then tailTag c t else P.zero, none) := by
  have hsplit : verifyLoop P c (s.records.take k ++ s.records.drop k) seed P.zero 0 P.zero =
      (tailTag c t, none) := by rw [List.take_append_drop]; exact hreplay
  obtain ⟨t', ht'⟩ := verifyLoop_append_left_ok hsplit
  rw [verifyLoop_append_of_ok _ ht', List.length_take, min_eq_left hk, zero_add] at hsplit
  rw [show (verifyChain P (s.records.take k) 0 seed P.zero c).1 = t' by rw [verifyChain, ht']]
  split_ifs with hlt
  · exact verifyLoop_lastTag P.zero (by simpa using hlt) hsplit
  · rw [List.drop_eq_nil_of_le (by omega)]
    rfl

end Resume

section Race

variable {a0 b0 : B} {l : Logger B} {s : SpecStore B}

/-- Under idealised primitives an append to an honest store moves both tags to
values the chain has not taken: neither the tags before it nor zero. -/
theorem Honest.append_tags_new (hP : Ideal P) (hh : Honest P a0 b0 l s)
    (hlen : s.records.length < 2 ^ 64) (msg : List UInt8) (ts : Time) :
    ∃ en l' s', l.append P SpecStore.store s msg ts = (.ok en, l', s') ∧
      s'.tail = some ⟨l'.i, l'.tagV, l'.tagT⟩ ∧ ∀ c,
        tailTag c ⟨l'.i, l'.tagV, l'.tagT⟩ ≠ tailTag c ⟨l.i, l.tagV, l.tagT⟩ ∧
        tailTag c ⟨l'.i, l'.tagV, l'.tagT⟩ ≠ P.zero := by
  obtain ⟨en, l', s', happ, hh', hlen'⟩ := hh.append_ideal hP hlen msg ts
  have hne : s'.records ≠ [] := List.ne_nil_of_length_pos (by omega)
  refine ⟨en, l', s', happ, hh'.tail_some hne, fun c => ⟨fun htag => ?_, fun hz => ?_⟩⟩
  · -- the old replay would end at the new tag: then it ran over as many records
    have := hh'.replay_length hP ((hh.replay c).trans (by rw [htag]))
    omega
  · cases c
    · exact hne (hh'.tagT_zero.1 hz)
    · exact hne (hh'.tagV_zero.1 hz)

/-- **The verifiers race with `Append`.** Under idealised primitives, on an honest
store of `n` records (`n + 1 < 2^64`) whose anchors are checkpoints, let the
logger's next `Append` land after a verifier drained `Iter` and before it reads
`Tail`. The append succeeds, and `VerifyAll` and `VerifyFromAnchor` on every held
anchor report `ErrTagMismatch`, though no record was altered. -/
theorem verifiers_race_with_append (hP : Ideal P) (hh : Honest P a0 b0 l s)
    (ha : Anchored P a0 b0 s) (hn : s.records.length + 1 < 2 ^ 64) (msg : List UInt8) (ts : Time) :
    (l.append P SpecStore.store s msg ts).1.isOk ∧
    TrustedVerifier.verifyAllAcross P SpecStore.store s (l.append P SpecStore.store s msg ts).2.2 b0 =
      some .tagMismatch ∧
    ∀ a ∈ s.anchors, SemiTrustedVerifier.verifyFromAnchorAcross P SpecStore.store s
      (l.append P SpecStore.store s msg ts).2.2 a = some .tagMismatch := by
  obtain ⟨en, l', s', happ, htl, hnew⟩ := hh.append_tags_new hP (by omega) msg ts
  obtain ⟨hT, hTz⟩ := hnew false
  obtain ⟨hV, hVz⟩ := hnew true
  rw [happ]
  refine ⟨rfl, ?_, fun a hmem => ?_⟩
  · -- `Iter(1)` yields every record, whose replay ends at the old tag
    have hiter : s.iter (0 + 1) = s.records := by
      simpa using SpecStore.iter_succ_of_indices hh.indices (Nat.zero_le _) hn
    have hrep : verifyChain P (s.iter (0 + 1)) 0 b0 P.zero false = _ := hiter ▸ hh.replay false
    rw [TrustedVerifier.verifyAllAcross, verifyToTailAcross_spec hrep htl]
    split_ifs <;> simp_all
  · -- from a held anchor, `Iter` yields the records after its checkpoint
    obtain ⟨k, -, hk, hidx, hkey, hv, -⟩ := ha a hmem
    have hrep := replay_from_checkpoint (hh.replay true) hk
    simp only [Honest.seed, if_true] at hrep
    rw [verifyFrom] at hv
    rw [← SpecStore.iter_succ_of_indices hh.indices hk hn, ← hv, ← hkey, ← hidx] at hrep
    rw [SemiTrustedVerifier.verifyFromAnchorAcross, verifyToTailAcross_spec hrep htl]
    split_ifs <;> simp_all

end Race

/-- A logger with `AnchorEvery = 1` after two appends holds anchors 1 and 2; with a
third append between their two calls, `VerifyAll` and `VerifyFromAnchor` on both
anchors report a tag mismatch. -/
theorem verifiers_race_with_append_two_records :
    Honest symbolic (.seed 0) (.seed 1)
        ((Logger.symbolicNew 1).run symbolic SpecStore.store SpecStore.empty
          [(bytesOf "a", ⟨5⟩), (bytesOf "b", ⟨6⟩)]).2.1
        ((Logger.symbolicNew 1).run symbolic SpecStore.store SpecStore.empty
          [(bytesOf "a", ⟨5⟩), (bytesOf "b", ⟨6⟩)]).2.2 ∧
    Anchored symbolic (.seed 0) (.seed 1)
        ((Logger.symbolicNew 1).run symbolic SpecStore.store SpecStore.empty
          [(bytesOf "a", ⟨5⟩), (bytesOf "b", ⟨6⟩)]).2.2 ∧
    ((Logger.symbolicNew 1).run symbolic SpecStore.store SpecStore.empty
          [(bytesOf "a", ⟨5⟩), (bytesOf "b", ⟨6⟩)]).2.2.records.length + 1 < 2 ^ 64 ∧
    ((((Logger.symbolicNew 1).run symbolic SpecStore.store SpecStore.empty
          [(bytesOf "a", ⟨5⟩), (bytesOf "b", ⟨6⟩)]).2.1.append symbolic SpecStore.store
        ((Logger.symbolicNew 1).run symbolic SpecStore.store SpecStore.empty
          [(bytesOf "a", ⟨5⟩), (bytesOf "b", ⟨6⟩)]).2.2 (bytesOf "c") ⟨7⟩).1.isOk ∧
      TrustedVerifier.verifyAllAcross symbolic SpecStore.store
        ((Logger.symbolicNew 1).run symbolic SpecStore.store SpecStore.empty
          [(bytesOf "a", ⟨5⟩), (bytesOf "b", ⟨6⟩)]).2.2
        (((Logger.symbolicNew 1).run symbolic SpecStore.store SpecStore.empty
          [(bytesOf "a", ⟨5⟩), (bytesOf "b", ⟨6⟩)]).2.1.append symbolic SpecStore.store
          ((Logger.symbolicNew 1).run symbolic SpecStore.store SpecStore.empty
            [(bytesOf "a", ⟨5⟩), (bytesOf "b", ⟨6⟩)]).2.2 (bytesOf "c") ⟨7⟩).2.2 (.seed 1) =
        some .tagMismatch ∧
      ∀ a ∈ ((Logger.symbolicNew 1).run symbolic SpecStore.store SpecStore.empty
          [(bytesOf "a", ⟨5⟩), (bytesOf "b", ⟨6⟩)]).2.2.anchors,
        SemiTrustedVerifier.verifyFromAnchorAcross symbolic SpecStore.store
          ((Logger.symbolicNew 1).run symbolic SpecStore.store SpecStore.empty
            [(bytesOf "a", ⟨5⟩), (bytesOf "b", ⟨6⟩)]).2.2
          (((Logger.symbolicNew 1).run symbolic SpecStore.store SpecStore.empty
            [(bytesOf "a", ⟨5⟩), (bytesOf "b", ⟨6⟩)]).2.1.append symbolic SpecStore.store
            ((Logger.symbolicNew 1).run symbolic SpecStore.store SpecStore.empty
              [(bytesOf "a", ⟨5⟩), (bytesOf "b", ⟨6⟩)]).2.2 (bytesOf "c") ⟨7⟩).2.2 a =
          some .tagMismatch) := by
  obtain ⟨results, l₂, s₂, hrun, hok, hh, hlen⟩ := (honest_new (Logger.symbolicNew_eq 1)).run_ideal
    symbolic_ideal [(bytesOf "a", ⟨5⟩), (bytesOf "b", ⟨6⟩)] (by decide)
  have ha := Anchored.empty.run (honest_new (Logger.symbolicNew_eq 1))
    [(bytesOf "a", ⟨5⟩), (bytesOf "b", ⟨6⟩)] (by rw [hrun]; exact hok)
    (by rw [hrun]; exact hh.records_tags_ne_zero symbolic_ideal)
  rw [hrun] at ha ⊢
  have hn : s₂.records.length + 1 < 2 ^ 64 := by simp [hlen, SpecStore.empty]
  exact ⟨hh, ha, hn, verifiers_race_with_append symbolic_ideal hh ha hn _ _⟩

end SecureLog
