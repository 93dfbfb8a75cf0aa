import SecureLog.Isolation
import SecureLog.Verifier

/- What T hands out and compares besides `FinalVerify` (`part_003`):
   `ReleaseA1` and `DetectDelayedAttack`.

   1. `ReleaseA1(logID)` returns `A_1 = H(A_0)` of the registered commitment.
      `VerifyChain` evolves its key before each record, so `A_1` is the key an
      anchor at index 1 carries: resuming the V-chain at index 1 from `A_1` and
      record 1's `TagV` checks records `2, …, n` (`Honest.resume_at_first`, for
      any primitives), while a replay from the origin started from `A_1` is
      refused at record 1 over hashes that never come back to a key
      (`Honest.replay_from_released_key`). Record 1 itself, the opening entry, is
      checked by no verifier holding only `A_1` (`releaseA1_is_anchor_key`).
   2. `DetectDelayedAttack(logID, vTag, tTag)` is `!hmac.Equal(vTag, tTag)`: it
      compares a tag of the V-chain with one of the T-chain. Both chains MAC the
      same records, one keyed from `A_0` and one from `B_0`. Over the symbolic
      primitives the logger's two tags agree only while no record was written
      or when the two keys agree (`Logger.TagsAgree`, kept by every `Append`
      whatever it returns), so on the logger's tags it reports an attack on every
      log holding a record whose seeds differ
      (`detectDelayedAttack_flags_honest_logs`). -/
namespace SecureLog

variable {B σ : Type}

/-! ## `ReleaseA1` -/

namespace Honest

variable {P : Primitives B} {a0 b0 : B} {l : Logger B} {s : SpecStore B} {r : Record B}
  {rest : List (Record B)}

/-- The first record of an honest store has index 1 and carries the V-chain's
first tag from `A_0`. -/
theorem first_record (hh : Honest P a0 b0 l s) (hs : s.records = r :: rest) :
    r.index = 1 ∧ (chainStep P a0 P.zero r.index r.ts r.msg).2 = r.tagV := by
  have h := hh.replayV
  rw [verifyFrom, verifyChain, hs] at h
  obtain ⟨hi, heq, -⟩ := verifyLoop_cons_eq_ok h
  exact ⟨by rw [hi]; rfl, heq⟩

/-- **Resuming at index 1 from `A_1`.** The semi-trusted verifier holding `H(A_0)`
and record 1's tags as an anchor accepts an honest store of two records or more
(`n + 1 < 2^64`), and reports a tag mismatch when record 1 is the tail. -/
theorem resume_at_first (hh : Honest P a0 b0 l s) (hn : s.records.length + 1 < 2 ^ 64)
    (hs : s.records = r :: rest) :
    SemiTrustedVerifier.verifyFromAnchor P SpecStore.store s ⟨1, P.fwdKey a0, r.tagV, r.tagT⟩ =
      if 1 < s.records.length then none else some .tagMismatch := by
  obtain ⟨hi, heq⟩ := hh.first_record hs
  have hne : s.records ≠ [] := by simp [hs]
  have htag : (verifyChain P (s.records.take 1) 0 a0 P.zero true).1 = r.tagV := by
    rw [hs, List.take_succ_cons, List.take_zero, verifyChain,
      verifyLoop_cons_ok (by rw [hi]; rfl) (show _ = storedTag true r from heq)]
    rfl
  rw [← htag]
  exact verifyToTail_resume hh.indices hn (hh.tail_some hne) hh.replayV
    (fun z => hne (hh.tagV_zero.1 z)) (k := 1) (by simp [hs])

/-- Over the symbolic primitives, a replay from the origin started from `H(A_0)`
is refused at record 1: it MACs record 1 with `A_2`, which is not `A_1`. -/
theorem replay_from_released_key {a0 b0 : Term} {l : Logger Term} {s : SpecStore Term}
    {r : Record Term} {rest : List (Record Term)} (hh : Honest symbolic a0 b0 l s)
    (hs : s.records = r :: rest) :
    (verifyFrom symbolic s.records 0 (symbolic.fwdKey a0) .zero).2 = some .tagMismatch := by
  obtain ⟨hi, heq⟩ := hh.first_record hs
  have hA : symbolic.fwdKey (symbolic.fwdKey a0) ≠ symbolic.fwdKey a0 :=
    Logger.symbolic_fwdKeyN_ne (symbolic.fwdKey a0) (n := 1) Nat.one_pos
  rw [verifyFrom, verifyChain, hs, verifyLoop_cons_mismatch (by rw [hi]; rfl)]
  rw [storedTag, if_pos rfl, ← heq]
  simpa [chainStep, symbolic, Primitives.htag, Primitives.mac] using hA

end Honest

/-- **`ReleaseA1` hands out the key of an anchor at index 1.** Over the symbolic
primitives, take an honest store from the seed `A_0` holding records `1, …, n`
(`n + 1 < 2^64`) and a T holding a commitment for the log with `KeyA0 = A_0`.
`ReleaseA1` returns a key from which resuming the V-chain at index 1 with record
1's tags accepts the store when `n ≥ 2`, and reports a tag mismatch when `n = 1`,
while a replay from the origin started from it is refused at record 1. -/
theorem releaseA1_is_anchor_key {a0 b0 : Term} {l : Logger Term} {s : SpecStore Term}
    (hh : Honest symbolic a0 b0 l s) (hn : s.records.length + 1 < 2 ^ 64) {r : Record Term}
    {rest : List (Record Term)} (hs : s.records = r :: rest) {ts : TrustedServer Term}
    {logID : String} {commit : InitCommitment Term} (hc : ts.commitments logID = some commit)
    (ha : commit.keyA0 = a0) :
    ∃ a1, ts.releaseA1 symbolic logID = .ok a1 ∧
      SemiTrustedVerifier.verifyFromAnchor symbolic SpecStore.store s ⟨1, a1, r.tagV, r.tagT⟩ =
        (if 1 < s.records.length then none else some .tagMismatch) ∧
      (verifyFrom symbolic s.records 0 a1 .zero).2 = some .tagMismatch :=
  ⟨symbolic.fwdKey a0, by simp [TrustedServer.releaseA1, hc, ha, Primitives.fwdKey],
    hh.resume_at_first hn hs, hh.replay_from_released_key hs⟩

/-- Two entries over the symbolic primitives: the key T releases resumes at index 1. -/
theorem releaseA1_is_anchor_key_two_entries :
    ∃ (l : Logger Term) (s : SpecStore Term) (r : Record Term) (rest : List (Record Term)),
      let commit : InitCommitment Term := ⟨"log", ⟨0⟩, .seed 0, .seed 1, 1⟩
      let ts := TrustedServer.new.registerLog commit
      (Honest symbolic (.seed 0) (.seed 1) l s ∧ s.records.length + 1 < 2 ^ 64 ∧
        s.records = r :: rest ∧ ts.commitments "log" = some commit ∧ commit.keyA0 = .seed 0) ∧
      ∃ a1, ts.releaseA1 symbolic "log" = .ok a1 ∧
        SemiTrustedVerifier.verifyFromAnchor symbolic SpecStore.store s ⟨1, a1, r.tagV, r.tagT⟩ =
          (if 1 < s.records.length then none else some .tagMismatch) ∧
        (verifyFrom symbolic s.records 0 a1 .zero).2 = some .tagMismatch := by
  obtain ⟨-, l, s, -, -, hh, hlen⟩ := (honest_new (Logger.symbolicNew_eq 0)).run_ideal symbolic_ideal
    [(bytesOf "a", ⟨5⟩), (bytesOf "b", ⟨6⟩)] (by decide)
  have h2 : s.records.length = 2 := by simpa [SpecStore.empty] using hlen
  obtain ⟨r, rest, hs⟩ := List.exists_cons_of_ne_nil (List.ne_nil_of_length_pos (l := s.records) (by omega))
  have hn : s.records.length + 1 < 2 ^ 64 := by omega
  refine ⟨l, s, r, rest, ?_⟩
  intro commit ts
  have hc : ts.commitments "log" = some commit := by
    simp [ts, commit, TrustedServer.registerLog, TrustedServer.new]
  exact ⟨⟨hh, hn, hs, hc, rfl⟩, releaseA1_is_anchor_key hh hn hs hc rfl⟩

/-! ## `DetectDelayedAttack` -/

/-- `DetectDelayedAttack(_, vTag, tTag)`: `!hmac.Equal(vTag[:], tTag[:])`. -/
def TrustedServer.detectDelayedAttack (P : Primitives B) (_ : String) (vTag tTag : B) : Bool :=
  !P.equal vTag tTag

namespace Logger

/-- Over the symbolic primitives, what the logger's two chains share: both tags are
zero or neither, equal keys give equal tags, and equal tags are zero or come from
equal keys. -/
structure TagsAgree (l : Logger Term) : Prop where
  zero : l.tagV = .zero ↔ l.tagT = .zero
  of_keys : l.keyV = l.keyT → l.tagV = l.tagT
  keys_of : l.tagV = l.tagT → l.tagV = .zero ∨ l.keyV = l.keyT

theorem symbolic_fwdKey_inj {k k' : Term} : symbolic.fwdKey k = symbolic.fwdKey k' ↔ k = k' :=
  ⟨Term.sum.inj, congrArg _⟩

theorem symbolic_fwdKeyN_inj (n : ℕ) {k k' : Term} :
    symbolic.fwdKeyN n k = symbolic.fwdKeyN n k' ↔ k = k' := by
  induction n with
  | zero => rfl
  | succ n ih => rw [Primitives.fwdKeyN_succ', Primitives.fwdKeyN_succ', symbolic_fwdKey_inj, ih]

variable {st : Store σ Term} {l : Logger Term} {s : σ} {msg : List UInt8} {ts : Time}

/-- The two tags one `Append` computes agree exactly when the keys do. -/
theorem tags_eq_iff (hl : TagsAgree l) :
    ((l.advance symbolic).tags symbolic msg ts.UnixNano).1 =
      ((l.advance symbolic).tags symbolic msg ts.UnixNano).2 ↔ l.keyV = l.keyT := by
  unfold tags
  split
  · simp [symbolic, Primitives.htag, Primitives.mac, Primitives.fwdKey]
  · simp only [symbolic, Primitives.fold, Primitives.mac, advance_tagV, advance_tagT, advance_keyV,
      advance_keyT, Primitives.fwdKey, Term.pair.injEq, Term.hmac.injEq, Term.sum.injEq, and_true]
    exact ⟨fun h => h.2, fun h => ⟨hl.of_keys h, h⟩⟩

/-- **Step lemma.** Every `Append`, whatever it returns, keeps `TagsAgree`. -/
theorem TagsAgree.append (hl : TagsAgree l) : TagsAgree (l.append symbolic st s msg ts).2.1 := by
  rcases h : (l.append symbolic st s msg ts).1 with e | en
  · rw [append_error_state h]
    exact ⟨hl.zero, fun hk => hl.of_keys (symbolic_fwdKey_inj.1 hk),
      fun ht => (hl.keys_of ht).imp_right (congrArg _)⟩
  · rw [append_ok_state h]
    have hnz := tags_ne_zero symbolic_ideal (l.advance symbolic) msg ts.UnixNano
    exact ⟨iff_of_false hnz.1 hnz.2, fun hk => (tags_eq_iff hl).2 (symbolic_fwdKey_inj.1 hk),
      fun ht => .inr (congrArg _ ((tags_eq_iff hl).1 ht))⟩

/-- **Run lemma.** -/
theorem TagsAgree.run (hl : TagsAgree l) (ops : List (List UInt8 × Time)) :
    TagsAgree (l.run symbolic st s ops).2.1 := by
  induction ops generalizing l s with
  | nil => exact hl
  | cons op ops ih =>
    obtain ⟨msg, ts⟩ := op
    rw [run_cons]
    exact ih hl.append

/-- Under `TagsAgree` the tags agree exactly when they are zero or the keys agree. -/
theorem TagsAgree.tags_eq_iff (hl : TagsAgree l) :
    l.tagV = l.tagT ↔ l.tagV = .zero ∨ l.keyV = l.keyT :=
  ⟨hl.keys_of, fun h => h.elim (fun hz => hz.trans (hl.zero.1 hz).symm) hl.of_keys⟩

end Logger

/-- **`DetectDelayedAttack` flags every honest log.** Over the symbolic primitives,
from a logger whose tags are zero, as `New` makes it, after any run of `Append`
calls on any store, each successful or not, `DetectDelayedAttack` on the logger's
two tags reports an attack exactly when a record was written (the tags are not
zero) and the seeds `A_0`, `B_0` differ. -/
theorem detectDelayedAttack_flags_honest_logs (st : Store σ Term) (l : Logger Term) (s : σ)
    (ops : List (List UInt8 × Time)) (logID : String) (hz : l.tagV = .zero ∧ l.tagT = .zero) :
    let l' := (l.run symbolic st s ops).2.1
    TrustedServer.detectDelayedAttack symbolic logID l'.tagV l'.tagT = true ↔
      l'.tagV ≠ .zero ∧ l.keyV ≠ l.keyT := by
  intro l'
  have hl : Logger.TagsAgree l' :=
    Logger.TagsAgree.run ⟨by simp [hz], fun _ => hz.1.trans hz.2.symm, fun _ => .inl hz.1⟩ ops
  have hkeys := (Logger.getInitialKeys_run ops : l'.getInitialKeys = _)
  simp only [Logger.getInitialKeys, Prod.mk.injEq] at hkeys
  rw [TrustedServer.detectDelayedAttack, Bool.not_eq_true', Bool.eq_false_iff, Ne,
    Primitives.equal_iff, hl.tags_eq_iff, hkeys.1, hkeys.2, Logger.symbolic_fwdKeyN_inj]
  tauto

/-- One entry from the symbolic seeds `seed 0` and `seed 1`. -/
theorem detectDelayedAttack_flags_honest_logs_one_entry :
    let l := Logger.symbolicNew 0
    let l' := (l.run symbolic SpecStore.store SpecStore.empty [(bytesOf "a", ⟨5⟩)]).2.1
    (l.tagV = .zero ∧ l.tagT = .zero) ∧
      (TrustedServer.detectDelayedAttack symbolic "log" l'.tagV l'.tagT = true ↔
        l'.tagV ≠ .zero ∧ l.keyV ≠ l.keyT) :=
  ⟨⟨rfl, rfl⟩, detectDelayedAttack_flags_honest_logs SpecStore.store (Logger.symbolicNew 0)
    SpecStore.empty [(bytesOf "a", ⟨5⟩)] "log" ⟨rfl, rfl⟩⟩

end SecureLog
