import SecureLog.Agreement
import SecureLog.Protocol

/- Every honest protocol run passes final verification.

   A logger made by `New` runs `InitProtocol`, then appends, then
   `CloseProtocol`, over the empty abstract store; T registers the commitment
   and the open message and accepts the closure. The run invariant `Honest`
   carries the logger from one phase to the next: the open message holds the
   first record's tags, the close message the last record's, and the T-chain
   replay from `B_0` over the held records ends at the close message's tag.

   T verifies the records the store yields from index 1. Indices are `uint64`,
   so the record after index `2^64 − 1` has index 0: a log of `2^64` records
   or more no longer yields its last record from index 1. `honest_run_final_verifies`
   holds for logs of fewer than `2^64` records; `close_at_index_wrap_not_verified`
   is the run of `2^64 − 2` appends where it fails. -/
namespace SecureLog

open scoped UInt64.CommRing

variable {B : Type} {P : Primitives B}

/-- The facts about an honest protocol run that final verification reads: the
invariant after the opening and after the closing append, the first and the last
record, and the messages. -/
theorem honest_protocol {cfg : Config B} {randV randT : Except Error B}
    {l₀ l₁ l₂ l₃ : Logger B} {s₁ s₂ s₃ : SpecStore B} {commit : InitCommitment B}
    {op : OpenMessage B} {cl : CloseMessage B} {results : List (Except Error (Entry B))}
    {logID : String} {t₀ t₁ : Time} {ops : List (List UInt8 × Time)}
    (hnew : Logger.new P cfg randV randT = .ok l₀)
    (hinit : l₀.initProtocol P SpecStore.store SpecStore.empty logID t₀ = (.ok (commit, op), l₁, s₁))
    (hrun : l₁.run P SpecStore.store s₁ ops = (results, l₂, s₂)) (hok : ∀ res ∈ results, res.isOk)
    (hclose : l₂.closeProtocol P SpecStore.store s₂ logID t₁ = (.ok cl, l₃, s₃))
    (hnz : ∀ r ∈ s₃.records, r.tagV ≠ P.zero ∧ r.tagT ≠ P.zero) :
    ∃ startRec closeRec l₃', s₁.records = [startRec] ∧ s₃.records = s₂.records ++ [closeRec] ∧
      [startRec] <+: s₃.records ∧
      Honest P l₀.keyV l₀.keyT l₁ s₁ ∧ Honest P l₀.keyV l₀.keyT l₂ s₂ ∧
      Honest P l₀.keyV l₀.keyT l₃' s₃ ∧
      startRec.index = 1 ∧ startRec.msg = bytesOf "START" ∧
      closeRec.index = l₃'.i ∧ closeRec.msg = bytesOf "CLOSE" ∧
      commit = ⟨logID, t₀, l₀.keyV, l₀.keyT, Logger.keyUpdateFrequency⟩ ∧
      op = ⟨logID, t₀, 1, l₁.tagV, l₁.tagT⟩ ∧ cl = ⟨logID, t₁, l₃'.i, l₃'.tagV, l₃'.tagT⟩ ∧
      s₂.records.length = ops.length + 1 := by
  obtain ⟨en₁, happ₁, rfl, rfl⟩ := Logger.initProtocol_ok hinit
  obtain ⟨en₃, l₃', happ₃, rfl, rfl⟩ := Logger.closeProtocol_ok hclose
  have ok₁ : (l₀.append P SpecStore.store SpecStore.empty (bytesOf "START") t₀).1 = .ok en₁ := by
    rw [happ₁]
  have ok₃ : (l₂.append P SpecStore.store s₂ (bytesOf "CLOSE") t₁).1 = .ok en₃ := by rw [happ₃]
  have e₁ := Logger.append_spec_ok ok₁
  have e₃ := Logger.append_spec_ok ok₃
  rw [happ₁, Prod.mk.injEq] at e₁
  rw [happ₃, Prod.mk.injEq] at e₃
  set startRec := Logger.pendingRecord P l₀ (bytesOf "START") t₀
  set closeRec := Logger.pendingRecord P l₂ (bytesOf "CLOSE") t₁
  have hr₁ : s₁.records = [startRec] := by rw [e₁.2]; rfl
  have hr₃ : s₃.records = s₂.records ++ [closeRec] := by rw [e₃.2]
  have hpre₂ : s₁.records <+: s₂.records := by
    have h := (Logger.run_keeps_records ops :
      s₁.records <+: (l₁.run P SpecStore.store s₁ ops).2.2.records)
    rwa [hrun] at h
  have hpre₃ : [startRec] <+: s₃.records := by
    rw [hr₃, ← hr₁]; exact hpre₂.trans (List.prefix_append _ _)
  have hmem₂ : ∀ r ∈ s₂.records, r ∈ s₃.records := fun r hr => by
    rw [hr₃]; exact List.mem_append_left _ hr
  have hs := hnz startRec (hpre₃.subset (List.mem_singleton_self _))
  have hc := hnz closeRec (by rw [hr₃]; exact List.mem_append_right _ (List.mem_singleton_self _))
  have hh₁ := (honest_new hnew).append ok₁ hs.1 hs.2
  rw [happ₁] at hh₁
  have hh₂ := hh₁.run ops (by rw [hrun]; exact hok)
    (by rw [hrun]; exact fun r hr => hnz r (hmem₂ r hr))
  rw [hrun] at hh₂
  have hh₃ := hh₂.append ok₃ hc.1 hc.2
  rw [happ₃] at hh₃
  have hi₀ : l₀.i = 0 := by rw [Logger.new_eq_ok hnew]
  have hidx : startRec.index = 1 := by
    show (l₀.advance P).i = 1; rw [Logger.advance_i, hi₀, zero_add]
  have hlen := Logger.run_ok_length ops (by rw [hrun]; exact hok :
    ∀ res ∈ (l₁.run P SpecStore.store s₁ ops).1, res.isOk)
  rw [hrun, hr₁] at hlen
  refine ⟨startRec, closeRec, l₃', hr₁, hr₃, hpre₃, hh₁, hh₂, hh₃, hidx, rfl, ?_, rfl, rfl, ?_, rfl, ?_⟩
  · rw [e₃.1]; rfl
  · rw [Logger.append_ok_entry ok₁]; simp only [OpenMessage.mk.injEq, and_true, true_and]
    exact hidx
  · simpa [Nat.add_comm] using hlen

/-- T accepts the records the store holds after an honest run. -/
theorem final_verify_accepts_held_records {cfg : Config B} {randV randT : Except Error B}
    {l₀ l₁ l₂ l₃ : Logger B} {s₁ s₂ s₃ : SpecStore B} {commit : InitCommitment B}
    {op : OpenMessage B} {cl : CloseMessage B} {results : List (Except Error (Entry B))}
    {logID : String} {t₀ t₁ : Time} {ops : List (List UInt8 × Time)}
    (hnew : Logger.new P cfg randV randT = .ok l₀)
    (hinit : l₀.initProtocol P SpecStore.store SpecStore.empty logID t₀ = (.ok (commit, op), l₁, s₁))
    (hrun : l₁.run P SpecStore.store s₁ ops = (results, l₂, s₂)) (hok : ∀ res ∈ results, res.isOk)
    (hclose : l₂.closeProtocol P SpecStore.store s₂ logID t₁ = (.ok cl, l₃, s₃))
    (hnz : ∀ r ∈ s₃.records, r.tagV ≠ P.zero ∧ r.tagT ≠ P.zero) :
    (((TrustedServer.new.registerLog commit).registerOpen op).acceptClosure cl).2.finalVerify P
      logID s₃.records = none := by
  obtain ⟨startRec, closeRec, l₃', hr₁, hr₃, ⟨rest, hrest⟩, hh₁, -, hh₃, hidx, hmsg, hcidx, hcmsg,
    rfl, rfl, rfl, -⟩ := honest_protocol hnew hinit hrun hok hclose hnz
  have hv := hh₁.replayV
  have ht := hh₁.replayT
  rw [hr₁] at hv ht
  refine TrustedServer.finalVerify_eq_none_iff.2
    ⟨⟨logID, t₀, l₀.keyV, l₀.keyT, Logger.keyUpdateFrequency⟩, ⟨logID, t₀, 1, l₁.tagV, l₁.tagT⟩,
      ⟨logID, t₁, l₃'.i, l₃'.tagV, l₃'.tagT⟩, startRec, rest, ?_, ?_, ?_,
      hrest.symm, hidx, hmsg, hv, ht, ?_, hh₃.replayT⟩
  · simp [TrustedServer.acceptClosure, TrustedServer.registerOpen, TrustedServer.registerLog]
  · simp [TrustedServer.acceptClosure, TrustedServer.registerOpen, TrustedServer.registerLog]
  · simp [TrustedServer.acceptClosure, TrustedServer.registerOpen, TrustedServer.registerLog]
  · exact verifyCloseMessage_eq_none_iff.2 ⟨closeRec, by simp [hr₃], hcidx, hcmsg⟩

/-- `InitProtocol` over the files of a filed design store does what it does over
that store, and leaves a filed store. -/
theorem Logger.initProtocol_fileStore_ofSpec (C : BlockCodec B) {l l' : Logger B}
    {s s' : SpecStore B} {commit : InitCommitment B} {op : OpenMessage B} {logID : String}
    {now : Time} (hs : s.Filed) (hlen : s.records.length + 1 < 2 ^ 64)
    (h : l.initProtocol P SpecStore.store s logID now = (.ok (commit, op), l', s')) :
    l.initProtocol P (fileStore C) (FileStore.ofSpec C s) logID now =
        (.ok (commit, op), l', FileStore.ofSpec C s') ∧ s'.Filed := by
  obtain ⟨en, happ, rfl, rfl⟩ := Logger.initProtocol_ok h
  obtain ⟨hf, hfiled⟩ := Logger.append_fileStore_ofSpec C P l hs hlen (bytesOf "START") now
  rw [happ] at hf hfiled
  exact ⟨Logger.initProtocol_of_append_ok hf, hfiled⟩

/-- `CloseProtocol` over the files of a filed design store does what it does over
that store. -/
theorem Logger.closeProtocol_fileStore_ofSpec (C : BlockCodec B) {l l' : Logger B}
    {s s' : SpecStore B} {cl : CloseMessage B} {logID : String} {now : Time} (hs : s.Filed)
    (hlen : s.records.length + 1 < 2 ^ 64)
    (h : l.closeProtocol P SpecStore.store s logID now = (.ok cl, l', s')) :
    l.closeProtocol P (fileStore C) (FileStore.ofSpec C s) logID now =
      (.ok cl, l', FileStore.ofSpec C s') := by
  obtain ⟨en, l₁, happ, rfl, rfl⟩ := Logger.closeProtocol_ok h
  have hf := (Logger.append_fileStore_ofSpec C P l hs hlen (bytesOf "CLOSE") now).1
  rw [happ] at hf
  exact Logger.closeProtocol_of_append_ok hf

/-- **Every honest protocol run passes final verification**, for logs of fewer
than `2^64` records: T, given the commitment, the open message and the closure,
accepts the records the store yields from index 1. Over the file store, from
empty files, the three phases return the same messages and results and leave the
files of the same stores, whose `Iter(1)`, for messages shorter than `2^32`
bytes, yields the same records. -/
theorem honest_run_final_verifies (C : BlockCodec B) {cfg : Config B} {randV randT : Except Error B}
    {l₀ l₁ l₂ l₃ : Logger B} {s₁ s₂ s₃ : SpecStore B} {commit : InitCommitment B}
    {op : OpenMessage B} {cl : CloseMessage B} {results : List (Except Error (Entry B))}
    (hnew : Logger.new P cfg randV randT = .ok l₀) (logID : String) (t₀ t₁ : Time)
    (ops : List (List UInt8 × Time))
    (hinit : l₀.initProtocol P SpecStore.store SpecStore.empty logID t₀ = (.ok (commit, op), l₁, s₁))
    (hrun : l₁.run P SpecStore.store s₁ ops = (results, l₂, s₂)) (hok : ∀ res ∈ results, res.isOk)
    (hclose : l₂.closeProtocol P SpecStore.store s₂ logID t₁ = (.ok cl, l₃, s₃))
    (hnz : ∀ r ∈ s₃.records, r.tagV ≠ P.zero ∧ r.tagT ≠ P.zero)
    (hsize : ops.length + 2 < 2 ^ 64) :
    (((TrustedServer.new.registerLog commit).registerOpen op).acceptClosure cl).2.finalVerify P
      logID (s₃.iter 1) = none ∧
    l₀.initProtocol P (fileStore C) FileStore.empty logID t₀ =
      (.ok (commit, op), l₁, FileStore.ofSpec C s₁) ∧
    l₁.run P (fileStore C) (FileStore.ofSpec C s₁) ops = (results, l₂, FileStore.ofSpec C s₂) ∧
    l₂.closeProtocol P (fileStore C) (FileStore.ofSpec C s₂) logID t₁ =
      (.ok cl, l₃, FileStore.ofSpec C s₃) ∧
    ((∀ o ∈ ops, o.1.length < 2 ^ 32) →
      (fileStore C).iter (FileStore.ofSpec C s₃) 1 = .ok (s₃.iter 1)) := by
  obtain ⟨_, closeRec, _, hr₁, hr₃, hpre, -, -, hh₃, -, hstart, -, hclose', -, -, -, hlen₂⟩ :=
    honest_protocol hnew hinit hrun hok hclose hnz
  have hverify : (((TrustedServer.new.registerLog commit).registerOpen op).acceptClosure cl).2.finalVerify
      P logID (s₃.iter 1) = none := by
    rw [hh₃.iter_one (by rw [hr₃, List.length_append, hlen₂]; exact hsize)]
    exact final_verify_accepts_held_records hnew hinit hrun hok hclose hnz
  -- the file store steps as the design's store, phase by phase
  obtain ⟨hi, hf₁⟩ := Logger.initProtocol_fileStore_ofSpec C SpecStore.filed_empty
    (by simp [SpecStore.empty]) hinit
  obtain ⟨hr, hf₂⟩ := Logger.run_fileStore_ofSpec C P l₁ hf₁ ops
    (by rw [hr₁, List.length_singleton]; omega)
  rw [hrun] at hr hf₂
  refine ⟨hverify, hi, hr, Logger.closeProtocol_fileStore_ofSpec C hf₂ (by rw [hlen₂]; omega) hclose,
    fun hsmall => fileStore_iter_ofSpec C s₃ ?_ 1⟩
  -- every message held is short: `START`, the appended ones and `CLOSE`
  have h₂ := Logger.run_records_forall (fun r => r.msg.length < 2 ^ 32) ops (P := P) (l := l₁)
    (s := s₁) (by rw [hr₁, List.forall_mem_singleton, hstart]; decide) fun _ => hsmall
  rw [hrun] at h₂
  rw [hr₃]
  exact List.forall_mem_append.2 ⟨h₂, List.forall_mem_singleton.2 (by rw [hclose']; decide)⟩

/-- Under idealised primitives no record of a protocol run carries a zero tag. -/
theorem protocol_records_ne_zero (hP : Ideal P) {l₀ l₁ l₂ l₃ : Logger B}
    {s₁ s₂ s₃ : SpecStore B} {commit : InitCommitment B} {op : OpenMessage B}
    {cl : CloseMessage B} {results : List (Except Error (Entry B))} {logID : String}
    {t₀ t₁ : Time} {ops : List (List UInt8 × Time)}
    (hinit : l₀.initProtocol P SpecStore.store SpecStore.empty logID t₀ = (.ok (commit, op), l₁, s₁))
    (hrun : l₁.run P SpecStore.store s₁ ops = (results, l₂, s₂))
    (hclose : l₂.closeProtocol P SpecStore.store s₂ logID t₁ = (.ok cl, l₃, s₃)) :
    ∀ r ∈ s₃.records, r.tagV ≠ P.zero ∧ r.tagT ≠ P.zero := by
  obtain ⟨en₁, happ₁, -, -⟩ := Logger.initProtocol_ok hinit
  obtain ⟨en₃, l₃', happ₃, -, -⟩ := Logger.closeProtocol_ok hclose
  have h₁ : ∀ r ∈ (l₀.append P SpecStore.store SpecStore.empty (bytesOf "START") t₀).2.2.records,
      r.tagV ≠ P.zero ∧ r.tagT ≠ P.zero :=
    Logger.append_records_ne_zero hP (by simp [SpecStore.empty])
  rw [happ₁] at h₁
  have h₂ : ∀ r ∈ (l₁.run P SpecStore.store s₁ ops).2.2.records, r.tagV ≠ P.zero ∧ r.tagT ≠ P.zero :=
    Logger.run_records_ne_zero hP ops h₁
  rw [hrun] at h₂
  have h₃ : ∀ r ∈ (l₂.append P SpecStore.store s₂ (bytesOf "CLOSE") t₁).2.2.records,
      r.tagV ≠ P.zero ∧ r.tagT ≠ P.zero := Logger.append_records_ne_zero hP h₂
  rwa [happ₃] at h₃

/-- Under idealised primitives an honest protocol run of at most `2^64` records
succeeds at every step, and no record carries a zero tag. -/
theorem protocol_run_succeeds (hP : Ideal P) {cfg : Config B} {randV randT : Except Error B}
    {l₀ : Logger B} (hnew : Logger.new P cfg randV randT = .ok l₀) (logID : String) (t₀ t₁ : Time)
    (ops : List (List UInt8 × Time)) (hsize : ops.length + 2 ≤ 2 ^ 64) :
    ∃ commit op cl results l₁ l₂ l₃ s₁ s₂ s₃,
      l₀.initProtocol P SpecStore.store SpecStore.empty logID t₀ = (.ok (commit, op), l₁, s₁) ∧
      l₁.run P SpecStore.store s₁ ops = (results, l₂, s₂) ∧ (∀ res ∈ results, res.isOk) ∧
      l₂.closeProtocol P SpecStore.store s₂ logID t₁ = (.ok cl, l₃, s₃) ∧
      ∀ r ∈ s₃.records, r.tagV ≠ P.zero ∧ r.tagT ≠ P.zero := by
  obtain ⟨en₁, l₁, s₁, h₁, hh₁, len₁⟩ :=
    (honest_new hnew).append_ideal hP (by simp [SpecStore.empty]) (bytesOf "START") t₀
  simp only [SpecStore.empty, List.length_nil, zero_add] at len₁
  obtain ⟨results, l₂, s₂, h₂, hok, hh₂, len₂⟩ := hh₁.run_ideal hP ops (by omega)
  obtain ⟨en₃, l₃, s₃, h₃, hh₃, -⟩ := hh₂.append_ideal hP (by omega) (bytesOf "CLOSE") t₁
  exact ⟨_, _, _, results, l₁, l₂, _, s₁, s₂, s₃, Logger.initProtocol_of_append_ok h₁, h₂, hok,
    Logger.closeProtocol_of_append_ok h₃, hh₃.records_tags_ne_zero hP⟩

/-- One append between the opening and the closing, by `unitLogger` over the
primitives that return their first argument: every phase succeeds, T accepts
the records, and the file store holds them. -/
theorem honest_run_final_verifies_one_entry :
    ∃ commit op cl results l₁ l₂ l₃ s₁ s₂ s₃,
      unitLogger.initProtocol Block32.firstPrimitives SpecStore.store SpecStore.empty "log" ⟨0⟩ =
        (.ok (commit, op), l₁, s₁) ∧
      l₁.run Block32.firstPrimitives SpecStore.store s₁ [(bytesOf "a", ⟨5⟩)] = (results, l₂, s₂) ∧
      (∀ res ∈ results, res.isOk) ∧
      l₂.closeProtocol Block32.firstPrimitives SpecStore.store s₂ "log" ⟨9⟩ = (.ok cl, l₃, s₃) ∧
      (∀ r ∈ s₃.records, r.tagV ≠ Block32.zero ∧ r.tagT ≠ Block32.zero) ∧
      ((((TrustedServer.new.registerLog commit).registerOpen op).acceptClosure cl).2.finalVerify
          Block32.firstPrimitives "log" (s₃.iter 1) = none ∧
        unitLogger.initProtocol Block32.firstPrimitives (fileStore Block32.codec) FileStore.empty "log"
          ⟨0⟩ = (.ok (commit, op), l₁, FileStore.ofSpec Block32.codec s₁) ∧
        l₁.run Block32.firstPrimitives (fileStore Block32.codec) (FileStore.ofSpec Block32.codec s₁)
          [(bytesOf "a", ⟨5⟩)] = (results, l₂, FileStore.ofSpec Block32.codec s₂) ∧
        l₂.closeProtocol Block32.firstPrimitives (fileStore Block32.codec)
          (FileStore.ofSpec Block32.codec s₂) "log" ⟨9⟩ = (.ok cl, l₃, FileStore.ofSpec Block32.codec s₃) ∧
        ((∀ o ∈ [(bytesOf "a", (⟨5⟩ : Time))], o.1.length < 2 ^ 32) →
          (fileStore Block32.codec).iter (FileStore.ofSpec Block32.codec s₃) 1 = .ok (s₃.iter 1))) := by
  refine ⟨_, _, _, _, _, _, _, _, _, _, rfl, rfl, ?_, rfl, ?_, ?_⟩
  · decide
  · decide
  · exact honest_run_final_verifies Block32.codec
      (show Logger.new Block32.firstPrimitives ⟨1, some Block32.unit, some Block32.unit⟩
        (.ok Block32.zero) (.ok Block32.zero) = .ok unitLogger from rfl) "log" ⟨0⟩ ⟨9⟩ _ rfl rfl
      (by decide) rfl (by decide) (by decide)

/-- A log of `2^64` records: `START`, `2^64 − 2` entries and `CLOSE`. Every phase
succeeds, but the close record's index wraps to 0, the records from index 1 leave
it out, and T refuses the run. -/
theorem close_at_index_wrap_not_verified :
    ∃ commit op cl results l₁ l₂ l₃ s₁ s₂ s₃,
      (Logger.symbolicNew 0).initProtocol symbolic SpecStore.store SpecStore.empty "log" ⟨0⟩ =
        (.ok (commit, op), l₁, s₁) ∧
      l₁.run symbolic SpecStore.store s₁ (List.replicate (2 ^ 64 - 2) (bytesOf "a", ⟨0⟩)) =
        (results, l₂, s₂) ∧
      (∀ res ∈ results, res.isOk) ∧
      l₂.closeProtocol symbolic SpecStore.store s₂ "log" ⟨0⟩ = (.ok cl, l₃, s₃) ∧
      (∀ r ∈ s₃.records, r.tagV ≠ symbolic.zero ∧ r.tagT ≠ symbolic.zero) ∧
      (((TrustedServer.new.registerLog commit).registerOpen op).acceptClosure cl).2.finalVerify
        symbolic "log" (s₃.iter 1) ≠ none := by
  obtain ⟨commit, op, cl, results, l₁, l₂, l₃, s₁, s₂, s₃, hinit, hrun, hok, hclose, hnz⟩ :=
    protocol_run_succeeds symbolic_ideal (Logger.symbolicNew_eq 0) "log" ⟨0⟩ ⟨0⟩
      (List.replicate (2 ^ 64 - 2) (bytesOf "a", ⟨0⟩)) (by rw [List.length_replicate]; omega)
  refine ⟨commit, op, cl, results, l₁, l₂, l₃, s₁, s₂, s₃, hinit, hrun, hok, hclose, hnz, ?_⟩
  obtain ⟨startRec, closeRec, l₃', -, hr₃, -, -, hh₂, hh₃, -, -, hcidx, -, rfl, rfl, rfl, hlen₂⟩ :=
    honest_protocol (Logger.symbolicNew_eq 0) hinit hrun hok hclose hnz
  rw [List.length_replicate] at hlen₂
  -- the close record sits at index `2^64`, which is 0
  have hwrap : closeRec.index = 0 := by
    rw [hcidx, hh₃.index, hr₃, List.length_append, hlen₂, List.length_singleton]
    decide
  have hiter : s₃.iter 1 = s₂.records := by
    rw [SpecStore.iter, hr₃, List.filter_append, ← SpecStore.iter, hh₂.iter_one (by omega)]
    simp [hwrap]
  rw [hiter]
  intro hfin
  obtain ⟨_, _, z, _, _, -, -, hz, -, -, -, -, -, hcm, -⟩ :=
    TrustedServer.finalVerify_eq_none_iff.1 hfin
  simp only [TrustedServer.acceptClosure, TrustedServer.registerOpen, TrustedServer.registerLog,
    TrustedServer.new, if_true, Option.some.injEq] at hz
  subst hz
  obtain ⟨r, hr, hri, -⟩ := verifyCloseMessage_eq_none_iff.1 hcm
  -- the last record before it carries `2^64 − 1`, not the close message's index 0
  dsimp only at hri
  rw [hh₂.last_index hr, hh₂.index, hlen₂, ← hcidx, hwrap] at hri
  exact absurd hri (by decide)

end SecureLog
