import SecureLog.Completeness

/- Final verification binds the log's content, under idealised primitives.

   A T-chain tag is a nested term: `htag` of the first record's MAC, then one
   `fold` per later record. With `htag` and `fold` injective, never zero and with
   disjoint ranges, a tag pins how many records it folds and the MAC of each;
   with `mac(K, ·)` injective, each MAC pins the record's input
   `be64(Index) ‖ be64(TS) ‖ Msg` (`macChunks_inj`). So two replays from the
   same key that end at the same tag ran over the same indices, timestamps,
   messages and stored tags (`verifyLoop_binding`, by induction from the last
   record down).

   `FinalVerify` replays the T-chain from `B_0` and requires the close message's
   tag, which the honest run's records reach: any list T accepts is the honest
   log, record for record (`final_verify_binds_content`). The argument needs no
   bound on the list's length and uses neither the V-chain nor the index checks. -/
namespace SecureLog

variable {B : Type} {P : Primitives B}

/-! ## What a MAC input and a chain step determine -/

/-- Equal MAC inputs have equal index, timestamp and message. -/
theorem macChunks_inj {i i' : UInt64} {ts ts' : Int64} {m m' : List UInt8}
    (h : (macChunks i ts m).flatten = (macChunks i' ts' m').flatten) :
    i = i' ∧ ts = ts' ∧ m = m' := by
  simp only [macChunks, List.flatten_cons, List.flatten_nil, List.append_nil,
    ← List.append_assoc] at h
  obtain ⟨hi, hts, hm⟩ := be64_append_inj h
  exact ⟨hi, congrArg Int64.mk hts, hm⟩

/-- Under idealised primitives one key's MACs of two entries agree only on the
same entry. -/
theorem mac_inj (hP : Ideal P) {k : B} {i i' : UInt64} {ts ts' : Int64} {m m' : List UInt8}
    (h : P.mac k (macChunks i ts m) = P.mac k (macChunks i' ts' m')) :
    i = i' ∧ ts = ts' ∧ m = m' :=
  macChunks_inj (hP.mac_injective k h)

/-- Under idealised primitives two chain steps that yield the same tag came from
the same previous tag and the same MAC. -/
theorem chainStep_tag_inj (hP : Ideal P) {k k' p p' : B} {i i' : UInt64} {ts ts' : Int64}
    {m m' : List UInt8} (h : (chainStep P k p i ts m).2 = (chainStep P k' p' i' ts' m').2) :
    p = p' ∧ P.mac (P.fwdKey k) (macChunks i ts m) = P.mac (P.fwdKey k') (macChunks i' ts' m') := by
  simp only [chainStep] at h
  by_cases hp : p = P.zero <;> by_cases hp' : p' = P.zero
  · rw [if_pos ((P.isZero32_iff _).2 hp), if_pos ((P.isZero32_iff _).2 hp')] at h
    exact ⟨hp.trans hp'.symm, hP.htag_injective h⟩
  · rw [if_pos ((P.isZero32_iff _).2 hp), if_neg (mt (P.isZero32_iff _).1 hp')] at h
    exact absurd h (hP.htag_ne_fold _ _ _)
  · rw [if_neg (mt (P.isZero32_iff _).1 hp), if_pos ((P.isZero32_iff _).2 hp')] at h
    exact absurd h.symm (hP.htag_ne_fold _ _ _)
  · rw [if_neg (mt (P.isZero32_iff _).1 hp), if_neg (mt (P.isZero32_iff _).1 hp')] at h
    exact hP.fold_injective _ _ _ _ h

/-! ## Chain binding -/

/-- What a chain binds of a record: index, timestamp, message and its stored tag. -/
def chainContent (c : Bool) (r : Record B) : UInt64 × Int64 × List UInt8 × B :=
  (r.index, r.ts, r.msg, storedTag c r)

section Replay

variable {c : Bool} {key t : B} {expect : UInt64}

/-- Under idealised primitives a replay from the zero tag ends at the zero tag
exactly when it ran over no record. -/
theorem verifyLoop_eq_zero_iff (hP : Ideal P) {rs : List (Record B)}
    (h : verifyLoop P c rs key P.zero expect P.zero = (t, none)) : t = P.zero ↔ rs = [] := by
  rcases List.eq_nil_or_concat rs with rfl | ⟨xs, x, rfl⟩
  · simp only [verifyLoop_nil, Prod.mk.injEq] at h
    simp [← h.1]
  · rw [List.concat_eq_append] at h ⊢
    obtain ⟨-, -, rfl, -⟩ := verifyLoop_snoc_eq_ok h
    simpa using verifyLoop_ok_ne_zero hP h x (List.mem_append_right _ (List.mem_singleton_self _))

/-- **Chain binding.** Under idealised primitives two replays from the same key
and the zero tag that succeed with the same tag ran over the same content,
record for record. -/
theorem verifyLoop_binding (hP : Ideal P) {rs qs : List (Record B)}
    (hr : verifyLoop P c rs key P.zero expect P.zero = (t, none))
    (hq : verifyLoop P c qs key P.zero expect P.zero = (t, none)) :
    rs.map (chainContent c) = qs.map (chainContent c) := by
  induction rs using List.reverseRecOn generalizing qs t with
  | nil => rw [(verifyLoop_eq_zero_iff hP hq).1 ((verifyLoop_eq_zero_iff hP hr).2 rfl)]
  | append_singleton xs x ih =>
    rcases List.eq_nil_or_concat qs with rfl | ⟨ys, y, rfl⟩
    · exact absurd ((verifyLoop_eq_zero_iff hP hr).1 ((verifyLoop_eq_zero_iff hP hq).2 rfl))
        (by simp)
    · rw [List.concat_eq_append] at hq ⊢
      obtain ⟨tx, hx, rfl, hsx⟩ := verifyLoop_snoc_eq_ok hr
      obtain ⟨ty, hy, hty, hsy⟩ := verifyLoop_snoc_eq_ok hq
      -- the last steps agree, so the prefixes end at the same tag
      obtain ⟨rfl, hmac⟩ := chainStep_tag_inj hP (hsx.trans (hty.trans hsy.symm))
      have hxy := ih hx hy
      have hlen : xs.length = ys.length := by simpa using congrArg List.length hxy
      rw [hlen] at hmac
      obtain ⟨hi, hts, hm⟩ := mac_inj hP hmac
      simp [chainContent, hxy, hi, hts, hm, hty]

end Replay

/-! ## Final verification -/

/-- **Final verification binds the log's content.** Under idealised primitives,
after an honest protocol run, every record list T accepts for the log has the
held records' length and, record for record, their index, timestamp, message
and trusted tag. -/
theorem final_verify_binds_content (hP : Ideal P) {cfg : Config B} {randV randT : Except Error B}
    {l₀ l₁ l₂ l₃ : Logger B} {s₁ s₂ s₃ : SpecStore B} {commit : InitCommitment B}
    {op : OpenMessage B} {cl : CloseMessage B} {results : List (Except Error (Entry B))}
    (hnew : Logger.new P cfg randV randT = .ok l₀) (logID : String) (t₀ t₁ : Time)
    (ops : List (List UInt8 × Time))
    (hinit : l₀.initProtocol P SpecStore.store SpecStore.empty logID t₀ = (.ok (commit, op), l₁, s₁))
    (hrun : l₁.run P SpecStore.store s₁ ops = (results, l₂, s₂)) (hok : ∀ res ∈ results, res.isOk)
    (hclose : l₂.closeProtocol P SpecStore.store s₂ logID t₁ = (.ok cl, l₃, s₃))
    (R : List (Record B))
    (hR : (((TrustedServer.new.registerLog commit).registerOpen op).acceptClosure cl).2.finalVerify
      P logID R = none) :
    R.length = s₃.records.length ∧
      R.map (fun r => (r.index, r.ts, r.msg, r.tagT)) =
        s₃.records.map (fun r => (r.index, r.ts, r.msg, r.tagT)) := by
  obtain ⟨_, _, _, -, -, -, -, -, hh₃, -, -, -, -, rfl, rfl, rfl, -⟩ :=
    honest_protocol hnew hinit hrun hok hclose (protocol_records_ne_zero hP hinit hrun hclose)
  obtain ⟨c, _, z, _, _, hc, -, hz, -, -, -, -, -, -, hfin⟩ :=
    TrustedServer.finalVerify_eq_none_iff.1 hR
  simp only [TrustedServer.acceptClosure, TrustedServer.registerOpen, TrustedServer.registerLog,
    if_true, Option.some.injEq] at hc hz
  subst hc hz
  have hbind : R.map (chainContent false) = s₃.records.map (chainContent false) :=
    verifyLoop_binding hP hfin hh₃.replayT
  exact ⟨by simpa using congrArg List.length hbind, hbind⟩

/-- One append between the opening and the closing, over the symbolic primitives:
T accepts the held records, and refuses them with the opening record's message
changed to `STOP`, since a list it accepted would carry the held messages. -/
theorem final_verify_binds_content_one_entry :
    ∃ commit op cl results l₁ l₂ l₃ s₁ s₂ s₃,
      (Logger.symbolicNew 0).initProtocol symbolic SpecStore.store SpecStore.empty "log" ⟨0⟩ =
        (.ok (commit, op), l₁, s₁) ∧
      l₁.run symbolic SpecStore.store s₁ [(bytesOf "a", ⟨5⟩)] = (results, l₂, s₂) ∧
      (∀ res ∈ results, res.isOk) ∧
      l₂.closeProtocol symbolic SpecStore.store s₂ "log" ⟨9⟩ = (.ok cl, l₃, s₃) ∧
      (((TrustedServer.new.registerLog commit).registerOpen op).acceptClosure cl).2.finalVerify
        symbolic "log" s₃.records = none ∧
      (((TrustedServer.new.registerLog commit).registerOpen op).acceptClosure cl).2.finalVerify
        symbolic "log" (s₃.records.modifyHead fun r => { r with msg := bytesOf "STOP" }) ≠ none := by
  obtain ⟨commit, op, cl, results, l₁, l₂, l₃, s₁, s₂, s₃, hinit, hrun, hok, hclose, hnz⟩ :=
    protocol_run_succeeds symbolic_ideal (Logger.symbolicNew_eq 0) "log" ⟨0⟩ ⟨9⟩
      [(bytesOf "a", ⟨5⟩)] (by decide)
  obtain ⟨startRec, -, -, -, -, ⟨rest, hrest⟩, -, -, -, -, hstart, -, -, -, -, -, -⟩ :=
    honest_protocol (Logger.symbolicNew_eq 0) hinit hrun hok hclose hnz
  refine ⟨commit, op, cl, results, l₁, l₂, l₃, s₁, s₂, s₃, hinit, hrun, hok, hclose,
    final_verify_accepts_held_records (Logger.symbolicNew_eq 0) hinit hrun hok hclose hnz, fun h => ?_⟩
  -- an accepted list carries the held messages, and `STOP` is not `START`
  have hb := (final_verify_binds_content symbolic_ideal (Logger.symbolicNew_eq 0) "log" ⟨0⟩ ⟨9⟩
    [(bytesOf "a", ⟨5⟩)] hinit hrun hok hclose _ h).2
  rw [← hrest] at hb
  simp only [List.singleton_append, List.modifyHead, List.map_cons, List.cons.injEq,
    Prod.mk.injEq, hstart] at hb
  exact absurd hb.1.2.2.1 (by decide)

end SecureLog
