import SecureLog.FileStore
import SecureLog.Logger

/- What `fileStore.Append` leaves in the files when an I/O call fails
   (`file_store.go`), under any answers of the operating system (`Faults`).

   A `Write` that fails part-way leaves a prefix of its buffer. After the whole
   records of `logs.dat` there is then at most part of one more (`TornRecord`):
   `Iter` stops at it without a word (`iterLoop_stream_torn`), while
   `getLastIndexLocked` fails on it (`getLastIndexLocked_torn`), so from then on
   every `Append` is refused and no file changes again
   (`fileStore_refuses_after_torn_record`).

   `append_cases` says at which point of its steps a call can stop and what each
   point leaves: nothing, part of the record, the whole record and part of the
   anchor, or the whole record and anchor and part of the tail. From it:
   `anchors.idx` changes only after the record was written and `logs.dat`
   synced, and `tail.dat` only after the anchor was written and synced too
   (`append_write_order`). Over any run from empty files whose calls carry the
   tail of their own record, as `Logger.Append`'s do, the whole records keep the
   indices `1, …, n` and the tail `Tail` reads names one of them
   (`Files.Consistent`); so it is over every run of the logger on the file
   store (`logger_faults_keep_tail_backed`).

   Whatever tails the calls carry, `logs.dat` keeps contiguous whole records then
   at most part of one (`Files.WholeLog`), and a call that returns `nil` passed the
   check and wrote its whole tail (`Files.append_eq_none`). So the contiguity
   contract `Store.NextIndex` holds after every run of fewer than `2^64 − 1` calls
   from empty files, under every fault outcome (`fileStore_faults_nextIndex`).

   A torn anchor does not stop the store: the record before it is whole, so
   later calls go on, but `anchors.idx` is no longer a whole number of 104-byte
   entries and no write without failure makes it one again, so `ListAnchors`
   fails from then on (`fileStore_torn_anchor_breaks_listAnchors`). -/
namespace SecureLog

open scoped UInt64.CommRing

variable {B : Type} (C : BlockCodec B)

/-! ## Torn records -/

/-- A stream that stops in a record's header, or with fewer bytes after the header
than its length field and the two tags ask for, is cut short. -/
theorem readFrame_short {bs : List UInt8} (h0 : bs.length ≠ 0)
    (h : bs.length < 20 ∨ bs.length < 84 + beNat ((bs.drop 16).take 4)) :
    ∃ fld got, readFrame C bs = (.short fld got : Frame B) := by
  unfold readFrame
  simp only [List.length_drop, List.drop_drop, Nat.reduceAdd] at h ⊢
  split_ifs <;> first | exact ⟨_, _, rfl⟩ | omega

/-- What a `Write` of `writeRecordLocked` that failed part-way leaves after the whole
records of `logs.dat`: nothing, or a proper prefix of the record's encoding. -/
def TornRecord (bs : List UInt8) : Prop :=
  bs = [] ∨ ∃ (r : Record B) (j : ℕ), 0 < j ∧ j < (encodeRecord C r).length ∧
    bs = (encodeRecord C r).take j

/-- A proper prefix of a record's encoding reads as a stream cut short. -/
theorem readFrame_take_encodeRecord (r : Record B) {j : ℕ} (h0 : 0 < j)
    (hj : j < (encodeRecord C r).length) :
    ∃ fld got, readFrame C ((encodeRecord C r).take j) = .short fld got := by
  have hlen : ((encodeRecord C r).take j).length = j := List.length_take_of_le hj.le
  refine readFrame_short C (by omega) ?_
  by_cases h20 : j < 20
  · exact .inl (by omega)
  · have hfield : (((encodeRecord C r).take j).drop 16).take 4 = be 4 (msgLen r.msg) := by
      rw [List.drop_take, List.take_take, Nat.min_eq_left (by omega)]
      simp only [encodeRecord, List.append_assoc]
      rw [← List.append_assoc, List.drop_left' (by simp), List.take_left' (by simp)]
    rw [hlen, hfield, beNat_msgLen]
    rw [length_encodeRecord] at hj
    exact .inr hj

theorem iterLoop_short {bs : List UInt8} {fld : Field} {got : ℕ}
    (h : readFrame C bs = (.short fld got : Frame B)) (k : UInt64) : iterLoop C k bs = [] := by
  rw [iterLoop]; split <;> simp_all

theorem lastIndexLoop_short {bs : List UInt8} {fld : Field} {got : ℕ}
    (h : readFrame C bs = (.short fld got : Frame B)) (lastIdx : UInt64) :
    ∃ e, lastIndexLoop C bs lastIdx = .error e := by
  rw [lastIndexLoop]; split <;> simp_all

/-- **`Iter` skips a torn record.** -/
theorem iterLoop_stream_torn (k : UInt64) (rs : List (Record B)) {torn : List UInt8}
    (h : TornRecord C torn) :
    iterLoop C k (recordStream C rs ++ torn) = (rs.map Record.stored).filter (fun r => k ≤ r.index) := by
  rw [iterLoop_stream_append]
  rcases h with rfl | ⟨r, j, h0, hj, rfl⟩
  · rw [iterLoop_nil, List.append_nil]
  · obtain ⟨fld, got, hs⟩ := readFrame_take_encodeRecord C r h0 hj
    rw [iterLoop_short C hs, List.append_nil]

/-- **`getLastIndexLocked` fails on a torn record.** -/
theorem getLastIndexLocked_torn (rs : List (Record B)) (r : Record B) {j : ℕ} (h0 : 0 < j)
    (hj : j < (encodeRecord C r).length) :
    ∃ e, getLastIndexLocked C (recordStream C rs ++ (encodeRecord C r).take j) = .error e := by
  obtain ⟨fld, got, hs⟩ := readFrame_take_encodeRecord C r h0 hj
  rw [getLastIndexLocked, if_neg (by rw [List.length_append, List.length_take_of_le hj.le]; omega),
    lastIndexLoop_stream_append]
  exact lastIndexLoop_short C hs _

namespace Files

section Steps

variable {step : Files → Option Error × Files} {steps : List (Files → Option Error × Files)}
  {s s' : Files}

theorem runSteps_cons_ok (h : step s = (none, s')) : runSteps (step :: steps) s = runSteps steps s' := by
  rw [runSteps, h]

theorem runSteps_cons_error {e : Error} (h : step s = (some e, s')) :
    runSteps (step :: steps) s = (some e, s') := by
  rw [runSteps, h]

theorem runSteps_singleton : runSteps [step] s = step s := by
  rw [runSteps]; split <;> simp_all [runSteps]

end Steps

theorem call_of_false {fails : Bool} (h : fails = false) (ctx : String) (s : Files) :
    call fails ctx s = (none, s) := by
  rw [h]; rfl

theorem call_of_true {fails : Bool} (h : fails = true) (ctx : String) (s : Files) :
    call fails ctx s = (some (.wrap ctx .io), s) := by
  rw [h]; rfl

theorem writeRecordLocked_of_some {f : Faults} {k : ℕ} (h : f.logWrite = some k) (r : Record B)
    (s : Files) : writeRecordLocked C f r s =
      (some (.wrap "write record" .io), { s with logs := s.logs ++ (encodeRecord C r).take k }) := by
  simp [writeRecordLocked, writeEnd, h]

theorem writeRecordLocked_of_none {f : Faults} (h : f.logWrite = none) (r : Record B) (s : Files) :
    writeRecordLocked C f r s = (none, { s with logs := s.logs ++ encodeRecord C r }) := by
  simp [writeRecordLocked, writeEnd, h]

theorem writeAnchorLocked_cases (f : Faults) (a : Anchor B) (s : Files) :
    (∃ e j, writeAnchorLocked C f a s = (some e, { s with anchors := s.anchors ++ (encodeAnchor C a).take j })) ∨
    f.syncAnchor = false ∧
      writeAnchorLocked C f a s = (none, { s with anchors := s.anchors ++ encodeAnchor C a }) := by
  unfold writeAnchorLocked
  obtain hl | hl := Bool.eq_false_or_eq_true f.lockAnchor
  · exact .inl ⟨_, 0, by rw [runSteps_cons_error (call_of_true hl _ s)]; simp; rfl⟩
  rw [runSteps_cons_ok (call_of_false hl _ s)]
  obtain hs | hs := Bool.eq_false_or_eq_true f.seekAnchor
  · exact .inl ⟨_, 0, by rw [runSteps_cons_error (call_of_true hs _ s)]; simp; rfl⟩
  rw [runSteps_cons_ok (call_of_false hs _ s)]
  cases hw : f.anchorWrite with
  | some j => exact .inl ⟨.wrap "write anchor" .io, j, by simp [runSteps, writeEnd, hw]⟩
  | none =>
    obtain hy | hy := Bool.eq_false_or_eq_true f.syncAnchor
    · exact .inl ⟨_, 104, by simp [runSteps, writeEnd, hw, call, hy]; rfl⟩
    · exact .inr ⟨hy, by simp [runSteps, writeEnd, hw, call, hy]⟩

theorem writeTailLocked_frame (f : Faults) (t : TailState B) (s : Files) :
    (writeTailLocked C f t s).2.logs = s.logs ∧ (writeTailLocked C f t s).2.anchors = s.anchors := by
  rcases f with ⟨_, _, _, _, _, _, _, _ | _, _ | _, _ | m, _ | _⟩ <;>
    simp [writeTailLocked, runSteps, call, writeEnd]

/-- `tail.dat` after `writeTailLocked`: as it was, if the truncation failed, or else a
prefix of the new tail's encoding. -/
theorem writeTailLocked_tail (f : Faults) (t : TailState B) (s : Files) :
    (writeTailLocked C f t s).2.tail = s.tail ∨
      ∃ m, (writeTailLocked C f t s).2.tail = (encodeTail C t).take m := by
  rcases f with ⟨_, _, _, _, _, _, _, _ | _, _ | _, _ | m, _ | _⟩ <;>
    simp [writeTailLocked, runSteps, call, writeEnd] <;>
    first | exact .inr ⟨72, le_rfl⟩ | exact .inr ⟨_, rfl⟩

/-- **Where a call of `Append` can stop.** Whatever fails, the files are left in one
of four ways: as they were; with part of the record written; with the whole record
and part of its anchor; or, once the syncs of `logs.dat` and of the anchor returned,
with the whole record and anchor and `tail.dat` as it was or holding part of the new
tail. Every way but the first needs the contiguity check to have passed. -/
theorem append_cases (f : Faults) (s : Files) (r : Record B) (t : TailState B)
    (a? : Option (Anchor B)) :
    (append C f s r t a?).2 = s ∨
    getLastIndexLocked C s.logs = .ok (r.index - 1) ∧
      ((∃ k, 0 < k ∧ k < (encodeRecord C r).length ∧
          (append C f s r t a?).2 = { s with logs := s.logs ++ (encodeRecord C r).take k }) ∨
        (∃ j, (0 < j → f.syncLog = false) ∧ (append C f s r t a?).2 =
          ⟨s.logs ++ encodeRecord C r, s.anchors ++ (anchorStream C a?.toList).take j, s.tail⟩) ∨
        f.syncLog = false ∧ (∀ _ ∈ a?, f.syncAnchor = false) ∧
          (append C f s r t a?).2.logs = s.logs ++ encodeRecord C r ∧
          (append C f s r t a?).2.anchors = s.anchors ++ anchorStream C a?.toList ∧
          ((append C f s r t a?).2.tail = s.tail ∨
            ∃ m, (append C f s r t a?).2.tail = (encodeTail C t).take m)) := by
  unfold append
  split
  · exact .inl rfl
  rename_i lastIdx hl
  split_ifs with hne
  · exact .inl rfl
  rw [not_not] at hne
  subst hne
  obtain hlock | hlock := Bool.eq_false_or_eq_true f.lockLog
  · exact .inl (by rw [runSteps_cons_error (call_of_true hlock _ s)])
  rw [runSteps_cons_ok (call_of_false hlock _ s)]
  cases hw : f.logWrite with
  | some k =>
    rw [runSteps_cons_error (writeRecordLocked_of_some C hw r s)]
    by_cases hk : k < (encodeRecord C r).length
    · rcases Nat.eq_zero_or_pos k with rfl | hk0
      · exact .inl (by simp)
      · exact .inr ⟨hl, .inl ⟨k, hk0, hk, rfl⟩⟩
    · exact .inr ⟨hl, .inr (.inl ⟨0, by simp, by simp [List.take_of_length_le (not_lt.1 hk)]⟩)⟩
  | none =>
    rw [runSteps_cons_ok (writeRecordLocked_of_none C hw r s)]
    refine .inr ⟨hl, .inr ?_⟩
    obtain hsync | hsync := Bool.eq_false_or_eq_true f.syncLog
    · exact .inl ⟨0, by simp, by rw [runSteps_cons_error (call_of_true hsync _ _)]; simp⟩
    rw [runSteps_cons_ok (call_of_false hsync _ _)]
    cases a? with
    | none =>
      rw [runSteps_cons_ok rfl, runSteps_singleton]
      obtain ⟨hlogs, hanchors⟩ := writeTailLocked_frame C f t { s with logs := s.logs ++ encodeRecord C r }
      exact .inr ⟨hsync, by simp, hlogs, by simpa using hanchors, writeTailLocked_tail C f t _⟩
    | some a =>
      rcases writeAnchorLocked_cases C f a { s with logs := s.logs ++ encodeRecord C r } with
        ⟨e, j, h⟩ | ⟨hy, h⟩
      · exact .inl ⟨j, fun _ => hsync, by rw [runSteps_cons_error h]; simp⟩
      · rw [runSteps_cons_ok h, runSteps_singleton]
        obtain ⟨hlogs, hanchors⟩ := writeTailLocked_frame C f t
          { s with logs := s.logs ++ encodeRecord C r, anchors := s.anchors ++ encodeAnchor C a }
        exact .inr ⟨hsync, by simpa using hy, hlogs, by simpa using hanchors, writeTailLocked_tail C f t _⟩


/-- **`Append` writes the record, syncs, then the anchor, syncs, then the tail.** A call
that changed `anchors.idx` had written its whole record after the old bytes of
`logs.dat` and synced it; one that changed `tail.dat` had also written its anchor
after the old bytes of `anchors.idx` and synced it, whatever failed after. -/
theorem append_write_order (f : Faults) (s : Files) (r : Record B) (t : TailState B)
    (a? : Option (Anchor B)) :
    ((append C f s r t a?).2.anchors ≠ s.anchors →
      f.syncLog = false ∧ (append C f s r t a?).2.logs = s.logs ++ encodeRecord C r) ∧
    ((append C f s r t a?).2.tail ≠ s.tail →
      f.syncLog = false ∧ (∀ _ ∈ a?, f.syncAnchor = false) ∧
      (append C f s r t a?).2.logs = s.logs ++ encodeRecord C r ∧
      (append C f s r t a?).2.anchors = s.anchors ++ anchorStream C a?.toList) := by
  rcases append_cases C f s r t a? with h | ⟨-, ⟨k, -, -, h⟩ | ⟨j, hj, h⟩ | ⟨hl, ha, hlogs, hanchors, -⟩⟩
  · exact ⟨fun hne => absurd (by rw [h]) hne, fun hne => absurd (by rw [h]) hne⟩
  · exact ⟨fun hne => absurd (by rw [h]) hne, fun hne => absurd (by rw [h]) hne⟩
  · refine ⟨fun hne => ⟨hj (Nat.pos_of_ne_zero fun h0 => hne ?_), by rw [h]⟩,
      fun hne => absurd (by rw [h]) hne⟩
    rw [h, h0]; simp
  · exact ⟨fun _ => ⟨hl, hlogs⟩, fun _ => ⟨hl, ha, hlogs, hanchors⟩⟩

end Files

/-- A prefix of a tail's encoding reads back as no tail or as that tail. -/
theorem readTailLocked_take_encodeTail (t : TailState B) (m : ℕ) {t' : TailState B}
    (h : readTailLocked C ((encodeTail C t).take m) = some t') : t' = t := by
  by_cases hm : 72 ≤ m
  · rw [List.take_of_length_le (by simpa using hm), readTailLocked_encodeTail] at h
    exact (Option.some.inj h).symm
  · rw [readTailLocked, if_pos (by simp; omega)] at h
    cases h


/-! ## What runs under faults keep -/

namespace Files

/-- `logs.dat` as runs of `Append` leave it under any faults, whatever tails the
calls carry: the whole records `rs`, with the indices `1, …, n`, then at most part
of one more. -/
structure WholeLog (rs : List (Record B)) (s : Files) : Prop where
  logs : ∃ torn, TornRecord C torn ∧ s.logs = recordStream C rs ++ torn
  contiguous : Contiguous rs

/-- On such files the contiguity check passes only when `logs.dat` ends in a whole
record, the one before the new record. -/
theorem WholeLog.check {rs : List (Record B)} {s : Files} (h : WholeLog C rs s) {r : Record B}
    (hl : getLastIndexLocked C s.logs = .ok (r.index - 1)) :
    s.logs = recordStream C rs ∧ lastIndex rs = r.index - 1 := by
  obtain ⟨torn, rfl | ⟨r', j, h0, hj, rfl⟩, hlogs⟩ := h.logs
  · rw [List.append_nil] at hlogs
    rw [hlogs, getLastIndexLocked_stream] at hl
    exact ⟨hlogs, Except.ok.inj hl⟩
  · obtain ⟨e, he⟩ := getLastIndexLocked_torn C rs r' h0 hj
    rw [hlogs, he] at hl
    cases hl

/-- The files as runs of `Append` leave them under any faults: `logs.dat` holds the
whole records `rs`, with the indices `1, …, n`, then at most part of one more, and
the tail `tail.dat` reads back as, if any, has the index of one of the `rs`. -/
structure Consistent (rs : List (Record B)) (s : Files) : Prop where
  logs : ∃ torn, TornRecord C torn ∧ s.logs = recordStream C rs ++ torn
  contiguous : Contiguous rs
  tail : ∀ t, readTailLocked C s.tail = some t → ∃ r ∈ rs, r.index = t.index

theorem consistent_empty : Consistent C ([] : List (Record B)) empty :=
  ⟨⟨[], .inl rfl, rfl⟩, contiguous_nil, fun _ h => by simp [empty] at h⟩

/-- On consistent files the contiguity check passes only when `logs.dat` ends in a
whole record, the one before the new record. -/
theorem Consistent.check {rs : List (Record B)} {s : Files} (h : Consistent C rs s) {r : Record B}
    (hl : getLastIndexLocked C s.logs = .ok (r.index - 1)) :
    s.logs = recordStream C rs ∧ lastIndex rs = r.index - 1 :=
  WholeLog.check C ⟨h.logs, h.contiguous⟩ hl

/-- **Consistency, one step.** A call whose tail carries its record's index, under any
faults, leaves consistent files, with at most one more whole record. -/
theorem Consistent.append {rs : List (Record B)} {s : Files} (h : Consistent C rs s)
    (hlen : rs.length + 1 < 2 ^ 64) (f : Faults) (r : Record B) (t : TailState B)
    (a? : Option (Anchor B)) (ht : t.index = r.index) :
    ∃ rs', Consistent C rs' (append C f s r t a?).2 ∧ rs'.length ≤ rs.length + 1 := by
  rcases append_cases C f s r t a? with hs | ⟨hl, hcases⟩
  · exact ⟨rs, by rw [hs]; exact h, by omega⟩
  obtain ⟨hlogs, hlast⟩ := h.check C hl
  have hc : Contiguous (rs ++ [r]) := contiguous_append_singleton.2
    ⟨h.contiguous, (lastIndex_eq_sub_one_iff h.contiguous hlen r).1 hlast⟩
  have hstream : s.logs ++ encodeRecord C r = recordStream C (rs ++ [r]) ++ [] := by
    rw [hlogs, recordStream_append, recordStream_singleton, List.append_nil]
  have hold : ∀ t', readTailLocked C s.tail = some t' → ∃ r' ∈ rs ++ [r], r'.index = t'.index :=
    fun t' h' => (h.tail t' h').imp fun r' ⟨hr', he⟩ => ⟨List.mem_append_left _ hr', he⟩
  rcases hcases with ⟨k, hk0, hk, hs⟩ | ⟨j, -, hs⟩ | ⟨-, -, hlogs', -, htail⟩
  · refine ⟨rs, ⟨⟨_, .inr ⟨r, k, hk0, hk, rfl⟩, by rw [hs, hlogs]⟩, h.contiguous, ?_⟩, by omega⟩
    rw [hs]; exact h.tail
  · exact ⟨rs ++ [r], ⟨⟨[], .inl rfl, by rw [hs]; exact hstream⟩, hc, by rw [hs]; exact hold⟩, by simp⟩
  · refine ⟨rs ++ [r], ⟨⟨[], .inl rfl, by rw [hlogs']; exact hstream⟩, hc, ?_⟩, by simp⟩
    rcases htail with htail | ⟨m, htail⟩
    · rw [htail]; exact hold
    · intro t' h'
      rw [htail] at h'
      rw [readTailLocked_take_encodeTail C t m h']
      exact ⟨r, by simp, ht.symm⟩

end Files

/-- Consistent files with at most `n` whole records, once `n` is below `2^64`: what
`n` calls leave. -/
def ConsistentAfter (n : ℕ) (s : Files) : Prop :=
  n < 2 ^ 64 → ∃ rs, Files.Consistent C rs s ∧ rs.length ≤ n

theorem consistentAfter_empty : ConsistentAfter C 0 Files.empty :=
  fun _ => ⟨[], Files.consistent_empty C, le_rfl⟩

/-- **Consistency, one step**, counting the calls. -/
theorem ConsistentAfter.append {n : ℕ} {s : Files} (h : ConsistentAfter C n s) (f : Faults)
    (r : Record B) (t : TailState B) (a? : Option (Anchor B)) (ht : t.index = r.index) :
    ConsistentAfter C (n + 1) (Files.append C f s r t a?).2 := fun hn => by
  obtain ⟨rs, hc, hrs⟩ := h (by omega)
  obtain ⟨rs', hc', hrs'⟩ := hc.append C (by omega) f r t a? ht
  exact ⟨rs', hc', by omega⟩

theorem ConsistentAfter.fileStore_append {n : ℕ} {s : FileStore} (h : ConsistentAfter C n s.files)
    (r : Record B) (t : TailState B) (a? : Option (Anchor B)) (ht : t.index = r.index) :
    ConsistentAfter C (n + 1) ((fileStore C).append s r t a?).2.files :=
  h.append C (s.faults.headD {}) r t a? ht

/-- What the readers see of consistent files. -/
theorem Files.Consistent.reads {rs : List (Record B)} {s : FileStore}
    (h : Files.Consistent C rs s.files) :
    Contiguous rs ∧ (fileStore C).iter s 0 = .ok (rs.map Record.stored) ∧
      ∀ t, (fileStore C).tail s = .ok (some t) → ∃ r ∈ rs, r.index = t.index := by
  obtain ⟨torn, htorn, hlogs⟩ := h.logs
  refine ⟨h.contiguous, ?_, fun t ht => h.tail t (Except.ok.inj ht)⟩
  show Except.ok (iterLoop C 0 s.files.logs) = _
  rw [hlogs, iterLoop_stream_torn C 0 rs htorn]
  exact congrArg Except.ok (List.filter_eq_self.2 fun r _ => by simp [uint64_le_iff])

/-- **The logger over a failing file store.** Whatever the operating system answers
to the I/O calls of each `Append`, after any run of fewer than `2^64` calls of
`Logger.Append` from empty files, `Iter(0)` yields whole records with the indices
`1, …, n`, and a tail `Tail` reports has the index of one of them: the tail never
names a record the log does not hold. -/
theorem logger_faults_keep_tail_backed (P : Primitives B) (l : Logger B) (fs : List Faults)
    (ops : List (List UInt8 × Time)) (hlen : ops.length < 2 ^ 64) :
    ∃ rs, Contiguous rs ∧
      (fileStore C).iter (l.run P (fileStore C) ⟨Files.empty, fs⟩ ops).2.2 0 =
        .ok (rs.map Record.stored) ∧
      ∀ t, (fileStore C).tail (l.run P (fileStore C) ⟨Files.empty, fs⟩ ops).2.2 = .ok (some t) →
        ∃ r ∈ rs, r.index = t.index := by
  have h := Logger.run_store_invariant (l := l) (P := P) (s := ⟨Files.empty, fs⟩)
    (fun n (s : FileStore) => ConsistentAfter C n s.files)
    (fun _ _ r t a ht h => h.fileStore_append C r t a ht) ops
    (consistentAfter_empty C)
  obtain ⟨rs, hc, -⟩ := h (by omega)
  exact ⟨rs, hc.reads C⟩

theorem logger_faults_keep_tail_backed_failed_tail_write :
    [(bytesOf "a", (⟨0⟩ : Time)), (bytesOf "b", ⟨0⟩)].length < 2 ^ 64 ∧
    ∃ rs, Contiguous rs ∧
      (fileStore Block32.codec).iter (((⟨⟨0, none, none⟩, 0, Block32.zero, Block32.zero, Block32.zero,
          Block32.zero⟩ : Logger Block32).run Block32.firstPrimitives (fileStore Block32.codec)
          ⟨Files.empty, [{}, { tailWrite := some 40 }]⟩ [(bytesOf "a", ⟨0⟩), (bytesOf "b", ⟨0⟩)]).2.2) 0 =
        .ok (rs.map Record.stored) ∧
      ∀ t, (fileStore Block32.codec).tail (((⟨⟨0, none, none⟩, 0, Block32.zero, Block32.zero,
          Block32.zero, Block32.zero⟩ : Logger Block32).run Block32.firstPrimitives
          (fileStore Block32.codec) ⟨Files.empty, [{}, { tailWrite := some 40 }]⟩
          [(bytesOf "a", ⟨0⟩), (bytesOf "b", ⟨0⟩)]).2.2) = .ok (some t) →
        ∃ r ∈ rs, r.index = t.index :=
  ⟨by decide, logger_faults_keep_tail_backed Block32.codec Block32.firstPrimitives _ _ _ (by decide)⟩

/-! ## The contiguity contract under faults -/

namespace Files

/-- A run of steps that returned `nil` ran its last step to `nil`. -/
theorem runSteps_eq_none_getLast : ∀ (steps : List (Files → Option Error × Files)) (hne : steps ≠ [])
    {s s' : Files}, runSteps steps s = (none, s') → ∃ s₁, steps.getLast hne s₁ = (none, s')
  | [_], _, s, _, h => ⟨s, by rwa [runSteps_singleton] at h⟩
  | step :: step' :: steps, _, s, _, h => by
    rw [runSteps] at h
    split at h
    · cases h
    · exact runSteps_eq_none_getLast (step' :: steps) (List.cons_ne_nil _ _) h

/-- A `writeTailLocked` that returned `nil` wrote the whole tail. -/
theorem writeTailLocked_eq_none {f : Faults} {t : TailState B} {s s' : Files}
    (h : writeTailLocked C f t s = (none, s')) : s'.tail = encodeTail C t := by
  rcases f with ⟨_, _, _, _, _, _, _, _ | _, _ | _, _ | m, _ | _⟩ <;>
    simp [writeTailLocked, runSteps, call, writeEnd] at h
  rw [← h]

/-- **What a successful `Append` did.** A call that returned `nil`, whatever the
faults, passed the contiguity check on `logs.dat` and wrote the whole tail. -/
theorem append_eq_none {f : Faults} {s : Files} {r : Record B} {t : TailState B}
    {a? : Option (Anchor B)} (h : (append C f s r t a?).1 = none) :
    getLastIndexLocked C s.logs = .ok (r.index - 1) ∧ (append C f s r t a?).2.tail = encodeTail C t := by
  unfold append at h ⊢
  split at h
  · cases h
  rename_i lastIdx hl
  split_ifs at h ⊢ with hne
  obtain ⟨s₁, hlast⟩ := runSteps_eq_none_getLast _ (List.cons_ne_nil _ _) (Prod.ext h rfl)
  exact ⟨hl.trans (congrArg _ (not_not.1 hne)), writeTailLocked_eq_none C hlast⟩

/-- **Whole records, one step.** A call under any faults, with any tail, leaves the
files holding contiguous whole records, at most one more, then at most part of one. -/
theorem WholeLog.append {rs : List (Record B)} {s : Files} (h : WholeLog C rs s)
    (hlen : rs.length + 1 < 2 ^ 64) (f : Faults) (r : Record B) (t : TailState B)
    (a? : Option (Anchor B)) :
    ∃ rs', WholeLog C rs' (Files.append C f s r t a?).2 ∧ rs'.length ≤ rs.length + 1 := by
  rcases append_cases C f s r t a? with hs | ⟨hl, hcases⟩
  · exact ⟨rs, by rw [hs]; exact h, by omega⟩
  obtain ⟨hlogs, hlast⟩ := h.check C hl
  have hc : Contiguous (rs ++ [r]) := contiguous_append_singleton.2
    ⟨h.contiguous, (lastIndex_eq_sub_one_iff h.contiguous hlen r).1 hlast⟩
  have hstream : s.logs ++ encodeRecord C r = recordStream C (rs ++ [r]) ++ [] := by
    rw [hlogs, recordStream_append, recordStream_singleton, List.append_nil]
  rcases hcases with ⟨k, hk0, hk, hs⟩ | ⟨j, -, hs⟩ | ⟨-, -, hlogs', -⟩
  · exact ⟨rs, ⟨⟨_, .inr ⟨r, k, hk0, hk, rfl⟩, by rw [hs, hlogs]⟩, h.contiguous⟩, by omega⟩
  · exact ⟨rs ++ [r], ⟨⟨[], .inl rfl, by rw [hs]; exact hstream⟩, hc⟩, by simp⟩
  · exact ⟨rs ++ [r], ⟨⟨[], .inl rfl, by rw [hlogs']; exact hstream⟩, hc⟩, by simp⟩

/-- **The contract under faults, one state.** On files holding fewer than
`2^64 − 1` contiguous whole records, then at most part of one, the contract holds
whatever faults are to come: `Iter(0)` yields the whole records, and a call that
returns `nil` was for the next index and leaves its tail. -/
theorem WholeLog.nextIndex {rs : List (Record B)} {s : FileStore} (h : WholeLog C rs s.files)
    (hlen : rs.length + 1 < 2 ^ 64) : (fileStore C).NextIndex s := by
  obtain ⟨torn, htorn, hlogs⟩ := h.logs
  refine ⟨rs.length, ⟨rs.map Record.stored, ?_, by simp, by simpa [Contiguous] using h.contiguous⟩,
    fun r t a? hok => ?_⟩
  · show Except.ok (iterLoop C 0 s.files.logs) = _
    rw [hlogs, iterLoop_stream_torn C 0 rs htorn]
    exact congrArg Except.ok (List.filter_eq_self.2 fun r _ => by simp [uint64_le_iff])
  · obtain ⟨hl, htail⟩ := append_eq_none C hok
    obtain ⟨-, hlast⟩ := h.check C hl
    refine ⟨(lastIndex_eq_sub_one_iff h.contiguous hlen r).1 hlast, fun _ => ?_⟩
    show Except.ok (readTailLocked C (Files.append C _ s.files r t a?).2.tail) = _
    rw [htail, readTailLocked_encodeTail]

end Files

/-- **Whole records, a run.** -/
theorem fileStore_appendAll_wholeLog (ops : List (Record B × TailState B × Option (Anchor B))) :
    ∀ {s : FileStore} {rs : List (Record B)}, Files.WholeLog C rs s.files →
      rs.length + ops.length < 2 ^ 64 →
      ∃ rs', Files.WholeLog C rs' ((fileStore C).appendAll s ops).2.files ∧
        rs'.length ≤ rs.length + ops.length := by
  induction ops with
  | nil => exact fun h _ => ⟨_, h, by simp⟩
  | cons op ops ih =>
    obtain ⟨r, t, a?⟩ := op
    intro s rs h hlen
    simp only [List.length_cons] at hlen
    obtain ⟨rs₁, h₁, hlen₁⟩ := h.append C (by omega) (s.faults.headD {}) r t a?
    obtain ⟨rs₂, h₂, hlen₂⟩ := ih (s := ((fileStore C).append s r t a?).2) h₁ (by omega)
    exact ⟨rs₂, by rwa [Store.appendAll_cons], by simp only [List.length_cons]; omega⟩

/-- **The contiguity contract under faults.** From empty files, after any run of
fewer than `2^64 − 1` calls with any records, tails and anchors, whatever the
operating system answers to each call's I/O, the file store holds the indices
`1, …, n`, takes an `Append` only for index `n + 1`, and then holds the tail it
was given. -/
theorem fileStore_faults_nextIndex (fs : List Faults)
    (ops : List (Record B × TailState B × Option (Anchor B))) (hlen : ops.length + 1 < 2 ^ 64) :
    (fileStore C).NextIndex ((fileStore C).appendAll ⟨Files.empty, fs⟩ ops).2 := by
  have h₀ : Files.WholeLog C [] (FileStore.mk Files.empty fs).files :=
    ⟨⟨[], .inl rfl, rfl⟩, contiguous_nil⟩
  obtain ⟨rs, h, hrs⟩ := fileStore_appendAll_wholeLog C ops h₀ (by rw [List.length_nil]; omega)
  exact h.nextIndex C (by rw [List.length_nil] at hrs; omega)

/-! ## A torn record stops the store -/

theorem Files.append_of_getLastIndexLocked_error {s : Files} {e : Error}
    (h : getLastIndexLocked C s.logs = .error e) (f : Faults) (r : Record B) (t : TailState B)
    (a? : Option (Anchor B)) : Files.append C f s r t a? = (some e, s) := by
  simp only [Files.append, h]

/-- **A torn record stops the store.** Once `logs.dat` ends in part of a record, every
later `Append` is refused, whatever the faults, and the files stay as they are;
`Iter` yields the whole records before the torn one. -/
theorem fileStore_refuses_after_torn_record (rs : List (Record B)) (r : Record B) {j : ℕ}
    (h0 : 0 < j) (hj : j < (encodeRecord C r).length)
    (ops : List (Record B × TailState B × Option (Anchor B))) :
    ∀ s : FileStore, s.files.logs = recordStream C rs ++ (encodeRecord C r).take j →
      (∀ res ∈ ((fileStore C).appendAll s ops).1, res.isSome) ∧
      ((fileStore C).appendAll s ops).2.files = s.files ∧
      ∀ k, (fileStore C).iter ((fileStore C).appendAll s ops).2 k =
        .ok ((rs.map Record.stored).filter (fun r => k ≤ r.index)) := by
  obtain ⟨e, he⟩ := getLastIndexLocked_torn C rs r h0 hj
  induction ops with
  | nil =>
    intro s hs
    refine ⟨by simp, rfl, fun k => ?_⟩
    show Except.ok (iterLoop C k s.files.logs) = _
    rw [hs, iterLoop_stream_torn C k rs (.inr ⟨r, j, h0, hj, rfl⟩)]
  | cons op ops ih =>
    obtain ⟨r', t, a?⟩ := op
    intro s hs
    have hstep : (fileStore C).append s r' t a? = (some e, ⟨s.files, s.faults.tail⟩) := by
      show ((Files.append C _ s.files r' t a?).1, FileStore.mk (Files.append C _ s.files r' t a?).2 _) = _
      rw [Files.append_of_getLastIndexLocked_error C (hs ▸ he)]
    obtain ⟨h₁, h₂, h₃⟩ := ih ⟨s.files, s.faults.tail⟩ hs
    rw [Store.appendAll_cons_eq, hstep]
    exact ⟨List.forall_mem_cons.2 ⟨rfl, h₁⟩, h₂, h₃⟩

/-- The files after the first record's `Write` stopped after one byte. -/
def oneTornByte : FileStore :=
  ⟨⟨(encodeRecord Block32.codec (⟨1, ⟨0⟩, [], Block32.zero, Block32.zero⟩ : Record Block32)).take 1,
    [], []⟩, []⟩

theorem fileStore_refuses_after_torn_record_one_byte :
    0 < 1 ∧
    1 < (encodeRecord Block32.codec (⟨1, ⟨0⟩, [], Block32.zero, Block32.zero⟩ : Record Block32)).length ∧
    oneTornByte.files.logs = recordStream Block32.codec []
      ++ (encodeRecord Block32.codec (⟨1, ⟨0⟩, [], Block32.zero, Block32.zero⟩ : Record Block32)).take 1 ∧
    (∀ res ∈ ((fileStore Block32.codec).appendAll oneTornByte (countingOps Block32.zero 1)).1,
      res.isSome) ∧
    ((fileStore Block32.codec).appendAll oneTornByte (countingOps Block32.zero 1)).2.files =
      oneTornByte.files ∧
    ∀ k, (fileStore Block32.codec).iter
        ((fileStore Block32.codec).appendAll oneTornByte (countingOps Block32.zero 1)).2 k =
      .ok ((([] : List (Record Block32)).map Record.stored).filter (fun r => k ≤ r.index)) :=
  ⟨by decide, by rw [length_encodeRecord]; decide, rfl,
    fileStore_refuses_after_torn_record Block32.codec [] ⟨1, ⟨0⟩, [], Block32.zero, Block32.zero⟩
      (j := 1) (by decide) (by rw [length_encodeRecord]; decide) _ oneTornByte rfl⟩

/-! ## A torn anchor -/

/-- `ListAnchors` fails on an anchor file that is not a whole number of entries. -/
theorem listAnchorsLoop_error_of_mod (bs : List UInt8) (h : bs.length % 104 ≠ 0) :
    ∃ e, listAnchorsLoop C bs = (.error e : Except Error (List (Anchor B))) := by
  induction bs using listAnchorsLoop.induct C with
  | case1 bs h0 => simp [h0] at h
  | case2 bs h0 h1 => exact ⟨_, by rw [listAnchorsLoop, if_neg h0, if_pos h1]⟩
  | case3 bs h0 h1 ih =>
    obtain ⟨e, he⟩ := ih (by simp only [List.length_drop]; omega)
    exact ⟨e, by rw [listAnchorsLoop, if_neg h0, if_neg h1, he]; rfl⟩

namespace Files

/-- `Append` without failures, on any files: refused with nothing changed, or the
record, the anchor and the tail written. -/
theorem append_no_faults (s : Files) (r : Record B) (t : TailState B) (a? : Option (Anchor B)) :
    (append C {} s r t a?).2 = s ∨
      (append C {} s r t a?).2 = ⟨s.logs ++ encodeRecord C r, s.anchors ++ anchorStream C a?.toList,
        encodeTail C t⟩ := by
  unfold append
  split
  · exact .inl rfl
  split_ifs
  · exact .inl rfl
  · cases a? <;> simp [runSteps, call, writeRecordLocked, writeEnd, writeAnchorLocked, writeTailLocked]

/-- A failed `Write` of the anchor, after the record was written and synced. -/
theorem append_anchorWrite_fault (rs : List (Record B)) (as : List (Anchor B))
    (t? : Option (TailState B)) (r : Record B) (t : TailState B) (a : Anchor B)
    (hnext : lastIndex rs = r.index - 1) (j : ℕ) :
    append C { anchorWrite := some j } (encoding C rs as t?) r t (some a) =
      (some (.wrap "write anchor" .io), ⟨recordStream C (rs ++ [r]),
        anchorStream C as ++ (encodeAnchor C a).take j, (t?.map (encodeTail C)).getD []⟩) := by
  simp [append, encoding, getLastIndexLocked_stream, hnext, runSteps, call, writeRecordLocked,
    writeEnd, writeAnchorLocked, recordStream_append]

end Files

/-- Runs without failures keep the length of `anchors.idx` modulo an entry. -/
theorem fileStore_appendAll_anchors_mod (ops : List (Record B × TailState B × Option (Anchor B))) :
    ∀ s : FileStore, s.faults = [] →
      ((fileStore C).appendAll s ops).2.files.anchors.length % 104 = s.files.anchors.length % 104 := by
  induction ops with
  | nil => exact fun _ _ => rfl
  | cons op ops ih =>
    obtain ⟨r, t, a?⟩ := op
    intro s hs
    rw [Store.appendAll_cons, ih _ (by show s.faults.tail = []; rw [hs]; rfl)]
    show (Files.append C (s.faults.headD {}) s.files r t a?).2.anchors.length % 104 = _
    rw [hs, List.headD_nil]
    rcases Files.append_no_faults C s.files r t a? with h | h <;> rw [h]
    simp only [List.length_append, length_anchorStream]
    omega


/-- **A torn anchor breaks `ListAnchors` for good.** On files holding encodings, a
call whose anchor's `Write` stops after `j` bytes, `0 < j < 104`, returns the error
and keeps its record, and `anchors.idx` is left short of a whole entry: after any
later run without failures, `ListAnchors` returns an error. -/
theorem fileStore_torn_anchor_breaks_listAnchors (rs : List (Record B)) (as : List (Anchor B))
    (t? : Option (TailState B)) (r : Record B) (t : TailState B) (a : Anchor B)
    (hnext : lastIndex rs = r.index - 1) {j : ℕ} (h0 : 0 < j) (hj : j < 104)
    (ops : List (Record B × TailState B × Option (Anchor B))) :
    (fileStore C).append ⟨Files.encoding C rs as t?, [{ anchorWrite := some j }]⟩ r t (some a) =
      (some (.wrap "write anchor" .io), ⟨⟨recordStream C (rs ++ [r]),
        anchorStream C as ++ (encodeAnchor C a).take j, (t?.map (encodeTail C)).getD []⟩, []⟩) ∧
    ∃ e, (fileStore C).listAnchors ((fileStore C).appendAll ⟨⟨recordStream C (rs ++ [r]),
      anchorStream C as ++ (encodeAnchor C a).take j, (t?.map (encodeTail C)).getD []⟩, []⟩ ops).2 =
        .error e := by
  refine ⟨?_, listAnchorsLoop_error_of_mod C _ ?_⟩
  · show ((Files.append C { anchorWrite := some j } _ r t (some a)).1,
      FileStore.mk (Files.append C { anchorWrite := some j } _ r t (some a)).2 []) = _
    rw [Files.append_anchorWrite_fault C rs as t? r t a hnext j]
  · rw [fileStore_appendAll_anchors_mod C ops _ rfl]
    simp only [List.length_append, length_anchorStream, List.length_take, length_encodeAnchor]
    omega

theorem fileStore_torn_anchor_breaks_listAnchors_half_entry :
    lastIndex ([] : List (Record Block32)) = (1 : UInt64) - 1 ∧ 0 < 52 ∧ 52 < 104 ∧
    (fileStore Block32.codec).append ⟨Files.encoding Block32.codec [] [] none, [{ anchorWrite := some 52 }]⟩
        ⟨1, ⟨0⟩, [], Block32.zero, Block32.zero⟩ ⟨1, Block32.zero, Block32.zero⟩
        (some ⟨1, Block32.zero, Block32.zero, Block32.zero⟩) =
      (some (.wrap "write anchor" .io), ⟨⟨recordStream Block32.codec [⟨1, ⟨0⟩, [], Block32.zero, Block32.zero⟩],
        anchorStream Block32.codec [] ++
          (encodeAnchor Block32.codec ⟨1, Block32.zero, Block32.zero, Block32.zero⟩).take 52, []⟩, []⟩) ∧
    ∃ e, (fileStore Block32.codec).listAnchors ((fileStore Block32.codec).appendAll
      ⟨⟨recordStream Block32.codec [⟨1, ⟨0⟩, [], Block32.zero, Block32.zero⟩],
        anchorStream Block32.codec [] ++
          (encodeAnchor Block32.codec ⟨1, Block32.zero, Block32.zero, Block32.zero⟩).take 52, []⟩, []⟩
      [(⟨2, ⟨0⟩, [], Block32.zero, Block32.zero⟩, ⟨2, Block32.zero, Block32.zero⟩,
        some ⟨2, Block32.zero, Block32.zero, Block32.zero⟩)]).2 = .error e :=
  ⟨by decide, by decide, by decide,
    fileStore_torn_anchor_breaks_listAnchors Block32.codec [] [] none _ _ _ (by decide) (j := 52)
      (by decide) (by decide) _⟩

end SecureLog
