import SecureLog.FileFormat
import SecureLog.Logger

/- The file store (`file_store.go`): `fileStore.Append` over the three files, with
   every I/O call it makes able to fail, and the `Store` reads over the files.

   The files are byte strings (`Files`). `Append` runs the steps of the Go body
   in order (`getLastIndexLocked`, the contiguity check, `flock`,
   `writeRecordLocked`, `Sync`, `writeAnchorLocked`, `writeTailLocked`) and
   returns at the first error; what an earlier step wrote stays written
   (`runSteps`). `Faults` says which calls fail, and how many bytes a failed
   `Write` left. A `FileStore` is the files and the answers of the operating
   system to the coming calls.

   With no failure, on files holding encodings (`Files.encoding`), `Append` is a
   list operation (`append_encoding`) and the reads invert the encodings. A
   failure after the record's `Write` leaves the record in `logs.dat`, where
   `Iter` shows it and the same `Append` again is refused
   (`append_error_leaves_record`). On files holding the encodings of contiguous
   records the contract `Store.NextIndex` holds (`fileStore_nextIndex_encoding`;
   over every run, under every fault outcome, `fileStore_faults_nextIndex`), until
   `n` reaches `2^64 − 1`, where the check `lastIdx != r.Index-1` lets index 0
   through (`file_store_accepts_index_zero`).

   Refinement: the files of a design store (`FileStore.ofSpec`) step as the
   design's store does, call by call, while its records are contiguous and each
   anchor comes after the held ones (`fileStore_appendAll_ofSpec`), and every
   read answers as the design's does, `Iter` once messages are shorter than
   `2^32` bytes. Under the logger, whose anchors carry the record's index, the
   files of a design store whose anchors are all at records held (`Filed`) step
   as it does on every call (`fileStore_append_ofSpec_filed`), so a logger's
   calls over them are its calls over the design's store
   (`Logger.append_fileStore_ofSpec`, `Logger.run_fileStore_ofSpec`). -/
namespace SecureLog

open scoped UInt64.CommRing

variable {B : Type} (C : BlockCodec B)

/-- The contents of `logs.dat`, `anchors.idx` and `tail.dat`. -/
structure Files where
  logs : List UInt8
  anchors : List UInt8
  tail : List UInt8
  deriving DecidableEq, Repr

/-- How the operating system answers the I/O calls of one `Append`: which fail,
and how many bytes a failing `Write` wrote. -/
structure Faults where
  lockLog : Bool := false
  logWrite : Option ℕ := none
  syncLog : Bool := false
  lockAnchor : Bool := false
  seekAnchor : Bool := false
  anchorWrite : Option ℕ := none
  syncAnchor : Bool := false
  truncateTail : Bool := false
  seekTail : Bool := false
  tailWrite : Option ℕ := none
  syncTail : Bool := false
  deriving DecidableEq, Repr

namespace Files

/-- The files `OpenFileStore` creates in an empty directory. -/
def empty : Files := ⟨[], [], []⟩

/-- The steps of one call in order; the first error ends the call, as Go's
`if err != nil { return err }` does after each. -/
def runSteps : List (Files → Option Error × Files) → Files → Option Error × Files
  | [], s => (none, s)
  | step :: steps, s =>
    match step s with
    | (some e, s') => (some e, s')
    | (none, s') => runSteps steps s'

/-- An I/O call that writes nothing; `fmt.Errorf(ctx + ": %w", err)` when it fails. -/
def call (fails : Bool) (ctx : String) (s : Files) : Option Error × Files :=
  (if fails then some (.wrap ctx .io) else none, s)

/-- `Write(buf)` at the end of a file. A write that fails after `k` bytes leaves them. -/
def writeEnd (fault : Option ℕ) (ctx : String) (file buf : List UInt8) :
    Option Error × List UInt8 :=
  match fault with
  | some k => (some (.wrap ctx .io), file ++ buf.take k)
  | none => (none, file ++ buf)

/-- `writeRecordLocked(r)`: one `Write` of the encoding to `logs.dat`, opened
`O_APPEND`. -/
def writeRecordLocked (f : Faults) (r : Record B) (s : Files) : Option Error × Files :=
  let (err, logs) := writeEnd f.logWrite "write record" s.logs (encodeRecord C r)
  (err, { s with logs })

/-- `writeAnchorLocked(a)`: lock, seek to the end, write, sync. -/
def writeAnchorLocked (f : Faults) (a : Anchor B) : Files → Option Error × Files :=
  runSteps [call f.lockAnchor "lock anchor file", call f.seekAnchor "seek anchor file",
    fun s =>
      let (err, anchors) := writeEnd f.anchorWrite "write anchor" s.anchors (encodeAnchor C a)
      (err, { s with anchors }),
    call f.syncAnchor "sync anchor file"]

/-- `writeTailLocked(tail)`: truncate, seek to the start, write, sync. -/
def writeTailLocked (f : Faults) (t : TailState B) : Files → Option Error × Files :=
  runSteps [fun s => if f.truncateTail then (some (.wrap "truncate tail file" .io), s)
      else (none, { s with tail := [] }),
    call f.seekTail "seek tail file",
    fun s =>
      let (err, tail) := writeEnd f.tailWrite "write tail" s.tail (encodeTail C t)
      (err, { s with tail }),
    call f.syncTail "sync tail file"]

/-- `fileStore.Append(r, tail, anchor)`. -/
def append (f : Faults) (s : Files) (r : Record B) (tail : TailState B)
    (anchor : Option (Anchor B)) : Option Error × Files :=
  match getLastIndexLocked C s.logs with
  | .error e => (some e, s)
  | .ok lastIdx =>
    if lastIdx ≠ r.index - 1 then (some (SpecStore.nonContiguous lastIdx r.index), s)
    else
      runSteps [call f.lockLog "lock log file", writeRecordLocked C f r,
        call f.syncLog "sync log file",
        fun s => match anchor with
          | some a => writeAnchorLocked C f a s
          | none => (none, s),
        writeTailLocked C f tail] s

/-- Files holding the encodings of the records `rs`, of the anchors `as` in the
order they were written, and of the tail `t?`. -/
def encoding (rs : List (Record B)) (as : List (Anchor B)) (t? : Option (TailState B)) : Files :=
  ⟨recordStream C rs, anchorStream C as, (t?.map (encodeTail C)).getD []⟩

theorem empty_eq_encoding : empty = encoding C ([] : List (Record B)) [] none := rfl

/-- **`Append` without failures.** On files holding encodings, `Append` refuses a
record that does not follow the last index and changes nothing, or else appends
the record, appends the anchor and replaces the tail. -/
theorem append_encoding (rs : List (Record B)) (as : List (Anchor B)) (t? : Option (TailState B))
    (r : Record B) (t : TailState B) (a? : Option (Anchor B)) :
    append C {} (encoding C rs as t?) r t a? =
      if lastIndex rs ≠ r.index - 1 then
        (some (SpecStore.nonContiguous (lastIndex rs) r.index), encoding C rs as t?)
      else (none, encoding C (rs ++ [r]) (as ++ a?.toList) (some t)) := by
  have hlast : getLastIndexLocked C (encoding C rs as t?).logs = .ok (lastIndex rs) :=
    getLastIndexLocked_stream C rs
  simp only [append, hlast]
  split_ifs
  · rfl
  · cases a? <;> simp [runSteps, call, writeRecordLocked, writeAnchorLocked, writeTailLocked,
      writeEnd, encoding, recordStream_append, anchorStream_append, anchorStream_cons]

/-- **A failed sync of `logs.dat`.** The call returns the error after the record
was written: the log holds it, while the anchor and the tail are as before. -/
theorem append_syncLog_fault (rs : List (Record B)) (as : List (Anchor B))
    (t? : Option (TailState B)) (r : Record B) (t : TailState B) (a? : Option (Anchor B))
    (hnext : lastIndex rs = r.index - 1) :
    append C { syncLog := true } (encoding C rs as t?) r t a? =
      (some (.wrap "sync log file" .io), encoding C (rs ++ [r]) as t?) := by
  simp [append, encoding, getLastIndexLocked_stream, hnext, runSteps, call, writeRecordLocked,
    writeEnd, recordStream_append]

/-- A record that does not follow the last index is refused before any I/O call,
whatever the faults. -/
theorem append_of_lastIndex_ne (f : Faults) (rs : List (Record B)) (as : List (Anchor B))
    (t? : Option (TailState B)) (r : Record B) (t : TailState B) (a? : Option (Anchor B))
    (h : lastIndex rs ≠ r.index - 1) :
    append C f (encoding C rs as t?) r t a? =
      (some (SpecStore.nonContiguous (lastIndex rs) r.index), encoding C rs as t?) := by
  simp [append, encoding, getLastIndexLocked_stream, h]

end Files

/-- A `fileStore`: its files, and the answers of the operating system to the
coming `Append` calls, one `Faults` each; once the list runs out nothing fails. -/
structure FileStore where
  files : Files
  faults : List Faults

/-- A store over empty files where nothing fails. -/
def FileStore.empty : FileStore := ⟨Files.empty, []⟩

/-- The file store behind the `Store` interface. -/
def fileStore : Store FileStore B where
  append s r t a :=
    let res := Files.append C (s.faults.headD {}) s.files r t a
    (res.1, ⟨res.2, s.faults.tail⟩)
  iter s k := .ok (iterLoop C k s.files.logs)
  anchorAt s i := readAnchorLoop C i s.files.anchors
  listAnchors s := listAnchorsLoop C s.files.anchors
  tail s := .ok (readTailLocked C s.files.tail)

/-! ## Reads and appends over encodings -/

section Encoding

variable (rs : List (Record B)) (as : List (Anchor B)) (t? : Option (TailState B))
  (fs : List Faults)

theorem fileStore_iter_encoding (k : UInt64) :
    (fileStore C).iter ⟨Files.encoding C rs as t?, fs⟩ k =
      .ok ((rs.map Record.stored).filter (fun r => k ≤ r.index)) :=
  congrArg Except.ok (iterLoop_stream C k rs)

theorem fileStore_iter_zero_encoding :
    (fileStore C).iter ⟨Files.encoding C rs as t?, fs⟩ 0 = .ok (rs.map Record.stored) := by
  rw [fileStore_iter_encoding]
  exact congrArg Except.ok (List.filter_eq_self.2 fun r _ => by simp [uint64_le_iff])

theorem fileStore_anchorAt_encoding (i : UInt64) :
    (fileStore C).anchorAt ⟨Files.encoding C rs as t?, fs⟩ i = .ok (as.find? (fun a => a.index = i)) :=
  readAnchorLoop_stream C i as

theorem fileStore_listAnchors_encoding :
    (fileStore C).listAnchors ⟨Files.encoding C rs as t?, fs⟩ = .ok as :=
  listAnchorsLoop_stream C as

theorem fileStore_tail_encoding : (fileStore C).tail ⟨Files.encoding C rs as t?, fs⟩ = .ok t? := by
  cases t? with
  | none => rfl
  | some t => exact congrArg Except.ok (readTailLocked_encodeTail C t)

theorem fileStore_append_encoding (r : Record B) (t : TailState B) (a? : Option (Anchor B)) :
    (fileStore C).append ⟨Files.encoding C rs as t?, []⟩ r t a? =
      if lastIndex rs ≠ r.index - 1 then
        (some (SpecStore.nonContiguous (lastIndex rs) r.index), ⟨Files.encoding C rs as t?, []⟩)
      else (none, ⟨Files.encoding C (rs ++ [r]) (as ++ a?.toList) (some t), []⟩) := by
  show ((Files.append C {} _ r t a?).1, FileStore.mk (Files.append C {} _ r t a?).2 []) = _
  rw [Files.append_encoding]
  split_ifs <;> rfl

end Encoding

/-- A record that does not follow the last index is refused whatever the faults,
and the files stay as they were. -/
theorem fileStore_append_of_lastIndex_ne (rs : List (Record B)) (as : List (Anchor B))
    (t? : Option (TailState B)) (fs : List Faults) (r : Record B) (t : TailState B)
    (a? : Option (Anchor B)) (h : lastIndex rs ≠ r.index - 1) :
    (fileStore C).append ⟨Files.encoding C rs as t?, fs⟩ r t a? =
      (some (SpecStore.nonContiguous (lastIndex rs) r.index), ⟨Files.encoding C rs as t?, fs.tail⟩) := by
  show ((Files.append C _ _ r t a?).1, FileStore.mk (Files.append C _ _ r t a?).2 fs.tail) = _
  rw [Files.append_of_lastIndex_ne C _ _ _ _ r t a? h]

/-! ## Contiguity over a run -/

/-- The last of contiguous records is their number. -/
theorem lastIndex_toNat_of_contiguous {rs : List (Record B)} (hc : Contiguous rs) :
    (lastIndex rs).toNat = rs.length := by
  induction rs using List.reverseRecOn with
  | nil => rfl
  | append_singleton rs r _ =>
    rw [lastIndex_append_singleton, (contiguous_append_singleton.1 hc).2, List.length_append,
      List.length_singleton]

/-- After contiguous records below `2^64 − 1`, `r.Index − 1` is the last index
exactly when `r.Index` is the next number. -/
theorem lastIndex_eq_sub_one_iff {rs : List (Record B)} (hc : Contiguous rs)
    (hlen : rs.length + 1 < 2 ^ 64) (r : Record B) :
    lastIndex rs = r.index - 1 ↔ r.index.toNat = rs.length + 1 :=
  uint64_eq_sub_one_iff (lastIndex_toNat_of_contiguous hc) hlen r.index

/-- **Contiguity, one state.** Over files holding contiguous records, fewer than
`2^64 − 1`, the contract holds: `Iter(0)` yields indices `1, …, n`, and an
`Append` succeeds only for index `n + 1`, leaving its tail. -/
theorem fileStore_nextIndex_encoding {rs : List (Record B)} (as : List (Anchor B))
    (t? : Option (TailState B)) (hc : Contiguous rs) (hlen : rs.length + 1 < 2 ^ 64) :
    (fileStore C).NextIndex ⟨Files.encoding C rs as t?, []⟩ := by
  refine ⟨rs.length, ⟨rs.map Record.stored, fileStore_iter_zero_encoding C rs as t? [], by simp, ?_⟩,
    fun r t a? hok => ?_⟩
  · simpa [Contiguous] using hc
  · rw [fileStore_append_encoding] at hok ⊢
    split_ifs at hok ⊢ with h
    exact ⟨(lastIndex_eq_sub_one_iff hc hlen r).1 (not_not.1 h), fun _ =>
      fileStore_tail_encoding C _ _ (some t) []⟩

/-! ## The file store refines the design's store -/

/-- The files holding a design store, with no failure to come. -/
def FileStore.ofSpec (s : SpecStore B) : FileStore :=
  ⟨Files.encoding C s.records s.anchors s.tail, []⟩

theorem Record.stored_of_lt {r : Record B} (h : r.msg.length < 2 ^ 32) : r.stored = r := by
  rw [Record.stored, msgLen, Nat.mod_eq_of_lt h, List.take_length]

theorem lastIndex_eq_maxIndex {rs : List (Record B)} (hc : Contiguous rs) :
    lastIndex rs = SpecStore.maxIndex rs := by
  rw [SpecStore.maxIndex_of_contiguous hc, uint64_eq_iff, lastIndex_toNat_of_contiguous hc,
    uint64_toNat_natCast, Nat.mod_eq_of_lt (contiguous_length_lt hc)]

/-- **Refinement, one step.** On the files of a design store with contiguous
records, an `Append` without failures whose anchor comes after every held one
returns what the design's `append` returns, and leaves the files of the store it
leaves. -/
theorem fileStore_append_ofSpec (s : SpecStore B) (hc : Contiguous s.records) (r : Record B)
    (t : TailState B) (a? : Option (Anchor B)) (ha : ∀ a ∈ a?, ∀ b ∈ s.anchors, b.index < a.index) :
    (fileStore C).append (FileStore.ofSpec C s) r t a? =
      ((s.append r t a?).1, FileStore.ofSpec C (s.append r t a?).2) := by
  rw [FileStore.ofSpec, fileStore_append_encoding, lastIndex_eq_maxIndex hc]
  unfold SpecStore.append
  split_ifs
  · rfl
  · rw [SpecStore.putAnchor_of_lt ha]; rfl

/-- **Refinement, a run.** -/
theorem fileStore_appendAll_ofSpec (ops : List (Record B × TailState B × Option (Anchor B))) :
    ∀ (s : SpecStore B), Contiguous s.records → s.records.length + ops.length < 2 ^ 64 →
      AnchorsAfter s.anchors ops →
      (fileStore C).appendAll (FileStore.ofSpec C s) ops =
        ((SpecStore.store.appendAll s ops).1, FileStore.ofSpec C (SpecStore.store.appendAll s ops).2) := by
  induction ops with
  | nil => exact fun _ _ _ _ => rfl
  | cons op ops ih =>
    obtain ⟨r, t, a?⟩ := op
    intro s hc hn ha
    simp only [List.length_cons] at hn
    have hrest := ih (s.append r t a?).2 (SpecStore.append_contiguous hc (by omega) r t a?)
      (by have := SpecStore.length_append_le s r t a?; omega) ha.append
    rw [Store.appendAll_cons_eq, Store.appendAll_cons_eq, fileStore_append_ofSpec C s hc r t a? ha.1,
      SpecStore.store_append]
    dsimp only
    rw [hrest]

/-- The design stores the file store keeps step with under the logger: records
with the indices `1, …, n`, and no anchor past the last of them. -/
structure SpecStore.Filed (s : SpecStore B) : Prop where
  contiguous : Contiguous s.records
  anchors_le : ∀ b ∈ s.anchors, b.index.toNat ≤ s.records.length

theorem SpecStore.filed_empty : (SpecStore.empty : SpecStore B).Filed :=
  ⟨contiguous_nil, fun _ hb => by cases hb⟩

/-- **Refinement under the logger, one step.** On the files of a filed design
store, fewer than `2^64 − 1` records, an `Append` without failures whose anchor
carries the record's index returns what the design's `append` returns, and
leaves the files of the filed store it leaves. -/
theorem fileStore_append_ofSpec_filed {s : SpecStore B} (hs : s.Filed)
    (hlen : s.records.length + 1 < 2 ^ 64) (r : Record B) (t : TailState B)
    (a? : Option (Anchor B)) (ha : ∀ a ∈ a?, a.index = r.index) :
    (fileStore C).append (FileStore.ofSpec C s) r t a? =
        ((s.append r t a?).1, FileStore.ofSpec C (s.append r t a?).2) ∧
      (s.append r t a?).2.Filed := by
  by_cases hm : SpecStore.maxIndex s.records = r.index - 1
  · -- the next record: its anchor comes after every held one
    have hr : r.index.toNat = s.records.length + 1 := by
      rwa [← lastIndex_eq_maxIndex hs.contiguous, lastIndex_eq_sub_one_iff hs.contiguous hlen] at hm
    have hafter : ∀ a ∈ a?, ∀ b ∈ s.anchors, b.index < a.index := fun a ha' b hb => by
      rw [uint64_lt_iff, ha a ha', hr]
      exact Nat.lt_succ_of_le (hs.anchors_le b hb)
    refine ⟨fileStore_append_ofSpec C s hs.contiguous r t a? hafter,
      SpecStore.append_contiguous hs.contiguous hlen r t a?, fun b hb => ?_⟩
    rw [SpecStore.append_eq_ok hm, List.length_append, List.length_singleton]
    rcases List.mem_append.1 (SpecStore.mem_append_anchors hb) with hb | hb
    · exact (hs.anchors_le b hb).trans (Nat.le_succ _)
    · rw [ha b (Option.mem_toList.1 hb), hr]
  · have hno : s.append r t a? = (some (SpecStore.nonContiguous (SpecStore.maxIndex s.records) r.index), s) :=
      if_pos hm
    rw [hno, FileStore.ofSpec, fileStore_append_encoding, lastIndex_eq_maxIndex hs.contiguous, if_pos hm]
    exact ⟨rfl, hs⟩

/-- **Refinement under the logger, one call.** On the files of a filed design
store, fewer than `2^64 − 1` records, a logger's `Append` over the file store
returns what it returns over the design's store, and leaves the files of the
filed store it leaves there. -/
theorem Logger.append_fileStore_ofSpec (P : Primitives B) (l : Logger B) {s : SpecStore B}
    (hs : s.Filed) (hlen : s.records.length + 1 < 2 ^ 64) (msg : List UInt8) (ts : Time) :
    l.append P (fileStore C) (FileStore.ofSpec C s) msg ts =
        ((l.append P SpecStore.store s msg ts).1, (l.append P SpecStore.store s msg ts).2.1,
          FileStore.ofSpec C (l.append P SpecStore.store s msg ts).2.2) ∧
      (l.append P SpecStore.store s msg ts).2.2.Filed := by
  have h := fileStore_append_ofSpec_filed C hs hlen (Logger.pendingRecord P l msg ts)
    (Logger.pendingTail P l msg ts) (Logger.pendingAnchor P l msg ts)
    (fun _ => Logger.pendingAnchor_index)
  exact ⟨Logger.append_map _ h.1, by rw [Logger.append_store]; exact h.2⟩

/-- **Refinement under the logger, a run.** From the files of a filed design store,
while fewer than `2^64` records are reached, a logger's run over the file store
returns what its run over the design's store returns, and leaves the files of the
filed store that run leaves. -/
theorem Logger.run_fileStore_ofSpec (P : Primitives B) (l : Logger B) {s : SpecStore B}
    (hs : s.Filed) (ops : List (List UInt8 × Time)) (hlen : s.records.length + ops.length < 2 ^ 64) :
    l.run P (fileStore C) (FileStore.ofSpec C s) ops =
        ((l.run P SpecStore.store s ops).1, (l.run P SpecStore.store s ops).2.1,
          FileStore.ofSpec C (l.run P SpecStore.store s ops).2.2) ∧
      (l.run P SpecStore.store s ops).2.2.Filed :=
  have h := Logger.run_map (FileStore.ofSpec C) (fun n s => s.Filed ∧ s.records.length + n < 2 ^ 64)
    (fun n s r t a? _ ha ⟨hs, hn⟩ =>
      have h := fileStore_append_ofSpec_filed C hs (by omega) r t a? ha
      ⟨h.1, h.2, by have := SpecStore.length_append_le s r t a?; simp only [SpecStore.store]; omega⟩)
    ops ⟨hs, hlen⟩
  ⟨h.1, h.2.1⟩

section Reads

variable (s : SpecStore B)

theorem fileStore_iter_ofSpec (hsmall : ∀ r ∈ s.records, r.msg.length < 2 ^ 32) (k : UInt64) :
    (fileStore C).iter (FileStore.ofSpec C s) k = .ok (s.iter k) := by
  rw [FileStore.ofSpec, fileStore_iter_encoding,
    List.map_congr_left fun r hr => Record.stored_of_lt (hsmall r hr), List.map_id']
  rfl

theorem fileStore_anchorAt_ofSpec (i : UInt64) :
    (fileStore C).anchorAt (FileStore.ofSpec C s) i = .ok (s.anchorAt i) :=
  fileStore_anchorAt_encoding C _ _ _ _ i

theorem fileStore_listAnchors_ofSpec :
    (fileStore C).listAnchors (FileStore.ofSpec C s) = .ok s.anchors :=
  fileStore_listAnchors_encoding C _ _ _ _

theorem fileStore_tail_ofSpec : (fileStore C).tail (FileStore.ofSpec C s) = .ok s.tail :=
  fileStore_tail_encoding C _ _ _ _

end Reads

/-- `n` calls carrying the indices `1, …, n`, with the block `b` in every tag. -/
def countingOps (b : B) (n : ℕ) : List (Record B × TailState B × Option (Anchor B)) :=
  (List.range n).map fun j =>
    (⟨((j + 1 : ℕ) : UInt64), ⟨0⟩, [], b, b⟩, ⟨((j + 1 : ℕ) : UInt64), b, b⟩, none)

/-- The file store takes the calls `1, …, n` one after another, for every `n`:
nothing bounds the index the check compares. -/
theorem fileStore_appendAll_countingOps (b : B) (n : ℕ) :
    ∃ rs t?, ((fileStore C).appendAll FileStore.empty (countingOps b n)).2 =
      ⟨Files.encoding C rs [] t?, []⟩ ∧ lastIndex rs = (n : UInt64) := by
  induction n with
  | zero => exact ⟨[], none, rfl, rfl⟩
  | succ n ih =>
    obtain ⟨rs, t?, h, hlast⟩ := ih
    have hnext : lastIndex rs = ((n + 1 : ℕ) : UInt64) - 1 := by
      rw [hlast, Nat.cast_succ, add_sub_cancel_right]
    refine ⟨rs ++ [⟨((n + 1 : ℕ) : UInt64), ⟨0⟩, [], b, b⟩], some ⟨((n + 1 : ℕ) : UInt64), b, b⟩,
      ?_, by simp⟩
    rw [countingOps, List.range_succ, List.map_append, ← countingOps, Store.appendAll_append, h,
      List.map_singleton, Store.appendAll_cons, fileStore_append_encoding, if_neg (not_not.2 hnext)]
    rfl

/-- **The check wraps.** After the calls `1, …, 2^64 − 1`, the file store takes
a record of index 0, since `0 − 1` is `2^64 − 1` in `uint64`; so the contract
`NextIndex` fails at a state a run of appends reaches. -/
theorem fileStore_accepts_index_zero_after_wrap (b : B) :
    ((fileStore C).append ((fileStore C).appendAll FileStore.empty (countingOps b (2 ^ 64 - 1))).2
        ⟨0, ⟨0⟩, [], b, b⟩ ⟨0, b, b⟩ none).1 = none ∧
    ¬ (fileStore C).NextIndex
        ((fileStore C).appendAll FileStore.empty (countingOps b (2 ^ 64 - 1))).2 := by
  obtain ⟨rs, t?, h, hlast⟩ := fileStore_appendAll_countingOps C b (2 ^ 64 - 1)
  have hok : ((fileStore C).append ⟨Files.encoding C rs [] t?, []⟩
      ⟨0, ⟨0⟩, [], b, b⟩ ⟨0, b, b⟩ none).1 = none := by
    rw [fileStore_append_encoding, if_neg (not_not.2 (by
      rw [hlast]; show ((2 ^ 64 - 1 : ℕ) : UInt64) = 0 - 1; decide))]
  rw [h]
  exact ⟨hok, fun ⟨n, _, hstep⟩ => Nat.succ_ne_zero n (hstep _ _ _ hok).1.symm⟩

/-- The wrap over `[32]byte` blocks: the calls `1, …, 2^64 − 1`, then index 0. -/
theorem file_store_accepts_index_zero :
    ((fileStore Block32.codec).append
        ((fileStore Block32.codec).appendAll FileStore.empty (countingOps Block32.zero (2 ^ 64 - 1))).2
        ⟨0, ⟨0⟩, [], Block32.zero, Block32.zero⟩ ⟨0, Block32.zero, Block32.zero⟩ none).1 = none ∧
    ¬ (fileStore Block32.codec).NextIndex
        ((fileStore Block32.codec).appendAll FileStore.empty (countingOps Block32.zero (2 ^ 64 - 1))).2 :=
  fileStore_accepts_index_zero_after_wrap Block32.codec Block32.zero

/-- **A failed `Append` can keep its record.** On files holding any records, a call
whose record follows the last index and whose sync of `logs.dat` fails returns
the error, yet the record was written: `Iter` yields it afterwards, and the
same call again is refused as non-contiguous. -/
theorem append_error_leaves_record (rs : List (Record B)) (as : List (Anchor B))
    (t? : Option (TailState B)) (fs : List Faults) (r : Record B) (t : TailState B)
    (a? : Option (Anchor B)) (hnext : lastIndex rs = r.index - 1) :
    (fileStore C).append ⟨Files.encoding C rs as t?, { syncLog := true } :: fs⟩ r t a? =
      (some (.wrap "sync log file" .io), ⟨Files.encoding C (rs ++ [r]) as t?, fs⟩) ∧
    (fileStore C).iter ⟨Files.encoding C rs as t?, { syncLog := true } :: fs⟩ 0 =
      .ok (rs.map Record.stored) ∧
    (fileStore C).iter ⟨Files.encoding C (rs ++ [r]) as t?, fs⟩ 0 =
      .ok ((rs ++ [r]).map Record.stored) ∧
    ((fileStore C).append ⟨Files.encoding C (rs ++ [r]) as t?, fs⟩ r t a?).1 =
      some (SpecStore.nonContiguous r.index r.index) := by
  have hne : lastIndex (rs ++ [r]) ≠ r.index - 1 := by
    rw [lastIndex_append_singleton]
    exact fun h => absurd (sub_eq_self.1 h.symm) (by decide)
  refine ⟨?_, fileStore_iter_zero_encoding C _ _ _ _, fileStore_iter_zero_encoding C _ _ _ _, ?_⟩
  · show ((Files.append C { syncLog := true } (Files.encoding C rs as t?) r t a?).1,
      FileStore.mk (Files.append C { syncLog := true } (Files.encoding C rs as t?) r t a?).2 fs) = _
    rw [Files.append_syncLog_fault C rs as t? r t a? hnext]
  · show (Files.append C (fs.headD {}) (Files.encoding C (rs ++ [r]) as t?) r t a?).1 = _
    rw [Files.append_of_lastIndex_ne C _ _ _ _ r t a? hne, lastIndex_append_singleton]

theorem append_error_leaves_record_first_call :
    lastIndex ([] : List (Record Block32)) = (1 : UInt64) - 1 ∧
    (fileStore Block32.codec).append ⟨Files.encoding Block32.codec [] [] none, [{ syncLog := true }]⟩
        ⟨1, ⟨0⟩, bytesOf "a", Block32.zero, Block32.zero⟩ ⟨1, Block32.zero, Block32.zero⟩ none =
      (some (.wrap "sync log file" .io),
        ⟨Files.encoding Block32.codec [⟨1, ⟨0⟩, bytesOf "a", Block32.zero, Block32.zero⟩] [] none, []⟩) ∧
    (fileStore Block32.codec).iter
        ⟨Files.encoding Block32.codec [] [] none, [{ syncLog := true }]⟩ 0 = .ok [] ∧
    (fileStore Block32.codec).iter ⟨Files.encoding Block32.codec
        [⟨1, ⟨0⟩, bytesOf "a", Block32.zero, Block32.zero⟩] [] none, []⟩ 0 =
      .ok ([⟨1, ⟨0⟩, bytesOf "a", Block32.zero, Block32.zero⟩].map Record.stored) ∧
    ((fileStore Block32.codec).append ⟨Files.encoding Block32.codec
        [⟨1, ⟨0⟩, bytesOf "a", Block32.zero, Block32.zero⟩] [] none, []⟩
        ⟨1, ⟨0⟩, bytesOf "a", Block32.zero, Block32.zero⟩ ⟨1, Block32.zero, Block32.zero⟩ none).1 =
      some (SpecStore.nonContiguous 1 1) :=
  ⟨by decide, append_error_leaves_record Block32.codec [] [] none []
    ⟨1, ⟨0⟩, bytesOf "a", Block32.zero, Block32.zero⟩ ⟨1, Block32.zero, Block32.zero⟩ none (by decide)⟩

/-! ## The format round-trips a run -/

/-- **Run lemma.** A run of appends without failures on files holding encodings,
every call succeeding, leaves the encodings of all the records, of the anchors in
the order written, and of the last tail written (`t?` if none was). -/
theorem fileStore_appendAll_encoding (ops : List (Record B × TailState B × Option (Anchor B))) :
    ∀ (rs : List (Record B)) (as : List (Anchor B)) (t? : Option (TailState B)),
      (∀ res ∈ ((fileStore C).appendAll ⟨Files.encoding C rs as t?, []⟩ ops).1, res = none) →
      ((fileStore C).appendAll ⟨Files.encoding C rs as t?, []⟩ ops).2 =
        ⟨Files.encoding C (rs ++ ops.map (·.1)) (as ++ ops.flatMap (·.2.2.toList))
          (ops.foldl (fun _ op => some op.2.1) t?), []⟩ := by
  induction ops with
  | nil => intro rs as t? _; simp
  | cons op ops ih =>
    obtain ⟨r, t, a?⟩ := op
    intro rs as t? hok
    rw [Store.appendAll_cons_eq, List.forall_mem_cons] at hok
    rw [Store.appendAll_cons, fileStore_append_encoding] at *
    split_ifs at hok ⊢
    · exact absurd hok.1 (by simp)
    · rw [ih _ _ _ hok.2]
      simp

/-- **The on-disk format round-trips.** After any run of appends from an empty
file store, every call succeeding, with messages shorter than `2^32` bytes:
`Iter(k)` yields the records of index at least `k` in append order, as written;
`getLastIndexLocked` returns the last index; `AnchorAt`, `ListAnchors` and `Tail`
decode the anchors and the last tail written. -/
theorem fileStore_round_trip (ops : List (Record B × TailState B × Option (Anchor B)))
    (hsmall : ∀ op ∈ ops, op.1.msg.length < 2 ^ 32)
    (hok : ∀ res ∈ ((fileStore C).appendAll FileStore.empty ops).1, res = none) :
    (∀ k, (fileStore C).iter ((fileStore C).appendAll FileStore.empty ops).2 k =
      .ok ((ops.map (·.1)).filter (fun r => k ≤ r.index))) ∧
    getLastIndexLocked C ((fileStore C).appendAll FileStore.empty ops).2.files.logs =
      .ok (lastIndex (ops.map (·.1))) ∧
    (∀ i, (fileStore C).anchorAt ((fileStore C).appendAll FileStore.empty ops).2 i =
      .ok ((ops.flatMap (·.2.2.toList)).find? (fun a => a.index = i))) ∧
    (fileStore C).listAnchors ((fileStore C).appendAll FileStore.empty ops).2 =
      .ok (ops.flatMap (·.2.2.toList)) ∧
    (fileStore C).tail ((fileStore C).appendAll FileStore.empty ops).2 =
      .ok (ops.foldl (fun _ op => some op.2.1) none) := by
  rw [FileStore.empty, Files.empty_eq_encoding] at hok ⊢
  rw [fileStore_appendAll_encoding C ops [] [] none hok]
  simp only [List.nil_append]
  have hstored : (ops.map (·.1)).map Record.stored = ops.map (·.1) := by
    rw [List.map_congr_left fun r hr => Record.stored_of_lt (by
      obtain ⟨op, hop, rfl⟩ := List.mem_map.1 hr
      exact hsmall op hop), List.map_id']
  refine ⟨fun k => ?_, getLastIndexLocked_stream C _, fileStore_anchorAt_encoding C _ _ _ _,
    fileStore_listAnchors_encoding C _ _ _ _, fileStore_tail_encoding C _ _ _ _⟩
  rw [fileStore_iter_encoding, hstored]

/-- One record of index 1 with an empty message, as the counting run writes it. -/
theorem fileStore_round_trip_one_record :
    (∀ op ∈ countingOps Block32.zero 1, op.1.msg.length < 2 ^ 32) ∧
    (∀ res ∈ ((fileStore Block32.codec).appendAll FileStore.empty
      (countingOps Block32.zero 1)).1, res = none) ∧
    ((∀ k, (fileStore Block32.codec).iter ((fileStore Block32.codec).appendAll FileStore.empty
        (countingOps Block32.zero 1)).2 k =
      .ok (((countingOps Block32.zero 1).map (·.1)).filter (fun r => k ≤ r.index))) ∧
    getLastIndexLocked Block32.codec ((fileStore Block32.codec).appendAll FileStore.empty
        (countingOps Block32.zero 1)).2.files.logs =
      .ok (lastIndex ((countingOps Block32.zero 1).map (·.1))) ∧
    (∀ i, (fileStore Block32.codec).anchorAt ((fileStore Block32.codec).appendAll FileStore.empty
        (countingOps Block32.zero 1)).2 i =
      .ok (((countingOps Block32.zero 1).flatMap (·.2.2.toList)).find? (fun a => a.index = i))) ∧
    (fileStore Block32.codec).listAnchors ((fileStore Block32.codec).appendAll FileStore.empty
        (countingOps Block32.zero 1)).2 =
      .ok ((countingOps Block32.zero 1).flatMap (·.2.2.toList)) ∧
    (fileStore Block32.codec).tail ((fileStore Block32.codec).appendAll FileStore.empty
        (countingOps Block32.zero 1)).2 =
      .ok ((countingOps Block32.zero 1).foldl (fun _ op => some op.2.1) none)) :=
  ⟨by decide, by decide, fileStore_round_trip Block32.codec _ (by decide) (by decide)⟩

/-- **A message of `2^32` bytes or more is cut, not refused.** On files holding
any encodings, an `Append` without failures of a record that follows the last
index and whose message has `2^32` bytes or more succeeds, and the log then holds
a record other than the one written: its message cut to `len mod 2^32` bytes. -/
theorem fileStore_append_cuts_long_message (rs : List (Record B)) (as : List (Anchor B))
    (t? : Option (TailState B)) (r : Record B) (t : TailState B) (a? : Option (Anchor B))
    (hnext : lastIndex rs = r.index - 1) (hlong : 2 ^ 32 ≤ r.msg.length) :
    ((fileStore C).append ⟨Files.encoding C rs as t?, []⟩ r t a?).1 = none ∧
    (fileStore C).iter ((fileStore C).append ⟨Files.encoding C rs as t?, []⟩ r t a?).2 0 =
      .ok ((rs ++ [r]).map Record.stored) ∧
    r.stored ≠ r := by
  rw [fileStore_append_encoding, if_neg (not_not.2 hnext)]
  refine ⟨rfl, fileStore_iter_zero_encoding C _ _ _ _, fun h => ?_⟩
  have hlen := congrArg (fun r : Record B => r.msg.length) h
  simp only [Record.stored, List.length_take] at hlen
  have := msgLen_lt r.msg
  omega

/-- The first record of a log, with a message of exactly `2^32` zero bytes: it is
stored with an empty message. -/
theorem fileStore_append_cuts_long_message_first_record :
    lastIndex ([] : List (Record Block32)) =
        (⟨1, ⟨0⟩, List.replicate (2 ^ 32) 0, Block32.zero, Block32.zero⟩ : Record Block32).index - 1 ∧
      2 ^ 32 ≤ (List.replicate (2 ^ 32) (0 : UInt8)).length ∧
      ((fileStore Block32.codec).append ⟨Files.encoding Block32.codec [] [] none, []⟩
          ⟨1, ⟨0⟩, List.replicate (2 ^ 32) 0, Block32.zero, Block32.zero⟩
          ⟨1, Block32.zero, Block32.zero⟩ none).1 = none ∧
      (fileStore Block32.codec).iter ((fileStore Block32.codec).append
          ⟨Files.encoding Block32.codec [] [] none, []⟩
          ⟨1, ⟨0⟩, List.replicate (2 ^ 32) 0, Block32.zero, Block32.zero⟩
          ⟨1, Block32.zero, Block32.zero⟩ none).2 0 =
        .ok (([] ++ [(⟨1, ⟨0⟩, List.replicate (2 ^ 32) 0, Block32.zero, Block32.zero⟩ :
          Record Block32)]).map Record.stored) ∧
      (⟨1, ⟨0⟩, List.replicate (2 ^ 32) 0, Block32.zero, Block32.zero⟩ : Record Block32).stored ≠
        ⟨1, ⟨0⟩, List.replicate (2 ^ 32) 0, Block32.zero, Block32.zero⟩ :=
  ⟨rfl, (List.length_replicate _ _).ge, fileStore_append_cuts_long_message Block32.codec [] [] none
    ⟨1, ⟨0⟩, List.replicate (2 ^ 32) 0, Block32.zero, Block32.zero⟩ ⟨1, Block32.zero, Block32.zero⟩
    none rfl (List.length_replicate _ _).ge⟩

end SecureLog
