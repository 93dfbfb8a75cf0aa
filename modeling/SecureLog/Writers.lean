import SecureLog.FileStore

/- Processes appending to one directory (`file_store.go`).

   A process opens its own `fileStore` on the directory, so its `s.mu` keeps
   apart only its own calls; what the processes share is the three files and
   the `flock` of `logs.dat`. `Append` takes the `flock` after
   `getLastIndexLocked` and the check `lastIdx != r.Index-1`, so one call is two
   steps here:

   1. the check (`Files.checkLastIndex`), which reads `logs.dat` and returns
      the error or passes;
   2. the block under the `flock` (`Files.writeLocked`): the lock call, the
      record, the sync, the anchor and the tail. No other process's block runs
      inside it, and a check reads only `logs.dat`, which in the block only the
      record's `Write` changes, so the block is one step.

   `Files.append` is the check followed by the block
   (`append_eq_checkLastIndex_writeLocked`): a process whose two steps come
   together does what `Append` does alone (`runSchedule_pair`).

   A schedule lists the positions of the processes that step, in the order
   their steps happen (`Writer.runSchedule`). Without I/O failures, whatever the
   schedule and the number of processes (`concurrent_appends_keep_whole_records`):
   the files keep holding encodings, with the records, anchors and tails of the
   calls that returned nil appended whole, once each, in the order they
   returned; each such record's check passed against the file as it was at
   some earlier point, after a prefix of the records written before it, not
   necessarily all of them; and a call is refused only by its check, against
   such a file.

   The `flock` does not cover the check. Two processes appending index `n + 1`
   that both check before either writes both return nil, and `logs.dat` then
   holds two records of index `n + 1`: the store's contiguity contract
   (`Store.NextIndex`), which held, fails. Run one after the other, the second
   is refused and the contract holds (`flock_does_not_cover_check`). -/
namespace SecureLog

open scoped UInt64.CommRing

variable {B : Type} (C : BlockCodec B)

namespace Files

/-- The part of `Append` before the `flock`: `getLastIndexLocked` and the check
`lastIdx != r.Index-1`. -/
def checkLastIndex (s : Files) (r : Record B) : Option Error :=
  match getLastIndexLocked C s.logs with
  | .error e => some e
  | .ok lastIdx =>
    if lastIdx ≠ r.index - 1 then some (SpecStore.nonContiguous lastIdx r.index) else none

/-- The part of `Append` under the `flock` of `logs.dat`. -/
def writeLocked (f : Faults) (r : Record B) (tail : TailState B) (anchor : Option (Anchor B)) :
    Files → Option Error × Files :=
  runSteps [call f.lockLog "lock log file", writeRecordLocked C f r,
    call f.syncLog "sync log file",
    fun s => match anchor with
      | some a => writeAnchorLocked C f a s
      | none => (none, s),
    writeTailLocked C f tail]

/-- `Append` is the check followed by the block under the `flock`. -/
theorem append_eq_checkLastIndex_writeLocked (f : Faults) (s : Files) (r : Record B)
    (tail : TailState B) (anchor : Option (Anchor B)) :
    append C f s r tail anchor =
      match checkLastIndex C s r with
      | some e => (some e, s)
      | none => writeLocked C f r tail anchor s := by
  unfold append checkLastIndex
  rcases getLastIndexLocked C s.logs with e | lastIdx
  · rfl
  · dsimp only; split_ifs <;> rfl

section Encoding

variable (rs : List (Record B)) (as : List (Anchor B)) (t? : Option (TailState B))

theorem checkLastIndex_encoding (r : Record B) :
    checkLastIndex C (encoding C rs as t?) r =
      if lastIndex rs ≠ r.index - 1 then some (SpecStore.nonContiguous (lastIndex rs) r.index)
      else none := by
  simp only [checkLastIndex, encoding, getLastIndexLocked_stream]

/-- Without failures the block appends the record and the anchor and replaces the tail. -/
theorem writeLocked_encoding (r : Record B) (t : TailState B) (a? : Option (Anchor B)) :
    writeLocked C {} r t a? (encoding C rs as t?) =
      (none, encoding C (rs ++ [r]) (as ++ a?.toList) (some t)) := by
  cases a? <;> simp [writeLocked, runSteps, call, writeRecordLocked, writeAnchorLocked,
    writeTailLocked, writeEnd, encoding, recordStream_append, anchorStream_append]

end Encoding

end Files

/-! ## Processes and schedules -/

/-- One process's call `Append(r, tail, anchor)`, with the answers `f` its I/O
calls get. -/
structure AppendCall (B : Type) where
  f : Faults
  r : Record B
  tail : TailState B
  anchor : Option (Anchor B)

/-- The call `Append(r, tail, anchor)` with no I/O call failing. -/
def AppendCall.ofOp (op : Record B × TailState B × Option (Anchor B)) : AppendCall B :=
  ⟨{}, op.1, op.2.1, op.2.2⟩

/-- Where a process's call stands. -/
inductive Stage
  /-- not started -/
  | start
  /-- past the check, waiting for the `flock` -/
  | checked
  /-- returned `err` -/
  | returned (err : Option Error)
  deriving DecidableEq, Repr

/-- A process of the directory: its call and where the call stands. -/
structure Writer (B : Type) where
  call : AppendCall B
  stage : Stage

namespace Writer

/-- A process about to make its call. -/
def start (c : AppendCall B) : Writer B := ⟨c, .start⟩

/-- The process's next step on the shared files. -/
def step (w : Writer B) (s : Files) : Writer B × Files :=
  match w.stage with
  | .start =>
    ({ w with stage := match Files.checkLastIndex C s w.call.r with
        | some e => .returned (some e)
        | none => .checked }, s)
  | .checked =>
    let res := Files.writeLocked C w.call.f w.call.r w.call.tail w.call.anchor s
    ({ w with stage := .returned res.1 }, res.2)
  | .returned _ => (w, s)

/-- One step of the process at position `i`, if there is one. -/
def stepAt (i : ℕ) (ws : List (Writer B)) (s : Files) : List (Writer B) × Files :=
  match ws[i]? with
  | none => (ws, s)
  | some w => (ws.set i (w.step C s).1, (w.step C s).2)

/-- The processes `ws` under a schedule: the positions of the processes that step,
in order. -/
def runSchedule : List ℕ → List (Writer B) → Files → List (Writer B) × Files
  | [], ws, s => (ws, s)
  | i :: is, ws, s => runSchedule is (stepAt C i ws s).1 (stepAt C i ws s).2

/-- The call of a process that returned nil. -/
def written (w : Writer B) : List (AppendCall B) :=
  if w.stage = .returned none then [w.call] else []

theorem runSchedule_append (s₁ s₂ : List ℕ) (ws : List (Writer B)) (s : Files) :
    runSchedule C (s₁ ++ s₂) ws s =
      runSchedule C s₂ (runSchedule C s₁ ws s).1 (runSchedule C s₁ ws s).2 := by
  induction s₁ generalizing ws s with
  | nil => rfl
  | cons i is ih => exact ih _ _

/-- **A process alone.** Its two steps back to back are the store's `Append`. -/
theorem runSchedule_pair {ws : List (Writer B)} {i : ℕ} {w : Writer B} (hi : ws[i]? = some w)
    (hw : w.stage = .start) (s : Files) :
    runSchedule C [i, i] ws s =
      let res := Files.append C w.call.f s w.call.r w.call.tail w.call.anchor
      (ws.set i { w with stage := .returned res.1 }, res.2) := by
  rw [Files.append_eq_checkLastIndex_writeLocked]
  have hlen : i < ws.length := (List.getElem?_eq_some_iff.1 hi).1
  cases hc : Files.checkLastIndex C s w.call.r <;>
    simp [runSchedule, stepAt, step, hi, hw, hc, hlen]

end Writer

/-! ## Without failures, any schedule -/

section Done

variable {α β : Type} {f : α → List β} {l : List α} {i : ℕ} {a b : α}

/-- Replacing an element by one with the same image leaves a `flatMap` alone. -/
theorem flatMap_set_of_eq (h : l[i]? = some a) (hf : f b = f a) :
    (l.set i b).flatMap f = l.flatMap f := by
  induction l generalizing i with
  | nil => simp at h
  | cons x l ih =>
    cases i with
    | zero => simp only [List.getElem?_cons_zero, Option.some.injEq] at h; subst h; simp [hf]
    | succ i => simp [ih (by simpa using h)]

/-- Replacing an element whose image is empty moves the new image to the end. -/
theorem flatMap_set_perm (h : l[i]? = some a) (ha : f a = []) :
    ((l.set i b).flatMap f).Perm (l.flatMap f ++ f b) := by
  induction l generalizing i with
  | nil => simp at h
  | cons x l ih =>
    cases i with
    | zero =>
      simp only [List.getElem?_cons_zero, Option.some.injEq] at h; subst h
      simpa [ha] using List.perm_append_comm
    | succ i => simpa using (ih (by simpa using h)).append_left (f x)

variable (rs : List (Record B)) (as : List (Anchor B)) (t? : Option (TailState B))

/-- The files that held `rs`, `as` and `t?`, after the calls `done`, in order,
appended their records and anchors and wrote their tails. -/
def Files.encodingAfter (done : List (AppendCall B)) : Files :=
  Files.encoding C (rs ++ done.map AppendCall.r) (as ++ done.flatMap fun c => c.anchor.toList)
    ((done.getLast?.map AppendCall.tail).or t?)

theorem Files.writeLocked_encodingAfter (done : List (AppendCall B)) (c : AppendCall B) :
    Files.writeLocked C {} c.r c.tail c.anchor (Files.encodingAfter C rs as t? done) =
      (none, Files.encodingAfter C rs as t? (done ++ [c])) := by
  simp [Files.encodingAfter, Files.writeLocked_encoding]

/-- Call `c`'s record follows the last index of the file after a prefix of the
calls `done`. -/
def Follows (done : List (AppendCall B)) (c : AppendCall B) : Prop :=
  ∃ pre, pre <+: done ∧ lastIndex (rs ++ pre.map AppendCall.r) = c.r.index - 1

/-- Call `c` is refused with `e` by its check against the file after a prefix of
the calls `done`. -/
def Refused (done : List (AppendCall B)) (c : AppendCall B) (e : Error) : Prop :=
  ∃ pre, pre <+: done ∧ lastIndex (rs ++ pre.map AppendCall.r) ≠ c.r.index - 1 ∧
    e = SpecStore.nonContiguous (lastIndex (rs ++ pre.map AppendCall.r)) c.r.index

theorem Files.checkLastIndex_encodingAfter (done : List (AppendCall B)) (r : Record B) :
    Files.checkLastIndex C (Files.encodingAfter C rs as t? done) r =
      if lastIndex (rs ++ done.map AppendCall.r) ≠ r.index - 1 then
        some (SpecStore.nonContiguous (lastIndex (rs ++ done.map AppendCall.r)) r.index)
      else none :=
  Files.checkLastIndex_encoding C _ _ _ r

variable {C rs}

theorem Follows.append {done : List (AppendCall B)} {c : AppendCall B} (h : Follows rs done c)
    (more : List (AppendCall B)) : Follows rs (done ++ more) c :=
  let ⟨pre, hp, hl⟩ := h
  ⟨pre, hp.trans (List.prefix_append _ _), hl⟩

theorem Refused.append {done : List (AppendCall B)} {c : AppendCall B} {e : Error}
    (h : Refused rs done c e) (more : List (AppendCall B)) : Refused rs (done ++ more) c e :=
  let ⟨pre, hp, hl⟩ := h
  ⟨pre, hp.trans (List.prefix_append _ _), hl⟩

variable (C rs)

/-- What processes without failures have done to files that held `rs`, `as` and
`t?`: `done` are the calls that returned nil, in the order they did. -/
structure Done (ws : List (Writer B)) (s : Files) (done : List (AppendCall B)) : Prop where
  faults : ∀ w ∈ ws, w.call.f = {}
  perm : done.Perm (ws.flatMap Writer.written)
  files : s = Files.encodingAfter C rs as t? done
  follows : ∀ pre c post, done = pre ++ c :: post → Follows rs pre c
  checked : ∀ w ∈ ws, w.stage = .checked → Follows rs done w.call
  refused : ∀ w ∈ ws, ∀ e, w.stage = .returned (some e) → Refused rs done w.call e

variable {C rs as t?}

/-- A step that writes nothing and returns nil to no one keeps `Done`. -/
theorem Done.set_of_written {ws : List (Writer B)} {s : Files} {done : List (AppendCall B)}
    (h : Done C rs as t? ws s done) {w w' : Writer B} (hi : ws[i]? = some w)
    (hcall : w'.call = w.call) (hwr : w'.written = w.written)
    (hchk : w'.stage = .checked → Follows rs done w'.call)
    (href : ∀ e, w'.stage = .returned (some e) → Refused rs done w'.call e) :
    Done C rs as t? (ws.set i w') s done where
  faults v hv := (List.mem_or_eq_of_mem_set hv).elim (h.faults v) fun e => by
    rw [e, hcall]; exact h.faults w (List.getElem?_mem hi)
  perm := (flatMap_set_of_eq hi hwr).symm ▸ h.perm
  files := h.files
  follows := h.follows
  checked v hv := (List.mem_or_eq_of_mem_set hv).elim (h.checked v) fun e => e ▸ hchk
  refused v hv := (List.mem_or_eq_of_mem_set hv).elim (h.refused v) fun e => e ▸ href

/-- The block of a process past its check keeps `Done`, with its call last. -/
theorem Done.set_write {ws : List (Writer B)} {s : Files} {done : List (AppendCall B)}
    (h : Done C rs as t? ws s done) {w : Writer B} (hi : ws[i]? = some w)
    (hw : w.stage = .checked) :
    Done C rs as t? (ws.set i { w with stage := .returned none })
      (Files.encodingAfter C rs as t? (done ++ [w.call])) (done ++ [w.call]) where
  faults v hv := (List.mem_or_eq_of_mem_set hv).elim (h.faults v) fun e => by
    rw [e]; exact h.faults w (List.getElem?_mem hi)
  perm := (h.perm.append_right _).trans <| by
    simpa [Writer.written] using (flatMap_set_perm (f := Writer.written) (b := { w with stage := .returned none }) hi
      (by simp [Writer.written, hw])).symm
  files := rfl
  follows pre c post he := by
    rcases List.eq_nil_or_concat post with rfl | ⟨post, x, rfl⟩
    · obtain ⟨rfl, hc⟩ := List.append_inj' he.symm rfl
      cases hc
      exact h.checked w (List.getElem?_mem hi) hw
    · have he' : done ++ [w.call] = (pre ++ c :: post) ++ [x] := by simpa using he
      exact h.follows pre c post (List.append_inj' he' rfl).1
  checked v hv hv' := (List.mem_or_eq_of_mem_set hv).elim
    (fun hv => (h.checked v hv hv').append _) fun e => by rw [e] at hv'; cases hv'
  refused v hv e hv' := (List.mem_or_eq_of_mem_set hv).elim
    (fun hv => (h.refused v hv e hv').append _) fun he => by rw [he] at hv'; cases hv'

/-- **Step lemma.** Whichever process steps, `Done` holds after, for the calls
returned nil so far. -/
theorem Done.stepAt {ws : List (Writer B)} {s : Files} {done : List (AppendCall B)}
    (h : Done C rs as t? ws s done) (i : ℕ) :
    ∃ done', Done C rs as t? (Writer.stepAt C i ws s).1 (Writer.stepAt C i ws s).2 done' := by
  unfold Writer.stepAt
  rcases hi : ws[i]? with _ | w
  · exact ⟨done, h⟩
  obtain rfl := h.files
  simp only
  rcases hst : w.stage with _ | _ | err
  case start =>
    simp only [Writer.step, hst, Files.checkLastIndex_encodingAfter]
    split_ifs with hne
    · refine ⟨done, h.set_of_written hi ?_ ?_ ?_ ?_⟩ <;> simp [Writer.written, hst]
      exact ⟨done, List.prefix_refl _, hne, rfl⟩
    · refine ⟨done, h.set_of_written hi ?_ ?_ ?_ ?_⟩ <;> simp [Writer.written, hst]
      exact ⟨done, List.prefix_refl _, not_not.1 hne⟩
  case checked =>
    simp only [Writer.step, hst, h.faults w (List.getElem?_mem hi),
      Files.writeLocked_encodingAfter]
    exact ⟨_, h.set_write hi hst⟩
  case returned =>
    simp only [Writer.step, hst]
    exact ⟨done, h.set_of_written hi rfl rfl (h.checked w (List.getElem?_mem hi))
      (h.refused w (List.getElem?_mem hi))⟩

/-- **Run lemma.** -/
theorem Done.runSchedule (sched : List ℕ) : ∀ {ws : List (Writer B)} {s : Files}
    {done : List (AppendCall B)}, Done C rs as t? ws s done →
    ∃ done', Done C rs as t? (Writer.runSchedule C sched ws s).1
      (Writer.runSchedule C sched ws s).2 done' := by
  induction sched with
  | nil => exact fun h => ⟨_, h⟩
  | cons i is ih => exact fun h => let ⟨_, h'⟩ := h.stepAt i; ih h'

variable (C rs as t?)

theorem mem_start {ops : List (Record B × TailState B × Option (Anchor B))} {w : Writer B}
    (hw : w ∈ ops.map fun op => Writer.start (.ofOp op)) : w.call.f = {} ∧ w.stage = .start := by
  obtain ⟨op, -, rfl⟩ := List.mem_map.1 hw
  exact ⟨rfl, rfl⟩

theorem done_start (ops : List (Record B × TailState B × Option (Anchor B))) :
    Done C rs as t? (ops.map fun op => Writer.start (.ofOp op)) (Files.encoding C rs as t?) [] where
  faults w hw := (mem_start hw).1
  perm := by
    rw [List.flatMap_eq_nil_iff.2 fun w hw => by simp [Writer.written, (mem_start hw).2]]
  files := by simp [Files.encodingAfter]
  follows pre c post he := by simp at he
  checked w hw h := by simp [(mem_start hw).2] at h
  refused w hw e h := by simp [(mem_start hw).2] at h

/-- **Concurrent appends without failures.** Under any schedule of any number of
processes, each making one `Append` call on its own `fileStore` of a directory
holding encodings: the files still hold encodings, those of the calls that returned
nil appended once each in the order they returned; each of them passed its check
against the file after a prefix of the records written before it; and a call is
refused only by its check, against the file after a prefix of those written. -/
theorem concurrent_appends_keep_whole_records
    (ops : List (Record B × TailState B × Option (Anchor B))) (sched : List ℕ) :
    let res := Writer.runSchedule C sched (ops.map fun op => Writer.start (.ofOp op))
      (Files.encoding C rs as t?)
    ∃ done : List (AppendCall B), done.Perm (res.1.flatMap Writer.written) ∧
      res.2 = Files.encodingAfter C rs as t? done ∧
      (∀ pre c post, done = pre ++ c :: post → Follows rs pre c) ∧
      ∀ w ∈ res.1, ∀ e, w.stage = .returned (some e) → Refused rs done w.call e :=
  let ⟨done, h⟩ := (done_start C rs as t? ops).runSchedule sched
  ⟨done, h.perm, h.files, h.follows, h.refused⟩

end Done

/-! ## The check is outside the `flock` -/

/-- Files whose last two records carry one index break the contiguity contract. -/
theorem not_nextIndex_of_repeat (rs : List (Record B)) {r r' : Record B} (h : r'.index = r.index)
    (as : List (Anchor B)) (t? : Option (TailState B)) :
    ¬ (fileStore C).NextIndex ⟨Files.encoding C (rs ++ [r, r']) as t?, []⟩ := by
  rintro ⟨n, ⟨qs, hq, -, hc⟩, -⟩
  rw [fileStore_iter_zero_encoding] at hq
  cases hq
  rw [show rs ++ [r, r'] = rs ++ [r] ++ [r'] by simp, List.map_append, List.map_append] at hc
  have h₂ := contiguous_append_singleton.1 hc
  have h₁ := (contiguous_append_singleton.1 h₂.1).2
  simp only [List.map_cons, List.map_nil, List.length_append, List.length_map, List.length_singleton,
    Record.index_stored, h] at h₁ h₂
  omega

/-- **The `flock` does not cover the check.** From files holding contiguous records,
where the contiguity contract holds, two processes append records carrying the next
index. If both check before either writes, both calls return nil, `logs.dat` holds
both records, of one index, and the contract fails. One after the other, the second
call is refused and the contract holds. -/
theorem flock_does_not_cover_check (rs : List (Record B)) (as : List (Anchor B))
    (t? : Option (TailState B)) (hc : Contiguous rs) (hlen : rs.length + 2 < 2 ^ 64)
    (op₀ op₁ : Record B × TailState B × Option (Anchor B))
    (h₀ : op₀.1.index.toNat = rs.length + 1) (h₁ : op₁.1.index = op₀.1.index) :
    let ws := [op₀, op₁].map fun op => Writer.start (.ofOp op)
    let s := Files.encoding C rs as t?
    let race := Writer.runSchedule C [0, 1, 0, 1] ws s
    let serial := Writer.runSchedule C [0, 0, 1, 1] ws s
    (fileStore C).NextIndex ⟨s, []⟩ ∧
      race.1.map Writer.stage = [.returned none, .returned none] ∧
      race.2.logs = recordStream C (rs ++ [op₀.1, op₁.1]) ∧
      ¬ (fileStore C).NextIndex ⟨race.2, []⟩ ∧
      serial.1.map Writer.stage =
        [.returned none, .returned (some (SpecStore.nonContiguous op₀.1.index op₁.1.index))] ∧
      (fileStore C).NextIndex ⟨serial.2, []⟩ := by
  intro ws s race serial
  have hnext : lastIndex rs = op₀.1.index - 1 := (lastIndex_eq_sub_one_iff hc (by omega) op₀.1).2 h₀
  have hrace : race = ([⟨.ofOp op₀, .returned none⟩, ⟨.ofOp op₁, .returned none⟩],
      Files.encoding C (rs ++ [op₀.1, op₁.1]) (as ++ op₀.2.2.toList ++ op₁.2.2.toList)
        (some op₁.2.1)) := by
    simp [race, ws, s, Writer.runSchedule, Writer.stepAt, Writer.step, Writer.start,
      AppendCall.ofOp, Files.checkLastIndex_encoding, hnext, h₁, Files.writeLocked_encoding]
  have hserial : serial = ([⟨.ofOp op₀, .returned none⟩,
      ⟨.ofOp op₁, .returned (some (SpecStore.nonContiguous op₀.1.index op₁.1.index))⟩],
      Files.encoding C (rs ++ [op₀.1]) (as ++ op₀.2.2.toList) (some op₀.2.1)) := by
    have hne : op₀.1.index ≠ op₁.1.index - 1 := by
      rw [h₁]; exact fun h => absurd (sub_eq_self.1 h.symm) (by decide)
    rw [show serial = Writer.runSchedule C [1, 1] (Writer.runSchedule C [0, 0] ws s).1
      (Writer.runSchedule C [0, 0] ws s).2 from Writer.runSchedule_append C [0, 0] [1, 1] ws s,
      Writer.runSchedule_pair C (i := 0) (w := Writer.start (.ofOp op₀)) rfl rfl]
    simp only [s, Writer.start, AppendCall.ofOp, Files.append_encoding, hnext, ne_eq, not_true_eq_false, if_false]
    rw [Writer.runSchedule_pair C (i := 1) (w := Writer.start (.ofOp op₁)) rfl rfl]
    simp [Writer.start, AppendCall.ofOp, ws, Files.append_encoding, hne]
  rw [hrace, hserial]
  refine ⟨fileStore_nextIndex_encoding C as t? hc (by omega), rfl, rfl,
    not_nextIndex_of_repeat C rs h₁ _ _, rfl,
    fileStore_nextIndex_encoding C _ _ (contiguous_append_singleton.2 ⟨hc, h₀⟩) (by simp; omega)⟩

/-- Two processes appending the first record to an empty directory. -/
theorem flock_does_not_cover_check_first_record :
    let op : Record Block32 × TailState Block32 × Option (Anchor Block32) :=
      (⟨1, ⟨0⟩, [], .zero, .zero⟩, ⟨1, .zero, .zero⟩, none)
    let ws := [op, op].map fun op => Writer.start (.ofOp op)
    let s := Files.encoding Block32.codec [] [] none
    let race := Writer.runSchedule Block32.codec [0, 1, 0, 1] ws s
    let serial := Writer.runSchedule Block32.codec [0, 0, 1, 1] ws s
    (Contiguous ([] : List (Record Block32)) ∧ ([] : List (Record Block32)).length + 2 < 2 ^ 64 ∧
      op.1.index.toNat = ([] : List (Record Block32)).length + 1 ∧ op.1.index = op.1.index) ∧
    (fileStore Block32.codec).NextIndex ⟨s, []⟩ ∧
      race.1.map Writer.stage = [.returned none, .returned none] ∧
      race.2.logs = recordStream Block32.codec ([] ++ [op.1, op.1]) ∧
      ¬ (fileStore Block32.codec).NextIndex ⟨race.2, []⟩ ∧
      serial.1.map Writer.stage =
        [.returned none, .returned (some (SpecStore.nonContiguous op.1.index op.1.index))] ∧
      (fileStore Block32.codec).NextIndex ⟨serial.2, []⟩ :=
  ⟨⟨contiguous_nil, by decide, rfl, rfl⟩,
    flock_does_not_cover_check Block32.codec [] [] none contiguous_nil (by decide) _ _ rfl rfl⟩

end SecureLog
