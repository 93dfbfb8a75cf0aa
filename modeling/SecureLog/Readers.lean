import SecureLog.FileStore

/- Concurrent reads of the file store (`file_store.go`): `AnchorAt`, `ListAnchors`
   and `Tail` under the shared read lock.

   `fileStore` keeps each file open once, and a read call moves the offset of
   that `*os.File`: it seeks to the start, then reads from wherever the offset
   stands. `RLock` lets read calls run at once, so the I/O calls of two of them
   on one file interleave; each I/O call (one `lseek(2)` or `read(2)`) is atomic.

   1. `Handle` is an open file: its bytes and the offset its users share. `Call`
      is where a read call stands between two of its I/O calls, and `Call.step`
      is its next I/O call with the local work after it. `Tail` reads through
      `io.ReadFull` on the file. The anchor calls read through a `bufio.Reader`
      of 4096 bytes; its buffer and the partial entry of `io.ReadFull` are local
      to the call, so one step is one fill of the buffer, after which every
      entry the bytes now complete is decoded (`decodeEntries`).
   2. `Call.answer` is what a call returns if it runs on alone from where it
      stands. Its own steps keep it (`Call.answer_step`), and alone every call
      returns it within the file's length plus two steps; from the start, that
      is what the store's read returns (`readCall_alone`).
   3. A schedule is the list of the positions of the calls that step
      (`runSchedule`). While at most one call per file stands between its `Seek`
      and its return (`Exclusive`), every call answers as it does alone
      (`exclusive_reads_answer_alone`).
   4. Nothing in `RLock` keeps two calls on one file apart. A second call that
      seeks before the first one reads the file through finds the offset at
      the end, and answers as if the file were empty
      (`concurrent_reads_see_empty_files`). -/
namespace SecureLog

variable {B : Type} (C : BlockCodec B)

/-- An open `*os.File`: the file's bytes and the offset its users share. -/
structure Handle where
  data : List UInt8
  offset : ℕ
  deriving DecidableEq, Repr

namespace Handle

/-- The bytes from the offset to the end of the file. -/
def rest (h : Handle) : List UInt8 := h.data.drop h.offset

/-- `Seek(0, io.SeekStart)`. -/
def seekStart (h : Handle) : Handle := { h with offset := 0 }

/-- `Read(p)` with `len(p) = n` on a regular file: the bytes from the offset, at
most `n`, and the offset moves past them. No byte at all is `io.EOF`. -/
def read (h : Handle) (n : ℕ) : List UInt8 × Handle :=
  (h.rest.take n, { h with offset := h.offset + (h.rest.take n).length })

@[simp] theorem seekStart_rest (h : Handle) : h.seekStart.rest = h.data := List.drop_zero _

/-- The bytes a read returns and those left after it make up those before it. -/
theorem read_append_rest (h : Handle) (n : ℕ) : (h.read n).1 ++ (h.read n).2.rest = h.rest := by
  have hrest : (h.read n).2.rest = h.rest.drop (h.rest.take n).length := by
    simp only [read, rest, List.drop_drop]
  rw [hrest, List.length_take]
  rcases le_total n h.rest.length with hn | hn
  · rw [min_eq_left hn]
    exact List.take_append_drop n h.rest
  · rw [min_eq_right hn, List.drop_length, List.append_nil]
    exact List.take_of_length_le hn

theorem length_read_rest (h : Handle) (n : ℕ) :
    (h.read n).1.length + (h.read n).2.rest.length = h.rest.length := by
  rw [← List.length_append, read_append_rest]

/-- A read of some bytes that returns none was made at the end of the file. -/
theorem rest_eq_nil_of_read {h : Handle} {n : ℕ} (hn : 0 < n) (h0 : (h.read n).1 = []) :
    h.rest = [] := by
  simpa [read, List.take_eq_nil_iff, hn.ne'] using h0

/-- A read of at least what is left leaves nothing. -/
theorem read_rest_eq_nil {h : Handle} {n : ℕ} (hn : h.rest.length ≤ n) : (h.read n).2.rest = [] := by
  have hlen := h.length_read_rest n
  have hall : (h.read n).1.length = h.rest.length := by simp only [read, List.length_take, min_eq_right hn]
  exact List.eq_nil_of_length_eq_zero (by omega)

end Handle

/-- `anchors.idx` and `tail.dat`, each open once in a `fileStore`. -/
structure OpenFiles where
  anchorFile : Handle
  tailFile : Handle
  deriving DecidableEq, Repr

/-- The files of a store, open, with their offsets where earlier calls left them. -/
def FileStore.handles (s : FileStore) (oa ot : ℕ) : OpenFiles :=
  ⟨⟨s.files.anchors, oa⟩, ⟨s.files.tail, ot⟩⟩

/-- A read call of the store, as it is made. -/
inductive ReadCall where
  | anchorAt (i : UInt64)
  | listAnchors
  | tail
  deriving DecidableEq, Repr

/-- What a read call returns. -/
inductive Reply (B : Type) where
  | anchorAt (r : Except Error (Option (Anchor B)))
  | listAnchors (r : Except Error (List (Anchor B)))
  | tail (r : Except Error (Option (TailState B)))

/-- The call made on a store at one state: the `Store` method itself, atomic. -/
def ReadCall.ask {σ : Type} (st : Store σ B) (s : σ) : ReadCall → Reply B
  | .anchorAt i => .anchorAt (st.anchorAt s i)
  | .listAnchors => .listAnchors (st.listAnchors s)
  | .tail => .tail (st.tail s)

/-- Where a read call stands between two of its I/O calls. -/
inductive Call (B : Type) where
  /-- Before its `Seek(0, io.SeekStart)`. -/
  | start (x : ReadCall)
  /-- `readTailLocked` inside `io.ReadFull(s.tailFile, buf)`, with the bytes read so far. -/
  | tailReading (got : List UInt8) (hgot : got.length < 72)
  /-- The loop of `readAnchorLocked(i)` (`target = some i`) or of `ListAnchors`
  (`none`), with the bytes read and not decoded, fewer than one entry, and the
  anchors decoded. -/
  | anchorReading (target : Option UInt64) (buf : List UInt8) (hbuf : buf.length < 104)
      (found : List (Anchor B))
  | returned (r : Reply B)

/-- The end of `io.ReadFull(s.tailFile, buf)` after a read returned `bs`. A full
buffer ends it, and so does an empty read, `io.EOF` or `io.ErrUnexpectedEOF`,
both of which `readTailLocked` reports as no tail. -/
def tailAfterRead (got bs : List UInt8) : Call B :=
  if h : bs = [] ∨ 72 ≤ (got ++ bs).length then .returned (.tail (.ok (readTailLocked C (got ++ bs))))
  else .tailReading (got ++ bs) (Nat.lt_of_not_le (not_or.1 h).2)

/-- What `io.ReadFull` over the `bufio.Reader` ends in at the end of the file,
with `buf` the bytes of a partial entry: `io.EOF` at an entry boundary, which
ends the loop (`ListAnchors` returns the anchors decoded, `readAnchorLocked`
finds nothing), and `io.ErrUnexpectedEOF` inside an entry. -/
def anchorsAtEOF : Option UInt64 → List UInt8 → List (Anchor B) → Reply B
  | none, buf, found =>
    .listAnchors (if buf = [] then .ok found else .error (.wrap "read anchor" .unexpectedEOF))
  | some _, buf, _ =>
    .anchorAt (if buf = [] then .ok none else .error (.wrap "read anchor" .unexpectedEOF))

/-- The entries the bytes `buf` complete, decoded in order: `ListAnchors` keeps
each, `readAnchorLocked(i)` returns the first of index `i`. -/
def decodeEntries (target : Option UInt64) (buf : List UInt8) (found : List (Anchor B)) : Call B :=
  if h : buf.length < 104 then .anchorReading target buf h found
  else match target with
    | none => decodeEntries none (buf.drop 104) (found ++ [decodeAnchor C (buf.take 104)])
    | some i =>
      if uint64 (buf.take 8) = i then .returned (.anchorAt (.ok (some (decodeAnchor C (buf.take 104)))))
      else decodeEntries (some i) (buf.drop 104) found
termination_by buf.length

namespace Call

/-- The next I/O call of a read call, with the local work after it. -/
def step : Call B → OpenFiles → Call B × OpenFiles
  | .start .tail, fs => (.tailReading [] (by decide), { fs with tailFile := fs.tailFile.seekStart })
  | .start .listAnchors, fs =>
    (.anchorReading none [] (by decide) [], { fs with anchorFile := fs.anchorFile.seekStart })
  | .start (.anchorAt i), fs =>
    (.anchorReading (some i) [] (by decide) [], { fs with anchorFile := fs.anchorFile.seekStart })
  | .tailReading got _, fs =>
    (tailAfterRead C got (fs.tailFile.read (72 - got.length)).1,
      { fs with tailFile := (fs.tailFile.read (72 - got.length)).2 })
  | .anchorReading target buf _ found, fs =>
    (if (fs.anchorFile.read 4096).1 = [] then .returned (anchorsAtEOF target buf found)
      else decodeEntries C target (buf ++ (fs.anchorFile.read 4096).1) found,
      { fs with anchorFile := (fs.anchorFile.read 4096).2 })
  | .returned r, fs => (.returned r, fs)

/-- `n` steps of one call, with no other call in between. -/
def steps : ℕ → Call B → OpenFiles → Call B × OpenFiles
  | 0, c, fs => (c, fs)
  | n + 1, c, fs => steps n (c.step C fs).1 (c.step C fs).2

/-- Between its `Seek` and its return. -/
def inProgress : Call B → Bool
  | .tailReading .. | .anchorReading .. => true
  | _ => false

/-- Whether the call reads `tail.dat` (or else `anchors.idx`). -/
def readsTail : Call B → Bool
  | .start x => x == .tail
  | .tailReading .. => true
  | _ => false

/-- Two calls that are not both in progress on one file. -/
def Apart (c d : Call B) : Prop := c.inProgress → d.inProgress → c.readsTail ≠ d.readsTail

instance : DecidableRel (Apart (B := B)) := fun c d =>
  inferInstanceAs (Decidable (c.inProgress → d.inProgress → c.readsTail ≠ d.readsTail))

end Call

/-- What a call in the anchor loop returns if it goes on to read `rest` alone. -/
def anchorsAnswer (target : Option UInt64) (buf : List UInt8) (found : List (Anchor B))
    (rest : List UInt8) : Reply B :=
  match target with
  | none => .listAnchors ((listAnchorsLoop C (buf ++ rest)).map (found ++ ·))
  | some i => .anchorAt (readAnchorLoop C i (buf ++ rest))

namespace Call

/-- What a call returns if it runs on alone from where it stands. -/
def answer : Call B → OpenFiles → Reply B
  | .start .tail, fs => .tail (.ok (readTailLocked C fs.tailFile.data))
  | .start .listAnchors, fs => .listAnchors (listAnchorsLoop C fs.anchorFile.data)
  | .start (.anchorAt i), fs => .anchorAt (readAnchorLoop C i fs.anchorFile.data)
  | .tailReading got _, fs => .tail (.ok (readTailLocked C (got ++ fs.tailFile.rest)))
  | .anchorReading target buf _ found, fs => anchorsAnswer C target buf found fs.anchorFile.rest
  | .returned r, _ => r

/-- A bound on the steps a call takes alone: each read ends it or moves the offset. -/
def fuel : Call B → OpenFiles → ℕ
  | .start .tail, fs => fs.tailFile.data.length + 2
  | .start _, fs => fs.anchorFile.data.length + 2
  | .tailReading .., fs => fs.tailFile.rest.length + 1
  | .anchorReading .., fs => fs.anchorFile.rest.length + 1
  | .returned _, _ => 0

end Call

/-- At most one call per file between its `Seek` and its return: what a lock
held from `Seek` to return, per file, would keep. -/
def Exclusive (cs : List (Call B)) : Prop := cs.Pairwise Call.Apart

instance (cs : List (Call B)) : Decidable (Exclusive cs) :=
  inferInstanceAs (Decidable (cs.Pairwise Call.Apart))

/-- One step of the call at position `i`, if there is one. -/
def stepAt (i : ℕ) (cs : List (Call B)) (fs : OpenFiles) : List (Call B) × OpenFiles :=
  match cs[i]? with
  | none => (cs, fs)
  | some c => (cs.set i (c.step C fs).1, (c.step C fs).2)

/-- The calls `cs` under a schedule: the positions of the calls that step, in order. -/
def runSchedule : List ℕ → List (Call B) → OpenFiles → List (Call B) × OpenFiles
  | [], cs, fs => (cs, fs)
  | i :: is, cs, fs => runSchedule is (stepAt C i cs fs).1 (stepAt C i cs fs).2

/-! ## The loops one entry at a time -/

section Entries

variable {C}

theorem readTailLocked_append_of_le {xs : List UInt8} (h : 72 ≤ xs.length) (ys : List UInt8) :
    readTailLocked C (xs ++ ys) = readTailLocked C xs := by
  have h8 : 8 ≤ xs.length := by omega
  rw [readTailLocked, readTailLocked, if_neg (by simp only [List.length_append]; omega), if_neg (by omega),
    List.take_append_of_le_length h8, List.drop_append_of_le_length h8,
    List.take_append_of_le_length (by simp only [List.length_drop]; omega),
    List.drop_append_of_le_length (by simp only [List.length_drop]; omega),
    List.take_append_of_le_length (by simp only [List.length_drop]; omega)]

theorem listAnchorsLoop_append_entry {buf : List UInt8} (h : 104 ≤ buf.length) (rest : List UInt8) :
    listAnchorsLoop C (buf ++ rest) =
      (listAnchorsLoop C (buf.drop 104 ++ rest)).map (decodeAnchor C (buf.take 104) :: ·) := by
  rw [listAnchorsLoop, if_neg (by simp only [List.length_append]; omega),
    if_neg (by simp only [List.length_append]; omega), List.drop_append_of_le_length h,
    List.take_append_of_le_length h]

theorem readAnchorLoop_append_entry {buf : List UInt8} (h : 104 ≤ buf.length) (i : UInt64)
    (rest : List UInt8) :
    readAnchorLoop C i (buf ++ rest) =
      if uint64 (buf.take 8) = i then .ok (some (decodeAnchor C (buf.take 104)))
      else readAnchorLoop C i (buf.drop 104 ++ rest) := by
  rw [readAnchorLoop, if_neg (by simp only [List.length_append]; omega),
    if_neg (by simp only [List.length_append]; omega), List.take_append_of_le_length (by omega),
    List.take_append_of_le_length h, List.drop_append_of_le_length h]

theorem anchorsAnswer_append (target : Option UInt64) (buf bs : List UInt8) (found : List (Anchor B))
    (rest : List UInt8) :
    anchorsAnswer C target (buf ++ bs) found rest = anchorsAnswer C target buf found (bs ++ rest) := by
  cases target <;> simp only [anchorsAnswer, List.append_assoc]

theorem listAnchorsLoop_of_lt {bs : List UInt8} (h : bs.length < 104) :
    listAnchorsLoop C bs = if bs = [] then .ok [] else .error (.wrap "read anchor" .unexpectedEOF) := by
  rw [listAnchorsLoop, if_pos h]
  simp only [List.length_eq_zero]

theorem readAnchorLoop_of_lt {bs : List UInt8} (h : bs.length < 104) (i : UInt64) :
    readAnchorLoop C i bs = if bs = [] then .ok none else .error (.wrap "read anchor" .unexpectedEOF) := by
  rw [readAnchorLoop, if_pos h]
  simp only [List.length_eq_zero]

/-- At the end of the file, the answer is what `io.ReadFull` ends the loop with. -/
theorem anchorsAnswer_nil (target : Option UInt64) {buf : List UInt8} (h : buf.length < 104)
    (found : List (Anchor B)) : anchorsAnswer C target buf found [] = anchorsAtEOF target buf found := by
  cases target with
  | none =>
    simp only [anchorsAnswer, anchorsAtEOF, List.append_nil, listAnchorsLoop_of_lt h]
    split_ifs <;> simp [Except.map]
  | some i => simp only [anchorsAnswer, anchorsAtEOF, List.append_nil, readAnchorLoop_of_lt h]

/-- **Decoding the buffer keeps the answer.** -/
theorem decodeEntries_answer (target : Option UInt64) (buf : List UInt8) (found : List (Anchor B))
    (fs : OpenFiles) :
    (decodeEntries C target buf found).answer C fs = anchorsAnswer C target buf found fs.anchorFile.rest := by
  induction target, buf, found using decodeEntries.induct C with
  | case1 target buf found h => rw [decodeEntries.eq_def, dif_pos h]; rfl
  | case2 buf found h ih =>
    rw [decodeEntries.eq_def, dif_neg h, ih]
    simp only [anchorsAnswer]
    rw [listAnchorsLoop_append_entry (Nat.le_of_not_lt h) fs.anchorFile.rest]
    cases listAnchorsLoop C (buf.drop 104 ++ fs.anchorFile.rest) <;> simp [Except.map]
  | case3 buf found h =>
    rw [decodeEntries.eq_def, dif_neg h]
    simp only [if_true, anchorsAnswer, readAnchorLoop_append_entry (Nat.le_of_not_lt h)]
    rfl
  | case4 buf found h i hi ih =>
    rw [decodeEntries.eq_def, dif_neg h]
    simp only [hi, if_false]
    rw [ih]
    simp only [anchorsAnswer, readAnchorLoop_append_entry (Nat.le_of_not_lt h), hi, if_false]

/-- `ListAnchors` decodes on: it returns only at the end of the file. -/
theorem decodeEntries_none (buf : List UInt8) (found : List (Anchor B)) :
    ∃ buf' h found', decodeEntries C none buf found = .anchorReading none buf' h found' := by
  suffices ∀ t, t = none → ∃ buf' h found', decodeEntries C t buf found = .anchorReading none buf' h found'
    from this none rfl
  intro t
  induction t, buf, found using decodeEntries.induct C with
  | case1 t buf found h => rintro rfl; exact ⟨buf, h, found, by rw [decodeEntries.eq_def, dif_pos h]⟩
  | case2 buf found h ih => intro; rw [decodeEntries.eq_def, dif_neg h]; exact ih rfl
  | case3 => intro ht; cases ht
  | case4 => intro ht; cases ht

theorem decodeEntries_fuel (target : Option UInt64) (buf : List UInt8) (found : List (Anchor B))
    (fs : OpenFiles) : (decodeEntries C target buf found).fuel fs ≤ fs.anchorFile.rest.length + 1 := by
  induction target, buf, found using decodeEntries.induct C with
  | case1 target buf found h => rw [decodeEntries.eq_def, dif_pos h]; exact le_refl _
  | case2 buf found h ih => rw [decodeEntries.eq_def, dif_neg h]; exact ih
  | case3 buf found h => rw [decodeEntries.eq_def, dif_neg h]; simp only [if_true, Call.fuel]; omega
  | case4 buf found h i hi ih => rw [decodeEntries.eq_def, dif_neg h]; simp only [hi, if_false]; exact ih

end Entries

/-! ## One call alone -/

namespace Call

variable {C}

/-- **Step lemma.** A call's own step keeps what it answers alone. -/
theorem answer_step (c : Call B) (fs : OpenFiles) : (c.step C fs).1.answer C (c.step C fs).2 = c.answer C fs := by
  match c with
  | .start .tail => simp only [step, answer, Handle.seekStart_rest, List.nil_append]
  | .start .listAnchors =>
    simp only [step, answer, anchorsAnswer, Handle.seekStart_rest, List.nil_append]
    cases listAnchorsLoop C fs.anchorFile.data <;> rfl
  | .start (.anchorAt i) => simp only [step, answer, anchorsAnswer, Handle.seekStart_rest, List.nil_append]
  | .tailReading got hgot =>
    have hsplit := fs.tailFile.read_append_rest (72 - got.length)
    simp only [step, tailAfterRead]
    split_ifs with hend
    · rcases hend with h0 | hfull
      · simp only [answer, h0, Handle.rest_eq_nil_of_read (by omega) h0, List.append_nil]
      · simp only [answer]
        rw [← hsplit, ← List.append_assoc, readTailLocked_append_of_le hfull]
    · simp only [answer]
      rw [List.append_assoc, hsplit]
  | .anchorReading target buf hbuf found =>
    have hsplit := fs.anchorFile.read_append_rest 4096
    simp only [step]
    split_ifs with h0
    · simp only [answer]
      rw [Handle.rest_eq_nil_of_read (by decide) h0, anchorsAnswer_nil target hbuf]
    · rw [decodeEntries_answer, anchorsAnswer_append, hsplit]
      rfl
  | .returned r => rfl

theorem eq_returned_of_fuel_eq_zero {c : Call B} {fs : OpenFiles} (h : c.fuel fs = 0) :
    ∃ r, c = .returned r := by
  match c with
  | .start .tail | .start .listAnchors | .start (.anchorAt _) | .tailReading .. | .anchorReading .. =>
    simp [fuel] at h
  | .returned r => exact ⟨r, rfl⟩

/-- **Step lemma.** A step of a call that has not returned uses up fuel. -/
theorem fuel_step (c : Call B) (fs : OpenFiles) (hc : 0 < c.fuel fs) :
    (c.step C fs).1.fuel (c.step C fs).2 < c.fuel fs := by
  match c with
  | .start .tail | .start .listAnchors | .start (.anchorAt _) =>
    simp only [step, fuel, Handle.seekStart_rest]; omega
  | .tailReading got hgot =>
    have hlen := fs.tailFile.length_read_rest (72 - got.length)
    simp only [step, tailAfterRead]
    split_ifs with hend
    · simp only [fuel]; omega
    · have hpos := List.length_pos.2 (not_or.1 hend).1
      simp only [fuel]; omega
  | .anchorReading target buf hbuf found =>
    have hlen := fs.anchorFile.length_read_rest 4096
    simp only [step]
    split_ifs with h0
    · simp only [fuel]; omega
    · have hpos := List.length_pos.2 h0
      have hle := decodeEntries_fuel (C := C) target (buf ++ (fs.anchorFile.read 4096).1) found
        { fs with anchorFile := (fs.anchorFile.read 4096).2 }
      simp only [fuel] at hle ⊢; omega
  | .returned r => simp [fuel] at hc

/-- **Run lemma.** Alone, a call returns what it answers within its fuel. -/
theorem steps_eq_returned (n : ℕ) (c : Call B) (fs : OpenFiles) (hn : c.fuel fs ≤ n) :
    (c.steps C n fs).1 = .returned (c.answer C fs) := by
  induction n generalizing c fs with
  | zero => obtain ⟨r, rfl⟩ := eq_returned_of_fuel_eq_zero (Nat.le_zero.1 hn); rfl
  | succ n ih =>
    by_cases h0 : c.fuel fs = 0
    · obtain ⟨r, rfl⟩ := eq_returned_of_fuel_eq_zero h0
      exact ih _ fs (Nat.zero_le n)
    · rw [steps, ih _ _ (by have := fuel_step (C := C) c fs (by omega); omega), answer_step]

theorem answer_start (x : ReadCall) (s : FileStore) (oa ot : ℕ) :
    (Call.start x).answer C (s.handles oa ot) = x.ask (fileStore C) s := by
  cases x <;> rfl

end Call

/-- **A read call alone.** Run on its own, from wherever the offsets stand, a read
call returns within the file's length plus two steps what the store's read
returns. -/
theorem readCall_alone (x : ReadCall) (s : FileStore) (oa ot : ℕ) :
    ((Call.start x : Call B).steps C ((Call.start x : Call B).fuel (s.handles oa ot)) (s.handles oa ot)).1 =
      .returned (x.ask (fileStore C) s) := by
  rw [Call.steps_eq_returned _ _ _ le_rfl, Call.answer_start]

/-! ## Calls on shared files -/

namespace Call

variable {C}

theorem steps_returned (n : ℕ) (r : Reply B) (fs : OpenFiles) :
    (Call.returned r).steps C n fs = (.returned r, fs) := by
  induction n with
  | zero => rfl
  | succ n ih => exact ih

/-- A read changes no file's bytes. -/
theorem step_data (c : Call B) (fs : OpenFiles) :
    (c.step C fs).2.anchorFile.data = fs.anchorFile.data ∧ (c.step C fs).2.tailFile.data = fs.tailFile.data := by
  match c with
  | .start .tail | .start .listAnchors | .start (.anchorAt _) | .tailReading .. | .anchorReading ..
  | .returned _ => exact ⟨rfl, rfl⟩

/-- A step touches only the file its call reads. -/
theorem step_anchorFile {c : Call B} (h : c.readsTail = true) (fs : OpenFiles) :
    (c.step C fs).2.anchorFile = fs.anchorFile := by
  match c with
  | .start .tail | .tailReading .. => rfl
  | .start .listAnchors | .start (.anchorAt _) | .anchorReading .. | .returned _ => cases h

theorem step_tailFile {c : Call B} (h : c.readsTail = false) (fs : OpenFiles) :
    (c.step C fs).2.tailFile = fs.tailFile := by
  match c with
  | .start .listAnchors | .start (.anchorAt _) | .anchorReading .. | .returned _ => rfl
  | .start .tail | .tailReading .. => cases h

/-- What a call answers depends on the handle of its file only. -/
theorem answer_congr_tail {c : Call B} (h : c.readsTail = true) {fs fs' : OpenFiles}
    (ht : fs.tailFile = fs'.tailFile) : c.answer C fs = c.answer C fs' := by
  match c with
  | .start .tail | .tailReading .. => simp only [answer, ht]
  | .start .listAnchors | .start (.anchorAt _) | .anchorReading .. | .returned _ => cases h

theorem answer_congr_anchor {c : Call B} (h : c.readsTail = false) {fs fs' : OpenFiles}
    (ha : fs.anchorFile = fs'.anchorFile) : c.answer C fs = c.answer C fs' := by
  match c with
  | .start .listAnchors | .start (.anchorAt _) | .anchorReading .. | .returned _ => simp only [answer, ha]
  | .start .tail | .tailReading .. => cases h

/-- Before its `Seek` or after its return, a call answers the same from any offset. -/
theorem answer_congr_data {c : Call B} (h : c.inProgress = false) {fs fs' : OpenFiles}
    (ha : fs.anchorFile.data = fs'.anchorFile.data) (ht : fs.tailFile.data = fs'.tailFile.data) :
    c.answer C fs = c.answer C fs' := by
  match c with
  | .start .tail | .start .listAnchors | .start (.anchorAt _) | .returned _ => simp only [answer, ha, ht]
  | .tailReading .. | .anchorReading .. => cases h

theorem apart_symm {c d : Call B} (h : Apart c d) : Apart d c := fun hd hc => (h hc hd).symm

/-- **Frame lemma.** The step of a call `c` keeps what any call `d` apart from it,
before the step and after, answers. -/
theorem answer_step_other (c d : Call B) (fs : OpenFiles) (hbefore : Apart d c)
    (hafter : Apart d (c.step C fs).1) : d.answer C (c.step C fs).2 = d.answer C fs := by
  cases hd : d.inProgress
  · exact answer_congr_data hd (c.step_data fs).1 (c.step_data fs).2
  · by_cases hr : ∃ r, c = .returned r
    · obtain ⟨r, rfl⟩ := hr
      rfl
    have hdiff : d.readsTail ≠ c.readsTail := by
      match c with
      | .start .tail | .start .listAnchors | .start (.anchorAt _) => exact hafter hd rfl
      | .tailReading .. | .anchorReading .. => exact hbefore hd rfl
      | .returned r => exact absurd ⟨r, rfl⟩ hr
    cases hc : c.readsTail
    · exact answer_congr_tail (by simpa [hc] using hdiff) (step_tailFile hc fs)
    · exact answer_congr_anchor (by simpa [hc] using hdiff) (step_anchorFile hc fs)

end Call

theorem Exclusive.apart {cs : List (Call B)} (h : Exclusive cs) {j k : ℕ} {d e : Call B}
    (hj : cs[j]? = some d) (hk : cs[k]? = some e) (hne : j ≠ k) : Call.Apart d e := by
  obtain ⟨hj', rfl⟩ := List.getElem?_eq_some_iff.1 hj
  obtain ⟨hk', rfl⟩ := List.getElem?_eq_some_iff.1 hk
  rcases Nat.lt_or_gt_of_ne hne with hlt | hlt
  · exact List.pairwise_iff_getElem.1 h j k hj' hk' hlt
  · exact Call.apart_symm (List.pairwise_iff_getElem.1 h k j hk' hj' hlt)

/-- **Step lemma.** A step that keeps the calls exclusive keeps every call's answer. -/
theorem stepAt_answer (i : ℕ) (cs : List (Call B)) (fs : OpenFiles) (hex : Exclusive cs)
    (hex' : Exclusive (stepAt C i cs fs).1) (j : ℕ) :
    ((stepAt C i cs fs).1[j]?).map (·.answer C (stepAt C i cs fs).2) = (cs[j]?).map (·.answer C fs) := by
  cases hi : cs[i]? with
  | none => simp only [stepAt, hi]
  | some c =>
    have hlen : i < cs.length := (List.getElem?_eq_some_iff.1 hi).1
    simp only [stepAt, hi] at hex' ⊢
    by_cases hij : i = j
    · subst hij
      rw [List.getElem?_set_self hlen, hi, Option.map_some', Option.map_some', Call.answer_step]
    · rw [List.getElem?_set_ne hij]
      cases hj : cs[j]? with
      | none => rfl
      | some d =>
        have hset : (cs.set i (c.step C fs).1)[i]? = some (c.step C fs).1 := List.getElem?_set_self hlen
        have hj' : (cs.set i (c.step C fs).1)[j]? = some d := by rw [List.getElem?_set_ne hij, hj]
        simp only [Option.map_some']
        exact congrArg some (Call.answer_step_other c d fs (hex.apart hj hi (Ne.symm hij))
          (hex'.apart hj' hset (Ne.symm hij)))

theorem runSchedule_append (s₁ s₂ : List ℕ) (cs : List (Call B)) (fs : OpenFiles) :
    runSchedule C (s₁ ++ s₂) cs fs = runSchedule C s₂ (runSchedule C s₁ cs fs).1 (runSchedule C s₁ cs fs).2 := by
  induction s₁ generalizing cs fs with
  | nil => rfl
  | cons i is ih => exact ih _ _

/-- **Run lemma.** Under a schedule that keeps the calls exclusive throughout, every
call answers at the end what it answered at the start. -/
theorem runSchedule_answer (sched : List ℕ) (cs : List (Call B)) (fs : OpenFiles)
    (hex : ∀ m ≤ sched.length, Exclusive (runSchedule C (sched.take m) cs fs).1) (j : ℕ) :
    ((runSchedule C sched cs fs).1[j]?).map (·.answer C (runSchedule C sched cs fs).2) =
      (cs[j]?).map (·.answer C fs) := by
  induction sched generalizing cs fs with
  | nil => rfl
  | cons i is ih =>
    have hstep := stepAt_answer C i cs fs (hex 0 (Nat.zero_le _)) (hex 1 (by simp)) j
    rw [← hstep]
    exact ih _ _ fun m hm => hex (m + 1) (by simpa using hm)

/-- **Exclusive reads answer as alone.** Under any schedule that keeps at most one
call per file between its `Seek` and its return, every read call that returns
returns what the store's read returns. -/
theorem exclusive_reads_answer_alone (s : FileStore) (oa ot : ℕ) (xs : List ReadCall) (sched : List ℕ)
    (hex : ∀ m ≤ sched.length, Exclusive (runSchedule C (sched.take m) (xs.map .start) (s.handles oa ot)).1)
    (j : ℕ) (r : Reply B)
    (hr : (runSchedule C sched (xs.map .start) (s.handles oa ot)).1[j]? = some (.returned r)) :
    xs[j]?.map (ReadCall.ask (fileStore C) s) = some r := by
  have h := runSchedule_answer C sched _ _ hex j
  rw [hr, List.getElem?_map] at h
  cases hx : xs[j]? with
  | none => simp [hx] at h
  | some x =>
    simp only [hx, Option.map_some', Option.some.injEq, Call.answer_start] at h
    exact congrArg some h.symm

/-- A store holding anchor 1 and a tail, every block zero. -/
def anchorAndTail : FileStore :=
  ⟨Files.encoding Block32.codec [] [⟨1, Block32.zero, Block32.zero, Block32.zero⟩]
    (some ⟨1, Block32.zero, Block32.zero⟩), []⟩

/-- `Tail` and `ListAnchors` read different files, so interleaving them keeps them
exclusive, and `ListAnchors` returns the anchor. -/
theorem exclusive_reads_tail_beside_listAnchors :
    (∀ m ≤ 5, Exclusive (runSchedule Block32.codec ([0, 1, 0, 1, 1].take m)
      ([ReadCall.tail, .listAnchors].map .start) (anchorAndTail.handles 7 9)).1) ∧
    (runSchedule Block32.codec [0, 1, 0, 1, 1] ([ReadCall.tail, .listAnchors].map .start)
      (anchorAndTail.handles 7 9)).1[1]? =
        some (.returned (.listAnchors (.ok [⟨1, Block32.zero, Block32.zero, Block32.zero⟩]))) ∧
    [ReadCall.tail, .listAnchors][1]?.map (ReadCall.ask (fileStore Block32.codec) anchorAndTail) =
      some (.listAnchors (.ok [⟨1, Block32.zero, Block32.zero, Block32.zero⟩])) := by
  have hex : ∀ m ≤ 5, Exclusive (runSchedule Block32.codec ([0, 1, 0, 1, 1].take m)
      ([ReadCall.tail, .listAnchors].map .start) (anchorAndTail.handles 7 9)).1 := by decide
  have hr : (runSchedule Block32.codec [0, 1, 0, 1, 1] ([ReadCall.tail, .listAnchors].map .start)
      (anchorAndTail.handles 7 9)).1[1]? =
        some (.returned (.listAnchors (.ok [⟨1, Block32.zero, Block32.zero, Block32.zero⟩]))) := by
    with_unfolding_all rfl
  exact ⟨hex, hr, exclusive_reads_answer_alone Block32.codec anchorAndTail 7 9 [.tail, .listAnchors]
    [0, 1, 0, 1, 1] hex 1 _ hr⟩

/-! ## Two calls on one file -/

namespace Call

variable {C}

/-- `ListAnchors` stops only at the end of the file: when it is done, the offset
stands there. -/
theorem steps_listAnchors (n : ℕ) (buf : List UInt8) (hbuf : buf.length < 104) (found : List (Anchor B))
    (fs : OpenFiles) :
    (∃ buf' h found', ((anchorReading none buf hbuf found).steps C n fs).1 = anchorReading none buf' h found') ∨
      ((anchorReading none buf hbuf found : Call B).steps C n fs).2.anchorFile.rest = [] := by
  induction n generalizing buf found fs with
  | zero => exact Or.inl ⟨buf, hbuf, found, rfl⟩
  | succ n ih =>
    simp only [steps, step]
    split_ifs with h0
    · rw [steps_returned]
      exact Or.inr (Handle.read_rest_eq_nil (by rw [Handle.rest_eq_nil_of_read (by decide) h0]; simp))
    · obtain ⟨buf', h', found', hdec⟩ := decodeEntries_none (C := C) (buf ++ (fs.anchorFile.read 4096).1) found
      rw [hdec]
      exact ih _ _ _ _

/-- `Tail` over a file of at most 72 bytes reads it to the end. -/
theorem steps_tail (n : ℕ) (got : List UInt8) (hgot : got.length < 72) (fs : OpenFiles)
    (hlen : got.length + fs.tailFile.rest.length ≤ 72) :
    (∃ got' h, ((tailReading got hgot).steps C n fs).1 = tailReading got' h) ∨
      ((tailReading got hgot : Call B).steps C n fs).2.tailFile.rest = [] := by
  induction n generalizing got fs with
  | zero => exact Or.inl ⟨got, hgot, rfl⟩
  | succ n ih =>
    have hend : (fs.tailFile.read (72 - got.length)).2.rest = [] := Handle.read_rest_eq_nil (by omega)
    simp only [steps, step, tailAfterRead]
    split_ifs with hdone
    · rw [steps_returned]
      exact Or.inr hend
    · exact ih _ _ _ (by simp only [hend, List.length_nil]; omega)

end Call

theorem runSchedule_replicate_set (i n : ℕ) (cs : List (Call B)) (hi : i < cs.length) (c : Call B)
    (fs : OpenFiles) :
    runSchedule C (List.replicate n i) (cs.set i c) fs = (cs.set i (c.steps C n fs).1, (c.steps C n fs).2) := by
  induction n generalizing c fs with
  | zero => rfl
  | succ n ih =>
    show runSchedule C (List.replicate n i) (stepAt C i (cs.set i c) fs).1 (stepAt C i (cs.set i c) fs).2 = _
    simp only [stepAt, List.getElem?_set_self hi, List.set_set]
    exact ih _ _

/-- Two calls after their `Seek`: the first runs to its return, then the second
takes the one step its fuel allows where the first left the files. -/
theorem runSchedule_one_after_other {n : ℕ} {c d : Call B} {fs : OpenFiles} (hc : c.fuel fs ≤ n)
    (hd : d.fuel (c.steps C n fs).2 ≤ 1) :
    (runSchedule C (List.replicate n 0 ++ [1]) [c, d] fs).1 =
      [.returned (c.answer C fs), .returned (d.answer C (c.steps C n fs).2)] := by
  have h := runSchedule_replicate_set C 0 n [c, d] (by simp) c fs
  simp only [List.set_cons_zero] at h
  rw [runSchedule_append, h]
  show [(c.steps C n fs).1, (d.steps C 1 _).1] = _
  rw [Call.steps_eq_returned n c fs hc, Call.steps_eq_returned 1 d _ hd]

/-- **Concurrent reads see empty files.** Let two read calls on one file both seek
before the first reads, and the first then run to its return: `ListAnchors`
with any anchor call, or two `Tail` calls on a tail file of at most 72 bytes,
which every tail `writeTailLocked` writes is. The first returns what the
store's read returns, and the second what it returns on empty files, since the
offset they share stands at the end of the file. -/
theorem concurrent_reads_see_empty_files (s : FileStore) (oa ot : ℕ) :
    (∀ y : ReadCall, y ≠ .tail →
      (runSchedule C ([0, 1] ++ List.replicate (s.files.anchors.length + 1) 0 ++ [1])
          [.start .listAnchors, .start y] (s.handles oa ot)).1 =
        [.returned (ReadCall.listAnchors.ask (fileStore C) s), .returned (y.ask (fileStore C) FileStore.empty)]) ∧
    (s.files.tail.length ≤ 72 →
      (runSchedule C ([0, 1] ++ List.replicate (s.files.tail.length + 1) 0 ++ [1])
          [.start .tail, .start .tail] (s.handles oa ot)).1 =
        [.returned (ReadCall.tail.ask (fileStore C) s), .returned (ReadCall.tail.ask (fileStore C) FileStore.empty)]) := by
  refine ⟨fun y hy => ?_, fun hlen => ?_⟩
  · -- both seek; then `ListAnchors` reads the file through, and the second call reads nothing
    let fs : OpenFiles := ⟨⟨s.files.anchors, 0⟩, ⟨s.files.tail, ot⟩⟩
    obtain ⟨t, hstep, hempty⟩ : ∃ t, (Call.start y : Call B).step C fs = (.anchorReading t [] (by decide) [], fs) ∧
        anchorsAtEOF t [] [] = y.ask (fileStore C) FileStore.empty := by
      rcases y with i | _ | _
      · refine ⟨some i, rfl, ?_⟩
        show _ = Reply.anchorAt (readAnchorLoop C i [])
        rw [readAnchorLoop_of_lt (by decide)]
        rfl
      · refine ⟨none, rfl, ?_⟩
        show _ = Reply.listAnchors (listAnchorsLoop C [])
        rw [listAnchorsLoop_of_lt (by decide)]
        rfl
      · exact absurd rfl hy
    have hseek : runSchedule C [0, 1] [.start .listAnchors, .start y] (s.handles oa ot) =
        ([.anchorReading none [] (by decide) [], .anchorReading t [] (by decide) []], fs) := by
      simp only [runSchedule, stepAt]
      exact congrArg (fun p : Call B × OpenFiles => ([_, p.1], p.2)) hstep
    have hn : (Call.anchorReading none [] (by decide) [] : Call B).fuel fs ≤ s.files.anchors.length + 1 := by
      simp [Call.fuel, fs, Handle.rest]
    have hrest := (Call.steps_listAnchors (C := C) _ [] (by decide) [] fs).resolve_left
      (by rintro ⟨_, _, _, h⟩; rw [Call.steps_eq_returned _ _ _ hn] at h; cases h)
    have hx1 : (Call.anchorReading none [] (by decide) [] : Call B).answer C fs =
        ReadCall.listAnchors.ask (fileStore C) s :=
      (Call.answer_step (C := C) (.start .listAnchors) (s.handles oa ot)).trans (Call.answer_start ..)
    rw [List.append_assoc, runSchedule_append, hseek, runSchedule_one_after_other C hn (by simp [Call.fuel, hrest]),
      hx1]
    simp only [Call.answer, hrest, anchorsAnswer_nil t (by decide : ([] : List UInt8).length < 104), hempty]
  · -- both seek; then the first `Tail` reads the file through, and the second reads nothing
    let fs : OpenFiles := ⟨⟨s.files.anchors, oa⟩, ⟨s.files.tail, 0⟩⟩
    have hseek : runSchedule C [0, 1] [.start .tail, .start .tail] (s.handles oa ot) =
        ([.tailReading [] (by decide), .tailReading [] (by decide)], fs) := rfl
    have hn : (Call.tailReading [] (by decide) : Call B).fuel fs ≤ s.files.tail.length + 1 := by
      simp [Call.fuel, fs, Handle.rest]
    have hrest := (Call.steps_tail (C := C) _ [] (by decide) fs (by simpa [fs, Handle.rest] using hlen)).resolve_left
      (by rintro ⟨_, _, h⟩; rw [Call.steps_eq_returned _ _ _ hn] at h; cases h)
    have hx1 : (Call.tailReading [] (by decide) : Call B).answer C fs = ReadCall.tail.ask (fileStore C) s :=
      (Call.answer_step (C := C) (.start .tail) (s.handles oa ot)).trans (Call.answer_start ..)
    rw [List.append_assoc, runSchedule_append, hseek, runSchedule_one_after_other C hn (by simp [Call.fuel, hrest]),
      hx1]
    simp only [Call.answer, hrest, List.append_nil]
    rfl

/-- On the store holding anchor 1 and a tail, `AnchorAt(1)` beside `ListAnchors`
finds no anchor, and the second of two `Tail` calls finds no tail. -/
theorem concurrent_reads_lose_anchor_and_tail :
    ReadCall.anchorAt 1 ≠ .tail ∧
    (runSchedule Block32.codec ([0, 1] ++ List.replicate (anchorAndTail.files.anchors.length + 1) 0 ++ [1])
        [.start .listAnchors, .start (.anchorAt 1)] (anchorAndTail.handles 0 0)).1 =
      [.returned (.listAnchors (.ok [⟨1, Block32.zero, Block32.zero, Block32.zero⟩])),
        .returned (.anchorAt (.ok none))] ∧
    anchorAndTail.files.tail.length ≤ 72 ∧
    (runSchedule Block32.codec ([0, 1] ++ List.replicate (anchorAndTail.files.tail.length + 1) 0 ++ [1])
        [.start .tail, .start .tail] (anchorAndTail.handles 0 0)).1 =
      [.returned (.tail (.ok (some ⟨1, Block32.zero, Block32.zero⟩))), .returned (.tail (.ok none))] := by
  have h := concurrent_reads_see_empty_files Block32.codec anchorAndTail 0 0
  have hlen : anchorAndTail.files.tail.length ≤ 72 := by simp [anchorAndTail, Files.encoding]
  refine ⟨by decide, (h.1 _ (by decide)).trans ?_, hlen, (h.2 hlen).trans ?_⟩
  · rw [ReadCall.ask, ReadCall.ask, anchorAndTail, fileStore_listAnchors_encoding]
    show [_, Call.returned (Reply.anchorAt (readAnchorLoop Block32.codec 1 []))] = _
    rw [readAnchorLoop_of_lt (by decide)]
    rfl
  · rw [ReadCall.ask, ReadCall.ask, anchorAndTail, fileStore_tail_encoding]
    rfl

end SecureLog
