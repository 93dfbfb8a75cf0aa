import SecureLog.Store

/- The on-disk format of the file store (`file_store.go`, design §6.1) and the
   loops that read it back.

   A record is written as `be64(Index) ‖ be64(uint64(TS)) ‖ be32(msgLen) ‖ msg ‖
   TagV ‖ TagT`, where `msgLen = uint32(len(msg))`: a message of `2^32` bytes or
   more keeps only its first `msgLen` bytes (`Record.stored`). An anchor is
   `be64(Index) ‖ Key ‖ TagV ‖ TagT` (104 bytes), the tail `be64(Index) ‖ TagV ‖
   TagT` (72 bytes). A block goes to and from its 32 bytes through a
   `BlockCodec`, which is `copy` on a `[32]byte`.

   `readFrame` takes the first record off a byte stream the way the loops of
   `getLastIndexLocked` and `Iter` do, field by field, and says in which field a
   stream that stops early stops. Both loops are defined over it.

   Round trips: `readFrame_encodeRecord` reads an encoding back as the stored
   record; by induction over the records, `getLastIndexLocked` of a stream of
   encodings is the last index (`getLastIndexLocked_stream`) and `Iter` yields the
   stored records (`iterLoop_stream`); the anchor and tail readers invert their
   encodings likewise. -/
namespace SecureLog

variable {B : Type}

/-- A block's 32 bytes, as `copy` moves them between a `[32]byte` and a buffer. -/
structure BlockCodec (B : Type) where
  toBytes : B → List UInt8
  ofBytes : List UInt8 → B
  length_toBytes : ∀ b, (toBytes b).length = 32
  ofBytes_toBytes : ∀ b, ofBytes (toBytes b) = b

attribute [simp] BlockCodec.length_toBytes BlockCodec.ofBytes_toBytes

/-- A `[32]byte`. -/
@[ext] structure Block32 where
  bytes : List UInt8
  length_bytes : bytes.length = 32
  deriving DecidableEq

/-- `[32]byte{}`. -/
def Block32.zero : Block32 := ⟨List.replicate 32 0, rfl⟩

/-- The block `1, 0, …, 0`: a key that is not the zero block. -/
def Block32.unit : Block32 := ⟨1 :: List.replicate 31 0, rfl⟩

/-- `copy` of a buffer into a zeroed `[32]byte`: its first 32 bytes, zeros after. -/
def Block32.codec : BlockCodec Block32 where
  toBytes b := b.bytes
  ofBytes bs := ⟨(bs ++ List.replicate 32 0).take 32, by
    rw [List.length_take, List.length_append, List.length_replicate]
    exact min_eq_left (Nat.le_add_left 32 _)⟩
  length_toBytes b := b.length_bytes
  ofBytes_toBytes b := Block32.ext (List.take_left' b.length_bytes)

/-- Primitives on `[32]byte` that return their first argument: the store never reads
a tag, so they run the logger over a store as well as SHA-256 would. -/
def Block32.firstPrimitives : Primitives Block32 where
  zero := Block32.zero
  sum256 x := x
  sum256Pair a _ := a
  hmacSha256 k _ := k
  isZero32 x := decide (x = Block32.zero)
  isZero32_iff _ := decide_eq_true_iff
  equal a b := decide (a = b)
  equal_iff _ _ := decide_eq_true_iff

variable (C : BlockCodec B)

/-! ## Encodings -/

/-- `uint32(len(r.Msg))`: the stored length, wrapped to 32 bits. -/
def msgLen (msg : List UInt8) : ℕ := msg.length % 2 ^ 32

/-- What the file store keeps of a record: the message cut to `msgLen` bytes. -/
def Record.stored (r : Record B) : Record B := { r with msg := r.msg.take (msgLen r.msg) }

@[simp] theorem Record.index_stored (r : Record B) : r.stored.index = r.index := rfl

/-- `writeRecordLocked`'s buffer. `copy` puts the first `msgLen` bytes of the
message between the header and the tags. -/
def encodeRecord (r : Record B) : List UInt8 :=
  be64 r.index ++ be64 r.ts.toUInt64 ++ be 4 (msgLen r.msg) ++ r.msg.take (msgLen r.msg) ++
    C.toBytes r.tagV ++ C.toBytes r.tagT

/-- `writeAnchorLocked`'s buffer. -/
def encodeAnchor (a : Anchor B) : List UInt8 :=
  be64 a.index ++ C.toBytes a.key ++ C.toBytes a.tagV ++ C.toBytes a.tagT

/-- `writeTailLocked`'s buffer. -/
def encodeTail (t : TailState B) : List UInt8 := be64 t.index ++ C.toBytes t.tagV ++ C.toBytes t.tagT

theorem msgLen_lt (msg : List UInt8) : msgLen msg < 2 ^ 32 := Nat.mod_lt _ (by decide)

theorem msgLen_le (msg : List UInt8) : msgLen msg ≤ msg.length := Nat.mod_le _ _

@[simp] theorem min_msgLen_length (msg : List UInt8) : min (msgLen msg) msg.length = msgLen msg :=
  Nat.min_eq_left (msgLen_le msg)

theorem length_take_msgLen (msg : List UInt8) : (msg.take (msgLen msg)).length = msgLen msg := by
  simp

/-- The length field reads back as the length. -/
@[simp] theorem beNat_msgLen (msg : List UInt8) : beNat (be 4 (msgLen msg)) = msgLen msg := by
  rw [beNat_be]; exact Nat.mod_eq_of_lt (lt_of_lt_of_eq (msgLen_lt msg) rfl)

@[simp] theorem msgLen_take (msg : List UInt8) : msgLen (msg.take (msgLen msg)) = msgLen msg := by
  rw [msgLen, length_take_msgLen, Nat.mod_eq_of_lt (msgLen_lt _)]

theorem length_encodeRecord (r : Record B) :
    (encodeRecord C r).length = 84 + msgLen r.msg := by
  simp only [encodeRecord, List.length_append, length_be64, length_be, length_take_msgLen,
    C.length_toBytes]
  omega

@[simp] theorem length_encodeAnchor (a : Anchor B) : (encodeAnchor C a).length = 104 := by
  simp [encodeAnchor]

@[simp] theorem length_encodeTail (t : TailState B) : (encodeTail C t).length = 72 := by
  simp [encodeTail]

/-! ## Reading a record stream -/

/-- The field of a record a stream can stop in. -/
inductive Field where
  | index | timestamp | msgLength | msgAndTags
  deriving DecidableEq, Repr

/-- The first record of a byte stream, as the readers of `logs.dat` take it apart. -/
inductive Frame (B : Type) where
  /-- No byte left: `io.EOF` on the index. -/
  | eof : Frame B
  /-- The stream stops inside `field`, after `got` of its bytes. -/
  | short (field : Field) (got : ℕ) : Frame B
  /-- A whole record, and the bytes after it. -/
  | record (r : Record B) (rest : List UInt8) : Frame B

/-- Read the index (8 bytes), the timestamp (8), the message length (4), then the
message and both tags, each from what the previous read left. -/
def readFrame (bs : List UInt8) : Frame B :=
  if bs.length = 0 then .eof
  else if bs.length < 8 then .short .index bs.length
  else
    let afterIndex := bs.drop 8
    if afterIndex.length < 8 then .short .timestamp afterIndex.length
    else
      let afterTs := afterIndex.drop 8
      if afterTs.length < 4 then .short .msgLength afterTs.length
      else
        let n := beNat (afterTs.take 4)
        let body := afterTs.drop 4
        if body.length < n + 64 then .short .msgAndTags body.length
        else
          .record ⟨uint64 (bs.take 8), ⟨uint64 (afterIndex.take 8)⟩, body.take n,
              C.ofBytes ((body.drop n).take 32), C.ofBytes (((body.drop n).drop 32).take 32)⟩
            (((body.drop n).drop 32).drop 32)

theorem readFrame_rest_lt {bs rest : List UInt8} {r : Record B}
    (h : readFrame C bs = .record r rest) : rest.length < bs.length := by
  simp only [readFrame] at h
  split_ifs at h with h0
  injection h with _ hrest
  simp only [← hrest, List.length_drop]
  omega

/-- An encoded record, field after field. -/
theorem encodeRecord_append (r : Record B) (rest : List UInt8) :
    encodeRecord C r ++ rest = be64 r.index ++ (be64 r.ts.toUInt64 ++ (be 4 (msgLen r.msg) ++
      (r.msg.take (msgLen r.msg) ++ (C.toBytes r.tagV ++ (C.toBytes r.tagT ++ rest))))) := by
  simp [encodeRecord]

/-- **Frame round trip.** An encoded record reads back as the record the store
keeps, and the bytes after it are left. -/
theorem readFrame_encodeRecord (r : Record B) (rest : List UInt8) :
    readFrame C (encodeRecord C r ++ rest) = .record r.stored rest := by
  rw [encodeRecord_append, readFrame]
  simp only [List.length_append, length_be64, length_be, length_take_msgLen, C.length_toBytes,
    List.drop_left', List.take_left', uint64_be64, beNat_msgLen, C.ofBytes_toBytes]
  rw [if_neg (by omega), if_neg (by omega), if_neg (by omega), if_neg (by omega), if_neg (by omega)]
  rfl

/-- The log file of a list of records: their encodings one after another. -/
def recordStream (rs : List (Record B)) : List UInt8 := (rs.map (encodeRecord C)).flatten

@[simp] theorem recordStream_nil : recordStream C ([] : List (Record B)) = [] := rfl

theorem recordStream_cons (r : Record B) (rs : List (Record B)) :
    recordStream C (r :: rs) = encodeRecord C r ++ recordStream C rs := rfl

@[simp] theorem recordStream_singleton (r : Record B) : recordStream C [r] = encodeRecord C r := by
  simp [recordStream]

theorem recordStream_append (rs qs : List (Record B)) :
    recordStream C (rs ++ qs) = recordStream C rs ++ recordStream C qs := by
  simp [recordStream]

/-- The loop of `getLastIndexLocked`: read record after record, keeping the last
index, until the stream ends; a stream that ends inside a record is an error. -/
def lastIndexLoop (bs : List UInt8) (lastIdx : UInt64) : Except Error UInt64 :=
  match h : readFrame C bs with
  | .eof => .ok lastIdx
  | .short .index _ => .error (.wrap "read index" .unexpectedEOF)
  | .short .timestamp _ => .error (.wrap "skip timestamp" .eof)
  | .short .msgLength got => .error (.wrap "read msg length" (if got = 0 then .eof else .unexpectedEOF))
  | .short .msgAndTags _ => .error (.wrap "skip msg and tags" .eof)
  | .record r rest =>
    have : rest.length < bs.length := readFrame_rest_lt C h
    lastIndexLoop rest r.index
termination_by bs.length

/-- `getLastIndexLocked()`: 0 for an empty log file, else the last index read. -/
def getLastIndexLocked (logs : List UInt8) : Except Error UInt64 :=
  if logs.length = 0 then .ok 0 else lastIndexLoop C logs 0

/-- The loop of `Iter(startIdx)`: every whole record with `idx ≥ startIdx`, in file
order; the reader stops silently where the stream stops being whole records. -/
def iterLoop (startIdx : UInt64) (bs : List UInt8) : List (Record B) :=
  match h : readFrame C bs with
  | .record r rest =>
    have : rest.length < bs.length := readFrame_rest_lt C h
    (if startIdx ≤ r.index then [r] else []) ++ iterLoop startIdx rest
  | _ => []
termination_by bs.length

/-- The index of the last record, 0 for none: what `getLastIndexLocked` reports. -/
def lastIndex (rs : List (Record B)) : UInt64 := (rs.getLast?.map Record.index).getD 0

@[simp] theorem lastIndex_nil : lastIndex ([] : List (Record B)) = 0 := rfl

@[simp] theorem lastIndex_append_singleton (rs : List (Record B)) (r : Record B) :
    lastIndex (rs ++ [r]) = r.index := by
  simp [lastIndex]

theorem lastIndexLoop_record {bs rest : List UInt8} {r : Record B}
    (h : readFrame C bs = .record r rest) (lastIdx : UInt64) :
    lastIndexLoop C bs lastIdx = lastIndexLoop C rest r.index := by
  rw [lastIndexLoop]; split <;> simp_all

theorem iterLoop_record {bs rest : List UInt8} {r : Record B}
    (h : readFrame C bs = .record r rest) (k : UInt64) :
    iterLoop C k bs = (if k ≤ r.index then [r] else []) ++ iterLoop C k rest := by
  rw [iterLoop]; split <;> simp_all

@[simp] theorem lastIndexLoop_nil (lastIdx : UInt64) : lastIndexLoop C [] lastIdx = .ok lastIdx := by
  rw [lastIndexLoop]; rfl

@[simp] theorem iterLoop_nil (k : UInt64) : iterLoop C k [] = ([] : List (Record B)) := by
  rw [iterLoop]; rfl

/-- The loop of `getLastIndexLocked` reads the encodings of `rs` and goes on with the
bytes after them, holding the last index read. -/
theorem lastIndexLoop_stream_append (rs : List (Record B)) (bs : List UInt8) (lastIdx : UInt64) :
    lastIndexLoop C (recordStream C rs ++ bs) lastIdx =
      lastIndexLoop C bs ((rs.getLast?.map Record.index).getD lastIdx) := by
  induction rs generalizing lastIdx with
  | nil => rfl
  | cons r rs ih =>
    rw [recordStream_cons, List.append_assoc, lastIndexLoop_record C (readFrame_encodeRecord C r _), ih]
    cases rs <;> rfl

/-- **Reading back the log file.** The loop of `getLastIndexLocked` over a stream of
encodings ends on the last record's index. -/
theorem lastIndexLoop_stream (rs : List (Record B)) (lastIdx : UInt64) :
    lastIndexLoop C (recordStream C rs) lastIdx = .ok ((rs.getLast?.map Record.index).getD lastIdx) := by
  rw [← List.append_nil (recordStream C rs), lastIndexLoop_stream_append, lastIndexLoop_nil]

theorem getLastIndexLocked_stream (rs : List (Record B)) :
    getLastIndexLocked C (recordStream C rs) = .ok (lastIndex rs) := by
  unfold getLastIndexLocked
  split_ifs with h
  · rcases rs with _ | ⟨r, rs⟩
    · rfl
    · simp [recordStream_cons, length_encodeRecord] at h
  · exact lastIndexLoop_stream C rs 0

/-- `Iter(k)` reads the encodings of `rs`, yielding the stored records with index at
least `k`, and goes on with the bytes after them. -/
theorem iterLoop_stream_append (k : UInt64) (rs : List (Record B)) (bs : List UInt8) :
    iterLoop C k (recordStream C rs ++ bs) =
      (rs.map Record.stored).filter (fun r => k ≤ r.index) ++ iterLoop C k bs := by
  induction rs with
  | nil => rfl
  | cons r rs ih =>
    rw [recordStream_cons, List.append_assoc, iterLoop_record C (readFrame_encodeRecord C r _), ih,
      List.map_cons, List.filter_cons, Record.index_stored]
    by_cases h : k ≤ r.index <;> simp [h]

/-- **Reading back the log file.** `Iter(k)` over a stream of encodings yields the
stored records with index at least `k`, in order. -/
theorem iterLoop_stream (k : UInt64) (rs : List (Record B)) :
    iterLoop C k (recordStream C rs) = (rs.map Record.stored).filter (fun r => k ≤ r.index) := by
  rw [← List.append_nil (recordStream C rs), iterLoop_stream_append, iterLoop_nil, List.append_nil]

/-! ## The anchor file and the tail -/

/-- One 104-byte anchor entry: `buf[0:8]`, `buf[8:40]`, `buf[40:72]`, `buf[72:104]`. -/
def decodeAnchor (buf : List UInt8) : Anchor B :=
  ⟨uint64 (buf.take 8), C.ofBytes ((buf.drop 8).take 32), C.ofBytes (((buf.drop 8).drop 32).take 32),
    C.ofBytes ((((buf.drop 8).drop 32).drop 32).take 32)⟩

/-- The loop of `readAnchorLocked(targetIdx)`: the first entry with that index. -/
def readAnchorLoop (targetIdx : UInt64) (bs : List UInt8) : Except Error (Option (Anchor B)) :=
  if bs.length = 0 then .ok none
  else if bs.length < 104 then .error (.wrap "read anchor" .unexpectedEOF)
  else if uint64 (bs.take 8) = targetIdx then .ok (some (decodeAnchor C (bs.take 104)))
  else readAnchorLoop targetIdx (bs.drop 104)
termination_by bs.length

/-- The loop of `ListAnchors()`: every entry, in file order. -/
def listAnchorsLoop (bs : List UInt8) : Except Error (List (Anchor B)) :=
  if bs.length = 0 then .ok []
  else if bs.length < 104 then .error (.wrap "read anchor" .unexpectedEOF)
  else (listAnchorsLoop (bs.drop 104)).map (decodeAnchor C (bs.take 104) :: ·)
termination_by bs.length

/-- `readTailLocked()`: a file of fewer than 72 bytes holds no tail. -/
def readTailLocked (bs : List UInt8) : Option (TailState B) :=
  if bs.length < 72 then none
  else some ⟨uint64 (bs.take 8), C.ofBytes ((bs.drop 8).take 32), C.ofBytes (((bs.drop 8).drop 32).take 32)⟩

/-- The anchor file of a list of anchors. -/
def anchorStream (as : List (Anchor B)) : List UInt8 := (as.map (encodeAnchor C)).flatten

@[simp] theorem anchorStream_nil : anchorStream C ([] : List (Anchor B)) = [] := rfl

@[simp] theorem anchorStream_singleton (a : Anchor B) : anchorStream C [a] = encodeAnchor C a := by
  simp [anchorStream]

theorem anchorStream_cons (a : Anchor B) (as : List (Anchor B)) :
    anchorStream C (a :: as) = encodeAnchor C a ++ anchorStream C as := rfl

theorem anchorStream_append (as bs : List (Anchor B)) :
    anchorStream C (as ++ bs) = anchorStream C as ++ anchorStream C bs := by
  simp [anchorStream]

theorem length_anchorStream (as : List (Anchor B)) :
    (anchorStream C as).length = 104 * as.length := by
  induction as with
  | nil => rfl
  | cons a as ih =>
    rw [anchorStream_cons, List.length_append, ih, length_encodeAnchor, List.length_cons]; omega

theorem decodeAnchor_encodeAnchor (a : Anchor B) : decodeAnchor C (encodeAnchor C a) = a := by
  simp only [decodeAnchor, encodeAnchor, List.append_assoc, List.drop_left', List.take_left',
    List.take_of_length_le, length_be64, C.length_toBytes, le_refl, uint64_be64, C.ofBytes_toBytes]

theorem take_encodeAnchor (a : Anchor B) (rest : List UInt8) :
    (encodeAnchor C a ++ rest).take 8 = be64 a.index := by
  simp [encodeAnchor, List.take_left']

/-- **Reading back the anchor file.** `ListAnchors` of a stream of encodings is the
anchors in the order they were written, duplicates included. -/
theorem listAnchorsLoop_stream (as : List (Anchor B)) :
    listAnchorsLoop C (anchorStream C as) = .ok as := by
  induction as with
  | nil => rw [listAnchorsLoop]; rfl
  | cons a as ih =>
    rw [listAnchorsLoop, anchorStream_cons, if_neg (by simp), if_neg (by simp),
      List.drop_left' (length_encodeAnchor C a), ih, List.take_left' (length_encodeAnchor C a),
      decodeAnchor_encodeAnchor]
    rfl

/-- **Reading back the anchor file.** `AnchorAt(i)` over a stream of encodings is the
first anchor written with index `i`. -/
theorem readAnchorLoop_stream (i : UInt64) (as : List (Anchor B)) :
    readAnchorLoop C i (anchorStream C as) = .ok (as.find? (fun a => a.index = i)) := by
  induction as with
  | nil => rw [readAnchorLoop]; rfl
  | cons a as ih =>
    rw [readAnchorLoop, anchorStream_cons, if_neg (by simp), if_neg (by simp),
      take_encodeAnchor, uint64_be64, List.drop_left' (length_encodeAnchor C a), ih,
      List.take_left' (length_encodeAnchor C a), decodeAnchor_encodeAnchor, List.find?_cons]
    by_cases h : a.index = i <;> simp [h]

/-- **Reading back the tail.** -/
theorem readTailLocked_encodeTail (t : TailState B) : readTailLocked C (encodeTail C t) = some t := by
  rw [readTailLocked, if_neg (by simp)]
  simp only [encodeTail, List.append_assoc, List.drop_left', List.take_left', List.take_of_length_le,
    length_be64, C.length_toBytes, le_refl, uint64_be64, C.ofBytes_toBytes]

@[simp] theorem readTailLocked_nil : readTailLocked C [] = (none : Option (TailState B)) := rfl

end SecureLog
