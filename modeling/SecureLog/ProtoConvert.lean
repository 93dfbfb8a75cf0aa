import SecureLog.Protocol
import SecureLog.FileFormat

/- The protobuf messages and their converters (`part_005`).

   A `pb` message holds its 32-byte fields as byte strings of any length and its
   times as `timestamppb.Timestamp` fields, which may be `nil`. `ToProto*` copies
   each block out (`C.toBytes`) and each time into a `Timestamp`; `FromProto*`
   checks each 32-byte field's length in the code's order, failing with the
   code's message for the first bad one (`blockField`), copies it into a block,
   and reads each time back with `AsTime`. `FromProtoRecords` converts the list in
   order and wraps the first failure with the record's position.

   Round trips: every native value converts back to itself (`fromProto*_toProto*`);
   a message fails to convert exactly when one of its 32-byte fields, or one of
   its records', has another length (`fromProto*_isOk`); and a message that
   converts is given back by `ToProto*` field for field, its times normalised
   (`toProto*_of_fromProto*`, for a codec that reads back every 32-byte buffer, as
   `copy` into a `[32]byte` does). -/
namespace SecureLog

variable {B : Type}

/-! ## Messages -/

/-- `timestamppb.Timestamp`: the seconds and nanoseconds of an instant. -/
structure Timestamp where
  seconds : Int
  nanos : Int
  deriving DecidableEq, Repr

/-- `timestamppb.New(t)`: `t.Unix()` and `t.Nanosecond()`. -/
def Timestamp.new (t : Time) : Timestamp := ⟨t.nanos / 10 ^ 9, t.nanos % 10 ^ 9⟩

/-- `p.AsTime()` of a message's time field, a `nil` field reading as the epoch. -/
def Timestamp.asTime : Option Timestamp → Time
  | none => ⟨0⟩
  | some ts => ⟨ts.seconds * 10 ^ 9 + ts.nanos⟩

@[simp] theorem Timestamp.asTime_new (t : Time) : Timestamp.asTime (some (Timestamp.new t)) = t := by
  simp only [asTime, new, mul_comm _ ((10 : Int) ^ 9), Int.ediv_add_emod]

/-- `pb.InitCommitment`. -/
structure PbInitCommitment where
  logId : String
  startTime : Option Timestamp
  keyA0 : List UInt8
  keyB0 : List UInt8
  updateFreq : UInt64
  deriving DecidableEq, Repr

/-- `pb.OpenMessage`. -/
structure PbOpenMessage where
  logId : String
  openTime : Option Timestamp
  firstIndex : UInt64
  firstTagV : List UInt8
  firstTagT : List UInt8
  deriving DecidableEq, Repr

/-- `pb.CloseMessage`. -/
structure PbCloseMessage where
  logId : String
  closeTime : Option Timestamp
  finalIndex : UInt64
  finalTagV : List UInt8
  finalTagT : List UInt8
  deriving DecidableEq, Repr

/-- `pb.Record`. -/
structure PbRecord where
  index : UInt64
  ts : Int64
  msg : List UInt8
  tagV : List UInt8
  tagT : List UInt8
  deriving DecidableEq, Repr

variable (C : BlockCodec B)

/-! ## Converters -/

/-- The check of a 32-byte field shared by every `FromProto*`: a length other
than 32 is refused with the field's name, else `copy` fills the block. -/
def blockField (name : String) (bs : List UInt8) : Except Error B :=
  if bs.length ≠ 32 then
    .error (.new ("invalid " ++ name ++ " size: expected 32, got " ++ toString bs.length))
  else .ok (C.ofBytes bs)

/-- `ToProtoInitCommitment(c)`. -/
def toProtoInitCommitment (c : InitCommitment B) : PbInitCommitment :=
  ⟨c.logID, some (.new c.startTime), C.toBytes c.keyA0, C.toBytes c.keyB0, c.updateFreq⟩

/-- `FromProtoInitCommitment(p)`: `KeyA0` is checked first (`KeySize` is 32). -/
def fromProtoInitCommitment (p : PbInitCommitment) : Except Error (InitCommitment B) := do
  let keyA0 ← blockField C "KeyA0" p.keyA0
  let keyB0 ← blockField C "KeyB0" p.keyB0
  pure ⟨p.logId, Timestamp.asTime p.startTime, keyA0, keyB0, p.updateFreq⟩

/-- `ToProtoOpenMessage(o)`. -/
def toProtoOpenMessage (o : OpenMessage B) : PbOpenMessage :=
  ⟨o.logID, some (.new o.openTime), o.firstIndex, C.toBytes o.firstTagV, C.toBytes o.firstTagT⟩

/-- `FromProtoOpenMessage(p)`. -/
def fromProtoOpenMessage (p : PbOpenMessage) : Except Error (OpenMessage B) := do
  let firstTagV ← blockField C "FirstTagV" p.firstTagV
  let firstTagT ← blockField C "FirstTagT" p.firstTagT
  pure ⟨p.logId, Timestamp.asTime p.openTime, p.firstIndex, firstTagV, firstTagT⟩

/-- `ToProtoCloseMessage(c)`. -/
def toProtoCloseMessage (c : CloseMessage B) : PbCloseMessage :=
  ⟨c.logID, some (.new c.closeTime), c.finalIndex, C.toBytes c.finalTagV, C.toBytes c.finalTagT⟩

/-- `FromProtoCloseMessage(p)`. -/
def fromProtoCloseMessage (p : PbCloseMessage) : Except Error (CloseMessage B) := do
  let finalTagV ← blockField C "FinalTagV" p.finalTagV
  let finalTagT ← blockField C "FinalTagT" p.finalTagT
  pure ⟨p.logId, Timestamp.asTime p.closeTime, p.finalIndex, finalTagV, finalTagT⟩

/-- `ToProtoRecord(r)`. -/
def toProtoRecord (r : Record B) : PbRecord := ⟨r.index, r.ts, r.msg, C.toBytes r.tagV, C.toBytes r.tagT⟩

/-- `FromProtoRecord(p)`: the message is copied, then `TagV` and `TagT` checked. -/
def fromProtoRecord (p : PbRecord) : Except Error (Record B) := do
  let tagV ← blockField C "TagV" p.tagV
  let tagT ← blockField C "TagT" p.tagT
  pure ⟨p.index, p.ts, p.msg, tagV, tagT⟩

/-- `ToProtoRecords(records)`. -/
def toProtoRecords (records : List (Record B)) : List PbRecord := records.map (toProtoRecord C)

/-- The loop of `FromProtoRecords` from position `i`: the first failure is
wrapped with its position. -/
def fromProtoRecordsFrom : ℕ → List PbRecord → Except Error (List (Record B))
  | _, [] => .ok []
  | i, p :: ps =>
    match fromProtoRecord C p with
    | .error err => .error (.wrap ("record " ++ toString i) err)
    | .ok r => (r :: ·) <$> fromProtoRecordsFrom (i + 1) ps

/-- `FromProtoRecords(pRecords)`. -/
def fromProtoRecords (pRecords : List PbRecord) : Except Error (List (Record B)) :=
  fromProtoRecordsFrom C 0 pRecords

/-! ## The field check -/

variable {C}

@[simp] theorem blockField_toBytes (name : String) (b : B) :
    blockField C name (C.toBytes b) = .ok b := by
  simp [blockField]

theorem blockField_of_length {name : String} {bs : List UInt8} (h : bs.length = 32) :
    blockField C name bs = .ok (C.ofBytes bs) := by
  simp [blockField, h]

theorem blockField_of_length_ne {name : String} {bs : List UInt8} (h : bs.length ≠ 32) :
    blockField C name bs =
      .error (.new ("invalid " ++ name ++ " size: expected 32, got " ++ toString bs.length)) := by
  simp [blockField, h]

/-- A codec that reads back every 32-byte buffer it fills a block from, as `copy`
into a `[32]byte` does. -/
def BlockCodec.Exact (C : BlockCodec B) : Prop :=
  ∀ bs : List UInt8, bs.length = 32 → C.toBytes (C.ofBytes bs) = bs

theorem Block32.codec_exact : Block32.codec.Exact := fun bs h => by
  simp [Block32.codec, List.take_left' h]

/-- Over an exact codec, a field that passes the check is given back by `toBytes`. -/
theorem toBytes_of_blockField (hC : C.Exact) {name : String} {bs : List UInt8} {b : B}
    (h : blockField C name bs = .ok b) : C.toBytes b = bs := by
  by_cases hl : bs.length = 32
  · rw [blockField_of_length hl, Except.ok.injEq] at h
    rw [← h, hC bs hl]
  · rw [blockField_of_length_ne hl] at h
    cases h

/-- Two checks in a row pass exactly when both fields have 32 bytes. -/
theorem blockField_pair_isOk {α : Type} (n₁ n₂ : String) (bs₁ bs₂ : List UInt8) (f : B → B → α) :
    (do let x ← blockField C n₁ bs₁; let y ← blockField C n₂ bs₂; pure (f x y) :
      Except Error α).isOk = true ↔ bs₁.length = 32 ∧ bs₂.length = 32 := by
  by_cases h₁ : bs₁.length = 32 <;> by_cases h₂ : bs₂.length = 32 <;>
    simp [blockField, h₁, h₂, bind, Except.bind, pure, Except.pure, Except.isOk, Except.toBool]

/-- Two checks in a row that pass fill the blocks from the two fields. -/
theorem blockField_pair_eq_ok {α : Type} {n₁ n₂ : String} {bs₁ bs₂ : List UInt8}
    {f : B → B → α} {a : α}
    (h : (do let x ← blockField C n₁ bs₁; let y ← blockField C n₂ bs₂; pure (f x y) :
      Except Error α) = .ok a) :
    ∃ x y, blockField C n₁ bs₁ = .ok x ∧ blockField C n₂ bs₂ = .ok y ∧ a = f x y := by
  cases h₁ : blockField C n₁ bs₁ <;> cases h₂ : blockField C n₂ bs₂ <;>
    simp_all [bind, Except.bind, pure, Except.pure]

/-! ## Round trips of the single messages -/

@[simp] theorem fromProtoInitCommitment_toProto (c : InitCommitment B) :
    fromProtoInitCommitment C (toProtoInitCommitment C c) = .ok c := by
  simp [fromProtoInitCommitment, toProtoInitCommitment, bind, Except.bind, pure, Except.pure]

@[simp] theorem fromProtoOpenMessage_toProto (o : OpenMessage B) :
    fromProtoOpenMessage C (toProtoOpenMessage C o) = .ok o := by
  simp [fromProtoOpenMessage, toProtoOpenMessage, bind, Except.bind, pure, Except.pure]

@[simp] theorem fromProtoCloseMessage_toProto (c : CloseMessage B) :
    fromProtoCloseMessage C (toProtoCloseMessage C c) = .ok c := by
  simp [fromProtoCloseMessage, toProtoCloseMessage, bind, Except.bind, pure, Except.pure]

@[simp] theorem fromProtoRecord_toProto (r : Record B) :
    fromProtoRecord C (toProtoRecord C r) = .ok r := by
  simp [fromProtoRecord, toProtoRecord, bind, Except.bind, pure, Except.pure]

theorem fromProtoInitCommitment_isOk (p : PbInitCommitment) :
    (fromProtoInitCommitment C p).isOk = true ↔ p.keyA0.length = 32 ∧ p.keyB0.length = 32 :=
  blockField_pair_isOk _ _ _ _ _

theorem fromProtoOpenMessage_isOk (p : PbOpenMessage) :
    (fromProtoOpenMessage C p).isOk = true ↔ p.firstTagV.length = 32 ∧ p.firstTagT.length = 32 :=
  blockField_pair_isOk _ _ _ _ _

theorem fromProtoCloseMessage_isOk (p : PbCloseMessage) :
    (fromProtoCloseMessage C p).isOk = true ↔ p.finalTagV.length = 32 ∧ p.finalTagT.length = 32 :=
  blockField_pair_isOk _ _ _ _ _

theorem fromProtoRecord_isOk (p : PbRecord) :
    (fromProtoRecord C p).isOk = true ↔ p.tagV.length = 32 ∧ p.tagT.length = 32 :=
  blockField_pair_isOk _ _ _ _ _

theorem toProtoInitCommitment_of_fromProto (hC : C.Exact) {p : PbInitCommitment}
    {c : InitCommitment B} (h : fromProtoInitCommitment C p = .ok c) :
    toProtoInitCommitment C c = { p with startTime := some (.new (Timestamp.asTime p.startTime)) } := by
  obtain ⟨x, y, hx, hy, rfl⟩ := blockField_pair_eq_ok h
  simp [toProtoInitCommitment, toBytes_of_blockField hC hx, toBytes_of_blockField hC hy]

theorem toProtoOpenMessage_of_fromProto (hC : C.Exact) {p : PbOpenMessage} {o : OpenMessage B}
    (h : fromProtoOpenMessage C p = .ok o) :
    toProtoOpenMessage C o = { p with openTime := some (.new (Timestamp.asTime p.openTime)) } := by
  obtain ⟨x, y, hx, hy, rfl⟩ := blockField_pair_eq_ok h
  simp [toProtoOpenMessage, toBytes_of_blockField hC hx, toBytes_of_blockField hC hy]

theorem toProtoCloseMessage_of_fromProto (hC : C.Exact) {p : PbCloseMessage} {c : CloseMessage B}
    (h : fromProtoCloseMessage C p = .ok c) :
    toProtoCloseMessage C c = { p with closeTime := some (.new (Timestamp.asTime p.closeTime)) } := by
  obtain ⟨x, y, hx, hy, rfl⟩ := blockField_pair_eq_ok h
  simp [toProtoCloseMessage, toBytes_of_blockField hC hx, toBytes_of_blockField hC hy]

theorem toProtoRecord_of_fromProto (hC : C.Exact) {p : PbRecord} {r : Record B}
    (h : fromProtoRecord C p = .ok r) : toProtoRecord C r = p := by
  obtain ⟨x, y, hx, hy, rfl⟩ := blockField_pair_eq_ok h
  simp [toProtoRecord, toBytes_of_blockField hC hx, toBytes_of_blockField hC hy]

/-! ## Record lists -/

theorem fromProtoRecordsFrom_toProto (i : ℕ) (rs : List (Record B)) :
    fromProtoRecordsFrom C i (toProtoRecords C rs) = .ok rs := by
  induction rs generalizing i with
  | nil => rfl
  | cons r rs ih =>
    simp only [toProtoRecords, List.map_cons, fromProtoRecordsFrom, fromProtoRecord_toProto]
    rw [← toProtoRecords, ih]
    rfl

theorem fromProtoRecordsFrom_isOk (i : ℕ) (ps : List PbRecord) :
    (fromProtoRecordsFrom C i ps).isOk = true ↔ ∀ p ∈ ps, p.tagV.length = 32 ∧ p.tagT.length = 32 := by
  induction ps generalizing i with
  | nil => simp [fromProtoRecordsFrom, Except.isOk, Except.toBool]
  | cons p ps ih =>
    rw [List.forall_mem_cons, ← fromProtoRecord_isOk (C := C), ← ih (i + 1), fromProtoRecordsFrom]
    cases fromProtoRecord C p <;> cases fromProtoRecordsFrom C (i + 1) ps <;>
      simp [Except.isOk, Except.toBool, Functor.map, Except.map]

theorem toProtoRecords_of_fromProtoFrom (hC : C.Exact) (i : ℕ) {ps : List PbRecord}
    {rs : List (Record B)} (h : fromProtoRecordsFrom C i ps = .ok rs) : toProtoRecords C rs = ps := by
  induction ps generalizing i rs with
  | nil => cases h; rfl
  | cons p ps ih =>
    rw [fromProtoRecordsFrom] at h
    cases hp : fromProtoRecord C p with
    | error e => rw [hp] at h; cases h
    | ok r =>
      rw [hp] at h
      cases hs : fromProtoRecordsFrom C (i + 1) ps with
      | error e => rw [hs] at h; cases h
      | ok rs' =>
        rw [hs] at h
        cases h
        simp [toProtoRecords, toProtoRecord_of_fromProto hC hp, ← ih (i + 1) hs]

/-- **The converters round-trip** over `[32]byte` blocks: every native value
converts back to itself; a message fails to convert exactly when a 32-byte field
(of one of its records, for a list) has another length; and a message that
converts is given back by `ToProto*` on every integer, string and byte field. -/
theorem proto_converters_round_trip :
    (∀ c : InitCommitment Block32,
      fromProtoInitCommitment Block32.codec (toProtoInitCommitment Block32.codec c) = .ok c) ∧
    (∀ o : OpenMessage Block32,
      fromProtoOpenMessage Block32.codec (toProtoOpenMessage Block32.codec o) = .ok o) ∧
    (∀ c : CloseMessage Block32,
      fromProtoCloseMessage Block32.codec (toProtoCloseMessage Block32.codec c) = .ok c) ∧
    (∀ r : Record Block32, fromProtoRecord Block32.codec (toProtoRecord Block32.codec r) = .ok r) ∧
    (∀ rs : List (Record Block32),
      fromProtoRecords Block32.codec (toProtoRecords Block32.codec rs) = .ok rs) ∧
    (∀ p : PbInitCommitment, (fromProtoInitCommitment Block32.codec p).isOk = false ↔
      p.keyA0.length ≠ 32 ∨ p.keyB0.length ≠ 32) ∧
    (∀ p : PbOpenMessage, (fromProtoOpenMessage Block32.codec p).isOk = false ↔
      p.firstTagV.length ≠ 32 ∨ p.firstTagT.length ≠ 32) ∧
    (∀ p : PbCloseMessage, (fromProtoCloseMessage Block32.codec p).isOk = false ↔
      p.finalTagV.length ≠ 32 ∨ p.finalTagT.length ≠ 32) ∧
    (∀ p : PbRecord, (fromProtoRecord Block32.codec p).isOk = false ↔
      p.tagV.length ≠ 32 ∨ p.tagT.length ≠ 32) ∧
    (∀ ps : List PbRecord, (fromProtoRecords Block32.codec ps).isOk = false ↔
      ∃ p ∈ ps, p.tagV.length ≠ 32 ∨ p.tagT.length ≠ 32) ∧
    (∀ p c, fromProtoInitCommitment Block32.codec p = .ok c →
      toProtoInitCommitment Block32.codec c =
        { p with startTime := some (.new (Timestamp.asTime p.startTime)) }) ∧
    (∀ p o, fromProtoOpenMessage Block32.codec p = .ok o →
      toProtoOpenMessage Block32.codec o =
        { p with openTime := some (.new (Timestamp.asTime p.openTime)) }) ∧
    (∀ p c, fromProtoCloseMessage Block32.codec p = .ok c →
      toProtoCloseMessage Block32.codec c =
        { p with closeTime := some (.new (Timestamp.asTime p.closeTime)) }) ∧
    (∀ p r, fromProtoRecord Block32.codec p = .ok r → toProtoRecord Block32.codec r = p) ∧
    (∀ ps rs, fromProtoRecords Block32.codec ps = .ok rs → toProtoRecords Block32.codec rs = ps) := by
  refine ⟨fromProtoInitCommitment_toProto, fromProtoOpenMessage_toProto,
    fromProtoCloseMessage_toProto, fromProtoRecord_toProto, fromProtoRecordsFrom_toProto 0,
    fun p => ?_, fun p => ?_, fun p => ?_, fun p => ?_, fun ps => ?_,
    fun _ _ => toProtoInitCommitment_of_fromProto Block32.codec_exact,
    fun _ _ => toProtoOpenMessage_of_fromProto Block32.codec_exact,
    fun _ _ => toProtoCloseMessage_of_fromProto Block32.codec_exact,
    fun _ _ => toProtoRecord_of_fromProto Block32.codec_exact,
    fun _ _ => toProtoRecords_of_fromProtoFrom Block32.codec_exact 0⟩
  · rw [← Bool.not_eq_true, fromProtoInitCommitment_isOk]; tauto
  · rw [← Bool.not_eq_true, fromProtoOpenMessage_isOk]; tauto
  · rw [← Bool.not_eq_true, fromProtoCloseMessage_isOk]; tauto
  · rw [← Bool.not_eq_true, fromProtoRecord_isOk]; tauto
  · rw [← Bool.not_eq_true, fromProtoRecords, fromProtoRecordsFrom_isOk]
    simp only [not_forall, not_and_or, exists_prop]

end SecureLog
