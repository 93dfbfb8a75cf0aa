import SecureLog.Logger

/- The three-phase protocol (`part_003`): `InitProtocol` and `CloseProtocol` on the
   logger, and the trusted server T with `RegisterLog`, `RegisterOpen`,
   `AcceptClosure` and `FinalVerify`.

   `time.Now()` is an input (`now`). Go's maps are functions from the log ID;
   `FinalVerify` returns `nil` as `none`. The checks of `FinalVerify` are kept in
   the code's order with the code's messages, so that the first failing check
   decides the error.

   `initProtocol_ok` and `closeProtocol_ok` say what a successful phase does in
   terms of `Append`: the open message carries the first entry's index and the
   logger's tags after it, and the close message the last index and tags, after
   which both keys are zero. -/
namespace SecureLog

/-- `InitCommitment`. -/
structure InitCommitment (B : Type) where
  logID : String
  startTime : Time
  keyA0 : B
  keyB0 : B
  updateFreq : UInt64
  deriving DecidableEq, Repr

/-- `OpenMessage`. -/
structure OpenMessage (B : Type) where
  logID : String
  openTime : Time
  firstIndex : UInt64
  firstTagV : B
  firstTagT : B
  deriving DecidableEq, Repr

/-- `CloseMessage`. -/
structure CloseMessage (B : Type) where
  logID : String
  closeTime : Time
  finalIndex : UInt64
  finalTagV : B
  finalTagT : B
  deriving DecidableEq, Repr

variable {B σ : Type} (P : Primitives B)

namespace Logger

/-- `keyUpdateFrequency()`. -/
def keyUpdateFrequency : UInt64 := 1

/-- `InitProtocol(logID)`: commit to the current keys, then append `START`. -/
def initProtocol (st : Store σ B) (l : Logger B) (s : σ) (logID : String) (now : Time) :
    Except Error (InitCommitment B × OpenMessage B) × Logger B × σ :=
  let commit : InitCommitment B := ⟨logID, now, l.keyV, l.keyT, keyUpdateFrequency⟩
  match l.append P st s (bytesOf "START") now with
  | (.error err, l, s) => (.error err, l, s)
  | (.ok entry, l, s) =>
    let (_, tagV, tagT) := l.lastState
    (.ok (commit, ⟨logID, now, entry.index, tagV, tagT⟩), l, s)

/-- `CloseProtocol(logID)`: append `CLOSE`, read the last state, zero both keys. -/
def closeProtocol (st : Store σ B) (l : Logger B) (s : σ) (logID : String) (now : Time) :
    Except Error (CloseMessage B) × Logger B × σ :=
  match l.append P st s (bytesOf "CLOSE") now with
  | (.error err, l, s) => (.error err, l, s)
  | (.ok _, l, s) =>
    let (idx, tagV, tagT) := l.lastState
    (.ok ⟨logID, now, idx, tagV, tagT⟩, { l with keyV := P.zero, keyT := P.zero }, s)

variable {P} {st : Store σ B} {l l' : Logger B} {s s' : σ} {logID : String} {now : Time}

theorem initProtocol_ok {commit : InitCommitment B} {op : OpenMessage B}
    (h : l.initProtocol P st s logID now = (.ok (commit, op), l', s')) :
    ∃ en, l.append P st s (bytesOf "START") now = (.ok en, l', s') ∧
      commit = ⟨logID, now, l.keyV, l.keyT, keyUpdateFrequency⟩ ∧
      op = ⟨logID, now, en.index, l'.tagV, l'.tagT⟩ := by
  unfold initProtocol at h
  split at h
  · cases h
  · rename_i en _ _ happ
    simp only [Prod.mk.injEq, Except.ok.injEq] at h
    obtain ⟨⟨rfl, rfl⟩, rfl, rfl⟩ := h
    exact ⟨en, happ, rfl, rfl⟩

theorem closeProtocol_ok {cl : CloseMessage B}
    (h : l.closeProtocol P st s logID now = (.ok cl, l', s')) :
    ∃ en l₁, l.append P st s (bytesOf "CLOSE") now = (.ok en, l₁, s') ∧
      cl = ⟨logID, now, l₁.i, l₁.tagV, l₁.tagT⟩ ∧ l' = { l₁ with keyV := P.zero, keyT := P.zero } := by
  unfold closeProtocol at h
  split at h
  · cases h
  · rename_i en l₁ _ happ
    simp only [Prod.mk.injEq, Except.ok.injEq] at h
    obtain ⟨rfl, rfl, rfl⟩ := h
    exact ⟨en, l₁, happ, rfl, rfl⟩

/-- An `InitProtocol` whose `START` append succeeds returns the commitment to the
keys it was called with and the open message of the first entry. -/
theorem initProtocol_of_append_ok {en : Entry B}
    (h : l.append P st s (bytesOf "START") now = (.ok en, l', s')) :
    l.initProtocol P st s logID now =
      (.ok (⟨logID, now, l.keyV, l.keyT, keyUpdateFrequency⟩,
        ⟨logID, now, en.index, l'.tagV, l'.tagT⟩), l', s') := by
  simp only [initProtocol, h, lastState]

/-- A `CloseProtocol` whose `CLOSE` append succeeds returns the close message of the
logger after it and zeroes both keys. -/
theorem closeProtocol_of_append_ok {en : Entry B}
    (h : l.append P st s (bytesOf "CLOSE") now = (.ok en, l', s')) :
    l.closeProtocol P st s logID now =
      (.ok ⟨logID, now, l'.i, l'.tagV, l'.tagT⟩, { l' with keyV := P.zero, keyT := P.zero }, s') := by
  simp only [closeProtocol, h, lastState]

end Logger

/-- `VerifyCloseMessage(records, closeMsg)`. -/
def verifyCloseMessage (records : List (Record B)) (closeMsg : CloseMessage B) : Option Error :=
  match records.getLast? with
  | none => some (.new "no records to verify")
  | some lastRec =>
    if lastRec.index ≠ closeMsg.finalIndex then some (.new "final index mismatch")
    else if lastRec.msg ≠ bytesOf "CLOSE" then some (.new "missing proper closing message")
    else none

/-- `VerifyCloseMessage` accepts exactly when the last record is a `CLOSE` at the
final index. -/
theorem verifyCloseMessage_eq_none_iff {records : List (Record B)} {z : CloseMessage B} :
    verifyCloseMessage records z = none ↔
      ∃ r, records.getLast? = some r ∧ r.index = z.finalIndex ∧ r.msg = bytesOf "CLOSE" := by
  unfold verifyCloseMessage
  split
  · simp_all
  · split_ifs <;> simp_all

/-- A plain log ID: one every transport carries as it is. The code takes any
string, and the transports use it in paths: `HTTPTransport` and
`ProtoHTTPTransport` paste it unescaped into the verify URL, which `url.Parse`
cuts at `?` or `#` and unescapes at `%`, and whose path `ServeMux` cleans of
empty, `.` and `..` elements with a redirect; `FolderTransport` names its files
`filepath.Join(dir, kind, logID+".gob")`, which cleans `..` away, and which
`os.Create` refuses past `NAME_MAX` (255 bytes) or below a missing directory. A
plain ID is made of the URL's unreserved characters, is not empty, `.` or `..`,
and leaves room for `.gob` in a file name. -/
def isPlainLogID (logID : String) : Bool :=
  !logID.isEmpty && logID != "." && logID != ".." && logID.length ≤ 251 &&
    logID.data.all fun c => c.isAlphanum || c == '-' || c == '.' || c == '_' || c == '~'

/-- A log ID that climbs out of `commitments/` is not plain. -/
example : isPlainLogID "../opens/q" = false := by decide

/-- The trusted server T: its three maps, keyed by log ID. -/
structure TrustedServer (B : Type) where
  commitments : String → Option (InitCommitment B)
  opens : String → Option (OpenMessage B)
  closures : String → Option (CloseMessage B)

namespace TrustedServer

/-- `NewTrustedServer()`. -/
def new : TrustedServer B := ⟨fun _ => none, fun _ => none, fun _ => none⟩

/-- `RegisterLog(commit)`. -/
def registerLog (ts : TrustedServer B) (commit : InitCommitment B) : TrustedServer B :=
  { ts with commitments := fun k => if k = commit.logID then some commit else ts.commitments k }

/-- `RegisterOpen(open)`. -/
def registerOpen (ts : TrustedServer B) (openMsg : OpenMessage B) : TrustedServer B :=
  { ts with opens := fun k => if k = openMsg.logID then some openMsg else ts.opens k }

/-- `AcceptClosure(closeMsg)`: refused for a log with no commitment. -/
def acceptClosure (ts : TrustedServer B) (closeMsg : CloseMessage B) :
    Option Error × TrustedServer B :=
  match ts.commitments closeMsg.logID with
  | none => (some (.new "unknown log ID"), ts)
  | some _ =>
    (none, { ts with closures := fun k => if k = closeMsg.logID then some closeMsg
                                          else ts.closures k })

/-- `FinalVerify(logID, records)`: the checks in the code's order. -/
def finalVerify (ts : TrustedServer B) (logID : String) (records : List (Record B)) :
    Option Error :=
  match ts.commitments logID with
  | none => some (.new "log not registered with trusted server")
  | some commit =>
  match ts.opens logID with
  | none => some (.new "log opening not registered with trusted server")
  | some openMsg =>
  match records with
  | [] => some (.new "no records to verify")
  | firstRec :: _ =>
  if firstRec.index ≠ openMsg.firstIndex then some (.new "opening index mismatch")
  else if firstRec.msg ≠ bytesOf "START" then some (.new "missing opening message")
  else
  match verifyFrom P [firstRec] 0 commit.keyA0 P.zero with
  | (_, some err) => some (.wrap "verify opening V-chain" err)
  | (firstV, none) =>
  match verifyFromTrusted P [firstRec] 0 commit.keyB0 P.zero with
  | (_, some err) => some (.wrap "verify opening T-chain" err)
  | (firstT, none) =>
  if !P.equal firstV openMsg.firstTagV || !P.equal firstT openMsg.firstTagT then
    some (.new "opening tag mismatch")
  else
  match ts.closures logID with
  | none => some .logNotClosed
  | some closeMsg =>
  match verifyCloseMessage records closeMsg with
  | some err => some err
  | none =>
  match verifyFromTrusted P records 0 commit.keyB0 P.zero with
  | (_, some err) => some err
  | (finalTag, none) =>
  if !P.equal finalTag closeMsg.finalTagT then some (.new "final T-chain tag mismatch")
  else none

/-! ## What a successful verification establishes -/

variable {P}

/-- `FinalVerify` accepts exactly when every check passes. -/
theorem finalVerify_eq_none_iff {ts : TrustedServer B} {logID : String}
    {records : List (Record B)} :
    ts.finalVerify P logID records = none ↔
      ∃ c o z r rest, ts.commitments logID = some c ∧ ts.opens logID = some o ∧
        ts.closures logID = some z ∧ records = r :: rest ∧
        r.index = o.firstIndex ∧ r.msg = bytesOf "START" ∧
        verifyFrom P [r] 0 c.keyA0 P.zero = (o.firstTagV, none) ∧
        verifyFromTrusted P [r] 0 c.keyB0 P.zero = (o.firstTagT, none) ∧
        verifyCloseMessage records z = none ∧
        verifyFromTrusted P records 0 c.keyB0 P.zero = (z.finalTagT, none) := by
  constructor
  · intro h
    unfold finalVerify at h
    split at h; · cases h
    rename_i c hc
    split at h; · cases h
    rename_i o ho
    split at h; · cases h
    rename_i r rest
    split_ifs at h with h1 h2
    split at h; · cases h
    rename_i fV hv
    split at h; · cases h
    rename_i fT ht
    split_ifs at h with h3
    split at h; · cases h
    rename_i z hz
    split at h; · cases h
    rename_i hcm
    split at h; · cases h
    rename_i fin hfin
    split_ifs at h with h4
    simp only [Bool.not_eq_true, Bool.or_eq_false_iff, Bool.not_eq_false',
      Primitives.equal_iff] at h3 h4
    obtain ⟨rfl, rfl⟩ := h3
    subst h4
    exact ⟨c, o, z, r, rest, hc, ho, hz, rfl, not_not.1 h1, not_not.1 h2, hv, ht, hcm, hfin⟩
  · rintro ⟨c, o, z, r, rest, hc, ho, hz, rfl, h1, h2, hv, ht, hcm, hfin⟩
    simp [finalVerify, hc, ho, hz, h1, h2, hv, ht, hcm, hfin]

end TrustedServer

end SecureLog
