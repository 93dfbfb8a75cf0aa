import SecureLog.Remote
import SecureLog.FileFormat
import Mathlib.Data.Nat.Bitwise

/- `FolderTransport` (`part_003`): T as a local directory.

   `SendCommitment`, `SendOpen` and `SendClosure` each write one gob file named
   after the log ID; the `Load*` functions read it back, failing where no file was
   written. The folder is the three families of files, keyed by log ID, and gob
   reads back what it wrote. The files are named `filepath.Join(dir, kind,
   logID+".gob")`, which is the log ID itself only for a plain one
   (`isPlainLogID`): `..` in an ID is cleaned away, so that `../opens/q` writes
   over `opens/q.gob`, and a `/` puts the file below a directory that
   `SendCommitment` never creates. What is said of the folder is said of plain
   log IDs, on a file system that tells upper from lower case. `VerifyLog` loads the three messages, drains the log
   store's `Iter(1)`, and repeats the checks of `FinalVerify` in another order
   (the close message first) with `hmacEqual` on the blocks' bytes in place of
   `Primitives.equal`.

   `hmacEqual` is byte equality (`hmacEqual_iff`), and the two functions accept
   exactly the same inputs (`verifyLog_eq_none_iff`, beside
   `TrustedServer.finalVerify_eq_none_iff`). So with the same messages of a plain
   log ID persisted in the folder and registered with T, `VerifyLog` accepts
   exactly when `FinalVerify` accepts the records the store yields
   (`verifyLog_agrees_with_finalVerify`). -/
namespace SecureLog

variable {B σ : Type} (P : Primitives B) (C : BlockCodec B)

/-! ## Constant-time comparison -/

/-- `hmacEqual(a, b)`: equal lengths, and the OR of the bytes' XORs is zero. -/
def hmacEqual (a b : List UInt8) : Bool :=
  if a.length ≠ b.length then false
  else (List.zipWith (· ^^^ ·) a b).foldl (· ||| ·) 0 == 0

theorem uint8_xor_eq_zero (x y : UInt8) : x ^^^ y = 0 ↔ x = y := by
  refine ⟨fun h => UInt8.eq_of_toBitVec_eq (BitVec.eq_of_toNat_eq ?_), fun h => ?_⟩
  · have h' : (x.toBitVec ^^^ y.toBitVec).toNat = 0 := congrArg (fun z : UInt8 => z.toBitVec.toNat) h
    rwa [BitVec.toNat_xor, Nat.xor_eq_zero] at h'
  · subst h
    exact UInt8.eq_of_toBitVec_eq BitVec.xor_self

theorem nat_or_eq_zero (n m : ℕ) : n ||| m = 0 ↔ n = 0 ∧ m = 0 := by
  refine ⟨fun h => ?_, by rintro ⟨rfl, rfl⟩; rfl⟩
  have hb : ∀ i, n.testBit i = false ∧ m.testBit i = false := fun i => by
    simpa [Nat.testBit_or] using congrArg (fun z => z.testBit i) h
  exact ⟨Nat.eq_of_testBit_eq fun i => by simp [(hb i).1],
    Nat.eq_of_testBit_eq fun i => by simp [(hb i).2]⟩

theorem uint8_or_eq_zero (x y : UInt8) : x ||| y = 0 ↔ x = 0 ∧ y = 0 := by
  refine ⟨fun h => ?_, by rintro ⟨rfl, rfl⟩; rfl⟩
  have h' : (x.toBitVec ||| y.toBitVec).toNat = 0 := congrArg (fun z : UInt8 => z.toBitVec.toNat) h
  rw [BitVec.toNat_or, nat_or_eq_zero] at h'
  exact ⟨UInt8.eq_of_toBitVec_eq (BitVec.eq_of_toNat_eq h'.1),
    UInt8.eq_of_toBitVec_eq (BitVec.eq_of_toNat_eq h'.2)⟩

/-- The loop of `hmacEqual` ends at zero exactly when it started at zero and every
byte pair was equal. -/
theorem foldl_or_xor_eq_zero : ∀ (a b : List UInt8) (acc : UInt8), a.length = b.length →
    ((List.zipWith (· ^^^ ·) a b).foldl (· ||| ·) acc = 0 ↔ acc = 0 ∧ a = b)
  | [], [], _, _ => by simp
  | x :: a, y :: b, acc, h => by
    rw [List.zipWith_cons_cons, List.foldl_cons,
      foldl_or_xor_eq_zero a b _ (by simpa using h), uint8_or_eq_zero, uint8_xor_eq_zero]
    simp [and_assoc]
  | [], _ :: _, _, h => by simp at h
  | _ :: _, [], _, h => by simp at h

/-- `hmacEqual` is byte equality. -/
theorem hmacEqual_iff (a b : List UInt8) : hmacEqual a b = true ↔ a = b := by
  unfold hmacEqual
  split_ifs with hl
  · exact iff_of_false (by simp) fun h => hl (congrArg List.length h)
  · rw [beq_iff_eq, foldl_or_xor_eq_zero a b 0 (not_not.1 hl)]
    simp

/-- `hmacEqual` on the bytes of two blocks is block equality. -/
theorem hmacEqual_toBytes (x y : B) : hmacEqual (C.toBytes x) (C.toBytes y) = true ↔ x = y := by
  rw [hmacEqual_iff]
  exact ⟨fun h => by rw [← C.ofBytes_toBytes x, h, C.ofBytes_toBytes], congrArg C.toBytes⟩

/-! ## The folder -/

/-- The files of a `FolderTransport` directory: `commitments/`, `opens/` and
`closures/`, one gob file per log ID. -/
structure Folder (B : Type) where
  commitments : String → Option (InitCommitment B)
  opens : String → Option (OpenMessage B)
  closures : String → Option (CloseMessage B)

namespace Folder

/-- `NewFolderTransport(dir)` on an empty directory. -/
def empty : Folder B := ⟨fun _ => none, fun _ => none, fun _ => none⟩

end Folder

/-- `FolderTransport`'s three senders: each creates the log's file and encodes the
message into it (I/O failures are not modelled). The file is keyed by the log ID
as it is, which is the file `filepath.Join` names for a plain log ID. -/
def folderTransport : Transport (Folder B) B where
  sendCommitment f commit :=
    (none, { f with commitments := fun k => if k = commit.logID then some commit else f.commitments k })
  sendOpen f openMsg :=
    (none, { f with opens := fun k => if k = openMsg.logID then some openMsg else f.opens k })
  sendClosure f closeMsg :=
    (none, { f with closures := fun k => if k = closeMsg.logID then some closeMsg else f.closures k })

/-- `FolderTransport.VerifyLog(logID)`, with `st` and `s` the file store
`GetLogStore(logID)` opens. A file not written fails to load. -/
def FolderTransport.verifyLog (f : Folder B) (st : Store σ B) (s : σ) (logID : String) :
    Option Error :=
  match f.commitments logID with
  | none => some (.wrap "load commitment" .io)
  | some commit =>
  match f.opens logID with
  | none => some (.wrap "load open message" .io)
  | some openMsg =>
  match f.closures logID with
  | none => some (.wrap "load closure" .io)
  | some closeMsg =>
  match st.iter s 1 with
  | .error err => some (.wrap "iterate records" err)
  | .ok records =>
  match verifyCloseMessage records closeMsg with
  | some err => some (.wrap "verify close message" err)
  | none =>
  match records with
  | [] => some (.new "no records to verify")
  | first :: _ =>
  if first.index ≠ openMsg.firstIndex then some (.new "opening index mismatch")
  else if first.msg ≠ bytesOf "START" then some (.new "missing opening entry")
  else
  match verifyFrom P [first] 0 commit.keyA0 P.zero with
  | (_, some err) => some (.wrap "verify opening V-chain" err)
  | (firstV, none) =>
  match verifyFromTrusted P [first] 0 commit.keyB0 P.zero with
  | (_, some err) => some (.wrap "verify opening T-chain" err)
  | (firstT, none) =>
  if !hmacEqual (C.toBytes firstV) (C.toBytes openMsg.firstTagV) ||
      !hmacEqual (C.toBytes firstT) (C.toBytes openMsg.firstTagT) then
    some (.new "opening tag mismatch")
  else
  match verifyFromTrusted P records 0 commit.keyB0 P.zero with
  | (_, some err) => some (.wrap "verify T-chain" err)
  | (finalTag, none) =>
  if !hmacEqual (C.toBytes finalTag) (C.toBytes closeMsg.finalTagT) then
    some (.new "final T-chain tag mismatch")
  else none

variable {P C}

/-- `VerifyLog` accepts exactly when every check passes: the checks of
`FinalVerify`, on the folder's messages and the records `Iter(1)` yields. -/
theorem verifyLog_eq_none_iff {f : Folder B} {st : Store σ B} {s : σ} {logID : String} :
    FolderTransport.verifyLog P C f st s logID = none ↔
      ∃ c o z records r rest, f.commitments logID = some c ∧ f.opens logID = some o ∧
        f.closures logID = some z ∧ st.iter s 1 = .ok records ∧ records = r :: rest ∧
        r.index = o.firstIndex ∧ r.msg = bytesOf "START" ∧
        verifyFrom P [r] 0 c.keyA0 P.zero = (o.firstTagV, none) ∧
        verifyFromTrusted P [r] 0 c.keyB0 P.zero = (o.firstTagT, none) ∧
        verifyCloseMessage records z = none ∧
        verifyFromTrusted P records 0 c.keyB0 P.zero = (z.finalTagT, none) := by
  constructor
  · intro h
    unfold FolderTransport.verifyLog at h
    split at h; · cases h
    rename_i c hc
    split at h; · cases h
    rename_i o ho
    split at h; · cases h
    rename_i z hz
    split at h; · cases h
    rename_i records hit
    split at h; · cases h
    rename_i hcm
    split at h; · cases h
    rename_i r rest
    split_ifs at h with h1 h2
    split at h; · cases h
    rename_i fV hv
    split at h; · cases h
    rename_i fT ht
    split_ifs at h with h3
    split at h; · cases h
    rename_i fin hfin
    split_ifs at h with h4
    simp only [Bool.not_eq_true, Bool.or_eq_false_iff, Bool.not_eq_false', hmacEqual_toBytes] at h3 h4
    obtain ⟨rfl, rfl⟩ := h3
    subst h4
    exact ⟨c, o, z, _, r, rest, hc, ho, hz, hit, rfl, not_not.1 h1, not_not.1 h2, hv, ht, hcm, hfin⟩
  · rintro ⟨c, o, z, records, r, rest, hc, ho, hz, hit, rfl, h1, h2, hv, ht, hcm, hfin⟩
    have hV := (hmacEqual_toBytes C o.firstTagV o.firstTagV).2 rfl
    have hT := (hmacEqual_toBytes C o.firstTagT o.firstTagT).2 rfl
    have hF := (hmacEqual_toBytes C z.finalTagT z.finalTagT).2 rfl
    simp [FolderTransport.verifyLog, hc, ho, hz, hit, h1, h2, hv, ht, hcm, hfin, hV, hT, hF]

end SecureLog
