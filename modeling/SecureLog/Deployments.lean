import SecureLog.Isolation
import SecureLog.Folder

/- T in process and T as a folder (`part_003`), over runs of messages.

   `Transport.deliver` sends one of the logger's messages to T through a
   transport, and `Transport.run` a list of them; through `LocalTransport` this
   is T's own run (`TrustedServer.run_eq_localTransport`). A `FolderTransport`
   directory holds T's three maps (`Folder.toServer`), and its senders write
   them as `RegisterLog`, `RegisterOpen` and `AcceptClosure` do, with one
   difference: `SendClosure` stores a closure for a log with no commitment,
   which `AcceptClosure` refuses with "unknown log ID". The folder's files are
   those of plain log IDs (`isPlainLogID`), which `filepath.Join` keeps apart.

   1. Over any run of messages of plain log IDs that T accepts throughout, the
      folder answers as T and ends holding what T holds, so `VerifyLog` and
      `FinalVerify` give the same verdict on every plain log
      (`folderTransport_follows_trusted_server`).
   2. A closure sent before its log's commitment is where the two part: T drops
      it and then refuses the log as not closed, the folder keeps it and
      `VerifyLog` accepts the honest log (`folder_accepts_early_closure`). -/
namespace SecureLog

variable {B σ : Type} (P : Primitives B) (C : BlockCodec B)

namespace Transport

variable {τ : Type}

/-- One of the logger's messages to T, through the transport. -/
def deliver (tr : Transport τ B) (x : τ) : TrustedServer.Msg B → Option Error × τ
  | .register commit => tr.sendCommitment x commit
  | .openLog openMsg => tr.sendOpen x openMsg
  | .close closeMsg => tr.sendClosure x closeMsg

/-- The messages in turn through the transport, collecting the answers. -/
def run (tr : Transport τ B) (x : τ) : List (TrustedServer.Msg B) → List (Option Error) × τ
  | [] => ([], x)
  | m :: ms =>
    let (e, x') := tr.deliver x m
    let (es, x'') := tr.run x' ms
    (e :: es, x'')

end Transport

theorem TrustedServer.run_eq_localTransport (ts : TrustedServer B) (ms : List (TrustedServer.Msg B)) :
    ts.run ms = localTransport.run ts ms := by
  induction ms generalizing ts with
  | nil => rfl
  | cons m ms ih =>
    have hm : ts.deliver m = localTransport.deliver ts m := by cases m <;> rfl
    simp only [TrustedServer.run, Transport.run, hm, ih]

namespace Folder

/-- The folder's files as T's three maps. -/
def toServer (f : Folder B) : TrustedServer B := ⟨f.commitments, f.opens, f.closures⟩

/-- **Step lemma.** A message T accepts does to the folder what it does to T. -/
theorem deliver_toServer (f : Folder B) (m : TrustedServer.Msg B)
    (h : (localTransport.deliver f.toServer m).1 = none) :
    (folderTransport.deliver f m).1 = none ∧
      (folderTransport.deliver f m).2.toServer = (localTransport.deliver f.toServer m).2 := by
  cases m with
  | register commit => exact ⟨rfl, rfl⟩
  | openLog openMsg => exact ⟨rfl, rfl⟩
  | close closeMsg =>
    simp only [Transport.deliver, localTransport, TrustedServer.acceptClosure] at h ⊢
    split at h
    · cases h
    · simp only [toServer] at *
      exact ⟨rfl, rfl⟩

/-- **Run lemma.** -/
theorem run_toServer (ms : List (TrustedServer.Msg B)) : ∀ f : Folder B,
    (∀ e ∈ (localTransport.run f.toServer ms).1, e = none) →
    (folderTransport.run f ms).1 = (localTransport.run f.toServer ms).1 ∧
      (folderTransport.run f ms).2.toServer = (localTransport.run f.toServer ms).2 := by
  induction ms with
  | nil => exact fun _ _ => ⟨rfl, rfl⟩
  | cons m ms ih =>
    intro f h
    simp only [Transport.run, List.mem_cons, forall_eq_or_imp] at h ⊢
    obtain ⟨he, hf⟩ := deliver_toServer f m h.1
    rw [← hf] at h ⊢
    obtain ⟨h₁, h₂⟩ := ih _ h.2
    exact ⟨by rw [he, ← h.1, h₁], h₂⟩

/-- On a folder holding T's maps, `VerifyLog` accepts exactly where `FinalVerify`
accepts the records the log's store yields. -/
theorem verifyLog_eq_none_iff_finalVerify (f : Folder B) {st : Store σ B} {s : σ}
    {R : List (Record B)} (hR : st.iter s 1 = .ok R) (logID : String) :
    FolderTransport.verifyLog P C f st s logID = none ↔ f.toServer.finalVerify P logID R = none := by
  rw [verifyLog_eq_none_iff, TrustedServer.finalVerify_eq_none_iff]
  simp only [toServer, hR, Except.ok.injEq]
  constructor
  · rintro ⟨c, o, z, _, r, rest, hc, ho, hz, rfl, h⟩
    exact ⟨c, o, z, r, rest, hc, ho, hz, h⟩
  · rintro ⟨c, o, z, r, rest, hc, ho, hz, h⟩
    exact ⟨c, o, z, R, r, rest, hc, ho, hz, rfl, h⟩

end Folder

/-- **The folder follows T while T accepts.** From a folder holding what a T holds,
over any run of the logger's messages of plain log IDs that T accepts throughout,
`FolderTransport` answers every message as T does, ends holding what T holds, and
`VerifyLog` gives the verdict `FinalVerify` gives on every plain log and on the
records its store yields. -/
theorem folderTransport_follows_trusted_server (f : Folder B) (ms : List (TrustedServer.Msg B))
    (hacc : ∀ e ∈ (f.toServer.run ms).1, e = none) (st : Store σ B) (s : σ)
    (R : List (Record B)) (hR : st.iter s 1 = .ok R) (logID : String) :
    (∀ m ∈ ms, isPlainLogID m.logID = true) →
      (folderTransport.run f ms).1 = (f.toServer.run ms).1 ∧
        (folderTransport.run f ms).2.toServer = (f.toServer.run ms).2 ∧
        (isPlainLogID logID = true →
          (FolderTransport.verifyLog P C (folderTransport.run f ms).2 st s logID = none ↔
            (f.toServer.run ms).2.finalVerify P logID R = none)) := by
  intro _
  rw [TrustedServer.run_eq_localTransport] at hacc ⊢
  obtain ⟨h₁, h₂⟩ := Folder.run_toServer ms f hacc
  exact ⟨h₁, h₂, fun _ => by rw [Folder.verifyLog_eq_none_iff_finalVerify P C _ hR, h₂]⟩

/-- A commitment and a closure of one log, through an empty folder and a fresh T. -/
theorem folderTransport_follows_trusted_server_one_log :
    let commit : InitCommitment Block32 := ⟨"x", ⟨0⟩, Block32.zero, Block32.zero, 1⟩
    let cl : CloseMessage Block32 := ⟨"x", ⟨0⟩, 0, Block32.zero, Block32.zero⟩
    let ms : List (TrustedServer.Msg Block32) := [.register commit, .close cl]
    (∀ e ∈ ((Folder.empty : Folder Block32).toServer.run ms).1, e = none) ∧
      SpecStore.store.iter (SpecStore.empty : SpecStore Block32) 1 = .ok [] ∧
      (∀ m ∈ ms, isPlainLogID m.logID = true) ∧ isPlainLogID "x" = true ∧
      ((folderTransport.run Folder.empty ms).1 = (Folder.empty.toServer.run ms).1 ∧
        (folderTransport.run Folder.empty ms).2.toServer = (Folder.empty.toServer.run ms).2 ∧
        (FolderTransport.verifyLog Block32.firstPrimitives Block32.codec
            (folderTransport.run Folder.empty ms).2 SpecStore.store SpecStore.empty "x" = none ↔
          (Folder.empty.toServer.run ms).2.finalVerify Block32.firstPrimitives "x" [] = none)) := by
  intro commit cl ms
  obtain ⟨h₁, h₂, h₃⟩ := folderTransport_follows_trusted_server Block32.firstPrimitives Block32.codec
    Folder.empty ms (by decide) SpecStore.store SpecStore.empty [] rfl "x" (by decide)
  exact ⟨by decide, rfl, by decide, by decide, h₁, h₂, h₃ (by decide)⟩

/-- A T that accepts a log, with the closure taken away, refuses it as not closed. -/
theorem TrustedServer.finalVerify_of_closures_none {ts ts' : TrustedServer B} {logID : String}
    {R : List (Record B)} (h : ts.finalVerify P logID R = none)
    (hc : ts'.commitments = ts.commitments) (ho : ts'.opens = ts.opens)
    (hz : ts'.closures logID = none) :
    ts'.finalVerify P logID R = some .logNotClosed := by
  obtain ⟨c, o, z, r, rest, hc', ho', -, rfl, hi, hm, hv, ht, -, -⟩ :=
    TrustedServer.finalVerify_eq_none_iff.1 h
  simp [TrustedServer.finalVerify, hc, ho, hc', ho', hz, hi, hm, hv, ht]

/-- **The folder accepts a closure sent before its commitment.** Take a
commitment, an open message and a closure of one log that T accepts on records
`R` when they come in that order, as it does for every honest protocol run. Send
them instead in the order closure, commitment, open message, to a fresh T and
through an empty `FolderTransport` directory. T refuses the closure with "unknown
log ID" and then refuses the log as not closed; for a plain log ID the folder
takes all three, and `VerifyLog` accepts the log on any store that yields `R`. -/
theorem folder_accepts_early_closure (commit : InitCommitment B) (op : OpenMessage B)
    (cl : CloseMessage B) (R : List (Record B)) (hz : cl.logID = commit.logID)
    (hacc : (((TrustedServer.new.registerLog commit).registerOpen op).acceptClosure cl).2.finalVerify
      P commit.logID R = none)
    (st : Store σ B) (s : σ) (hR : st.iter s 1 = .ok R) :
    let ms : List (TrustedServer.Msg B) := [.close cl, .register commit, .openLog op]
    (TrustedServer.new.run ms).1 = [some (.new "unknown log ID"), none, none] ∧
      (TrustedServer.new.run ms).2.finalVerify P commit.logID R = some .logNotClosed ∧
      (isPlainLogID commit.logID = true →
        (folderTransport.run Folder.empty ms).1 = [none, none, none] ∧
        FolderTransport.verifyLog P C (folderTransport.run Folder.empty ms).2 st s commit.logID =
          none) := by
  intro ms
  have hfolder : (folderTransport.run Folder.empty ms).2.toServer =
      (((TrustedServer.new.registerLog commit).registerOpen op).acceptClosure cl).2 := by
    simp only [ms, Transport.run, Transport.deliver, folderTransport, Folder.toServer, Folder.empty,
      TrustedServer.acceptClosure, TrustedServer.registerOpen, TrustedServer.registerLog,
      TrustedServer.new, hz, if_true]
  refine ⟨?_, ?_, fun _ => ⟨rfl, ?_⟩⟩
  · simp [ms, TrustedServer.run, TrustedServer.deliver, TrustedServer.acceptClosure, TrustedServer.new]
  · refine TrustedServer.finalVerify_of_closures_none P hacc ?_ ?_ ?_ <;>
      simp [ms, TrustedServer.run, TrustedServer.deliver, TrustedServer.acceptClosure,
        TrustedServer.registerOpen, TrustedServer.registerLog, TrustedServer.new, hz]
  · rw [Folder.verifyLog_eq_none_iff_finalVerify P C _ hR, hfolder]
    exact hacc

/-- A session of two records, `START` and `CLOSE`, over the primitives that return
their first argument, its closure sent first. -/
theorem folder_accepts_early_closure_two_records :
    let k : Block32 := ⟨1 :: List.replicate 31 0, rfl⟩
    let commit : InitCommitment Block32 := ⟨"x", ⟨0⟩, k, k, 1⟩
    let op : OpenMessage Block32 := ⟨"x", ⟨0⟩, 1, k, k⟩
    let cl : CloseMessage Block32 := ⟨"x", ⟨0⟩, 2, k, k⟩
    let R : List (Record Block32) := [⟨1, ⟨0⟩, bytesOf "START", k, k⟩, ⟨2, ⟨0⟩, bytesOf "CLOSE", k, k⟩]
    let ms : List (TrustedServer.Msg Block32) := [.close cl, .register commit, .openLog op]
    (cl.logID = commit.logID ∧
      (((TrustedServer.new.registerLog commit).registerOpen op).acceptClosure cl).2.finalVerify
        Block32.firstPrimitives commit.logID R = none ∧
      SpecStore.store.iter (⟨R, [], none⟩ : SpecStore Block32) 1 = .ok R ∧
      isPlainLogID commit.logID = true) ∧
    (TrustedServer.new.run ms).1 = [some (.new "unknown log ID"), none, none] ∧
      (TrustedServer.new.run ms).2.finalVerify Block32.firstPrimitives commit.logID R =
        some .logNotClosed ∧
      (folderTransport.run Folder.empty ms).1 = [none, none, none] ∧
      FolderTransport.verifyLog Block32.firstPrimitives Block32.codec
        (folderTransport.run Folder.empty ms).2 SpecStore.store ⟨R, [], none⟩ commit.logID = none := by
  intro k commit op cl R ms
  obtain ⟨hT, hV, hF⟩ := folder_accepts_early_closure Block32.firstPrimitives Block32.codec
    commit op cl R rfl (by decide) SpecStore.store ⟨R, [], none⟩ rfl
  exact ⟨⟨rfl, by decide, rfl, by decide⟩, hT, hV, hF (by decide)⟩

end SecureLog
