import SecureLog.Completeness

/- T serving many logs (`part_003`, `TrustedServer`).

   T is shared: its three maps hold the commitments, open messages and closures of
   every logger that reports to it, and the loggers' messages reach it in any order.
   Every method of T reads and writes its maps at one log ID: `RegisterLog`,
   `RegisterOpen` and `AcceptClosure` at the message's `LogID`, `FinalVerify` and
   `ReleaseA1` at their argument. So

   1. a message acts at its own log ID only (`deliver_forLog_of_ne`), and what it
      does there, and the answer it gets, depend only on what T holds there
      (`deliver_congr`);
   2. after any interleaving of messages, what T holds for a log and every answer
      it gave that log's messages are what the log's own messages give on their
      own (`run_isolated`), and so are `FinalVerify` and `ReleaseA1` on that log;
   3. the last commitment, open message and closure of a log decide it, whatever T
      held for the log ID before: an honest run's three messages, delivered after
      anything else for its log ID and between any messages of other logs, are
      answered with `nil` and make `FinalVerify` accept the run's records
      (`honest_run_accepted_among_other_logs`). -/
namespace SecureLog

namespace TrustedServer

variable {B : Type}

/-- A call a logger makes on T: `RegisterLog`, `RegisterOpen` or `AcceptClosure`,
with the message it sends. -/
inductive Msg (B : Type)
  | register (commit : InitCommitment B)
  | openLog (openMsg : OpenMessage B)
  | close (closeMsg : CloseMessage B)

/-- The log ID a message names. -/
def Msg.logID : Msg B → String
  | .register commit => commit.logID
  | .openLog openMsg => openMsg.logID
  | .close closeMsg => closeMsg.logID

/-- T's answer to one message, and T after it. -/
def deliver (ts : TrustedServer B) : Msg B → Option Error × TrustedServer B
  | .register commit => (none, ts.registerLog commit)
  | .openLog openMsg => (none, ts.registerOpen openMsg)
  | .close closeMsg => ts.acceptClosure closeMsg

/-- T's answers to the messages in turn, and T after the last. -/
def run (ts : TrustedServer B) : List (Msg B) → List (Option Error) × TrustedServer B
  | [] => ([], ts)
  | m :: ms =>
    let (e, ts') := ts.deliver m
    let (es, ts'') := ts'.run ms
    (e :: es, ts'')

/-- `ReleaseA1(logID)`: `A_1 = H(A_0)` of the log's commitment. -/
def releaseA1 (P : Primitives B) (ts : TrustedServer B) (logID : String) : Except Error B :=
  match ts.commitments logID with
  | none => .error (.new "log not registered with trusted server")
  | some commit => .ok (P.sum256 commit.keyA0)

/-- What T holds for one log. -/
def forLog (ts : TrustedServer B) (logID : String) :
    Option (InitCommitment B) × Option (OpenMessage B) × Option (CloseMessage B) :=
  (ts.commitments logID, ts.opens logID, ts.closures logID)

/-- The answers a run gave to the messages naming `logID`, in order. -/
def answersFor (logID : String) (es : List (Option Error)) (ms : List (Msg B)) :
    List (Option Error) :=
  ((es.zip ms).filter (fun p => p.2.logID = logID)).map Prod.fst

@[simp] theorem run_nil (ts : TrustedServer B) : ts.run [] = ([], ts) := rfl

@[simp] theorem run_cons (ts : TrustedServer B) (m : Msg B) (ms : List (Msg B)) :
    ts.run (m :: ms) = ((ts.deliver m).1 :: ((ts.deliver m).2.run ms).1,
      ((ts.deliver m).2.run ms).2) := rfl

theorem run_append (ts : TrustedServer B) (ms ms' : List (Msg B)) :
    ts.run (ms ++ ms') = ((ts.run ms).1 ++ ((ts.run ms).2.run ms').1, ((ts.run ms).2.run ms').2) := by
  induction ms generalizing ts with
  | nil => rfl
  | cons m ms ih => simp [ih]

/-! ## One message at a time -/

section Deliver

variable {ts ts' : TrustedServer B} {logID : String}

/-- A message naming another log leaves this one as it was. -/
theorem deliver_forLog_of_ne (m : Msg B) (h : m.logID ≠ logID) :
    (ts.deliver m).2.forLog logID = ts.forLog logID := by
  cases m <;> simp only [Msg.logID] at h
  case register commit => simp [deliver, forLog, registerLog, Ne.symm h]
  case openLog openMsg => simp [deliver, forLog, registerOpen, Ne.symm h]
  case close closeMsg =>
    simp only [deliver, acceptClosure]
    split <;> simp [forLog, Ne.symm h]

/-- What a message does at its own log, and its answer, depend only on what T held
there. -/
theorem deliver_congr (m : Msg B) (h : ts.forLog m.logID = ts'.forLog m.logID) :
    (ts.deliver m).1 = (ts'.deliver m).1 ∧
      (ts.deliver m).2.forLog m.logID = (ts'.deliver m).2.forLog m.logID := by
  simp only [forLog, Prod.mk.injEq] at h
  obtain ⟨h₁, h₂, h₃⟩ := h
  cases m with
  | register commit => simp_all [deliver, forLog, registerLog, Msg.logID]
  | openLog openMsg => simp_all [deliver, forLog, registerOpen, Msg.logID]
  | close closeMsg =>
    simp only [Msg.logID] at h₁ h₂ h₃
    simp only [deliver, acceptClosure, Msg.logID, h₁]
    split <;> simp [forLog, h₁, h₂, h₃]

/-- `FinalVerify` reads T at its log ID only. -/
theorem finalVerify_congr (P : Primitives B) (records : List (Record B))
    (h : ts.forLog logID = ts'.forLog logID) :
    ts.finalVerify P logID records = ts'.finalVerify P logID records := by
  simp only [forLog, Prod.mk.injEq] at h
  obtain ⟨h₁, h₂, h₃⟩ := h
  simp only [finalVerify, h₁, h₂, h₃]

/-- `ReleaseA1` reads T at its log ID only. -/
theorem releaseA1_congr (P : Primitives B) (h : ts.forLog logID = ts'.forLog logID) :
    ts.releaseA1 P logID = ts'.releaseA1 P logID := by
  simp only [forLog, Prod.mk.injEq] at h
  simp only [releaseA1, h.1]

end Deliver

/-! ## Runs -/

/-- **Logs do not interfere.** Over any interleaving, what T ends with for a log and
its answers to that log's messages are those of the log's own messages, delivered
from any state that holds the same for the log. -/
theorem run_isolated (logID : String) : ∀ (ms : List (Msg B)) (ts ts' : TrustedServer B),
    ts.forLog logID = ts'.forLog logID →
      (ts.run ms).2.forLog logID = (ts'.run (ms.filter (·.logID = logID))).2.forLog logID ∧
      answersFor logID (ts.run ms).1 ms = (ts'.run (ms.filter (·.logID = logID))).1
  | [], _, _, h => ⟨h, rfl⟩
  | m :: ms, ts, ts', h => by
    by_cases hm : m.logID = logID
    · have hd := deliver_congr m (show ts.forLog m.logID = ts'.forLog m.logID by rw [hm]; exact h)
      rw [hm] at hd
      obtain ⟨ih₁, ih₂⟩ := run_isolated logID ms _ _ hd.2
      rw [List.filter_cons_of_pos (by simpa using hm)]
      refine ⟨ih₁, ?_⟩
      rw [answersFor, run_cons, List.zip_cons_cons, List.filter_cons_of_pos (by simpa using hm),
        List.map_cons, run_cons, hd.1]
      exact congrArg _ ih₂
    · have hd : (ts.deliver m).2.forLog logID = ts.forLog logID := deliver_forLog_of_ne m hm
      obtain ⟨ih₁, ih₂⟩ := run_isolated logID ms _ _ (hd.trans h)
      rw [List.filter_cons_of_neg (by simpa using hm)]
      refine ⟨ih₁, ?_⟩
      rw [answersFor, run_cons, List.zip_cons_cons, List.filter_cons_of_neg (by simpa using hm)]
      exact ih₂

/-- **T keeps logs apart.** From any state of T and over any interleaving of the
messages of any loggers, the answers T gives one log's messages, its `FinalVerify`
verdict on any records for that log and its `ReleaseA1` for it are those T gives,
from the same state, to that log's messages alone in their order. -/
theorem trusted_server_keeps_logs_apart (P : Primitives B) (ts : TrustedServer B)
    (ms : List (Msg B)) (logID : String) (records : List (Record B)) :
    answersFor logID (ts.run ms).1 ms = (ts.run (ms.filter (·.logID = logID))).1 ∧
      (ts.run ms).2.finalVerify P logID records =
        (ts.run (ms.filter (·.logID = logID))).2.finalVerify P logID records ∧
      (ts.run ms).2.releaseA1 P logID = (ts.run (ms.filter (·.logID = logID))).2.releaseA1 P logID :=
  have h := run_isolated logID ms ts ts rfl
  ⟨h.2, finalVerify_congr P records h.1, releaseA1_congr P h.1⟩

/-- The last session of a log decides what T holds for it: a commitment, an open
message and a closure naming the log, in this order. -/
theorem forLog_run_session (ts : TrustedServer B) {logID : String} {commit : InitCommitment B}
    {openMsg : OpenMessage B} {closeMsg : CloseMessage B} (hc : commit.logID = logID)
    (ho : openMsg.logID = logID) (hz : closeMsg.logID = logID) :
    ts.run [.register commit, .openLog openMsg, .close closeMsg] =
      ([none, none, none], ((ts.registerLog commit).registerOpen openMsg).acceptClosure closeMsg |>.2) ∧
      (((ts.registerLog commit).registerOpen openMsg).acceptClosure closeMsg).2.forLog logID =
        (some commit, some openMsg, some closeMsg) := by
  subst hc
  refine ⟨?_, ?_⟩ <;>
    simp [deliver, acceptClosure, registerOpen, registerLog, forLog, ho, hz]

end TrustedServer

/-! ## Honest runs among other logs -/

open TrustedServer in
/-- **T accepts an honest run whatever other logs do.** Take the commitment, open
message and closure of an honest protocol run, and deliver them to T in this order,
from any state of T, after any earlier messages naming the same log ID and among any
messages of other logs. T answers each of the three with `nil`, and `FinalVerify`
accepts the records the run's store holds. -/
theorem honest_run_accepted_among_other_logs {B : Type} {P : Primitives B} {cfg : Config B}
    {randV randT : Except Error B} {l₀ l₁ l₂ l₃ : Logger B} {s₁ s₂ s₃ : SpecStore B}
    {commit : InitCommitment B} {op : OpenMessage B} {cl : CloseMessage B}
    {results : List (Except Error (Entry B))} {logID : String} {t₀ t₁ : Time}
    {ops : List (List UInt8 × Time)}
    (hnew : Logger.new P cfg randV randT = .ok l₀)
    (hinit : l₀.initProtocol P SpecStore.store SpecStore.empty logID t₀ = (.ok (commit, op), l₁, s₁))
    (hrun : l₁.run P SpecStore.store s₁ ops = (results, l₂, s₂)) (hok : ∀ res ∈ results, res.isOk)
    (hclose : l₂.closeProtocol P SpecStore.store s₂ logID t₁ = (.ok cl, l₃, s₃))
    (hnz : ∀ r ∈ s₃.records, r.tagV ≠ P.zero ∧ r.tagT ≠ P.zero)
    (ts : TrustedServer B) (ms pre : List (Msg B))
    (hms : ms.filter (·.logID = logID) = pre ++ [.register commit, .openLog op, .close cl]) :
    (∃ es, answersFor logID (ts.run ms).1 ms = es ++ [none, none, none]) ∧
      (ts.run ms).2.finalVerify P logID s₃.records = none := by
  obtain ⟨en₁, -, hc, ho⟩ := Logger.initProtocol_ok hinit
  obtain ⟨en₃, l₃', -, hz, -⟩ := Logger.closeProtocol_ok hclose
  have hc : commit.logID = logID := by rw [hc]
  have ho : op.logID = logID := by rw [ho]
  have hz : cl.logID = logID := by rw [hz]
  obtain ⟨h₁, h₂⟩ := run_isolated logID ms ts ts rfl
  obtain ⟨hs, hat⟩ := forLog_run_session (ts.run pre).2 hc ho hz
  obtain ⟨-, hnew'⟩ := forLog_run_session TrustedServer.new hc ho hz
  rw [hms, run_append, hs] at h₁ h₂
  refine ⟨⟨_, h₂⟩, ?_⟩
  rw [finalVerify_congr P _ (h₁.trans (hat.trans hnew'.symm))]
  exact final_verify_accepts_held_records hnew hinit hrun hok hclose hnz

/-- One entry logged as `"log"`: its three messages reach a fresh T after an older
commitment for `"log"` and among messages of the log `"other"`. -/
theorem honest_run_accepted_among_other_logs_one_entry :
    ∃ commit op cl results l₁ l₂ l₃ s₁ s₂ s₃,
      (Logger.symbolicNew 0).initProtocol symbolic SpecStore.store SpecStore.empty "log" ⟨0⟩ =
        (.ok (commit, op), l₁, s₁) ∧
      l₁.run symbolic SpecStore.store s₁ [(bytesOf "a", ⟨5⟩)] = (results, l₂, s₂) ∧
      (∀ res ∈ results, res.isOk) ∧
      l₂.closeProtocol symbolic SpecStore.store s₂ "log" ⟨9⟩ = (.ok cl, l₃, s₃) ∧
      (∀ r ∈ s₃.records, r.tagV ≠ symbolic.zero ∧ r.tagT ≠ symbolic.zero) ∧
      let ms : List (TrustedServer.Msg Term) :=
        [.register ⟨"log", ⟨0⟩, .zero, .zero, 1⟩, .register ⟨"other", ⟨0⟩, .zero, .zero, 1⟩,
          .register commit, .openLog op, .close ⟨"other", ⟨9⟩, 2, .zero, .zero⟩, .close cl]
      ms.filter (·.logID = "log") =
          [.register ⟨"log", ⟨0⟩, .zero, .zero, 1⟩] ++ [.register commit, .openLog op, .close cl] ∧
        (∃ es, TrustedServer.answersFor "log" (TrustedServer.new.run ms).1 ms = es ++ [none, none, none]) ∧
        (TrustedServer.new.run ms).2.finalVerify symbolic "log" s₃.records = none := by
  obtain ⟨commit, op, cl, results, l₁, l₂, l₃, s₁, s₂, s₃, hinit, hrun, hok, hclose, hnz⟩ :=
    protocol_run_succeeds symbolic_ideal (Logger.symbolicNew_eq 0) "log" ⟨0⟩ ⟨9⟩
      [(bytesOf "a", ⟨5⟩)] (by decide)
  have hms : [TrustedServer.Msg.register ⟨"log", ⟨0⟩, .zero, .zero, 1⟩,
      .register ⟨"other", ⟨0⟩, .zero, .zero, 1⟩, .register commit, .openLog op,
      .close ⟨"other", ⟨9⟩, 2, .zero, .zero⟩, .close cl].filter (·.logID = "log") =
      [.register ⟨"log", ⟨0⟩, .zero, .zero, 1⟩] ++ [.register commit, .openLog op, .close cl] := by
    obtain ⟨_, -, rfl, rfl⟩ := Logger.initProtocol_ok hinit
    obtain ⟨_, _, -, rfl, -⟩ := Logger.closeProtocol_ok hclose
    simp [TrustedServer.Msg.logID]
  exact ⟨commit, op, cl, results, l₁, l₂, l₃, s₁, s₂, s₃, hinit, hrun, hok, hclose, hnz, hms,
    honest_run_accepted_among_other_logs (Logger.symbolicNew_eq 0) hinit hrun hok hclose hnz
      TrustedServer.new _ _ hms⟩

end SecureLog
