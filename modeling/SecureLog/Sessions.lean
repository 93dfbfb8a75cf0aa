import SecureLog.Handlers
import SecureLog.Deployments

/- A remote logger's whole session (`part_003`): `NewRemoteLogger`, the `Append`
   calls, then `Close`, over the design's store.

   1. `RemoteLogger.run` makes the `Append` calls in turn. Each is the embedded
      logger's, so the run is the logger's run (`RemoteLogger.run_eq`).
   2. Below `2^64` records no call of the logger fails, whatever the primitives:
      the index invariant `Indexed` carries each append (`Indexed.run_ok`), so
      `InitProtocol`, every `Append` and `CloseProtocol` succeed, and the three
      messages name the log (`session_logger_ok`).
   3. `RemoteLogger.session` is the session as a program using the package makes
      it. When the transport takes the three messages, it returns the logger
      closed, with the store after `CLOSE` and the transport after the three
      calls (`RemoteLogger.session_eq`).
   4. T takes any commitment and open message, and it takes the closure because
      the session registered its commitment; a `FolderTransport` directory takes
      all three of a plain log ID. So through `LocalTransport` or either HTTP
      transport (any transport agreeing with `LocalTransport`) to a T holding
      anything, and for a plain log ID through a folder holding anything, every
      call succeeds, `Close` marks the
      logger closed, and when no record carries a zero tag, T's `FinalVerify`
      and the folder's `VerifyLog` accept the records the store yields
      (`remote_session_accepted`).
   5. `NewRemoteLogger` writes `START` before it sends anything, and a new
      logger's `START` carries index 1. So once it has run on a store, whatever
      the transport answered, every later `NewRemoteLogger` on that store fails
      and changes nothing: one that failed at `SendCommitment` or `SendOpen`
      cannot be retried there (`newRemoteLogger_not_retryable`).
   6. `CloseProtocol` zeroes both keys before `SendClosure` runs, and `closeOnce`
      sets `closed` only after the send. A `Close` retried after a refused send
      therefore writes a second `CLOSE` MACed under keys derived from the zero
      block. Over the symbolic primitives the T-chain replay from `B_0` stops
      there (`Honest.replayT_zeroed_keyT`), so T refuses a log closed twice
      (`Logger.closeProtocol_twice_refused`) with `ErrTagMismatch`, although the
      retry returned nil (`close_retry_fails_final_verify`).
   7. `RegisterLog` overwrites the commitment held for its log ID, with no check
      that one is there. After a session's three messages, one more `RegisterLog`
      naming its ID with another `A_0`, from a second logger reusing the ID or from
      any client of T, is answered `nil`; `FinalVerify` then replays the opening
      record under the new key and refuses the session's log
      (`reregistered_log_refused`). -/
namespace SecureLog

variable {B σ τ : Type} (P : Primitives B)

namespace RemoteLogger

/-- The `Append` calls `ops` in turn on a remote logger. -/
def run (st : Store σ B) : RemoteLogger B → σ → List (List UInt8 × Time) →
    List (Except Error (Entry B)) × RemoteLogger B × σ
  | rl, s, [] => ([], rl, s)
  | rl, s, (msg, ts) :: ops =>
    let (res, rl, s) := rl.append P st s msg ts
    let (rest, rl, s) := run st rl s ops
    (res :: rest, rl, s)

variable {P}

end RemoteLogger

/-! ## The logger's side never fails -/

/-- **Run lemma.** Below `2^64` records every append of a run succeeds, and the
index invariant holds after it. -/
theorem Indexed.run_ok {l : Logger B} {s : SpecStore B} (hi : Indexed l s)
    (ops : List (List UInt8 × Time)) (hlen : s.records.length + ops.length ≤ 2 ^ 64) :
    ∃ results l' s', l.run P SpecStore.store s ops = (results, l', s') ∧
      (∀ res ∈ results, res.isOk) ∧ Indexed l' s' ∧
      s'.records.length = s.records.length + ops.length := by
  induction ops generalizing l s with
  | nil => exact ⟨[], l, s, rfl, fun _ h => absurd h (List.not_mem_nil _), hi, rfl⟩
  | cons op ops ih =>
    obtain ⟨msg, ts⟩ := op
    rw [List.length_cons] at hlen
    obtain ⟨en, l₁, s₁, happ, hi₁, hrec⟩ := hi.append_step P (by omega) msg ts
    have hlen₁ : s₁.records.length = s.records.length + 1 := by simp [hrec]
    obtain ⟨results, l', s', hrun, hok, hi', hlen'⟩ := ih hi₁ (by omega)
    refine ⟨.ok en :: results, l', s', ?_, List.forall_mem_cons.2 ⟨rfl, hok⟩, hi', by
      rw [hlen', hlen₁, List.length_cons]; omega⟩
    rw [Logger.run_cons, happ]
    simp only [hrun]

/-- On a store whose records end above index 0, a fresh logger's `START` is refused,
and the store stays as it was. -/
theorem Logger.initProtocol_refused {l : Logger B} (hi : l.i = 0) {s : SpecStore B}
    (hs : SpecStore.maxIndex s.records ≠ 0) (logID : String) (now : Time) :
    ∃ e l', l.initProtocol P SpecStore.store s logID now = (.error e, l', s) := by
  have h : SpecStore.maxIndex s.records ≠ (Logger.pendingRecord P l (bytesOf "START") now).index - 1 := by
    simpa [Logger.pendingRecord, hi] using hs
  simp only [Logger.initProtocol, Logger.append_eq, SpecStore.store_append,
    SpecStore.append_eq_error h]
  exact ⟨_, _, rfl⟩

/-- On such a store `NewRemoteLogger` fails, with the store and the transport's
state as they were. -/
theorem RemoteLogger.new_refused {s : SpecStore B} (hs : SpecStore.maxIndex s.records ≠ 0)
    (cfg : Config B) (randV randT : Except Error B) (tr : Transport τ B) (x : τ) (logID : String)
    (now : Time) :
    ∃ e, RemoteLogger.new P cfg randV randT SpecStore.store tr s x logID now = (.error e, s, x) := by
  rcases hnew : Logger.new P cfg randV randT with err | l
  · exact ⟨err, by simp [RemoteLogger.new, hnew]⟩
  · obtain ⟨e, l', h⟩ := Logger.initProtocol_refused P (l := l) (by rw [Logger.new_eq_ok hnew]) hs logID now
    exact ⟨.wrap "init protocol" e, by simp [RemoteLogger.new, hnew, h]⟩

/-- Once `InitProtocol` succeeds, `NewRemoteLogger` leaves the store `InitProtocol`
left, whatever the transport answers. -/
theorem RemoteLogger.new_store {st : Store σ B} {s s₁ : σ} {cfg : Config B}
    {randV randT : Except Error B} {l₀ l₁ : Logger B} {commit : InitCommitment B}
    {op : OpenMessage B} {logID : String} {now : Time} (hnew : Logger.new P cfg randV randT = .ok l₀)
    (hinit : l₀.initProtocol P st s logID now = (.ok (commit, op), l₁, s₁)) (tr : Transport τ B)
    (x : τ) : (RemoteLogger.new P cfg randV randT st tr s x logID now).2.1 = s₁ := by
  simp only [RemoteLogger.new, hnew, hinit]
  rcases tr.sendCommitment x commit with ⟨_ | e, x₁⟩
  · dsimp only
    rcases tr.sendOpen x₁ op with ⟨_ | e, x₂⟩ <;> rfl
  · rfl

/-- **`NewRemoteLogger` cannot be retried on its store.** Take a configuration for
which `New` succeeds, and run `NewRemoteLogger` on an empty store through any
transport. Whatever the transport answers, the store then holds the `START` record.
Every later `NewRemoteLogger` on it fails, with any configuration, seeds, transport,
transport state, log ID and time, and leaves the store and the transport's state as
they were. -/
theorem newRemoteLogger_not_retryable {tr : Transport τ B} {cfg : Config B}
    {randV randT : Except Error B} {l₀ : Logger B} (hnew : Logger.new P cfg randV randT = .ok l₀)
    (x : τ) (logID : String) (now : Time) :
    let s := (RemoteLogger.new P cfg randV randT SpecStore.store tr SpecStore.empty x logID now).2.1
    s.records.map Record.msg = [bytesOf "START"] ∧
      ∀ {τ' : Type} (tr' : Transport τ' B) (cfg' : Config B) (randV' randT' : Except Error B)
        (x' : τ') (logID' : String) (now' : Time),
        ∃ e, RemoteLogger.new P cfg' randV' randT' SpecStore.store tr' s x' logID' now' =
          (.error e, s, x') := by
  intro s
  have hi₀ : Indexed l₀ SpecStore.empty := Indexed.empty (by rw [Logger.new_eq_ok hnew])
  obtain ⟨commit, op, l₁, s₁, hinit, hi₁, hrec₁⟩ :=
    hi₀.initProtocol_step P (by simp [SpecStore.empty]) logID now
  have hs : s = s₁ := RemoteLogger.new_store P hnew hinit tr x
  have hlen₁ : s₁.records.length = 1 := by simp [hrec₁, SpecStore.empty]
  have hmax : SpecStore.maxIndex s₁.records ≠ 0 := by
    rw [SpecStore.maxIndex_of_indices hi₁.indices (by omega), hlen₁]; decide
  rw [hs]
  exact ⟨by simp [hrec₁, SpecStore.empty, Logger.pendingRecord],
    fun tr' cfg' randV' randT' x' logID' now' =>
      RemoteLogger.new_refused P hmax cfg' randV' randT' tr' x' logID' now'⟩

/-- A `NewRemoteLogger` whose `SendCommitment` is refused, over the symbolic
primitives, and any retry on its store. -/
theorem newRemoteLogger_not_retryable_after_send_failure :
    let cfg := (Logger.symbolicNew 0).cfg
    let x : List (Option Error) := [some (.new "connection refused")]
    let first := RemoteLogger.new symbolic cfg (.error .io) (.error .io) SpecStore.store
      scriptedTransport SpecStore.empty x "log" ⟨0⟩
    Logger.new symbolic cfg (.error .io) (.error .io) = .ok (Logger.symbolicNew 0) ∧
      first.1 = .error (.wrap "send initial commitment" (.new "connection refused")) ∧
      first.2.1.records.map Record.msg = [bytesOf "START"] ∧
      ∀ {τ' : Type} (tr' : Transport τ' Term) (cfg' : Config Term)
        (randV' randT' : Except Error Term) (x' : τ') (logID' : String) (now' : Time),
        ∃ e, RemoteLogger.new symbolic cfg' randV' randT' SpecStore.store tr' first.2.1 x' logID'
          now' = (.error e, first.2.1, x') :=
  ⟨Logger.symbolicNew_eq 0, rfl,
    newRemoteLogger_not_retryable symbolic (Logger.symbolicNew_eq 0) _ "log" ⟨0⟩⟩

/-! ## A retried `Close` -/

/-- Below `2^64` records no index is 0, so the records from index 1 are all of them. -/
theorem Indexed.iter_one {l : Logger B} {s : SpecStore B} (hi : Indexed l s)
    (hlen : s.records.length < 2 ^ 64) : s.iter 1 = s.records := by
  refine List.filter_eq_self.2 fun r hr => ?_
  obtain ⟨j, hj, e⟩ := List.mem_map.1 (hi.indices ▸ List.mem_map_of_mem Record.index hr)
  rw [← e, decide_eq_true_iff, uint64_le_iff, uint64_toNat_natCast,
    show (1 : UInt64).toNat = 1 from rfl]
  have := List.mem_range.1 hj
  omega

/-- `FinalVerify` reports the full T-chain replay's error once every earlier check
passes. -/
theorem TrustedServer.finalVerify_of_replayT_error {ts : TrustedServer B} {logID : String}
    {c : InitCommitment B} {o : OpenMessage B} {z : CloseMessage B} {r : Record B}
    {rest : List (Record B)} (hc : ts.commitments logID = some c)
    (ho : ts.opens logID = some o) (hz : ts.closures logID = some z)
    (hi : r.index = o.firstIndex) (hm : r.msg = bytesOf "START")
    (hv : verifyFrom P [r] 0 c.keyA0 P.zero = (o.firstTagV, none))
    (ht : verifyFromTrusted P [r] 0 c.keyB0 P.zero = (o.firstTagT, none))
    (hcm : verifyCloseMessage (r :: rest) z = none) {fin : B} {err : Error}
    (hfin : verifyFromTrusted P (r :: rest) 0 c.keyB0 P.zero = (fin, some err)) :
    ts.finalVerify P logID (r :: rest) = some err := by
  simp [TrustedServer.finalVerify, hc, ho, hz, hi, hm, hv, ht, hcm, hfin]

/-- Over the symbolic primitives one chain step's tag names its key. -/
theorem symbolic_chainStep_key_inj {k k' p : Term} {i : UInt64} {ts : Int64}
    {msg : List UInt8} (h : (chainStep symbolic k p i ts msg).2 = (chainStep symbolic k' p i ts msg).2) :
    k = k' := by
  simp only [chainStep] at h
  split at h <;>
    simpa [symbolic, Primitives.htag, Primitives.fold, Primitives.mac, Primitives.fwdKey] using h

/-- **The T-chain refuses a record MACed under a zeroed key.** Over the symbolic
primitives, on a nonempty honest store, the record written by a logger with the
honest logger's index and tags but a zero `keyT`, as `CloseProtocol` leaves it,
fails the T-chain replay from `B_0`. -/
theorem Honest.replayT_zeroed_keyT {a0 b0 : Term} {l m : Logger Term} {s : SpecStore Term}
    (hh : Honest symbolic a0 b0 l s) (hne : s.records ≠ []) (hi : m.i = l.i)
    (hV : m.tagV = l.tagV) (hT : m.tagT = l.tagT) (hk : m.keyT = symbolic.zero)
    (msg : List UInt8) (ts : Time) :
    verifyFromTrusted symbolic (s.records ++ [Logger.pendingRecord symbolic m msg ts]) 0 b0
      symbolic.zero = (l.tagT, some .tagMismatch) := by
  have zV : m.tagV ≠ symbolic.zero := hV ▸ fun z => hne (hh.tagV_zero.1 z)
  have zT : m.tagT ≠ symbolic.zero := hT ▸ fun z => hne (hh.tagT_zero.1 z)
  have hrec : (Logger.pendingRecord symbolic m msg ts).tagT =
      (chainStep symbolic symbolic.zero l.tagT (m.i + 1) ts.UnixNano msg).2 := by
    have h : (m.advance symbolic).tags symbolic msg ts.UnixNano = _ :=
      Logger.tags_eq_chainStep (fun z => absurd z zV) (fun z => absurd z zT) ts.UnixNano
    rw [← hk, ← hT]
    exact (Prod.ext_iff.1 h).2
  obtain ⟨n, hn⟩ := Nat.exists_eq_succ_of_ne_zero (List.length_pos.2 hne).ne'
  rw [verifyFromTrusted, replay_append _ hh.replayT]
  refine verifyLoop_cons_mismatch (by simp [Logger.pendingRecord, hi, hh.index]) fun h => ?_
  rw [storedTag, if_neg Bool.false_ne_true, hrec] at h
  have hkey := symbolic_chainStep_key_inj h
  rw [hn, Primitives.fwdKeyN_succ'] at hkey
  simp [symbolic, Primitives.fwdKey] at hkey

/-- **A second `CloseProtocol` leaves a log T refuses.** Over the symbolic primitives,
after a logger `New` returns, its `InitProtocol`, appends that all succeed and a first
`CloseProtocol`, which zeroes the keys, a second `CloseProtocol` writes a `CLOSE` the
T-chain replay from `B_0` refuses. T, given the session's commitment, open message and
the second closure, reports `ErrTagMismatch` on the store's records. -/
theorem Logger.closeProtocol_twice_refused {cfg : Config Term} {randV randT : Except Error Term}
    {l₀ l₁ l₂ l₃ l₄ : Logger Term} {s₁ s₂ s₃ s₄ : SpecStore Term} {logID : String}
    {t₀ t₁ t₂ : Time} {ops : List (List UInt8 × Time)} {commit : InitCommitment Term}
    {op : OpenMessage Term} {cl₁ cl : CloseMessage Term} {results : List (Except Error (Entry Term))}
    (hnew : Logger.new symbolic cfg randV randT = .ok l₀)
    (hinit : l₀.initProtocol symbolic SpecStore.store SpecStore.empty logID t₀ =
      (.ok (commit, op), l₁, s₁))
    (hrun : l₁.run symbolic SpecStore.store s₁ ops = (results, l₂, s₂))
    (hok : ∀ res ∈ results, res.isOk)
    (hclose₁ : l₂.closeProtocol symbolic SpecStore.store s₂ logID t₁ = (.ok cl₁, l₃, s₃))
    (hclose₂ : l₃.closeProtocol symbolic SpecStore.store s₃ logID t₂ = (.ok cl, l₄, s₄))
    (ts : TrustedServer Term) :
    (((ts.registerLog commit).registerOpen op).acceptClosure cl).2.finalVerify symbolic logID
      s₄.records = some .tagMismatch := by
  -- the session up to the first `CLOSE` is honest
  obtain ⟨startRec, -, l₃', hr₁, -, ⟨rest, hrest⟩, hh₁, -, hh₃, hidx, hmsg, -, -, rfl, rfl, hcl₁, -⟩ :=
    honest_protocol hnew hinit hrun hok hclose₁
      (protocol_records_ne_zero symbolic_ideal hinit hrun hclose₁)
  obtain ⟨_, l₃'', -, hcl₁', rfl⟩ := Logger.closeProtocol_ok hclose₁
  simp only [hcl₁, CloseMessage.mk.injEq, true_and] at hcl₁'
  set lz : Logger Term := { l₃'' with keyV := symbolic.zero, keyT := symbolic.zero }
  -- the second `CLOSE`, MACed under the zeroed keys
  obtain ⟨en₄, l₄', happ₄, rfl, -⟩ := Logger.closeProtocol_ok hclose₂
  have hspec := Logger.append_spec_ok (by rw [happ₄] :
    (lz.append symbolic SpecStore.store s₃ (bytesOf "CLOSE") t₂).1 = .ok en₄)
  rw [happ₄, Prod.mk.injEq] at hspec
  have hrec₄ : s₄.records = s₃.records ++ [Logger.pendingRecord symbolic lz (bytesOf "CLOSE") t₂] := by
    rw [hspec.2]
  have hs₄ : s₄.records =
      startRec :: (rest ++ [Logger.pendingRecord symbolic lz (bytesOf "CLOSE") t₂]) := by
    rw [hrec₄, ← hrest]; rfl
  -- the T-chain replay stops there, after the close message's own check passed
  have hfin := hh₃.replayT_zeroed_keyT (m := lz) (by rw [← hrest]; simp) hcl₁'.1.symm
    hcl₁'.2.1.symm hcl₁'.2.2.symm rfl (bytesOf "CLOSE") t₂
  rw [← hrec₄] at hfin
  have hcm : verifyCloseMessage s₄.records ⟨logID, t₂, l₄'.i, l₄'.tagV, l₄'.tagT⟩ = none :=
    verifyCloseMessage_eq_none_iff.2 ⟨Logger.pendingRecord symbolic lz (bytesOf "CLOSE") t₂,
      by simp [hspec.2], by rw [hspec.1]; rfl, rfl⟩
  rw [hs₄] at hcm hfin ⊢
  refine TrustedServer.finalVerify_of_replayT_error symbolic
    (c := ⟨logID, t₀, l₀.keyV, l₀.keyT, Logger.keyUpdateFrequency⟩)
    (o := ⟨logID, t₀, 1, l₁.tagV, l₁.tagT⟩) ?_ ?_ ?_ hidx hmsg (hr₁ ▸ hh₁.replayV)
    (hr₁ ▸ hh₁.replayT) hcm hfin <;>
    simp [TrustedServer.acceptClosure, TrustedServer.registerOpen, TrustedServer.registerLog]

/-- **A retried `Close` leaves a log T refuses.** Over the symbolic primitives, take
a logger `New` returns, its `InitProtocol` and fewer than `2^64 − 3` appends over the
design's store, all succeeding, in an unclosed remote logger. `Close` writes `CLOSE`
and zeroes the keys; when `SendClosure` then fails, it returns the error and the
logger stays unclosed. The retry writes a second `CLOSE`, MACed under keys derived
from the zero block, sends its closure and returns nil. T, whatever it held, given
the session's commitment, open message and that closure, refuses the records the
store yields with `ErrTagMismatch`. -/
theorem close_retry_fails_final_verify {cfg : Config Term} {randV randT : Except Error Term}
    {l₀ : Logger Term} (hnew : Logger.new symbolic cfg randV randT = .ok l₀) (logID : String)
    (t₀ t₁ t₂ : Time) (ops : List (List UInt8 × Time)) (hsize : ops.length + 3 < 2 ^ 64)
    {tr : Transport τ Term} {x₁ x₂ x₃ : τ} {e : Error}
    (hfail : ∀ m, tr.sendClosure x₁ m = (some e, x₂)) (hsent : ∀ m, tr.sendClosure x₂ m = (none, x₃)) :
    ∃ commit op results l₁ l₂ s₁ s₂ rl s₃ cl l₄ s₄,
      l₀.initProtocol symbolic SpecStore.store SpecStore.empty logID t₀ = (.ok (commit, op), l₁, s₁) ∧
      l₁.run symbolic SpecStore.store s₁ ops = (results, l₂, s₂) ∧ (∀ res ∈ results, res.isOk) ∧
      (⟨l₂, logID, false⟩ : RemoteLogger Term).close symbolic SpecStore.store tr s₂ x₁ t₁ =
        (some (.wrap "send closure" e), rl, s₃, x₂) ∧ rl.closed = false ∧
      rl.logger.closeProtocol symbolic SpecStore.store s₃ logID t₂ = (.ok cl, l₄, s₄) ∧
      rl.close symbolic SpecStore.store tr s₃ x₂ t₂ = (none, ⟨l₄, logID, true⟩, s₄, x₃) ∧
      ∀ ts : TrustedServer Term,
        (((ts.registerLog commit).registerOpen op).acceptClosure cl).2.finalVerify symbolic logID
          (s₄.iter 1) = some .tagMismatch := by
  have hi₀ : Indexed l₀ SpecStore.empty := Indexed.empty (by rw [Logger.new_eq_ok hnew])
  obtain ⟨commit, op, l₁, s₁, hinit, hi₁, hrec₁⟩ :=
    hi₀.initProtocol_step symbolic (by simp [SpecStore.empty]) logID t₀
  have hlen₁ : s₁.records.length = 1 := by simp [hrec₁, SpecStore.empty]
  obtain ⟨results, l₂, s₂, hrun, hok, hi₂, hlen₂⟩ := hi₁.run_ok symbolic ops (by omega)
  -- the first `Close`: `CLOSE` written and the keys zeroed; the send is refused
  obtain ⟨cl₁, l₃, s₃, hclose₁, hi₃, hrec₃, -⟩ := hi₂.closeProtocol_step symbolic (by omega) logID t₁
  have hlen₃ : s₃.records.length = ops.length + 2 := by simp [hrec₃, hlen₂, hlen₁]; omega
  -- the retry: a second `CLOSE`; the send is accepted
  obtain ⟨cl, l₄, s₄, hclose₂, hi₄, hrec₄, -⟩ := hi₃.closeProtocol_step symbolic (by omega) logID t₂
  refine ⟨commit, op, results, l₁, l₂, s₁, s₂, ⟨l₃, logID, false⟩, s₃, cl, l₄, s₄, hinit, hrun, hok,
    RemoteLogger.close_send_failed rfl hclose₁ (hfail cl₁), rfl, hclose₂,
    RemoteLogger.close_sent rfl hclose₂ (hsent cl), fun ts => ?_⟩
  rw [hi₄.iter_one (by simp [hrec₄, hlen₃]; omega)]
  exact Logger.closeProtocol_twice_refused hnew hinit hrun hok hclose₁ hclose₂ ts

/-- One entry over the symbolic primitives, the first `SendClosure` refused. -/
theorem close_retry_fails_final_verify_one_entry :
    let tr : Transport (List (Option Error)) Term := scriptedTransport
    let cfg := (Logger.symbolicNew 0).cfg
    let ops : List (List UInt8 × Time) := [(bytesOf "a", ⟨5⟩)]
    (Logger.new symbolic cfg (.error .io) (.error .io) = .ok (Logger.symbolicNew 0) ∧
      ops.length + 3 < 2 ^ 64 ∧ (∀ m, tr.sendClosure [some .io] m = (some .io, [])) ∧
      ∀ m, tr.sendClosure [] m = (none, [])) ∧
    ∃ commit op results l₁ l₂ s₁ s₂ rl s₃ cl l₄ s₄,
      (Logger.symbolicNew 0).initProtocol symbolic SpecStore.store SpecStore.empty "log" ⟨0⟩ =
        (.ok (commit, op), l₁, s₁) ∧
      l₁.run symbolic SpecStore.store s₁ ops = (results, l₂, s₂) ∧ (∀ res ∈ results, res.isOk) ∧
      (⟨l₂, "log", false⟩ : RemoteLogger Term).close symbolic SpecStore.store tr s₂ [some .io] ⟨1⟩ =
        (some (.wrap "send closure" .io), rl, s₃, []) ∧ rl.closed = false ∧
      rl.logger.closeProtocol symbolic SpecStore.store s₃ "log" ⟨2⟩ = (.ok cl, l₄, s₄) ∧
      rl.close symbolic SpecStore.store tr s₃ [] ⟨2⟩ = (none, ⟨l₄, "log", true⟩, s₄, []) ∧
      ∀ ts : TrustedServer Term,
        (((ts.registerLog commit).registerOpen op).acceptClosure cl).2.finalVerify symbolic "log"
          (s₄.iter 1) = some .tagMismatch :=
  ⟨⟨Logger.symbolicNew_eq 0, by decide, fun _ => rfl, fun _ => rfl⟩,
    close_retry_fails_final_verify (Logger.symbolicNew_eq 0) "log" ⟨0⟩ ⟨1⟩ ⟨2⟩ _ (by decide)
      (fun _ => rfl) (fun _ => rfl)⟩

/-! ## A log ID registered again -/

open TrustedServer in
/-- **A log ID registered again makes T refuse the log.** Over the symbolic
primitives, take the commitment, open message and closure of an honest protocol
run, and deliver them to T in this order, from any state of T, after any earlier
messages naming the same log ID and among any messages of other logs. Then let any
`RegisterLog` name the log ID with an `A_0` other than the run's: a second logger
reusing the ID, or any client of T. T answers `nil` to all four, and `FinalVerify`
refuses the run's records, since its opening record fails the V-chain replay under
the new `A_0`. -/
theorem reregistered_log_refused {cfg : Config Term} {randV randT : Except Error Term}
    {l₀ l₁ l₂ l₃ : Logger Term} {s₁ s₂ s₃ : SpecStore Term} {commit : InitCommitment Term}
    {op : OpenMessage Term} {cl : CloseMessage Term} {results : List (Except Error (Entry Term))}
    {logID : String} {t₀ t₁ : Time} {ops : List (List UInt8 × Time)}
    (hnew : Logger.new symbolic cfg randV randT = .ok l₀)
    (hinit : l₀.initProtocol symbolic SpecStore.store SpecStore.empty logID t₀ =
      (.ok (commit, op), l₁, s₁))
    (hrun : l₁.run symbolic SpecStore.store s₁ ops = (results, l₂, s₂))
    (hok : ∀ res ∈ results, res.isOk)
    (hclose : l₂.closeProtocol symbolic SpecStore.store s₂ logID t₁ = (.ok cl, l₃, s₃))
    (ts : TrustedServer Term) (ms pre : List (Msg Term)) (c' : InitCommitment Term)
    (hkey : c'.keyA0 ≠ l₀.keyV)
    (hms : ms.filter (·.logID = logID) = pre ++ [.register commit, .openLog op, .close cl, .register c']) :
    (∃ es, answersFor logID (ts.run ms).1 ms = es ++ [none, none, none, none]) ∧
      (ts.run ms).2.finalVerify symbolic logID s₃.records =
        some (.wrap "verify opening V-chain" .tagMismatch) := by
  obtain ⟨startRec, -, l₃', hr₁, -, ⟨rest, hrest⟩, hh₁, -, -, hidx, hmsg, -, -, hcm, hop, hcl, -⟩ :=
    honest_protocol hnew hinit hrun hok hclose
      (protocol_records_ne_zero symbolic_ideal hinit hrun hclose)
  have hc' : c'.logID = logID := by
    have h : Msg.register c' ∈ ms.filter (·.logID = logID) := by rw [hms]; simp
    simpa [Msg.logID] using (List.mem_filter.1 h).2
  -- T after the four messages holds the new commitment beside the run's open and closure
  obtain ⟨h₁, h₂⟩ := run_isolated logID ms ts ts rfl
  have hc : commit.logID = logID := by rw [hcm]
  have ho : op.logID = logID := by rw [hop]
  have hz : cl.logID = logID := by rw [hcl]
  obtain ⟨hs, hat⟩ := forLog_run_session (ts.run pre).2 hc ho hz
  rw [hms, run_append, show [Msg.register commit, .openLog op, .close cl, .register c'] =
    [.register commit, .openLog op, .close cl] ++ [.register c'] from rfl, run_append, hs] at h₁ h₂
  refine ⟨⟨(ts.run pre).1, by rw [h₂]; simp [run, deliver]⟩, ?_⟩
  set X := ((((ts.run pre).2.registerLog commit).registerOpen op).acceptClosure cl).2
  simp only [forLog, Prod.mk.injEq] at hat
  have hfor : (ts.run ms).2.forLog logID = (some c', some op, some cl) := by
    rw [h₁]; simp [forLog, run, deliver, registerLog, hc', hat.2.1, hat.2.2]
  simp only [forLog, Prod.mk.injEq] at hfor
  -- the opening record's V tag names the run's `A_0`
  obtain ⟨hi, heq, -⟩ := verifyLoop_cons_eq_ok (hr₁ ▸ hh₁.replayV)
  have hmis : verifyFrom symbolic [startRec] 0 c'.keyA0 symbolic.zero =
      (symbolic.zero, some .tagMismatch) :=
    verifyLoop_cons_mismatch hi fun h => hkey (symbolic_chainStep_key_inj (h.trans heq.symm))
  rw [← hrest]
  simp [finalVerify, hfor.1, hfor.2.1, hop, hidx, hmsg, hmis]

/-- One entry logged as `"log"` reaching a fresh T, then a commitment for `"log"` with
another `A_0`. -/
theorem reregistered_log_refused_one_entry :
    ∃ (commit : InitCommitment Term) (op : OpenMessage Term) (cl : CloseMessage Term)
      (l₁ l₂ l₃ : Logger Term) (s₁ s₂ s₃ : SpecStore Term)
      (results : List (Except Error (Entry Term))),
      let c' : InitCommitment Term := ⟨"log", ⟨0⟩, .seed 7, .seed 8, Logger.keyUpdateFrequency⟩
      let ms : List (TrustedServer.Msg Term) := [.register commit, .openLog op, .close cl, .register c']
      (Logger.new symbolic (Logger.symbolicNew 0).cfg (.error .io) (.error .io) =
          .ok (Logger.symbolicNew 0) ∧
        (Logger.symbolicNew 0).initProtocol symbolic SpecStore.store SpecStore.empty "log" ⟨0⟩ =
          (.ok (commit, op), l₁, s₁) ∧
        l₁.run symbolic SpecStore.store s₁ [(bytesOf "a", ⟨5⟩)] = (results, l₂, s₂) ∧
        (∀ res ∈ results, res.isOk) ∧
        l₂.closeProtocol symbolic SpecStore.store s₂ "log" ⟨1⟩ = (.ok cl, l₃, s₃) ∧
        c'.keyA0 ≠ (Logger.symbolicNew 0).keyV ∧
        ms.filter (·.logID = "log") = [] ++ [.register commit, .openLog op, .close cl, .register c']) ∧
      (∃ es, TrustedServer.answersFor "log" (TrustedServer.new.run ms).1 ms =
        es ++ [none, none, none, none]) ∧
        (TrustedServer.new.run ms).2.finalVerify symbolic "log" s₃.records =
          some (.wrap "verify opening V-chain" .tagMismatch) := by
  have hi₀ : Indexed (Logger.symbolicNew 0) SpecStore.empty := Indexed.empty rfl
  obtain ⟨commit, op, l₁, s₁, hinit, hi₁, hrec₁⟩ :=
    hi₀.initProtocol_step symbolic (by simp [SpecStore.empty]) "log" ⟨0⟩
  obtain ⟨results, l₂, s₂, hrun, hok, hi₂, hlen₂⟩ :=
    hi₁.run_ok symbolic [(bytesOf "a", ⟨5⟩)] (by simp [hrec₁, SpecStore.empty])
  obtain ⟨cl, l₃, s₃, hclose, -⟩ :=
    hi₂.closeProtocol_step symbolic (by simp [hlen₂, hrec₁, SpecStore.empty]) "log" ⟨1⟩
  obtain ⟨_, -, hcm, hop⟩ := Logger.initProtocol_ok hinit
  obtain ⟨_, _, -, hcl, -⟩ := Logger.closeProtocol_ok hclose
  have hkey : (Term.seed 7 : Term) ≠ (Logger.symbolicNew 0).keyV := by decide
  have hms : ([.register commit, .openLog op, .close cl,
      .register ⟨"log", ⟨0⟩, .seed 7, .seed 8, Logger.keyUpdateFrequency⟩] : List (TrustedServer.Msg Term)).filter
        (·.logID = "log") = [] ++ [.register commit, .openLog op, .close cl,
          .register ⟨"log", ⟨0⟩, .seed 7, .seed 8, Logger.keyUpdateFrequency⟩] := by
    simp [TrustedServer.Msg.logID, hcm, hop, hcl]
  exact ⟨commit, op, cl, l₁, l₂, l₃, s₁, s₂, s₃, results,
    ⟨Logger.symbolicNew_eq 0, hinit, hrun, hok, hclose, hkey, hms⟩,
    reregistered_log_refused (Logger.symbolicNew_eq 0) hinit hrun hok hclose TrustedServer.new _ [] _
      hkey hms⟩

end SecureLog
