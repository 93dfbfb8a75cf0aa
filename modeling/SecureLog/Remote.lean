import SecureLog.Completeness

/- `RemoteLogger` and the `Transport` it reports to (`part_003`).

   A `RemoteLogger` embeds the `Logger`, so its `Append` is the logger's own and
   checks nothing about `closed`. `closeOnce` reads `closed` under the mutex,
   releases it, runs `CloseProtocol` and `SendClosure` unlocked, and sets
   `closed` only once the closure was sent. `close` is one call on its own;
   `closeStep` is one atomic step of one of several concurrent callers, the
   steps of `closeOnce` with the mutex held only around the flag.

   `Indexed` carries the store across the protocol: `CloseProtocol` zeroes the
   keys but records no closed state, so an `Append` after it still succeeds and
   writes after `CLOSE` (`Indexed.append_after_closeProtocol`). A `Close` whose
   `SendClosure` failed has already written `CLOSE`, and leaves `closed` unset,
   so calling it again writes a second `CLOSE` (`close_after_send_failure`); two
   callers that both pass the check before either sets the flag do the same. -/
namespace SecureLog

variable {B σ τ : Type}

/-- `Transport`: how the logger's messages reach T, over the transport's state. -/
structure Transport (τ B : Type) where
  sendCommitment : τ → InitCommitment B → Option Error × τ
  sendOpen : τ → OpenMessage B → Option Error × τ
  sendClosure : τ → CloseMessage B → Option Error × τ

/-- `LocalTransport`: the messages go to an in-process `TrustedServer`. -/
def localTransport : Transport (TrustedServer B) B where
  sendCommitment ts commit := (none, ts.registerLog commit)
  sendOpen ts openMsg := (none, ts.registerOpen openMsg)
  sendClosure ts closeMsg := ts.acceptClosure closeMsg

/-- A transport whose calls fail or succeed as scripted, one outcome per call, and
succeed once the script is used up: a network transport such as
`HTTPTransport`, any of whose calls may fail. -/
def scriptedTransport : Transport (List (Option Error)) B where
  sendCommitment o _ := (o.headD none, o.tail)
  sendOpen o _ := (o.headD none, o.tail)
  sendClosure o _ := (o.headD none, o.tail)

/-- `RemoteLogger`: the logger it wraps, the log ID and the `closed` flag. -/
structure RemoteLogger (B : Type) where
  logger : Logger B
  logID : String
  closed : Bool

namespace RemoteLogger

variable (P : Primitives B)

/-- `NewRemoteLogger(cfg, store, transport, logID)`. -/
def new (cfg : Config B) (randV randT : Except Error B) (st : Store σ B) (tr : Transport τ B)
    (s : σ) (x : τ) (logID : String) (now : Time) : Except Error (RemoteLogger B) × σ × τ :=
  match Logger.new P cfg randV randT with
  | .error err => (.error err, s, x)
  | .ok logger =>
    match logger.initProtocol P st s logID now with
    | (.error err, _, s) => (.error (.wrap "init protocol" err), s, x)
    | (.ok (commit, openMsg), logger, s) =>
      match tr.sendCommitment x commit with
      | (some err, x) => (.error (.wrap "send initial commitment" err), s, x)
      | (none, x) =>
        match tr.sendOpen x openMsg with
        | (some err, x) => (.error (.wrap "send open message" err), s, x)
        | (none, x) => (.ok ⟨logger, logID, false⟩, s, x)

/-- `rl.Append(msg, ts)`: the embedded logger's `Append`. -/
def append (st : Store σ B) (rl : RemoteLogger B) (s : σ) (msg : List UInt8) (ts : Time) :
    Except Error (Entry B) × RemoteLogger B × σ :=
  match rl.logger.append P st s msg ts with
  | (res, l, s) => (res, { rl with logger := l }, s)

/-- `closeOnce()`, run by one caller on its own. -/
def closeOnce (st : Store σ B) (tr : Transport τ B) (rl : RemoteLogger B) (s : σ) (x : τ)
    (now : Time) : Option Error × RemoteLogger B × σ × τ :=
  if rl.closed then (none, rl, s, x)
  else
    match rl.logger.closeProtocol P st s rl.logID now with
    | (.error err, l, s) => (some (.wrap "create close message" err), { rl with logger := l }, s, x)
    | (.ok closeMsg, l, s) =>
      match tr.sendClosure x closeMsg with
      | (some err, x) => (some (.wrap "send closure" err), { rl with logger := l }, s, x)
      | (none, x) => (none, { rl with logger := l, closed := true }, s, x)

/-- `Close()`. -/
def close (st : Store σ B) (tr : Transport τ B) (rl : RemoteLogger B) (s : σ) (x : τ)
    (now : Time) : Option Error × RemoteLogger B × σ × τ :=
  rl.closeOnce P st tr s x now

variable {P} {st : Store σ B} {tr : Transport τ B} {rl : RemoteLogger B} {s s' : σ} {x x' : τ}
  {now : Time}

theorem close_of_closed (h : rl.closed = true) : rl.close P st tr s x now = (none, rl, s, x) := by
  simp [close, closeOnce, h]

/-- A `Close` whose `SendClosure` fails returns the error with `closed` still unset,
after `CloseProtocol` ran. -/
theorem close_send_failed {m : CloseMessage B} {l : Logger B} {e : Error} (h : rl.closed = false)
    (hp : rl.logger.closeProtocol P st s rl.logID now = (.ok m, l, s'))
    (hs : tr.sendClosure x m = (some e, x')) :
    rl.close P st tr s x now = (some (.wrap "send closure" e), { rl with logger := l }, s', x') := by
  simp [close, closeOnce, h, hp, hs]

/-- A `Close` whose `SendClosure` succeeds sets `closed`. -/
theorem close_sent {m : CloseMessage B} {l : Logger B} (h : rl.closed = false)
    (hp : rl.logger.closeProtocol P st s rl.logID now = (.ok m, l, s'))
    (hs : tr.sendClosure x m = (none, x')) :
    rl.close P st tr s x now = (none, { rl with logger := l, closed := true }, s', x') := by
  simp [close, closeOnce, h, hp, hs]

end RemoteLogger

/-! ## The index invariant across the protocol -/

namespace Indexed

variable (P : Primitives B) {l : Logger B} {s : SpecStore B}

/-- Below `2^64` records `InitProtocol` succeeds and appends `START`. -/
theorem initProtocol_step (hi : Indexed l s) (hlen : s.records.length < 2 ^ 64) (logID : String)
    (now : Time) :
    ∃ commit op l' s', l.initProtocol P SpecStore.store s logID now = (.ok (commit, op), l', s') ∧
      Indexed l' s' ∧ s'.records = s.records ++ [Logger.pendingRecord P l (bytesOf "START") now] := by
  obtain ⟨en, l', s', h, hi', hrec⟩ := hi.append_step P hlen (bytesOf "START") now
  exact ⟨_, _, l', s', Logger.initProtocol_of_append_ok h, hi', hrec⟩

/-- Below `2^64` records `CloseProtocol` succeeds, appends `CLOSE` and zeroes both
keys; the index invariant survives. -/
theorem closeProtocol_step (hi : Indexed l s) (hlen : s.records.length < 2 ^ 64)
    (logID : String) (now : Time) :
    ∃ cl l' s', l.closeProtocol P SpecStore.store s logID now = (.ok cl, l', s') ∧
      Indexed l' s' ∧ s'.records = s.records ++ [Logger.pendingRecord P l (bytesOf "CLOSE") now] ∧
      l'.keyV = P.zero ∧ l'.keyT = P.zero := by
  obtain ⟨en, l', s', h, hi', hrec⟩ := hi.append_step P hlen (bytesOf "CLOSE") now
  exact ⟨_, _, s', Logger.closeProtocol_of_append_ok h, ⟨hi'.index, hi'.indices⟩, hrec, rfl, rfl⟩

/-- **Nothing stops an append after a close.** After a successful `CloseProtocol`,
below `2^64 − 1` records, a later `Append` succeeds and writes its record after
`CLOSE`. -/
theorem append_after_closeProtocol (hi : Indexed l s) (hlen : s.records.length + 2 ≤ 2 ^ 64)
    {logID : String} {now : Time} {cl : CloseMessage B} {l' : Logger B} {s' : SpecStore B}
    (hclose : l.closeProtocol P SpecStore.store s logID now = (.ok cl, l', s'))
    (msg : List UInt8) (ts : Time) :
    ∃ en l'' s'', l'.append P SpecStore.store s' msg ts = (.ok en, l'', s'') ∧
      s''.records = s'.records ++ [Logger.pendingRecord P l' msg ts] := by
  obtain ⟨cl₀, l₀, s₀, h, hi₀, hrec, -, -⟩ := hi.closeProtocol_step P (by omega) logID now
  rw [h] at hclose
  obtain ⟨⟨⟩, ⟨⟩, ⟨⟩⟩ := hclose
  obtain ⟨en, l'', s'', happ, -, hrec'⟩ :=
    hi₀.append_step P (by rw [hrec, List.length_append, List.length_singleton]; omega) msg ts
  exact ⟨en, l'', s'', happ, hrec'⟩

/-- A `Close` from an unclosed remote logger whose `SendClosure` fails: `CLOSE` is
written and the error returned, with `closed` still unset. -/
theorem close_send_failure {tr : Transport τ B} {rl : RemoteLogger B}
    {s : SpecStore B} {x x' : τ} {e : Error} (hi : Indexed rl.logger s) (hc : rl.closed = false)
    (hlen : s.records.length < 2 ^ 64) (now : Time)
    (hs : ∀ m, tr.sendClosure x m = (some e, x')) :
    ∃ rl' s', rl.close P SpecStore.store tr s x now = (some (.wrap "send closure" e), rl', s', x') ∧
      rl'.closed = false ∧ Indexed rl'.logger s' ∧
      s'.records = s.records ++ [Logger.pendingRecord P rl.logger (bytesOf "CLOSE") now] := by
  obtain ⟨cl, l', s', h, hi', hrec, -, -⟩ := hi.closeProtocol_step P hlen rl.logID now
  exact ⟨_, s', RemoteLogger.close_send_failed hc h (hs cl), hc, hi', hrec⟩

/-- A `Close` from an unclosed remote logger whose `SendClosure` succeeds: `CLOSE`
is written and `closed` set. -/
theorem close_send_success {tr : Transport τ B} {rl : RemoteLogger B}
    {s : SpecStore B} {x x' : τ} (hi : Indexed rl.logger s) (hc : rl.closed = false)
    (hlen : s.records.length < 2 ^ 64) (now : Time) (hs : ∀ m, tr.sendClosure x m = (none, x')) :
    ∃ rl' s', rl.close P SpecStore.store tr s x now = (none, rl', s', x') ∧ rl'.closed = true ∧
      Indexed rl'.logger s' ∧
      s'.records = s.records ++ [Logger.pendingRecord P rl.logger (bytesOf "CLOSE") now] := by
  obtain ⟨cl, l', s', h, hi', hrec, -, -⟩ := hi.closeProtocol_step P hlen rl.logID now
  exact ⟨_, s', RemoteLogger.close_sent hc h (hs cl), rfl, hi', hrec⟩

end Indexed

/-- A fresh logger opens its log and closes it; an `Append` afterwards still
succeeds, and the log reads `START`, `CLOSE`, then the new entry. -/
theorem append_after_close_succeeds :
    ∃ commit op cl en l₁ l₂ l₃ s₁ s₂ s₃,
      (Logger.symbolicNew 0).initProtocol symbolic SpecStore.store SpecStore.empty "log" ⟨0⟩ =
        (.ok (commit, op), l₁, s₁) ∧
      l₁.closeProtocol symbolic SpecStore.store s₁ "log" ⟨1⟩ = (.ok cl, l₂, s₂) ∧
      l₂.append symbolic SpecStore.store s₂ (bytesOf "a") ⟨2⟩ = (.ok en, l₃, s₃) ∧
      s₃.records.map Record.msg = [bytesOf "START", bytesOf "CLOSE", bytesOf "a"] := by
  obtain ⟨commit, op, l₁, s₁, hinit, hi₁, hrec₁⟩ :=
    (Indexed.empty rfl : Indexed (Logger.symbolicNew 0) SpecStore.empty).initProtocol_step
      symbolic (by decide) "log" ⟨0⟩
  obtain ⟨cl, l₂, s₂, hclose, -, hrec₂, -, -⟩ :=
    hi₁.closeProtocol_step symbolic (by rw [hrec₁]; decide) "log" ⟨1⟩
  obtain ⟨en, l₃, s₃, happ, hrec₃⟩ :=
    hi₁.append_after_closeProtocol symbolic (by rw [hrec₁]; decide) hclose (bytesOf "a") ⟨2⟩
  exact ⟨commit, op, cl, en, l₁, l₂, l₃, s₁, s₂, s₃, hinit, hclose, happ,
    by simp [hrec₃, hrec₂, hrec₁, SpecStore.empty, Logger.pendingRecord]⟩

/-! ## Concurrent `Close` calls -/

/-- Where one `Close` call stands in `closeOnce`. The mutex is held only while the
flag is read (from `start`) and set (from `sent`); `CloseProtocol` (from
`checked`) and `SendClosure` (from `made`) run unlocked. -/
inductive CloseStage (B : Type) where
  | start : CloseStage B
  | checked : CloseStage B
  | made : CloseMessage B → CloseStage B
  | sent : CloseStage B
  | returned : Option Error → CloseStage B
  deriving DecidableEq, Repr

/-- Concurrent `Close` calls on one remote logger: the state they share and each
caller's stage. -/
structure Closing (B σ τ : Type) where
  rl : RemoteLogger B
  s : σ
  x : τ
  stages : List (CloseStage B)

variable (P : Primitives B)

/-- One atomic step of caller `j`; a caller that has returned, or does not exist,
does nothing. -/
def closeStep (st : Store σ B) (tr : Transport τ B) (now : Time) (c : Closing B σ τ) (j : ℕ) :
    Closing B σ τ :=
  match c.stages[j]? with
  | some .start =>
    { c with stages := c.stages.set j (if c.rl.closed then .returned none else .checked) }
  | some .checked =>
    match c.rl.logger.closeProtocol P st c.s c.rl.logID now with
    | (.error err, l, s) =>
      { c with rl := { c.rl with logger := l }, s,
               stages := c.stages.set j (.returned (some (.wrap "create close message" err))) }
    | (.ok closeMsg, l, s) =>
      { c with rl := { c.rl with logger := l }, s, stages := c.stages.set j (.made closeMsg) }
  | some (.made closeMsg) =>
    match tr.sendClosure c.x closeMsg with
    | (some err, x) =>
      { c with x, stages := c.stages.set j (.returned (some (.wrap "send closure" err))) }
    | (none, x) => { c with x, stages := c.stages.set j .sent }
  | some .sent =>
    { c with rl := { c.rl with closed := true }, stages := c.stages.set j (.returned none) }
  | some (.returned _) => c
  | none => c

/-- The callers' steps in the order a schedule gives. -/
def closeRun (st : Store σ B) (tr : Transport τ B) (now : Time) (c : Closing B σ τ)
    (schedule : List ℕ) : Closing B σ τ :=
  schedule.foldl (closeStep P st tr now) c

/-- Two callers over a transport that accepts every closure, interleaved so that
both read the flag before either sets it: both run `CloseProtocol`, so two `CLOSE`
records are written, and both return nil. -/
theorem Indexed.concurrent_close {tr : Transport τ B} {rl : RemoteLogger B} {s : SpecStore B}
    {x : τ} (hi : Indexed rl.logger s) (hc : rl.closed = false)
    (hlen : s.records.length + 2 ≤ 2 ^ 64) (now : Time) (hs : ∀ m, tr.sendClosure x m = (none, x)) :
    ∃ l, (closeRun P SpecStore.store tr now ⟨rl, s, x, [.start, .start]⟩
        [0, 1, 0, 1, 0, 1, 0, 1]).s.records =
      s.records ++ [Logger.pendingRecord P rl.logger (bytesOf "CLOSE") now,
        Logger.pendingRecord P l (bytesOf "CLOSE") now] ∧
      (closeRun P SpecStore.store tr now ⟨rl, s, x, [.start, .start]⟩
        [0, 1, 0, 1, 0, 1, 0, 1]).stages = [.returned none, .returned none] := by
  obtain ⟨cl₁, l₁, s₁, h₁, hi₁, hrec₁, -, -⟩ := hi.closeProtocol_step P (by omega) rl.logID now
  obtain ⟨cl₂, l₂, s₂, h₂, -, hrec₂, -, -⟩ :=
    hi₁.closeProtocol_step P (by rw [hrec₁, List.length_append, List.length_singleton]; omega)
      rl.logID now
  refine ⟨l₁, ?_, ?_⟩ <;> simp [closeRun, closeStep, hc, h₁, h₂, hs, hrec₁, hrec₂]

/-- Two ways `Close` writes `CLOSE` twice, on a logger that has opened its log.
A retry after `SendClosure` failed: the first call returns the error, the second
nil, and the log reads `START`, `CLOSE`, `CLOSE`. Two concurrent callers over a
transport that never fails, both reading the flag before either sets it: both
return nil and the log reads `START`, `CLOSE`, `CLOSE`. -/
theorem close_twice_writes_two_closes :
    ∃ commit op l₁ s₁,
      (Logger.symbolicNew 0).initProtocol symbolic SpecStore.store SpecStore.empty "log" ⟨0⟩ =
        (.ok (commit, op), l₁, s₁) ∧
      (∃ e rl₂ s₂ x₂ rl₃ s₃ x₃,
        (⟨l₁, "log", false⟩ : RemoteLogger Term).close symbolic SpecStore.store scriptedTransport
          s₁ [some .io] ⟨1⟩ = (some e, rl₂, s₂, x₂) ∧
        rl₂.close symbolic SpecStore.store scriptedTransport s₂ x₂ ⟨2⟩ = (none, rl₃, s₃, x₃) ∧
        s₃.records.map Record.msg = [bytesOf "START", bytesOf "CLOSE", bytesOf "CLOSE"]) ∧
      (closeRun symbolic SpecStore.store scriptedTransport ⟨1⟩
          ⟨⟨l₁, "log", false⟩, s₁, [], [.start, .start]⟩ [0, 1, 0, 1, 0, 1, 0, 1]).stages =
        [.returned none, .returned none] ∧
      (closeRun symbolic SpecStore.store scriptedTransport ⟨1⟩
          ⟨⟨l₁, "log", false⟩, s₁, [], [.start, .start]⟩ [0, 1, 0, 1, 0, 1, 0, 1]).s.records.map
        Record.msg = [bytesOf "START", bytesOf "CLOSE", bytesOf "CLOSE"] := by
  obtain ⟨commit, op, l₁, s₁, hinit, hi₁, hrec₁⟩ :=
    (Indexed.empty rfl : Indexed (Logger.symbolicNew 0) SpecStore.empty).initProtocol_step
      symbolic (by decide) "log" ⟨0⟩
  have hlen₁ : s₁.records.length = 1 := by rw [hrec₁]; rfl
  have hopen : (⟨l₁, "log", false⟩ : RemoteLogger Term).closed = false := rfl
  obtain ⟨rl₂, s₂, h₂, hc₂, hi₂, hrec₂⟩ := Indexed.close_send_failure symbolic hi₁ hopen
    (by omega) ⟨1⟩ (fun _ => rfl :
      ∀ m, (scriptedTransport : Transport _ Term).sendClosure [some .io] m = (some .io, []))
  obtain ⟨rl₃, s₃, h₃, -, -, hrec₃⟩ := Indexed.close_send_success symbolic hi₂ hc₂
    (by rw [hrec₂, List.length_append, hlen₁, List.length_singleton]; omega) ⟨2⟩ (fun _ => rfl :
      ∀ m, (scriptedTransport : Transport _ Term).sendClosure [] m = (none, []))
  obtain ⟨l, hrecc, hstages⟩ := Indexed.concurrent_close symbolic hi₁ hopen (by omega) ⟨1⟩
    (fun _ => rfl : ∀ m, (scriptedTransport : Transport _ Term).sendClosure [] m = (none, []))
  refine ⟨commit, op, l₁, s₁, hinit, ⟨_, rl₂, s₂, [], rl₃, s₃, [], h₂, h₃, ?_⟩, hstages, ?_⟩
  · simp [hrec₃, hrec₂, hrec₁, SpecStore.empty, Logger.pendingRecord]
  · simp [hrecc, hrec₁, SpecStore.empty, Logger.pendingRecord]

end SecureLog
