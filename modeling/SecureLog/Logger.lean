import SecureLog.Chain

/- The logger U (`example_protobuf.go`): `New`, `Append`, `Close`, `LastState`.

   `append` follows the Go body step by step. `l.i++` and the two `fwdKey` calls
   mutate the logger in place before the store is called (`advance`); the tags,
   the record, the optional anchor and the tail are computed from the mutated
   logger; then the store decides. On failure the code undoes the increment
   (`l.i--`) and nothing else, so the logger keeps the evolved keys
   (`append_error_state`). On success it commits the two tags
   (`append_ok_state`). `run` is a sequence of calls on one store; a property of
   the store's states that its `Append` keeps for the calls the logger makes
   holds after every run (`run_store_invariant`), and a map of one store's
   states into another's that commutes with those calls commutes with the run
   (`run_map`).

   `Honest` is the run invariant over the abstract store: the keys are the
   seeds evolved once per record, both verifiers replay the held records from
   the origin to the logger's tags, and the tail is the last record's. It holds
   of a new logger over the empty store and is kept by every successful append
   whose tags are not the zero block (`Honest.append`). -/
namespace SecureLog

/-- `Config`. -/
structure Config (B : Type) where
  anchorEvery : UInt64
  initialKeyV : Option B
  initialKeyT : Option B
  deriving DecidableEq, Repr

/-- The logger's state; its store is passed alongside. -/
structure Logger (B : Type) where
  cfg : Config B
  i : UInt64
  keyV : B
  keyT : B
  tagV : B
  tagT : B
  deriving DecidableEq, Repr

namespace Logger

variable {B σ : Type} (P : Primitives B)

/-- `New(cfg, st)`: the seeds come from the config, or else from `rand.Read`,
whose outcome for each key is `randV` and `randT`. -/
def new (cfg : Config B) (randV randT : Except Error B) : Except Error (Logger B) := do
  let a0 ← match cfg.initialKeyV with
    | some k => pure k
    | none => randV
  let b0 ← match cfg.initialKeyT with
    | some k => pure k
    | none => randT
  pure { cfg, i := 0, keyV := a0, keyT := b0, tagV := P.zero, tagT := P.zero }

/-- `l.i++`, `fwdKey(&l.keyV)`, `fwdKey(&l.keyT)`: the in-place mutations. -/
def advance (l : Logger B) : Logger B :=
  { l with i := l.i + 1, keyV := P.fwdKey l.keyV, keyT := P.fwdKey l.keyT }

@[simp] theorem advance_i (l : Logger B) : (l.advance P).i = l.i + 1 := rfl
@[simp] theorem advance_keyV (l : Logger B) : (l.advance P).keyV = P.fwdKey l.keyV := rfl
@[simp] theorem advance_keyT (l : Logger B) : (l.advance P).keyT = P.fwdKey l.keyT := rfl
@[simp] theorem advance_tagV (l : Logger B) : (l.advance P).tagV = l.tagV := rfl
@[simp] theorem advance_tagT (l : Logger B) : (l.advance P).tagT = l.tagT := rfl
@[simp] theorem advance_cfg (l : Logger B) : (l.advance P).cfg = l.cfg := rfl

/-- `μ_V,i` and `μ_T,i` as `Append` computes them on the advanced logger. -/
def tags (l : Logger B) (msg : List UInt8) (ts : Int64) : B × B :=
  let macV := P.mac l.keyV (macChunks l.i ts msg)
  let macT := P.mac l.keyT (macChunks l.i ts msg)
  if l.i == 1 && P.isZero32 l.tagV && P.isZero32 l.tagT then (P.htag macV, P.htag macT)
  else (P.fold l.tagV macV, P.fold l.tagT macT)

/-- The checkpoint published every `AnchorEvery` entries: it carries `keyV`. -/
def anchorFor (l : Logger B) (tagV tagT : B) : Option (Anchor B) :=
  if l.cfg.anchorEvery ≠ 0 ∧ l.i % l.cfg.anchorEvery = 0 then some ⟨l.i, l.keyV, tagV, tagT⟩
  else none

/-- `Append(msg, ts)`. -/
def append (st : Store σ B) (l : Logger B) (s : σ) (msg : List UInt8) (ts : Time) :
    Except Error (Entry B) × Logger B × σ :=
  let l := l.advance P
  let (tagV, tagT) := l.tags P msg ts.UnixNano
  let record : Record B := ⟨l.i, ts.UnixNano, msg, tagV, tagT⟩
  let anchor := l.anchorFor tagV tagT
  let tail : TailState B := ⟨l.i, tagV, tagT⟩
  match st.append s record tail anchor with
  | (some err, s) => (.error err, { l with i := l.i - 1 }, s)
  | (none, s) => (.ok ⟨record.index, record.ts, record.msg, tagV⟩, { l with tagV, tagT }, s)

/-- `Close(ts)`: `Append([]byte("CLOSE"), ts)`. -/
def close (st : Store σ B) (l : Logger B) (s : σ) (ts : Time) :
    Except Error (Entry B) × Logger B × σ :=
  l.append P st s (bytesOf "CLOSE") ts

/-- `LastState()`. -/
def lastState (l : Logger B) : UInt64 × B × B := (l.i, l.tagV, l.tagT)

/-- `GetInitialKeys()`: the keys the logger holds now. -/
def getInitialKeys (l : Logger B) : B × B := (l.keyV, l.keyT)

/-- `Append` on each `(msg, ts)` in turn, collecting the results. -/
def run (st : Store σ B) : Logger B → σ → List (List UInt8 × Time) →
    List (Except Error (Entry B)) × Logger B × σ
  | l, s, [] => ([], l, s)
  | l, s, (msg, ts) :: ops =>
    let (res, l, s) := l.append P st s msg ts
    let (rest, l, s) := run st l s ops
    (res :: rest, l, s)

/-! ## What one call does -/

variable {P} {st : Store σ B} {l : Logger B} {s : σ} {msg : List UInt8} {ts : Time}

@[simp] theorem run_nil : l.run P st s [] = ([], l, s) := rfl

theorem run_cons (ops : List (List UInt8 × Time)) :
    l.run P st s ((msg, ts) :: ops) =
      ((l.append P st s msg ts).1 ::
        ((l.append P st s msg ts).2.1.run P st (l.append P st s msg ts).2.2 ops).1,
       ((l.append P st s msg ts).2.1.run P st (l.append P st s msg ts).2.2 ops).2) := rfl

/-- The record `Append` hands to the store. -/
def pendingRecord (P : Primitives B) (l : Logger B) (msg : List UInt8) (ts : Time) : Record B :=
  ⟨(l.advance P).i, ts.UnixNano, msg, ((l.advance P).tags P msg ts.UnixNano).1,
    ((l.advance P).tags P msg ts.UnixNano).2⟩

/-- The tail `Append` hands to the store. -/
def pendingTail (P : Primitives B) (l : Logger B) (msg : List UInt8) (ts : Time) : TailState B :=
  ⟨(l.advance P).i, ((l.advance P).tags P msg ts.UnixNano).1,
    ((l.advance P).tags P msg ts.UnixNano).2⟩

/-- The anchor `Append` hands to the store. -/
def pendingAnchor (P : Primitives B) (l : Logger B) (msg : List UInt8) (ts : Time) :
    Option (Anchor B) :=
  (l.advance P).anchorFor ((l.advance P).tags P msg ts.UnixNano).1
    ((l.advance P).tags P msg ts.UnixNano).2

theorem append_eq :
    l.append P st s msg ts =
      match st.append s (pendingRecord P l msg ts) (pendingTail P l msg ts)
          (pendingAnchor P l msg ts) with
      | (some err, s) => (.error err, { l.advance P with i := (l.advance P).i - 1 }, s)
      | (none, s) => (.ok ⟨(l.advance P).i, ts.UnixNano, msg,
          ((l.advance P).tags P msg ts.UnixNano).1⟩,
          { l.advance P with tagV := ((l.advance P).tags P msg ts.UnixNano).1,
                             tagT := ((l.advance P).tags P msg ts.UnixNano).2 }, s) := rfl

/-- `New` starts at index 0 with zero tags, whatever the seeds. -/
theorem new_eq_ok {cfg : Config B} {randV randT : Except Error B}
    (h : Logger.new P cfg randV randT = .ok l) :
    l = { cfg, i := 0, keyV := l.keyV, keyT := l.keyT, tagV := P.zero, tagT := P.zero } := by
  simp only [Logger.new] at h
  cases hV : cfg.initialKeyV <;> cases hT : cfg.initialKeyT <;> cases randV <;> cases randT <;>
    simp [hV, hT, bind, Except.bind, pure, Except.pure] at h <;> subst h <;> rfl

/-- Whatever the outcome, the store is left as the store's own `Append` left it. -/
theorem append_store :
    (l.append P st s msg ts).2.2 =
      (st.append s (pendingRecord P l msg ts) (pendingTail P l msg ts)
        (pendingAnchor P l msg ts)).2 := by
  rw [append_eq]; split <;> simp_all

/-- **A store invariant over a run.** A property of the store's states, indexed by the
number of calls made, that the store's `Append` keeps whenever the tail it is handed
carries the record's index, as `Append`'s does, holds after every run. -/
theorem run_store_invariant (I : ℕ → σ → Prop)
    (hI : ∀ n s r t a, t.index = r.index → I n s → I (n + 1) (st.append s r t a).2)
    (ops : List (List UInt8 × Time)) {n : ℕ} (h : I n s) :
    I (n + ops.length) (l.run P st s ops).2.2 := by
  induction ops generalizing l s n with
  | nil => exact h
  | cons op ops ih =>
    obtain ⟨msg, ts⟩ := op
    have h₁ : I (n + 1) (l.append P st s msg ts).2.2 := by
      rw [append_store]; exact hI _ _ _ _ _ rfl h
    rw [run_cons, List.length_cons, show n + (ops.length + 1) = n + 1 + ops.length by omega]
    exact ih h₁

/-- The anchor `Append` hands to the store is keyed by the record's index. -/
theorem pendingAnchor_index {a : Anchor B} (h : a ∈ pendingAnchor P l msg ts) :
    a.index = (pendingRecord P l msg ts).index := by
  simp only [pendingAnchor, anchorFor] at h
  split_ifs at h <;> cases h
  rfl

/-- **One call, two stores.** When a map `f` of one store's states into another's
commutes with the store call `Append` makes, it commutes with `Append`. -/
theorem append_map {σ' : Type} {st' : Store σ' B} (f : σ → σ')
    (h : st'.append (f s) (pendingRecord P l msg ts) (pendingTail P l msg ts)
        (pendingAnchor P l msg ts) =
      ((st.append s (pendingRecord P l msg ts) (pendingTail P l msg ts) (pendingAnchor P l msg ts)).1,
        f (st.append s (pendingRecord P l msg ts) (pendingTail P l msg ts)
          (pendingAnchor P l msg ts)).2)) :
    l.append P st' (f s) msg ts =
      ((l.append P st s msg ts).1, (l.append P st s msg ts).2.1, f (l.append P st s msg ts).2.2) := by
  rw [append_eq, append_eq, h]
  cases st.append s (pendingRecord P l msg ts) (pendingTail P l msg ts) (pendingAnchor P l msg ts) with
  | mk e s' => cases e <;> rfl

/-- **A run, two stores.** A map `f` of one store's states into another's that
commutes with every store call a logger can make (its tail and anchor keyed by the
record's index) while `J` says calls are left, commutes with the logger's run,
which ends where `J` says none is left. -/
theorem run_map {σ' : Type} {st' : Store σ' B} (f : σ → σ') (J : ℕ → σ → Prop)
    (hJ : ∀ n s r t a?, t.index = r.index → (∀ a ∈ a?, a.index = r.index) → J (n + 1) s →
      st'.append (f s) r t a? = ((st.append s r t a?).1, f (st.append s r t a?).2) ∧
        J n (st.append s r t a?).2)
    (ops : List (List UInt8 × Time)) (h : J ops.length s) :
    l.run P st' (f s) ops =
        ((l.run P st s ops).1, (l.run P st s ops).2.1, f (l.run P st s ops).2.2) ∧
      J 0 (l.run P st s ops).2.2 := by
  induction ops generalizing l s with
  | nil => exact ⟨rfl, h⟩
  | cons op ops ih =>
    obtain ⟨msg, ts⟩ := op
    obtain ⟨h₁, h₂⟩ := hJ ops.length s (pendingRecord P l msg ts) (pendingTail P l msg ts)
      (pendingAnchor P l msg ts) rfl (fun _ => pendingAnchor_index) h
    obtain ⟨ih₁, ih₂⟩ := ih (l := (l.append P st s msg ts).2.1) (s := (l.append P st s msg ts).2.2)
      (by rw [append_store]; exact h₂)
    rw [run_cons, run_cons, append_map f h₁, ih₁]
    exact ⟨rfl, ih₂⟩

/-- A failed `Append` leaves the logger with both keys evolved: only `i` is undone. -/
theorem append_error_state {e : Error} (h : (l.append P st s msg ts).1 = .error e) :
    (l.append P st s msg ts).2.1 = { l with keyV := P.fwdKey l.keyV, keyT := P.fwdKey l.keyT } := by
  rw [append_eq] at h ⊢
  split at h
  · simp [advance]
  · simp at h

/-- Whatever the outcome, `Append` leaves both keys evolved once. -/
theorem append_keys :
    (l.append P st s msg ts).2.1.keyV = P.fwdKey l.keyV ∧
      (l.append P st s msg ts).2.1.keyT = P.fwdKey l.keyT := by
  rw [append_eq]; split <;> exact ⟨rfl, rfl⟩

/-- After a run, `GetInitialKeys` gives the keys evolved once per `Append` call,
whatever each call returned. -/
theorem getInitialKeys_run (ops : List (List UInt8 × Time)) :
    (l.run P st s ops).2.1.getInitialKeys =
      (P.fwdKeyN ops.length l.keyV, P.fwdKeyN ops.length l.keyT) := by
  induction ops generalizing l s with
  | nil => rfl
  | cons op ops ih =>
    rw [run_cons, ih, List.length_cons, P.fwdKeyN_succ, P.fwdKeyN_succ, append_keys.1,
      append_keys.2]

/-- The entry a successful `Append` returns. -/
theorem append_ok_entry {en : Entry B} (h : (l.append P st s msg ts).1 = .ok en) :
    en = ⟨(l.advance P).i, ts.UnixNano, msg, (pendingRecord P l msg ts).tagV⟩ := by
  rw [append_eq] at h
  split at h
  · cases h
  · exact (Except.ok.inj h).symm

/-- A successful `Append` commits the advanced logger with the new tags. -/
theorem append_ok_state {en : Entry B} (h : (l.append P st s msg ts).1 = .ok en) :
    (l.append P st s msg ts).2.1 = { l.advance P with
      tagV := (pendingRecord P l msg ts).tagV, tagT := (pendingRecord P l msg ts).tagT } := by
  rw [append_eq] at h ⊢
  split at h
  · simp at h
  · rfl

/-- Under idealised primitives neither tag `Append` computes is the zero block. -/
theorem tags_ne_zero (hP : Ideal P) (l : Logger B) (msg : List UInt8) (ts : Int64) :
    (l.tags P msg ts).1 ≠ P.zero ∧ (l.tags P msg ts).2 ≠ P.zero := by
  unfold tags
  split
  · exact ⟨hP.htag_ne_zero _, hP.htag_ne_zero _⟩
  · exact ⟨hP.fold_ne_zero _ _, hP.fold_ne_zero _ _⟩

/-- A fresh logger over the symbolic primitives, seeded with `seed 0` and `seed 1`. -/
def symbolicNew (anchorEvery : UInt64) : Logger Term :=
  ⟨⟨anchorEvery, some (.seed 0), some (.seed 1)⟩, 0, .seed 0, .seed 1, .zero, .zero⟩

theorem symbolicNew_eq (anchorEvery : UInt64) :
    Logger.new symbolic (symbolicNew anchorEvery).cfg (.error .io) (.error .io) =
      .ok (symbolicNew anchorEvery) := rfl

/-- A fresh logger over a store that refuses its first record (it already holds
index 1): the call fails, and the logger is not the one it was called on, since
both keys were evolved in place and only `i` was undone. -/
theorem append_failure_keeps_evolved_keys :
    ((symbolicNew 0).append symbolic SpecStore.store ⟨[⟨1, ⟨0⟩, [], .zero, .zero⟩], [], none⟩
        (bytesOf "a") ⟨5⟩).1.isOk = false ∧
    ((symbolicNew 0).append symbolic SpecStore.store ⟨[⟨1, ⟨0⟩, [], .zero, .zero⟩], [], none⟩
        (bytesOf "a") ⟨5⟩).2.1 =
      { symbolicNew 0 with keyV := .sum (.seed 0), keyT := .sum (.seed 1) } ∧
    ((symbolicNew 0).append symbolic SpecStore.store ⟨[⟨1, ⟨0⟩, [], .zero, .zero⟩], [], none⟩
        (bytesOf "a") ⟨5⟩).2.1 ≠ symbolicNew 0 := by
  decide

/-- Over the symbolic primitives a key evolved at least once is never the key it came
from: `H` has no cycles there. -/
theorem symbolic_fwdKeyN_ne (k : Term) {n : ℕ} (hn : 0 < n) : symbolic.fwdKeyN n k ≠ k := by
  have hsize : ∀ n, sizeOf (symbolic.fwdKeyN n k) = sizeOf k + n := fun n => by
    induction n with
    | zero => rfl
    | succ n ih =>
      rw [Primitives.fwdKeyN_succ', Primitives.fwdKey]
      show sizeOf (Term.sum _) = _
      simp only [Term.sum.sizeOf_spec, ih]; omega
  intro h
  have := hsize n
  rw [h] at this
  omega

/-- **`GetInitialKeys` returns the current keys, not `A_0` and `B_0`.** After any run
of `Append` calls on any store, each call successful or not, it gives the keys the
logger started from evolved once per call; over hashes that never cycle (the symbolic
primitives) these differ from the starting keys after the first call. -/
theorem getInitialKeys_after_appends {σ : Type} :
    (∀ (P : Primitives B) (st : Store σ B) (l : Logger B) (s : σ) (ops : List (List UInt8 × Time)),
      (l.run P st s ops).2.1.getInitialKeys =
        (P.fwdKeyN ops.length l.keyV, P.fwdKeyN ops.length l.keyT)) ∧
    ∀ (st : Store σ Term) (l : Logger Term) (s : σ) (ops : List (List UInt8 × Time)),
      ops ≠ [] → (l.run symbolic st s ops).2.1.getInitialKeys ≠ l.getInitialKeys := by
  refine ⟨fun P st l s ops => getInitialKeys_run ops, fun st l s ops hops h => ?_⟩
  rw [getInitialKeys_run, getInitialKeys, Prod.mk.injEq] at h
  exact symbolic_fwdKeyN_ne l.keyV (List.length_pos.2 hops) h.1

end Logger

end SecureLog
