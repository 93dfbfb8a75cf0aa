import SecureLog.Logger

/- The auditor's view does not depend on `B_0` (`example_protobuf.go`, `Append`).

   The V-side of what the logger persists is what the semi-trusted verifier
   reads: a record's index, timestamp, message and `TagV`, an anchor's index,
   key and `TagV`, and the tail's index and `TagV` (`SpecStore.vSide`).

   1. `Logger.SameVSide` relates two loggers that may differ in their T-half (the
      chain seeded by `B_0`): the same `AnchorEvery`, index, `keyV` and `tagV`,
      and `tagT` zero in both or in neither. The last is the one place where the
      V-chain reads the T-half: the first tag is `htag` rather than `fold` only
      when `l.i == 1` and both tags are zero. Primitives whose `htag` and `fold`
      never return the zero block (`NonzeroTags`, which `Ideal` implies) keep it.
   2. One `Append` on two related loggers over stores with the same V-side
      returns the same entry or the same error, and leaves related loggers and
      stores with the same V-side (`append_sameVSide`); by induction, so does
      every run (`run_sameVSide`).
   3. Every key the logger ever hands to the store in an anchor is `keyV`, a key
      of the chain seeded by `A_0` (`run_anchor_keys`).

   Two loggers made by `New` with the same `A_0` and `AnchorEvery` and any two
   `B_0` therefore persist the same V-side after every list of calls
   (`vSide_independent_of_b0`). -/
namespace SecureLog

variable {B : Type}

/-- The V-side of a record. -/
def Record.vSide (r : Record B) : UInt64 × Int64 × List UInt8 × B := (r.index, r.ts, r.msg, r.tagV)

/-- The V-side of an anchor: its key is `A_i`. -/
def Anchor.vSide (a : Anchor B) : UInt64 × B × B := (a.index, a.key, a.tagV)

/-- The V-side of the tail. -/
def TailState.vSide (t : TailState B) : UInt64 × B := (t.index, t.tagV)

/-- The V-side of what a store holds. -/
def SpecStore.vSide (s : SpecStore B) :
    List (UInt64 × Int64 × List UInt8 × B) × List (UInt64 × B × B) × Option (UInt64 × B) :=
  (s.records.map Record.vSide, s.anchors.map Anchor.vSide, s.tail.map TailState.vSide)

/-- Primitives whose `htag` and `fold` never return the zero block. -/
def NonzeroTags (P : Primitives B) : Prop := (∀ t, P.htag t ≠ P.zero) ∧ ∀ a b, P.fold a b ≠ P.zero

theorem Ideal.nonzeroTags {P : Primitives B} (hP : Ideal P) : NonzeroTags P :=
  ⟨hP.htag_ne_zero, hP.fold_ne_zero⟩

/-! ## The store's side -/

namespace SpecStore

theorem maxIndex_eq_of_vSide {rs rs' : List (Record B)}
    (h : rs.map Record.vSide = rs'.map Record.vSide) : maxIndex rs = maxIndex rs' := by
  have hidx : rs.map Record.index = rs'.map Record.index := by
    simpa only [List.map_map] using congrArg (List.map Prod.fst) h
  rw [maxIndex, maxIndex, ← List.foldl_map Record.index, ← List.foldl_map Record.index, hidx]

theorem insertAnchor_vSide {a a' : Anchor B} (ha : a.vSide = a'.vSide) {as as' : List (Anchor B)}
    (has : as.map Anchor.vSide = as'.map Anchor.vSide) :
    (insertAnchor a as).map Anchor.vSide = (insertAnchor a' as').map Anchor.vSide := by
  have hidx : a.index = a'.index := congrArg Prod.fst ha
  induction as generalizing as' with
  | nil => cases as' with
    | nil => simp [insertAnchor, ha]
    | cons _ _ => cases has
  | cons b bs ih => cases as' with
    | nil => cases has
    | cons b' bs' =>
      simp only [List.map_cons, List.cons.injEq] at has
      have hb : b.index = b'.index := congrArg Prod.fst has.1
      simp only [insertAnchor, hidx, hb]
      split_ifs <;> simp [ha, has.1, has.2, ih has.2]

theorem putAnchor_vSide {a a' : Option (Anchor B)} (ha : a.map Anchor.vSide = a'.map Anchor.vSide)
    {as as' : List (Anchor B)} (has : as.map Anchor.vSide = as'.map Anchor.vSide) :
    (putAnchor a as).map Anchor.vSide = (putAnchor a' as').map Anchor.vSide := by
  cases a <;> cases a'
  · exact has
  · cases ha
  · cases ha
  · exact insertAnchor_vSide (Option.some.inj ha) has

/-- **The store is V-oblivious.** An append of records, tails and anchors with the
same V-side to stores with the same V-side has the same outcome, and leaves
stores with the same V-side. -/
theorem append_vSide {s s' : SpecStore B} (hs : s.vSide = s'.vSide) {r r' : Record B}
    (hr : r.vSide = r'.vSide) {t t' : TailState B} (ht : t.vSide = t'.vSide)
    {a a' : Option (Anchor B)} (ha : a.map Anchor.vSide = a'.map Anchor.vSide) :
    (s.append r t a).1 = (s'.append r' t' a').1 ∧ (s.append r t a).2.vSide = (s'.append r' t' a').2.vSide := by
  simp only [vSide, Prod.mk.injEq] at hs
  have hmax := maxIndex_eq_of_vSide hs.1
  have hidx : r.index = r'.index := congrArg Prod.fst hr
  by_cases hne : maxIndex s.records = r.index - 1
  · rw [append_eq_ok hne, append_eq_ok (by rwa [← hmax, ← hidx])]
    refine ⟨rfl, ?_⟩
    simp only [vSide, List.map_append, List.map_cons, List.map_nil, Option.map_some', hs.1, hr, ht,
      putAnchor_vSide ha hs.2.1]
  · rw [append_eq_error hne, append_eq_error (by rwa [← hmax, ← hidx])]
    exact ⟨by rw [hmax, hidx], by simp only [vSide, hs]⟩

end SpecStore

/-! ## The logger's side -/

namespace Logger

variable {P : Primitives B}

/-- Two loggers that may differ in their T-half only. -/
structure SameVSide (P : Primitives B) (l l' : Logger B) : Prop where
  anchorEvery : l.cfg.anchorEvery = l'.cfg.anchorEvery
  i : l.i = l'.i
  keyV : l.keyV = l'.keyV
  tagV : l.tagV = l'.tagV
  tagT_zero : l.tagT = P.zero ↔ l'.tagT = P.zero

theorem SameVSide.advance {l l' : Logger B} (h : SameVSide P l l') : SameVSide P (l.advance P) (l'.advance P) :=
  ⟨h.anchorEvery, by simp [h.i], by simp [h.keyV], h.tagV, h.tagT_zero⟩

/-- The V-tag reads of the T-half only whether `tagT` is zero. -/
theorem SameVSide.tags_fst {l l' : Logger B} (h : SameVSide P l l') (msg : List UInt8) (ts : Int64) :
    (l.tags P msg ts).1 = (l'.tags P msg ts).1 := by
  have hz : P.isZero32 l.tagT = P.isZero32 l'.tagT := Bool.eq_iff_iff.2 (by simpa using h.tagT_zero)
  simp only [tags, h.i, h.keyV, h.tagV, hz]
  split_ifs <;> rfl

theorem tags_snd_ne_zero (hP : NonzeroTags P) (l : Logger B) (msg : List UInt8) (ts : Int64) :
    (l.tags P msg ts).2 ≠ P.zero := by
  unfold tags
  split
  · exact hP.1 _
  · exact hP.2 _ _

theorem SameVSide.pending {l l' : Logger B} (h : SameVSide P l l') (msg : List UInt8) (ts : Time) :
    (pendingRecord P l msg ts).vSide = (pendingRecord P l' msg ts).vSide ∧
    (pendingTail P l msg ts).vSide = (pendingTail P l' msg ts).vSide ∧
    (pendingAnchor P l msg ts).map Anchor.vSide = (pendingAnchor P l' msg ts).map Anchor.vSide := by
  have ha := h.advance
  have htag := ha.tags_fst msg ts.UnixNano
  refine ⟨?_, ?_, ?_⟩
  · simp only [pendingRecord, Record.vSide, ha.i, htag]
  · simp only [pendingTail, TailState.vSide, ha.i, htag]
  · simp only [pendingAnchor, anchorFor, ha.anchorEvery, ha.i, ha.keyV, htag]
    split_ifs <;> simp only [Option.map_some', Option.map_none', Anchor.vSide]

/-- **Step lemma.** One `Append` on related loggers over stores with the same V-side
returns the same result and keeps both relations. -/
theorem append_sameVSide (hP : NonzeroTags P) {l l' : Logger B} (h : SameVSide P l l')
    {s s' : SpecStore B} (hs : s.vSide = s'.vSide) (msg : List UInt8) (ts : Time) :
    (l.append P SpecStore.store s msg ts).1 = (l'.append P SpecStore.store s' msg ts).1 ∧
    SameVSide P (l.append P SpecStore.store s msg ts).2.1 (l'.append P SpecStore.store s' msg ts).2.1 ∧
    (l.append P SpecStore.store s msg ts).2.2.vSide = (l'.append P SpecStore.store s' msg ts).2.2.vSide := by
  obtain ⟨hr, ht, ha⟩ := h.pending msg ts
  obtain ⟨hres, hst⟩ := SpecStore.append_vSide hs hr ht ha
  have ha' := h.advance
  have htag := ha'.tags_fst msg ts.UnixNano
  rw [append_eq, append_eq]
  simp only [SpecStore.store_append] at hres hst ⊢
  revert hres hst
  cases s.append (pendingRecord P l msg ts) (pendingTail P l msg ts) (pendingAnchor P l msg ts) with
  | mk e₁ s₁ =>
  cases s'.append (pendingRecord P l' msg ts) (pendingTail P l' msg ts) (pendingAnchor P l' msg ts) with
  | mk e₂ s₂ =>
  rintro (rfl : e₁ = e₂) (hst : s₁.vSide = s₂.vSide)
  cases e₁ with
  | some err => exact ⟨rfl, ⟨ha'.anchorEvery, by simp [h.i], ha'.keyV, ha'.tagV, ha'.tagT_zero⟩, hst⟩
  | none =>
    refine ⟨by simp only [ha'.i, htag], ⟨ha'.anchorEvery, ha'.i, ha'.keyV, htag, ?_⟩, hst⟩
    exact iff_of_false (tags_snd_ne_zero hP _ _ _) (tags_snd_ne_zero hP _ _ _)

/-- **Run lemma.** Related loggers over stores with the same V-side, given the same
calls, return the same results and persist the same V-side. -/
theorem run_sameVSide (hP : NonzeroTags P) (ops : List (List UInt8 × Time)) :
    ∀ {l l' : Logger B} {s s' : SpecStore B}, SameVSide P l l' → s.vSide = s'.vSide →
      (l.run P SpecStore.store s ops).1 = (l'.run P SpecStore.store s' ops).1 ∧
      SameVSide P (l.run P SpecStore.store s ops).2.1 (l'.run P SpecStore.store s' ops).2.1 ∧
      (l.run P SpecStore.store s ops).2.2.vSide = (l'.run P SpecStore.store s' ops).2.2.vSide := by
  induction ops with
  | nil => exact fun h hs => ⟨rfl, h, hs⟩
  | cons op ops ih =>
    intro l l' s s' h hs
    obtain ⟨msg, ts⟩ := op
    obtain ⟨hres, hl, hst⟩ := append_sameVSide hP h hs msg ts
    obtain ⟨hrest, hl', hst'⟩ := ih hl hst
    rw [run_cons, run_cons, hres, hrest]
    exact ⟨rfl, hl', hst'⟩

/-! ## Anchors carry keys of the `A_0` chain -/

/-- The logger's `keyV` and every anchor of the store are keys of the chain seeded by `a0`. -/
def KeysOfA (P : Primitives B) (a0 : B) (l : Logger B) (s : SpecStore B) : Prop :=
  (∃ n, l.keyV = P.fwdKeyN n a0) ∧ ∀ a ∈ s.anchors, ∃ n, a.key = P.fwdKeyN n a0

/-- **Step lemma.** `Append` keeps `KeysOfA`: the anchor it hands over carries `keyV`. -/
theorem append_keysOfA {a0 : B} {l : Logger B} {s : SpecStore B} (h : KeysOfA P a0 l s)
    (msg : List UInt8) (ts : Time) :
    KeysOfA P a0 (l.append P SpecStore.store s msg ts).2.1 (l.append P SpecStore.store s msg ts).2.2 := by
  obtain ⟨⟨n, hn⟩, has⟩ := h
  have hkey : (l.advance P).keyV = P.fwdKeyN (n + 1) a0 := by rw [advance_keyV, hn, P.fwdKeyN_succ']
  rw [append_eq]
  simp only [SpecStore.store_append, SpecStore.append]
  split_ifs
  · exact ⟨⟨n + 1, hkey⟩, has⟩
  · refine ⟨⟨n + 1, hkey⟩, fun b hb => ?_⟩
    rcases SpecStore.mem_putAnchor hb with hb | hb
    · exact has b hb
    · simp only [pendingAnchor, anchorFor] at hb
      split_ifs at hb
      obtain rfl := Option.some.inj hb
      exact ⟨n + 1, hkey⟩

/-- **Run lemma.** -/
theorem run_anchor_keys {a0 : B} (ops : List (List UInt8 × Time)) :
    ∀ {l : Logger B} {s : SpecStore B}, KeysOfA P a0 l s →
      KeysOfA P a0 (l.run P SpecStore.store s ops).2.1 (l.run P SpecStore.store s ops).2.2 := by
  induction ops with
  | nil => exact id
  | cons op ops ih =>
    intro l s h
    rw [run_cons]
    exact ih (append_keysOfA h op.1 op.2)

end Logger

/-- **The auditor's view does not depend on `B_0`.** Under primitives whose `htag`
and `fold` never return the zero block, take two loggers made by `New` with the
same `A_0` and `AnchorEvery` and any `B_0`, over the empty store. After every list
of calls they have returned the same entries and errors, and their stores hold
the same V-side: the records' `Index`, `TS`, `Msg` and `TagV`, the anchors' `Index`,
`Key` and `TagV`, and the tail's `Index` and `TagV`. Every anchor's key is a key of
the chain seeded by `A_0`. -/
theorem vSide_independent_of_b0 {P : Primitives B} (hP : NonzeroTags P) (cfg cfg' : Config B)
    (randV randT randV' randT' : Except Error B) (l l' : Logger B)
    (hl : Logger.new P cfg randV randT = .ok l) (hl' : Logger.new P cfg' randV' randT' = .ok l')
    (hevery : cfg.anchorEvery = cfg'.anchorEvery) (ha0 : l.keyV = l'.keyV)
    (ops : List (List UInt8 × Time)) :
    (l.run P SpecStore.store SpecStore.empty ops).1 = (l'.run P SpecStore.store SpecStore.empty ops).1 ∧
    (l.run P SpecStore.store SpecStore.empty ops).2.2.vSide =
      (l'.run P SpecStore.store SpecStore.empty ops).2.2.vSide ∧
    ∀ a ∈ (l.run P SpecStore.store SpecStore.empty ops).2.2.anchors, ∃ n, a.key = P.fwdKeyN n l.keyV := by
  have hn := Logger.new_eq_ok hl
  have hn' := Logger.new_eq_ok hl'
  have hrel : Logger.SameVSide P l l' :=
    ⟨by rw [hn, hn']; exact hevery, by rw [hn, hn'], ha0, by rw [hn, hn'], by rw [hn, hn']⟩
  obtain ⟨hres, -, hst⟩ := Logger.run_sameVSide hP ops hrel rfl
  have hkeys : Logger.KeysOfA P l.keyV l SpecStore.empty :=
    ⟨⟨0, rfl⟩, fun b hb => by simp [SpecStore.empty] at hb⟩
  exact ⟨hres, hst, (Logger.run_anchor_keys ops hkeys).2⟩

/-- Two symbolic loggers with `A_0 = seed 0`, `AnchorEvery = 1` and the `B_0`s `seed 1`
and `seed 2`, after two appends. -/
theorem b0_invisible_after_two_appends :
    NonzeroTags symbolic ∧
    Logger.new symbolic ⟨1, some (.seed 0), some (.seed 1)⟩ (.error .io) (.error .io) =
      .ok (Logger.symbolicNew 1) ∧
    Logger.new symbolic ⟨1, some (.seed 0), some (.seed 2)⟩ (.error .io) (.error .io) =
      .ok ⟨⟨1, some (.seed 0), some (.seed 2)⟩, 0, .seed 0, .seed 2, .zero, .zero⟩ ∧
    ((Logger.symbolicNew 1).run symbolic SpecStore.store SpecStore.empty
        [(bytesOf "a", ⟨5⟩), (bytesOf "b", ⟨6⟩)]).1 =
      ((⟨⟨1, some (.seed 0), some (.seed 2)⟩, 0, .seed 0, .seed 2, .zero, .zero⟩ : Logger Term).run
        symbolic SpecStore.store SpecStore.empty [(bytesOf "a", ⟨5⟩), (bytesOf "b", ⟨6⟩)]).1 ∧
    ((Logger.symbolicNew 1).run symbolic SpecStore.store SpecStore.empty
        [(bytesOf "a", ⟨5⟩), (bytesOf "b", ⟨6⟩)]).2.2.vSide =
      ((⟨⟨1, some (.seed 0), some (.seed 2)⟩, 0, .seed 0, .seed 2, .zero, .zero⟩ : Logger Term).run
        symbolic SpecStore.store SpecStore.empty [(bytesOf "a", ⟨5⟩), (bytesOf "b", ⟨6⟩)]).2.2.vSide ∧
    ∀ a ∈ ((Logger.symbolicNew 1).run symbolic SpecStore.store SpecStore.empty
        [(bytesOf "a", ⟨5⟩), (bytesOf "b", ⟨6⟩)]).2.2.anchors, ∃ n, a.key = symbolic.fwdKeyN n (.seed 0) :=
  ⟨symbolic_ideal.nonzeroTags, rfl, rfl,
    vSide_independent_of_b0 symbolic_ideal.nonzeroTags ⟨1, some (.seed 0), some (.seed 1)⟩
      ⟨1, some (.seed 0), some (.seed 2)⟩ (.error .io) (.error .io) (.error .io) (.error .io) _ _ rfl rfl rfl rfl
      _⟩

end SecureLog
