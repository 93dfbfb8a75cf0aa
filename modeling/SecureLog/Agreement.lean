import SecureLog.FileStore

/- The logger and the verifiers agree on every run.

   The logger decides between `htag` and `fold` by testing `i == 1` and both
   tags zero; the verifiers test `isZero32(prev)` alone. The two tests pick the
   same branch when a zero tag occurs only before the first record
   (`tags_eq_chainStep`), and then each logger step is one verifier step over
   the record it writes. `Honest` is the invariant that says so for a whole run
   over the abstract store: it holds of a new logger over the empty store
   (`honest_new`) and every successful append whose tags are not the zero block
   keeps it (`Honest.append`, `Honest.run`). `logger_verifier_agree` reads the
   tail, the indices and both replays off the invariant at the end of the run. -/
namespace SecureLog

open scoped UInt64.CommRing

variable {B : Type} {P : Primitives B}

namespace Logger

variable {l : Logger B} {s : SpecStore B} {msg : List UInt8} {ts : Time}

/-- A successful `Append` on the abstract store: the record is appended, the tail
set and the anchor inserted, and the logger advanced with the new tags. -/
theorem append_spec_ok {en : Entry B}
    (h : (l.append P SpecStore.store s msg ts).1 = .ok en) :
    (l.append P SpecStore.store s msg ts).2 =
      ({ l.advance P with
          tagV := (pendingRecord P l msg ts).tagV, tagT := (pendingRecord P l msg ts).tagT },
        ⟨s.records ++ [pendingRecord P l msg ts],
          SpecStore.putAnchor (pendingAnchor P l msg ts) s.anchors,
          some (pendingTail P l msg ts)⟩) := by
  rw [append_eq] at h ⊢
  simp only [SpecStore.store, SpecStore.append] at h ⊢
  split_ifs at h ⊢
  rfl

/-- Appends on the abstract store keep every record already held. -/
theorem run_keeps_records (ops : List (List UInt8 × Time)) :
    s.records <+: (l.run P SpecStore.store s ops).2.2.records := by
  induction ops generalizing l s with
  | nil => exact List.prefix_refl _
  | cons op ops ih =>
    obtain ⟨msg, ts⟩ := op
    rw [run_cons]
    refine List.IsPrefix.trans ?_ ih
    rw [append_store]
    exact SpecStore.records_prefix_append _ _ _ _

/-- A run of successful appends on the abstract store adds one record per call. -/
theorem run_ok_length (ops : List (List UInt8 × Time))
    (hok : ∀ res ∈ (l.run P SpecStore.store s ops).1, res.isOk) :
    (l.run P SpecStore.store s ops).2.2.records.length = s.records.length + ops.length := by
  induction ops generalizing l s with
  | nil => rfl
  | cons op ops ih =>
    obtain ⟨msg, ts⟩ := op
    rw [run_cons] at hok ⊢
    obtain ⟨en, hen⟩ : ∃ en, (l.append P SpecStore.store s msg ts).1 = .ok en := by
      have := hok _ (List.mem_cons_self _ _)
      revert this; cases (l.append P SpecStore.store s msg ts).1 <;> simp [Except.isOk, Except.toBool]
    rw [ih (fun res h => hok res (List.mem_cons_of_mem _ h)), append_spec_ok hen]
    simp [Nat.add_assoc, Nat.add_comm 1]

/-- A property of records that the held ones and the record `Append` hands the
abstract store have holds of every record held after the call, whatever its
outcome. -/
theorem append_records_forall (Q : Record B → Prop) (hs : ∀ r ∈ s.records, Q r)
    (hq : Q (pendingRecord P l msg ts)) :
    ∀ r ∈ (l.append P SpecStore.store s msg ts).2.2.records, Q r := by
  rw [append_store]
  show ∀ r ∈ (SpecStore.append s _ _ _).2.records, _
  unfold SpecStore.append
  split
  · exact hs
  · exact List.forall_mem_append.2 ⟨hs, List.forall_mem_singleton.2 hq⟩

/-- A property of records that the held ones and every record a run can hand the
abstract store have holds of every record held after the run. -/
theorem run_records_forall (Q : Record B → Prop) (ops : List (List UInt8 × Time))
    (hs : ∀ r ∈ s.records, Q r) (hq : ∀ l : Logger B, ∀ o ∈ ops, Q (pendingRecord P l o.1 o.2)) :
    ∀ r ∈ (l.run P SpecStore.store s ops).2.2.records, Q r := by
  induction ops generalizing l s with
  | nil => exact hs
  | cons op ops ih =>
    obtain ⟨msg, ts⟩ := op
    rw [run_cons]
    exact ih (append_records_forall Q hs (hq l _ (List.mem_cons_self _ _)))
      fun l o ho => hq l o (List.mem_cons_of_mem _ ho)

/-- Under idealised primitives an append on the abstract store, whatever its
outcome, adds no record with a zero tag. -/
theorem append_records_ne_zero (hP : Ideal P)
    (hs : ∀ r ∈ s.records, r.tagV ≠ P.zero ∧ r.tagT ≠ P.zero) :
    ∀ r ∈ (l.append P SpecStore.store s msg ts).2.2.records, r.tagV ≠ P.zero ∧ r.tagT ≠ P.zero :=
  append_records_forall _ hs (tags_ne_zero hP _ msg _)

/-- Under idealised primitives a run on the abstract store adds no record with a
zero tag. -/
theorem run_records_ne_zero (hP : Ideal P) (ops : List (List UInt8 × Time))
    (hs : ∀ r ∈ s.records, r.tagV ≠ P.zero ∧ r.tagT ≠ P.zero) :
    ∀ r ∈ (l.run P SpecStore.store s ops).2.2.records, r.tagV ≠ P.zero ∧ r.tagT ≠ P.zero :=
  run_records_forall _ ops hs fun _ o _ => tags_ne_zero hP _ o.1 _

/-- The first call of a run whose calls all succeed and whose records never carry
a zero tag: it succeeded with a nonzero record, and the rest is such a run. -/
theorem run_first_call {ops : List (List UInt8 × Time)}
    (hok : ∀ res ∈ (l.run P SpecStore.store s ((msg, ts) :: ops)).1, res.isOk)
    (hnz : ∀ r ∈ (l.run P SpecStore.store s ((msg, ts) :: ops)).2.2.records,
      r.tagV ≠ P.zero ∧ r.tagT ≠ P.zero) :
    ∃ en, (l.append P SpecStore.store s msg ts).1 = .ok en ∧
      (pendingRecord P l msg ts).tagV ≠ P.zero ∧
      (pendingRecord P l msg ts).tagT ≠ P.zero ∧
      (∀ res ∈ ((l.append P SpecStore.store s msg ts).2.1.run P SpecStore.store
        (l.append P SpecStore.store s msg ts).2.2 ops).1, res.isOk) ∧
      ∀ r ∈ ((l.append P SpecStore.store s msg ts).2.1.run P SpecStore.store
        (l.append P SpecStore.store s msg ts).2.2 ops).2.2.records,
        r.tagV ≠ P.zero ∧ r.tagT ≠ P.zero := by
  rw [run_cons] at hok hnz
  obtain ⟨en, hen⟩ : ∃ en, (l.append P SpecStore.store s msg ts).1 = .ok en := by
    have := hok _ (List.mem_cons_self _ _)
    revert this; cases (l.append P SpecStore.store s msg ts).1 <;> simp [Except.isOk, Except.toBool]
  have hmem : pendingRecord P l msg ts ∈
      (run P SpecStore.store (l.append P SpecStore.store s msg ts).2.1
        (l.append P SpecStore.store s msg ts).2.2 ops).2.2.records := by
    refine (run_keeps_records ops).subset ?_
    rw [append_spec_ok hen]
    exact List.mem_append_right _ (List.mem_singleton_self _)
  exact ⟨en, hen, (hnz _ hmem).1, (hnz _ hmem).2, fun res h => hok res (List.mem_cons_of_mem _ h), hnz⟩

/-- The logger's tags are the verifiers' `chainStep` when a zero tag means no
record has been written yet. -/
theorem tags_eq_chainStep (hV : l.tagV = P.zero → l.i = 0 ∧ l.tagT = P.zero)
    (hT : l.tagT = P.zero → l.i = 0 ∧ l.tagV = P.zero) (ts : Int64) :
    (l.advance P).tags P msg ts =
      ((chainStep P l.keyV l.tagV (l.i + 1) ts msg).2,
       (chainStep P l.keyT l.tagT (l.i + 1) ts msg).2) := by
  simp only [tags, advance, chainStep, Primitives.isZero32_iff]
  by_cases zV : l.tagV = P.zero
  · obtain ⟨hi, zT⟩ := hV zV
    simp [zV, zT, hi]
  · have zT : l.tagT ≠ P.zero := fun z => zV (hT z).2
    simp [zV, zT]

end Logger

/-- The index invariant: the logger's index counts the records held, and they carry
the indices `1, …, n`. It needs nothing of the keys or tags, so it survives
`CloseProtocol`, which zeroes the keys. -/
structure Indexed (l : Logger B) (s : SpecStore B) : Prop where
  index : l.i = (s.records.length : UInt64)
  indices : s.records.map Record.index =
    (List.range s.records.length).map (fun j => ((j + 1 : ℕ) : UInt64))

namespace Indexed

variable {l : Logger B} {s : SpecStore B} {msg : List UInt8} {ts : Time}

theorem empty (hi : l.i = 0) : Indexed l (SpecStore.empty : SpecStore B) := ⟨hi, rfl⟩

/-- Below `2^64` records the abstract store accepts the logger's next record,
whatever its keys and tags. -/
theorem append_ok (hi : Indexed l s) (hlen : s.records.length < 2 ^ 64)
    (msg : List UInt8) (ts : Time) : ∃ en, (l.append P SpecStore.store s msg ts).1 = .ok en := by
  have hmax : SpecStore.maxIndex s.records = (Logger.pendingRecord P l msg ts).index - 1 := by
    rw [SpecStore.maxIndex_of_indices hi.indices hlen, ← hi.index]
    simp [Logger.pendingRecord]
  rw [Logger.append_eq]
  simp only [SpecStore.store, SpecStore.append_eq_ok hmax]
  exact ⟨_, rfl⟩

/-- **Step lemma.** A successful append keeps the index invariant. -/
theorem of_append_ok {en : Entry B} (hi : Indexed l s)
    (h : (l.append P SpecStore.store s msg ts).1 = .ok en) :
    Indexed (l.append P SpecStore.store s msg ts).2.1 (l.append P SpecStore.store s msg ts).2.2 := by
  rw [Logger.append_spec_ok h]
  constructor
  · simp [hi.index]
  · simp [List.range_succ, hi.indices, Logger.pendingRecord, hi.index]

variable (P) in
/-- Below `2^64` records the logger's next append succeeds, keeps the index
invariant and appends its record. -/
theorem append_step (hi : Indexed l s) (hlen : s.records.length < 2 ^ 64)
    (msg : List UInt8) (ts : Time) :
    ∃ en l' s', l.append P SpecStore.store s msg ts = (.ok en, l', s') ∧ Indexed l' s' ∧
      s'.records = s.records ++ [Logger.pendingRecord P l msg ts] := by
  obtain ⟨en, hen⟩ := hi.append_ok hlen msg ts
  have hrec : (l.append P SpecStore.store s msg ts).2.2.records =
      s.records ++ [Logger.pendingRecord P l msg ts] := by rw [Logger.append_spec_ok hen]
  exact ⟨en, _, _, Prod.ext hen rfl, hi.of_append_ok hen, hrec⟩

end Indexed

/-- The run invariant of a logger from seeds `a0`, `b0` over the abstract store. -/
structure Honest (P : Primitives B) (a0 b0 : B) (l : Logger B) (s : SpecStore B) : Prop where
  index : l.i = (s.records.length : UInt64)
  keyV : l.keyV = P.fwdKeyN s.records.length a0
  keyT : l.keyT = P.fwdKeyN s.records.length b0
  indices : s.records.map Record.index = (List.range s.records.length).map (fun j => ((j + 1 : ℕ) : UInt64))
  replayV : verifyFrom P s.records 0 a0 P.zero = (l.tagV, none)
  replayT : verifyFromTrusted P s.records 0 b0 P.zero = (l.tagT, none)
  tagV_zero : l.tagV = P.zero ↔ s.records = []
  tagT_zero : l.tagT = P.zero ↔ s.records = []
  tail : s.tail = if s.records.isEmpty then none else some ⟨l.i, l.tagV, l.tagT⟩

/-- A replay from the origin that got through `rs` continues over `ys` from the key
after `rs` and the last tag (the zero block when `rs` is empty). -/
theorem replay_append {c : Bool} {rs : List (Record B)} {k0 t : B} (ys : List (Record B))
    (h : verifyChain P rs 0 k0 P.zero c = (t, none)) :
    verifyChain P (rs ++ ys) 0 k0 P.zero c =
      verifyLoop P c ys (P.fwdKeyN rs.length k0) t rs.length t := by
  rw [verifyChain, verifyLoop_append_of_ok ys h, zero_add]

/-- The record a logger writes passes one verifier step from the logger's own key,
tag and index. -/
theorem Logger.verifyLoop_pending {l : Logger B} {msg : List UInt8} {ts : Time} (c : Bool)
    (hV : l.tagV = P.zero → l.i = 0 ∧ l.tagT = P.zero)
    (hT : l.tagT = P.zero → l.i = 0 ∧ l.tagV = P.zero) :
    verifyLoop P c [Logger.pendingRecord P l msg ts] (if c then l.keyV else l.keyT)
        (if c then l.tagV else l.tagT) l.i (if c then l.tagV else l.tagT) =
      (storedTag c (Logger.pendingRecord P l msg ts), none) := by
  have htags : (l.advance P).tags P msg ts.UnixNano = _ := Logger.tags_eq_chainStep hV hT ts.UnixNano
  rw [verifyLoop_cons_ok rfl]
  · rfl
  · cases c <;> simp [storedTag, Logger.pendingRecord, htags]

theorem honest_new {cfg : Config B} {randV randT : Except Error B} {l : Logger B}
    (h : Logger.new P cfg randV randT = .ok l) : Honest P l.keyV l.keyT l SpecStore.empty := by
  rw [Logger.new_eq_ok h]
  constructor <;> simp [SpecStore.empty, verifyFrom, verifyFromTrusted]

namespace Honest

variable {a0 b0 : B} {l : Logger B} {s : SpecStore B}

/-- A zero verifier tag means nothing has been written: index 0, zero trusted tag. -/
theorem tagV_zero_first (hh : Honest P a0 b0 l s) (z : l.tagV = P.zero) :
    l.i = 0 ∧ l.tagT = P.zero := by
  have e := hh.tagV_zero.1 z
  exact ⟨by rw [hh.index, e]; rfl, hh.tagT_zero.2 e⟩

theorem tagT_zero_first (hh : Honest P a0 b0 l s) (z : l.tagT = P.zero) :
    l.i = 0 ∧ l.tagV = P.zero := by
  have e := hh.tagT_zero.1 z
  exact ⟨by rw [hh.index, e]; rfl, hh.tagV_zero.2 e⟩

/-- **Step lemma.** A successful append whose two tags are not the zero block keeps
the invariant. -/
theorem append {msg : List UInt8} {ts : Time} {en : Entry B} (hh : Honest P a0 b0 l s)
    (h : (l.append P SpecStore.store s msg ts).1 = .ok en)
    (hV : (Logger.pendingRecord P l msg ts).tagV ≠ P.zero)
    (hT : (Logger.pendingRecord P l msg ts).tagT ≠ P.zero) :
    Honest P a0 b0 (l.append P SpecStore.store s msg ts).2.1
      (l.append P SpecStore.store s msg ts).2.2 := by
  have hi := (Indexed.mk hh.index hh.indices).of_append_ok h
  rw [Logger.append_spec_ok h] at hi ⊢
  have aV := hh.tagV_zero_first
  have aT := hh.tagT_zero_first
  constructor
  · exact hi.index
  · simp [hh.keyV, P.fwdKeyN_succ']
  · simp [hh.keyT, P.fwdKeyN_succ']
  · exact hi.indices
  · rw [verifyFrom, verifyChain, ← verifyChain, replay_append _ hh.replayV, ← hh.keyV, ← hh.index]
    exact Logger.verifyLoop_pending true aV aT
  · rw [verifyFromTrusted, verifyChain, ← verifyChain, replay_append _ hh.replayT, ← hh.keyT,
      ← hh.index]
    exact Logger.verifyLoop_pending false aV aT
  · simpa using hV
  · simpa using hT
  · simp [Logger.pendingTail, Logger.pendingRecord]

/-- **Run lemma.** A run of successful appends whose tags are never the zero block
keeps the invariant. -/
theorem run (hh : Honest P a0 b0 l s) (ops : List (List UInt8 × Time))
    (hok : ∀ res ∈ (l.run P SpecStore.store s ops).1, res.isOk)
    (hnz : ∀ r ∈ (l.run P SpecStore.store s ops).2.2.records, r.tagV ≠ P.zero ∧ r.tagT ≠ P.zero) :
    Honest P a0 b0 (l.run P SpecStore.store s ops).2.1 (l.run P SpecStore.store s ops).2.2 := by
  induction ops generalizing l s with
  | nil => exact hh
  | cons op ops ih =>
    obtain ⟨msg, ts⟩ := op
    obtain ⟨en, hen, hV, hT, hok', hnz'⟩ := Logger.run_first_call hok hnz
    rw [Logger.run_cons]
    exact ih (hh.append hen hV hT) hok' hnz'

/-- Under idealised primitives no held record carries a zero tag: each passed a
replay step, and a step yields `htag` or `fold`. -/
theorem records_tags_ne_zero (hP : Ideal P) (hh : Honest P a0 b0 l s) :
    ∀ r ∈ s.records, r.tagV ≠ P.zero ∧ r.tagT ≠ P.zero := fun r hr =>
  ⟨verifyLoop_ok_ne_zero hP hh.replayV r hr, verifyLoop_ok_ne_zero hP hh.replayT r hr⟩

/-- The last held record carries the logger's index. -/
theorem last_index (hh : Honest P a0 b0 l s) {r : Record B} (hr : s.records.getLast? = some r) :
    r.index = l.i := by
  have h := congrArg List.getLast? hh.indices
  rw [List.getLast?_map, List.getLast?_map, hr, List.getLast?_range] at h
  split_ifs at h with hn
  · cases h
  · simp only [Option.map_some', Option.some.injEq] at h
    rw [h, hh.index, Nat.sub_add_cancel (Nat.pos_of_ne_zero hn)]

/-- The index invariant of an honest state. -/
theorem indexed (hh : Honest P a0 b0 l s) : Indexed l s := ⟨hh.index, hh.indices⟩

/-- Every held record's index is one of `1, …, n` (as `uint64`). -/
theorem index_mem (hh : Honest P a0 b0 l s) {r : Record B} (hr : r ∈ s.records) :
    ∃ j < s.records.length, r.index = ((j + 1 : ℕ) : UInt64) := by
  have : r.index ∈ (List.range s.records.length).map (fun j => ((j + 1 : ℕ) : UInt64)) := by
    rw [← hh.indices]; exact List.mem_map_of_mem _ hr
  obtain ⟨j, hj, e⟩ := List.mem_map.1 this
  exact ⟨j, List.mem_range.1 hj, e.symm⟩

/-- Below `2^64` records no index is 0, so the records from index 1 are all of them. -/
theorem iter_one (hh : Honest P a0 b0 l s) (hlen : s.records.length < 2 ^ 64) :
    s.iter 1 = s.records := by
  refine List.filter_eq_self.2 fun r hr => ?_
  obtain ⟨j, hj, e⟩ := hh.index_mem hr
  rw [e, decide_eq_true_iff, uint64_le_iff, uint64_toNat_natCast,
    show (1 : UInt64).toNat = 1 from rfl]
  omega

/-- **Step lemma, idealised.** Under idealised primitives and below `2^64` records,
an append succeeds, adds one record and keeps the invariant. -/
theorem append_ideal (hP : Ideal P) (hh : Honest P a0 b0 l s) (hlen : s.records.length < 2 ^ 64)
    (msg : List UInt8) (ts : Time) :
    ∃ en l' s', l.append P SpecStore.store s msg ts = (.ok en, l', s') ∧ Honest P a0 b0 l' s' ∧
      s'.records.length = s.records.length + 1 := by
  obtain ⟨en, hen⟩ := hh.indexed.append_ok hlen msg ts
  have hnz := Logger.tags_ne_zero hP (l.advance P) msg ts.UnixNano
  have len : (l.append P SpecStore.store s msg ts).2.2.records.length = s.records.length + 1 := by
    rw [Logger.append_spec_ok hen, List.length_append, List.length_singleton]
  exact ⟨en, _, _, Prod.ext hen rfl, hh.append hen hnz.1 hnz.2, len⟩

/-- **Run lemma, idealised.** Under idealised primitives, while the store holds at
most `2^64` records, every append of a run succeeds and keeps the invariant. -/
theorem run_ideal (hP : Ideal P) (hh : Honest P a0 b0 l s) (ops : List (List UInt8 × Time))
    (hlen : s.records.length + ops.length ≤ 2 ^ 64) :
    ∃ results l' s', l.run P SpecStore.store s ops = (results, l', s') ∧
      (∀ res ∈ results, res.isOk) ∧ Honest P a0 b0 l' s' ∧
      s'.records.length = s.records.length + ops.length := by
  induction ops generalizing l s with
  | nil => exact ⟨[], l, s, rfl, by simp, hh, rfl⟩
  | cons op ops ih =>
    obtain ⟨msg, ts⟩ := op
    rw [List.length_cons] at hlen
    obtain ⟨en, l₁, s₁, hA, hh₁, len₁⟩ := hh.append_ideal hP (by omega) msg ts
    obtain ⟨results, l', s', hR, hok, hh', len'⟩ := ih hh₁ (by omega)
    refine ⟨.ok en :: results, l', s', ?_, List.forall_mem_cons.2 ⟨rfl, hok⟩, hh', ?_⟩
    · simp only [Logger.run_cons, hA, hR]
    · rw [len', len₁, List.length_cons]; omega

end Honest

/-- A run of a logger made by `New` whose calls all succeed and whose records carry
no zero tag leaves an honest store of one record per call. -/
theorem honest_of_new_run {cfg : Config B} {randV randT : Except Error B} {l₀ l : Logger B}
    {s : SpecStore B} {results : List (Except Error (Entry B))}
    (hnew : Logger.new P cfg randV randT = .ok l₀) (ops : List (List UInt8 × Time))
    (hrun : l₀.run P SpecStore.store SpecStore.empty ops = (results, l, s))
    (hok : ∀ res ∈ results, res.isOk) (hnz : ∀ r ∈ s.records, r.tagV ≠ P.zero ∧ r.tagT ≠ P.zero) :
    Honest P l₀.keyV l₀.keyT l s ∧ s.records.length = ops.length := by
  have hok' : ∀ res ∈ (l₀.run P SpecStore.store SpecStore.empty ops).1, res.isOk := by
    rw [hrun]; exact hok
  have hh := (honest_new hnew).run ops hok' (by rw [hrun]; exact hnz)
  have hlen := Logger.run_ok_length ops hok'
  rw [hrun] at hh hlen
  exact ⟨hh, by simpa [SpecStore.empty] using hlen⟩

/-- **Logger and verifiers agree on every run.** A logger made by `New` appends any
`n ≥ 1` entries to an empty store, every call succeeding, with no aggregate tag
the zero block. Then the records carry indices `1..n`, both replays from the
seeds return the tail's tags with no error, the tail's index is `n`, and
`LastState` is the tail. The same run over the file store, from empty files,
returns the same results and leaves the files of that store: its `Tail` is the
same tail, and its `Iter(1)`, for messages shorter than `2^32` bytes, the same
records. -/
theorem logger_verifier_agree (C : BlockCodec B) {cfg : Config B} {randV randT : Except Error B}
    {l₀ l : Logger B}
    {s : SpecStore B} {results : List (Except Error (Entry B))}
    (hnew : Logger.new P cfg randV randT = .ok l₀) (ops : List (List UInt8 × Time))
    (hne : ops ≠ []) (hrun : l₀.run P SpecStore.store SpecStore.empty ops = (results, l, s))
    (hok : ∀ res ∈ results, res.isOk)
    (hnz : ∀ r ∈ s.records, r.tagV ≠ P.zero ∧ r.tagT ≠ P.zero) :
    ∃ t, s.tail = some t ∧
      s.records.map Record.index = (List.range ops.length).map (fun j => ((j + 1 : ℕ) : UInt64)) ∧
      verifyFrom P s.records 0 l₀.keyV P.zero = (t.tagV, none) ∧
      verifyFromTrusted P s.records 0 l₀.keyT P.zero = (t.tagT, none) ∧
      t.index = (ops.length : UInt64) ∧ l.lastState = (t.index, t.tagV, t.tagT) ∧
      (ops.length < 2 ^ 64 →
        l₀.run P (fileStore C) FileStore.empty ops = (results, l, FileStore.ofSpec C s) ∧
        (fileStore C).tail (FileStore.ofSpec C s) = .ok (some t) ∧
        ((∀ o ∈ ops, o.1.length < 2 ^ 32) →
          (fileStore C).iter (FileStore.ofSpec C s) 1 = .ok s.records)) := by
  obtain ⟨hh, hlen⟩ := honest_of_new_run hnew ops hrun hok hnz
  have hs : s.records ≠ [] := fun h => hne (List.length_eq_zero.1 (by rw [← hlen, h]; rfl))
  have htail : s.tail = some ⟨l.i, l.tagV, l.tagT⟩ := by simp [hh.tail, hs]
  refine ⟨⟨l.i, l.tagV, l.tagT⟩, htail, ?_, hh.replayV, hh.replayT, ?_, rfl, fun hn => ?_⟩
  · rw [hh.indices, hlen]
  · rw [hh.index, hlen]
  · -- the file store steps as the design's store from its empty files
    have hfile := (Logger.run_fileStore_ofSpec C P l₀ SpecStore.filed_empty ops
      (by simpa [SpecStore.empty] using hn)).1
    rw [hrun] at hfile
    refine ⟨hfile, by rw [fileStore_tail_ofSpec, htail], fun hsmall => ?_⟩
    have hmsg := Logger.run_records_forall (fun r => r.msg.length < 2 ^ 32) ops
      (P := P) (l := l₀) (s := SpecStore.empty) (by simp [SpecStore.empty]) fun _ => hsmall
    rw [hrun] at hmsg
    rw [fileStore_iter_ofSpec C s hmsg, hh.iter_one (by rw [hlen]; exact hn)]

/-- A logger with `AnchorEvery = 1` and the seed `Block32.unit` for both chains, as
`New` makes it. -/
def unitLogger : Logger Block32 :=
  ⟨⟨1, some Block32.unit, some Block32.unit⟩, 0, Block32.unit, Block32.unit, Block32.zero, Block32.zero⟩

/-- One append of `unitLogger` over the primitives that return their first
argument: every tag is the seed, so none is the zero block. -/
theorem logger_verifier_agree_one_entry :
    ∃ t, (unitLogger.run Block32.firstPrimitives SpecStore.store SpecStore.empty
          [(bytesOf "a", ⟨5⟩)]).2.2.tail = some t ∧
      (unitLogger.run Block32.firstPrimitives SpecStore.store SpecStore.empty
          [(bytesOf "a", ⟨5⟩)]).2.2.records.map Record.index =
        (List.range 1).map (fun j => ((j + 1 : ℕ) : UInt64)) ∧
      verifyFrom Block32.firstPrimitives (unitLogger.run Block32.firstPrimitives SpecStore.store
          SpecStore.empty [(bytesOf "a", ⟨5⟩)]).2.2.records 0 Block32.unit Block32.zero = (t.tagV, none) ∧
      verifyFromTrusted Block32.firstPrimitives (unitLogger.run Block32.firstPrimitives SpecStore.store
          SpecStore.empty [(bytesOf "a", ⟨5⟩)]).2.2.records 0 Block32.unit Block32.zero = (t.tagT, none) ∧
      t.index = ((1 : ℕ) : UInt64) ∧
      (unitLogger.run Block32.firstPrimitives SpecStore.store SpecStore.empty
          [(bytesOf "a", ⟨5⟩)]).2.1.lastState = (t.index, t.tagV, t.tagT) ∧
      ([(bytesOf "a", (⟨5⟩ : Time))].length < 2 ^ 64 →
        unitLogger.run Block32.firstPrimitives (fileStore Block32.codec) FileStore.empty
            [(bytesOf "a", ⟨5⟩)] =
          ((unitLogger.run Block32.firstPrimitives SpecStore.store SpecStore.empty
              [(bytesOf "a", ⟨5⟩)]).1,
            (unitLogger.run Block32.firstPrimitives SpecStore.store SpecStore.empty
              [(bytesOf "a", ⟨5⟩)]).2.1,
            FileStore.ofSpec Block32.codec (unitLogger.run Block32.firstPrimitives SpecStore.store
              SpecStore.empty [(bytesOf "a", ⟨5⟩)]).2.2) ∧
        (fileStore Block32.codec).tail (FileStore.ofSpec Block32.codec
            (unitLogger.run Block32.firstPrimitives SpecStore.store SpecStore.empty
              [(bytesOf "a", ⟨5⟩)]).2.2) = .ok (some t) ∧
        ((∀ o ∈ [(bytesOf "a", (⟨5⟩ : Time))], o.1.length < 2 ^ 32) →
          (fileStore Block32.codec).iter (FileStore.ofSpec Block32.codec
              (unitLogger.run Block32.firstPrimitives SpecStore.store SpecStore.empty
                [(bytesOf "a", ⟨5⟩)]).2.2) 1 =
            .ok (unitLogger.run Block32.firstPrimitives SpecStore.store SpecStore.empty
              [(bytesOf "a", ⟨5⟩)]).2.2.records)) := by
  have hok : ∀ res ∈ (unitLogger.run Block32.firstPrimitives SpecStore.store SpecStore.empty
      [(bytesOf "a", ⟨5⟩)]).1, res.isOk := by decide
  have hnz : ∀ r ∈ (unitLogger.run Block32.firstPrimitives SpecStore.store SpecStore.empty
      [(bytesOf "a", ⟨5⟩)]).2.2.records, r.tagV ≠ Block32.zero ∧ r.tagT ≠ Block32.zero := by decide
  exact logger_verifier_agree Block32.codec
    (show Logger.new Block32.firstPrimitives ⟨1, some Block32.unit, some Block32.unit⟩
      (.ok Block32.zero) (.ok Block32.zero) = .ok unitLogger from rfl) _ (List.cons_ne_nil _ _)
    (Prod.mk.eta.symm.trans (congrArg (Prod.mk _) Prod.mk.eta.symm)) hok hnz

end SecureLog
