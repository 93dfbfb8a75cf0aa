import SecureLog.Store

/- `VerifyChain` (`part_006`): the replay of one MAC chain over a record list.

   The loop keeps four variables: the evolving key, the previous aggregate
   `prev`, the expected index, and the named result `lastTag`, which Go
   zero-initialises and the loop sets only after a record verifies. So the
   replay returns `lastTag`, and over no records that is the zero block, not the
   start tag (`verifyChain_nil`).

   `chainStep` is one record's worth of the recurrence shared by the logger and
   the verifiers; `verifyLoop_cons_ok` and `verifyLoop_cons_gap` /
   `verifyLoop_cons_mismatch` are the loop's three outcomes on a record. -/
namespace SecureLog

open scoped UInt64.CommRing

variable {B : Type} (P : Primitives B)

/-- The MAC input `be64(Index) ‖ be64(uint64(TS)) ‖ Msg`, as its three chunks. -/
def macChunks (index : UInt64) (ts : Int64) (msg : List UInt8) : List (List UInt8) :=
  [be64 index, be64 ts.toUInt64, msg]

/-- One step of a chain from key `key` and aggregate `prev`: evolve the key, MAC
the entry, and fold the MAC into the aggregate (`htag` when `prev` is zero). -/
def chainStep (key prev : B) (index : UInt64) (ts : Int64) (msg : List UInt8) : B × B :=
  let key := P.fwdKey key
  let macVal := P.mac key (macChunks index ts msg)
  (key, if P.isZero32 prev then P.htag macVal else P.fold prev macVal)

/-- The stored tag a chain compares against: `TagV` for the verifier chain. -/
def storedTag (useVerifierChain : Bool) (r : Record B) : B :=
  if useVerifierChain then r.tagV else r.tagT

/-- The loop of `VerifyChain` over `key`, `prev`, `expect` and `lastTag`. -/
def verifyLoop (useVerifierChain : Bool) :
    List (Record B) → B → B → UInt64 → B → B × Option Error
  | [], _, _, _, lastTag => (lastTag, none)
  | r :: rs, key, prev, expect, lastTag =>
    if r.index ≠ expect + 1 then (lastTag, some .gap)
    else
      let (key, tag) := chainStep P key prev r.index r.ts r.msg
      if !P.equal tag (storedTag useVerifierChain r) then (lastTag, some .tagMismatch)
      else verifyLoop useVerifierChain rs key tag (expect + 1) tag

/-- `VerifyChain(records, startIdx, kStart, tStart, useVerifierChain)`. -/
def verifyChain (records : List (Record B)) (startIdx : UInt64) (kStart tStart : B)
    (useVerifierChain : Bool) : B × Option Error :=
  verifyLoop P useVerifierChain records kStart tStart startIdx P.zero

/-- `VerifyFrom`: the V-chain. -/
def verifyFrom (records : List (Record B)) (startIdx : UInt64) (kStart tStart : B) :
    B × Option Error :=
  verifyChain P records startIdx kStart tStart true

/-- `VerifyFromTrusted`: the T-chain. -/
def verifyFromTrusted (records : List (Record B)) (startIdx : UInt64) (kStart tStart : B) :
    B × Option Error :=
  verifyChain P records startIdx kStart tStart false

section Loop

variable {P} {c : Bool} {r : Record B} {rs : List (Record B)} {key prev : B} {expect : UInt64}
  {lastTag : B}

@[simp] theorem verifyLoop_nil : verifyLoop P c [] key prev expect lastTag = (lastTag, none) := rfl

theorem verifyLoop_cons_gap (h : r.index ≠ expect + 1) :
    verifyLoop P c (r :: rs) key prev expect lastTag = (lastTag, some .gap) := by
  simp [verifyLoop, h]

theorem verifyLoop_cons_mismatch (h : r.index = expect + 1)
    (hne : (chainStep P key prev r.index r.ts r.msg).2 ≠ storedTag c r) :
    verifyLoop P c (r :: rs) key prev expect lastTag = (lastTag, some .tagMismatch) := by
  rw [h] at hne
  simp [verifyLoop, h, hne]

theorem verifyLoop_cons_ok (h : r.index = expect + 1)
    (heq : (chainStep P key prev r.index r.ts r.msg).2 = storedTag c r) :
    verifyLoop P c (r :: rs) key prev expect lastTag =
      verifyLoop P c rs (chainStep P key prev r.index r.ts r.msg).1 (storedTag c r)
        (expect + 1) (storedTag c r) := by
  rw [h] at heq ⊢
  simp [verifyLoop, h, heq]

/-- A replay that succeeds over `r :: rs` passed `r` and then succeeded over `rs`. -/
theorem verifyLoop_cons_eq_ok {t : B}
    (h : verifyLoop P c (r :: rs) key prev expect lastTag = (t, none)) :
    r.index = expect + 1 ∧ (chainStep P key prev r.index r.ts r.msg).2 = storedTag c r ∧
      verifyLoop P c rs (chainStep P key prev r.index r.ts r.msg).1 (storedTag c r)
        (expect + 1) (storedTag c r) = (t, none) := by
  by_cases hi : r.index = expect + 1
  · by_cases heq : (chainStep P key prev r.index r.ts r.msg).2 = storedTag c r
    · exact ⟨hi, heq, by rwa [verifyLoop_cons_ok hi heq] at h⟩
    · rw [verifyLoop_cons_mismatch hi heq] at h; cases h
  · rw [verifyLoop_cons_gap hi] at h; cases h

/-- A replay that got through `rs` continues over `ys` from where it stopped: the
key evolved once per record, the last tag as both `prev` and `lastTag`. -/
theorem verifyLoop_append {t : B} (ys : List (Record B)) (hne : rs ≠ [])
    (h : verifyLoop P c rs key prev expect lastTag = (t, none)) :
    verifyLoop P c (rs ++ ys) key prev expect lastTag =
      verifyLoop P c ys (P.fwdKeyN rs.length key) t (expect + (rs.length : UInt64)) t := by
  induction rs generalizing key prev expect lastTag with
  | nil => exact absurd rfl hne
  | cons r rs ih =>
    obtain ⟨hi, heq, h⟩ := verifyLoop_cons_eq_ok h
    rw [List.cons_append, verifyLoop_cons_ok hi heq, List.length_cons, P.fwdKeyN_succ,
      show expect + ((rs.length + 1 : ℕ) : UInt64) = expect + 1 + rs.length by
        push_cast; rw [add_comm (rs.length : UInt64) 1, add_assoc]]
    rcases rs with _ | ⟨r', rs⟩
    · simp only [verifyLoop_nil, Prod.mk.injEq] at h
      simp [h.1, chainStep]
    · exact ih (List.cons_ne_nil _ _) h

/-- The same from `prev = lastTag`, where `rs` may be empty. -/
theorem verifyLoop_append_of_ok {t : B} (ys : List (Record B))
    (h : verifyLoop P c rs key prev expect prev = (t, none)) :
    verifyLoop P c (rs ++ ys) key prev expect prev =
      verifyLoop P c ys (P.fwdKeyN rs.length key) t (expect + (rs.length : UInt64)) t := by
  rcases rs with _ | ⟨r, rs⟩
  · simp only [verifyLoop_nil, Prod.mk.injEq] at h
    simp [← h.1]
  · exact verifyLoop_append ys (List.cons_ne_nil _ _) h

/-- A replay that gets through a nonempty list returns its last stored tag,
whatever `lastTag` it started with. -/
theorem verifyLoop_lastTag {t : B} (lastTag' : B) (hne : rs ≠ [])
    (h : verifyLoop P c rs key prev expect lastTag = (t, none)) :
    verifyLoop P c rs key prev expect lastTag' = (t, none) := by
  obtain ⟨r, rs, rfl⟩ := List.exists_cons_of_ne_nil hne
  obtain ⟨hi, heq, h⟩ := verifyLoop_cons_eq_ok h
  rwa [verifyLoop_cons_ok hi heq]

/-- A replay that succeeds over `rs ++ ys` succeeded over `rs`. -/
theorem verifyLoop_append_left_ok {t : B} {ys : List (Record B)}
    (h : verifyLoop P c (rs ++ ys) key prev expect lastTag = (t, none)) :
    ∃ t', verifyLoop P c rs key prev expect lastTag = (t', none) := by
  induction rs generalizing key prev expect lastTag with
  | nil => exact ⟨lastTag, rfl⟩
  | cons r rs ih =>
    rw [List.cons_append] at h
    obtain ⟨hi, heq, h⟩ := verifyLoop_cons_eq_ok h
    rw [verifyLoop_cons_ok hi heq]
    exact ih h

/-- The last step of a replay from `prev = lastTag`: the prefix replays to some
`t'`, and the last record carries the step from `t'`, which is the result. -/
theorem verifyLoop_snoc_eq_ok {t : B} {x : Record B}
    (h : verifyLoop P c (rs ++ [x]) key prev expect prev = (t, none)) :
    ∃ t', verifyLoop P c rs key prev expect prev = (t', none) ∧ t = storedTag c x ∧
      (chainStep P (P.fwdKeyN rs.length key) t' x.index x.ts x.msg).2 = storedTag c x := by
  obtain ⟨t', h'⟩ := verifyLoop_append_left_ok h
  rw [verifyLoop_append_of_ok [x] h'] at h
  obtain ⟨-, heq, h⟩ := verifyLoop_cons_eq_ok h
  simp only [verifyLoop_nil, Prod.mk.injEq] at h
  exact ⟨t', h', h.1.symm, heq⟩

/-- A prefix the replay gets through leaves a loop state from which any
continuation is replayed. -/
theorem verifyLoop_prefix_state {t : B}
    (h : verifyLoop P c rs key prev expect lastTag = (t, none)) :
    ∃ key' prev' expect' lastTag', ∀ ys, verifyLoop P c (rs ++ ys) key prev expect lastTag =
      verifyLoop P c ys key' prev' expect' lastTag' := by
  rcases rs with _ | ⟨r, rs⟩
  · exact ⟨key, prev, expect, lastTag, fun _ => rfl⟩
  · exact ⟨_, _, _, _, fun ys => verifyLoop_append ys (List.cons_ne_nil _ _) h⟩

/-- A replay that fails over `rs` fails the same way over `rs ++ ys`. -/
theorem verifyLoop_append_of_error {t : B} {e : Error} (ys : List (Record B))
    (h : verifyLoop P c rs key prev expect lastTag = (t, some e)) :
    verifyLoop P c (rs ++ ys) key prev expect lastTag = (t, some e) := by
  induction rs generalizing key prev expect lastTag with
  | nil => cases h
  | cons r rs ih =>
    rw [List.cons_append]
    by_cases hi : r.index = expect + 1
    · by_cases heq : (chainStep P key prev r.index r.ts r.msg).2 = storedTag c r
      · rw [verifyLoop_cons_ok hi heq] at h ⊢
        exact ih h
      · rwa [verifyLoop_cons_mismatch hi heq] at h ⊢
    · rwa [verifyLoop_cons_gap hi] at h ⊢

/-- The replay's error does not depend on the initial `lastTag`: the loop only
returns it, and overwrites it after the first record. -/
theorem verifyLoop_error_indep (lastTag' : B) :
    (verifyLoop P c rs key prev expect lastTag).2 = (verifyLoop P c rs key prev expect lastTag').2 := by
  rcases rs with _ | ⟨r, rs⟩
  · rfl
  · by_cases hi : r.index = expect + 1
    · by_cases heq : (chainStep P key prev r.index r.ts r.msg).2 = storedTag c r
      · rw [verifyLoop_cons_ok hi heq, verifyLoop_cons_ok hi heq]
      · rw [verifyLoop_cons_mismatch hi heq, verifyLoop_cons_mismatch hi heq]
    · rw [verifyLoop_cons_gap hi, verifyLoop_cons_gap hi]

/-- The replay reports no error, a gap or a tag mismatch, nothing else. -/
theorem verifyLoop_error_cases :
    (verifyLoop P c rs key prev expect lastTag).2 = none ∨
      (verifyLoop P c rs key prev expect lastTag).2 = some .gap ∨
      (verifyLoop P c rs key prev expect lastTag).2 = some .tagMismatch := by
  induction rs generalizing key prev expect lastTag with
  | nil => exact Or.inl rfl
  | cons r rs ih =>
    by_cases hi : r.index = expect + 1
    · by_cases heq : (chainStep P key prev r.index r.ts r.msg).2 = storedTag c r
      · rw [verifyLoop_cons_ok hi heq]
        exact ih
      · rw [verifyLoop_cons_mismatch hi heq]
        exact Or.inr (Or.inr rfl)
    · rw [verifyLoop_cons_gap hi]
      exact Or.inr (Or.inl rfl)

/-- Under idealised primitives a chain step never yields the zero block. -/
theorem chainStep_ne_zero (hP : Ideal P) (index : UInt64) (ts : Int64) (msg : List UInt8) :
    (chainStep P key prev index ts msg).2 ≠ P.zero := by
  dsimp only [chainStep]
  split
  · exact hP.htag_ne_zero _
  · exact hP.fold_ne_zero _ _

/-- Under idealised primitives a replay that succeeds passed no zero tag. -/
theorem verifyLoop_ok_ne_zero (hP : Ideal P) {t : B}
    (h : verifyLoop P c rs key prev expect lastTag = (t, none)) :
    ∀ r ∈ rs, storedTag c r ≠ P.zero := by
  induction rs generalizing key prev expect lastTag with
  | nil => simp
  | cons r rs ih =>
    obtain ⟨-, heq, h⟩ := verifyLoop_cons_eq_ok h
    exact List.forall_mem_cons.2 ⟨heq ▸ chainStep_ne_zero hP _ _ _, ih h⟩

end Loop

/-- Over no records the replay returns the zero block, whatever the start tag. -/
@[simp] theorem verifyChain_nil (startIdx : UInt64) (kStart tStart : B) (c : Bool) :
    verifyChain P [] startIdx kStart tStart c = (P.zero, none) := rfl

/-- **Replay can be split anywhere.** If the replay of `xs` fails, the replay of
`xs ++ ys` returns the same result. Otherwise it reports what the replay of `ys`
reports when resumed at the checkpoint after `xs`: the index moved on by `|xs|`,
the key evolved `|xs|` times, and the last tag of `xs` (the start tag if `xs` is
empty) as the previous tag; on success both return the same final tag. -/
theorem verifyChain_split (xs ys : List (Record B)) (hys : ys ≠ []) (s : UInt64) (k t : B)
    (c : Bool) :
    ((verifyChain P xs s k t c).2.isSome →
        verifyChain P (xs ++ ys) s k t c = verifyChain P xs s k t c) ∧
    ((verifyChain P xs s k t c).2 = none →
      let resumed := verifyChain P ys (s + (xs.length : UInt64)) (P.fwdKeyN xs.length k)
        (if xs.isEmpty then t else (verifyChain P xs s k t c).1) c
      (verifyChain P (xs ++ ys) s k t c).2 = resumed.2 ∧
        (resumed.2 = none → (verifyChain P (xs ++ ys) s k t c).1 = resumed.1)) := by
  unfold verifyChain
  refine ⟨fun he => ?_, fun hok => ?_⟩
  · obtain ⟨e, he⟩ := Option.isSome_iff_exists.1 he
    rw [verifyLoop_append_of_error ys (Prod.ext rfl he)]
    exact Prod.ext rfl he.symm
  · rcases xs with _ | ⟨x, xs⟩
    · simp
    · have hsplit := verifyLoop_append ys (List.cons_ne_nil x xs) (Prod.ext rfl hok)
      simp only [List.isEmpty_cons, Bool.false_eq_true, if_false, hsplit]
      exact ⟨verifyLoop_error_indep _, fun hy => by
        rw [verifyLoop_lastTag _ hys (Prod.ext rfl hy)]⟩

/-- A two-record replay from the origin whose records carry the tags the chain
computes, split after its first record: the first part goes through, so the whole
replay is the second part resumed from the first part's key, index and tag. -/
theorem verifyChain_split_at_origin :
    let t₁ := (chainStep symbolic (.seed 0) .zero 1 ⟨0⟩ []).2
    let t₂ := (chainStep symbolic (symbolic.fwdKey (.seed 0)) t₁ 2 ⟨0⟩ []).2
    let xs : List (Record Term) := [⟨1, ⟨0⟩, [], t₁, t₁⟩]
    let ys : List (Record Term) := [⟨2, ⟨0⟩, [], t₂, t₂⟩]
    (verifyChain symbolic xs 0 (.seed 0) .zero true).2 = none ∧ ys ≠ [] ∧
    (((verifyChain symbolic xs 0 (.seed 0) .zero true).2.isSome →
        verifyChain symbolic (xs ++ ys) 0 (.seed 0) .zero true =
          verifyChain symbolic xs 0 (.seed 0) .zero true) ∧
      ((verifyChain symbolic xs 0 (.seed 0) .zero true).2 = none →
        let resumed := verifyChain symbolic ys (0 + (xs.length : UInt64))
          (symbolic.fwdKeyN xs.length (.seed 0))
          (if xs.isEmpty then .zero else (verifyChain symbolic xs 0 (.seed 0) .zero true).1) true
        (verifyChain symbolic (xs ++ ys) 0 (.seed 0) .zero true).2 = resumed.2 ∧
          (resumed.2 = none → (verifyChain symbolic (xs ++ ys) 0 (.seed 0) .zero true).1 = resumed.1))) :=
  ⟨rfl, List.cons_ne_nil _ _, verifyChain_split symbolic _ _ (List.cons_ne_nil _ _) 0 (.seed 0) .zero true⟩

end SecureLog
