import SecureLog.Folder

/- The equality helpers at the byte level: `constantTimeEqual` (`part_006`),
   `hmacEqual` and `isZero32` (`part_003`), with the loops they run.

   1. `constantTimeEqual` has the body of `hmacEqual` line for line, so it is
      `hmacEqual` (`Folder.lean`) under its own name; both hold exactly when the
      lengths and every byte agree (`hmacEqual_iff_bytes`).
   2. `isZero32` ORs the 32 bytes of a `[32]byte` together, with no exit from the
      loop; the accumulator after `k` bytes is zero exactly when those bytes are
      (`foldl_or_eq_zero`), so the verdict is "every byte is zero".
   3. The shared body of the two comparisons as a run (`EqualCall`): the length
      check, then `for i := range a { result |= a[i] ^ b[i] }`, then
      `return result == 0`. When the lengths agree the call runs all `len(a)`
      iterations whatever the bytes, the accumulator after `k` of them is zero
      exactly when the `k`-byte prefixes agree (`resultAfter_eq_zero_iff`), and it
      returns `hmacEqual a b` at step `len(a) + 2` (`EqualCall.run_of_length_eq`). When they differ the call returns `false`
      from the length check and never enters the loop
      (`EqualCall.run_of_length_ne`).
   4. On `[32]byte`, the `equal` and `isZero32` fields of any `Primitives` whose
      zero is `[32]byte{}` are these helpers (`primitives_tests_are_byte_helpers`):
      the tests the chain model takes as fields are the code's. -/
namespace SecureLog

/-! ## The helpers -/

/-- `constantTimeEqual(a, b)`: the body of `hmacEqual`. -/
def constantTimeEqual (a b : List UInt8) : Bool := hmacEqual a b

/-- `isZero32(x)`: `acc |= b` over the 32 bytes, then `acc == 0`. -/
def isZero32 (x : Block32) : Bool := x.bytes.foldl (· ||| ·) 0 == 0

/-- The loop of `isZero32` ends at zero exactly when it started at zero and every byte
it ORs in is zero. -/
theorem foldl_or_eq_zero : ∀ (l : List UInt8) (acc : UInt8),
    l.foldl (· ||| ·) acc = 0 ↔ acc = 0 ∧ ∀ v ∈ l, v = 0
  | [], _ => by simp
  | v :: l, acc => by
    rw [List.foldl_cons, foldl_or_eq_zero l, uint8_or_eq_zero]
    simp [and_assoc]

theorem isZero32_eq_true_iff (x : Block32) : isZero32 x = true ↔ ∀ v ∈ x.bytes, v = 0 := by
  simp [isZero32, foldl_or_eq_zero]

/-- A `[32]byte` is `[32]byte{}` exactly when every byte is zero. -/
theorem Block32.eq_zero_iff (x : Block32) : x = Block32.zero ↔ ∀ v ∈ x.bytes, v = 0 := by
  rw [Block32.ext_iff, Block32.zero, List.eq_replicate_iff]
  simp [x.length_bytes]

/-- `hmacEqual` (and so `constantTimeEqual`) holds exactly when the lengths agree and
so does the byte at every position. -/
theorem hmacEqual_iff_bytes (a b : List UInt8) :
    hmacEqual a b = true ↔
      a.length = b.length ∧ ∀ i (h₁ : i < a.length) (h₂ : i < b.length), a[i] = b[i] := by
  rw [hmacEqual_iff]
  exact ⟨fun h => by subst h; simp, fun ⟨hl, h⟩ => List.ext_getElem hl h⟩

/-! ## The shared body as a run -/

/-- Where a call of `constantTimeEqual(a, b)` or `hmacEqual(a, b)` stands: at the
length check, at the head of the loop about to test `i < len(a)` with the accumulator
`result`, or returned `v`. -/
inductive EqualCall where
  | lengthCheck
  | loop (i : ℕ) (result : UInt8)
  | returned (v : Bool)
  deriving DecidableEq, Repr

/-- The loop body `result |= a[i] ^ b[i]`. `b[i]` is in range: the loop runs only when
`len(a) = len(b)`. -/
def loopBody (a b : List UInt8) (result : UInt8) (i : ℕ) : UInt8 :=
  result ||| (a.getD i 0 ^^^ b.getD i 0)

/-- The accumulator after the first `k` iterations of the loop. -/
def resultAfter (a b : List UInt8) (k : ℕ) : UInt8 := (List.range k).foldl (loopBody a b) 0

namespace EqualCall

/-- One step of the call. -/
def step (a b : List UInt8) : EqualCall → EqualCall
  | lengthCheck => if a.length ≠ b.length then returned false else loop 0 0
  | loop i result =>
    if i < a.length then loop (i + 1) (loopBody a b result i) else returned (result == 0)
  | returned v => returned v

end EqualCall

section Run

variable {a b : List UInt8} {k : ℕ}

theorem resultAfter_succ : resultAfter a b (k + 1) = loopBody a b (resultAfter a b k) k := by
  simp only [resultAfter, List.range_succ, List.foldl_append, List.foldl_cons, List.foldl_nil]

/-- The loop invariant, position by position. -/
theorem resultAfter_eq_zero_iff_getD :
    resultAfter a b k = 0 ↔ ∀ j < k, a.getD j 0 = b.getD j 0 := by
  induction k with
  | zero => simp [resultAfter]
  | succ k ih =>
    rw [resultAfter_succ, loopBody, uint8_or_eq_zero, ih, uint8_xor_eq_zero, Nat.forall_lt_succ]

/-- Two `k`-byte prefixes agree exactly when their bytes do. -/
theorem take_eq_take_iff_getD (ha : k ≤ a.length) (hb : k ≤ b.length) :
    a.take k = b.take k ↔ ∀ j < k, a.getD j 0 = b.getD j 0 := by
  refine ⟨fun h j hj => ?_, fun h => List.ext_getElem (by simp [ha, hb]) fun j h₁ h₂ => ?_⟩
  · simpa [List.getElem?_take, hj] using congrArg (·.getD j 0) h
  · simp only [List.length_take] at h₁ h₂
    have := h j (by omega)
    rw [List.getD_eq_getElem _ _ (by omega), List.getD_eq_getElem _ _ (by omega)] at this
    simpa using this

/-- The loop invariant: after `k` iterations the accumulator is zero exactly when the
`k`-byte prefixes agree. -/
theorem resultAfter_eq_zero_iff (ha : k ≤ a.length) (hb : k ≤ b.length) :
    resultAfter a b k = 0 ↔ a.take k = b.take k := by
  rw [resultAfter_eq_zero_iff_getD, take_eq_take_iff_getD ha hb]

/-- After the last iteration, `result == 0` is `hmacEqual a b`. -/
theorem resultAfter_length_beq (h : a.length = b.length) :
    (resultAfter a b a.length == 0) = hmacEqual a b := by
  refine Bool.eq_iff_iff.2 ?_
  rw [beq_iff_eq, resultAfter_eq_zero_iff le_rfl h.le, hmacEqual_iff, List.take_length, h,
    List.take_length]

namespace EqualCall

theorem step_lengthCheck_of_ne (h : a.length ≠ b.length) :
    step a b lengthCheck = returned false := if_pos h

theorem step_lengthCheck_of_eq (h : a.length = b.length) :
    step a b lengthCheck = loop 0 0 := if_neg (not_not.2 h)

theorem step_loop_of_lt {i : ℕ} {r : UInt8} (h : i < a.length) :
    step a b (loop i r) = loop (i + 1) (loopBody a b r i) := if_pos h

theorem step_loop_length {r : UInt8} : step a b (loop a.length r) = returned (r == 0) :=
  if_neg (lt_irrefl _)

/-- `k ≤ len(a)` iterations in, the call is at the head of the loop with the
accumulator of the first `k` positions. -/
theorem iterate_loop (hk : k ≤ a.length) :
    (step a b)^[k] (loop 0 0) = loop k (resultAfter a b k) := by
  induction k with
  | zero => rfl
  | succ k ih =>
    rw [Function.iterate_succ_apply', ih (by omega), step_loop_of_lt (by omega), resultAfter_succ]

/-- Equal lengths: whatever the bytes, the call is in the loop at every position
`k ≤ len(a)` after `k + 1` steps, and returns `hmacEqual a b` one step after the
last. -/
theorem run_of_length_eq (h : a.length = b.length) :
    (∀ k ≤ a.length, (step a b)^[k + 1] lengthCheck = loop k (resultAfter a b k)) ∧
      (step a b)^[a.length + 2] lengthCheck = returned (hmacEqual a b) := by
  have hloop : ∀ k ≤ a.length, (step a b)^[k + 1] lengthCheck = loop k (resultAfter a b k) :=
    fun k hk => by rw [Function.iterate_succ_apply, step_lengthCheck_of_eq h, iterate_loop hk]
  refine ⟨hloop, ?_⟩
  rw [Function.iterate_succ_apply', hloop _ le_rfl, step_loop_length, resultAfter_length_beq h]

/-- Different lengths: the call returns `false` from the length check and never
reaches the loop. -/
theorem run_of_length_ne (h : a.length ≠ b.length) (k : ℕ) :
    (step a b)^[k + 1] lengthCheck = returned false := by
  rw [Function.iterate_succ_apply, step_lengthCheck_of_ne h]
  exact Function.iterate_fixed rfl k

end EqualCall

end Run

/-! ## The verdicts -/

/-- **The equality helpers are exact.** The comparisons hold exactly when the lengths
and every byte agree, and `isZero32` exactly when every byte is zero, its accumulator
after `k` bytes zero exactly when those are. With equal lengths the comparison runs
its loop over every position, the accumulator tracking prefix equality; with unequal
lengths its verdict is the length check's. -/
theorem equality_helpers_exact (a b : List UInt8) (x : Block32) :
    (constantTimeEqual a b = true ↔
      a.length = b.length ∧ ∀ i (h₁ : i < a.length) (h₂ : i < b.length), a[i] = b[i]) ∧
    (hmacEqual a b = true ↔
      a.length = b.length ∧ ∀ i (h₁ : i < a.length) (h₂ : i < b.length), a[i] = b[i]) ∧
    (isZero32 x = true ↔ ∀ v ∈ x.bytes, v = 0) ∧
    (∀ k, (x.bytes.take k).foldl (· ||| ·) 0 = 0 ↔ ∀ v ∈ x.bytes.take k, v = 0) ∧
    (a.length = b.length →
      (∀ k ≤ a.length, (EqualCall.step a b)^[k + 1] .lengthCheck = .loop k (resultAfter a b k) ∧
        (resultAfter a b k = 0 ↔ a.take k = b.take k)) ∧
      (EqualCall.step a b)^[a.length + 2] .lengthCheck = .returned (hmacEqual a b)) ∧
    (a.length ≠ b.length → ∀ k, (EqualCall.step a b)^[k + 1] .lengthCheck = .returned false) :=
  ⟨hmacEqual_iff_bytes a b, hmacEqual_iff_bytes a b, isZero32_eq_true_iff x,
    fun _ => (foldl_or_eq_zero _ 0).trans (and_iff_right rfl),
    fun h => ⟨fun k hk => ⟨(EqualCall.run_of_length_eq h).1 k hk,
      resultAfter_eq_zero_iff hk (h ▸ hk)⟩, (EqualCall.run_of_length_eq h).2⟩,
    EqualCall.run_of_length_ne⟩

/-- `constantTimeEqual([0], [])` is `false` from the length check: no state of the call
is in the loop, so no position is read. -/
theorem length_mismatch_returns_before_loop :
    constantTimeEqual [0] [] = false ∧
      ∀ k i r, (EqualCall.step [0] [])^[k] .lengthCheck ≠ .loop i r := by
  refine ⟨rfl, fun k i r => ?_⟩
  cases k with
  | zero => nofun
  | succ k => rw [EqualCall.run_of_length_ne (by decide) k]; nofun

/-! ## The helpers as the primitives' tests -/

/-- On `[32]byte`, the comparison and zero test that the chain model takes as fields of
`Primitives` are the code's helpers: every `equal` is `constantTimeEqual` on the
blocks' bytes, and the `isZero32` of primitives whose zero is `[32]byte{}` is
`isZero32`. -/
theorem primitives_tests_are_byte_helpers (P : Primitives Block32) :
    (∀ x y, P.equal x y = constantTimeEqual x.bytes y.bytes) ∧
      (P.zero = Block32.zero → ∀ x, P.isZero32 x = isZero32 x) := by
  refine ⟨fun x y => Bool.eq_iff_iff.2 ?_, fun hz x => Bool.eq_iff_iff.2 ?_⟩
  · rw [P.equal_iff, constantTimeEqual]
    exact (hmacEqual_toBytes Block32.codec x y).symm
  · rw [P.isZero32_iff, hz, isZero32_eq_true_iff, Block32.eq_zero_iff]

end SecureLog
