import Mathlib.Data.UInt
import Mathlib.Data.List.Basic

/- Byte-level encodings shared by the MAC input and the on-disk format.

   Go's fixed-width integers are kept at their width: `uint64` is `UInt64`, and
   `int64` is `Int64`, its two's-complement bits (the conversion `uint64(v)` the
   code applies before every encoding reads them back unchanged). A `time.Time`
   is an instant, its nanoseconds since the Unix epoch; `UnixNano` wraps it to
   `int64`. `be64` is `binary.BigEndian.PutUint64` and `uint64` is
   `binary.BigEndian.Uint64`; `uint64_be64` is the round trip the file store and
   the MAC input rely on. -/
namespace SecureLog

open scoped UInt64.CommRing

/-! ## `uint64` as numbers below `2^64` -/

theorem uint64_toNat_natCast (n : ℕ) : ((n : ℕ) : UInt64).toNat = n % 2 ^ 64 := by
  rw [UInt64.natCast_def]; rfl

theorem uint64_le_iff (a b : UInt64) : a ≤ b ↔ a.toNat ≤ b.toNat := by
  rw [UInt64.le_def, BitVec.le_def]; rfl

theorem uint64_lt_iff (a b : UInt64) : a < b ↔ a.toNat < b.toNat := by
  rw [UInt64.lt_def, BitVec.lt_def]; rfl

theorem uint64_eq_iff (a b : UInt64) : a = b ↔ a.toNat = b.toNat :=
  ⟨congrArg _, UInt64.toNat.inj⟩

@[simp] theorem uint64_natCast_toNat (x : UInt64) : ((x.toNat : ℕ) : UInt64) = x := by
  rw [uint64_eq_iff, uint64_toNat_natCast]; exact Nat.mod_eq_of_lt x.toNat_lt_size

theorem uint64_toNat_ofNat (n : ℕ) : (UInt64.ofNat n).toNat = n % 2 ^ 64 := BitVec.toNat_ofNat _ _

@[simp] theorem uint64_ofNat_toNat (x : UInt64) : UInt64.ofNat x.toNat = x := by
  apply UInt64.toNat.inj; rw [uint64_toNat_ofNat]; exact Nat.mod_eq_of_lt x.toNat_lt_size

theorem uint64_toNat_add (a b : UInt64) : (a + b).toNat = (a.toNat + b.toNat) % 2 ^ 64 := by
  rw [UInt64.add_def]; exact BitVec.toNat_add _ _

/-- `x = y − 1` in `uint64`, for `x` of value `n` with `n + 1 < 2^64`, says that `y`
is `n + 1`: the subtraction does not wrap. -/
theorem uint64_eq_sub_one_iff {x : UInt64} {n : ℕ} (hx : x.toNat = n) (hn : n + 1 < 2 ^ 64)
    (y : UInt64) : x = y - 1 ↔ y.toNat = n + 1 := by
  rw [eq_sub_iff_add_eq, eq_comm, uint64_eq_iff, uint64_toNat_add, hx]
  exact iff_of_eq (congrArg _ (Nat.mod_eq_of_lt hn))

/-- Go's `int64`, as its two's-complement bits. -/
structure Int64 where
  toUInt64 : UInt64
  deriving DecidableEq, Repr

/-- A `time.Time`, as the instant it names: nanoseconds since the Unix epoch. -/
structure Time where
  nanos : Int
  deriving DecidableEq, Repr

/-- `t.UnixNano()`: the instant in nanoseconds, wrapped to `int64`. -/
def Time.UnixNano (t : Time) : Int64 := ⟨UInt64.ofNat (t.nanos % 2 ^ 64).toNat⟩

/-- The `w` low bytes of `n`, most significant first. -/
def be : Nat → Nat → List UInt8
  | 0, _ => []
  | w + 1, n => be w (n / 256) ++ [UInt8.ofNat n]

/-- `binary.BigEndian.PutUint64`. -/
def be64 (x : UInt64) : List UInt8 := be 8 x.toNat

/-- A big-endian byte string read as a number. -/
def beNat (bs : List UInt8) : Nat := bs.foldl (fun acc b => acc * 256 + b.toNat) 0

/-- `binary.BigEndian.Uint64` on eight bytes. -/
def uint64 (bs : List UInt8) : UInt64 := UInt64.ofNat (beNat bs)

@[simp] theorem length_be (w n : Nat) : (be w n).length = w := by
  induction w generalizing n <;> simp [be, *]

@[simp] theorem length_be64 (x : UInt64) : (be64 x).length = 8 := length_be 8 _

theorem beNat_be (w n : Nat) : beNat (be w n) = n % 256 ^ w := by
  induction w generalizing n with
  | zero => simp [be, beNat, Nat.mod_one]
  | succ w ih =>
    simp only [be, beNat, List.foldl_append, List.foldl_cons, List.foldl_nil] at ih ⊢
    rw [ih, pow_succ', Nat.mod_mul, UInt8.toNat, UInt8.ofNat, BitVec.toNat_ofNat]
    omega

@[simp] theorem uint64_be64 (x : UInt64) : uint64 (be64 x) = x := by
  apply UInt64.toNat.inj
  rw [uint64, be64, beNat_be, show 256 ^ 8 = UInt64.size from rfl,
    Nat.mod_eq_of_lt x.toNat_lt_size, UInt64.toNat_ofNat_of_lt x.toNat_lt_size]

theorem be64_injective : Function.Injective be64 := fun x y h => by
  rw [← uint64_be64 x, h, uint64_be64]

example : be64 258 = [0, 0, 0, 0, 0, 0, 1, 2] := by decide

/-- Two eight-byte prefixes split a byte string uniquely. -/
theorem be64_append_inj {a b c d : UInt64} {m m' : List UInt8}
    (h : be64 a ++ be64 b ++ m = be64 c ++ be64 d ++ m') : a = c ∧ b = d ∧ m = m' := by
  rw [List.append_assoc, List.append_assoc] at h
  obtain ⟨hac, h⟩ := List.append_inj h (by simp)
  obtain ⟨hbd, hm⟩ := List.append_inj h (by simp)
  exact ⟨be64_injective hac, be64_injective hbd, hm⟩

end SecureLog
