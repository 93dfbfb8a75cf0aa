import SecureLog.Bytes

/- The primitives of `part_003` (`fwdKey`, `htag`, `fold`, `mac`, `isZero32`) and the
   constant-time comparisons, over a type `B` of 32-byte blocks.

   Every key and every tag of the code is a `[32]byte`. The model keeps the block
   type abstract and takes SHA-256 and HMAC-SHA256 as functions on it: `sum256`
   is `sha256.Sum256` of one block (so `fwdKey` and `htag` are the same function,
   as in the code), `sum256Pair` is SHA-256 over two blocks written one after the
   other (`fold`), and `hmacSha256 k m` is HMAC-SHA256 keyed by the block `k`.
   `isZero32` and the comparisons (`constantTimeEqual`, `hmac.Equal`, `hmacEqual`
   on two blocks) are fields too, each carrying the law that it decides the
   equality it tests; the byte-level definitions satisfy these laws.

   ── PROVED vs ASSUMED ───────────────────────────────────────────────────────
   Nothing about SHA-256 is assumed by the model. Results that need the hash to
   be collision free take `Ideal P` as a hypothesis: the idealised primitives of
   the design notes (`mac` injective in its data for each key; `fold` and `htag`
   injective, never zero, with disjoint ranges). `Ideal` cannot hold of a function
   into a finite type, which is why `B` is abstract: `symbolic` is the free term
   algebra over the three constructions and satisfies it by construction
   (`symbolic_ideal`), so every theorem assuming `Ideal` has a model. -/
namespace SecureLog

/-- SHA-256 based primitives on the block type `B`. -/
structure Primitives (B : Type) where
  /-- `[32]byte{}`. -/
  zero : B
  /-- `sha256.Sum256(x[:])` of one block. -/
  sum256 : B → B
  /-- SHA-256 over `a[:] ‖ b[:]`. -/
  sum256Pair : B → B → B
  /-- HMAC-SHA256 with the block as key, over a byte string. -/
  hmacSha256 : B → List UInt8 → B
  /-- `isZero32`: the OR of all bytes is zero. -/
  isZero32 : B → Bool
  isZero32_iff : ∀ x, isZero32 x = true ↔ x = zero
  /-- A constant-time comparison of two blocks. -/
  equal : B → B → Bool
  equal_iff : ∀ a b, equal a b = true ↔ a = b

namespace Primitives

variable {B : Type} (P : Primitives B)

/-- `fwdKey`: forward-secure key evolution `K_i = H(K_{i-1})`. -/
def fwdKey (k : B) : B := P.sum256 k

/-- `htag`: `μ_1 = H(τ_1)`. -/
def htag (tag : B) : B := P.sum256 tag

/-- `fold`: `μ_i = H(μ_{i-1} ‖ τ_i)`. -/
def fold (prev mac : B) : B := P.sum256Pair prev mac

/-- `mac(key, chunks...)`: HMAC-SHA256 over the concatenated chunks. -/
def mac (key : B) (chunks : List (List UInt8)) : B := P.hmacSha256 key chunks.flatten

attribute [simp] isZero32_iff equal_iff

@[simp] theorem equal_self (a : B) : P.equal a a = true := (P.equal_iff a a).2 rfl

@[simp] theorem isZero32_zero : P.isZero32 P.zero = true := (P.isZero32_iff _).2 rfl

/-- `H^n(k)`: the key after `n` evolutions. -/
def fwdKeyN (n : Nat) (k : B) : B := P.fwdKey^[n] k

@[simp] theorem fwdKeyN_zero (k : B) : P.fwdKeyN 0 k = k := rfl

theorem fwdKeyN_succ (n : Nat) (k : B) : P.fwdKeyN (n + 1) k = P.fwdKeyN n (P.fwdKey k) :=
  Function.iterate_succ_apply _ _ _

theorem fwdKeyN_succ' (n : Nat) (k : B) : P.fwdKeyN (n + 1) k = P.fwdKey (P.fwdKeyN n k) :=
  Function.iterate_succ_apply' _ _ _

end Primitives

/-- The idealised primitives: `mac(K, ·)` is injective in its data for each key;
`fold` and `htag` are injective, never return the zero block, and have disjoint
ranges. -/
structure Ideal {B : Type} (P : Primitives B) : Prop where
  mac_injective : ∀ k, Function.Injective (P.hmacSha256 k)
  htag_injective : Function.Injective P.htag
  fold_injective : ∀ a b a' b', P.fold a b = P.fold a' b' → a = a' ∧ b = b'
  htag_ne_zero : ∀ t, P.htag t ≠ P.zero
  fold_ne_zero : ∀ a b, P.fold a b ≠ P.zero
  htag_ne_fold : ∀ t a b, P.htag t ≠ P.fold a b

/-! ## The symbolic primitives -/

/-- A symbolic block: the zero block, a seed, or one of the three constructions. -/
inductive Term where
  | zero : Term
  | seed : Nat → Term
  | sum : Term → Term
  | pair : Term → Term → Term
  | hmac : Term → List UInt8 → Term
  deriving DecidableEq, Repr

/-- The primitives as free constructors: distinct preimages give distinct blocks. -/
def symbolic : Primitives Term where
  zero := .zero
  sum256 := .sum
  sum256Pair := .pair
  hmacSha256 := .hmac
  isZero32 x := decide (x = .zero)
  isZero32_iff _ := decide_eq_true_iff
  equal a b := decide (a = b)
  equal_iff _ _ := decide_eq_true_iff

theorem symbolic_ideal : Ideal symbolic where
  mac_injective _ _ _ h := (Term.hmac.inj h).2
  htag_injective _ _ h := Term.sum.inj h
  fold_injective _ _ _ _ h := Term.pair.inj h
  htag_ne_zero _ := Term.noConfusion
  fold_ne_zero _ _ := Term.noConfusion
  htag_ne_fold _ _ _ := Term.noConfusion

end SecureLog
