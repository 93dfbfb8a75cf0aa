import SecureLog.Primitives

/- The persisted data model and the `Store` interface, and the store the design
   asks for (§4.2 of the design), against which the two backings are compared.

   1. `Record`, `TailState`, `Anchor` and `Entry` as `example_protobuf.go`
      declares them, over the block type `B`; `Error` is the package's `error`
      values, with `fmt.Errorf("...: %w", err)` as `wrap`.
   2. `Store σ B` is the Go interface over a store state `σ`. `append` returns the
      state after the call whether it fails or not: a failed call of a real
      backing may have changed what is on disk.
   3. `SpecStore` is the abstract store: records in append order, anchors
      inserted or replaced by index and kept ascending, one tail slot, and an
      append that fails, with no effect, unless `record.Index − 1` is the
      current maximum index (`append_eq_ok`, `append_eq_error`).
   4. `Contiguous`: records carrying the indices `1, …, n`, the invariant the
      design asks of every store; `Store.NextIndex` is that contract as seen
      through the interface, at one state of a run of `Store.appendAll`.
      `SpecStore.Tidy` is what a run of well-formed calls (`AnchorsAfter`,
      messages shorter than `2^32` bytes) keeps of the design's store; the two
      backings are compared with it. -/
namespace SecureLog

open scoped UInt64.CommRing

/-- The persisted record: both chains' aggregate tags. -/
structure Record (B : Type) where
  index : UInt64
  ts : Int64
  msg : List UInt8
  tagV : B
  tagT : B
  deriving DecidableEq, Repr

/-- The aggregate tags of the log tail. -/
structure TailState (B : Type) where
  index : UInt64
  tagV : B
  tagT : B
  deriving DecidableEq, Repr

/-- A checkpoint `(i, A_i, μ_V,i, μ_T,i)`: it carries the verifier key only. -/
structure Anchor (B : Type) where
  index : UInt64
  key : B
  tagV : B
  tagT : B
  deriving DecidableEq, Repr

/-- The authenticated entry `Append` returns. -/
structure Entry (B : Type) where
  index : UInt64
  ts : Int64
  msg : List UInt8
  tag : B
  deriving DecidableEq, Repr

/-- A Go `error` of the package. -/
inductive Error where
  /-- `ErrGap` -/
  | gap : Error
  /-- `ErrTagMismatch` -/
  | tagMismatch : Error
  /-- `ErrLogNotClosed` -/
  | logNotClosed : Error
  /-- `errors.New(text)`, or `fmt.Errorf` with no wrapped error. -/
  | new : String → Error
  /-- `fmt.Errorf("context: %w", err)`. -/
  | wrap : String → Error → Error
  /-- An error of the operating system or of the database driver. -/
  | io : Error
  /-- `io.EOF`: a read found no byte at all. -/
  | eof : Error
  /-- `io.ErrUnexpectedEOF`: a read of a fixed size found some bytes, but too few. -/
  | unexpectedEOF : Error
  deriving DecidableEq, Repr

/-- The bytes of a Go string literal, `[]byte("...")`: its UTF-8 encoding, as
`String.toUTF8` computes it. -/
def bytesOf (s : String) : List UInt8 := s.data.flatMap String.utf8EncodeChar

example : bytesOf "CLOSE" = [67, 76, 79, 83, 69] := by decide

/-- The `Store` interface over a store state `σ`. -/
structure Store (σ B : Type) where
  append : σ → Record B → TailState B → Option (Anchor B) → Option Error × σ
  iter : σ → UInt64 → Except Error (List (Record B))
  anchorAt : σ → UInt64 → Except Error (Option (Anchor B))
  listAnchors : σ → Except Error (List (Anchor B))
  tail : σ → Except Error (Option (TailState B))

/-! ## The abstract store -/

/-- What a store holds, as the design describes it. -/
structure SpecStore (B : Type) where
  records : List (Record B)
  anchors : List (Anchor B)
  tail : Option (TailState B)
  deriving DecidableEq, Repr

namespace SpecStore

variable {B : Type}

/-- The empty store. -/
def empty : SpecStore B := ⟨[], [], none⟩

/-- The current maximum record index (0 when empty). -/
def maxIndex (rs : List (Record B)) : UInt64 := rs.foldl (fun m r => max m r.index) 0

/-- Insert `a`, replacing an anchor of the same index, keeping indices ascending. -/
def insertAnchor (a : Anchor B) : List (Anchor B) → List (Anchor B)
  | [] => [a]
  | b :: bs =>
    if a.index < b.index then a :: b :: bs
    else if a.index = b.index then a :: bs
    else b :: insertAnchor a bs

/-- The error of an append that does not follow the current maximum. -/
def nonContiguous (last got : UInt64) : Error :=
  .new ("non-contiguous append: have " ++ toString last ++ ", got " ++ toString got)

/-- The anchors after an append that carries `a?`. -/
def putAnchor : Option (Anchor B) → List (Anchor B) → List (Anchor B)
  | some a, as => insertAnchor a as
  | none, as => as

/-- `append(record, tail, anchor?)`: all three effects, or none. -/
def append (s : SpecStore B) (r : Record B) (t : TailState B) (a : Option (Anchor B)) :
    Option Error × SpecStore B :=
  if maxIndex s.records ≠ r.index - 1 then (some (nonContiguous (maxIndex s.records) r.index), s)
  else (none, ⟨s.records ++ [r], putAnchor a s.anchors, some t⟩)

/-- `iter(startIdx)`: the records with `Index ≥ startIdx`. -/
def iter (s : SpecStore B) (startIdx : UInt64) : List (Record B) :=
  s.records.filter (fun r => startIdx ≤ r.index)

/-- `anchor_at(i)`. -/
def anchorAt (s : SpecStore B) (i : UInt64) : Option (Anchor B) :=
  s.anchors.find? (fun a => a.index = i)

/-- The abstract store behind the `Store` interface; none of its reads fail. -/
def store : Store (SpecStore B) B where
  append := append
  iter s k := .ok (s.iter k)
  anchorAt s i := .ok (s.anchorAt i)
  listAnchors s := .ok s.anchors
  tail s := .ok s.tail

@[simp] theorem store_append (s : SpecStore B) (r : Record B) (t : TailState B)
    (a : Option (Anchor B)) : (store : Store (SpecStore B) B).append s r t a = s.append r t a := rfl

theorem append_eq_ok {s : SpecStore B} {r : Record B} {t : TailState B} {a : Option (Anchor B)}
    (h : maxIndex s.records = r.index - 1) :
    s.append r t a = (none, ⟨s.records ++ [r], putAnchor a s.anchors, some t⟩) := by
  simp [append, h]

theorem append_eq_error {s : SpecStore B} {r : Record B} {t : TailState B}
    {a : Option (Anchor B)} (h : maxIndex s.records ≠ r.index - 1) :
    s.append r t a = (some (nonContiguous (maxIndex s.records) r.index), s) := by
  simp [append, h]

/-- The maximum of `1, …, n` as `uint64`, below `2^64`, is `n`. -/
theorem foldl_max_casts {n : ℕ} (hn : n < 2 ^ 64) :
    ((List.range n).map (fun j => ((j + 1 : ℕ) : UInt64))).foldl max 0 = n := by
  induction n with
  | zero => rfl
  | succ n ih =>
    rw [List.range_succ, List.map_append, List.foldl_append, ih (by omega)]
    exact if_pos (by rw [uint64_le_iff, uint64_toNat_natCast, uint64_toNat_natCast]; omega)

/-- Records carrying the indices `1, …, n`, below `2^64`, have maximum index `n`. -/
theorem maxIndex_of_indices {rs : List (Record B)} {n : ℕ}
    (h : rs.map Record.index = (List.range n).map (fun j => ((j + 1 : ℕ) : UInt64)))
    (hn : n < 2 ^ 64) : maxIndex rs = n := by
  rw [maxIndex, ← List.foldl_map Record.index, h, foldl_max_casts hn]

/-- In records carrying the indices `1, …, n`, the record at position `i` has
index `i + 1`. -/
theorem index_getElem_of_indices {rs : List (Record B)}
    (h : rs.map Record.index = (List.range rs.length).map (fun j => ((j + 1 : ℕ) : UInt64)))
    (i : ℕ) (hi : i < rs.length) : rs[i].index = ((i + 1 : ℕ) : UInt64) := by
  have := List.getElem_of_eq h (by simpa using hi)
  rwa [List.getElem_map, List.getElem_map, List.getElem_range] at this

/-- Over records carrying the indices `1, …, n`, with `n + 1 < 2^64`, the records
from index `k + 1` are those after the first `k`. -/
theorem iter_succ_of_indices {s : SpecStore B}
    (h : s.records.map Record.index =
      (List.range s.records.length).map (fun j => ((j + 1 : ℕ) : UInt64)))
    {k : ℕ} (hk : k ≤ s.records.length) (hn : s.records.length + 1 < 2 ^ 64) :
    s.iter ((k : UInt64) + 1) = s.records.drop k := by
  have hk1 : ((k : UInt64) + 1).toNat = k + 1 := by
    rw [← Nat.cast_one, ← Nat.cast_add, uint64_toNat_natCast]; omega
  have hle : ∀ i (hi : i < s.records.length),
      ((k : UInt64) + 1 ≤ s.records[i].index ↔ k ≤ i) := fun i hi => by
    rw [index_getElem_of_indices h i hi, uint64_le_iff, hk1, uint64_toNat_natCast]; omega
  unfold iter
  conv_lhs => rw [← List.take_append_drop k s.records]
  rw [List.filter_append, List.filter_eq_nil_iff.2, List.filter_eq_self.2, List.nil_append]
  · intro r hr
    obtain ⟨i, hi, rfl⟩ := List.mem_iff_getElem.1 hr
    rw [List.getElem_drop, decide_eq_true_iff, hle]
    omega
  · intro r hr
    obtain ⟨i, hi, rfl⟩ := List.mem_iff_getElem.1 hr
    simp only [List.length_take] at hi
    rw [List.getElem_take, decide_eq_true_iff, hle]
    omega

/-- An anchor of `insertAnchor a as` is `a` or one of `as`. -/
theorem mem_insertAnchor {a x : Anchor B} {as : List (Anchor B)} (h : x ∈ insertAnchor a as) :
    x = a ∨ x ∈ as := by
  induction as with
  | nil => exact .inl (List.mem_singleton.1 h)
  | cons b bs ih =>
    unfold insertAnchor at h
    split_ifs at h
    · exact List.mem_cons.1 h
    · rcases List.mem_cons.1 h with h | h
      · exact .inl h
      · exact .inr (List.mem_cons_of_mem _ h)
    · rcases List.mem_cons.1 h with h | h
      · exact .inr (h ▸ List.mem_cons_self _ _)
      · exact (ih h).imp_right (List.mem_cons_of_mem _)

/-- An anchor held after `putAnchor a?` was held before or is the one put. -/
theorem mem_putAnchor {a? : Option (Anchor B)} {x : Anchor B} {as : List (Anchor B)}
    (h : x ∈ putAnchor a? as) : x ∈ as ∨ a? = some x := by
  cases a? with
  | none => exact .inl h
  | some a => exact (mem_insertAnchor h).symm.imp_right (fun e => congrArg some e.symm)

/-- An append, successful or not, keeps every record already held. -/
theorem records_prefix_append (s : SpecStore B) (r : Record B) (t : TailState B)
    (a : Option (Anchor B)) : s.records <+: (s.append r t a).2.records := by
  unfold append; split
  · exact List.prefix_refl _
  · exact List.prefix_append _ _

end SpecStore

/-! ## Runs of appends and the contiguity contract -/

/-- Records carrying the indices `1, …, n`, in order, as numbers: no index wraps. -/
def Contiguous (rs : List (Record B)) : Prop :=
  rs.map (fun r => r.index.toNat) = (List.range rs.length).map (· + 1)

theorem contiguous_nil : Contiguous ([] : List (Record B)) := rfl

theorem contiguous_append_singleton {rs : List (Record B)} {r : Record B} :
    Contiguous (rs ++ [r]) ↔ Contiguous rs ∧ r.index.toNat = rs.length + 1 := by
  simp only [Contiguous, List.map_append, List.length_append, List.length_singleton, List.range_succ,
    List.map_cons, List.map_nil]
  constructor
  · intro h
    obtain ⟨h₁, h₂⟩ := List.append_inj' h rfl
    exact ⟨h₁, List.singleton_inj.1 h₂⟩
  · rintro ⟨h₁, h₂⟩
    rw [h₁, h₂]

theorem contiguous_map_index {rs : List (Record B)} (hc : Contiguous rs) :
    rs.map Record.index = (List.range rs.length).map (fun j => ((j + 1 : ℕ) : UInt64)) := by
  have := congrArg (List.map (fun n : ℕ => (n : UInt64))) hc
  simpa [Function.comp_def] using this

theorem contiguous_length_lt {rs : List (Record B)} (hc : Contiguous rs) : rs.length < 2 ^ 64 := by
  induction rs using List.reverseRecOn with
  | nil => exact Nat.two_pow_pos 64
  | append_singleton rs r _ =>
    rw [List.length_append, List.length_singleton, ← (contiguous_append_singleton.1 hc).2]
    exact r.index.toNat_lt_size

namespace SpecStore

/-- Over contiguous records the maximum index is their number. -/
theorem maxIndex_of_contiguous {rs : List (Record B)} (hc : Contiguous rs) :
    maxIndex rs = (rs.length : UInt64) :=
  maxIndex_of_indices (contiguous_map_index hc) (contiguous_length_lt hc)

/-- An append to contiguous records, fewer than `2^64 − 1`, keeps them contiguous:
it takes exactly the next index. -/
theorem append_contiguous {s : SpecStore B} (hc : Contiguous s.records)
    (hn : s.records.length + 1 < 2 ^ 64) (r : Record B) (t : TailState B) (a : Option (Anchor B)) :
    Contiguous (s.append r t a).2.records := by
  unfold append
  split_ifs with h
  · exact hc
  · have hmax : (maxIndex s.records).toNat = s.records.length := by
      rw [maxIndex_of_contiguous hc, uint64_toNat_natCast]; omega
    exact contiguous_append_singleton.2 ⟨hc, (uint64_eq_sub_one_iff hmax hn r.index).1 (not_not.1 h)⟩

/-- An anchor above every held one goes last. -/
theorem insertAnchor_of_lt {a : Anchor B} {as : List (Anchor B)}
    (h : ∀ b ∈ as, b.index < a.index) : insertAnchor a as = as ++ [a] := by
  induction as with
  | nil => rfl
  | cons b bs ih =>
    have hb := (uint64_lt_iff _ _).1 (h b (List.mem_cons_self _ _))
    rw [insertAnchor, if_neg (by rw [uint64_lt_iff]; omega), if_neg (by rw [uint64_eq_iff]; omega),
      ih fun c hc => h c (List.mem_cons_of_mem _ hc)]
    rfl

theorem putAnchor_of_lt {a? : Option (Anchor B)} {as : List (Anchor B)}
    (h : ∀ a ∈ a?, ∀ b ∈ as, b.index < a.index) : putAnchor a? as = as ++ a?.toList := by
  cases a? with
  | none => exact (List.append_nil as).symm
  | some a => exact insertAnchor_of_lt (h a rfl)

end SpecStore

/-- Calls whose anchors each come after every anchor of `as` and of the calls
before them, by index. -/
def AnchorsAfter (as : List (Anchor B)) : List (Record B × TailState B × Option (Anchor B)) → Prop
  | [] => True
  | (_, _, a?) :: ops => (∀ a ∈ a?, ∀ b ∈ as, b.index < a.index) ∧ AnchorsAfter (as ++ a?.toList) ops

/-- Fewer anchors to come after is a weaker demand. -/
theorem AnchorsAfter.mono {as as' : List (Anchor B)} (h : ∀ b ∈ as', b ∈ as) :
    ∀ {ops : List (Record B × TailState B × Option (Anchor B))}, AnchorsAfter as ops → AnchorsAfter as' ops
  | [], _ => trivial
  | (_, _, _) :: _, ⟨h₁, h₂⟩ =>
    ⟨fun a ha b hb => h₁ a ha b (h b hb),
      AnchorsAfter.mono (fun b hb => by
        rcases List.mem_append.1 hb with hb | hb
        · exact List.mem_append_left _ (h b hb)
        · exact List.mem_append_right _ hb) h₂⟩

namespace SpecStore

theorem length_append_le (s : SpecStore B) (r : Record B) (t : TailState B) (a : Option (Anchor B)) :
    (s.append r t a).2.records.length ≤ s.records.length + 1 := by
  unfold append; split_ifs <;> simp

/-- The anchors held after an append are the ones before, and the one it carried. -/
theorem mem_append_anchors {s : SpecStore B} {r : Record B} {t : TailState B}
    {a : Option (Anchor B)} {b : Anchor B} (hb : b ∈ (s.append r t a).2.anchors) :
    b ∈ s.anchors ++ a.toList := by
  unfold append at hb
  split_ifs at hb
  · exact List.mem_append_left _ hb
  · rcases mem_putAnchor hb with hb | rfl
    · exact List.mem_append_left _ hb
    · exact List.mem_append_right _ (Option.mem_toList.2 rfl)

end SpecStore

theorem AnchorsAfter.append {s : SpecStore B} {r : Record B} {t : TailState B}
    {a : Option (Anchor B)} {ops : List (Record B × TailState B × Option (Anchor B))}
    (h : AnchorsAfter s.anchors ((r, t, a) :: ops)) : AnchorsAfter (s.append r t a).2.anchors ops :=
  h.2.mono fun _ => SpecStore.mem_append_anchors

namespace SpecStore

/-- The design's store as a run of well-formed calls leaves it: records carrying
`1, …, n`, messages shorter than `2^32` bytes, anchors in increasing index order. -/
structure Tidy (s : SpecStore B) : Prop where
  contiguous : Contiguous s.records
  small : ∀ r ∈ s.records, r.msg.length < 2 ^ 32
  ascending : s.anchors.Pairwise (fun a b => a.index < b.index)

theorem Tidy.empty : Tidy (empty : SpecStore B) :=
  ⟨contiguous_nil, fun _ h => absurd h (List.not_mem_nil _), List.Pairwise.nil⟩

/-- **Tidiness, one step.** -/
theorem Tidy.append {s : SpecStore B} (h : Tidy s) (hn : s.records.length + 1 < 2 ^ 64)
    {r : Record B} (hr : r.msg.length < 2 ^ 32) (t : TailState B) {a : Option (Anchor B)}
    (ha : ∀ x ∈ a, ∀ b ∈ s.anchors, b.index < x.index) : Tidy (s.append r t a).2 := by
  refine ⟨append_contiguous h.contiguous hn r t a, ?_, ?_⟩ <;> unfold SpecStore.append <;> split_ifs
  · exact h.small
  · intro x hx
    rcases List.mem_append.1 hx with hx | hx
    · exact h.small x hx
    · rw [List.mem_singleton.1 hx]; exact hr
  · exact h.ascending
  · rw [putAnchor_of_lt ha]
    refine List.pairwise_append.2 ⟨h.ascending, ?_, fun b hb x hx => ha x (Option.mem_toList.1 hx) b hb⟩
    cases a <;> simp

end SpecStore

namespace Store

variable {σ : Type}

/-- `Append` on each `(record, tail, anchor?)` in turn, collecting the results. -/
def appendAll (st : Store σ B) :
    σ → List (Record B × TailState B × Option (Anchor B)) → List (Option Error) × σ
  | s, [] => ([], s)
  | s, (r, t, a) :: ops =>
    let (res, s) := st.append s r t a
    let (rest, s) := st.appendAll s ops
    (res :: rest, s)

@[simp] theorem appendAll_nil (st : Store σ B) (s : σ) : st.appendAll s [] = ([], s) := rfl

theorem appendAll_cons (st : Store σ B) (s : σ) (r : Record B) (t : TailState B)
    (a : Option (Anchor B)) (ops : List (Record B × TailState B × Option (Anchor B))) :
    (st.appendAll s ((r, t, a) :: ops)).2 = (st.appendAll (st.append s r t a).2 ops).2 := rfl

theorem appendAll_cons_eq (st : Store σ B) (s : σ) (r : Record B) (t : TailState B)
    (a : Option (Anchor B)) (ops : List (Record B × TailState B × Option (Anchor B))) :
    st.appendAll s ((r, t, a) :: ops) =
      ((st.append s r t a).1 :: (st.appendAll (st.append s r t a).2 ops).1,
        (st.appendAll (st.append s r t a).2 ops).2) := rfl

theorem appendAll_append (st : Store σ B) (s : σ)
    (ops ops' : List (Record B × TailState B × Option (Anchor B))) :
    (st.appendAll s (ops ++ ops')).2 = (st.appendAll (st.appendAll s ops).2 ops').2 := by
  induction ops generalizing s with
  | nil => rfl
  | cons op ops ih =>
    obtain ⟨r, t, a⟩ := op
    exact ih _

/-- `Iter(0)` yields records with the indices `1, …, n`, in order. -/
def HoldsIndices (st : Store σ B) (s : σ) (n : ℕ) : Prop :=
  ∃ rs, st.iter s 0 = .ok rs ∧ rs.length = n ∧ Contiguous rs

/-- The contiguity contract at a state: the store holds the indices `1, …, n`, an
`Append` succeeds only for index `n + 1`, and a successful one whose tail carries
the record's index leaves that tail in `Tail()`. -/
def NextIndex (st : Store σ B) (s : σ) : Prop :=
  ∃ n, st.HoldsIndices s n ∧ ∀ r t a, (st.append s r t a).1 = none →
    r.index.toNat = n + 1 ∧ (t.index = r.index → st.tail (st.append s r t a).2 = .ok (some t))

end Store

/-- **Tidiness, a run.** -/
theorem SpecStore.Tidy.appendAll (ops : List (Record B × TailState B × Option (Anchor B))) :
    ∀ {s : SpecStore B}, SpecStore.Tidy s → AnchorsAfter s.anchors ops → (∀ o ∈ ops, o.1.msg.length < 2 ^ 32) →
      s.records.length + ops.length < 2 ^ 64 → Tidy (SpecStore.store.appendAll s ops).2 := by
  induction ops with
  | nil => exact fun h _ _ _ => h
  | cons op ops ih =>
    obtain ⟨r, t, a⟩ := op
    intro s h ha hmsg hn
    simp only [List.length_cons] at hn
    have hr : r.msg.length < 2 ^ 32 := hmsg _ (List.mem_cons_self _ _)
    rw [Store.appendAll_cons, SpecStore.store_append]
    exact ih (h.append (by omega) hr t ha.1) ha.append (fun o ho => hmsg o (List.mem_cons_of_mem _ ho))
      (by have := SpecStore.length_append_le s r t a; omega)


end SecureLog
