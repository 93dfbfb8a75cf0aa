import SecureLog.FileFaults
import SecureLog.SqliteStore

/- The two backings side by side, against the design's contract for stores.

   Contiguity (`appends_keep_indices_contiguous`): over any run of appends, each
   store holds the indices `1, …, n`, takes an `Append` only for index `n + 1`,
   and then holds its tail. The file store keeps this under every outcome of its
   I/O calls until `n = 2^64 − 1` (`file_store_accepts_index_zero`); the SQLite
   store, under `database/sql`'s conversion of `uint64` arguments, over runs of
   any length, since it never stores an index of `2^63` or more.

   Anchors (`stores_disagree_on_repeated_anchor`): the design asks `append` to
   insert or replace the anchor keyed by its index. The SQLite store upserts;
   the file store appends every anchor to `anchors.idx`, `AnchorAt` returns the
   first one of an index and `ListAnchors` all of them in the order written. So
   two appends carrying anchors of one index leave the stores answering
   differently.

   Where they agree (`backings_agree`): on runs without failures whose anchors
   come in increasing index order, whose messages are non-empty (the `NOT NULL`
   column refuses the empty one) and under the row limit, and whose indices stay
   below `2^63`, both stores run the design's store, so they return the same
   results and answer every read alike.

   A failed `Append` of the file store can leave its record written; the logger,
   which undid `i`, is then refused on every later call
   (`Logger.run_refused_after_kept_record`). -/
namespace SecureLog

open scoped UInt64.CommRing

variable {B : Type}

/-- **Both stores keep the indices contiguous.** From empty, after any run of
appends with any records, tails and anchors, each store holds the indices
`1, …, n`, takes an `Append` only for index `n + 1`, and then holds the tail it was
given: the file store after fewer than `2^64 − 1` calls, whatever its I/O calls
answer, and the SQLite store under `database/sql`'s conversion after any number. -/
theorem appends_keep_indices_contiguous (C : BlockCodec B) (fs : List Faults)
    (ops : List (Record B × TailState B × Option (Anchor B))) :
    (ops.length + 1 < 2 ^ 64 →
      (fileStore C).NextIndex ((fileStore C).appendAll ⟨Files.empty, fs⟩ ops).2) ∧
    (sqliteStore SqliteStore.defaultConv).NextIndex
      ((sqliteStore SqliteStore.defaultConv).appendAll SqliteStore.empty ops).2 :=
  ⟨fileStore_faults_nextIndex C fs ops, SqliteStore.sqliteStore_nextIndex ops⟩

/-- **Refused for ever.** Once `logs.dat` ends with the index after a logger's `i`,
as a failed `Append` whose record was written leaves it, every later `Append` of
the logger is refused as non-contiguous: the logger undid `i` and asks for the
same index again, whatever the operating system does. -/
theorem Logger.run_refused_after_kept_record (P : Primitives B) (C : BlockCodec B) :
    ∀ (ops : List (List UInt8 × Time)) (l : Logger B) (rs : List (Record B)) (as : List (Anchor B))
      (t? : Option (TailState B)) (fs : List Faults), lastIndex rs = l.i + 1 →
      ∀ res ∈ (l.run P (fileStore C) ⟨Files.encoding C rs as t?, fs⟩ ops).1,
        res = .error (SpecStore.nonContiguous (l.i + 1) (l.i + 1))
  | [], _, _, _, _, _, _ => by simp
  | (msg, ts) :: ops, l, rs, as, t?, fs, hlast => by
    have hne : lastIndex rs ≠ (Logger.pendingRecord P l msg ts).index - 1 := by
      show lastIndex rs ≠ l.i + 1 - 1
      rw [hlast, add_sub_cancel_right]
      exact fun h => absurd (add_right_eq_self.1 h) (by decide)
    have happ : l.append P (fileStore C) ⟨Files.encoding C rs as t?, fs⟩ msg ts =
        (.error (SpecStore.nonContiguous (l.i + 1) (l.i + 1)), { l.advance P with i := l.i },
          ⟨Files.encoding C rs as t?, fs.tail⟩) := by
      rw [Logger.append_eq, fileStore_append_of_lastIndex_ne C rs as t? fs _ _ _ hne, hlast]
      simp [Logger.pendingRecord, add_sub_cancel_right]
    intro res hres
    rw [Logger.run_cons, happ] at hres
    rcases List.mem_cons.1 hres with rfl | hres
    · rfl
    · exact Logger.run_refused_after_kept_record P C ops { l.advance P with i := l.i } rs as t? fs.tail
        hlast res hres

/-- One record whose `logs.dat` sync fails: the file store keeps it and the
contract still holds; the SQLite store takes it. -/
theorem appends_keep_indices_contiguous_one_append :
    (fileStore Block32.codec).NextIndex ((fileStore Block32.codec).appendAll
      ⟨Files.empty, [{ syncLog := true }]⟩
      [(⟨1, ⟨0⟩, bytesOf "a", Block32.zero, Block32.zero⟩, ⟨1, Block32.zero, Block32.zero⟩, none)]).2 ∧
    (sqliteStore SqliteStore.defaultConv).NextIndex
      ((sqliteStore SqliteStore.defaultConv).appendAll SqliteStore.empty
        [(⟨1, ⟨0⟩, bytesOf "a", Block32.zero, Block32.zero⟩, ⟨1, Block32.zero, Block32.zero⟩, none)]).2 :=
  ⟨(appends_keep_indices_contiguous Block32.codec _ _).1 (by decide),
    (appends_keep_indices_contiguous Block32.codec [] _).2⟩

/-- **The backings are the design's store on well-formed runs.** From empty, over
a run without I/O failures of fewer than `2^63 − 1` calls whose anchors come in
increasing index order, whose messages are non-empty and shorter than
`10^9 − 100` bytes (so that the `logs` row stays under `SQLITE_MAX_LENGTH`), and
whose tail and anchor indices are below `2^63`, the two stores return the same
result for every call and answer every read of an index below `2^63` alike: each
runs the design's store (`fileStore_appendAll_ofSpec`,
`sqliteStore_appendAll_ofSpec`). -/
theorem backings_agree (C : BlockCodec B) (conv : UInt64 → Except Error Int)
    (hconv : ∀ x : UInt64, x.toNat < 2 ^ 63 → conv x = .ok x.toNat)
    (ops : List (Record B × TailState B × Option (Anchor B))) (hlen : ops.length + 1 < 2 ^ 63)
    (hanchors : AnchorsAfter [] ops)
    (hmsg : ∀ o ∈ ops, o.1.msg ≠ [] ∧ o.1.msg.length + 100 ≤ 10 ^ 9)
    (hidx : ∀ o ∈ ops, o.2.1.index.toNat < 2 ^ 63 ∧ ∀ a ∈ o.2.2, a.index.toNat < 2 ^ 63) :
    ((fileStore C).appendAll FileStore.empty ops).1 =
      ((sqliteStore conv).appendAll SqliteStore.empty ops).1 ∧
    (∀ k : UInt64, k.toNat < 2 ^ 63 →
      (fileStore C).iter ((fileStore C).appendAll FileStore.empty ops).2 k =
        (sqliteStore conv).iter ((sqliteStore conv).appendAll SqliteStore.empty ops).2 k) ∧
    (∀ i : UInt64, i.toNat < 2 ^ 63 →
      (fileStore C).anchorAt ((fileStore C).appendAll FileStore.empty ops).2 i =
        (sqliteStore conv).anchorAt ((sqliteStore conv).appendAll SqliteStore.empty ops).2 i) ∧
    (fileStore C).listAnchors ((fileStore C).appendAll FileStore.empty ops).2 =
      (sqliteStore conv).listAnchors ((sqliteStore conv).appendAll SqliteStore.empty ops).2 ∧
    (fileStore C).tail ((fileStore C).appendAll FileStore.empty ops).2 =
      (sqliteStore conv).tail ((sqliteStore conv).appendAll SqliteStore.empty ops).2 := by
  have hf := fileStore_appendAll_ofSpec C ops SpecStore.empty contiguous_nil
    (by simp only [SpecStore.empty, List.length_nil]; omega) hanchors
  have hq := SqliteStore.sqliteStore_appendAll_ofSpec hconv ops (fun o ho => (hmsg o ho).1) hidx
    SpecStore.empty contiguous_nil (by simp only [SpecStore.empty, List.length_nil]; omega) hanchors
  have ht := SpecStore.Tidy.appendAll ops SpecStore.Tidy.empty hanchors
    (fun o ho => by have := (hmsg o ho).2; omega)
    (by simp only [SpecStore.empty, List.length_nil]; omega)
  rw [show FileStore.empty = FileStore.ofSpec C SpecStore.empty from rfl, hf,
    show SqliteStore.empty = SqliteStore.ofSpec SpecStore.empty from rfl, hq]
  exact ⟨rfl,
    fun k hk => (fileStore_iter_ofSpec C _ ht.small k).trans
      (SqliteStore.sqliteStore_iter_ofSpec _ hconv ht.contiguous hk).symm,
    fun i hi => (fileStore_anchorAt_ofSpec C _ i).trans
      (SqliteStore.sqliteStore_anchorAt_ofSpec _ hconv hi).symm,
    (fileStore_listAnchors_ofSpec C _).trans (SqliteStore.sqliteStore_listAnchors_ofSpec _ ht.ascending).symm,
    (fileStore_tail_ofSpec C _).trans (SqliteStore.sqliteStore_tail_ofSpec _).symm⟩

/-- Records 1 and 2 with the messages `a` and `b`, the second carrying an anchor. -/
def agreeingCalls : List (Record Block32 × TailState Block32 × Option (Anchor Block32)) :=
  [(⟨1, ⟨0⟩, bytesOf "a", Block32.zero, Block32.zero⟩, ⟨1, Block32.zero, Block32.zero⟩, none),
    (⟨2, ⟨0⟩, bytesOf "b", Block32.zero, Block32.zero⟩, ⟨2, Block32.zero, Block32.zero⟩,
      some ⟨2, Block32.zero, Block32.zero, Block32.zero⟩)]

theorem backings_agree_two_calls :
    (∀ x : UInt64, x.toNat < 2 ^ 63 → SqliteStore.defaultConv x = .ok x.toNat) ∧
    agreeingCalls.length + 1 < 2 ^ 63 ∧ AnchorsAfter [] agreeingCalls ∧
    (∀ o ∈ agreeingCalls, o.1.msg ≠ [] ∧ o.1.msg.length + 100 ≤ 10 ^ 9) ∧
    (∀ o ∈ agreeingCalls, o.2.1.index.toNat < 2 ^ 63 ∧ ∀ a ∈ o.2.2, a.index.toNat < 2 ^ 63) ∧
    ((fileStore Block32.codec).appendAll FileStore.empty agreeingCalls).1 =
      ((sqliteStore SqliteStore.defaultConv).appendAll SqliteStore.empty agreeingCalls).1 ∧
    (∀ k : UInt64, k.toNat < 2 ^ 63 →
      (fileStore Block32.codec).iter ((fileStore Block32.codec).appendAll FileStore.empty agreeingCalls).2 k =
        (sqliteStore SqliteStore.defaultConv).iter ((sqliteStore SqliteStore.defaultConv).appendAll
          SqliteStore.empty agreeingCalls).2 k) ∧
    (∀ i : UInt64, i.toNat < 2 ^ 63 →
      (fileStore Block32.codec).anchorAt
          ((fileStore Block32.codec).appendAll FileStore.empty agreeingCalls).2 i =
        (sqliteStore SqliteStore.defaultConv).anchorAt ((sqliteStore SqliteStore.defaultConv).appendAll
          SqliteStore.empty agreeingCalls).2 i) ∧
    (fileStore Block32.codec).listAnchors ((fileStore Block32.codec).appendAll FileStore.empty agreeingCalls).2 =
      (sqliteStore SqliteStore.defaultConv).listAnchors ((sqliteStore SqliteStore.defaultConv).appendAll
        SqliteStore.empty agreeingCalls).2 ∧
    (fileStore Block32.codec).tail ((fileStore Block32.codec).appendAll FileStore.empty agreeingCalls).2 =
      (sqliteStore SqliteStore.defaultConv).tail ((sqliteStore SqliteStore.defaultConv).appendAll
        SqliteStore.empty agreeingCalls).2 :=
  have hanchors : AnchorsAfter [] agreeingCalls := by simp [agreeingCalls, AnchorsAfter]
  ⟨SqliteStore.defaultConv_of_lt, by decide, hanchors, by decide, by decide,
    backings_agree Block32.codec SqliteStore.defaultConv SqliteStore.defaultConv_of_lt _ (by decide)
      hanchors (by decide) (by decide)⟩

/-- A block of 32 one-bytes. -/
def Block32.one : Block32 := ⟨List.replicate 32 1, rfl⟩

/-- Records 1 and 2, each carrying an anchor of index 1, the second with another key. -/
def repeatedAnchorCalls : List (Record Block32 × TailState Block32 × Option (Anchor Block32)) :=
  [(⟨1, ⟨0⟩, bytesOf "a", Block32.zero, Block32.zero⟩, ⟨1, Block32.zero, Block32.zero⟩,
      some ⟨1, Block32.zero, Block32.zero, Block32.zero⟩),
    (⟨2, ⟨0⟩, bytesOf "b", Block32.zero, Block32.zero⟩, ⟨2, Block32.zero, Block32.zero⟩,
      some ⟨1, Block32.one, Block32.zero, Block32.zero⟩)]

/-- **The stores disagree on a repeated anchor.** Append the records of index 1
and 2, with non-empty messages under the SQLite row limit, each carrying an
anchor, both anchors of one index: both stores accept both calls, but the file
store lists both anchors in the order written and answers `AnchorAt` with the
first, while the SQLite store lists the last one only and answers with it. -/
theorem stores_disagree_on_repeated_anchor (C : BlockCodec B) (conv : UInt64 → Except Error Int)
    (hconv : ∀ x : UInt64, x.toNat < 2 ^ 63 → conv x = .ok x.toNat)
    (r₁ r₂ : Record B) (t₁ t₂ : TailState B) (a₁ a₂ : Anchor B)
    (h₁ : r₁.index = 1) (h₂ : r₂.index = 2)
    (hm₁ : r₁.msg ≠ [] ∧ r₁.msg.length + 100 ≤ 10 ^ 9) (hm₂ : r₂.msg ≠ [] ∧ r₂.msg.length + 100 ≤ 10 ^ 9)
    (ht₁ : t₁.index.toNat < 2 ^ 63)
    (ht₂ : t₂.index.toNat < 2 ^ 63) (ha : a₂.index = a₁.index) (ha₁ : a₁.index.toNat < 2 ^ 63) :
    ((fileStore C).appendAll FileStore.empty [(r₁, t₁, some a₁), (r₂, t₂, some a₂)]).1 =
      [none, none] ∧
    ((sqliteStore conv).appendAll SqliteStore.empty [(r₁, t₁, some a₁), (r₂, t₂, some a₂)]).1 =
      [none, none] ∧
    (fileStore C).listAnchors
      ((fileStore C).appendAll FileStore.empty [(r₁, t₁, some a₁), (r₂, t₂, some a₂)]).2 =
      .ok [a₁, a₂] ∧
    (sqliteStore conv).listAnchors
      ((sqliteStore conv).appendAll SqliteStore.empty [(r₁, t₁, some a₁), (r₂, t₂, some a₂)]).2 =
      .ok [a₂] ∧
    (fileStore C).anchorAt
      ((fileStore C).appendAll FileStore.empty [(r₁, t₁, some a₁), (r₂, t₂, some a₂)]).2 a₁.index =
      .ok (some a₁) ∧
    (sqliteStore conv).anchorAt
      ((sqliteStore conv).appendAll SqliteStore.empty [(r₁, t₁, some a₁), (r₂, t₂, some a₂)]).2
      a₁.index = .ok (some a₂) := by
  have f₁ : (fileStore C).append FileStore.empty r₁ t₁ (some a₁) =
      (none, ⟨Files.encoding C [r₁] [a₁] (some t₁), []⟩) := by
    rw [FileStore.empty, Files.empty_eq_encoding, fileStore_append_encoding,
      if_neg (not_not.2 (by rw [h₁]; rfl))]
    rfl
  have f₂ : (fileStore C).append ⟨Files.encoding C [r₁] [a₁] (some t₁), []⟩ r₂ t₂ (some a₂) =
      (none, ⟨Files.encoding C [r₁, r₂] [a₁, a₂] (some t₂), []⟩) := by
    rw [fileStore_append_encoding, if_neg (not_not.2 (by
      show r₁.index = r₂.index - 1
      rw [h₁, h₂]; rfl))]
    rfl
  have hr₁ : conv r₁.index = .ok r₁.index.toNat := hconv _ (by rw [h₁]; decide)
  have hr₂ : conv r₂.index = .ok r₂.index.toNat := hconv _ (by rw [h₂]; decide)
  have q₁ : (sqliteStore conv).append SqliteStore.empty r₁ t₁ (some a₁) =
      (none, ⟨[LogRow.ofRecord r₁], [AnchorRow.ofAnchor a₁], some (TailRow.ofTail t₁)⟩) := by
    show SqliteStore.append conv _ _ _ _ = _
    rw [SqliteStore.append, SqliteStore.transaction_eq_of SqliteStore.empty (by
        show SqliteStore.uint64OfInt 0 = _
        rw [h₁]; decide) hr₁ hm₁.1
      rfl (by simpa using hconv _ ha₁) (hconv _ ht₁)]
    rfl
  have q₂ : (sqliteStore conv).append ⟨[LogRow.ofRecord r₁], [AnchorRow.ofAnchor a₁],
        some (TailRow.ofTail t₁)⟩ r₂ t₂ (some a₂) =
      (none, ⟨[LogRow.ofRecord r₁, LogRow.ofRecord r₂], [AnchorRow.ofAnchor a₂],
        some (TailRow.ofTail t₂)⟩) := by
    show SqliteStore.append conv _ _ _ _ = _
    rw [SqliteStore.append, SqliteStore.transaction_eq_of _ (by
        show SqliteStore.uint64OfInt (r₁.index.toNat : Int) = _
        rw [SqliteStore.uint64OfInt_toNat, h₁, h₂]; rfl) hr₂ hm₂.1
      (by simp [LogRow.ofRecord, h₁, h₂]) (by simpa [ha] using hconv _ ha₁) (hconv _ ht₂)]
    simp [SqliteStore.upsertAnchor, AnchorRow.ofAnchor, ha]
  simp only [Store.appendAll, f₁, f₂, q₁, q₂, true_and]
  refine ⟨fileStore_listAnchors_encoding C _ _ _ _, ?_,
    (fileStore_anchorAt_encoding C _ _ _ _ _).trans (by simp), ?_⟩
  · show SqliteStore.scanAnchors (List.mergeSort [AnchorRow.ofAnchor a₂] _) = _
    rw [List.mergeSort_of_sorted (List.pairwise_singleton _ _), SqliteStore.scanAnchors,
      if_neg (by simp only [AnchorRow.ofAnchor]; omega)]
    simp [SqliteStore.scanAnchors, AnchorRow.ofAnchor, Except.map]
  · show SqliteStore.anchorAt conv _ _ = _
    rw [← ha]
    simp [SqliteStore.anchorAt, hconv _ (ha ▸ ha₁), bind, Except.bind, pure, Except.pure,
      AnchorRow.ofAnchor]

theorem stores_disagree_on_repeated_anchor_two_calls :
    (∀ x : UInt64, x.toNat < 2 ^ 63 → SqliteStore.defaultConv x = .ok x.toNat) ∧
    ((fileStore Block32.codec).appendAll FileStore.empty repeatedAnchorCalls).1 = [none, none] ∧
    ((sqliteStore SqliteStore.defaultConv).appendAll SqliteStore.empty repeatedAnchorCalls).1 =
      [none, none] ∧
    (fileStore Block32.codec).listAnchors
      ((fileStore Block32.codec).appendAll FileStore.empty repeatedAnchorCalls).2 =
      .ok [⟨1, Block32.zero, Block32.zero, Block32.zero⟩, ⟨1, Block32.one, Block32.zero, Block32.zero⟩] ∧
    (sqliteStore SqliteStore.defaultConv).listAnchors
      ((sqliteStore SqliteStore.defaultConv).appendAll SqliteStore.empty repeatedAnchorCalls).2 =
      .ok [⟨1, Block32.one, Block32.zero, Block32.zero⟩] ∧
    (fileStore Block32.codec).anchorAt
      ((fileStore Block32.codec).appendAll FileStore.empty repeatedAnchorCalls).2 1 =
      .ok (some ⟨1, Block32.zero, Block32.zero, Block32.zero⟩) ∧
    (sqliteStore SqliteStore.defaultConv).anchorAt
      ((sqliteStore SqliteStore.defaultConv).appendAll SqliteStore.empty repeatedAnchorCalls).2 1 =
      .ok (some ⟨1, Block32.one, Block32.zero, Block32.zero⟩) :=
  ⟨SqliteStore.defaultConv_of_lt, stores_disagree_on_repeated_anchor Block32.codec
      SqliteStore.defaultConv SqliteStore.defaultConv_of_lt _ _ _ _ _ _ rfl rfl (by decide) (by decide)
      (by decide) (by decide) rfl (by decide)⟩

end SecureLog
