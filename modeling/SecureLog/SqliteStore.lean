import SecureLog.Store

/- The SQLite store (`sqlite_store.go`): the three tables, `Append` as one
   transaction, and the reads.

   A row's `idx` is the SQL integer the driver stored. How the driver binds a
   `uint64` argument is a parameter `conv`, since the repository does not fix
   it: `database/sql`'s default converter (`defaultConv`) takes a value below
   `2^63` to the same integer and refuses the others, and the results below hold
   for every conversion that agrees with it below `2^63` (`hconv`). Reading an
   `int64` back into a `uint64` keeps its bits (`uint64OfInt`); scanning a
   negative integer into a `uint64` fails.

   A table is its rows in the order they were inserted; each read the code
   orders (`ORDER BY idx ASC`) sorts them. `Append` commits all of its
   statements, or at the first error rolls back with no effect.

   The `logs` columns are `NOT NULL`. `Logger.Append` copies the message with
   `append([]byte(nil), msg...)`, which is `nil` for an empty message, and the
   driver binds a `nil` slice as `NULL`: the `INSERT` is refused. A record's
   message is a byte list here, with no `nil` apart from the empty list, so the
   model refuses every empty message, as the database does for every record the
   logger writes. `SQLITE_MAX_LENGTH` (10^9 bytes for a row) is not modelled: the
   results that say the database takes a record assume its message is under
   10^9 − 100 bytes, which leaves room for the row's other columns.

   Over rows of contiguous records, fewer than `2^63 − 1`, a successful `Append`
   is the next index and keeps the rows contiguous (`append_contiguous`). Under
   `database/sql`'s own conversion no index of `2^63` or more is ever stored, so
   the contract `Store.NextIndex` holds over every run, of any length
   (`sqliteStore_nextIndex`).

   Refinement: the database of a design store (`SqliteStore.ofSpec`) steps as
   the design's store does, error texts included, while its records are
   contiguous, each anchor comes after the held ones, every message is non-empty
   and every index is below `2^63` (`sqliteStore_appendAll_ofSpec`); its reads
   below `2^63` answer as the design's do. -/
namespace SecureLog

open scoped UInt64.CommRing

variable {B : Type}

/-- A row of `logs`. -/
structure LogRow (B : Type) where
  idx : Int
  ts : Int64
  msg : List UInt8
  tagV : B
  tagT : B
  deriving DecidableEq, Repr

/-- A row of `anchors`. -/
structure AnchorRow (B : Type) where
  idx : Int
  key : B
  tagV : B
  tagT : B
  deriving DecidableEq, Repr

/-- The row `id = 1` of `tail`. -/
structure TailRow (B : Type) where
  idx : Int
  tagV : B
  tagT : B
  deriving DecidableEq, Repr

/-- The database of a `sqliteStore`: the rows of `logs` and `anchors` in the order
they were inserted, and the row of `tail`. -/
structure SqliteStore (B : Type) where
  logs : List (LogRow B)
  anchors : List (AnchorRow B)
  tailRow : Option (TailRow B)
  deriving DecidableEq, Repr

namespace SqliteStore

/-- `database/sql`'s default conversion of a `uint64` argument. -/
def defaultConv (x : UInt64) : Except Error Int :=
  if x.toNat < 2 ^ 63 then .ok x.toNat
  else .error (.new "uint64 values with high bit set are not supported")

/-- `uint64(v)` of an `int64` read back from the database: the same bits. -/
def uint64OfInt (v : Int) : UInt64 := UInt64.ofNat (v % 2 ^ 64).toNat

/-- The database `OpenSQLiteStore` creates. -/
def empty : SqliteStore B := ⟨[], [], none⟩

/-- `SELECT COALESCE(MAX(idx),0) FROM logs`. -/
def maxIdx (rows : List (LogRow B)) : Int := ((rows.map LogRow.idx).max?).getD 0

/-- `INSERT INTO anchors ... ON CONFLICT(idx) DO UPDATE`: the row of the same key
is replaced, or the row is added. -/
def upsertAnchor (row : AnchorRow B) : List (AnchorRow B) → List (AnchorRow B)
  | [] => [row]
  | r :: rs => if r.idx = row.idx then row :: rs else r :: upsertAnchor row rs

variable (conv : UInt64 → Except Error Int)

/-- The statements of `Append`'s transaction, up to the first error. -/
def transaction (s : SqliteStore B) (r : Record B) (tail : TailState B)
    (anchor : Option (Anchor B)) : Except Error (SqliteStore B) := do
  let maxIdx := maxIdx s.logs
  if uint64OfInt maxIdx ≠ r.index - 1 then
    throw (.new ("non-contiguous append: have " ++ toString maxIdx ++ ", got " ++ toString r.index))
  let idx ← conv r.index
  -- `msg` is `NOT NULL`, and an empty message is the `nil` slice `Logger.Append` passes
  if r.msg = [] then throw .io
  -- `idx` is the primary key of `logs`
  if s.logs.any (fun row => row.idx = idx) then throw .io
  let anchors ← match anchor with
    | none => pure s.anchors
    | some a => do
      let i ← conv a.index
      pure (upsertAnchor ⟨i, a.key, a.tagV, a.tagT⟩ s.anchors)
  let ti ← conv tail.index
  pure ⟨s.logs ++ [⟨idx, r.ts, r.msg, r.tagV, r.tagT⟩], anchors, some ⟨ti, tail.tagV, tail.tagT⟩⟩

/-- `sqliteStore.Append`: the transaction commits, or rolls back with no effect. -/
def append (s : SqliteStore B) (r : Record B) (tail : TailState B) (anchor : Option (Anchor B)) :
    Option Error × SqliteStore B :=
  match transaction conv s r tail anchor with
  | .ok s' => (none, s')
  | .error e => (some e, s)

/-- `rows.Scan` of the rows of `Iter` into a `uint64` index: a negative integer
does not convert, and the reader stops there. -/
def scanLogs : List (LogRow B) → List (Record B)
  | [] => []
  | row :: rows =>
    if row.idx < 0 then []
    else ⟨UInt64.ofNat row.idx.toNat, row.ts, row.msg, row.tagV, row.tagT⟩ :: scanLogs rows

/-- `Iter(startIdx)`: `SELECT ... FROM logs WHERE idx >= ? ORDER BY idx ASC`. -/
def iter (s : SqliteStore B) (startIdx : UInt64) : Except Error (List (Record B)) := do
  let k ← conv startIdx
  pure (scanLogs ((s.logs.filter (fun row => k ≤ row.idx)).mergeSort (fun a b => a.idx ≤ b.idx)))

/-- `AnchorAt(i)`: `SELECT ... FROM anchors WHERE idx=?`, read back through `int64`. -/
def anchorAt (s : SqliteStore B) (i : UInt64) : Except Error (Option (Anchor B)) := do
  let k ← conv i
  pure ((s.anchors.find? (fun row => row.idx = k)).map fun row =>
    ⟨uint64OfInt row.idx, row.key, row.tagV, row.tagT⟩)

/-- `rows.Scan` of the rows of `ListAnchors` into a `uint64` index: a negative
integer is an error. -/
def scanAnchors : List (AnchorRow B) → Except Error (List (Anchor B))
  | [] => .ok []
  | row :: rows =>
    if row.idx < 0 then .error .io
    else (scanAnchors rows).map fun as =>
      (⟨UInt64.ofNat row.idx.toNat, row.key, row.tagV, row.tagT⟩ : Anchor B) :: as

/-- `ListAnchors()`: `SELECT ... FROM anchors ORDER BY idx ASC`. -/
def listAnchors (s : SqliteStore B) : Except Error (List (Anchor B)) :=
  scanAnchors (s.anchors.mergeSort (fun a b => a.idx ≤ b.idx))

/-- `Tail()`: the row `id = 1`, read back through `int64`. -/
def tail (s : SqliteStore B) : Option (TailState B) :=
  s.tailRow.map fun row => ⟨uint64OfInt row.idx, row.tagV, row.tagT⟩

end SqliteStore

/-- The SQLite store behind the `Store` interface. -/
def sqliteStore (conv : UInt64 → Except Error Int) : Store (SqliteStore B) B where
  append := SqliteStore.append conv
  iter := SqliteStore.iter conv
  anchorAt := SqliteStore.anchorAt conv
  listAnchors s := s.listAnchors
  tail s := .ok s.tail

/-! ## Rows of records -/

/-- The row `Append` inserts for a record whose index converts to itself. -/
def LogRow.ofRecord (r : Record B) : LogRow B := ⟨r.index.toNat, r.ts, r.msg, r.tagV, r.tagT⟩

/-- The row `Append` upserts for an anchor whose index converts to itself. -/
def AnchorRow.ofAnchor (a : Anchor B) : AnchorRow B := ⟨a.index.toNat, a.key, a.tagV, a.tagT⟩

/-- The row `Append` upserts for a tail whose index converts to itself. -/
def TailRow.ofTail (t : TailState B) : TailRow B := ⟨t.index.toNat, t.tagV, t.tagT⟩

namespace SqliteStore

theorem uint64OfInt_natCast (n : ℕ) : uint64OfInt n = (n : UInt64) := by
  rw [uint64_eq_iff, uint64_toNat_natCast, uint64OfInt, uint64_toNat_ofNat]
  omega

@[simp] theorem uint64OfInt_toNat (x : UInt64) : uint64OfInt x.toNat = x := by
  rw [uint64OfInt_natCast, uint64_eq_iff, uint64_toNat_natCast]
  exact Nat.mod_eq_of_lt x.toNat_lt_size

theorem max?_append_singleton {l : List Int} {m : Int} (h : l.max? = some m) (x : Int) :
    (l ++ [x]).max? = some (max m x) := by
  cases l with
  | nil => cases h
  | cons a l =>
    rw [List.max?_cons'] at h
    cases h
    rw [List.cons_append, List.max?_cons', List.foldl_append]
    rfl

theorem max?_range_succ (n : ℕ) :
    ((List.range (n + 1)).map (fun j => ((j + 1 : ℕ) : Int))).max? = some ((n + 1 : ℕ) : Int) := by
  induction n with
  | zero => rfl
  | succ n ih =>
    rw [List.range_succ, List.map_append, List.map_singleton, max?_append_singleton ih]
    congr 1; omega

/-- `COALESCE(MAX(idx), 0)` over the keys `1, …, n` is `n`. -/
theorem maxIdx_range (n : ℕ) :
    (((List.range n).map (fun j => ((j + 1 : ℕ) : Int))).max?).getD 0 = n := by
  cases n with
  | zero => rfl
  | succ n => rw [max?_range_succ]; rfl

/-- The rows of contiguous records carry the keys `1, …, n`. -/
theorem idx_ofRecord {rs : List (Record B)} (hc : Contiguous rs) :
    (rs.map LogRow.ofRecord).map LogRow.idx = (List.range rs.length).map (fun j => ((j + 1 : ℕ) : Int)) := by
  have := congrArg (List.map (fun n : ℕ => (n : Int))) hc
  simpa [Function.comp_def, LogRow.ofRecord] using this

theorem maxIdx_ofRecord {rs : List (Record B)} (hc : Contiguous rs) :
    maxIdx (rs.map LogRow.ofRecord) = rs.length := by
  rw [maxIdx, idx_ofRecord hc, maxIdx_range]

theorem scanLogs_ofRecord (rs : List (Record B)) : scanLogs (rs.map LogRow.ofRecord) = rs := by
  induction rs with
  | nil => rfl
  | cons r rs ih =>
    rw [List.map_cons, scanLogs, if_neg (by simp only [LogRow.ofRecord]; omega), ih]
    simp [LogRow.ofRecord]

theorem pairwise_ofRecord {rs : List (Record B)} (hc : Contiguous rs) :
    (rs.map LogRow.ofRecord).Pairwise (fun a b => a.idx < b.idx) := by
  have h : ((rs.map LogRow.ofRecord).map LogRow.idx).Pairwise (· < ·) := by
    rw [idx_ofRecord hc, List.pairwise_map]
    exact (List.pairwise_lt_range _).imp fun h => by push_cast; omega
  exact List.pairwise_map.1 h

/-! ## What one `Append` does -/

variable (conv : UInt64 → Except Error Int)

/-- `Append` commits the transaction's database, or fails and leaves the database. -/
theorem append_cases (s : SqliteStore B) (r : Record B) (t : TailState B) (a? : Option (Anchor B)) :
    (∃ s', transaction conv s r t a? = .ok s' ∧ append conv s r t a? = (none, s')) ∨
      ∃ e, append conv s r t a? = (some e, s) := by
  unfold append
  split
  · exact .inl ⟨_, ‹_›, rfl⟩
  · exact .inr ⟨_, rfl⟩

variable {conv}

/-- What a committed transaction did: the check passed, the record's index and
the tail's converted, and the record row and the tail row were written. -/
theorem transaction_eq_ok {s s' : SqliteStore B} {r : Record B} {t : TailState B}
    {a? : Option (Anchor B)} (h : transaction conv s r t a? = .ok s') :
    uint64OfInt (maxIdx s.logs) = r.index - 1 ∧
    ∃ idx ti, conv r.index = .ok idx ∧ conv t.index = .ok ti ∧
      s'.logs = s.logs ++ [⟨idx, r.ts, r.msg, r.tagV, r.tagT⟩] ∧ s'.tailRow = some ⟨ti, t.tagV, t.tagT⟩ := by
  unfold transaction at h
  simp only [bind, Except.bind, pure, Except.pure] at h
  split_ifs at h with h1 hm
  · -- the message is empty
    split at h <;> cases h
  refine ⟨not_not.1 h1, ?_⟩
  split at h; · cases h
  rename_i idx hidx
  split_ifs at h
  split at h
  · split at h; · cases h
    rename_i ti hti
    cases h
    exact ⟨idx, ti, hidx, hti, rfl, rfl⟩
  · split at h; · cases h
    split at h; · cases h
    rename_i ti hti
    cases h
    exact ⟨idx, ti, hidx, hti, rfl, rfl⟩

/-- A transaction whose check passes, whose arguments all convert to themselves,
whose message is not empty and whose record index is new commits its three writes. -/
theorem transaction_eq_of (s : SqliteStore B) {r : Record B} {t : TailState B}
    {a? : Option (Anchor B)} (hmax : uint64OfInt (maxIdx s.logs) = r.index - 1)
    (hr : conv r.index = .ok r.index.toNat) (hmsg : r.msg ≠ [])
    (hnew : s.logs.any (fun row => row.idx = r.index.toNat) = false)
    (ha : ∀ a ∈ a?, conv a.index = .ok a.index.toNat) (ht : conv t.index = .ok t.index.toNat) :
    transaction conv s r t a? = .ok ⟨s.logs ++ [LogRow.ofRecord r],
      a?.elim s.anchors (fun a => upsertAnchor (AnchorRow.ofAnchor a) s.anchors),
      some (TailRow.ofTail t)⟩ := by
  cases a? <;> simp_all [transaction, bind, Except.bind, pure, Except.pure, LogRow.ofRecord,
    AnchorRow.ofAnchor, TailRow.ofTail]

/-! ## Contiguity -/

/-- Over rows of contiguous records, `Iter(k)` for `k < 2^63` yields the records
from index `k`. -/
theorem iter_ofRecord (hconv : ∀ x : UInt64, x.toNat < 2 ^ 63 → conv x = .ok x.toNat) {s : SqliteStore B} {rs : List (Record B)} (hs : s.logs = rs.map LogRow.ofRecord)
    (hc : Contiguous rs) {k : UInt64} (hk : k.toNat < 2 ^ 63) :
    iter conv s k = .ok (rs.filter (fun r => k ≤ r.index)) := by
  have hfilter : (rs.map LogRow.ofRecord).filter (fun row => (k.toNat : Int) ≤ row.idx) =
      (rs.filter (fun r => k ≤ r.index)).map LogRow.ofRecord := by
    rw [List.filter_map]
    congr 2
    funext r
    simp [LogRow.ofRecord, uint64_le_iff]
  have hsorted : ((rs.map LogRow.ofRecord).filter (fun row => (k.toNat : Int) ≤ row.idx)).Pairwise
      (fun a b => decide (a.idx ≤ b.idx) = true) :=
    ((pairwise_ofRecord hc).filter _).imp fun h => decide_eq_true (le_of_lt h)
  simp only [iter, hconv k hk, hs, bind, Except.bind, pure, Except.pure]
  rw [List.mergeSort_of_sorted hsorted, hfilter, scanLogs_ofRecord]

/-- **Contiguity, one step.** Over rows of contiguous records, fewer than
`2^63 − 1`, an `Append` that commits was for the next index, leaves rows of
contiguous records, and leaves its tail if that carries the record's index. -/
theorem append_contiguous (hconv : ∀ x : UInt64, x.toNat < 2 ^ 63 → conv x = .ok x.toNat)
    {s s' : SqliteStore B} {rs : List (Record B)}
    (hs : s.logs = rs.map LogRow.ofRecord) (hc : Contiguous rs) (hlen : rs.length + 1 < 2 ^ 63)
    {r : Record B} {t : TailState B} {a? : Option (Anchor B)}
    (h : transaction conv s r t a? = .ok s') :
    r.index.toNat = rs.length + 1 ∧ s'.logs = (rs ++ [r]).map LogRow.ofRecord ∧
      (t.index = r.index → s'.tail = some t) := by
  obtain ⟨hmax, idx, ti, hidx, hti, hlogs, htail⟩ := transaction_eq_ok h
  rw [hs, maxIdx_ofRecord hc, uint64OfInt_natCast,
    uint64_eq_sub_one_iff (uint64_toNat_natCast _ |>.trans (Nat.mod_eq_of_lt (by omega)))
      (by omega)] at hmax
  have hr : conv r.index = .ok r.index.toNat := hconv _ (by omega)
  refine ⟨hmax, ?_, fun hti' => ?_⟩
  · rw [hlogs, hs, Except.ok.inj (hidx.symm.trans hr)]
    simp [LogRow.ofRecord]
  · rw [hti', hr] at hti
    rw [tail, htail, ← Except.ok.inj hti]
    simp [← hti']

/-- `database/sql`'s conversion stores exactly the values below `2^63`, each as itself. -/
theorem defaultConv_eq_ok {x : UInt64} {i : Int} (h : defaultConv x = .ok i) :
    x.toNat < 2 ^ 63 ∧ i = x.toNat := by
  unfold defaultConv at h
  split_ifs at h with hx
  · exact ⟨hx, (Except.ok.inj h).symm⟩

theorem defaultConv_of_lt (x : UInt64) (hx : x.toNat < 2 ^ 63) : defaultConv x = .ok x.toNat :=
  if_pos hx

/-- **Contiguity, one step, under `database/sql`'s conversion.** Over rows of
contiguous records, fewer than `2^63`, an `Append` that commits was for the next
index, which is below `2^63`, and keeps the rows contiguous. -/
theorem append_contiguous_defaultConv {s s' : SqliteStore B} {rs : List (Record B)}
    (hs : s.logs = rs.map LogRow.ofRecord) (hc : Contiguous rs) (hlen : rs.length < 2 ^ 63)
    {r : Record B} {t : TailState B} {a? : Option (Anchor B)}
    (h : transaction defaultConv s r t a? = .ok s') :
    rs.length + 1 < 2 ^ 63 ∧ r.index.toNat = rs.length + 1 ∧
      s'.logs = (rs ++ [r]).map LogRow.ofRecord ∧ (t.index = r.index → s'.tail = some t) := by
  obtain ⟨hmax, idx, -, hidx, -⟩ := transaction_eq_ok h
  rw [hs, maxIdx_ofRecord hc, uint64OfInt_natCast,
    uint64_eq_sub_one_iff (uint64_toNat_natCast _ |>.trans (Nat.mod_eq_of_lt (by omega)))
      (by omega)] at hmax
  have hlen' : rs.length + 1 < 2 ^ 63 := hmax ▸ (defaultConv_eq_ok hidx).1
  exact ⟨hlen', append_contiguous defaultConv_of_lt hs hc hlen' h⟩

/-- **Contiguity, one state.** Over rows of contiguous records, fewer than `2^63`,
the contract holds under `database/sql`'s conversion. -/
theorem sqliteStore_nextIndex_of {s : SqliteStore B} {rs : List (Record B)}
    (hs : s.logs = rs.map LogRow.ofRecord) (hc : Contiguous rs) (hlen : rs.length < 2 ^ 63) :
    (sqliteStore defaultConv).NextIndex s := by
  refine ⟨rs.length, ⟨rs, ?_, rfl, hc⟩, fun r t a? hok => ?_⟩
  · have h := iter_ofRecord defaultConv_of_lt hs hc (k := 0) (by decide)
    rwa [List.filter_eq_self.2 fun r _ => by simp [uint64_le_iff]] at h
  · change (append defaultConv s r t a?).1 = none at hok
    rcases append_cases defaultConv s r t a? with ⟨s', htx, happ⟩ | ⟨e, happ⟩
    · have h := append_contiguous_defaultConv hs hc hlen htx
      refine ⟨h.2.1, fun hti => ?_⟩
      show Except.ok (tail (append defaultConv s r t a?).2) = _
      rw [happ]
      exact congrArg Except.ok (h.2.2.2 hti)
    · rw [happ] at hok
      cases hok

/-- **Contiguity, a run.** Under `database/sql`'s conversion the rows stay those of
fewer than `2^63` contiguous records, over a run of any length. -/
theorem sqliteStore_appendAll_contiguous (ops : List (Record B × TailState B × Option (Anchor B))) :
    ∀ (s : SqliteStore B) (rs : List (Record B)), s.logs = rs.map LogRow.ofRecord → Contiguous rs →
      rs.length < 2 ^ 63 →
      ∃ rs', ((sqliteStore defaultConv).appendAll s ops).2.logs = rs'.map LogRow.ofRecord ∧
        Contiguous rs' ∧ rs'.length < 2 ^ 63 := by
  induction ops with
  | nil => exact fun _ rs hs hc hlen => ⟨rs, hs, hc, hlen⟩
  | cons op ops ih =>
    intro s rs hs hc hlen
    obtain ⟨r, t, a?⟩ := op
    rw [Store.appendAll_cons]
    rcases append_cases defaultConv s r t a? with ⟨s', htx, happ⟩ | ⟨e, happ⟩
    · obtain ⟨hlen', hr, hlogs, -⟩ := append_contiguous_defaultConv hs hc hlen htx
      rw [show ((sqliteStore defaultConv).append s r t a?).2 = s' from congrArg Prod.snd happ]
      exact ih s' (rs ++ [r]) hlogs (contiguous_append_singleton.2 ⟨hc, hr⟩) (by simpa using hlen')
    · rw [show ((sqliteStore defaultConv).append s r t a?).2 = s from congrArg Prod.snd happ]
      exact ih s rs hs hc hlen

/-- **Contiguity of the SQLite store.** After any run of appends from the empty
database, of any length, the contract holds under `database/sql`'s conversion. -/
theorem sqliteStore_nextIndex (ops : List (Record B × TailState B × Option (Anchor B))) :
    (sqliteStore defaultConv).NextIndex ((sqliteStore defaultConv).appendAll SqliteStore.empty ops).2 := by
  obtain ⟨rs, hs, hc, hrs⟩ :=
    sqliteStore_appendAll_contiguous ops SqliteStore.empty [] rfl contiguous_nil (by simp)
  exact sqliteStore_nextIndex_of hs hc hrs

/-! ## The SQLite store refines the design's store -/

/-- The database holding a design store. -/
def ofSpec (s : SpecStore B) : SqliteStore B :=
  ⟨s.records.map LogRow.ofRecord, s.anchors.map AnchorRow.ofAnchor, s.tail.map TailRow.ofTail⟩

/-- A transaction whose check fails throws the non-contiguous error. -/
theorem transaction_of_check {s : SqliteStore B} {r : Record B} (t : TailState B)
    (a? : Option (Anchor B)) (h : uint64OfInt (maxIdx s.logs) ≠ r.index - 1) :
    transaction conv s r t a? = .error (.new ("non-contiguous append: have " ++
      toString (maxIdx s.logs) ++ ", got " ++ toString r.index)) := by
  simp only [transaction, if_pos h]
  rfl

/-- A row of a key none of the others has goes last. -/
theorem upsertAnchor_of_ne {row : AnchorRow B} {rows : List (AnchorRow B)}
    (h : ∀ x ∈ rows, x.idx ≠ row.idx) : upsertAnchor row rows = rows ++ [row] := by
  induction rows with
  | nil => rfl
  | cons x xs ih =>
    rw [upsertAnchor, if_neg (h x (List.mem_cons_self _ _)),
      ih fun y hy => h y (List.mem_cons_of_mem _ hy)]
    rfl

/-- Rows of contiguous records do not hold the next key. -/
theorem any_ofRecord_next {rs : List (Record B)} (hc : Contiguous rs) :
    (rs.map LogRow.ofRecord).any (fun row => row.idx = ((rs.length + 1 : ℕ) : Int)) = false := by
  refine List.any_eq_false.2 fun row hrow h => ?_
  have hmem := List.mem_map_of_mem LogRow.idx hrow
  rw [idx_ofRecord hc, List.mem_map] at hmem
  obtain ⟨j, hj, hidx⟩ := hmem
  rw [List.mem_range] at hj
  simp only [decide_eq_true_eq] at h
  omega

/-- **Refinement, one step.** On the database of a design store with contiguous
records, fewer than `2^63 − 1`, an `Append` of a non-empty message whose anchor
comes after every held one and whose indices are below `2^63` returns what the design's `append`
returns, its error text included, and leaves the database of the store it leaves. -/
theorem sqliteStore_append_ofSpec (hconv : ∀ x : UInt64, x.toNat < 2 ^ 63 → conv x = .ok x.toNat)
    (s : SpecStore B) (hc : Contiguous s.records) (hn : s.records.length + 1 < 2 ^ 63) (r : Record B)
    (hm : r.msg ≠ []) (t : TailState B) (a? : Option (Anchor B))
    (ha : ∀ a ∈ a?, ∀ b ∈ s.anchors, b.index < a.index)
    (ht : t.index.toNat < 2 ^ 63) (ha' : ∀ a ∈ a?, a.index.toNat < 2 ^ 63) :
    (sqliteStore conv).append (ofSpec s) r t a? = ((s.append r t a?).1, ofSpec (s.append r t a?).2) := by
  have hmax : uint64OfInt (maxIdx (ofSpec s).logs) = SpecStore.maxIndex s.records := by
    rw [ofSpec, maxIdx_ofRecord hc, uint64OfInt_natCast, SpecStore.maxIndex_of_contiguous hc]
  show append conv (ofSpec s) r t a? = _
  unfold SpecStore.append
  split_ifs with h
  · have hstr : toString (maxIdx (ofSpec s).logs) = toString (SpecStore.maxIndex s.records) := by
      rw [ofSpec, maxIdx_ofRecord hc, SpecStore.maxIndex_of_contiguous hc]
      show toString s.records.length = toString ((s.records.length : UInt64).toNat)
      rw [uint64_toNat_natCast, Nat.mod_eq_of_lt (by omega)]
    rw [append, transaction_of_check t a? (hmax ▸ h), hstr]
    rfl
  · have hr : r.index.toNat = s.records.length + 1 := by
      have hm : (SpecStore.maxIndex s.records).toNat = s.records.length := by
        rw [SpecStore.maxIndex_of_contiguous hc, uint64_toNat_natCast]; omega
      exact (uint64_eq_sub_one_iff hm (by omega) r.index).1 (not_not.1 h)
    have hnew := any_ofRecord_next hc
    rw [← hr] at hnew
    rw [append, transaction_eq_of (ofSpec s) (hmax.trans (not_not.1 h)) (hconv _ (by omega)) hm hnew
      (fun a ha => hconv _ (ha' a ha)) (hconv _ ht), SpecStore.putAnchor_of_lt ha]
    cases a? with
    | none => simp [ofSpec]
    | some a =>
      have hne : ∀ x ∈ s.anchors.map AnchorRow.ofAnchor, x.idx ≠ (AnchorRow.ofAnchor a).idx := by
        intro x hx
        obtain ⟨b, hb, rfl⟩ := List.mem_map.1 hx
        have := (uint64_lt_iff _ _).1 (ha a rfl b hb)
        simp only [AnchorRow.ofAnchor]
        omega
      simp [ofSpec, upsertAnchor_of_ne hne]

/-- **Refinement, a run.** -/
theorem sqliteStore_appendAll_ofSpec
    (hconv : ∀ x : UInt64, x.toNat < 2 ^ 63 → conv x = .ok x.toNat)
    (ops : List (Record B × TailState B × Option (Anchor B))) (hmsg : ∀ o ∈ ops, o.1.msg ≠ [])
    (hidx : ∀ o ∈ ops, o.2.1.index.toNat < 2 ^ 63 ∧ ∀ a ∈ o.2.2, a.index.toNat < 2 ^ 63) :
    ∀ (s : SpecStore B), Contiguous s.records → s.records.length + ops.length < 2 ^ 63 →
      AnchorsAfter s.anchors ops →
      (sqliteStore conv).appendAll (ofSpec s) ops =
        ((SpecStore.store.appendAll s ops).1, ofSpec (SpecStore.store.appendAll s ops).2) := by
  induction ops with
  | nil => exact fun _ _ _ _ => rfl
  | cons op ops ih =>
    obtain ⟨r, t, a?⟩ := op
    intro s hc hn ha
    simp only [List.length_cons] at hn
    have ho := hidx _ (List.mem_cons_self _ _)
    have hrest := ih (fun o h => hmsg o (List.mem_cons_of_mem _ h))
      (fun o h => hidx o (List.mem_cons_of_mem _ h)) (s.append r t a?).2
      (SpecStore.append_contiguous hc (by omega) r t a?)
      (by have := SpecStore.length_append_le s r t a?; omega) ha.append
    rw [Store.appendAll_cons_eq, Store.appendAll_cons_eq,
      sqliteStore_append_ofSpec hconv s hc (by omega) r (hmsg _ (List.mem_cons_self _ _)) t a? ha.1
        ho.1 ho.2, SpecStore.store_append]
    dsimp only
    rw [hrest]

section Reads

variable (s : SpecStore B)

theorem sqliteStore_iter_ofSpec (hconv : ∀ x : UInt64, x.toNat < 2 ^ 63 → conv x = .ok x.toNat)
    (hc : Contiguous s.records) {k : UInt64} (hk : k.toNat < 2 ^ 63) :
    (sqliteStore conv).iter (ofSpec s) k = .ok (s.iter k) :=
  iter_ofRecord hconv rfl hc hk

theorem sqliteStore_anchorAt_ofSpec
    (hconv : ∀ x : UInt64, x.toNat < 2 ^ 63 → conv x = .ok x.toNat) {i : UInt64}
    (hi : i.toNat < 2 ^ 63) : (sqliteStore conv).anchorAt (ofSpec s) i = .ok (s.anchorAt i) := by
  have hfind : (s.anchors.map AnchorRow.ofAnchor).find? (fun row => row.idx = (i.toNat : Int)) =
      (s.anchorAt i).map AnchorRow.ofAnchor := by
    rw [List.find?_map, SpecStore.anchorAt]
    congr 2
    funext a
    simp [AnchorRow.ofAnchor, uint64_eq_iff]
  show anchorAt conv (ofSpec s) i = _
  simp only [anchorAt, hconv i hi, ofSpec, bind, Except.bind, pure, Except.pure, hfind,
    Option.map_map]
  congr 2
  cases s.anchorAt i <;> simp [AnchorRow.ofAnchor]

theorem scanAnchors_ofAnchor (as : List (Anchor B)) : scanAnchors (as.map AnchorRow.ofAnchor) = .ok as := by
  induction as with
  | nil => rfl
  | cons a as ih =>
    rw [List.map_cons, scanAnchors, if_neg (by simp only [AnchorRow.ofAnchor]; omega), ih]
    simp [AnchorRow.ofAnchor, Except.map]

theorem sqliteStore_listAnchors_ofSpec (hasc : s.anchors.Pairwise (fun a b => a.index < b.index)) :
    (sqliteStore conv).listAnchors (ofSpec s) = .ok s.anchors := by
  have hsorted : (s.anchors.map AnchorRow.ofAnchor).Pairwise
      (fun a b => decide (a.idx ≤ b.idx) = true) := by
    refine List.pairwise_map.2 (hasc.imp fun h => ?_)
    have := (uint64_lt_iff _ _).1 h
    simp only [AnchorRow.ofAnchor, decide_eq_true_eq]
    omega
  show scanAnchors ((s.anchors.map AnchorRow.ofAnchor).mergeSort _) = _
  rw [List.mergeSort_of_sorted hsorted, scanAnchors_ofAnchor]

theorem sqliteStore_tail_ofSpec : (sqliteStore conv).tail (ofSpec s) = .ok s.tail := by
  show Except.ok ((s.tail.map TailRow.ofTail).map _) = _
  cases s.tail <;> simp [TailRow.ofTail]

end Reads

end SqliteStore

end SecureLog
