import SecureLog.Binding
import SecureLog.Verifier

/- Tampering and truncation are detected, under idealised primitives.

   1. An edit of one field a chain reads (index, timestamp, message, or the tag
      the chain compares) in a record the replay accepted makes the replay fail at
      that record (`verifyLoop_cons_edit`): a changed index breaks the expected
      index, a changed MAC input changes the MAC (`mac_inj`) and so the tag
      (`chainStep_tag_inj`), and a changed tag no longer matches the unchanged
      step. The records before it replay as before (`verifyLoop_prefix_state`),
      so the whole replay fails (`verifyChain_detects_edit`).
   2. A replay from the origin that ends at the tail's tag of an honest store ran
      over as many records as the store holds (`Honest.replay_length`, from chain
      binding). So a proper prefix of the records never replays to the tail's tag,
      and the verifiers from the origin reject a store cut to such a prefix
      (`Honest.verifyToTail_truncated`), whatever its length. -/
namespace SecureLog

open scoped UInt64.CommRing

variable {B : Type} {P : Primitives B}

/-! ## Editing one record -/

/-- A record with one field that chain `c` reads replaced by a different value:
its index, timestamp or message, or the tag the chain compares (`TagV` for the
verifier chain, `TagT` for the trusted one). -/
inductive FieldEdit (c : Bool) : Record B → Record B → Prop
  | index (r : Record B) (i : UInt64) : i ≠ r.index → FieldEdit c r { r with index := i }
  | ts (r : Record B) (ts : Int64) : ts ≠ r.ts → FieldEdit c r { r with ts := ts }
  | msg (r : Record B) (m : List UInt8) : m ≠ r.msg → FieldEdit c r { r with msg := m }
  | tagV (r : Record B) (v : B) : c = true → v ≠ r.tagV → FieldEdit c r { r with tagV := v }
  | tagT (r : Record B) (v : B) : c = false → v ≠ r.tagT → FieldEdit c r { r with tagT := v }

section Edit

variable {c : Bool} {key prev : B} {expect : UInt64}

/-- Under idealised primitives a step from the same key and tag over another MAC
input yields another tag. -/
theorem chainStep_ne_of_input_ne (hP : Ideal P) {i i' : UInt64} {ts ts' : Int64}
    {m m' : List UInt8} (hne : (i', ts', m') ≠ (i, ts, m)) :
    (chainStep P key prev i' ts' m').2 ≠ (chainStep P key prev i ts m).2 := fun h => by
  obtain ⟨-, hmac⟩ := chainStep_tag_inj hP h
  obtain ⟨rfl, rfl, rfl⟩ := mac_inj hP hmac
  exact hne rfl

/-- **Step lemma.** A record that passed a replay step, with one field the chain
reads edited, fails that step: with a gap if the index changed, with a tag
mismatch otherwise. -/
theorem verifyLoop_cons_edit (hP : Ideal P) {r r' : Record B} (hedit : FieldEdit c r r')
    (hi : r.index = expect + 1) (heq : (chainStep P key prev r.index r.ts r.msg).2 = storedTag c r)
    (rest : List (Record B)) (lastTag : B) :
    (verifyLoop P c (r' :: rest) key prev expect lastTag).2 = some .gap ∨
      (verifyLoop P c (r' :: rest) key prev expect lastTag).2 = some .tagMismatch := by
  cases hedit with
  | index i hne =>
    left
    rw [verifyLoop_cons_gap (by rwa [← hi])]
  | ts ts hne =>
    right
    rw [verifyLoop_cons_mismatch (r := { r with ts := ts }) hi
      (heq ▸ chainStep_ne_of_input_ne hP (by simp [hne]))]
  | msg m hne =>
    right
    rw [verifyLoop_cons_mismatch (r := { r with msg := m }) hi
      (heq ▸ chainStep_ne_of_input_ne hP (by simp [hne]))]
  | tagV v hc hne =>
    right
    subst hc
    rw [verifyLoop_cons_mismatch (r := { r with tagV := v }) hi
      (by simpa [storedTag, heq] using hne.symm)]
  | tagT v hc hne =>
    right
    subst hc
    rw [verifyLoop_cons_mismatch (r := { r with tagT := v }) hi
      (by simpa [storedTag, heq] using hne.symm)]

/-- Under idealised primitives a replay that accepts `pre ++ r :: post` rejects
`pre ++ r' :: post` for every one-field edit `r'` of `r`. -/
theorem verifyChain_detects_edit (hP : Ideal P) {pre post : List (Record B)} {r r' : Record B}
    (hedit : FieldEdit c r r') {s : UInt64} {k t t' : B}
    (h : verifyChain P (pre ++ r :: post) s k t c = (t', none)) :
    (verifyChain P (pre ++ r' :: post) s k t c).2 = some .gap ∨
      (verifyChain P (pre ++ r' :: post) s k t c).2 = some .tagMismatch := by
  obtain ⟨tp, hpre⟩ := verifyLoop_append_left_ok h
  obtain ⟨key, prev, expect, lastTag, hstate⟩ := verifyLoop_prefix_state hpre
  rw [verifyChain, hstate] at h ⊢
  obtain ⟨hi, heq, -⟩ := verifyLoop_cons_eq_ok h
  exact verifyLoop_cons_edit hP hedit hi heq post lastTag

end Edit

/-! ## Truncating an honest log -/

/-- What a verifier over the abstract store accepted: a tail, and a replay of the
records after the start index that ends at the tail's tag. -/
theorem verifyToTail_spec_eq_none {c : Bool} {s : SpecStore B} {idx : UInt64} {key tag : B}
    (h : verifyToTail P c SpecStore.store s idx key tag = none) :
    ∃ tl, s.tail = some tl ∧ verifyChain P (s.iter (idx + 1)) idx key tag c = (tailTag c tl, none) := by
  simp only [verifyToTail, SpecStore.store] at h
  split at h
  · cases h
  · rename_i final hrep
    split at h
    · cases h
    · cases h
    · rename_i tl htl
      simp only [Except.ok.injEq] at htl
      refine ⟨tl, htl, ?_⟩
      split_ifs at h with hne
      rw [hrep]
      simpa [P.equal_iff] using hne

namespace Honest

variable {a0 b0 : B} {l : Logger B} {s : SpecStore B}

/-- The start key of chain `c`: `A_0` for the verifier chain, `B_0` for the trusted one. -/
def seed (a0 b0 : B) (c : Bool) : B := if c then a0 else b0

theorem replay (hh : Honest P a0 b0 l s) (c : Bool) :
    verifyChain P s.records 0 (seed a0 b0 c) P.zero c =
      (tailTag c ⟨l.i, l.tagV, l.tagT⟩, none) := by
  cases c
  · exact hh.replayT
  · exact hh.replayV

/-- Under idealised primitives a replay from the origin that ends at the tag of an
honest logger ran over as many records as its store holds. -/
theorem replay_length (hP : Ideal P) (hh : Honest P a0 b0 l s) {c : Bool} {rs : List (Record B)}
    (h : verifyChain P rs 0 (seed a0 b0 c) P.zero c = (tailTag c ⟨l.i, l.tagV, l.tagT⟩, none)) :
    rs.length = s.records.length := by
  simpa using congrArg List.length (verifyLoop_binding hP h (hh.replay c))

/-- Under idealised primitives no proper prefix of an honest store's records
replays to the tail's tag. -/
theorem prefix_tag_ne (hP : Ideal P) (hh : Honest P a0 b0 l s) (c : Bool) {m : ℕ}
    (hm : m < s.records.length) :
    (verifyChain P (s.records.take m) 0 (seed a0 b0 c) P.zero c).1 ≠
      tailTag c ⟨l.i, l.tagV, l.tagT⟩ := fun htag => by
  have hsplit := hh.replay c
  rw [← List.take_append_drop m s.records] at hsplit
  obtain ⟨tp, hpre⟩ := verifyLoop_append_left_ok hsplit
  have hrep : verifyChain P (s.records.take m) 0 (seed a0 b0 c) P.zero c =
      (tailTag c ⟨l.i, l.tagV, l.tagT⟩, none) := Prod.ext htag (by rw [verifyChain, hpre])
  have hlen := hh.replay_length hP hrep
  rw [List.length_take] at hlen
  omega

/-- **Truncation is detected.** Under idealised primitives a verifier that
replays chain `c` from the origin rejects an honest store cut to any proper
prefix of its records, the tail left as it was. -/
theorem verifyToTail_truncated (hP : Ideal P) (hh : Honest P a0 b0 l s) (c : Bool) {m : ℕ}
    (hm : m < s.records.length) :
    verifyToTail P c SpecStore.store { s with records := s.records.take m } 0 (seed a0 b0 c)
      P.zero ≠ none := fun h => by
  obtain ⟨tl, htl, hrep⟩ := verifyToTail_spec_eq_none h
  have hne : s.records ≠ [] := List.ne_nil_of_length_pos (by omega)
  rw [show tl = ⟨l.i, l.tagV, l.tagT⟩ from Option.some.inj (htl.symm.trans (hh.tail_some hne))]
    at hrep
  have hlen := hh.replay_length hP hrep
  have hsub : (SpecStore.iter { s with records := s.records.take m } (0 + 1)).length ≤ m :=
    (List.length_filter_le _ _).trans (List.length_take_le _ _)
  omega

end Honest

/-- A run from `New` with every append successful leaves an honest store, under
idealised primitives. -/
theorem honest_of_run (hP : Ideal P) {cfg : Config B} {randV randT : Except Error B}
    {l₀ l : Logger B} {s : SpecStore B} {ops : List (List UInt8 × Time)}
    {results : List (Except Error (Entry B))} (hnew : Logger.new P cfg randV randT = .ok l₀)
    (hrun : l₀.run P SpecStore.store SpecStore.empty ops = (results, l, s))
    (hok : ∀ res ∈ results, res.isOk) : Honest P l₀.keyV l₀.keyT l s := by
  have hh := (honest_new hnew).run ops (by rw [hrun]; exact hok)
    (Logger.run_records_ne_zero hP ops (fun _ h => absurd h (List.not_mem_nil _)))
  rwa [hrun] at hh

/-- **Tampering and truncation are detected.** Under idealised primitives:
(1) a replay that accepted a record list rejects it, with a gap or a tag
mismatch, once one field the chain reads is edited in one record; (2) after any
run of a logger from `New` whose appends all succeed, a proper prefix of the
records never replays to the tail's tags, and `VerifyAll`, `VerifyFromAnchor` from
the origin anchor `(0, A_0, 0, 0)` and the trusted `VerifyFromAnchor(0, B_0, 0)`
all reject the store cut to that prefix. -/
theorem tampering_and_truncation_detected (hP : Ideal P) :
    (∀ (pre post : List (Record B)) (r r' : Record B) (s : UInt64) (k t t' : B) (c : Bool),
      verifyChain P (pre ++ r :: post) s k t c = (t', none) → FieldEdit c r r' →
        (verifyChain P (pre ++ r' :: post) s k t c).2 = some .gap ∨
          (verifyChain P (pre ++ r' :: post) s k t c).2 = some .tagMismatch) ∧
    (∀ (cfg : Config B) (randV randT : Except Error B) (l₀ l : Logger B)
      (ops : List (List UInt8 × Time)) (results : List (Except Error (Entry B)))
      (s : SpecStore B), Logger.new P cfg randV randT = .ok l₀ →
      l₀.run P SpecStore.store SpecStore.empty ops = (results, l, s) →
      (∀ res ∈ results, res.isOk) → ∀ m < s.records.length,
        ∃ tl, s.tail = some tl ∧
          (verifyFrom P (s.records.take m) 0 l₀.keyV P.zero).1 ≠ tl.tagV ∧
          (verifyFromTrusted P (s.records.take m) 0 l₀.keyT P.zero).1 ≠ tl.tagT ∧
          TrustedVerifier.verifyAll P SpecStore.store { s with records := s.records.take m }
            l₀.keyT ≠ none ∧
          SemiTrustedVerifier.verifyFromAnchor P SpecStore.store
            { s with records := s.records.take m } ⟨0, l₀.keyV, P.zero, P.zero⟩ ≠ none ∧
          TrustedVerifier.verifyFromAnchor P SpecStore.store
            { s with records := s.records.take m } 0 l₀.keyT P.zero ≠ none) := by
  refine ⟨fun pre post r r' s k t t' c h hedit => verifyChain_detects_edit hP hedit h, ?_⟩
  intro cfg randV randT l₀ l ops results s hnew hrun hok m hm
  have hh := honest_of_run hP hnew hrun hok
  refine ⟨_, hh.tail_some (List.ne_nil_of_length_pos (by omega)), hh.prefix_tag_ne hP true hm,
    hh.prefix_tag_ne hP false hm, hh.verifyToTail_truncated hP false hm,
    hh.verifyToTail_truncated hP true hm, hh.verifyToTail_truncated hP false hm⟩

/-- The symbolic primitives are idealised, so both detections hold for them. -/
theorem tampering_and_truncation_detected_symbolic :
    Ideal symbolic ∧
    (∀ (pre post : List (Record Term)) (r r' : Record Term) (s : UInt64) (k t t' : Term)
      (c : Bool), verifyChain symbolic (pre ++ r :: post) s k t c = (t', none) →
        FieldEdit c r r' →
        (verifyChain symbolic (pre ++ r' :: post) s k t c).2 = some .gap ∨
          (verifyChain symbolic (pre ++ r' :: post) s k t c).2 = some .tagMismatch) ∧
    (∀ (cfg : Config Term) (randV randT : Except Error Term) (l₀ l : Logger Term)
      (ops : List (List UInt8 × Time)) (results : List (Except Error (Entry Term)))
      (s : SpecStore Term), Logger.new symbolic cfg randV randT = .ok l₀ →
      l₀.run symbolic SpecStore.store SpecStore.empty ops = (results, l, s) →
      (∀ res ∈ results, res.isOk) → ∀ m < s.records.length,
        ∃ tl, s.tail = some tl ∧
          (verifyFrom symbolic (s.records.take m) 0 l₀.keyV symbolic.zero).1 ≠ tl.tagV ∧
          (verifyFromTrusted symbolic (s.records.take m) 0 l₀.keyT symbolic.zero).1 ≠ tl.tagT ∧
          TrustedVerifier.verifyAll symbolic SpecStore.store
            { s with records := s.records.take m } l₀.keyT ≠ none ∧
          SemiTrustedVerifier.verifyFromAnchor symbolic SpecStore.store
            { s with records := s.records.take m } ⟨0, l₀.keyV, symbolic.zero, symbolic.zero⟩ ≠ none ∧
          TrustedVerifier.verifyFromAnchor symbolic SpecStore.store
            { s with records := s.records.take m } 0 l₀.keyT symbolic.zero ≠ none) :=
  ⟨symbolic_ideal, tampering_and_truncation_detected symbolic_ideal⟩

end SecureLog
