import Mathlib.Data.Finset.Erase
import Mathlib.Data.Finset.Range
import Lldk.Lib.Trace
import Lldk.Utilities.Bitset

/-!
`LldkBitset` as a set of indices.

* `BitsetOp.apply` is what an update means for a finite set of indices below `kSize`.
* `Represents b s`: `test` answers membership in `s` for every index below `kSize`.
* `represents_step`: one update of the words is one update of the set; `bitset_refines_set` is
  the run from a default-constructed bitset.
-/

namespace Lldk.Bitset

open Lib.BitWords Lib.Trace

inductive BitsetOp
  | set (uIndex : Nat)
  | clear (uIndex : Nat)
  | setAll
  | clearAll
  deriving DecidableEq, Repr

/-- The index of an update is below `kSize`. -/
def BitsetOp.inRange (kSize : Nat) : BitsetOp → Prop
  | .set i => i < kSize
  | .clear i => i < kSize
  | .setAll => True
  | .clearAll => True

instance (kSize : Nat) (op : BitsetOp) : Decidable (op.inRange kSize) :=
  match op with
  | .set i => inferInstanceAs (Decidable (i < kSize))
  | .clear i => inferInstanceAs (Decidable (i < kSize))
  | .setAll => isTrue trivial
  | .clearAll => isTrue trivial

/-- The update of a set of indices: insertion, removal, fill and empty. -/
def BitsetOp.apply (kSize : Nat) (s : Finset Nat) : BitsetOp → Finset Nat
  | .set i => insert i s
  | .clear i => s.erase i
  | .setAll => Finset.range kSize
  | .clearAll => ∅

variable {S : BitsetSize}

/-- One call; an index whose word is not in the array is a fault. -/
def bitsetStep : Step (LldkBitset S) BitsetOp Unit Nat
  | b, .set i =>
    match b.set i with
    | some b => .ok (b, ())
    | none => .error i
  | b, .clear i =>
    match b.clear i with
    | some b => .ok (b, ())
    | none => .error i
  | b, .setAll => .ok (b.setAll, ())
  | b, .clearAll => .ok (b.clearAll, ())

/-! ## Single updates -/

/-- The answers of `test` below `kSize` are those of membership in `s`. -/
def Represents (b : LldkBitset S) (s : Finset Nat) : Prop :=
  ∀ j, j < S.kSize → b.test j = some (decide (j ∈ s))

/-- In terms of the bits, where the updates are known. -/
theorem represents_iff {b : LldkBitset S} {s : Finset Nat} :
    Represents b s ↔ ∀ j, j < S.kSize → (bit b.m_arrBits j = true ↔ j ∈ s) := by
  unfold Represents
  constructor
  · intro h j hj
    have htest := h j hj
    rw [LldkBitset.test_eq, if_pos hj, Option.some.injEq] at htest
    rw [htest, decide_eq_true_eq]
  · intro h j hj
    rw [LldkBitset.test_eq, if_pos hj, Option.some.injEq, Bool.eq_iff_iff, decide_eq_true_eq]
    exact h j hj

/-- Every bit of the array after `memset` comes from the byte it was filled with. -/
theorem bit_memset (b : LldkBitset S) (c : BitVec 8) {j : Nat} (hj : j < S.kSize) :
    bit (b.memset c).m_arrBits j = c.getLsbD (j % 64 % 8) := by
  have hlen : j / 64 < b.m_arrBits.length := by
    have hmul := kBitCount_mul S
    rw [b.length_eq]
    omega
  have hword : (b.memset c).m_arrBits[j / 64]? = some (c.replicate 8) :=
    List.getElem?_replicate_of_lt hlen
  have hin : j % 64 < 64 := Nat.mod_lt _ (by decide)
  rw [bit_of_getElem? hword, BitVec.getLsbD_replicate]
  simp only [show 8 * 8 = 64 from rfl, hin, decide_true, Bool.true_and]

theorem represents_new : Represents (LldkBitset.new : LldkBitset S) ∅ := by
  refine represents_iff.mpr fun j _ => ?_
  rw [LldkBitset.bit_new]
  simp

theorem represents_set {b : LldkBitset S} {s : Finset Nat} (h : Represents b s) {i : Nat}
    (hi : i < S.kSize) : ∃ b', b.set i = some b' ∧ Represents b' (insert i s) := by
  obtain ⟨b', hset, hbits⟩ := b.set_ok hi
  refine ⟨b', hset, represents_iff.mpr fun j hj => ?_⟩
  rw [hbits j, Bool.or_eq_true, decide_eq_true_eq, represents_iff.mp h j hj, Finset.mem_insert]
  exact or_comm

theorem represents_clear {b : LldkBitset S} {s : Finset Nat} (h : Represents b s) {i : Nat}
    (hi : i < S.kSize) : ∃ b', b.clear i = some b' ∧ Represents b' (s.erase i) := by
  obtain ⟨b', hclear, hbits⟩ := b.clear_ok hi
  refine ⟨b', hclear, represents_iff.mpr fun j hj => ?_⟩
  rw [hbits j, Bool.and_eq_true, decide_eq_true_eq, represents_iff.mp h j hj, Finset.mem_erase]
  exact and_comm

theorem represents_setAll (b : LldkBitset S) : Represents b.setAll (Finset.range S.kSize) := by
  refine represents_iff.mpr fun j hj => ?_
  have hbyte : ∀ c, c < 8 → (0xFF : BitVec 8).getLsbD c = true := by decide
  rw [LldkBitset.setAll, bit_memset b _ hj, hbyte _ (Nat.mod_lt _ (by decide)), Finset.mem_range]
  exact ⟨fun _ => hj, fun _ => rfl⟩

theorem represents_clearAll (b : LldkBitset S) : Represents b.clearAll ∅ := by
  refine represents_iff.mpr fun j hj => ?_
  have hbyte : ∀ c, c < 8 → (0 : BitVec 8).getLsbD c = false := by decide
  rw [LldkBitset.clearAll, bit_memset b _ hj, hbyte _ (Nat.mod_lt _ (by decide))]
  simp

/-- **Step lemma.** -/
theorem represents_step {b : LldkBitset S} {s : Finset Nat} (h : Represents b s) {op : BitsetOp}
    (hop : op.inRange S.kSize) :
    ∃ b', bitsetStep b op = .ok (b', ()) ∧ Represents b' (op.apply S.kSize s) := by
  cases op with
  | set i =>
    obtain ⟨b', hset, hb'⟩ := represents_set h hop
    exact ⟨b', by simp only [bitsetStep, hset], hb'⟩
  | clear i =>
    obtain ⟨b', hclear, hb'⟩ := represents_clear h hop
    exact ⟨b', by simp only [bitsetStep, hclear], hb'⟩
  | setAll => exact ⟨b.setAll, rfl, represents_setAll b⟩
  | clearAll => exact ⟨b.clearAll, rfl, represents_clearAll b⟩

/-! ## Runs -/

theorem represents_run {b : LldkBitset S} {s : Finset Nat} (h : Represents b s)
    {ops : List BitsetOp} (hops : ∀ op ∈ ops, op.inRange S.kSize) :
    ∃ b' outs, run bitsetStep b ops = .ok (b', outs) ∧
      Represents b' (ops.foldl (BitsetOp.apply S.kSize) s) := by
  induction ops generalizing b s with
  | nil => exact ⟨b, [], rfl, h⟩
  | cons op ops ih =>
    obtain ⟨b₁, hs, h₁⟩ := represents_step h (hops op List.mem_cons_self)
    obtain ⟨b', outs, hr, h'⟩ := ih h₁ fun op' hop' => hops op' (List.mem_cons_of_mem _ hop')
    exact ⟨b', () :: outs, by rw [run_cons_ok hs, hr], h'⟩

/-- `b'` answers as `b` does, except that the answer for `i` is `v`. -/
def AnswersBut (b b' : LldkBitset S) (i : Nat) (v : Bool) : Prop :=
  b'.test i = some v ∧ ∀ j, j < S.kSize → j ≠ i → b'.test j = b.test j

theorem answersBut_set {b : LldkBitset S} {s : Finset Nat} (h : Represents b s) {i : Nat}
    (hi : i < S.kSize) : ∃ b', b.set i = some b' ∧ AnswersBut b b' i true := by
  obtain ⟨b', hset, hb'⟩ := represents_set h hi
  refine ⟨b', hset, ?_, fun j hj hne => ?_⟩
  · rw [hb' i hi]
    simp
  · rw [hb' j hj, h j hj]
    simp [hne]

theorem answersBut_clear {b : LldkBitset S} {s : Finset Nat} (h : Represents b s) {i : Nat}
    (hi : i < S.kSize) : ∃ b', b.clear i = some b' ∧ AnswersBut b b' i false := by
  obtain ⟨b', hclear, hb'⟩ := represents_clear h hi
  refine ⟨b', hclear, ?_, fun j hj hne => ?_⟩
  · rw [hb' i hi]
    simp
  · rw [hb' j hj, h j hj]
    simp [hne]

/-- **Bitset as a set.** A run of updates from a default-constructed bitset ends in the set that
the same updates make of the empty one, and one more `set` or `clear` changes the answer for its
own index only. -/
theorem bitset_refines_set (S : BitsetSize) (ops : List BitsetOp)
    (hops : ∀ op ∈ ops, op.inRange S.kSize) :
    ∃ b outs, run bitsetStep (LldkBitset.new : LldkBitset S) ops = .ok (b, outs) ∧
      (∀ j, j < S.kSize →
        b.test j = some (decide (j ∈ ops.foldl (BitsetOp.apply S.kSize) ∅))) ∧
      ∀ i, i < S.kSize → (∃ b', b.set i = some b' ∧ AnswersBut b b' i true) ∧
        ∃ b', b.clear i = some b' ∧ AnswersBut b b' i false := by
  obtain ⟨b, outs, hr, hb⟩ := represents_run represents_new hops
  exact ⟨b, outs, hr, hb, fun i hi => ⟨answersBut_set hb hi, answersBut_clear hb hi⟩⟩

def twoWords : BitsetSize where
  kSize := 128
  fits := by decide
  asserted := by decide

/-- The last bit of one word and the first of the next. -/
theorem bitset_refines_set_sample :
    ∃ b outs, run bitsetStep (LldkBitset.new : LldkBitset twoWords)
        [.set 63, .set 64, .clear 63, .setAll, .clear 127, .clearAll, .set 0] = .ok (b, outs) ∧
      (∀ j, j < twoWords.kSize → b.test j = some (decide (j ∈
        [.set 63, .set 64, .clear 63, .setAll, .clear 127, .clearAll, .set 0].foldl
          (BitsetOp.apply twoWords.kSize) ∅))) ∧
      ∀ i, i < twoWords.kSize → (∃ b', b.set i = some b' ∧ AnswersBut b b' i true) ∧
        ∃ b', b.clear i = some b' ∧ AnswersBut b b' i false :=
  bitset_refines_set twoWords _ (by decide)

end Lldk.Bitset
