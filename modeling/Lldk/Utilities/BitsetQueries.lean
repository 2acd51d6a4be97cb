import Lldk.Utilities.Bitset

/-!
What the searches and the counts of `LldkBitset` answer, for every content of the words.

* `count`, `testAll`, `testAny` and `testNone` follow the header.
* `findFirstChecked`, `countChecked`: the same loops where a 32-bit operation that wraps, or
  `__builtin_ctzll` of zero, is a fault. They end as the loops of the class do.
* `FirstWith b v r`: `r` is the least index with the answer `v`, or `kSize` when there is none.
* `findFirst_least`, `count_counts`: the searches and the counts agree with `test`.
-/

namespace Lldk.Bitset

open Lib.BitWords

namespace LldkBitset

variable {S : BitsetSize}

def testAll (b : LldkBitset S) : Bool := b.m_arrBits.all fun word => word = BitVec.allOnes 64

def testAny (b : LldkBitset S) : Bool := b.m_arrBits.any fun word => word ≠ 0

def testNone (b : LldkBitset S) : Bool := !b.testAny

/-- The sum is kept in a `uint32_t`. -/
def count (b : LldkBitset S) : Nat :=
  b.m_arrBits.foldl (fun uCount word => (uCount + word.cpop.toNat) % 2 ^ 32) 0

/-! ## Arithmetic that is checked -/

inductive ArithFault
  | wraps (n : Nat)
  | ctzOfZero
  deriving DecidableEq, Repr

def checked32 (n : Nat) : Except ArithFault Nat := if n < 2 ^ 32 then .ok n else .error (.wraps n)

def ctzllChecked (word : BitVec 64) : Except ArithFault Nat :=
  if word = 0 then .error .ctzOfZero else .ok word.ctz.toNat

/-- `findFirst` with every operation checked. -/
def findFirstChecked (skip : BitVec 64) (pick : BitVec 64 → BitVec 64) (kSize : Nat) :
    Nat → List (BitVec 64) → Except ArithFault Nat
  | _, [] => .ok kSize
  | i, word :: words => do
    if word ≠ skip then
      let first ← checked32 (i * kBitsPerElement)
      let bits ← ctzllChecked (pick word)
      checked32 (first + bits)
    else
      let next ← checked32 (i + 1)
      findFirstChecked skip pick kSize next words

def findFirstSetChecked (b : LldkBitset S) : Except ArithFault Nat :=
  findFirstChecked 0 id S.kSize 0 b.m_arrBits

def findFirstNoneChecked (b : LldkBitset S) : Except ArithFault Nat :=
  findFirstChecked (BitVec.allOnes 64) (fun word => ~~~word) S.kSize 0 b.m_arrBits

/-- The loop of `count` with its sum checked. -/
def countWords : Nat → List (BitVec 64) → Except ArithFault Nat
  | uCount, [] => .ok uCount
  | uCount, word :: words => do
    let sum ← checked32 (uCount + word.cpop.toNat)
    countWords sum words

def countChecked (b : LldkBitset S) : Except ArithFault Nat := countWords 0 b.m_arrBits

theorem checked32_ok {n : Nat} (h : n < 2 ^ 32) : checked32 n = .ok n := if_pos h

/-- Nothing wraps in an array that has less than `2 ^ 32` bits. -/
theorem findFirstChecked_eq {skip : BitVec 64} {pick : BitVec 64 → BitVec 64}
    (hzero : ∀ word, word ≠ skip → pick word ≠ 0) (kSize i : Nat) (words : List (BitVec 64))
    (hfits : (i + words.length) * 64 < 2 ^ 32) :
    findFirstChecked skip pick kSize i words = .ok (findFirst skip pick kSize i words) := by
  induction words generalizing i with
  | nil => rfl
  | cons word words ih =>
    rw [List.length_cons] at hfits
    by_cases hsk : word = skip
    · have hnext : i + 1 < 2 ^ 32 := by omega
      simp only [findFirstChecked, findFirst, hsk, ne_eq, not_true_eq_false, if_false,
        checked32_ok hnext]
      exact ih (i + 1) (by omega)
    · have hne := hzero word hsk
      have hctz := ctz_lt hne
      have hfirst : i * kBitsPerElement < 2 ^ 32 := by
        simp only [kBitsPerElement]
        omega
      have hsum : i * kBitsPerElement + (pick word).ctz.toNat < 2 ^ 32 := by
        simp only [kBitsPerElement]
        omega
      have hpick : ctzllChecked (pick word) = .ok (pick word).ctz.toNat := if_neg hne
      simp only [findFirstChecked, findFirst, ne_eq, hsk, not_false_eq_true, if_true,
        checked32_ok hfirst, hpick, bind, Except.bind, checked32_ok hsum, Nat.mod_eq_of_lt hfirst,
        Nat.mod_eq_of_lt hsum]

theorem length_fits (b : LldkBitset S) : (0 + b.m_arrBits.length) * 64 < 2 ^ 32 := by
  rw [Nat.zero_add, b.length_mul]
  exact S.fits

/-! ## Searching -/

/-- **The search for a set bit.** -/
theorem findFirstSet_spec (b : LldkBitset S) : FirstBit true b.m_arrBits 0 b.findFirstSet := by
  have hzeros : ∀ c, c < 64 → (0 : BitVec 64).getLsbD c = !true := by
    intro c _
    simp
  have hid : ∀ (word : BitVec 64) c, c < 64 → (id word).getLsbD c = (word.getLsbD c == true) := by
    intro word c _
    simp
  have hfits : b.m_arrBits.length * 64 < 2 ^ 32 := by
    rw [b.length_mul]
    exact S.fits
  have hspec := findFirst_spec hzeros hid (fun _ h => h) hfits 0 b.m_arrBits rfl (Nat.zero_le _)
  rw [Nat.zero_mul, b.length_mul] at hspec
  exact hspec

/-- `r` is the least index for which `test` answers `v`, and `kSize` when there is none. -/
structure FirstWith (b : LldkBitset S) (v : Bool) (r : Nat) : Prop where
  least : (∃ i, i < S.kSize ∧ b.test i = some v) →
    r < S.kSize ∧ b.test r = some v ∧ ∀ j, j < r → b.test j = some (!v)
  none_iff : r = S.kSize ↔ ∀ i, i < S.kSize → b.test i = some (!v)

theorem test_of_lt (b : LldkBitset S) {i : Nat} (h : i < S.kSize) :
    b.test i = some (bit b.m_arrBits i) := by
  rw [test_eq, if_pos h]

theorem firstWith_of_firstBit {b : LldkBitset S} {v : Bool} {r : Nat}
    (h : FirstBit v b.m_arrBits 0 r) : FirstWith b v r := by
  have hlen := b.length_mul
  rcases h with ⟨-, hr, hb, hall⟩ | ⟨hr, hall⟩
  · rw [hlen] at hr
    refine ⟨fun _ => ⟨hr, ?_, fun j hj => ?_⟩, fun he => ?_, fun hno => ?_⟩
    · rw [b.test_of_lt hr, hb]
    · rw [b.test_of_lt (Nat.lt_trans hj hr), hall j (Nat.zero_le j) hj]
    · omega
    · have hrv := hno r hr
      rw [b.test_of_lt hr, hb, Option.some.injEq] at hrv
      cases v <;> cases hrv
  · rw [hlen] at hr hall
    have hno : ∀ i, i < S.kSize → b.test i = some (!v) := by
      intro i hi
      rw [b.test_of_lt hi, hall i (Nat.zero_le i) hi]
    refine ⟨?_, fun _ => hno, fun _ => hr⟩
    rintro ⟨i, hi, hiv⟩
    rw [hno i hi, Option.some.injEq] at hiv
    cases v <;> cases hiv

/-- **The searches.** `findFirstSet` and `findFirstNone` return the least index that is set, or
not set, and `kSize` when there is none; no 32-bit operation of theirs wraps and they count the
trailing zeros of no zero. -/
theorem findFirst_least (S : BitsetSize) (b : LldkBitset S) :
    FirstWith b true b.findFirstSet ∧ FirstWith b false b.findFirstNone ∧
      b.findFirstSetChecked = .ok b.findFirstSet ∧
      b.findFirstNoneChecked = .ok b.findFirstNone :=
  ⟨firstWith_of_firstBit b.findFirstSet_spec, firstWith_of_firstBit b.findFirstNone_spec.1,
    findFirstChecked_eq (fun _ h => h) _ _ _ b.length_fits,
    findFirstChecked_eq (fun _ h => not_ne_zero h) _ _ _ b.length_fits⟩

/-! ## Counting -/

/-- Below `2 ^ 32` the sum of the counts is the number itself, checked or not. -/
theorem countWords_eq (uCount : Nat) (words : List (BitVec 64))
    (hfits : uCount + words.length * 64 < 2 ^ 32) :
    countWords uCount words = .ok (uCount + (words.map fun x => x.cpop.toNat).sum) ∧
      words.foldl (fun uCount word => (uCount + word.cpop.toNat) % 2 ^ 32) uCount =
        uCount + (words.map fun x => x.cpop.toNat).sum := by
  induction words generalizing uCount with
  | nil => exact ⟨rfl, rfl⟩
  | cons word words ih =>
    rw [List.length_cons] at hfits
    have hle : word.cpop.toNat ≤ 64 := BitVec.toNat_cpop_le word
    have hsum : uCount + word.cpop.toNat < 2 ^ 32 := by omega
    obtain ⟨hchecked, hfold⟩ := ih (uCount + word.cpop.toNat) (by omega)
    rw [List.map_cons, List.sum_cons, ← Nat.add_assoc]
    constructor
    · simp only [countWords, checked32_ok hsum]
      exact hchecked
    · rw [List.foldl_cons, Nat.mod_eq_of_lt hsum]
      exact hfold

/-- The bits of the array, counted. -/
theorem count_bits (b : LldkBitset S) :
    b.count = Nat.count (fun j => bit b.m_arrBits j = true) S.kSize ∧
      b.countChecked = .ok b.count := by
  have hfits : 0 + b.m_arrBits.length * 64 < 2 ^ 32 := by
    rw [Nat.zero_add, b.length_mul]
    exact S.fits
  obtain ⟨hchecked, hfold⟩ := countWords_eq 0 b.m_arrBits hfits
  rw [Nat.zero_add] at hchecked hfold
  have hcount : b.count = (b.m_arrBits.map fun x => x.cpop.toNat).sum := hfold
  refine ⟨?_, ?_⟩
  · rw [hcount, ← count_bit (by decide) b.m_arrBits, b.length_mul]
  · rw [countChecked, hchecked, hcount]

theorem testAll_iff (b : LldkBitset S) :
    b.testAll = true ↔ ∀ j, j < S.kSize → bit b.m_arrBits j = true := by
  have hones : ∀ c, c < 64 → (BitVec.allOnes 64).getLsbD c = true := by
    intro c hc
    rw [BitVec.getLsbD_allOnes]
    exact decide_eq_true hc
  rw [testAll, List.all_eq_true, ← b.length_mul, ← all_eq_iff (by decide) hones]
  simp only [decide_eq_true_eq]

theorem testAny_iff (b : LldkBitset S) :
    b.testAny = false ↔ ∀ j, j < S.kSize → bit b.m_arrBits j = false := by
  have hzeros : ∀ c, c < 64 → (0 : BitVec 64).getLsbD c = false := by
    intro c _
    simp
  rw [testAny, List.any_eq_false, ← b.length_mul, ← all_eq_iff (by decide) hzeros]
  simp only [ne_eq, decide_not, Bool.not_eq_true', decide_eq_false_iff_not, not_not]

/-- An update that changes one answer from false to true adds one to the count. -/
theorem count_gained {b b' : LldkBitset S} {i : Nat} (hi : i < S.kSize)
    (hclear : bit b.m_arrBits i = false)
    (hbits : ∀ j, bit b'.m_arrBits j = true ↔ bit b.m_arrBits j = true ∨ j = i) :
    b'.count = b.count + 1 := by
  rw [b'.count_bits.1, b.count_bits.1]
  refine count_gain hi ?_ hbits
  rw [hclear]
  exact Bool.false_ne_true

theorem count_same {b b' : LldkBitset S}
    (hbits : ∀ j, bit b'.m_arrBits j = bit b.m_arrBits j) : b'.count = b.count := by
  rw [b'.count_bits.1, b.count_bits.1]
  refine count_congr fun j _ => ?_
  rw [hbits j]

theorem test_iff (b : LldkBitset S) {i : Nat} (hi : i < S.kSize) {v : Bool} :
    b.test i = some v ↔ bit b.m_arrBits i = v := by
  rw [b.test_of_lt hi, Option.some.injEq]

/-- A count that a bit decides tells the bit. -/
theorem iff_of_bit {x v : Bool} {m n : Nat} (hsame : x = v → m = n) (hmore : x = !v → m = n + 1) :
    (m = n + 1 ↔ x = !v) ∧ (m = n ↔ x = v) := by
  by_cases hx : x = v
  · have hm := hsame hx
    subst hx
    refine ⟨⟨fun h => ?_, hmore⟩, fun _ => rfl, hsame⟩
    omega
  · have hne : x = !v := by
      cases x <;> cases v <;> first | rfl | exact absurd rfl hx
    have hm := hmore hne
    refine ⟨⟨fun _ => hne, hmore⟩, fun h => ?_, hsame⟩
    omega

/-- `set(i)` raises the count by one iff `i` was clear. -/
theorem count_set (b : LldkBitset S) {i : Nat} (hi : i < S.kSize) :
    ∃ b', b.set i = some b' ∧ (b'.count = b.count + 1 ↔ b.test i = some false) ∧
      (b'.count = b.count ↔ b.test i = some true) := by
  obtain ⟨b', hset, hbits⟩ := b.set_ok hi
  rw [b.test_iff hi, b.test_iff hi]
  refine ⟨b', hset, iff_of_bit (v := true) (fun h => count_same fun j => ?_)
    fun h => count_gained hi h fun j => ?_⟩
  · rw [hbits j]
    by_cases hj : j = i
    · subst hj
      simp [h]
    · simp [hj]
  · rw [hbits j, Bool.or_eq_true, decide_eq_true_eq]

/-- `clear(i)` lowers it by one iff `i` was set. -/
theorem count_clear (b : LldkBitset S) {i : Nat} (hi : i < S.kSize) :
    ∃ b', b.clear i = some b' ∧ (b.count = b'.count + 1 ↔ b.test i = some true) ∧
      (b.count = b'.count ↔ b.test i = some false) := by
  obtain ⟨b', hclear, hbits⟩ := b.clear_ok hi
  rw [b.test_iff hi, b.test_iff hi]
  refine ⟨b', hclear, iff_of_bit (v := false) (fun h => count_same fun j => ?_)
    fun h => count_gained hi (by simp [hbits i]) fun j => ?_⟩
  · rw [hbits j]
    by_cases hj : j = i
    · subst hj
      simp [h]
    · simp [hj]
  · rw [hbits j, Bool.and_eq_true, decide_eq_true_eq]
    by_cases hj : j = i
    · subst hj
      simp [h]
    · simp [hj]

/-- **The counts.** `count` is the number of indices for which `test` answers true, with no sum
that wraps; the whole-array tests compare it with `kSize` and 0, and `set` and `clear` change it
by one exactly when they change an answer. -/
theorem count_counts (S : BitsetSize) (b : LldkBitset S) :
    b.count = Nat.count (fun i => b.test i = some true) S.kSize ∧
      b.countChecked = .ok b.count ∧
      (b.testAll = true ↔ b.count = S.kSize) ∧
      (b.testAny = true ↔ 0 < b.count) ∧
      (b.testNone = true ↔ b.count = 0) ∧
      ∀ i, i < S.kSize →
        (∃ b', b.set i = some b' ∧ (b'.count = b.count + 1 ↔ b.test i = some false) ∧
          (b'.count = b.count ↔ b.test i = some true)) ∧
        ∃ b', b.clear i = some b' ∧ (b.count = b'.count + 1 ↔ b.test i = some true) ∧
          (b.count = b'.count ↔ b.test i = some false) := by
  obtain ⟨hcount, hchecked⟩ := b.count_bits
  have hnone : b.testAny = false ↔ b.count = 0 := by
    rw [b.testAny_iff, hcount, Nat.count_iff_forall_not]
    simp only [Bool.not_eq_true]
  refine ⟨?_, hchecked, ?_, ?_, ?_, fun i hi => ⟨b.count_set hi, b.count_clear hi⟩⟩
  · rw [hcount]
    exact count_congr fun j hj => (b.test_iff hj).symm
  · rw [b.testAll_iff, hcount, Nat.count_iff_forall]
  · rw [← Bool.not_eq_false, hnone]
    omega
  · rw [testNone, Bool.not_eq_true', hnone]

end LldkBitset

end Lldk.Bitset
