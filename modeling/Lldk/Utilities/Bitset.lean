import Lldk.Lib.BitWords

/-!
`LldkBitset` (`src/utilities/lldk_bitset.h`), with its 32-bit index arithmetic written out.

* `BitsetSize` is a template argument that the class's `static_assert` lets through.
* `test`, `set` and `clear` answer `none` when the word they would touch is not in the array.
* `set_ok`, `clear_ok`: an update changes the bit of its own index only.
* `findFirstNone_spec`: the search returns the least clear index, or `kSize` when there is none.
-/

namespace Lldk.Bitset

open Lib.BitWords

/-- `sizeof(ArrayType) * 8` -/
def kBitsPerElement : Nat := 64

/-- The values of `kSize` for which the class compiles. -/
structure BitsetSize where
  kSize : Nat
  fits : kSize < 2 ^ 32
  asserted : 0 < kSize ∧ kSize % kBitsPerElement = 0

def kBitCount (kSize : Nat) : Nat :=
  if kSize = 0 then 1
  else ((kSize + kBitsPerElement) % 2 ^ 32 + (2 ^ 32 - 1)) % 2 ^ 32 / kBitsPerElement

def kBitMask : Nat := kBitsPerElement - 1

def getArrayIndex (uIndex : Nat) : Nat := uIndex / kBitsPerElement

def getBitIndex (uIndex : Nat) : Nat := uIndex &&& kBitMask

structure LldkBitset (S : BitsetSize) where
  m_arrBits : List (BitVec 64)
  length_eq : m_arrBits.length = kBitCount S.kSize

namespace LldkBitset

variable {S : BitsetSize}

/-- `m_arrBits[kBitCount] {0}` -/
def new : LldkBitset S := ⟨List.replicate (kBitCount S.kSize) 0, List.length_replicate ..⟩

def test (b : LldkBitset S) (uIndex : Nat) : Option Bool :=
  match b.m_arrBits[getArrayIndex uIndex]? with
  | some word => some (word &&& (1#64 <<< getBitIndex uIndex) ≠ 0)
  | none => none

/-- `m_arrBits[i] = word` -/
def store (b : LldkBitset S) (i : Nat) (word : BitVec 64) : LldkBitset S :=
  ⟨b.m_arrBits.set i word, by rw [List.length_set]; exact b.length_eq⟩

def set (b : LldkBitset S) (uIndex : Nat) : Option (LldkBitset S) :=
  match b.m_arrBits[getArrayIndex uIndex]? with
  | some word => some (b.store (getArrayIndex uIndex) (word ||| (1#64 <<< getBitIndex uIndex)))
  | none => none

def clear (b : LldkBitset S) (uIndex : Nat) : Option (LldkBitset S) :=
  match b.m_arrBits[getArrayIndex uIndex]? with
  | some word => some (b.store (getArrayIndex uIndex) (word &&& ~~~(1#64 <<< getBitIndex uIndex)))
  | none => none

/-- `memset(m_arrBits, c, sizeof(m_arrBits))` -/
def memset (b : LldkBitset S) (c : BitVec 8) : LldkBitset S :=
  ⟨List.replicate b.m_arrBits.length (c.replicate 8), by
    rw [List.length_replicate]
    exact b.length_eq⟩

def clearAll (b : LldkBitset S) : LldkBitset S := b.memset 0

def setAll (b : LldkBitset S) : LldkBitset S := b.memset 0xFF

/-- The loop of `findFirstSet` and `findFirstNone`: pass over the words equal to `skip`; in the
first other word count the trailing zeros of what `pick` makes of it. -/
def findFirst (skip : BitVec 64) (pick : BitVec 64 → BitVec 64) (kSize : Nat) :
    Nat → List (BitVec 64) → Nat
  | _, [] => kSize
  | i, word :: words =>
    if word ≠ skip then
      (i * kBitsPerElement % 2 ^ 32 + (pick word).ctz.toNat) % 2 ^ 32
    else findFirst skip pick kSize (i + 1) words

def findFirstSet (b : LldkBitset S) : Nat := findFirst 0 id S.kSize 0 b.m_arrBits

/-- `(ArrayType)-1` is the word of ones. -/
def findFirstNone (b : LldkBitset S) : Nat :=
  findFirst (BitVec.allOnes 64) (fun word => ~~~word) S.kSize 0 b.m_arrBits

end LldkBitset

/-! ## Sizes and indices -/

/-- The words hold exactly `kSize` bits. -/
theorem kBitCount_mul (S : BitsetSize) : kBitCount S.kSize * 64 = S.kSize := by
  obtain ⟨hpos, hmod⟩ := S.asserted
  have hlt := S.fits
  simp only [kBitsPerElement] at hmod
  have hne : S.kSize ≠ 0 := by omega
  simp only [kBitCount, hne, if_false, kBitsPerElement]
  omega

theorem getBitIndex_eq (uIndex : Nat) : getBitIndex uIndex = uIndex % 64 := by
  have hmask : kBitMask = 2 ^ 6 - 1 := by decide
  rw [getBitIndex, hmask, Nat.and_two_pow_sub_one_eq_mod]

namespace LldkBitset

variable {S : BitsetSize}

/-- The word of an index is in the array iff the index is below `kSize`. -/
theorem exists_word (b : LldkBitset S) {uIndex : Nat} (h : uIndex < S.kSize) :
    ∃ word, b.m_arrBits[uIndex / 64]? = some word := by
  have hmul := kBitCount_mul S
  have hlt : uIndex / 64 < b.m_arrBits.length := by
    rw [b.length_eq]
    omega
  exact ⟨_, List.getElem?_eq_getElem hlt⟩

theorem no_word (b : LldkBitset S) {uIndex : Nat} (h : S.kSize ≤ uIndex) :
    b.m_arrBits[uIndex / 64]? = none := by
  have hmul := kBitCount_mul S
  have hle : b.m_arrBits.length ≤ uIndex / 64 := by
    rw [b.length_eq]
    omega
  exact List.getElem?_eq_none hle

theorem test_word (word : BitVec 64) {i : Nat} (hi : i < 64) :
    (word &&& (1#64 <<< i) ≠ 0) ↔ word.getLsbD i = true := by
  constructor
  · intro hne
    by_contra hbit
    refine hne (BitVec.eq_of_getLsbD_eq fun j _ => ?_)
    rw [BitVec.getLsbD_and, getLsbD_one_shift hi]
    by_cases hj : j = i
    · subst hj
      simpa using hbit
    · simp [hj]
  · intro hbit hzero
    have hall : (word &&& (1#64 <<< i)).getLsbD i = true := by
      rw [BitVec.getLsbD_and, getLsbD_one_shift hi, hbit]
      simp
    rw [hzero] at hall
    simp at hall

/-- **Testing.** Below `kSize` the answer is the bit at the index; above it there is none. -/
theorem test_eq (b : LldkBitset S) (uIndex : Nat) :
    b.test uIndex = if uIndex < S.kSize then some (bit b.m_arrBits uIndex) else none := by
  unfold test getArrayIndex kBitsPerElement
  by_cases h : uIndex < S.kSize
  · obtain ⟨word, hword⟩ := b.exists_word h
    have hin : uIndex % 64 < 64 := Nat.mod_lt _ (by decide)
    rw [if_pos h, hword, bit_of_getElem? hword]
    simp only [getBitIndex_eq, test_word word hin, Bool.decide_eq_true]
  · rw [if_neg h, b.no_word (by omega)]

theorem set_ok (b : LldkBitset S) {uIndex : Nat} (h : uIndex < S.kSize) :
    ∃ b', b.set uIndex = some b' ∧
      ∀ j, bit b'.m_arrBits j = (bit b.m_arrBits j || decide (j = uIndex)) := by
  obtain ⟨word, hword⟩ := b.exists_word h
  refine ⟨b.store (uIndex / 64) (word ||| (1#64 <<< (uIndex % 64))), ?_, fun j => ?_⟩
  · simp only [set, getArrayIndex, kBitsPerElement, hword, getBitIndex_eq]
  · exact bit_or_shift (by decide) hword j

theorem clear_ok (b : LldkBitset S) {uIndex : Nat} (h : uIndex < S.kSize) :
    ∃ b', b.clear uIndex = some b' ∧
      ∀ j, bit b'.m_arrBits j = (bit b.m_arrBits j && decide (j ≠ uIndex)) := by
  obtain ⟨word, hword⟩ := b.exists_word h
  refine ⟨b.store (uIndex / 64) (word &&& ~~~(1#64 <<< (uIndex % 64))), ?_, fun j => ?_⟩
  · simp only [clear, getArrayIndex, kBitsPerElement, hword, getBitIndex_eq]
  · exact bit_and_not_shift (by decide) hword j

/-- A new bitset has every bit clear. -/
theorem bit_new (j : Nat) : bit (new : LldkBitset S).m_arrBits j = false := by
  unfold bit new
  cases h : (List.replicate (kBitCount S.kSize) (0 : BitVec 64))[j / 64]? with
  | none => rfl
  | some word =>
    obtain ⟨_, he⟩ := List.getElem?_eq_some_iff.mp h
    rw [List.getElem_replicate] at he
    subst he
    simp

/-! ## Searching -/

theorem ctz_lt {word : BitVec 64} (h : word ≠ 0) : word.ctz.toNat < 64 := by
  have hlt := BitVec.ctz_lt_iff_ne_zero.mpr h
  simpa [BitVec.lt_def] using hlt

theorem not_ne_zero {word : BitVec 64} (h : word ≠ BitVec.allOnes 64) : ~~~word ≠ 0 := by
  intro h0
  apply h
  have hnn := congrArg (fun x : BitVec 64 => ~~~x) h0
  simpa using hnn

theorem length_mul (b : LldkBitset S) : b.m_arrBits.length * 64 = S.kSize := by
  rw [b.length_eq, kBitCount_mul]

/-- The search for a bit with the value `v`, over the words from the `i`-th on. -/
theorem findFirst_spec {skip : BitVec 64} {pick : BitVec 64 → BitVec 64} {v : Bool}
    (hskip : ∀ c, c < 64 → skip.getLsbD c = !v)
    (hpick : ∀ word c, c < 64 → (pick word).getLsbD c = (word.getLsbD c == v))
    (hzero : ∀ word, word ≠ skip → pick word ≠ 0) {ws : List (BitVec 64)}
    (hfits : ws.length * 64 < 2 ^ 32) (i : Nat) (words : List (BitVec 64))
    (hdrop : ws.drop i = words) (hi : i ≤ ws.length) :
    FirstBit v ws (i * 64) (findFirst skip pick (ws.length * 64) i words) := by
  induction words generalizing i with
  | nil =>
    have hend : i = ws.length := by
      have hlen := List.drop_eq_nil_iff.mp hdrop
      omega
    subst hend
    exact Or.inr ⟨rfl, fun j hlo hhi => by omega⟩
  | cons word words ih =>
    have hlt : i < ws.length := by
      by_contra hge
      rw [List.drop_eq_nil_of_le (by omega)] at hdrop
      cases hdrop
    have hword : ws[i]? = some word := by
      rw [← List.head?_drop, hdrop]
      rfl
    have hrest : ws.drop (i + 1) = words := by
      rw [← List.tail_drop, hdrop]
      rfl
    by_cases hsk : word = skip
    · subst hsk
      simp only [findFirst, ne_eq, not_true_eq_false, if_false]
      exact firstBit_skip hword hskip (ih (i + 1) hrest hlt)
    · have hne := hzero word hsk
      have hctz := ctz_lt hne
      have hbit : word.getLsbD (pick word).ctz.toNat = v := by
        have htrue := BitVec.getLsbD_true_ctz_of_ne_zero hne
        rw [hpick word _ hctz] at htrue
        exact eq_of_beq htrue
      have hbefore : ∀ d, d < (pick word).ctz.toNat → word.getLsbD d = !v := by
        intro d hd
        have hfalse := BitVec.getLsbD_false_of_lt_ctz hd
        rw [hpick word d (by omega)] at hfalse
        cases hw : word.getLsbD d <;> cases v <;> simp_all
      have hsum : (i * kBitsPerElement % 2 ^ 32 + (pick word).ctz.toNat) % 2 ^ 32 =
          i * 64 + (pick word).ctz.toNat := by
        simp only [kBitsPerElement]
        omega
      simp only [findFirst, ne_eq, hsk, not_false_eq_true, if_true, hsum]
      exact firstBit_found hword hctz hbit hbefore

/-- **The search for a clear bit.** -/
theorem findFirstNone_spec (b : LldkBitset S) :
    FirstBit false b.m_arrBits 0 b.findFirstNone ∧ b.m_arrBits.length * 64 = S.kSize := by
  have hlen := b.length_mul
  have hones : ∀ c, c < 64 → (BitVec.allOnes 64).getLsbD c = !false := by
    intro c hc
    rw [BitVec.getLsbD_allOnes]
    exact decide_eq_true hc
  have hnot : ∀ (word : BitVec 64) c, c < 64 → (~~~word).getLsbD c = (word.getLsbD c == false) := by
    intro word c hc
    simp [hc]
  have hfits : b.m_arrBits.length * 64 < 2 ^ 32 := by
    rw [hlen]
    exact S.fits
  have hspec := findFirst_spec hones hnot (fun _ h => not_ne_zero h) hfits 0 b.m_arrBits rfl
    (Nat.zero_le _)
  rw [Nat.zero_mul, hlen] at hspec
  exact ⟨hspec, hlen⟩

/-- The index found is the least clear one. -/
theorem findFirstNone_lt {b : LldkBitset S} (h : b.findFirstNone < S.kSize) :
    bit b.m_arrBits b.findFirstNone = false ∧
      ∀ j, j < b.findFirstNone → bit b.m_arrBits j = true := by
  obtain ⟨⟨-, -, hb, hall⟩ | ⟨hr, -⟩, hlen⟩ := b.findFirstNone_spec
  · exact ⟨hb, fun j hj => hall j (Nat.zero_le _) hj⟩
  · omega

/-- The search ends at `kSize` iff every bit is set. -/
theorem findFirstNone_eq_kSize {b : LldkBitset S} :
    b.findFirstNone = S.kSize ↔ ∀ j, j < S.kSize → bit b.m_arrBits j = true := by
  obtain ⟨⟨-, hr, hb, -⟩ | ⟨hr, hall⟩, hlen⟩ := b.findFirstNone_spec
  · rw [hlen] at hr
    constructor
    · intro he
      omega
    · intro hset
      rw [hset _ hr] at hb
      cases hb
  · rw [hlen] at hr hall
    exact ⟨fun _ j hj => hall j (Nat.zero_le _) hj, fun _ => hr⟩

theorem findFirstNone_le (b : LldkBitset S) : b.findFirstNone ≤ S.kSize := by
  obtain ⟨⟨-, hr, -, -⟩ | ⟨hr, -⟩, hlen⟩ := b.findFirstNone_spec
  · omega
  · omega

end LldkBitset

end Lldk.Bitset
