import Mathlib.Algebra.Order.Ring.Nat
import Mathlib.Data.Nat.Count

/-!
Bits packed into a list of words of width `w`.

* `bit ws j` is bit `j`; bits past the last word are clear.
* `bit_or_shift`, `bit_and_not_shift`: setting and clearing one bit with a shifted mask changes
  that bit and no other, in the same word or across words.
* `FirstBit`: the least index that carries a given bit; `firstBit_skip` and `firstBit_found` are
  the two cases of a search word by word.
* `count_bit` counts the set bits word by word; `all_eq_iff` compares whole words with bits.
-/

namespace Lib.BitWords

variable {w : Nat}

def bit (ws : List (BitVec w)) (j : Nat) : Bool :=
  match ws[j / w]? with
  | some x => x.getLsbD (j % w)
  | none => false

theorem bit_of_getElem? {ws : List (BitVec w)} {j : Nat} {x : BitVec w} (h : ws[j / w]? = some x) :
    bit ws j = x.getLsbD (j % w) := by
  simp only [bit, h]

/-- Replacing one word changes the bits of that word. -/
theorem bit_set {ws : List (BitVec w)} {k : Nat} (hk : k < ws.length) (x : BitVec w) (j : Nat) :
    bit (ws.set k x) j = if j / w = k then x.getLsbD (j % w) else bit ws j := by
  by_cases hj : j / w = k
  · have hx : (ws.set k x)[j / w]? = some x := by rw [hj, List.getElem?_set_self hk]
    rw [bit_of_getElem? hx, if_pos hj]
  · have hne : k ≠ j / w := fun h => hj h.symm
    rw [if_neg hj]
    unfold bit
    rw [List.getElem?_set_ne hne]

theorem getLsbD_one_shift {i j : Nat} (hi : i < w) :
    (1#w <<< i).getLsbD j = decide (j = i) := by
  rw [← BitVec.twoPow_eq, BitVec.getLsbD_twoPow]
  simp [hi, eq_comm]

theorem eq_of_div_mod {i j : Nat} (hd : j / w = i / w) (hm : j % w = i % w) : j = i := by
  rw [← Nat.div_add_mod j w, ← Nat.div_add_mod i w, hd, hm]

/-- Two bits of one word have the same index iff they stand at the same place in it. -/
theorem mod_eq_iff {i j : Nat} (hd : j / w = i / w) : j % w = i % w ↔ j = i :=
  ⟨fun hm => eq_of_div_mod hd hm, fun h => by rw [h]⟩

theorem bit_or_shift (hw : 0 < w) {ws : List (BitVec w)} {i : Nat} {x : BitVec w}
    (hx : ws[i / w]? = some x) (j : Nat) :
    bit (ws.set (i / w) (x ||| 1#w <<< (i % w))) j = (bit ws j || decide (j = i)) := by
  obtain ⟨hlt, -⟩ := List.getElem?_eq_some_iff.mp hx
  rw [bit_set hlt]
  by_cases hj : j / w = i / w
  · have hold : bit ws j = x.getLsbD (j % w) := bit_of_getElem? (by rw [hj, hx])
    rw [if_pos hj, BitVec.getLsbD_or, getLsbD_one_shift (Nat.mod_lt _ hw), hold]
    simp only [mod_eq_iff hj]
  · have hne : j ≠ i := by
      rintro rfl
      exact hj rfl
    rw [if_neg hj]
    simp [hne]

theorem bit_and_not_shift (hw : 0 < w) {ws : List (BitVec w)} {i : Nat} {x : BitVec w}
    (hx : ws[i / w]? = some x) (j : Nat) :
    bit (ws.set (i / w) (x &&& ~~~(1#w <<< (i % w)))) j = (bit ws j && decide (j ≠ i)) := by
  obtain ⟨hlt, -⟩ := List.getElem?_eq_some_iff.mp hx
  rw [bit_set hlt]
  by_cases hj : j / w = i / w
  · have hold : bit ws j = x.getLsbD (j % w) := bit_of_getElem? (by rw [hj, hx])
    have hin : j % w < w := Nat.mod_lt _ hw
    rw [if_pos hj, BitVec.getLsbD_and, BitVec.getLsbD_not, getLsbD_one_shift (Nat.mod_lt _ hw),
      hold]
    simp [hin, mod_eq_iff hj]
  · have hne : j ≠ i := by
      rintro rfl
      exact hj rfl
    rw [if_neg hj]
    simp [hne]

/-! ## Searching for a bit -/

/-- `r` is the least index from `k` on that carries `b`, or the end when there is none. -/
def FirstBit (b : Bool) (ws : List (BitVec w)) (k r : Nat) : Prop :=
  (k ≤ r ∧ r < ws.length * w ∧ bit ws r = b ∧ ∀ j, k ≤ j → j < r → bit ws j = !b) ∨
    (r = ws.length * w ∧ ∀ j, k ≤ j → j < ws.length * w → bit ws j = !b)

/-- The word at `i` does not carry `b`: the search goes on behind it. -/
theorem firstBit_skip {b : Bool} {ws : List (BitVec w)} {i r : Nat} {x : BitVec w}
    (hx : ws[i]? = some x) (hskip : ∀ c, c < w → x.getLsbD c = !b)
    (h : FirstBit b ws ((i + 1) * w) r) : FirstBit b ws (i * w) r := by
  have hword : ∀ j, i * w ≤ j → j < (i + 1) * w → bit ws j = !b := by
    intro j hlo hhi
    have hw : 0 < w := by
      rcases Nat.eq_zero_or_pos w with rfl | hw
      · omega
      · exact hw
    have hdiv : j / w = i := Nat.div_eq_of_lt_le hlo hhi
    rw [bit_of_getElem? (by rw [hdiv, hx])]
    exact hskip _ (Nat.mod_lt _ hw)
  have hle : i * w ≤ (i + 1) * w := Nat.mul_le_mul_right w (Nat.le_succ i)
  rcases h with ⟨hk, hr, hb, hall⟩ | ⟨hr, hall⟩
  · refine Or.inl ⟨by omega, hr, hb, fun j hlo hhi => ?_⟩
    by_cases hj : j < (i + 1) * w
    · exact hword j hlo hj
    · exact hall j (by omega) hhi
  · refine Or.inr ⟨hr, fun j hlo hhi => ?_⟩
    by_cases hj : j < (i + 1) * w
    · exact hword j hlo hj
    · exact hall j (by omega) hhi

/-- The word at `i` carries `b` first at `c`. -/
theorem firstBit_found {b : Bool} {ws : List (BitVec w)} {i c : Nat} {x : BitVec w}
    (hx : ws[i]? = some x) (hc : c < w) (hb : x.getLsbD c = b)
    (hbefore : ∀ d, d < c → x.getLsbD d = !b) : FirstBit b ws (i * w) (i * w + c) := by
  have hplace : ∀ d, d < w → (i * w + d) / w = i ∧ (i * w + d) % w = d := by
    intro d hd
    refine ⟨Nat.div_eq_of_lt_le (by omega) ?_, ?_⟩
    · rw [Nat.succ_mul]
      omega
    · rw [Nat.mul_comm, Nat.mul_add_mod, Nat.mod_eq_of_lt hd]
  have hbit : ∀ d, d < w → bit ws (i * w + d) = x.getLsbD d := by
    intro d hd
    obtain ⟨hdiv, hmod⟩ := hplace d hd
    rw [bit_of_getElem? (by rw [hdiv, hx]), hmod]
  obtain ⟨hlt, -⟩ := List.getElem?_eq_some_iff.mp hx
  have hend : (i + 1) * w ≤ ws.length * w := Nat.mul_le_mul_right w hlt
  rw [Nat.succ_mul] at hend
  refine Or.inl ⟨by omega, by omega, by rw [hbit c hc, hb], fun j hlo hhi => ?_⟩
  obtain ⟨d, rfl⟩ := Nat.exists_eq_add_of_le hlo
  rw [hbit d (by omega), hbefore d (by omega)]

/-! ## Counting bits -/

theorem count_congr {p q : Nat → Prop} [DecidablePred p] [DecidablePred q] {n : Nat}
    (h : ∀ j, j < n → (p j ↔ q j)) : Nat.count p n = Nat.count q n :=
  Nat.le_antisymm (Nat.count_mono_left fun j hj => (h j hj).mp)
    (Nat.count_mono_left fun j hj => (h j hj).mpr)

/-- `q` holds where `p` does, and at one more number below `n`. -/
theorem count_gain {p q : Nat → Prop} [DecidablePred p] [DecidablePred q] {i n : Nat} (hi : i < n)
    (hp : ¬ p i) (hq : ∀ j, q j ↔ p j ∨ j = i) : Nat.count q n = Nat.count p n + 1 := by
  have hset : (Finset.range n).filter q = insert i ((Finset.range n).filter p) := by
    ext j
    simp only [Finset.mem_filter, Finset.mem_range, Finset.mem_insert, hq j]
    constructor
    · rintro ⟨hj, h | rfl⟩
      · exact Or.inr ⟨hj, h⟩
      · exact Or.inl rfl
    · rintro (rfl | ⟨hj, h⟩)
      · exact ⟨hi, Or.inr rfl⟩
      · exact ⟨hj, Or.inl h⟩
  have hnot : i ∉ (Finset.range n).filter p := fun h => hp (Finset.mem_filter.mp h).2
  rw [Nat.count_eq_card_filter_range, Nat.count_eq_card_filter_range, hset,
    Finset.card_insert_of_notMem hnot]

theorem cpopNatRec_eq_count (x : BitVec w) (k : Nat) :
    x.cpopNatRec k 0 = Nat.count (fun j => x.getLsbD j = true) k := by
  induction k with
  | zero => rfl
  | succ k ih =>
    rw [BitVec.cpopNatRec_succ, BitVec.cpopNatRec_eq, ih, Nat.count_succ]
    cases x.getLsbD k <;> simp

theorem cpop_eq_count (x : BitVec w) :
    x.cpop.toNat = Nat.count (fun j => x.getLsbD j = true) w := by
  rw [BitVec.toNat_cpop, cpopNatRec_eq_count]

/-- The first word has the first `w` bits. -/
theorem bit_cons (hw : 0 < w) (x : BitVec w) (ws : List (BitVec w)) (j : Nat) :
    (j < w → bit (x :: ws) j = x.getLsbD j) ∧ bit (x :: ws) (w + j) = bit ws j := by
  constructor
  · intro hj
    have hx : (x :: ws)[j / w]? = some x := by rw [Nat.div_eq_of_lt hj]; rfl
    rw [bit_of_getElem? hx, Nat.mod_eq_of_lt hj]
  · unfold bit
    rw [Nat.add_div_left j hw, List.getElem?_cons_succ, Nat.add_mod_left]

/-- **The set bits of a list of words** are those of each word. -/
theorem count_bit (hw : 0 < w) (ws : List (BitVec w)) :
    Nat.count (fun j => bit ws j = true) (ws.length * w) = (ws.map fun x => x.cpop.toNat).sum := by
  induction ws with
  | nil => simp
  | cons x ws ih =>
    have hfirst : Nat.count (fun j => bit (x :: ws) j = true) w = x.cpop.toNat := by
      rw [cpop_eq_count]
      refine count_congr fun j hj => ?_
      rw [(bit_cons hw x ws j).1 hj]
    have hrest : Nat.count (fun j => bit (x :: ws) (w + j) = true) (ws.length * w) =
        (ws.map fun x => x.cpop.toNat).sum := by
      rw [← ih]
      refine count_congr fun j _ => ?_
      rw [(bit_cons hw x ws j).2]
    rw [List.length_cons, Nat.succ_mul, Nat.add_comm, Nat.count_add, hfirst, hrest, List.map_cons,
      List.sum_cons]

/-- The words are all `x` iff every bit is the one of `x` at its place. -/
theorem all_eq_iff (hw : 0 < w) {x : BitVec w} {v : Bool} (hx : ∀ c, c < w → x.getLsbD c = v)
    (ws : List (BitVec w)) :
    (∀ y ∈ ws, y = x) ↔ ∀ j, j < ws.length * w → bit ws j = v := by
  constructor
  · intro h j hj
    have hlt : j / w < ws.length := Nat.div_lt_of_lt_mul (Nat.mul_comm .. ▸ hj)
    rw [bit_of_getElem? (List.getElem?_eq_getElem hlt), h _ (List.getElem_mem hlt)]
    exact hx _ (Nat.mod_lt _ hw)
  · intro h y hy
    obtain ⟨i, hi, rfl⟩ := List.mem_iff_getElem.mp hy
    refine BitVec.eq_of_getLsbD_eq fun c hc => ?_
    have hj : i * w + c < ws.length * w := by
      have hle : (i + 1) * w ≤ ws.length * w := Nat.mul_le_mul_right w hi
      rw [Nat.succ_mul] at hle
      omega
    have hdiv : (i * w + c) / w = i := by
      rw [Nat.mul_comm, Nat.mul_add_div hw, Nat.div_eq_of_lt hc, Nat.add_zero]
    have hbit := h _ hj
    rw [bit_of_getElem? (by rw [hdiv]; exact List.getElem?_eq_getElem hi), Nat.mul_comm,
      Nat.mul_add_mod, Nat.mod_eq_of_lt hc] at hbit
    rw [hbit, hx c hc]

end Lib.BitWords
