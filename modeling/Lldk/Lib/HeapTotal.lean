import Mathlib.Algebra.BigOperators.Group.Finset.Basic
import Lldk.Lib.Heap

/-!
The sum of a weight over the cells of a heap.

`total_alloc`, `total_free` and `total_modify` say what an operation adds or takes away.
`total_split` sets some of the cells aside.
-/

namespace Lib.Heap

universe u v

variable {β : Type u} {M : Type v} [AddCommMonoid M] {w : β → M} {h h' : Heap β} {a : Nat} {b : β}

/-- What the cell at `a` weighs: nothing, where there is none. -/
def weighs (w : β → M) (h : Heap β) (a : Nat) : M := ((h.cells a).map w).getD 0

def total (w : β → M) (h : Heap β) : M := ∑ a ∈ Finset.range h.next, h.weighs w a

theorem weighs_of_some (ha : h.cells a = some b) : h.weighs w a = w b := by
  unfold weighs
  rw [ha]
  rfl

theorem weighs_of_none (ha : h.cells a = none) : h.weighs w a = 0 := by
  unfold weighs
  rw [ha]
  rfl

theorem weighs_congr (ha : h'.cells a = h.cells a) : h'.weighs w a = h.weighs w a := by
  unfold weighs
  rw [ha]

theorem total_alloc (w : β → M) (h : Heap β) (b : β) :
    (h.alloc b).2.total w = h.total w + w b := by
  unfold total
  rw [alloc_next, Finset.sum_range_succ, weighs_of_some (cells_alloc_self h b)]
  congr 1
  refine Finset.sum_congr rfl fun a ha => weighs_congr ?_
  exact cells_alloc_ne b (Nat.ne_of_lt (Finset.mem_range.mp ha))

/-- One cell changes. -/
theorem total_change (hnext : h'.next = h.next) (ha : a < h.next)
    (hothers : ∀ c, c ≠ a → h'.cells c = h.cells c) :
    h'.total w + h.weighs w a = h.total w + h'.weighs w a := by
  have hmem : a ∈ Finset.range h.next := Finset.mem_range.mpr ha
  have hrest : ∑ c ∈ (Finset.range h.next).erase a, h'.weighs w c =
      ∑ c ∈ (Finset.range h.next).erase a, h.weighs w c :=
    Finset.sum_congr rfl fun c hc => weighs_congr (hothers c (Finset.ne_of_mem_erase hc))
  unfold total
  rw [hnext, ← Finset.add_sum_erase _ _ hmem, ← Finset.add_sum_erase _ _ hmem, hrest,
    add_right_comm, add_comm (h'.weighs w a), add_right_comm]

theorem total_free (ha : h.cells a = some b) : (h.free a).total w + w b = h.total w := by
  have hchange := total_change (w := w) (h.free_next a) (lt_next ha) fun _ hc => cells_free_ne hc
  rw [weighs_of_some ha, weighs_of_none (cells_free_self h a), add_zero] at hchange
  exact hchange

theorem total_modify (ha : h.cells a = some b) (f : β → β) :
    (h.modify a f).total w + w b = h.total w + w (f b) := by
  have hcell : (h.modify a f).cells a = some (f b) := by
    rw [cells_modify_self, ha]
    rfl
  have hnext : (h.modify a f).next = h.next := rfl
  have hchange := total_change (w := w) hnext (lt_next ha) fun _ hc => cells_modify_ne f hc
  rw [weighs_of_some ha, weighs_of_some hcell] at hchange
  exact hchange

/-- A change that the weight does not see. -/
theorem total_modify_same {f : β → β} (hf : ∀ b, w (f b) = w b) (h : Heap β) (a : Nat) :
    (h.modify a f).total w = h.total w := by
  refine Finset.sum_congr rfl fun c _ => ?_
  by_cases hc : c = a
  · subst hc
    unfold weighs
    rw [cells_modify_self]
    cases h.cells c with
    | none => rfl
    | some b => exact hf b
  · exact weighs_congr (cells_modify_ne f hc)

/-- Some of the cells set aside. -/
theorem total_split (w : β → M) (h : Heap β) {as : List Nat} (hnodup : as.Nodup)
    (hlive : ∀ a, a ∈ as → ∃ b, h.cells a = some b) :
    h.total w =
      (as.map (h.weighs w)).sum + ∑ a ∈ Finset.range h.next with a ∉ as, h.weighs w a := by
  have hin : (Finset.range h.next).filter (· ∈ as) = as.toFinset := by
    ext a
    rw [Finset.mem_filter, List.mem_toFinset]
    refine and_iff_right_of_imp fun ha => ?_
    obtain ⟨b, hb⟩ := hlive a ha
    exact Finset.mem_range.mpr (lt_next hb)
  unfold total
  rw [← Finset.sum_filter_add_sum_filter_not (Finset.range h.next) (· ∈ as), hin,
    List.sum_toFinset _ hnodup]

end Lib.Heap
