import Mathlib.Logic.Function.Basic

/-!
A heap of cells under identifiers that are never used twice: `alloc` hands out the next
identifier, `free` removes a cell and `modify` rewrites one. A `Heap` carries the proof that
no cell stands at or above the next identifier, so a fresh cell never meets an old pointer.

An identifier stands for the block that one `malloc` returned, not for its address: the address of
a block that is gone may be handed out again, its identifier is not. A pointer to such a block
finds no cell, and a model over this heap makes any use of it a fault, so that what is proved of a
run without faults is about a run that uses no block that is gone.
-/

namespace Lib

universe u

structure Heap (β : Type u) where
  next : Nat
  cells : Nat → Option β
  fresh : ∀ a, next ≤ a → cells a = none

variable {β : Type u}

namespace Heap

def empty : Heap β := ⟨0, fun _ => none, fun _ _ => rfl⟩

/-- Store `b` in a cell that did not exist before. -/
def alloc (h : Heap β) (b : β) : Nat × Heap β :=
  (h.next,
    { next := h.next + 1
      cells := Function.update h.cells h.next (some b)
      fresh := by
        intro a ha
        rw [Function.update_of_ne (by omega)]
        exact h.fresh a (by omega) })

def free (h : Heap β) (a : Nat) : Heap β :=
  { next := h.next
    cells := Function.update h.cells a none
    fresh := by
      intro b hb
      by_cases e : b = a
      · rw [e, Function.update_self]
      · rw [Function.update_of_ne e]
        exact h.fresh b hb }

/-- Rewrite the cell at `a`; a cell that is not there stays away. -/
def modify (h : Heap β) (a : Nat) (f : β → β) : Heap β :=
  { next := h.next
    cells := Function.update h.cells a ((h.cells a).map f)
    fresh := by
      intro b hb
      by_cases e : b = a
      · rw [e, Function.update_self, h.fresh a (e ▸ hb), Option.map_none]
      · rw [Function.update_of_ne e]
        exact h.fresh b hb }

@[simp] theorem alloc_next (h : Heap β) (b : β) : (h.alloc b).2.next = h.next + 1 := rfl

@[simp] theorem free_next (h : Heap β) (a : Nat) : (h.free a).next = h.next := rfl

theorem lt_next {h : Heap β} {a : Nat} {b : β} (ha : h.cells a = some b) : a < h.next := by
  by_contra hn
  rw [h.fresh a (by omega)] at ha
  cases ha

@[simp] theorem cells_alloc_self (h : Heap β) (b : β) : (h.alloc b).2.cells h.next = some b :=
  Function.update_self ..

theorem cells_alloc_ne {h : Heap β} {a : Nat} (b : β) (ha : a ≠ h.next) :
    (h.alloc b).2.cells a = h.cells a :=
  Function.update_of_ne ha ..

/-- An allocation leaves every cell that exists as it is. -/
theorem cells_alloc_of_some {h : Heap β} {a : Nat} {c : β} (b : β) (ha : h.cells a = some c) :
    (h.alloc b).2.cells a = some c := by
  rw [cells_alloc_ne b (Nat.ne_of_lt (lt_next ha)), ha]

@[simp] theorem cells_free_self (h : Heap β) (a : Nat) : (h.free a).cells a = none :=
  Function.update_self ..

theorem cells_free_ne {h : Heap β} {a b : Nat} (hb : b ≠ a) : (h.free a).cells b = h.cells b :=
  Function.update_of_ne hb ..

@[simp] theorem cells_modify_self (h : Heap β) (a : Nat) (f : β → β) :
    (h.modify a f).cells a = (h.cells a).map f :=
  Function.update_self ..

theorem cells_modify_ne {h : Heap β} {a b : Nat} (f : β → β) (hb : b ≠ a) :
    (h.modify a f).cells b = h.cells b :=
  Function.update_of_ne hb ..

/-! ## Many cells at once -/

/-- Remove every cell of a list. -/
def freeAll (h : Heap β) (as : List Nat) : Heap β := as.foldl free h

@[simp] theorem freeAll_cons (h : Heap β) (a : Nat) (as : List Nat) :
    h.freeAll (a :: as) = (h.free a).freeAll as := rfl

@[simp] theorem freeAll_next (h : Heap β) (as : List Nat) : (h.freeAll as).next = h.next := by
  induction as generalizing h with
  | nil => rfl
  | cons a as ih => rw [freeAll_cons, ih, free_next]

theorem cells_freeAll_of_notMem {h : Heap β} {as : List Nat} {b : Nat} (hb : b ∉ as) :
    (h.freeAll as).cells b = h.cells b := by
  induction as generalizing h with
  | nil => rfl
  | cons a as ih =>
    obtain ⟨hne, hnot⟩ : b ≠ a ∧ b ∉ as := by simpa using hb
    rw [freeAll_cons, ih hnot, cells_free_ne hne]

end Heap

end Lib
