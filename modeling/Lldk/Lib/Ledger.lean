import Mathlib.Algebra.GroupWithZero.Nat
import Mathlib.Data.List.AList

/-!
Ledgers: one entry for each key, and the sum of a weight over the entries.

`total_insert` and `total_erase` say what an entry adds; with the weight 1 the total is the number
of entries (`total_one`). `total_congr`: the total depends on the look-ups alone.
-/

namespace Lib

universe u v

abbrev Ledger (α : Type u) (β : Type v) := AList fun _ : α => β

namespace Ledger

variable {α : Type u} {β : Type v}

def total (w : β → Nat) (m : Ledger α β) : Nat := (m.entries.map fun e => w e.2).sum

@[simp] theorem total_empty (w : β → Nat) : total w (∅ : Ledger α β) = 0 := rfl

theorem total_one (m : Ledger α β) : total (fun _ => 1) m = m.entries.length := by
  unfold total
  induction m.entries with
  | nil => rfl
  | cons e es ih =>
    rw [List.map_cons, List.sum_cons, ih, List.length_cons]
    exact Nat.add_comm 1 _

variable [DecidableEq α]

theorem erase_of_notMem {m : Ledger α β} {a : α} (h : a ∉ m) : m.erase a = m :=
  AList.ext (List.kerase_of_notMem_keys h)

/-- A new entry counts, and the one it replaces does no more. -/
theorem total_insert (w : β → Nat) (m : Ledger α β) (a : α) (b : β) :
    total w (m.insert a b) = w b + total w (m.erase a) := by
  unfold total
  rw [AList.entries_insert, List.map_cons, List.sum_cons]
  rfl

theorem total_insert_of_notMem (w : β → Nat) {m : Ledger α β} {a : α} (h : a ∉ m) (b : β) :
    total w (m.insert a b) = w b + total w m := by
  rw [total_insert, erase_of_notMem h]

theorem total_erase (w : β → Nat) {m : Ledger α β} {a : α} {b : β} (h : m.lookup a = some b) :
    total w m = w b + total w (m.erase a) := by
  have hmem : a ∈ m.keys := AList.lookup_isSome.mp (by rw [h]; rfl)
  obtain ⟨b', l₁, l₂, hnot, he, hrest⟩ := List.exists_of_kerase hmem
  have hb : b' = b := by
    have hin : (⟨a, b'⟩ : (_ : α) × β) ∈ m.entries := by
      rw [he]
      exact List.mem_append_right _ List.mem_cons_self
    have hl : m.lookup a = some b' := AList.mem_lookup_iff.mpr hin
    rw [h] at hl
    exact (Option.some.inj hl).symm
  have herase : (m.erase a).entries = l₁ ++ l₂ := hrest
  unfold total
  rw [he, herase, List.map_append, List.sum_append, List.map_cons, List.sum_cons, hb,
    List.map_append, List.sum_append]
  dsimp only
  omega

theorem total_erase_le (w : β → Nat) (m : Ledger α β) (a : α) :
    total w (m.erase a) ≤ total w m := by
  cases h : m.lookup a with
  | none => exact Nat.le_of_eq (congrArg (total w) (erase_of_notMem (AList.lookup_eq_none.mp h)))
  | some b =>
    rw [total_erase w h]
    exact Nat.le_add_left _ _

/-- The total says nothing about the order of the entries. -/
theorem total_congr (w : β → Nat) {m m' : Ledger α β} (h : ∀ a, m.lookup a = m'.lookup a) :
    total w m = total w m' := by
  have hperm : m.entries.Perm m'.entries :=
    List.lookup_ext m.nodupKeys m'.nodupKeys fun a b => by
      show m.lookup a = some b ↔ m'.lookup a = some b
      rw [h a]
  exact (hperm.map fun e => w e.2).sum_nat

end Ledger

end Lib
