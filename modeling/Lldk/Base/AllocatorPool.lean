import Lldk.Base.AllocatorBalance

/-!
Blocks that go back through another allocator than the one they came from.

Nothing in a block says which allocator gave it out: `free` and `reAllocate` read its header and
count in the record of the allocator that they are called on.

* `poolStep` is a call on any of a family of allocators, with any block that one of them gave out.
* `LoanMove.counted`: a call changes at most one of the blocks that were there before the run,
  the record that its thread has with the allocator called.
* `pool_step`: the records of all allocators together change by what the call does to the blocks,
  or not at all if it counts nowhere: its thread has no record, or `realloc` released the block.
  `uncounted` adds up what such calls did.
* `pool_balances` is the run.
-/

namespace Lldk

open Lib Lib.Trace Process

/-! ## Storages -/

/-- No two slots hold the same storage. -/
def SlotsApart (p : Process Object) : Prop :=
  ∀ t i t' i' b, p.slot t i = some b → p.slot t' i' = some b → t = t' ∧ i = i'

section Storages

variable {p p' : Process Object}

theorem SlotsApart.of_tables (h : SlotsApart p) (hs : p'.s_ppInstances = p.s_ppInstances) :
    SlotsApart p' := by
  intro t i t' i' b hb hb'
  rw [slot_congr hs] at hb hb'
  exact h t i t' i' b hb hb'

/-- A constructor puts a block in its slot that was in none. -/
theorem SlotsApart.built {T : ObjectType Object} {t : Tid} {i : Nat} (h : SlotsApart p)
    (hbelow : SlotsBelow p) (hb : Built T p t i p') : SlotsApart p' := by
  have hold : ∀ t' j b, p'.slot t' j = some b →
      t' = t ∧ j = i ∧ b = p.heap.next ∨ p.slot t' j = some b ∧ b < p.heap.next := by
    intro t' j b hs
    by_cases he : t' = t ∧ j = i
    · obtain ⟨rfl, rfl⟩ := he
      rw [hb.self] at hs
      exact Or.inl ⟨rfl, rfl, (Option.some.inj hs).symm⟩
    · have hne : t' ≠ t ∨ j ≠ i := not_and_or.mp he
      rw [hb.others t' j hne] at hs
      exact Or.inr ⟨hs, hbelow t' j b hs⟩
  intro t₁ i₁ t₂ i₂ b h₁ h₂
  rcases hold t₁ i₁ b h₁ with ⟨rfl, rfl, rfl⟩ | ⟨h₁, hlt₁⟩
  · rcases hold t₂ i₂ _ h₂ with ⟨rfl, rfl, -⟩ | ⟨-, hlt₂⟩
    · exact ⟨rfl, rfl⟩
    · exact absurd hlt₂ (Nat.lt_irrefl _)
  · rcases hold t₂ i₂ b h₂ with ⟨-, -, rfl⟩ | ⟨h₂, -⟩
    · exact absurd hlt₁ (Nat.lt_irrefl _)
    · exact h t₁ i₁ t₂ i₂ b h₁ h₂

theorem Reached.slotsApart (h : Reached p) : SlotsApart p := by
  induction h with
  | init => exact fun t i t' i' b hb => by cases hb
  | construct hp hc ih =>
    rcases LldkThreadLocal.construct_cases _ hc with ⟨i, -, -, -, hb⟩ | ⟨what, -, rfl | ⟨i, ha⟩⟩
    · exact ih.built hp.slotsBelow hb
    · exact ih
    · exact ih.of_tables ha.s_ppInstances
  | destruct _ hd ih => exact ih.of_tables (LldkThreadLocal.destruct_destructed hd).s_ppInstances
  | allocate _ ha ih => exact ih.of_tables (AllocatorImpl.allocate_tables ha).s_ppInstances
  | free _ hf ih => exact ih.of_tables (AllocatorImpl.free_tables hf).s_ppInstances
  | reAllocate _ hr ih => exact ih.of_tables (AllocatorImpl.reAllocate_tables hr).s_ppInstances
  | lldkAllocate t uSize mem _ ih => cases mem <;> exact ih.of_tables rfl
  | @lldkFree p p' t q _ hf ih =>
    cases q with
    | none =>
      cases hf
      exact ih.of_tables rfl
    | some a => exact ih.of_tables (released_lldkFree hf).s_ppInstances

/-- The records of different ids are different blocks. -/
theorem SlotsApart.storages (h : SlotsApart p) {t : Tid} {i j b : Nat} (hij : i ≠ j)
    (hb : b ∈ p.storages i) (hs : p.slot t j = some b) : False := by
  obtain ⟨t', -, hs'⟩ := List.mem_filterMap.mp hb
  exact hij (h t' i t j b hs' hs).2

end Storages

/-! ## Calls on any of the allocators -/

section Steps

variable {al : AllocatorImpl} {p₀ p p₁ p' : Process Object} {s s' : Loans} {op : LoanOp}
  {out : Option Nat} {c : Column} {t : Tid} {r : Option Nat}

/-- Of the blocks below `bound` a call of thread `t` on `al` changed at most one, the record `r`
that the thread has. -/
structure Counted (al : AllocatorImpl) (bound : Nat) (t : Tid) (r : Option Nat)
    (p p' : Process Object) : Prop where
  tables : SameTables p p'
  record : ∀ a, r = some a → al.m_allocatorThreadLocal.get p t = .ok (some a) ∧
    ∃ st, p.readStats a = some st
  others : ∀ b, b < bound → r ≠ some b → p'.heap.cells b = p.heap.cells b

theorem Counted.uncounted {bound : Nat} (ht : SameTables p p')
    (hcells : ∀ b, b < bound → p'.heap.cells b = p.heap.cells b) :
    Counted al bound t none p p' where
  tables := ht
  record := fun a ha => by cases ha
  others := fun b hb _ => hcells b hb

/-- The blocks of the call are no old ones, and then it counts. -/
theorem Counted.of_updated {f : AllocateStats → AllocateStats} (hbelow : SlotsBelow p₀)
    (h₀ : SameTables p₀ p) (ht : SameTables p p₁)
    (hold : ∀ b, b < p₀.heap.next → p₁.heap.cells b = p.heap.cells b)
    (hget : al.m_allocatorThreadLocal.get p₁ t = .ok r) (hu : Updated p₁ r f p') :
    Counted al p₀.heap.next t r p p' where
  tables := ht.trans hu.tables
  record := by
    rintro a rfl
    have ha : a < p₀.heap.next := get_lt hbelow (h₀.trans ht) hget a rfl
    obtain ⟨st, hst⟩ := hu.live a rfl
    exact ⟨(get_congr ht.s_ppInstances _ t).symm.trans hget, st,
      (readStats_congr (hold a ha)).symm.trans hst⟩
  others := fun b hb hne => (hu.others b hne).trans (hold b hb)

/-- **What a call does to the blocks that were there before the run.** -/
theorem LoanMove.counted (hbelow : SlotsBelow p₀) (H : Held p₀ s) (h : LoanMove al s op out s') :
    ∃ r, Counted al p₀.heap.next op.thread r s.proc s'.proc := by
  have hnew : ∀ b, b < p₀.heap.next → b ≠ s.proc.heap.next := fun b hb =>
    Nat.ne_of_lt (Nat.lt_of_lt_of_le hb H.tables.next)
  have hgiven : ∀ b a l, b < p₀.heap.next → s.blocks.lookup a = some l → b ≠ a :=
    fun b a l hb hl => Nat.ne_of_lt (Nat.lt_of_lt_of_le hb (H.lookup_fresh hl))
  cases h with
  | refused t hfails =>
    exact ⟨none, .uncounted ⟨rfl, rfl, rfl, Nat.le_refl _⟩ fun _ _ => rfl⟩
  | dropped hold hdrops =>
    exact ⟨none, .uncounted ⟨rfl, rfl, rfl, Nat.le_refl _⟩ fun b hb =>
      Heap.cells_free_ne (hgiven b _ _ hb hold)⟩
  | freedNull t =>
    exact ⟨none, .uncounted ⟨rfl, rfl, rfl, Nat.le_refl _⟩ fun _ _ => rfl⟩
  | constructed hold => exact ⟨none, .uncounted (SameTables.refl _) fun _ _ => rfl⟩
  | @lent op t uSize c q p hop hmem h =>
    rw [LoanOp.thread_of_asks hop]
    obtain ⟨rfl, r, hget, hu⟩ := AllocatorImpl.allocate_some h
    have hblock : SameTables s.proc (AllocatorImpl.withBlock s.proc uSize) :=
      ⟨rfl, rfl, rfl, Nat.le_succ _⟩
    exact ⟨r, .of_updated hbelow H.tables hblock
      (fun b hb => Heap.cells_alloc_ne _ (hnew b hb)) hget hu⟩
  | @resized t a q old uSize mem re p hold h =>
    obtain ⟨block, p₁, r, -, hr, hget, hu⟩ := AllocatorImpl.reAllocate_some h
    obtain ⟨htables, hq, hcells⟩ := AllocatorImpl.resize_some hr
    refine ⟨r, .of_updated hbelow H.tables htables (fun b hb => ?_) hget hu⟩
    have hne : b ≠ q := by
      rcases hq with rfl | rfl
      · exact hgiven b _ _ hb hold
      · exact hnew b hb
    exact hcells b (hgiven b a _ hb hold) hne
  | @returned op t a l p hop hold h =>
    rw [LoanOp.thread_of_returns hop]
    obtain ⟨block, r, p₁, -, hget, hu, rfl⟩ := AllocatorImpl.free_some h
    have hcounted : Counted al p₀.heap.next t r s.proc p₁ :=
      .of_updated hbelow H.tables (SameTables.refl _) (fun _ _ => rfl) hget hu
    refine ⟨r, hcounted.tables.trans ⟨rfl, rfl, rfl, Nat.le_refl _⟩, hcounted.record,
      fun b hb hne => ?_⟩
    have hfreed : (p₁.freeBlock a).heap.cells b = p₁.heap.cells b :=
      Heap.cells_free_ne (hgiven b a l hb hold)
    exact hfreed.trans (hcounted.others b hb hne)

/-- A call that drops its block counts nowhere. -/
theorem LoanMove.counted_of_drops (H : Held p₀ s) {a : Nat} (h : LoanMove al s op out s')
    (hdrops : op.drops = some a) : Counted al p₀.heap.next op.thread none s.proc s'.proc := by
  obtain ⟨t, old, hold, rfl⟩ := h.dropped_of_drops hdrops
  exact .uncounted ⟨rfl, rfl, rfl, Nat.le_refl _⟩ fun b hb =>
    Heap.cells_free_ne (Nat.ne_of_lt (Nat.lt_of_lt_of_le hb (H.lookup_fresh hold)))

/-- The records that a call does not count in stay as they are. -/
theorem LoanMove.sumOver_same (hbelow : SlotsBelow p₀) (H : Held p₀ s)
    (h : LoanMove al s op out s') {as : Finset Nat} (has : ∀ b ∈ as, b < p₀.heap.next)
    (hapart : ∀ r st, al.m_allocatorThreadLocal.get s.proc op.thread = .ok (some r) →
      s.proc.readStats r = some st → op.drops = none → r ∉ as) :
    s'.proc.sumOver c as = s.proc.sumOver c as := by
  cases hdrops : op.drops with
  | some a =>
    have hc := h.counted_of_drops H hdrops
    exact sumOver_congr fun b hb => readStats_congr (hc.others b (has b hb) nofun)
  | none =>
    obtain ⟨r, hc⟩ := h.counted hbelow H
    refine sumOver_congr fun b hb => readStats_congr (hc.others b (has b hb) fun hr => ?_)
    obtain ⟨hget, st, hst⟩ := hc.record b hr
    exact hapart b st hget hst hdrops hb

/-- The records of another id stay. -/
theorem LoanMove.sum_same (hp : Reached p₀) (H : Held p₀ s) (h : LoanMove al s op out s') {i : Nat}
    (hi : i ≠ al.id) : s'.proc.sum c i = s.proc.sum c i := by
  have H' := held_step hp.slotsBelow H h
  rw [sum_of_tables H'.tables, sum_of_tables H.tables]
  refine h.sumOver_same hp.slotsBelow H
    (fun b hb => storage_lt hp.slotsBelow (SameTables.refl p₀) (List.mem_toFinset.mp hb))
    fun r st hget _ _ hr => ?_
  have hslot : some r = s.proc.slot op.thread al.id := eq_slot_of_getThreadLocalStorage hget
  rw [slot_congr H.tables.s_ppInstances] at hslot
  exact hp.slotsApart.storages hi (List.mem_toFinset.mp hr) hslot.symm

end Steps

/-- A call on the allocator `k` of a family. The block may come from any of them. -/
def poolStep {ι : Type} (als : ι → AllocatorImpl) : Step Loans (ι × LoanOp) (Option Nat) CallFault
  | s, (k, op) => loanStep (als k) s op

/-- The call counts what it does: its thread has a record, and `realloc` leaves its block or gives
one back. -/
def counts {ι : Type} (als : ι → AllocatorImpl) (s : Loans) (a : ι × LoanOp) : Prop :=
  hasRecord (als a.1) s.proc a.2.thread ∧ a.2.drops = none

instance {ι : Type} (als : ι → AllocatorImpl) (s : Loans) (a : ι × LoanOp) :
    Decidable (counts als s a) :=
  inferInstanceAs (Decidable (_ ∧ _))

/-- What the calls that do not count did to the blocks, in one column. -/
def uncounted {ι : Type} (als : ι → AllocatorImpl) (c : Column) :
    Loans → List (ι × LoanOp) → UInt64
  | _, [] => 0
  | s, a :: as =>
    match poolStep als s a with
    | .error _ => 0
    | .ok (s', _) =>
      (if counts als s a then 0
        else UInt64.ofNat (s'.total c.weight) - UInt64.ofNat (s.total c.weight)) +
      uncounted als c s' as

/-! ## Runs -/

section Runs

variable {ι : Type} [Fintype ι] {als : ι → AllocatorImpl} {c : Column}
  {p p₀ : Process Object} {s s' : Loans}

/-- The records of all the allocators. -/
def Process.poolRecords (als : ι → AllocatorImpl) (p : Process Object) : Finset Nat :=
  Finset.univ.biUnion fun k => (p.storages (als k).id).toFinset

/-- What they show, if each of them is there. -/
def Process.poolSum (als : ι → AllocatorImpl) (c : Column) (p : Process Object) : Option UInt64 :=
  p.sumOver c (p.poolRecords als)

theorem poolRecords_congr (ht : SameTables p₀ p) :
    p.poolRecords als = p₀.poolRecords als := by
  unfold Process.poolRecords
  simp only [storages_congr ht]

theorem poolRecords_lt (hbelow : SlotsBelow p) {b : Nat} (hb : b ∈ p.poolRecords als) :
    b < p.heap.next := by
  obtain ⟨k, -, hb⟩ := Finset.mem_biUnion.mp hb
  exact storage_lt hbelow (SameTables.refl p) (List.mem_toFinset.mp hb)

/-- What `get` returns is a record of the pool. -/
theorem get_mem_poolRecords (hreg : TablesRegistered p) {k : ι} {t : Tid} {r : Nat}
    (h : (als k).m_allocatorThreadLocal.get p t = .ok (some r)) : r ∈ p.poolRecords als :=
  Finset.mem_biUnion.mpr ⟨k, Finset.mem_univ k, List.mem_toFinset.mpr (get_mem hreg h)⟩

/-- **Step lemma.** -/
theorem pool_step (hp : Reached p₀) (H : Held p₀ s) {a : ι × LoanOp} {out : Option Nat}
    (h : poolStep als s a = .ok (s', out)) :
    (s'.proc.poolSum als c).map (· + uncounted als c s [a]) =
      (s.proc.poolSum als c).map
        (· + (UInt64.ofNat (s'.total c.weight) - UInt64.ofNat (s.total c.weight))) := by
  obtain ⟨k, op⟩ := a
  have hmove : LoanMove (als k) s op out s' := loanStep_moves h
  have H' := held_step hp.slotsBelow H hmove
  have hlt : ∀ b ∈ p₀.poolRecords als, b < p₀.heap.next := fun b hb =>
    poolRecords_lt hp.slotsBelow hb
  have huncounted : uncounted als c s [(k, op)] =
      if counts als s (k, op) then 0
        else UInt64.ofNat (s'.total c.weight) - UInt64.ofNat (s.total c.weight) := by
    simp only [uncounted, h]
    exact add_zero _
  unfold Process.poolSum
  rw [huncounted, poolRecords_congr H'.tables, poolRecords_congr H.tables]
  by_cases hcounts : counts als s (k, op)
  · obtain ⟨⟨r, st, hget, hst⟩, hstays⟩ := hcounts
    have hmem : r ∈ p₀.poolRecords als := by
      rw [← poolRecords_congr H.tables]
      exact get_mem_poolRecords (hp.tablesRegistered.same H.tables) hget
    have hsum := sum_step (c := c) hlt H hget hmem hst hstays hmove
    rw [if_pos ⟨⟨r, st, hget, hst⟩, hstays⟩]
    generalize s'.proc.sumOver c (p₀.poolRecords als) = x' at hsum ⊢
    generalize s.proc.sumOver c (p₀.poolRecords als) = x at hsum ⊢
    cases x with
    | none =>
      cases x' with
      | none => rfl
      | some y' => cases hsum
    | some y =>
      cases x' with
      | none => cases hsum
      | some y' =>
        simp only [Option.map_some, Option.some_inj] at hsum ⊢
        grind
  · have hsame : s'.proc.sumOver c (p₀.poolRecords als) = s.proc.sumOver c (p₀.poolRecords als) :=
      hmove.sumOver_same hp.slotsBelow H hlt fun r st hget hst hstays _ =>
        hcounts ⟨⟨r, st, hget, hst⟩, hstays⟩
    rw [if_neg hcounts, hsame]

/-- **Run lemma.** -/
theorem pool_run (hp : Reached p₀) (H : Held p₀ s) {ops : List (ι × LoanOp)}
    {outs : List (Option Nat)} (hr : run (poolStep als) s ops = .ok (s', outs)) :
    Held p₀ s' ∧ (s'.proc.poolSum als c).map (· + uncounted als c s ops) =
      (s.proc.poolSum als c).map
        (· + (UInt64.ofNat (s'.total c.weight) - UInt64.ofNat (s.total c.weight))) := by
  induction ops generalizing s outs with
  | nil =>
    cases hr
    refine ⟨H, ?_⟩
    rw [sub_self]
    rfl
  | cons a ops ih =>
    obtain ⟨s₁, b, bs, h, hr₁, rfl⟩ := run_cons_eq_ok.mp hr
    obtain ⟨H', hrest⟩ := ih (held_step hp.slotsBelow H (loanStep_moves h)) hr₁
    have hstep := pool_step (c := c) hp H h
    have hsplit : uncounted als c s (a :: ops) =
        uncounted als c s [a] + uncounted als c s₁ ops := by
      simp only [uncounted, h, add_zero]
    refine ⟨H', ?_⟩
    rw [hsplit]
    calc (s'.proc.poolSum als c).map (· + (uncounted als c s [a] + uncounted als c s₁ ops))
        = ((s'.proc.poolSum als c).map (· + uncounted als c s₁ ops)).map
            (· + uncounted als c s [a]) := by
          rw [Option.map_map]
          refine Option.map_congr fun x _ => ?_
          simp only [Function.comp_apply]
          grind
      _ = ((s₁.proc.poolSum als c).map (· + uncounted als c s [a])).map
            (· + (UInt64.ofNat (s'.total c.weight) - UInt64.ofNat (s₁.total c.weight))) := by
          rw [hrest, Option.map_map, Option.map_map]
          refine Option.map_congr fun x _ => ?_
          simp only [Function.comp_apply]
          grind
      _ = _ := by
          rw [hstep, Option.map_map]
          refine Option.map_congr fun x _ => ?_
          simp only [Function.comp_apply]
          grind

end Runs

end Lldk
