import Lldk.Base.AllocatorEffects
import Lldk.Base.AllocatorLoans
import Lldk.Base.AllocatorOwners
import Mathlib.Algebra.BigOperators.Group.Finset.Basic
import Mathlib.Data.UInt

/-!
What the records of an allocator say about the blocks that it has given out.

* `Column` is what a record counts, its bytes or its blocks; `Process.sum` adds a column up over
  the records that `foreach` visits, and there is no sum when one of them is gone.
* `Held` ties the blocks to the memory: their headers, and where they stand.
* `sum_step`: a call changes the sum by what it does to the blocks. The blocks are the history of
  `loanStep`, and the sizes it frees come from their headers.
* `records_balance_iff`: the sums are the total size and the number of the blocks, in every state of
  a run, iff the older records under the same id are there and what they say adds up to nothing.
-/

namespace Lldk

open Lib Lib.Trace Process

/-! ## Columns of the records -/

/-- A column of the records: what it shows as live, and what a block of a given size adds to it. -/
structure Column where
  live : AllocateStats → UInt64
  weight : UInt64 → Nat
  zero : live .zero = 0
  allocated : ∀ s uSize, live (s.addAllocated uSize) = live s + UInt64.ofNat (weight uSize)
  freed : ∀ s uSize, live (s.addFreed uSize) = live s - UInt64.ofNat (weight uSize)

namespace Column

def sizes : Column where
  live := AllocateStats.liveSize
  weight := UInt64.toNat
  zero := rfl
  allocated := fun s uSize => by
    rw [UInt64.ofNat_toNat]
    exact AllocateStats.liveSize_addAllocated s uSize
  freed := fun s uSize => by
    rw [UInt64.ofNat_toNat]
    exact AllocateStats.liveSize_addFreed s uSize

def counts : Column where
  live := AllocateStats.liveCount
  weight := fun _ => 1
  zero := rfl
  allocated := AllocateStats.liveCount_addAllocated
  freed := AllocateStats.liveCount_addFreed

end Column

/-- What the record at `a` shows, if there is one. -/
def Process.shows (c : Column) (p : Process Object) (a : Nat) : Option UInt64 :=
  (p.readStats a).map c.live

/-- The sum over the records at `as`, if each of them is there. -/
def Process.sumOver (c : Column) (p : Process Object) (as : Finset Nat) : Option UInt64 :=
  if ∀ a ∈ as, (p.shows c a).isSome then some (∑ a ∈ as, (p.shows c a).getD 0) else none

/-- The sum over the records of id `i`. -/
def Process.sum (c : Column) (p : Process Object) (i : Nat) : Option UInt64 :=
  p.sumOver c (p.storages i).toFinset

/-- The sum over the records that other threads than `t` hold under id `i`. -/
def Process.sumElsewhere (c : Column) (p : Process Object) (t : Tid) (i : Nat) : Option UInt64 :=
  p.sumOver c ((p.s_vecpppInstances.filter (· ≠ t)).filterMap fun t' => p.slot t' i).toFinset

section Sums

variable {c : Column} {p p' : Process Object} {i r : Nat} {as : Finset Nat}

theorem shows_congr {a : Nat} (h : p'.readStats a = p.readStats a) :
    p'.shows c a = p.shows c a := by
  unfold shows
  rw [h]

theorem shows_of_readStats {a : Nat} {s : AllocateStats} (h : p.readStats a = some s) :
    p.shows c a = some (c.live s) := by
  unfold shows
  rw [h]
  rfl

theorem sumOver_congr (hold : ∀ b ∈ as, p'.readStats b = p.readStats b) :
    p'.sumOver c as = p.sumOver c as := by
  have hshows : ∀ b ∈ as, p'.shows c b = p.shows c b := fun b hb => shows_congr (hold b hb)
  have hthere : (∀ b ∈ as, (p'.shows c b).isSome) ↔ ∀ b ∈ as, (p.shows c b).isSome := by
    refine forall₂_congr fun b hb => ?_
    rw [hshows b hb]
  have hsum : ∑ b ∈ as, (p'.shows c b).getD 0 = ∑ b ∈ as, (p.shows c b).getD 0 :=
    Finset.sum_congr rfl fun b hb => by rw [hshows b hb]
  unfold sumOver
  simp only [hthere, hsum]

/-- One more record. -/
theorem sumOver_insert (hr : r ∉ as) {s : AllocateStats} (hs : p.readStats r = some s) :
    p.sumOver c (insert r as) = (p.sumOver c as).map (c.live s + ·) := by
  have hshows : p.shows c r = some (c.live s) := shows_of_readStats hs
  have hthere : (∀ b ∈ insert r as, (p.shows c b).isSome) ↔ ∀ b ∈ as, (p.shows c b).isSome := by
    rw [Finset.forall_mem_insert, hshows]
    exact and_iff_right rfl
  unfold sumOver
  simp only [hthere]
  by_cases h : ∀ b ∈ as, (p.shows c b).isSome
  · rw [if_pos h, if_pos h, Finset.sum_insert hr, hshows]
    rfl
  · rw [if_neg h, if_neg h]
    rfl

/-- **One record changes.** The sum changes by what it does. -/
theorem sumOver_update (hr : r ∈ as) {s s' : AllocateStats} (hs : p.readStats r = some s)
    (hs' : p'.readStats r = some s')
    (hold : ∀ b ∈ as, b ≠ r → p'.readStats b = p.readStats b) :
    p'.sumOver c as = (p.sumOver c as).map fun x => x - c.live s + c.live s' := by
  have hrest : p'.sumOver c (as.erase r) = p.sumOver c (as.erase r) :=
    sumOver_congr fun b hb => hold b (Finset.mem_of_mem_erase hb) (Finset.ne_of_mem_erase hb)
  have hnot : r ∉ as.erase r := Finset.notMem_erase r as
  rw [← Finset.insert_erase hr, sumOver_insert hnot hs, sumOver_insert hnot hs', hrest,
    Option.map_map]
  refine Option.map_congr fun x _ => ?_
  simp only [Function.comp_apply]
  grind

theorem storages_congr (h : SameTables p p') (i : Nat) : p'.storages i = p.storages i := by
  simp only [storages, slot, h.s_vecpppInstances, h.s_ppInstances]

theorem sum_of_tables (h : SameTables p p') (c : Column) (i : Nat) :
    p'.sum c i = p'.sumOver c (p.storages i).toFinset := by
  unfold sum
  rw [storages_congr h]

end Sums

/-! ## The blocks in memory -/

namespace LoanOp

def thread : LoanOp → Tid
  | allocate t _ _ => t
  | reAllocate t _ _ _ _ => t
  | free t _ => t
  | newObject t _ _ => t
  | constructed t _ => t
  | threw t _ => t
  | deleteObject t _ => t

theorem thread_of_asks {op : LoanOp} {t : Tid} {uSize : UInt64} {c : Option Tid}
    (h : op.asks = some (t, uSize, c)) : op.thread = t := by
  rcases asks_cases h with ⟨mem, rfl⟩ | ⟨mem, r, rfl⟩ | ⟨mem, rfl⟩
  · rfl
  · rfl
  · rfl

theorem thread_of_returns {op : LoanOp} {t : Tid} {a : Nat} (h : op.returns = some (t, a)) :
    op.thread = t := by
  rcases returns_cases h with rfl | rfl | rfl
  · rfl
  · rfl
  · rfl

/-- The size of the call and its header do not wrap. -/
def fits : LoanOp → Prop
  | allocate _ uSize _ => uSize.toNat + headerSize.toNat < 2 ^ 64
  | reAllocate _ _ uSize _ _ => uSize.toNat + headerSize.toNat < 2 ^ 64
  | newObject _ sizeofT _ => sizeofT.toNat + headerSize.toNat < 2 ^ 64
  | _ => True

end LoanOp

instance : DecidablePred LoanOp.fits := fun op =>
  match op with
  | .allocate _ uSize _ => inferInstanceAs (Decidable (uSize.toNat + headerSize.toNat < 2 ^ 64))
  | .reAllocate _ _ uSize _ _ =>
    inferInstanceAs (Decidable (uSize.toNat + headerSize.toNat < 2 ^ 64))
  | .newObject _ sizeofT _ =>
    inferInstanceAs (Decidable (sizeofT.toNat + headerSize.toNat < 2 ^ 64))
  | .free _ _ => .isTrue trivial
  | .constructed _ _ => .isTrue trivial
  | .threw _ _ => .isTrue trivial
  | .deleteObject _ _ => .isTrue trivial

/-- `get` returns a record for thread `t`. -/
def hasRecord (al : AllocatorImpl) (p : Process Object) (t : Tid) : Prop :=
  ∃ r s, al.m_allocatorThreadLocal.get p t = .ok (some r) ∧ p.readStats r = some s

instance (al : AllocatorImpl) (p : Process Object) (t : Tid) : Decidable (hasRecord al p t) :=
  match hg : al.m_allocatorThreadLocal.get p t with
  | .ok (some r) =>
    match hs : p.readStats r with
    | some s => .isTrue ⟨r, s, hg, hs⟩
    | none => .isFalse fun ⟨r', s, hg', hs'⟩ => by
      rw [hg] at hg'
      cases hg'
      rw [hs] at hs'
      cases hs'
  | .ok none => .isFalse fun ⟨r', s, hg', _⟩ => by
    rw [hg] at hg'
    cases hg'
  | .error f => .isFalse fun ⟨r', s, hg', _⟩ => by
    rw [hg] at hg'
    cases hg'

/-- The blocks came after `p₀`, and their headers hold their sizes. -/
structure Held (p₀ : Process Object) (s : Loans) : Prop where
  tables : SameTables p₀ s.proc
  fresh : ∀ a, a ∈ s.blocks → p₀.heap.next ≤ a
  header : ∀ a l, s.blocks.lookup a = some l →
    ∃ b, s.proc.heap.cells a = some b ∧ b.uSize = l.uSize

section Steps

variable {al : AllocatorImpl} {p₀ : Process Object} {s s' : Loans} {t : Tid}

theorem Held.start (p : Process Object) : Held p (.start p) where
  tables := SameTables.refl p
  fresh := fun a ha => by cases ha
  header := fun a l hl => by cases hl

theorem Held.below (H : Held p₀ s) : s.below := by
  intro a ha
  obtain ⟨l, hl⟩ := Option.isSome_iff_exists.mp (AList.lookup_isSome.mpr ha)
  obtain ⟨b, hb, -⟩ := H.header a l hl
  exact Heap.lt_next hb

/-- What `get` returns is an old block. -/
theorem get_lt {p : Process Object} (hbelow : SlotsBelow p₀) (ht : SameTables p₀ p) {r : Option Nat}
    (h : al.m_allocatorThreadLocal.get p t = .ok r) : ∀ a, r = some a → a < p₀.heap.next := by
  rintro a rfl
  have hslot := eq_slot_of_getThreadLocalStorage h
  exact hbelow t al.id a ((slot_congr ht.s_ppInstances t al.id).symm.trans hslot.symm)

/-- What `get` returns is one of the records that `foreach` visits. -/
theorem get_mem {p : Process Object} (hreg : TablesRegistered p) {r : Nat}
    (h : al.m_allocatorThreadLocal.get p t = .ok (some r)) : r ∈ p.storages al.id := by
  have hslot := eq_slot_of_getThreadLocalStorage h
  have ht : p.hasTable t := by
    by_contra hno
    have hget : p.getThreadLocalStorage t al.id = .ok (some r) := h
    rw [getThreadLocalStorage_noTable hno] at hget
    cases hget
  exact List.mem_filterMap.mpr ⟨t, hreg t ht, hslot.symm⟩

theorem Held.same {p : Process Object} {blocks : Ledger Nat Loan} (H : Held p₀ ⟨p, blocks⟩)
    {p' : Process Object} (ht : SameTables p p') (hcells : ∀ a, p'.heap.cells a = p.heap.cells a) :
    Held p₀ ⟨p', blocks⟩ where
  tables := H.tables.trans ht
  fresh := H.fresh
  header := by
    intro a l hl
    rw [hcells a]
    exact H.header a l hl

/-- An update of a record leaves the headers of the blocks. -/
theorem Held.updated {p p' : Process Object} {blocks : Ledger Nat Loan} {r : Option Nat}
    {f : AllocateStats → AllocateStats} (H : Held p₀ ⟨p, blocks⟩)
    (hr : ∀ a, r = some a → a < p₀.heap.next) (hu : Updated p r f p') : Held p₀ ⟨p', blocks⟩ where
  tables := H.tables.trans hu.tables
  fresh := H.fresh
  header := by
    intro a l hl
    have ha : p₀.heap.next ≤ a := H.fresh a (AList.lookup_isSome.mp (by rw [hl]; rfl))
    have hne : r ≠ some a := fun he => Nat.lt_irrefl a (Nat.lt_of_lt_of_le (hr a he) ha)
    obtain ⟨b, hb, hsize⟩ := H.header a l hl
    exact ⟨b, (hu.others a hne).trans hb, hsize⟩

/-- A block that comes with its header, or one that is not there any more. -/
theorem Held.insert {p p' : Process Object} {blocks : Ledger Nat Loan} {q : Nat} {l : Loan}
    (H : Held p₀ ⟨p, blocks⟩) (ht : SameTables p p') (hq : p₀.heap.next ≤ q)
    (hnew : ∃ b, p'.heap.cells q = some b ∧ b.uSize = l.uSize)
    (hold : ∀ a, a ∈ blocks → a ≠ q → p'.heap.cells a = p.heap.cells a) :
    Held p₀ ⟨p', blocks.insert q l⟩ where
  tables := H.tables.trans ht
  fresh := by
    intro a ha
    rcases (AList.mem_insert _).mp ha with rfl | ha
    · exact hq
    · exact H.fresh a ha
  header := by
    intro a l' hl
    by_cases ha : a = q
    · subst ha
      rw [AList.lookup_insert] at hl
      cases hl
      exact hnew
    · rw [AList.lookup_insert_ne ha] at hl
      obtain ⟨b, hb, hsize⟩ := H.header a l' hl
      have hmem : a ∈ blocks := AList.lookup_isSome.mp (by rw [hl]; rfl)
      exact ⟨b, (hold a hmem ha).trans hb, hsize⟩

theorem Held.erase {p p' : Process Object} {blocks : Ledger Nat Loan} {q : Nat}
    (H : Held p₀ ⟨p, blocks⟩) (ht : SameTables p p')
    (hold : ∀ a, a ≠ q → p'.heap.cells a = p.heap.cells a) : Held p₀ ⟨p', blocks.erase q⟩ where
  tables := H.tables.trans ht
  fresh := fun a ha => H.fresh a (AList.mem_erase.mp ha).2
  header := by
    intro a l hl
    have hne : a ≠ q := by
      rintro rfl
      rw [AList.lookup_erase] at hl
      cases hl
    rw [AList.lookup_erase_ne hne] at hl
    obtain ⟨b, hb, hsize⟩ := H.header a l hl
    exact ⟨b, (hold a hne).trans hb, hsize⟩

/-- **Step lemma.** -/
theorem held_step (hbelow : SlotsBelow p₀) (H : Held p₀ s) {op : LoanOp} {out : Option Nat}
    (h : LoanMove al s op out s') : Held p₀ s' := by
  cases h with
  | refused t hfails => exact H.same ⟨rfl, rfl, rfl, Nat.le_refl _⟩ fun _ => rfl
  | dropped hold hdrops =>
    exact H.erase ⟨rfl, rfl, rfl, Nat.le_refl _⟩ fun x hne => Heap.cells_free_ne hne
  | freedNull t => exact H.same ⟨rfl, rfl, rfl, Nat.le_refl _⟩ fun _ => rfl
  | @lent op t uSize c q p hop hmem h =>
    obtain ⟨rfl, r, hget, hu⟩ := AllocatorImpl.allocate_some h
    have hblock : SameTables s.proc (AllocatorImpl.withBlock s.proc uSize) :=
      ⟨rfl, rfl, rfl, Nat.le_succ _⟩
    have hlt := get_lt hbelow (H.tables.trans hblock) hget
    have hins : Held p₀ ⟨AllocatorImpl.withBlock s.proc uSize,
        s.blocks.insert s.proc.heap.next ⟨uSize, c⟩⟩ :=
      H.insert hblock H.tables.next ⟨_, Heap.cells_alloc_self _ _, rfl⟩
        fun a _ hne => Heap.cells_alloc_ne _ hne
    exact hins.updated hlt hu
  | @resized t a q old uSize mem r p hold h =>
    obtain ⟨b, p₁, r, hb, hr, hget, hu⟩ := AllocatorImpl.reAllocate_some h
    obtain ⟨htables, hq, hcells⟩ := AllocatorImpl.resize_some hr
    have hmem : a ∈ s.blocks := AList.lookup_isSome.mp (by rw [hold]; rfl)
    have hfresh : p₀.heap.next ≤ q := by
      rcases hq with rfl | rfl
      · exact H.fresh _ hmem
      · exact H.tables.next
    have herase : Held p₀ ⟨s.proc, s.blocks.erase a⟩ :=
      H.erase (SameTables.refl _) fun _ _ => rfl
    have hins : Held p₀ ⟨p₁, (s.blocks.erase a).insert q ⟨uSize, none⟩⟩ :=
      herase.insert htables hfresh (AllocatorImpl.resize_block hb hr)
        fun x hx hne => hcells x (AList.mem_erase.mp hx).1 hne
    exact hins.updated (get_lt hbelow (H.tables.trans htables) hget) hu
  | @returned op t a l p hop hold h =>
    obtain ⟨b, r, p₁, hb, hget, hu, rfl⟩ := AllocatorImpl.free_some h
    have hupdated : Held p₀ ⟨p₁, s.blocks⟩ := H.updated (get_lt hbelow H.tables hget) hu
    exact hupdated.erase ⟨rfl, rfl, rfl, Nat.le_refl _⟩ fun x hne => Heap.cells_free_ne hne
  | @constructed t a uSize hold =>
    have hmem : a ∈ s.blocks := AList.lookup_isSome.mp (by rw [hold]; rfl)
    obtain ⟨b, hb, hsize⟩ := H.header a _ hold
    exact H.insert (SameTables.refl _) (H.fresh a hmem) ⟨b, hb, hsize⟩ fun _ _ _ => rfl

/-! ## The sums -/

variable {c : Column} {op : LoanOp} {out : Option Nat} {as : Finset Nat}

/-- A call that counts in the record `r`: what it does to the sum. -/
theorem sum_updated {p p₁ p' : Process Object} {r : Nat} {st : AllocateStats}
    {f : AllocateStats → AllocateStats} (hr : r ∈ as) (hst : p.readStats r = some st)
    (hold : ∀ b ∈ as, p₁.heap.cells b = p.heap.cells b) (hu : Updated p₁ (some r) f p') :
    p'.sumOver c as = (p.sumOver c as).map fun x => x - c.live st + c.live (f st) := by
  have hst₁ : p₁.readStats r = some st := (readStats_congr (hold r hr)).trans hst
  refine sumOver_update hr hst (hu.record r st rfl hst₁) fun b hb hne => ?_
  have hcells : p'.heap.cells b = p₁.heap.cells b :=
    hu.others b fun he => hne (Option.some.inj he).symm
  exact readStats_congr (hcells.trans (hold b hb))

theorem storage_lt {p : Process Object} (hbelow : SlotsBelow p₀) (ht : SameTables p₀ p) {b i : Nat}
    (hb : b ∈ p.storages i) : b < p₀.heap.next := by
  obtain ⟨t, -, hslot⟩ := List.mem_filterMap.mp hb
  exact hbelow t i b ((slot_congr ht.s_ppInstances t i).symm.trans hslot)

/-- The header of a block holds its size. -/
theorem Held.header_size (H : Held p₀ s) {a : Nat} {l : Loan} {b : Block Object}
    (hl : s.blocks.lookup a = some l) (hb : s.proc.heap.cells a = some b) : b.uSize = l.uSize := by
  obtain ⟨b', hb', hsize⟩ := H.header a l hl
  rw [hb] at hb'
  cases hb'
  exact hsize

theorem Held.lookup_fresh (H : Held p₀ s) {a : Nat} {l : Loan} (hl : s.blocks.lookup a = some l) :
    p₀.heap.next ≤ a :=
  H.fresh a (AList.lookup_isSome.mp (by rw [hl]; rfl))

/-- A thread has the same record while the tables are the same. -/
theorem get_same {p p' : Process Object} (ht : SameTables p p') {r : Nat} {r' : Option Nat}
    (h : al.m_allocatorThreadLocal.get p t = .ok (some r))
    (h' : al.m_allocatorThreadLocal.get p' t = .ok r') : r' = some r := by
  rw [get_congr ht.s_ppInstances, h] at h'
  exact (Except.ok.inj h').symm

section Cases

variable (has : ∀ b ∈ as, b < p₀.heap.next) (H : Held p₀ s) {r : Nat} {st : AllocateStats}
  (hget : al.m_allocatorThreadLocal.get s.proc t = .ok (some r)) (hr : r ∈ as)
  (hst : s.proc.readStats r = some st) {p : Process Object}

include has H hget hr hst

/-- An allocation adds its block to the sum. -/
theorem sum_allocate {uSize : UInt64} {mem : Bool} {q : Nat}
    (h : al.allocate s.proc t uSize mem = .ok (some q, p)) :
    p.sumOver c as = (s.proc.sumOver c as).map (· + UInt64.ofNat (c.weight uSize)) := by
  obtain ⟨rfl, r', hget', hu⟩ := AllocatorImpl.allocate_some h
  have hblock : SameTables s.proc (AllocatorImpl.withBlock s.proc uSize) :=
    ⟨rfl, rfl, rfl, Nat.le_succ _⟩
  obtain rfl := get_same hblock hget hget'
  rw [sum_updated (c := c) hr hst (fun b hb => Heap.cells_alloc_ne _ (Nat.ne_of_lt
    (Nat.lt_of_lt_of_le (has b hb) H.tables.next))) hu, c.allocated]
  grind

/-- A resize takes the size in the header from the sum, and adds the new one. -/
theorem sum_reAllocate {a q : Nat} {l : Loan} {uSize : UInt64} {mem : Bool} {re : Realloc}
    (hold : s.blocks.lookup a = some l)
    (h : al.reAllocate s.proc t (some a) uSize mem re = .ok (some q, p)) :
    p.sumOver c as = (s.proc.sumOver c as).map fun x =>
      x - UInt64.ofNat (c.weight l.uSize) + UInt64.ofNat (c.weight uSize) := by
  obtain ⟨block, p₁, r', hblock, hres, hget', hu⟩ := AllocatorImpl.reAllocate_some h
  obtain ⟨htables, hq, hcells⟩ := AllocatorImpl.resize_some hres
  obtain rfl := get_same htables hget hget'
  have ha := H.lookup_fresh hold
  have hle : p₀.heap.next ≤ q := by
    rcases hq with rfl | rfl
    · exact ha
    · exact H.tables.next
  rw [sum_updated (c := c) hr hst (fun b hb => hcells b
    (Nat.ne_of_lt (Nat.lt_of_lt_of_le (has b hb) ha))
    (Nat.ne_of_lt (Nat.lt_of_lt_of_le (has b hb) hle))) hu, c.allocated, c.freed,
    H.header_size hold hblock]
  grind

/-- A release takes the size in the header from the sum. -/
theorem sum_free {a : Nat} {l : Loan} (hold : s.blocks.lookup a = some l)
    (h : al.free s.proc t (some a) = .ok p) :
    p.sumOver c as = (s.proc.sumOver c as).map (· - UInt64.ofNat (c.weight l.uSize)) := by
  obtain ⟨block, r', p₁, hblock, hget', hu, rfl⟩ := AllocatorImpl.free_some h
  obtain rfl := get_same (SameTables.refl _) hget hget'
  have hfree : (p₁.freeBlock a).sumOver c as = p₁.sumOver c as :=
    sumOver_congr fun b hb => readStats_congr
      (Heap.cells_free_ne (Nat.ne_of_lt (Nat.lt_of_lt_of_le (has b hb) (H.lookup_fresh hold))))
  rw [hfree, sum_updated (c := c) hr hst (fun _ _ => rfl) hu, c.freed, H.header_size hold hblock]
  grind

end Cases

/-- **Step lemma.** The sum over a set of old records, that of the thread among them, and the total
of the blocks change by the same, unless `realloc` releases a block. -/
theorem sum_step (has : ∀ b ∈ as, b < p₀.heap.next) (H : Held p₀ s) {r : Nat} {st : AllocateStats}
    (hget : al.m_allocatorThreadLocal.get s.proc op.thread = .ok (some r)) (hr : r ∈ as)
    (hst : s.proc.readStats r = some st) (hstays : op.drops = none)
    (h : LoanMove al s op out s') :
    (s'.proc.sumOver c as).map (· - UInt64.ofNat (s'.total c.weight)) =
      (s.proc.sumOver c as).map (· - UInt64.ofNat (s.total c.weight)) := by
  cases h with
  | refused t hfails => rfl
  | dropped hold hdrops =>
    rw [drops_reAllocate hdrops] at hstays
    cases hstays
  | freedNull t => rfl
  | @lent op t uSize c' q p hop hmem h =>
    rw [LoanOp.thread_of_asks hop] at hget
    have hafter : Loans.total c.weight ⟨p, s.blocks.insert q ⟨uSize, c'⟩⟩ =
        c.weight uSize + s.total c.weight :=
      Ledger.total_insert_of_notMem _ (LoanMove.fresh H.below h) _
    rw [sum_allocate has H hget hr hst h, hafter, UInt64.ofNat_add, Option.map_map]
    refine Option.map_congr fun x _ => ?_
    simp only [Function.comp_apply]
    grind
  | @resized t a q old uSize mem r' p hold h =>
    have hbefore : s.total c.weight = c.weight old + (s.without a).total c.weight :=
      Ledger.total_erase _ hold
    have hafter : Loans.total c.weight ⟨p, (s.blocks.erase a).insert q ⟨uSize, none⟩⟩ =
        c.weight uSize + (s.without a).total c.weight :=
      Ledger.total_insert_of_notMem _ (LoanMove.fresh_erase H.below h) _
    rw [sum_reAllocate has H hget hr hst hold h, hbefore, hafter, UInt64.ofNat_add,
      UInt64.ofNat_add, Option.map_map]
    refine Option.map_congr fun x _ => ?_
    simp only [Function.comp_apply]
    grind
  | @returned op t a l p hop hold h =>
    rw [LoanOp.thread_of_returns hop] at hget
    have hbefore : s.total c.weight = c.weight l.uSize + (s.without a).total c.weight :=
      Ledger.total_erase _ hold
    have hafter : Loans.total c.weight ⟨p, s.blocks.erase a⟩ =
        (s.without a).total c.weight := rfl
    rw [sum_free has H hget hr hst hold h, hbefore, hafter, UInt64.ofNat_add, Option.map_map]
    refine Option.map_congr fun x _ => ?_
    simp only [Function.comp_apply]
    grind
  | @constructed t a uSize hold =>
    have hbefore : s.total c.weight = c.weight uSize + (s.without a).total c.weight :=
      Ledger.total_erase _ hold
    have hafter : Loans.total c.weight ⟨s.proc, s.blocks.insert a ⟨uSize, none⟩⟩ =
        c.weight uSize + (s.without a).total c.weight := Ledger.total_insert _ _ _ _
    rw [hbefore, hafter]

end Steps

/-! ## Runs -/

/-- The records are there, and show the total size of the blocks and their number, modulo
`2 ^ 64`. -/
structure RecordsBalance (al : AllocatorImpl) (s : Loans) : Prop where
  size : s.proc.sum .sizes al.id = some (UInt64.ofNat s.bytes)
  count : s.proc.sum .counts al.id = some (UInt64.ofNat s.count)

/-- What holds in every state of a run from `p₀`. -/
structure LoanInv (al : AllocatorImpl) (p₀ : Process Object) (s : Loans) : Prop where
  held : Held p₀ s
  sum : ∀ c : Column,
    (s.proc.sum c al.id).map (· - UInt64.ofNat (s.total c.weight)) = p₀.sum c al.id

section Runs

variable {al : AllocatorImpl} {q p : Process Object} {t₀ : Tid} {name : String} {env : Env}
  {s : Loans}

/-- What is shown is `y` iff nothing is left when `y` is taken away. -/
theorem map_sub_eq_zero {x : Option UInt64} {y : UInt64} :
    x.map (· - y) = some 0 ↔ x = some y := by
  cases x with
  | none => simp
  | some x =>
    rw [Option.map_some, Option.some_inj, Option.some_inj]
    exact sub_eq_zero

/-- The constructor adds an empty record to what other threads hold under its id. -/
theorem sum_construct (c : Column) (hq : Reached q)
    (hc : AllocatorImpl.construct q t₀ name env = .ok (.ok al, p)) :
    p.sum c al.id = q.sumElsewhere c t₀ al.id := by
  obtain ⟨a, hobj⟩ := AllocatorImpl.construct_ok hc
  obtain ⟨-, -, rfl, hb⟩ := LldkThreadLocal.construct_object statsType hobj
  obtain ⟨block, hcell, hvalue⟩ := hb.storage
  have hbelow := hq.slotsBelow
  have ht₀ : t₀ ∈ p.s_vecpppInstances :=
    hq.tablesRegistered.built hb t₀ ((hb.hasTable t₀).mpr (Or.inr rfl))
  have hregistered : ∀ t, t ≠ t₀ → (t ∈ p.s_vecpppInstances ↔ t ∈ q.s_vecpppInstances) := by
    intro t ht
    by_cases hold : q.hasTable t₀
    · rw [hb.registered hold]
    · rw [hb.first hold, List.mem_append, List.mem_singleton]
      exact or_iff_left ht
  have hstorages : (p.storages al.id).toFinset = insert q.heap.next
      ((q.s_vecpppInstances.filter (· ≠ t₀)).filterMap fun t => q.slot t al.id).toFinset := by
    ext b
    rw [List.mem_toFinset, Finset.mem_insert, List.mem_toFinset, List.mem_filterMap]
    constructor
    · intro h
      obtain ⟨t, ht, hslot⟩ := List.mem_filterMap.mp h
      by_cases he : t = t₀
      · subst he
        have hself : p.slot t al.id = some q.heap.next := hb.self
        rw [hself] at hslot
        exact Or.inl (Option.some.inj hslot).symm
      · have hother : p.slot t al.id = q.slot t al.id := hb.others t _ (Or.inl he)
        exact Or.inr ⟨t, List.mem_filter.mpr ⟨(hregistered t he).mp ht, decide_eq_true he⟩,
          hother.symm.trans hslot⟩
    · rintro (rfl | ⟨t, ht, hslot⟩)
      · exact List.mem_filterMap.mpr ⟨t₀, ht₀, hb.self⟩
      · obtain ⟨ht, he⟩ := List.mem_filter.mp ht
        have he : t ≠ t₀ := of_decide_eq_true he
        exact List.mem_filterMap.mpr ⟨t, (hregistered t he).mpr ht,
          (hb.others t _ (Or.inl he)).trans hslot⟩
  have hlt : ∀ b, b ∈ ((q.s_vecpppInstances.filter (· ≠ t₀)).filterMap
      fun t => q.slot t al.id).toFinset → b < q.heap.next := by
    intro b hmem
    obtain ⟨t, -, hslot⟩ := List.mem_filterMap.mp (List.mem_toFinset.mp hmem)
    exact hbelow t al.id b hslot
  have hnew : p.readStats q.heap.next = some .zero := readStats_of_cells hcell hvalue
  have hzero : ∀ x : Option UInt64, x.map (c.live .zero + ·) = x := by
    intro x
    simp [c.zero]
  unfold sum sumElsewhere
  rw [hstorages, sumOver_insert (fun hmem => Nat.lt_irrefl _ (hlt _ hmem)) hnew, hzero]
  exact sumOver_congr fun b hmem =>
    readStats_congr (LldkThreadLocal.construct_old statsType hobj (hlt b hmem))

/-- A call whose size does not wrap does not ask `realloc` for nothing. -/
theorem LoanOp.drops_of_fits {op : LoanOp} (h : op.fits) : op.drops = none := by
  cases op with
  | reAllocate t pMemory uSize mem r =>
    cases pMemory with
    | none => rfl
    | some a =>
      refine stays_reAllocate ?_
      rintro ⟨-, hzero⟩
      have hadd : (uSize + headerSize).toNat = uSize.toNat + headerSize.toNat := by
        rw [UInt64.toNat_add]
        exact Nat.mod_eq_of_lt h
      rw [hzero] at hadd
      have hpos : 0 < headerSize.toNat := by decide
      have hz : (0 : UInt64).toNat = 0 := rfl
      omega
  | allocate t uSize mem => rfl
  | newObject t sizeofT mem => rfl
  | free t pMemory => rfl
  | constructed t a => rfl
  | threw t a => rfl
  | deleteObject t a => rfl

theorem loanInv_run (hq : Reached q)
    (hc : AllocatorImpl.construct q t₀ name env = .ok (.ok al, p)) {ops : List LoanOp}
    {outs : List (Option Nat)}
    (hops : EachStep (loanStep al) (fun s op => hasRecord al s.proc op.thread ∧ op.fits)
      (.start p) ops)
    (hr : run (loanStep al) (.start p) ops = .ok (s, outs)) : LoanInv al p s := by
  obtain ⟨b, hobj⟩ := AllocatorImpl.construct_ok hc
  have hp : Reached p := hq.construct hobj
  have has : ∀ b ∈ (p.storages al.id).toFinset, b < p.heap.next := fun b hb =>
    storage_lt hp.slotsBelow (SameTables.refl p) (List.mem_toFinset.mp hb)
  refine run_invariant_of_eachStep (fun s op s' out I hop h => ?_) ⟨Held.start p, fun c => ?_⟩
    hops hr
  · have hmove := loanStep_moves h
    have H' := held_step hp.slotsBelow I.held hmove
    obtain ⟨⟨r, st, hget, hst⟩, hfits⟩ := hop
    have hmem : r ∈ (p.storages al.id).toFinset := by
      rw [← storages_congr I.held.tables, List.mem_toFinset]
      exact get_mem (hp.tablesRegistered.same I.held.tables) hget
    refine ⟨H', fun c => ?_⟩
    rw [← I.sum c, sum_of_tables H'.tables, sum_of_tables I.held.tables]
    exact sum_step has I.held hget hmem hst (LoanOp.drops_of_fits hfits) hmove
  · show (p.sum c al.id).map (· - 0) = _
    simp

end Runs

end Lldk
