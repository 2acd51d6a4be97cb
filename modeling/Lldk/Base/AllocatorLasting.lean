import Lldk.Base.AllocatorReturns

/-!
Programs that destroy nothing.

* `Stocked ids p`: every pointer in a slot is alive, under an id that is marked, and in that slot
  only; under the ids `ids` it is a record.
* While nothing is destroyed, neither by the program nor by a registration that fails, `ids` may be
  the ids of all allocators: `stocks_getSingleton`, `stocks_create`, `stocked_others`.
* `lasting_programs_return`: such a program never faults, iff its threads have a slot table when
  they come to use an allocator.
-/

namespace Lldk

open Lib Lib.Trace Process

/-! ## Slots and records -/

structure Stocked (ids : Nat → Prop) (p : Process Object) : Prop where
  live : ∀ t i b, p.slot t i = some b → ∃ block, p.heap.cells b = some block
  marked : ∀ t i b, p.slot t i = some b → p.marked i
  apart : ∀ t i t' i' b, p.slot t i = some b → p.slot t' i' = some b → t = t' ∧ i = i'
  kept : ∀ i, ids i → p.marked i
  records : ∀ t i b, ids i → p.slot t i = some b → ∃ st, p.readStats b = some st

/-- What is in a slot stays alive, and a record stays a record. -/
structure KeepsStored (p p' : Process Object) : Prop where
  s_ppInstances : p'.s_ppInstances = p.s_ppInstances
  marked : ∀ i, p.marked i → p'.marked i
  live : ∀ t i b, p.slot t i = some b → (∃ block, p.heap.cells b = some block) →
    ∃ block, p'.heap.cells b = some block
  records : ∀ t i b, p.slot t i = some b → (∃ st, p.readStats b = some st) →
    ∃ st, p'.readStats b = some st

namespace KeepsStored

variable {p p' p'' : Process Object}

theorem refl (p : Process Object) : KeepsStored p p :=
  ⟨rfl, fun _ h => h, fun _ _ _ _ h => h, fun _ _ _ _ h => h⟩

theorem trans (h : KeepsStored p p') (h' : KeepsStored p' p'') : KeepsStored p p'' where
  s_ppInstances := h'.s_ppInstances.trans h.s_ppInstances
  marked := fun i hi => h'.marked i (h.marked i hi)
  live := fun t i b hb hlive =>
    h'.live t i b ((slot_congr h.s_ppInstances t i).trans hb) (h.live t i b hb hlive)
  records := fun t i b hb hrec =>
    h'.records t i b ((slot_congr h.s_ppInstances t i).trans hb) (h.records t i b hb hrec)

/-- The blocks in slots are as they were. -/
theorem of_cells (htables : p'.s_ppInstances = p.s_ppInstances)
    (hmarked : ∀ i, p.marked i → p'.marked i)
    (hcells : ∀ t i b, p.slot t i = some b → p'.heap.cells b = p.heap.cells b) :
    KeepsStored p p' where
  s_ppInstances := htables
  marked := hmarked
  live := by
    intro t i b hb hlive
    rw [hcells t i b hb]
    exact hlive
  records := by
    intro t i b hb hrec
    rw [readStats_congr (hcells t i b hb)]
    exact hrec

theorem setErrorCode (p : Process Object) (t : Tid) (e : ErrorCode) :
    KeepsStored p (p.lldkSetErrorCode t e) :=
  of_cells rfl (fun _ h => h) fun _ _ _ _ => rfl

theorem updated {r : Option Nat} {f : AllocateStats → AllocateStats} (h : Updated p r f p') :
    KeepsStored p p' where
  s_ppInstances := h.tables.s_ppInstances
  marked := fun i hi => (marked_congr h.tables.s_bitset i).mpr hi
  live := by
    rintro t i b - ⟨block, hb⟩
    by_cases hr : r = some b
    · obtain ⟨st, hst⟩ := h.live b hr
      obtain ⟨block', hcell, -⟩ := cells_of_readStats (h.record b st hr hst)
      exact ⟨block', hcell⟩
    · rw [h.others b hr]
      exact ⟨block, hb⟩
  records := by
    rintro t i b - ⟨st, hst⟩
    by_cases hr : r = some b
    · exact ⟨_, h.record b st hr hst⟩
    · exact ⟨st, (readStats_congr (h.others b hr)).trans hst⟩

variable {t : Tid} {al : AllocatorImpl} {uSize : UInt64}

theorem allocate (hslots : SlotsBelow p) {mem : Bool} {q : Option Nat}
    (h : al.allocate p t uSize mem = .ok (q, p')) : KeepsStored p p' := by
  cases q with
  | none =>
    rw [AllocatorImpl.allocate_none h]
    exact setErrorCode p t .kNoMemory
  | some a =>
    obtain ⟨-, r, -, hu⟩ := AllocatorImpl.allocate_some h
    have hblock : KeepsStored p (AllocatorImpl.withBlock p uSize) :=
      of_cells rfl (fun _ h => h) fun t i b hb =>
        Heap.cells_alloc_ne _ (Nat.ne_of_lt (hslots t i b hb))
    exact hblock.trans (updated hu)

theorem freeBlock {a : Nat} (hun : ∀ t i, p.slot t i ≠ some a) : KeepsStored p (p.freeBlock a) := by
  refine of_cells rfl (fun _ h => h) fun t i b hb => Heap.cells_free_ne ?_
  rintro rfl
  exact hun t i hb

theorem free {a : Nat} (hun : ∀ t i, p.slot t i ≠ some a)
    (h : al.free p t (some a) = .ok p') : KeepsStored p p' := by
  obtain ⟨b, r, p₁, -, -, hu, rfl⟩ := AllocatorImpl.free_some h
  refine (updated hu).trans (freeBlock fun t i hb => hun t i ?_)
  exact (slot_congr hu.tables.s_ppInstances t i).symm.trans hb

theorem reAllocate (hslots : SlotsBelow p) {a : Nat} (hun : ∀ t i, p.slot t i ≠ some a)
    {mem : Bool} {re : Realloc} {q : Option Nat}
    (h : al.reAllocate p t (some a) uSize mem re = .ok (q, p')) : KeepsStored p p' := by
  cases q with
  | none =>
    rcases AllocatorImpl.reAllocate_none h with ⟨-, rfl⟩ | ⟨-, rfl⟩
    · exact setErrorCode p t .kNoMemory
    · exact (freeBlock hun).trans (setErrorCode _ t .kNoMemory)
  | some q =>
    obtain ⟨b, p₁, r, -, hr, -, hu⟩ := AllocatorImpl.reAllocate_some h
    obtain ⟨htables, hq, hcells⟩ := AllocatorImpl.resize_some hr
    have hresize : KeepsStored p p₁ := by
      refine of_cells htables.s_ppInstances
        (fun i hi => (marked_congr htables.s_bitset i).mpr hi) fun t i c hc => ?_
      have hca : c ≠ a := by
        rintro rfl
        exact hun t i hc
      refine hcells c hca ?_
      rcases hq with rfl | rfl
      · exact hca
      · exact Nat.ne_of_lt (hslots t i c hc)
    exact hresize.trans (updated hu)

end KeepsStored

namespace Stocked

variable {ids ids' : Nat → Prop} {p p' : Process Object} {t : Tid} {i : Nat}

theorem init : Stocked (fun _ => False) .init where
  live := by
    intro t i b hb
    cases hb
  marked := by
    intro t i b hb
    cases hb
  apart := by
    intro t i t' i' b hb
    cases hb
  kept := fun _ hi => hi.elim
  records := fun _ _ _ hi => hi.elim

theorem below (h : Stocked ids p) : SlotsBelow p := by
  intro t i b hb
  obtain ⟨block, hblock⟩ := h.live t i b hb
  exact Heap.lt_next hblock

theorem unstored_next (h : Stocked ids p) (t : Tid) (i : Nat) : p.slot t i ≠ some p.heap.next :=
  fun hb => Nat.lt_irrefl _ (h.below t i _ hb)

theorem mono (h : Stocked ids p) (hsub : ∀ i, ids' i → ids i) : Stocked ids' p :=
  ⟨h.live, h.marked, h.apart, fun i hi => h.kept i (hsub i hi),
    fun t i b hi => h.records t i b (hsub i hi)⟩

theorem keeps (h : Stocked ids p) (hk : KeepsStored p p') : Stocked ids p' where
  live := by
    intro t i b hb
    have hb := (slot_congr hk.s_ppInstances t i).symm.trans hb
    exact hk.live t i b hb (h.live t i b hb)
  marked := by
    intro t i b hb
    exact hk.marked i (h.marked t i b ((slot_congr hk.s_ppInstances t i).symm.trans hb))
  apart := by
    intro t i t' i' b hb hb'
    exact h.apart t i t' i' b ((slot_congr hk.s_ppInstances t i).symm.trans hb)
      ((slot_congr hk.s_ppInstances t' i').symm.trans hb')
  kept := fun i hi => hk.marked i (h.kept i hi)
  records := by
    intro t i b hi hb
    have hb := (slot_congr hk.s_ppInstances t i).symm.trans hb
    exact hk.records t i b hb (h.records t i b hi hb)

/-- **A new object**: its id was in no slot, and its storage is a block that was not there. -/
theorem gained (h : Stocked ids p) {a : Nat} (hfree : ¬ p.marked i) (ha : p.heap.next ≤ a)
    (hmarked : ∀ j, p'.marked j ↔ p.marked j ∨ j = i) (hself : p'.slot t i = some a)
    (hothers : ∀ t' j, t' ≠ t ∨ j ≠ i → p'.slot t' j = p.slot t' j)
    (hstorage : ∃ block, p'.heap.cells a = some block)
    (hlive : ∀ t' j b, p.slot t' j = some b → ∃ block, p'.heap.cells b = some block)
    (hrecords : ∀ t' j b, p.slot t' j = some b → (∃ st, p.readStats b = some st) →
      ∃ st, p'.readStats b = some st)
    (hids : ∀ j, ids' j → ids j ∨ (j = i ∧ ∃ st, p'.readStats a = some st)) :
    Stocked ids' p' := by
  have hslot : ∀ t' j b, p'.slot t' j = some b →
      (t' = t ∧ j = i ∧ b = a) ∨ (p.slot t' j = some b ∧ j ≠ i) := by
    intro t' j b hb
    by_cases hnew : t' = t ∧ j = i
    · obtain ⟨rfl, rfl⟩ := hnew
      rw [hself] at hb
      exact Or.inl ⟨rfl, rfl, (Option.some.inj hb).symm⟩
    · rw [hothers t' j (not_and_or.mp hnew)] at hb
      refine Or.inr ⟨hb, ?_⟩
      rintro rfl
      exact hfree (h.marked t' j b hb)
  refine ⟨fun t' j b hb => ?_, fun t' j b hb => ?_, fun t₁ i₁ t₂ i₂ b hb₁ hb₂ => ?_,
    fun j hj => ?_, fun t' j b hj hb => ?_⟩
  · rcases hslot t' j b hb with ⟨-, -, rfl⟩ | ⟨hold, -⟩
    · exact hstorage
    · exact hlive t' j b hold
  · rcases hslot t' j b hb with ⟨-, rfl, -⟩ | ⟨hold, -⟩
    · exact (hmarked j).mpr (Or.inr rfl)
    · exact (hmarked j).mpr (Or.inl (h.marked t' j b hold))
  · rcases hslot t₁ i₁ b hb₁ with ⟨rfl, rfl, rfl⟩ | ⟨hold₁, -⟩
    · rcases hslot t₂ i₂ b hb₂ with ⟨rfl, rfl, -⟩ | ⟨hold₂, -⟩
      · exact ⟨rfl, rfl⟩
      · have hlt := h.below t₂ i₂ b hold₂
        omega
    · rcases hslot t₂ i₂ b hb₂ with ⟨-, -, rfl⟩ | ⟨hold₂, -⟩
      · have hlt := h.below t₁ i₁ b hold₁
        omega
      · exact h.apart t₁ i₁ t₂ i₂ b hold₁ hold₂
  · rcases hids j hj with hold | ⟨rfl, -⟩
    · exact (hmarked j).mpr (Or.inl (h.kept j hold))
    · exact (hmarked j).mpr (Or.inr rfl)
  · rcases hslot t' j b hb with ⟨-, rfl, rfl⟩ | ⟨hold, hne⟩
    · rcases hids j hj with hin | ⟨-, hrec⟩
      · exact absurd (h.kept j hin) hfree
      · exact hrec
    · have hin : ids j := (hids j hj).resolve_right fun he => hne he.1
      exact hrecords t' j b hold (h.records t' j b hin hold)

theorem built (h : Stocked ids p) {T : ObjectType Object} (hfree : ¬ p.marked i)
    (hb : Built T p t i p') : Stocked ids p' := by
  obtain ⟨block, hstorage, -⟩ := hb.storage
  refine h.gained hfree (Nat.le_refl _) hb.marked hb.self hb.others ⟨block, hstorage⟩
    (fun t' j b hslot => ?_) (fun t' j b hslot hrec => ?_) fun j hj => Or.inl hj
  · obtain ⟨block', hblock⟩ := h.live t' j b hslot
    exact ⟨block', hb.blocks b block' hblock⟩
  · obtain ⟨st, hst⟩ := hrec
    obtain ⟨block', hcell, hobject⟩ := cells_of_readStats hst
    exact ⟨st, readStats_of_cells (hb.blocks b block' hcell) hobject⟩

/-- The record of a new allocator is a record of its id. -/
theorem made (h : Stocked ids p) {r : Option Nat} {al : AllocatorImpl}
    (hr : ∀ b, r = some b → ∃ st, p.readStats b = some st) (hmade : Made p t r al p')
    (hids : ∀ j, ids' j → ids j ∨ j = al.id) : Stocked ids' p' := by
  have hrecords : ∀ b, b < p.heap.next → (∃ st, p.readStats b = some st) →
      ∃ st, p'.readStats b = some st := by
    rintro b hb ⟨st, hst⟩
    by_cases hrb : r = some b
    · exact ⟨_, hmade.record b st hrb hst⟩
    · exact ⟨st, (readStats_congr (hmade.old b hb hrb)).trans hst⟩
  obtain ⟨block, hstorage, -⟩ := cells_of_readStats hmade.storage
  refine h.gained hmade.free (Nat.le_succ _) hmade.marked hmade.self hmade.others
    ⟨block, hstorage⟩ (fun t' j b hslot => ?_)
    (fun t' j b hslot => hrecords b (h.below t' j b hslot))
    fun j hj => (hids j hj).imp_right fun he => ⟨he, _, hmade.storage⟩
  by_cases hrb : r = some b
  · obtain ⟨st, hst⟩ := hr b hrb
    obtain ⟨block', hcell, -⟩ := cells_of_readStats (hmade.record b st hrb hst)
    exact ⟨block', hcell⟩
  · rw [hmade.old b (h.below t' j b hslot) hrb]
    exact h.live t' j b hslot

/-- A constructor, whether it returns or throws. -/
theorem constructThreadLocal (h : Stocked ids p) {T : ObjectType Object} {env : Env}
    {r : Constructed} (hc : LldkThreadLocal.construct T p t env = .ok (r, p')) :
    Stocked ids p' := by
  cases r with
  | object obj a =>
    obtain ⟨-, hfree, -, hb⟩ := LldkThreadLocal.construct_object T hc
    exact h.built hfree hb
  | threw what =>
    rcases LldkThreadLocal.construct_threw T hc with ⟨rfl, -⟩ | ⟨j, -, hfree, -, ha⟩
    · exact h
    · refine h.keeps (.of_cells ha.s_ppInstances (fun i hi => marked_of_construct hc hi)
        fun t i b hb => ?_)
      obtain ⟨block, hblock⟩ := h.live t i b hb
      rw [hblock, ha.blocks b block hblock]

theorem construct (h : Stocked ids p) {name : String} {env : Env}
    {r : Except String AllocatorImpl} (hc : AllocatorImpl.construct p t name env = .ok (r, p')) :
    Stocked ids p' := by
  unfold AllocatorImpl.construct at hc
  split at hc
  · split at hc
    · cases hc
    · rename_i hobject
      cases hc
      exact h.constructThreadLocal hobject
    · rename_i hobject
      cases hc
      exact h.constructThreadLocal hobject
  · cases hc
    exact h

/-- A singleton that is not constructed. -/
theorem newAllocator_error (h : Stocked ids p) {name what : String} {env : CallEnv}
    (hn : p.newAllocator t name env = .ok (.error what, p')) : Stocked ids p' := by
  unfold Process.newAllocator at hn
  split at hn
  · have hblock : Stocked ids { p with
        heap := (p.heap.alloc ⟨sizeofAllocatorImpl, sizeofAllocatorImpl, none⟩).2 } :=
      h.keeps (.of_cells rfl (fun _ h => h) fun t i b hb =>
        Heap.cells_alloc_ne _ (Nat.ne_of_lt (h.below t i b hb)))
    obtain ⟨⟨r, p₁⟩, hc, hn⟩ := bind_eq_ok.mp hn
    cases r with
    | ok al => cases hn
    | error what =>
      cases hn
      obtain ⟨htables, -⟩ := construct_error hc
      refine (hblock.construct hc).keeps (.freeBlock fun t i hb => ?_)
      exact h.unstored_next t i ((slot_congr htables t i).symm.trans hb)
  · cases hn
    exact h

/-- An allocator that is not constructed. -/
theorem newObject_failed (h : Stocked ids p) {self : AllocatorImpl} {name : String}
    {env : CallEnv} {r : Except String (Option Nat)}
    (hn : self.newObject p t name env = .ok (r, p')) (hnot : ∀ a, r ≠ .ok (some a)) :
    Stocked ids p' := by
  obtain ⟨⟨q, p₁⟩, hq, hn⟩ := bind_eq_ok.mp hn
  have h₁ : Stocked ids p₁ := h.keeps (.allocate h.below hq)
  cases q with
  | none =>
    cases hn
    exact h₁
  | some a =>
    obtain ⟨⟨r₁, p₂⟩, hc, hn⟩ := bind_eq_ok.mp hn
    cases r₁ with
    | ok al =>
      cases hn
      exact absurd rfl (hnot a)
    | error what =>
      obtain ⟨p₃, hfree, hn⟩ := bind_eq_ok.mp hn
      cases hn
      obtain ⟨rfl, -⟩ := AllocatorImpl.allocate_some hq
      obtain ⟨htables, -⟩ := construct_error hc
      refine (h₁.construct hc).keeps (.free (fun t i hb => ?_) hfree)
      have hslot := (slot_congr htables t i).symm.trans hb
      exact h.unstored_next t i
        ((slot_congr (AllocatorImpl.allocate_tables hq).s_ppInstances t i).symm.trans hslot)

end Stocked

/-! ## The library -/

/-- The ids of the allocators that a program may use. -/
def Library.allocatorIds (l : Library) (i : Nat) : Prop :=
  ∃ a al, l.knows a ∧ l.proc.readAllocator a = some al ∧ al.id = i

def Library.Stocks (l : Library) : Prop := Stocked l.allocatorIds l.proc

namespace Api

open Library

variable {s s' : Api} {t : Tid} {env : CallEnv} {l l' : Library} {i : Nat}

/-- Allocators that stay, and none that comes. -/
theorem allocatorIds_kept (h : Sound s) (hn : NamesOnce s)
    (hknows : ∀ a, l.knows a → s.lib.knows a)
    (hobject : ∀ a al, s.lib.knows a → s.lib.proc.readAllocator a = some al →
      l.proc.readAllocator a = some al) (hi : l.allocatorIds i) : s.lib.allocatorIds i := by
  obtain ⟨a, al, ha, hal, rfl⟩ := hi
  obtain ⟨al₀, hal₀, -⟩ := h.known hn (hknows a ha)
  rw [hobject a al₀ (hknows a ha) hal₀] at hal
  cases hal
  exact ⟨a, _, hknows a ha, hal₀, rfl⟩

/-- One that comes. -/
theorem allocatorIds_made (h : Sound s) (hn : NamesOnce s) {r : Option Nat} {al : AllocatorImpl}
    (hr : ∀ b, r = some b → ∃ st, s.lib.proc.readStats b = some st)
    (hmade : Made s.lib.proc t r al l.proc)
    (hknows : ∀ a, l.knows a → s.lib.knows a ∨ a = s.lib.proc.heap.next)
    (hi : l.allocatorIds i) : s.lib.allocatorIds i ∨ i = al.id := by
  obtain ⟨a, al', ha, hal', rfl⟩ := hi
  rcases hknows a ha with hold | rfl
  · obtain ⟨al₀, hal₀, -⟩ := h.known hn hold
    have hra : r ≠ some a := by
      intro hra
      obtain ⟨st, hst⟩ := hr a hra
      rw [readAllocator_of_readStats hst] at hal₀
      cases hal₀
    rw [readAllocator_congr (hmade.old a (readAllocator_lt hal₀) hra), hal₀] at hal'
    cases hal'
    exact Or.inl ⟨a, _, hold, hal₀, rfl⟩
  · rw [hmade.object] at hal'
    cases hal'
    exact Or.inr rfl

theorem stocks_setErrorCode (hst : l.Stocks) (t : Tid) (e : ErrorCode) :
    (l.lldkSetErrorCode t e).Stocks :=
  Stocked.keeps hst (.setErrorCode l.proc t e)

theorem stocks_getSingleton (h : Sound s) (hn : NamesOnce s) (hst : s.lib.Stocks)
    {r : Except String (Option Nat)}
    (hs : s.lib.lldkGetAllocatorSingleton t env = .ok (r, l')) : l'.Stocks := by
  cases hp : s.lib.s_pAllocator with
  | some b =>
    rw [getSingleton_of_some hp] at hs
    cases hs
    exact hst
  | none =>
    by_cases hserves : s.lib.servesSingleton t env
    · obtain ⟨al, p, hg, hmade, -⟩ := getSingleton_made hp hserves
      rw [hg] at hs
      cases hs
      have hnone : ∀ b, (none : Option Nat) = some b → ∃ st, s.lib.proc.readStats b = some st :=
        fun b hb => by cases hb
      refine Stocked.made hst hnone hmade fun j hj =>
        allocatorIds_made (l := ⟨p, s.lib.s_pAllocatorMap, some s.lib.proc.heap.next⟩) h hn hnone
          hmade (fun a ha => ?_) hj
      rcases ha with hself | hmap
      · exact Or.inr (Option.some.inj hself).symm
      · exact Or.inl (Or.inr hmap)
    · rcases lldkGetAllocatorSingleton_ok h.slots hs with
        ⟨b, hb, -⟩ | ⟨b, q, -, -, rfl, -⟩ | ⟨what, q, rfl, rfl, hg⟩
      · rw [hp] at hb
        cases hb
      · exact absurd (servesSingleton_of_ok hp hs) hserves
      · simp only [lldkGetAllocatorSingleton, hp] at hs
        obtain ⟨⟨r₁, p₁⟩, hnew, hs⟩ := bind_eq_ok.mp hs
        cases r₁ with
        | ok a =>
          obtain ⟨⟨rc, p₂⟩, hi, hs⟩ := bind_eq_ok.mp hs
          obtain ⟨rfl, -⟩ := codes_initAllocator hi
          cases hs
        | error what' =>
          injection hs with hs
          injection hs with _ hl
          have hq : q = p₁ := congrArg Library.proc hl.symm
          rw [hq] at hg ⊢
          exact (Stocked.newAllocator_error hst hnew).mono fun j hj =>
            allocatorIds_kept (l := s.lib.withProc p₁) h hn (fun _ ha => ha)
              (fun a al _ hal => hg.allocators a al hal) hj

/-- **The construction**, with a singleton. -/
theorem stocks_createObject_withSingleton (h : Sound s) (hn : NamesOnce s) (hst : s.lib.Stocks)
    {b : Nat} (hb : s.lib.s_pAllocator = some b) {n : String} {uMaxSizeMB : UInt64}
    {r : Except String (Option Nat)} (ho : s.lib.createObject t n uMaxSizeMB env = .ok (r, l')) :
    (∀ a, r = .ok (some a) →
      Stocks { l' with s_pAllocatorMap := l'.s_pAllocatorMap ++ [(n, a)] }) ∧
      ((∀ a, r ≠ .ok (some a)) → l'.Stocks) := by
  obtain ⟨self, hsingle⟩ := h.hasSingleton hb
  constructor
  · rintro a rfl
    obtain ⟨⟨q, hcounts⟩, hmem, hname, hid, henv⟩ := serves_of_createObject hb hsingle.object ho
    obtain ⟨al, p, ho', hmade, -⟩ :=
      createObject_made hb hsingle.object hcounts hmem hname hid henv n uMaxSizeMB
    rw [ho'] at ho
    cases ho
    refine Stocked.made hst hcounts.live hmade fun j hj => allocatorIds_made
      (l := ⟨p, s.lib.s_pAllocatorMap ++ [(n, s.lib.proc.heap.next)], s.lib.s_pAllocator⟩) h hn
      hcounts.live hmade (fun a ha => ?_) hj
    rcases ha with hself | hmap
    · exact Or.inl (Or.inl hself)
    · rw [List.map_append, List.mem_append, List.map_singleton, List.mem_singleton] at hmap
      exact hmap.imp_left Or.inr
  · intro hnot
    unfold createObject at ho
    rw [getSingleton_of_some hb] at ho
    obtain ⟨q, hq, ho⟩ := bind_eq_ok.mp ho
    cases hq
    simp only [hsingle.object] at ho
    obtain ⟨⟨r₁, p⟩, hnew, ho⟩ := bind_eq_ok.mp ho
    have hfailed : (∀ a, r₁ ≠ .ok (some a)) → (s.lib.withProc p).Stocks := by
      intro hnone
      rcases AllocatorImpl.newObject_ok h.slots hnew with ⟨a, rfl, -⟩ | ⟨-, hg⟩
      · exact absurd rfl (hnone a)
      · exact (Stocked.newObject_failed hst hnew hnone).mono fun j hj =>
          allocatorIds_kept (l := s.lib.withProc p) h hn (fun _ ha => ha)
            (fun a al _ hal => hg.allocators a al hal) hj
    rcases r₁ with what | _ | a
    · cases ho
      exact hfailed fun a ha => by cases ha
    · cases ho
      exact stocks_setErrorCode (hfailed fun a ha => by cases ha) t .kNoMemory
    · obtain ⟨⟨rc, p₂⟩, hi, ho⟩ := bind_eq_ok.mp ho
      obtain ⟨rfl, -⟩ := codes_initAllocator hi
      cases ho
      exact absurd rfl (hnot a)

/-- **The construction**: a new allocator may be registered. -/
theorem stocks_createObject (h : Sound s) (hn : NamesOnce s) (hst : s.lib.Stocks) {n : String}
    {uMaxSizeMB : UInt64} {r : Except String (Option Nat)}
    (ho : s.lib.createObject t n uMaxSizeMB env = .ok (r, l')) :
    l'.s_pAllocatorMap = s.lib.s_pAllocatorMap ∧
      (∀ a, r = .ok (some a) →
        Stocks { l' with s_pAllocatorMap := l'.s_pAllocatorMap ++ [(n, a)] }) ∧
      ((∀ a, r ≠ .ok (some a)) → l'.Stocks) := by
  obtain ⟨r₁, l₁, p, hs, hl', -⟩ := createObject_ok h.slots ho
  have hst₁ : l₁.Stocks := stocks_getSingleton h hn hst hs
  have hs₁ : Sound { s with lib := l₁ } := sound_getSingleton h hs
  have hmap : l₁.s_pAllocatorMap = s.lib.s_pAllocatorMap ∧
      ((∃ b, r₁ = .ok (some b) ∧ l₁.s_pAllocator = some b) ∨ ∃ what, r₁ = .error what) := by
    rcases lldkGetAllocatorSingleton_ok h.slots hs with
      ⟨b, hb, hl, hr⟩ | ⟨b, q, -, hl, hr, -⟩ | ⟨what, q, hl, hr, -⟩
    · rw [hl]
      exact ⟨rfl, Or.inl ⟨b, hr, hb⟩⟩
    · rw [hl]
      exact ⟨rfl, Or.inl ⟨b, hr, rfl⟩⟩
    · rw [hl]
      exact ⟨rfl, Or.inr ⟨what, hr⟩⟩
  obtain ⟨hmap, hr₁⟩ := hmap
  refine ⟨by rw [hl']; exact hmap, ?_⟩
  have hn₁ : NamesOnce { s with lib := l₁ } := by
    unfold NamesOnce
    rw [hmap]
    exact hn
  rcases hr₁ with ⟨b, rfl, hb⟩ | ⟨what, rfl⟩
  · rw [createObject_of_getSingleton hs hb] at ho
    exact stocks_createObject_withSingleton hs₁ hn₁ hst₁ hb ho
  · unfold createObject at ho
    rw [hs] at ho
    obtain ⟨x, hx, ho⟩ := bind_eq_ok.mp ho
    cases hx
    cases ho
    exact ⟨fun a ha => (by cases ha), fun _ => hst₁⟩

/-- **`lldkCreateAllocator`**, when the registry takes every new allocator. -/
theorem stocks_create (h : Sound s) (hn : NamesOnce s) (hst : s.lib.Stocks)
    (hnode : env.nodeMem = true) (hrehash : env.rehashMem = true) {pName : Option String}
    {uMaxSizeMB : UInt64} {r : Except String (Option Nat)}
    (hc : s.lib.lldkCreateAllocator t pName uMaxSizeMB env = .ok (r, l')) : l'.Stocks := by
  cases lldkCreateAllocator_moves hc with
  | refused hno => exact stocks_setErrorCode hst t .kInvalidParam
  | noKey hkey => exact hst
  | stopped hkey hfind ho hr => exact (stocks_createObject h hn hst ho).2.2 hr
  | @made n a q l₁ l' hkey hfind ho hemplace =>
    obtain ⟨hmap, hmade, -⟩ := stocks_createObject h hn hst ho
    cases hemplace with
    | noNode hno hd =>
      rw [hnode] at hno
      cases hno
    | there _ hthere hd =>
      unfold Library.find at hfind hthere
      rw [hmap, hfind] at hthere
      cases hthere
    | noBuckets _ _ hno hd =>
      rw [hrehash] at hno
      cases hno
    | added _ _ _ => exact hmade a rfl

/-- A block from `__lldkAllocate` is in no slot. -/
theorem Accounts.direct_unstored (h : Accounts s) {b : Nat} (hb : (none, b) ∈ s.blocks) (t : Tid)
    (i : Nat) : s.lib.proc.slot t i ≠ some b := by
  refine h.unstored b (List.mem_append_right _ ?_) t i
  exact List.mem_map_of_mem (f := Prod.snd) (List.mem_filter.mpr ⟨hb, rfl⟩)

/-- The calls that leave the registry, and destroy nothing. -/
theorem CallMove.stocked {op : ApiOp} {out : ApiOut} (h : Sound s) (hacc : Accounts s)
    (hd : ¬ op.destroys) (hs : CallMove s op out s') {ids : Nat → Prop}
    (hst : Stocked ids s.lib.proc) : Stocked ids s'.lib.proc := by
  cases hs with
  | refused t e hfails => exact hst.keeps (.setErrorCode _ t e)
  | looked => exact hst
  | allocated hop hal hcall => exact hst.keeps (.allocate h.slots hcall)
  | resized hb hal hcall => exact hst.keeps (.reAllocate h.slots (hacc.lent hb).2 hcall)
  | dropped hb hdrops =>
    exact hst.keeps (.trans (.freeBlock (hacc.lent hb).2) (.setErrorCode _ _ .kNoMemory))
  | freed hb hal hcall => exact hst.keeps (.free (hacc.lent hb).2 hcall)
  | lldkAllocated =>
    exact hst.keeps (.of_cells rfl (fun _ hi => hi) fun t' i b hb =>
      Heap.cells_alloc_ne _ (Nat.ne_of_lt (h.slots t' i b hb)))
  | lldkFreed hb hcall =>
    have hr := released_lldkFree hcall
    refine hst.keeps (.of_cells hr.s_ppInstances
      (fun i hi => (marked_congr hr.s_bitset i).mpr hi) fun t' i c hc => hr.others c ?_)
    rintro rfl
    exact hacc.direct_unstored hb t' i hc
  | constructed ho hcall => exact hst.constructThreadLocal hcall
  | threw ho hcall => exact hst.constructThreadLocal hcall
  | destructed ho hcall => exact absurd trivial hd

end Api

/-! ## Programs -/

/-- A call that destroys nothing, nor lets the registry refuse a new allocator. -/
def ApiOp.lasting : ApiOp → Prop
  | .create _ _ _ env => env.nodeMem = true ∧ env.rehashMem = true
  | .destroy .. => False
  | .destroyThreadLocal .. => False
  | _ => True

theorem ApiOp.lasting.not_destroys {op : ApiOp} (h : op.lasting) : ¬ op.destroys := by
  cases op with
  | destroy t pAllocator env => exact h.elim
  | destroyThreadLocal t o => exact h.elim
  | _ => exact not_false

namespace Api

/-- A thread that uses an allocator has a slot table, if it gets so far. -/
def tabled (s : Api) : ApiOp → Prop
  | .create t (some n) _ env => env.keyMem = true → s.lib.find n = none → env.objectMem = true →
    s.lib.s_pAllocator ≠ none → s.lib.proc.hasTable t
  | .allocate t _ _ mem => mem = true → s.lib.proc.hasTable t
  | .free t _ (some _) => s.lib.proc.hasTable t
  | .reAllocate t _ none _ mem _ => mem = true → s.lib.proc.hasTable t
  | .reAllocate t _ (some _) _ _ r => ¬ r.returnsNull → s.lib.proc.hasTable t
  | _ => True

instance (s : Api) (op : ApiOp) : Decidable (s.allowed op) :=
  match op with
  | .create .. | .destroy .. | .getSingleton .. | .lldkAllocate .. | .destroyThreadLocal .. =>
    isTrue trivial
  | .allocate .. | .getAllocateStats .. => inferInstanceAs (Decidable (s.lib.knows _))
  | .free .. | .reAllocate .. => inferInstanceAs (Decidable (_ ∧ _))
  | .lldkFree .. => inferInstanceAs (Decidable (∀ b ∈ _, _))
  | .constructThreadLocal .. => inferInstanceAs (Decidable (_ = none))

instance (s : Api) (op : ApiOp) : Decidable (s.tabled op) :=
  match op with
  | .create _ (some _) _ _ => inferInstanceAs (Decidable (_ = true → _ = none → _))
  | .allocate .. | .reAllocate _ _ none _ _ _ => inferInstanceAs (Decidable (_ = true → _))
  | .free _ _ (some _) => inferInstanceAs (Decidable (s.lib.proc.hasTable _))
  | .reAllocate _ _ (some _) _ _ _ => inferInstanceAs (Decidable (¬ Realloc.returnsNull _ → _))
  | .create _ none _ _ | .destroy .. | .getSingleton .. | .free _ _ none
  | .getAllocateStats .. | .lldkAllocate .. | .lldkFree .. | .constructThreadLocal ..
  | .destroyThreadLocal .. => isTrue trivial

/-- Every allocator is there, and what the slots of its id hold are records, each of one thread. -/
structure OwnRecords (s : Api) : Prop where
  allocators : ∀ a, s.lib.knows a → ∃ al, s.lib.proc.readAllocator a = some al
  records : ∀ t a al b, s.lib.knows a → s.lib.proc.readAllocator a = some al →
    s.lib.proc.slot t al.id = some b → ∃ st, s.lib.proc.readStats b = some st
  apart : ∀ t i t' i' b, s.lib.proc.slot t i = some b → s.lib.proc.slot t' i' = some b →
    t = t' ∧ i = i'

/-- What a program that lasts keeps. -/
structure Lasts (s : Api) : Prop where
  sound : Sound s
  names : NamesOnce s
  accounts : Accounts s
  stocks : s.lib.Stocks

namespace Lasts

variable {s s' : Api} {op : ApiOp} {out : ApiOut} {t : Tid} {a : Nat}

theorem init : Lasts .init where
  sound := Sound.init
  names := List.nodup_nil
  accounts := accounts_init
  stocks := Stocked.init.mono fun i hi => by
    obtain ⟨a, al, ha | ha, -⟩ := hi
    · cases ha
    · cases ha

theorem stocks_step (h : Lasts s) (hop : op.lasting) (hs : apiStep s op = .ok (s', out)) :
    s'.lib.Stocks := by
  cases apiStep_moves hs with
  | created hc => exact stocks_create h.sound h.names h.stocks hop.1 hop.2 hc
  | gotSingleton hg => exact stocks_getSingleton h.sound h.names h.stocks hg
  | destroyed hd => exact hop.elim
  | destroyThrew hd => exact hop.elim
  | call hreg hcall =>
    have hst := hcall.stocked h.sound h.accounts hop.not_destroys h.stocks
    obtain ⟨p, hlib, hsp⟩ := hcall.sparesAll h.sound
    refine hst.mono fun i hi => allocatorIds_kept h.sound h.names (fun a ha => ?_)
      (fun a al ha hal => ?_) hi
    · rw [hlib] at ha
      exact ha
    · obtain ⟨k, hk, -⟩ := exists_keeper h.names ha
      rw [hlib]
      exact hsp.object a al ⟨k, trivial, hk⟩ hal

theorem step (h : Lasts s) (hop : op.lasting) (hs : apiStep s op = .ok (s', out)) : Lasts s' where
  sound := sound_step h.sound hs
  names := namesOnce_step h.sound h.names hs
  accounts := accounts_step h.names h.accounts hs
  stocks := h.stocks_step hop hs

/-- A record is missing nowhere: a call that counts needs the table of its thread, no more. -/
theorem countsOn_iff (h : Lasts s) (ha : s.lib.knows a) :
    s.lib.countsOn t a ↔ s.lib.proc.hasTable t := by
  constructor
  · rintro ⟨al, -, ht, -⟩
    exact ht
  · intro ht
    obtain ⟨al, hal, -⟩ := h.sound.known h.names ha
    exact ⟨al, hal, ht, fun b hb => h.stocks.records t al.id b ⟨a, al, ha, hal, rfl⟩ hb⟩

theorem ownRecords (h : Lasts s) : OwnRecords s where
  allocators := by
    intro a ha
    obtain ⟨al, hal, -⟩ := h.sound.known h.names ha
    exact ⟨al, hal⟩
  records := fun t a al b ha hal hb => h.stocks.records t al.id b ⟨a, al, ha, hal, rfl⟩ hb
  apart := h.stocks.apart

theorem recordsLive (h : Lasts s) {al : AllocatorImpl} (ha : s.lib.knows a)
    (hal : s.lib.proc.readAllocator a = some al) (m : Nat) :
    s.lib.proc.recordsLive al.id m := by
  intro b hb
  obtain ⟨t, -, hslot⟩ := List.mem_filterMap.mp (List.mem_of_mem_take hb)
  exact h.stocks.records t al.id b ⟨a, al, ha, hal, rfl⟩ hslot

/-- **What a call relies on** is the slot table of its thread. -/
theorem defined_iff (h : Lasts s) (hop : op.lasting) (hallowed : s.allowed op) :
    s.defined op ↔ s.tabled op := by
  cases op with
  | create t pName uMaxSizeMB env =>
    cases pName with
    | none => exact iff_of_true (fun n hn => by cases hn) trivial
    | some n =>
      constructor
      · intro hdef hkey hfind hmem hs
        obtain ⟨b, hb⟩ := Option.ne_none_iff_exists'.mp hs
        exact (h.countsOn_iff (Or.inl hb)).mp ((hdef n rfl hkey hfind).1 hmem b hb)
      · rintro htable m hm hkey hfind
        cases hm
        refine ⟨fun hmem b hb => (h.countsOn_iff (Or.inl hb)).mpr ?_, fun _ _ => Or.inl hop.2⟩
        exact htable hkey hfind hmem fun hno => by rw [hno] at hb; cases hb
  | destroy t pAllocator env => exact hop.elim
  | getSingleton t env => exact Iff.rfl
  | allocate t a uSize mem => exact imp_congr_right fun _ => h.countsOn_iff hallowed
  | free t a pMemory =>
    cases pMemory with
    | none => exact Iff.rfl
    | some b => exact h.countsOn_iff hallowed.1
  | reAllocate t a pMemory uSize mem r =>
    cases pMemory with
    | none => exact imp_congr_right fun _ => h.countsOn_iff hallowed.1
    | some b => exact imp_congr_right fun _ => h.countsOn_iff hallowed.1
  | getAllocateStats t a pAllocateStats pThreadCount =>
    cases pAllocateStats with
    | none => exact Iff.rfl
    | some buf =>
      cases pThreadCount with
      | none => exact Iff.rfl
      | some m => exact iff_of_true (fun al hal => h.recordsLive hallowed hal m.toNat) trivial
  | lldkAllocate t uSize mem => exact Iff.rfl
  | lldkFree t pMemory => exact Iff.rfl
  | constructThreadLocal t o T env => exact Iff.rfl
  | destroyThreadLocal t o => exact hop.elim

theorem returns_iff_tabled (h : Lasts s) (hop : op.lasting) :
    Returns (apiStep s op) ↔ s.allowed op ∧ s.tabled op := by
  rw [returns_step h.sound h.names h.accounts hop.not_destroys]
  exact and_congr_right fun hallowed => h.defined_iff hop hallowed

end Lasts

end Api

end Lldk
