import Lldk.Base.AllocatorApi
import Lldk.Base.AllocatorEffects

/-!
`Spares own ids p p'`: a change of the process that leaves the allocators `own` and the ids `ids`
and puts no old block in a slot where there was none.

The calls that serve the blocks of a program spare everything; the constructions keep every id
marked, and a destruction every id but its own.
-/

namespace Lldk

open Lib Lib.Trace Process

/-! ## Changes of a process -/

structure Spares (own ids : Nat → Prop) (p p' : Process Object) : Prop where
  next : p.heap.next ≤ p'.heap.next
  slots : ∀ t i b, p'.slot t i = some b →
    p.slot t i = some b ∨ (p.heap.next ≤ b ∧ b < p'.heap.next)
  object : ∀ a al, own a → p.readAllocator a = some al → p'.readAllocator a = some al
  marked : ∀ i, ids i → p.marked i → p'.marked i

namespace Spares

variable {own ids : Nat → Prop} {p p' : Process Object}

theorem of_grew (h : Grew p p') (hm : ∀ i, p.marked i → p'.marked i) : Spares own ids p p' :=
  ⟨h.next, h.slots, fun a al _ ha => h.allocators a al ha, fun i _ hi => hm i hi⟩

theorem setErrorCode (own ids : Nat → Prop) (p : Process Object) (t : Tid) (e : ErrorCode) :
    Spares own ids p (p.lldkSetErrorCode t e) :=
  ⟨Nat.le_refl _, fun _ _ _ hb => Or.inl hb, fun _ _ _ ha => ha, fun _ _ hi => hi⟩

/-- A change that keeps the tables and the ids and, of the cells, those of the allocators. -/
theorem of_tables (htables : SameTables p p')
    (hobject : ∀ a, own a → p'.readAllocator a = p.readAllocator a) : Spares own ids p p' :=
  ⟨htables.next, fun t i _ hb => Or.inl ((slot_congr htables.s_ppInstances t i).symm.trans hb),
    fun a _ hs ha => (hobject a hs).trans ha,
    fun i _ hi => (marked_congr htables.s_bitset i).mpr hi⟩

theorem trans {p'' : Process Object} (h : Spares own ids p p') (h' : Spares own ids p' p'') :
    Spares own ids p p'' where
  next := Nat.le_trans h.next h'.next
  slots := by
    intro t i b hb
    have hn := h.next
    have hn' := h'.next
    rcases h'.slots t i b hb with hb | hb
    · rcases h.slots t i b hb with hb | hb
      · exact Or.inl hb
      · exact Or.inr (by omega)
    · exact Or.inr (by omega)
  object := fun a al hs ha => h'.object a al hs (h.object a al hs ha)
  marked := fun i hs hi => h'.marked i hs (h.marked i hs hi)

end Spares

/-! ## Ids that stay marked -/

theorem marked_of_construct {T : ObjectType Object} {p p' : Process Object} {t : Tid} {env : Env}
    {r : Constructed} (h : LldkThreadLocal.construct T p t env = .ok (r, p')) {i : Nat}
    (hi : p.marked i) : p'.marked i := by
  cases r with
  | object obj a =>
    obtain ⟨-, -, -, hb⟩ := LldkThreadLocal.construct_object T h
    exact (hb.marked i).mpr (Or.inl hi)
  | threw what =>
    rcases LldkThreadLocal.construct_threw T h with ⟨rfl, -⟩ | ⟨j, -, hfree, -, ha⟩
    · exact hi
    · have hne : i ≠ j := by
        rintro rfl
        exact hfree hi
      exact (ha.keeps i hne).mpr hi

theorem marked_of_constructAllocator {p p' : Process Object} {t : Tid} {name : String} {env : Env}
    {r : Except String AllocatorImpl} (h : AllocatorImpl.construct p t name env = .ok (r, p'))
    {i : Nat} (hi : p.marked i) : p'.marked i := by
  unfold AllocatorImpl.construct at h
  split at h
  · split at h
    · cases h
    · rename_i hc
      cases h
      exact marked_of_construct hc hi
    · rename_i hc
      cases h
      exact marked_of_construct hc hi
  · cases h
    exact hi

theorem marked_of_newAllocator {p p' : Process Object} {t : Tid} {name : String} {env : CallEnv}
    {r : Except String Nat} (h : p.newAllocator t name env = .ok (r, p')) {i : Nat}
    (hi : p.marked i) : p'.marked i := by
  unfold newAllocator at h
  split at h
  · obtain ⟨⟨r', p₁⟩, hc, h⟩ := bind_eq_ok.mp h
    have hi₁ : p₁.marked i := marked_of_constructAllocator hc hi
    cases r' with
    | error what =>
      cases h
      exact hi₁
    | ok al =>
      cases h
      exact hi₁
  · cases h
    exact hi

theorem marked_of_newObject {p p' : Process Object} {t : Tid} {self : AllocatorImpl}
    {name : String} {env : CallEnv} {r : Except String (Option Nat)}
    (h : self.newObject p t name env = .ok (r, p')) {i : Nat} (hi : p.marked i) :
    p'.marked i := by
  obtain ⟨⟨q, p₁⟩, hq, h⟩ := bind_eq_ok.mp h
  have hi₁ : p₁.marked i := (marked_congr (AllocatorImpl.allocate_tables hq).s_bitset i).mpr hi
  cases q with
  | none =>
    cases h
    exact hi₁
  | some a =>
    obtain ⟨⟨r', p₂⟩, hc, h⟩ := bind_eq_ok.mp h
    have hi₂ : p₂.marked i := marked_of_constructAllocator hc hi₁
    cases r' with
    | error what =>
      obtain ⟨p₃, hf, h⟩ := bind_eq_ok.mp h
      cases h
      exact (marked_congr (AllocatorImpl.free_tables hf).s_bitset i).mpr hi₂
    | ok al =>
      cases h
      exact hi₂

theorem marked_of_initAllocator {p p' : Process Object} {a : Nat} {uMaxSizeMB : UInt64} {rc : Int}
    (h : p.initAllocator a uMaxSizeMB = .ok (rc, p')) {i : Nat} (hi : p.marked i) :
    p'.marked i := by
  unfold initAllocator at h
  split at h
  · cases h
  · cases h
    exact hi

/-- A destroyed allocator gives its own id back, and no other. -/
theorem marked_of_deleteObject {p p' : Process Object} {t : Tid} {self al : AllocatorImpl} {a : Nat}
    (hal : p.readAllocator a = some al) (h : self.deleteObject p t a = .ok p') {i : Nat}
    (hi : p.marked i) (hne : i ≠ al.id) : p'.marked i := by
  obtain ⟨p₁, hd, h⟩ := bind_eq_ok.mp h
  have hi₁ : p₁.marked i := by
    simp only [destroyAllocator, hal] at hd
    obtain ⟨p₂, hdes, hd⟩ := bind_eq_ok.mp hd
    obtain ⟨block, -, rfl⟩ := destroyObject_ok hd
    exact ((LldkThreadLocal.destruct_destructed hdes).marked i).mpr ⟨hi, hne⟩
  exact (marked_congr (AllocatorImpl.free_tables h).s_bitset i).mpr hi₁

namespace Library

variable {l l' : Library} {t : Tid} {env : CallEnv}

theorem marked_of_getSingleton {r : Except String (Option Nat)}
    (h : l.lldkGetAllocatorSingleton t env = .ok (r, l')) {i : Nat} (hi : l.proc.marked i) :
    l'.proc.marked i := by
  unfold lldkGetAllocatorSingleton at h
  split at h
  · cases h
    exact hi
  · obtain ⟨⟨r', p⟩, hn, h⟩ := bind_eq_ok.mp h
    have hi₁ := marked_of_newAllocator hn hi
    cases r' with
    | error what =>
      cases h
      exact hi₁
    | ok a =>
      obtain ⟨⟨rc, p₁⟩, hinit, h⟩ := bind_eq_ok.mp h
      obtain ⟨rfl, -⟩ := codes_initAllocator hinit
      cases h
      exact marked_of_initAllocator hinit hi₁

/-- A construction that comes to nothing. -/
theorem marked_of_createObject {s : Nat} {pName : String} {uMaxSizeMB : UInt64}
    {r : Except String (Option Nat)} (hs : l.s_pAllocator = some s)
    (h : l.createObject t pName uMaxSizeMB env = .ok (r, l')) {i : Nat} (hi : l.proc.marked i) :
    l'.proc.marked i := by
  simp only [createObject, getSingleton_of_some hs, bind, Except.bind] at h
  split at h
  · cases h
  · obtain ⟨⟨r', p⟩, hn, h⟩ := bind_eq_ok.mp h
    have hi₁ := marked_of_newObject hn hi
    rcases r' with what | _ | a
    · cases h
      exact hi₁
    · cases h
      exact hi₁
    · obtain ⟨⟨rc, p₁⟩, hinit, h⟩ := bind_eq_ok.mp h
      obtain ⟨rfl, -⟩ := codes_initAllocator hinit
      cases h
      exact marked_of_initAllocator hinit hi₁

theorem marked_of_deleteAllocatorImpl {a s : Nat} {al : AllocatorImpl}
    (hs : l.s_pAllocator = some s) (hal : l.proc.readAllocator a = some al)
    (h : l.deleteAllocatorImpl t a env = .ok l') {i : Nat} (hi : l.proc.marked i)
    (hne : i ≠ al.id) : l'.proc.marked i := by
  simp only [deleteAllocatorImpl, getSingleton_of_some hs, bind, Except.bind] at h
  split at h
  · cases h
  · obtain ⟨p, hd, h⟩ := bind_eq_ok.mp h
    cases h
    exact marked_of_deleteObject hal hd hi hne

theorem deleteAllocatorImpl_of_underLock {a : Nat} (h : l.deleteUnderLock t a env = .ok l') :
    l.deleteAllocatorImpl t a env = .ok l' := by
  unfold deleteUnderLock at h
  split at h
  · cases h
  · exact h

end Library

/-! ## Blocks -/

section Blocks

open AllocatorImpl

variable {own ids : Nat → Prop} {p p' : Process Object} {t : Tid} {al : AllocatorImpl}

theorem spares_updated {r : Option Nat} {f : AllocateStats → AllocateStats}
    (h : Updated p r f p') : Spares own ids p p' :=
  .of_tables h.tables fun a _ => h.readAllocator a

theorem spares_freeBlock {b : Nat} (hb : ¬ own b) : Spares own ids p (p.freeBlock b) := by
  refine .of_tables ⟨rfl, rfl, rfl, Nat.le_refl _⟩ fun a ha =>
    readAllocator_congr (Heap.cells_free_ne ?_)
  rintro rfl
  exact hb ha

theorem spares_allocate {uSize : UInt64} {mem : Bool} {q : Option Nat}
    (h : al.allocate p t uSize mem = .ok (q, p')) : Spares own ids p p' := by
  have htables := allocate_tables h
  cases q with
  | none =>
    rw [allocate_none h]
    exact .setErrorCode own ids p t .kNoMemory
  | some a =>
    exact .of_grew (allocate_grew h).2.1 fun i hi => (marked_congr htables.s_bitset i).mpr hi

theorem spares_free {b : Nat} (hb : ¬ own b) (h : al.free p t (some b) = .ok p') :
    Spares own ids p p' := by
  obtain ⟨block, r, p₁, -, -, hu, rfl⟩ := free_some h
  exact (spares_updated hu).trans (spares_freeBlock hb)

/-- A block that is resized keeps its address, or gets a new one. -/
theorem spares_reAllocate {b q : Nat} {uSize : UInt64} {mem : Bool} {re : Realloc}
    (hown : ∀ a, own a → a ≠ b ∧ a < p.heap.next)
    (h : al.reAllocate p t (some b) uSize mem re = .ok (some q, p')) :
    Spares own ids p p' ∧ (q = b ∨ p.heap.next ≤ q ∧ q < p'.heap.next) := by
  obtain ⟨block, p₁, r, hb, hr, -, hu⟩ := reAllocate_some h
  obtain ⟨htables, hq, hcells⟩ := resize_some hr
  have hresize : Spares own ids p p₁ := by
    refine .of_tables htables fun a ha => ?_
    obtain ⟨hab, hlt⟩ := hown a ha
    refine readAllocator_congr (hcells a hab ?_)
    rcases hq with rfl | rfl
    · exact hab
    · exact Nat.ne_of_lt hlt
  refine ⟨hresize.trans (spares_updated hu), hq.imp_right ?_⟩
  rintro rfl
  refine ⟨Nat.le_refl _, ?_⟩
  rw [hu.next]
  cases re with
  | fails => cases hr
  | inPlace =>
    cases hr
    rw [Heap.fresh _ _ (Nat.le_refl _)] at hb
    cases hb
  | moves =>
    cases hr
    exact Nat.lt_succ_self _
  | releases => cases hr

end Blocks

end Lldk
