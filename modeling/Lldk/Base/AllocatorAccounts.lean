import Lldk.Lib.HeapTotal
import Lldk.Base.AllocatorBalance
import Lldk.Base.AllocatorKept

/-!
What the process counters say about the memory of a program.

* `beside` is what the blocks that exist add up to, less what the counters of the process show.
  Storages, tables and what `__lldkAllocate` returns do not move it; allocators and the blocks that
  they give out do.
* `OffBooks own others p`: the blocks `own` are what the counters leave out; they and `others`
  are alive, apart from each other and in no slot. There is one lemma for each function of the
  library, by the blocks that it takes from the lists or adds to them.
* `counters_account` says it of every program, with the blocks that the program holds.
-/

namespace Lldk

open Lib Lib.Trace Process

/-! ## What the counters leave out -/

/-- What a block of that size adds to a column. -/
def Column.share (c : Column) (uSize : UInt64) : UInt64 := UInt64.ofNat (c.weight uSize)

def Process.beside (c : Column) (p : Process Object) : UInt64 :=
  p.heap.total (fun b => c.share b.uSize) - c.live p.s_allocateStats

section Beside

variable {c : Column} {p p' : Process Object} {t : Tid}

theorem live_addAllocated (c : Column) (s : AllocateStats) (uSize : UInt64) :
    c.live (s.addAllocated uSize) = c.live s + c.share uSize :=
  c.allocated s uSize

theorem live_addFreed (c : Column) (s : AllocateStats) (uSize : UInt64) :
    c.live (s.addFreed uSize) = c.live s - c.share uSize :=
  c.freed s uSize

/-- What is allocated through the process is counted. -/
theorem beside_lldkAllocate (c : Column) (p : Process Object) (t : Tid) (uSize : UInt64)
    (mem : Bool) : (p.lldkAllocate t uSize mem).2.beside c = p.beside c := by
  cases mem with
  | false => rfl
  | true =>
    simp only [beside, lldkAllocate, mallocWithHeader, if_true, Heap.total_alloc,
      live_addAllocated]
    grind

theorem beside_lldkFree {q : Option Nat} (h : p.lldkFree t q = .ok p') :
    p'.beside c = p.beside c := by
  cases q with
  | none =>
    cases h
    rfl
  | some a =>
    obtain ⟨b, hb, rfl⟩ := lldkFree_ok h
    have htotal := Heap.total_free (w := fun b => c.share b.uSize) hb
    simp only [beside, released, freeBlock, note, live_addFreed, ← htotal]
    grind

theorem beside_modify {f : Block Object → Block Object} (hf : ∀ b, (f b).uSize = b.uSize)
    {a : Nat} (hheap : p'.heap = p.heap.modify a f)
    (hstats : p'.s_allocateStats = p.s_allocateStats) : p'.beside c = p.beside c := by
  have hweight : ∀ b, c.share (f b).uSize = c.share b.uSize := fun b => by rw [hf b]
  unfold beside
  rw [hheap, hstats, Heap.total_modify_same hweight]

theorem beside_newInstanceId {i : Nat} (h : p.newInstanceId = .ok (i, p')) :
    p'.beside c = p.beside c := by
  unfold newInstanceId at h
  simp only at h
  split at h
  · cases h
    rfl
  · split at h
    · cases h
      rfl
    · cases h

theorem beside_deleteInstanceId {i : Nat} (h : p.deleteInstanceId i = .ok p') :
    p'.beside c = p.beside c := by
  unfold deleteInstanceId at h
  split at h
  · cases h
    rfl
  · cases h

theorem beside_createInstances {env : Env} {ready : Bool}
    (h : p.createInstances t env = .ok (ready, p')) : p'.beside c = p.beside c := by
  have halloc := beside_lldkAllocate c p t tableSize env.tableMem
  unfold createInstances at h
  rcases hp : p.lldkAllocate t tableSize env.tableMem with ⟨_ | a, p₁⟩
  · rw [hp] at halloc
    simp only [hp] at h
    cases h
    exact halloc
  · rw [hp] at halloc
    simp only [hp] at h
    split at h
    · cases h
      exact halloc
    · split at h
      · cases h
      · rename_i p₂ hfree
        cases h
        exact (beside_lldkFree hfree).trans halloc

theorem beside_storeSlot {i a : Nat} (h : p.storeSlot t i a = .ok p') :
    p'.beside c = p.beside c := by
  unfold storeSlot at h
  split at h
  · cases h
  · split at h
    · cases h
      rfl
    · cases h

theorem beside_setThreadLocalStorage {i : Nat} {pStorage : Option Nat} {env : Env} {rc : Int}
    (h : p.setThreadLocalStorage t i pStorage env = .ok (rc, p')) : p'.beside c = p.beside c := by
  cases pStorage with
  | none =>
    cases h
    rfl
  | some a =>
    cases ht : p.s_ppInstances t with
    | some table =>
      simp only [setThreadLocalStorage, ht] at h
      split at h
      · cases h
        rfl
      · split at h
        · cases h
        · rename_i q' hstore
          cases h
          exact beside_storeSlot hstore
    | none =>
      simp only [setThreadLocalStorage, ht] at h
      split at h
      · cases h
        rfl
      · split at h
        · cases h
        · rename_i q hcreate
          cases h
          exact beside_createInstances hcreate
        · rename_i q hcreate
          split at h
          · cases h
          · rename_i q' hstore
            cases h
            exact (beside_storeSlot hstore).trans (beside_createInstances hcreate)

/-- A constructor of an `LldkThreadLocal`, whether it returns or throws. -/
theorem beside_construct {T : ObjectType Object} {env : Env} {r : Constructed}
    (h : LldkThreadLocal.construct T p t env = .ok (r, p')) : p'.beside c = p.beside c := by
  unfold LldkThreadLocal.construct at h
  split at h
  · cases h
  · rename_i i p₁ hid
    have h₁ : p₁.beside c = p.beside c := beside_newInstanceId hid
    split at h
    · cases h
      exact h₁
    · refine Eq.trans ?_ h₁
      have halloc := beside_lldkAllocate c p₁ t T.size env.storageMem
      unfold LldkThreadLocal.setUp at h
      split at h
      · rename_i q hq
        cases h
        rw [hq] at halloc
        exact halloc
      · rename_i a p₂ hq
        rw [hq] at halloc
        split at h
        · cases h
          exact halloc
        · have hplace : (p₂.placeObject a T.value).beside c = p₂.beside c :=
            beside_modify (f := fun b => { b with object := some T.value }) (fun _ => rfl) rfl rfl
          split at h
          · cases h
          · rename_i rc p₃ hset
            have h₃ : p₃.beside c = p₁.beside c :=
              (beside_setThreadLocalStorage hset).trans (hplace.trans halloc)
            split at h
            · split at h
              · cases h
              · rename_i p₄ hfree
                split at h
                · cases h
                · rename_i p₅ hdel
                  cases h
                  exact (beside_deleteInstanceId hdel).trans ((beside_lldkFree hfree).trans h₃)
            · cases h
              exact h₃

theorem beside_destroyObject {a : Nat} (h : p.destroyObject a = .ok p') :
    p'.beside c = p.beside c := by
  obtain ⟨b, -, rfl⟩ := destroyObject_ok h
  exact beside_modify (f := fun b => { b with object := none }) (fun _ => rfl) rfl rfl

theorem beside_destruct {obj : LldkThreadLocal} (h : obj.destruct p t = .ok p') :
    p'.beside c = p.beside c := by
  unfold LldkThreadLocal.destruct at h
  split at h
  · cases h
  · exact beside_deleteInstanceId h
  · rename_i a hget
    split at h
    · cases h
    · rename_i p₁ hobject
      split at h
      · cases h
      · rename_i p₂ hfree
        split at h
        · cases h
        · rename_i rc p₃ hset
          calc p'.beside c = p₃.beside c := beside_deleteInstanceId h
            _ = p₂.beside c := beside_setThreadLocalStorage hset
            _ = p₁.beside c := beside_lldkFree hfree
            _ = p.beside c := beside_destroyObject hobject

end Beside

/-! ## The blocks that the counters leave out -/

/-- The size in the header of a block, in a column. -/
def Process.share (c : Column) (p : Process Object) (a : Nat) : UInt64 :=
  p.heap.weighs (fun b => c.share b.uSize) a

/-- The counters leave out `own`, and nothing else. -/
structure OffBooks (own others : List Nat) (p : Process Object) : Prop where
  nodup : (own ++ others).Nodup
  live : ∀ a ∈ own ++ others, ∃ b, p.heap.cells a = some b
  slots : SlotsBelow p
  unstored : ∀ a ∈ own ++ others, ∀ t i, p.slot t i ≠ some a
  beside : ∀ c : Column, p.beside c = (own.map (p.share c)).sum

/-- The allocators that the library has constructed. -/
def Library.kept (l : Library) : List Nat :=
  l.s_pAllocator.toList ++ l.s_pAllocatorMap.map Prod.snd

namespace OffBooks

variable {own own' others others' : List Nat} {p p' : Process Object} {t : Tid} {a : Nat}

theorem lt_next (h : OffBooks own others p) (ha : a ∈ own ++ others) : a < p.heap.next := by
  obtain ⟨b, hb⟩ := h.live a ha
  exact Heap.lt_next hb

/-- What `own` adds up to, when its headers are the same. -/
theorem sum_same (h : OffBooks own others p)
    (hcells : ∀ a ∈ own, ∀ b, p.heap.cells a = some b →
      ∃ b', p'.heap.cells a = some b' ∧ b'.uSize = b.uSize) (c : Column) :
    (own.map (p'.share c)).sum = (own.map (p.share c)).sum := by
  refine congrArg List.sum (List.map_congr_left fun a ha => ?_)
  obtain ⟨b, hb⟩ := h.live a (List.mem_append_left _ ha)
  obtain ⟨b', hb', hsize⟩ := hcells a ha b hb
  unfold Process.share
  rw [Heap.weighs_of_some hb, Heap.weighs_of_some hb', hsize]

/-- **Frame.** A change that leaves the headers of the blocks and stores only new ones. -/
theorem frame (h : OffBooks own others p) (hnext : p.heap.next ≤ p'.heap.next)
    (hcells : ∀ a ∈ own ++ others, ∀ b, p.heap.cells a = some b →
      ∃ b', p'.heap.cells a = some b' ∧ b'.uSize = b.uSize)
    (hslots : ∀ t i b, p'.slot t i = some b →
      p.slot t i = some b ∨ (p.heap.next ≤ b ∧ b < p'.heap.next))
    (hbeside : ∀ c : Column, p'.beside c = p.beside c) : OffBooks own others p' where
  nodup := h.nodup
  live := by
    intro a ha
    obtain ⟨b, hb⟩ := h.live a ha
    obtain ⟨b', hb', -⟩ := hcells a ha b hb
    exact ⟨b', hb'⟩
  slots := by
    intro t i b hb
    rcases hslots t i b hb with hold | hnew
    · exact Nat.lt_of_lt_of_le (h.slots t i b hold) hnext
    · exact hnew.2
  unstored := by
    intro a ha t i hslot
    rcases hslots t i a hslot with hold | hnew
    · exact h.unstored a ha t i hold
    · exact Nat.lt_irrefl a (Nat.lt_of_lt_of_le (h.lt_next ha) hnew.1)
  beside := fun c => ((hbeside c).trans (h.beside c)).trans
    (h.sum_same (fun a ha => hcells a (List.mem_append_left _ ha)) c).symm

theorem perm (h : OffBooks own others p) (hown : own.Perm own') (hothers : others.Perm others') :
    OffBooks own' others' p where
  nodup := (hown.append hothers).nodup_iff.mp h.nodup
  live := fun a ha => h.live a ((hown.append hothers).mem_iff.mpr ha)
  slots := h.slots
  unstored := fun a ha => h.unstored a ((hown.append hothers).mem_iff.mpr ha)
  beside := fun c => (h.beside c).trans (hown.map (p.share c)).sum_eq

/-- The order of `own`. -/
theorem permOwn (h : OffBooks own others p) (hown : own.Perm own') : OffBooks own' others p :=
  h.perm hown (.refl _)

theorem setErrorCode (h : OffBooks own others p) (t : Tid) (e : ErrorCode) :
    OffBooks own others (p.lldkSetErrorCode t e) :=
  h.frame (Nat.le_refl _) (fun _ _ b hb => ⟨b, hb, rfl⟩) (fun _ _ _ hb => Or.inl hb) fun _ => rfl

/-- An update of what is in a block. -/
theorem modify (h : OffBooks own others p) {f : Block Object → Block Object}
    (hf : ∀ b, (f b).uSize = b.uSize) (hheap : p'.heap = p.heap.modify a f)
    (htables : p'.s_ppInstances = p.s_ppInstances)
    (hstats : p'.s_allocateStats = p.s_allocateStats) : OffBooks own others p' := by
  refine h.frame (by rw [hheap]; exact Nat.le_refl _) (fun x _ b hb => ?_)
    (fun t i b hb => Or.inl ((slot_congr htables t i).symm.trans hb))
    fun c => beside_modify hf hheap hstats
  rw [hheap]
  by_cases hx : x = a
  · subst hx
    rw [Heap.cells_modify_self, hb]
    exact ⟨f b, rfl, hf b⟩
  · rw [Heap.cells_modify_ne f hx]
    exact ⟨b, hb, rfl⟩

/-- One more block, which stands nowhere yet. -/
theorem fresh (h : OffBooks own others p) : p.heap.next ∉ own ++ others :=
  fun hmem => Nat.lt_irrefl _ (h.lt_next hmem)

/-- What `::malloc` returns is not counted. -/
theorem alloc (h : OffBooks own others p) {b : Block Object} (hheap : p'.heap = (p.heap.alloc b).2)
    (htables : p'.s_ppInstances = p.s_ppInstances)
    (hstats : p'.s_allocateStats = p.s_allocateStats) :
    OffBooks (p.heap.next :: own) others p' := by
  have hcell : p'.heap.cells p.heap.next = some b := by
    rw [hheap]
    exact Heap.cells_alloc_self _ _
  have hold : ∀ a b, p.heap.cells a = some b → p'.heap.cells a = some b := by
    intro a b hb
    rw [hheap]
    exact Heap.cells_alloc_of_some _ hb
  have hnext : p'.heap.next = p.heap.next + 1 := by
    rw [hheap]
    rfl
  refine ⟨List.nodup_cons.mpr ⟨h.fresh, h.nodup⟩, fun a ha => ?_, fun t i x hx => ?_,
    fun a ha t i hslot => ?_, fun c => ?_⟩
  · rcases List.mem_cons.mp ha with rfl | ha
    · exact ⟨b, hcell⟩
    · obtain ⟨x, hx⟩ := h.live a ha
      exact ⟨x, hold a x hx⟩
  · have hlt := h.slots t i x ((slot_congr htables t i).symm.trans hx)
    omega
  · have hslot := (slot_congr htables t i).symm.trans hslot
    rcases List.mem_cons.mp ha with rfl | ha
    · exact Nat.lt_irrefl _ (h.slots t i _ hslot)
    · exact h.unstored a ha t i hslot
  · have hrest : (own.map (p'.share c)).sum = (own.map (p.share c)).sum :=
      h.sum_same (fun a _ b hb => ⟨b, hold a b hb, rfl⟩) c
    have hnew : p'.share c p.heap.next = c.share b.uSize := Heap.weighs_of_some hcell
    have hbefore := h.beside c
    unfold Process.beside at hbefore
    unfold Process.beside
    rw [List.map_cons, List.sum_cons, hrest, hnew, ← hbefore, hheap, hstats, Heap.total_alloc]
    grind

/-- A block that is not counted is released. -/
theorem freeBlock (h : OffBooks (a :: own) others p) : OffBooks own others (p.freeBlock a) := by
  obtain ⟨hnot, hnodup⟩ := List.nodup_cons.mp h.nodup
  obtain ⟨b, hb⟩ := h.live a List.mem_cons_self
  have hold : ∀ x ∈ own ++ others, (p.freeBlock a).heap.cells x = p.heap.cells x := by
    intro x hx
    refine Heap.cells_free_ne ?_
    rintro rfl
    exact hnot hx
  refine ⟨hnodup, fun x hx => ?_, h.slots, fun x hx => h.unstored x (List.mem_cons_of_mem _ hx),
    fun c => ?_⟩
  · rw [hold x hx]
    exact h.live x (List.mem_cons_of_mem _ hx)
  · have hrest : own.map ((p.freeBlock a).share c) = own.map (p.share c) :=
      List.map_congr_left fun x hx => Heap.weighs_congr (hold x (List.mem_append_left _ hx))
    have hgone : p.share c a = c.share b.uSize := Heap.weighs_of_some hb
    have htotal := Heap.total_free (w := fun b => c.share b.uSize) hb
    have hbefore := h.beside c
    unfold Process.beside at hbefore
    rw [List.map_cons, List.sum_cons, hgone, ← htotal] at hbefore
    rw [hrest]
    simp only [Process.beside, Process.freeBlock, Process.note]
    grind

/-- A block that is not counted gets another size. -/
theorem resized (h : OffBooks (a :: own) others p) {f : Block Object → Block Object}
    (hheap : p'.heap = p.heap.modify a f) (htables : p'.s_ppInstances = p.s_ppInstances)
    (hstats : p'.s_allocateStats = p.s_allocateStats) : OffBooks (a :: own) others p' := by
  obtain ⟨hnot, -⟩ := List.nodup_cons.mp h.nodup
  obtain ⟨b, hb⟩ := h.live a List.mem_cons_self
  have hcell : p'.heap.cells a = some (f b) := by
    rw [hheap, Heap.cells_modify_self, hb]
    rfl
  have hold : ∀ x ∈ own ++ others, p'.heap.cells x = p.heap.cells x := by
    intro x hx
    rw [hheap]
    refine Heap.cells_modify_ne f ?_
    rintro rfl
    exact hnot hx
  have hnext : p'.heap.next = p.heap.next := by
    rw [hheap]
    rfl
  refine ⟨h.nodup, fun x hx => ?_, fun t i x hx => ?_, fun x hx t i hslot => ?_, fun c => ?_⟩
  · rcases List.mem_cons.mp hx with rfl | hx
    · exact ⟨f b, hcell⟩
    · rw [hold x hx]
      exact h.live x (List.mem_cons_of_mem _ hx)
  · rw [hnext]
    exact h.slots t i x ((slot_congr htables t i).symm.trans hx)
  · exact h.unstored x hx t i ((slot_congr htables t i).symm.trans hslot)
  · have hrest : own.map (p'.share c) = own.map (p.share c) :=
      List.map_congr_left fun x hx => Heap.weighs_congr (hold x (List.mem_append_left _ hx))
    have hbefore := h.beside c
    have htotal := Heap.total_modify (w := fun b => c.share b.uSize) hb f
    have hwas : p.share c a = c.share b.uSize := Heap.weighs_of_some hb
    have his : p'.share c a = c.share (f b).uSize := Heap.weighs_of_some hcell
    unfold Process.beside at hbefore
    rw [List.map_cons, List.sum_cons, hwas] at hbefore
    unfold Process.beside
    rw [List.map_cons, List.sum_cons, hrest, his, hheap, hstats]
    grind

/-! ## The functions of `AllocatorImpl` -/

section Members

variable {al : AllocatorImpl} {uSize : UInt64} {mem : Bool}

theorem updateStats (h : OffBooks own others p) {r : Option Nat}
    {f : AllocateStats → AllocateStats} (hu : p.updateStats r f = .ok p') :
    OffBooks own others p' := by
  cases r with
  | none =>
    cases hu
    exact h
  | some a =>
    simp only [Process.updateStats] at hu
    split at hu
    · cases hu
    · cases hu
      exact h.modify (f := fun b => { b with object := b.object.map (Object.mapStats f) })
        (fun _ => rfl) rfl rfl rfl

theorem count (h : OffBooks own others p) {f : AllocateStats → AllocateStats}
    (hc : al.count p t f = .ok p') : OffBooks own others p' := by
  unfold AllocatorImpl.count at hc
  split at hc
  · cases hc
  · exact h.updateStats hc

theorem allocate (h : OffBooks own others p) {q : Option Nat}
    (hc : al.allocate p t uSize mem = .ok (q, p')) : OffBooks (q.toList ++ own) others p' := by
  cases mem with
  | false =>
    cases hc
    exact h.setErrorCode t .kNoMemory
  | true =>
    simp only [AllocatorImpl.allocate, AllocatorImpl.mallocWithHeader_true] at hc
    split at hc
    · cases hc
    · rename_i p₁ hcount
      cases hc
      have hblock : OffBooks (p.heap.next :: own) others (AllocatorImpl.withBlock p uSize) :=
        h.alloc rfl rfl rfl
      exact hblock.count hcount

theorem free (h : OffBooks (a :: own) others p) (hc : al.free p t (some a) = .ok p') :
    OffBooks own others p' := by
  simp only [AllocatorImpl.free] at hc
  split at hc
  · cases hc
  · split at hc
    · cases hc
    · rename_i p₁ hcount
      cases hc
      exact (h.count hcount).freeBlock

theorem reAllocate (h : OffBooks (a :: own) others p) {r : Realloc} {q : Nat}
    (hc : al.reAllocate p t (some a) uSize mem r = .ok (some q, p')) :
    OffBooks (q :: own) others p' := by
  simp only [AllocatorImpl.reAllocate] at hc
  split at hc
  · cases hc
  · rename_i b hb
    split at hc
    · cases hc
    · rename_i q' p₁ hr
      split at hc
      · cases hc
      · rename_i p₂ hcount
        cases hc
        refine count ?_ hcount
        cases r with
        | fails => cases hr
        | inPlace =>
          cases hr
          exact h.resized rfl rfl rfl
        | moves =>
          cases hr
          have hnew : OffBooks (p.heap.next :: a :: own) others
              { p with heap := (p.heap.alloc ⟨uSize + headerSize, uSize, b.object⟩).2 } :=
            h.alloc rfl rfl rfl
          exact (hnew.permOwn (.swap a _ own)).freeBlock
        | releases => cases hr

theorem construct (h : OffBooks own others p) {name : String} {env : Env}
    {r : Except String AllocatorImpl} (hc : AllocatorImpl.construct p t name env = .ok (r, p')) :
    OffBooks own others p' := by
  obtain ⟨hcon, -⟩ := AllocatorImpl.constructs hc
  refine h.frame hcon.next (fun a _ b hb => ⟨b, hcon.blocks a b hb, rfl⟩) hcon.slots fun c => ?_
  unfold AllocatorImpl.construct at hc
  split at hc
  · split at hc
    · cases hc
    · rename_i hobject
      cases hc
      exact beside_construct hobject
    · rename_i hobject
      cases hc
      exact beside_construct hobject
  · cases hc
    rfl

theorem constructThreadLocal (h : OffBooks own others p) {T : ObjectType Object} {env : Env}
    {r : Constructed} (hc : LldkThreadLocal.construct T p t env = .ok (r, p')) :
    OffBooks own others p' := by
  have hcon := constructs_threadLocal hc
  exact h.frame hcon.next (fun a _ b hb => ⟨b, hcon.blocks a b hb, rfl⟩) hcon.slots
    fun c => beside_construct hc

theorem destructThreadLocal (h : OffBooks own others p) {obj : LldkThreadLocal}
    (hd : obj.destruct p t = .ok p') : OffBooks own others p' := by
  have hdes := LldkThreadLocal.destruct_destructed hd
  refine h.frame (Nat.le_of_eq hdes.next.symm) (fun a ha b hb => ⟨b, ?_, rfl⟩)
    (fun t i b hb => Or.inl ((slot_congr hdes.s_ppInstances t i).symm.trans hb))
    fun c => beside_destruct hd
  rw [hdes.others a (h.unstored a ha t _)]
  exact hb

theorem initAllocator (h : OffBooks own others p) {uMaxSizeMB : UInt64} {rc : Int}
    (hi : p.initAllocator a uMaxSizeMB = .ok (rc, p')) : OffBooks own others p' := by
  unfold Process.initAllocator at hi
  split at hi
  · cases hi
  · rename_i al hal
    cases hi
    exact h.modify (f := fun b => { b with object := some (.allocator (al.init uMaxSizeMB).2) })
      (fun _ => rfl) rfl rfl rfl

theorem placeObject (h : OffBooks own others p) (a : Nat) (value : Object) :
    OffBooks own others (p.placeObject a value) :=
  h.modify (f := fun b => { b with object := some value }) (fun _ => rfl) rfl rfl rfl

theorem destroyAllocator (h : OffBooks own others p) (hd : p.destroyAllocator t a = .ok p') :
    OffBooks own others p' := by
  unfold Process.destroyAllocator at hd
  split at hd
  · cases hd
  · obtain ⟨p₁, hdes, hd⟩ := bind_eq_ok.mp hd
    obtain ⟨b, -, rfl⟩ := destroyObject_ok hd
    exact (h.destructThreadLocal hdes).modify (f := fun b => { b with object := none })
      (fun _ => rfl) rfl rfl rfl

/-- A constructor that throws gives the memory back. -/
theorem newAllocator (h : OffBooks own others p) {name : String} {env : CallEnv}
    {r : Except String Nat} (hn : p.newAllocator t name env = .ok (r, p')) :
    OffBooks (r.toOption.toList ++ own) others p' := by
  unfold Process.newAllocator at hn
  split at hn
  · have hblock : OffBooks (p.heap.next :: own) others
        { p with heap := (p.heap.alloc ⟨sizeofAllocatorImpl, sizeofAllocatorImpl, none⟩).2 } :=
      h.alloc rfl rfl rfl
    obtain ⟨⟨r₁, p₁⟩, hc, hn⟩ := bind_eq_ok.mp hn
    cases r₁ with
    | error what =>
      cases hn
      exact (hblock.construct hc).freeBlock
    | ok al =>
      cases hn
      exact (hblock.construct hc).placeObject _ _
  · cases hn
    exact h

theorem newObject (h : OffBooks own others p) {name : String} {env : CallEnv}
    {r : Except String (Option Nat)} (hn : al.newObject p t name env = .ok (r, p')) :
    OffBooks (r.toOption.join.toList ++ own) others p' := by
  obtain ⟨⟨q, p₁⟩, hq, hn⟩ := bind_eq_ok.mp hn
  have h₁ := h.allocate hq
  cases q with
  | none =>
    cases hn
    exact h₁
  | some a =>
    obtain ⟨⟨r₁, p₂⟩, hc, hn⟩ := bind_eq_ok.mp hn
    have h₂ := h₁.construct hc
    cases r₁ with
    | error what =>
      obtain ⟨p₃, hfree, hn⟩ := bind_eq_ok.mp hn
      cases hn
      exact h₂.free hfree
    | ok al' =>
      cases hn
      exact h₂.placeObject _ _

theorem deleteObject (h : OffBooks (a :: own) others p) (hd : al.deleteObject p t a = .ok p') :
    OffBooks own others p' := by
  obtain ⟨p₁, hdes, hfree⟩ := bind_eq_ok.mp hd
  exact (h.destroyAllocator hdes).free hfree

end Members

/-! ## The functions of the library -/

section Exported

open Library

variable {l l' : Library} {env : CallEnv} {name : String}

theorem lldkAllocate (h : OffBooks own others p) (t : Tid) (uSize : UInt64) (mem : Bool) :
    OffBooks own ((p.lldkAllocate t uSize mem).1.toList ++ others)
      (p.lldkAllocate t uSize mem).2 := by
  cases mem with
  | false => exact h.setErrorCode t .kNoMemory
  | true =>
    have hframe : OffBooks own others (p.lldkAllocate t uSize true).2 :=
      h.frame (Nat.le_succ _) (fun a _ b hb => ⟨b, Heap.cells_alloc_of_some _ hb, rfl⟩)
        (fun _ _ _ hb => Or.inl hb) fun c => beside_lldkAllocate c p t uSize true
    have hperm : (own ++ p.heap.next :: others).Perm (p.heap.next :: (own ++ others)) :=
      List.perm_middle
    refine { hframe with
      nodup := hperm.nodup_iff.mpr (List.nodup_cons.mpr ⟨h.fresh, h.nodup⟩)
      live := fun a ha => ?_
      unstored := fun a ha t' i => ?_ }
    · rcases List.mem_cons.mp (hperm.mem_iff.mp ha) with rfl | ha
      · exact ⟨_, Heap.cells_alloc_self _ _⟩
      · exact hframe.live a ha
    · rcases List.mem_cons.mp (hperm.mem_iff.mp ha) with rfl | ha
      · exact fun hslot => Nat.lt_irrefl _ (h.slots t' i _ hslot)
      · exact hframe.unstored a ha t' i

/-- The program gives a block of its own back. -/
theorem lldkFree (h : OffBooks own (a :: others) p) (hf : p.lldkFree t (some a) = .ok p') :
    OffBooks own others p' := by
  have hperm : (own ++ a :: others).Perm (a :: (own ++ others)) := List.perm_middle
  obtain ⟨hnot, hnodup⟩ := List.nodup_cons.mp (hperm.nodup_iff.mp h.nodup)
  have hrest : OffBooks own others p :=
    { h with
      nodup := hnodup
      live := fun x hx => h.live x (hperm.mem_iff.mpr (List.mem_cons_of_mem _ hx))
      unstored := fun x hx => h.unstored x (hperm.mem_iff.mpr (List.mem_cons_of_mem _ hx)) }
  have hr := released_lldkFree hf
  refine hrest.frame (Nat.le_of_eq hr.next.symm) (fun x hx b hb => ⟨b, ?_, rfl⟩)
    (fun t i b hb => Or.inl ((slot_congr hr.s_ppInstances t i).symm.trans hb))
    fun c => beside_lldkFree hf
  rw [hr.others x]
  · exact hb
  · rintro rfl
    exact hnot hx

theorem getSingleton (h : OffBooks (l.kept ++ own) others l.proc)
    {r : Except String (Option Nat)} (hs : l.lldkGetAllocatorSingleton t env = .ok (r, l')) :
    OffBooks (l'.kept ++ own) others l'.proc := by
  unfold lldkGetAllocatorSingleton at hs
  split at hs
  · cases hs
    exact h
  · rename_i hnone
    obtain ⟨⟨r₁, p₁⟩, hn, hs⟩ := bind_eq_ok.mp hs
    have h₁ := h.newAllocator hn
    cases r₁ with
    | error what =>
      cases hs
      exact h₁
    | ok a =>
      obtain ⟨⟨rc, p₂⟩, hi, hs⟩ := bind_eq_ok.mp hs
      obtain ⟨rfl, -⟩ := codes_initAllocator hi
      cases hs
      have h₂ := h₁.initAllocator hi
      unfold Library.kept at h₂
      rw [hnone] at h₂
      exact h₂

theorem deleteAllocatorImpl (h : OffBooks (a :: (l.kept ++ own)) others l.proc)
    (hd : l.deleteAllocatorImpl t a env = .ok l') : OffBooks (l'.kept ++ own) others l'.proc := by
  obtain ⟨⟨r, l₁⟩, hs, hd⟩ := bind_eq_ok.mp hd
  have h₁ : OffBooks (l₁.kept ++ a :: own) others l₁.proc :=
    (h.permOwn List.perm_middle.symm).getSingleton hs
  rcases r with what | _ | b
  · cases hd
  · obtain ⟨-, -, b, he⟩ := codes_getSingleton hs
    cases he
  · cases hal : l₁.proc.readAllocator b with
    | none => simp [hal] at hd
    | some al =>
      simp only [hal] at hd
      obtain ⟨p, hdel, hd⟩ := bind_eq_ok.mp hd
      cases hd
      exact (h₁.permOwn List.perm_middle).deleteObject hdel

theorem deleteUnderLock (h : OffBooks (a :: (l.kept ++ own)) others l.proc)
    (hd : l.deleteUnderLock t a env = .ok l') : OffBooks (l'.kept ++ own) others l'.proc :=
  h.deleteAllocatorImpl (deleteAllocatorImpl_of_underLock hd)

theorem createObject (h : OffBooks (l.kept ++ own) others l.proc) {uMaxSizeMB : UInt64}
    {r : Except String (Option Nat)} (ho : l.createObject t name uMaxSizeMB env = .ok (r, l')) :
    OffBooks (r.toOption.join.toList ++ (l'.kept ++ own)) others l'.proc := by
  obtain ⟨⟨r₁, l₁⟩, hs, ho⟩ := bind_eq_ok.mp ho
  have h₁ := h.getSingleton hs
  rcases r₁ with what | _ | b
  · cases ho
    exact h₁
  · cases ho
    exact h₁.setErrorCode t .kInvalidState
  · cases hal : l₁.proc.readAllocator b with
    | none => simp [hal] at ho
    | some al =>
      simp only [hal] at ho
      obtain ⟨⟨r₂, p₂⟩, hn, ho⟩ := bind_eq_ok.mp ho
      have h₂ := h₁.newObject hn
      rcases r₂ with what | _ | a
      · cases ho
        exact h₂
      · cases ho
        exact h₂.setErrorCode t .kNoMemory
      · obtain ⟨⟨rc, p₃⟩, hi, ho⟩ := bind_eq_ok.mp ho
        obtain ⟨rfl, -⟩ := codes_initAllocator hi
        cases ho
        exact h₂.initAllocator hi

/-- The new allocator is registered, or deleted again. -/
theorem createEmplace (h : OffBooks (a :: (l.kept ++ own)) others l.proc) {res : Option Nat}
    (he : EmplaceMove l t name a env res l') : OffBooks (l'.kept ++ own) others l'.proc := by
  cases he with
  | noNode hnode hd =>
    exact deleteAllocatorImpl (l := l.lldkSetErrorCode t .kThrowException)
      (h.setErrorCode t .kThrowException) hd
  | there hnode hfind hd => exact h.deleteUnderLock hd
  | noBuckets hnode hfind hrehash hd =>
    exact (h.deleteUnderLock hd).setErrorCode t .kThrowException
  | added hnode hfind hrehash =>
    refine h.permOwn ?_
    unfold Library.kept
    rw [List.map_append, ← List.append_assoc]
    exact (List.perm_append_singleton a _).symm.append_right own

theorem create (h : OffBooks (l.kept ++ own) others l.proc) {pName : Option String}
    {uMaxSizeMB : UInt64} {r : Except String (Option Nat)}
    (hc : l.lldkCreateAllocator t pName uMaxSizeMB env = .ok (r, l')) :
    OffBooks (l'.kept ++ own) others l'.proc := by
  cases lldkCreateAllocator_moves hc with
  | refused hno => exact h.setErrorCode t .kInvalidParam
  | noKey hkey => exact h
  | stopped hkey hfind ho hr =>
    have h₁ := h.createObject ho
    rcases r with what | _ | a
    · exact h₁
    · exact h₁
    · exact absurd rfl (hr a)
  | made hkey hfind ho hemplace => exact (h.createObject ho).createEmplace hemplace

/-- An entry and the rest of a registry that has no name twice. -/
theorem kept_erase (hn : (l.s_pAllocatorMap.map Prod.fst).Nodup) (hfind : l.find name = some a) :
    l.kept.Perm (a :: (l.erase name).kept) := by
  obtain ⟨m₁, m₂, hm⟩ := List.append_of_mem (mem_of_find hfind)
  rw [hm, List.map_append, List.map_cons, List.nodup_middle, List.nodup_cons] at hn
  have hout : ∀ e ∈ m₁ ++ m₂, e.1 ≠ name := by
    rintro e he rfl
    refine hn.1 ?_
    rw [← List.map_append]
    exact List.mem_map.mpr ⟨e, he, rfl⟩
  have hrest : (l.erase name).s_pAllocatorMap = m₁ ++ m₂ := by
    show l.s_pAllocatorMap.filter _ = _
    rw [hm, List.filter_append, List.filter_cons_of_neg (by simp), ← List.filter_append]
    exact List.filter_eq_self.mpr fun e he => decide_eq_true (hout e he)
  have hmap : (l.s_pAllocatorMap.map Prod.snd).Perm
      (a :: (l.erase name).s_pAllocatorMap.map Prod.snd) := by
    rw [hrest, hm]
    exact List.perm_middle.map Prod.snd
  exact (hmap.append_left _).trans List.perm_middle

theorem destroy (h : OffBooks (l.kept ++ own) others l.proc)
    (hn : (l.s_pAllocatorMap.map Prod.fst).Nodup) {q : Option Nat} {r : Except String Unit}
    (hd : l.lldkDestroyAllocator t q env = .ok (r, l')) :
    OffBooks (l'.kept ++ own) others l'.proc := by
  cases lldkDestroyAllocator_moves hd with
  | refused hno => exact h.setErrorCode t .kInvalidParam
  | noKey hkey => exact h
  | @deleted a al l₁ hkey hal hfind hdel =>
    have herased : OffBooks (a :: ((l.erase al.getName).kept ++ own)) others l.proc :=
      h.permOwn ((kept_erase hn hfind).append_right own)
    exact (deleteUnderLock (l := l.erase al.getName) herased hdel).setErrorCode t .kInvalidParam

end Exported

end OffBooks

/-! ## Programs -/

namespace Api

/-- What the counters leave out of the memory of a program: the allocators, and the blocks that
they gave out. -/
def aside (s : Api) : List Nat :=
  s.lib.kept ++ (s.blocks.filter fun e => e.1.isSome).map Prod.snd

/-- The blocks that the program holds from `__lldkAllocate`. -/
def direct (s : Api) : List Nat := (s.blocks.filter fun e => e.1.isNone).map Prod.snd

def Accounts (s : Api) : Prop := OffBooks s.aside s.direct s.lib.proc

section Steps

variable {s s' : Api} {t : Tid} {p : Process Object} {b : Nat} {op : ApiOp} {out : ApiOut}

theorem accounts_init : Accounts .init := by
  refine ⟨List.nodup_nil, fun a ha => ?_, fun t i b hb => ?_, fun a ha => ?_, fun c => ?_⟩
  · cases ha
  · cases hb
  · cases ha
  · exact sub_eq_zero.mpr c.zero.symm

/-- One more block of an allocator. -/
theorem aside_cons (s : Api) (blocks : List (Option Nat × Nat)) (a b : Nat) :
    (b :: aside { s with blocks := blocks }).Perm
      (aside { s with blocks := (some a, b) :: blocks }) := by
  show (b :: (s.lib.kept ++ _)).Perm (s.lib.kept ++ b :: _)
  exact List.perm_middle.symm

/-- The program without a block that came from an allocator. -/
theorem Accounts.without {a : Nat} (h : Accounts s) (hb : (some a, b) ∈ s.blocks) :
    OffBooks (b :: aside { s with blocks := s.blocks.erase (some a, b) })
      (direct { s with blocks := s.blocks.erase (some a, b) }) s.lib.proc := by
  have hlent := ((List.perm_cons_erase hb).filter fun e => e.1.isSome).map Prod.snd
  have hdirect := ((List.perm_cons_erase hb).filter fun e => e.1.isNone).map Prod.snd
  exact h.perm ((hlent.append_left _).trans List.perm_middle) hdirect

theorem Accounts.withoutDirect (h : Accounts s) (hb : (none, b) ∈ s.blocks) :
    OffBooks (aside { s with blocks := s.blocks.erase (none, b) })
      (b :: direct { s with blocks := s.blocks.erase (none, b) }) s.lib.proc := by
  have hlent := ((List.perm_cons_erase hb).filter fun e => e.1.isSome).map Prod.snd
  have hdirect := ((List.perm_cons_erase hb).filter fun e => e.1.isNone).map Prod.snd
  exact h.perm (hlent.append_left _) hdirect

theorem CallMove.accounts (h : Accounts s) (hs : CallMove s op out s') : Accounts s' := by
  cases hs with
  | refused t e hfails => exact h.setErrorCode t e
  | looked => exact h
  | @allocated op t a b uSize mem al p hop hal hcall =>
    exact (h.allocate hcall).permOwn (aside_cons s s.blocks a b)
  | @resized t a b q uSize mem r al p hb hal hcall =>
    exact ((h.without hb).reAllocate hcall).permOwn (aside_cons s _ a q)
  | @dropped t a b uSize mem r hb hdrops =>
    exact (h.without hb).freeBlock.setErrorCode t .kNoMemory
  | freed hb hal hcall => exact (h.without hb).free hcall
  | @lldkAllocated t uSize => exact h.lldkAllocate t uSize true
  | lldkFreed hb hcall => exact (h.withoutDirect hb).lldkFree hcall
  | constructed ho hcall => exact h.constructThreadLocal hcall
  | threw ho hcall => exact h.constructThreadLocal hcall
  | destructed ho hcall => exact h.destructThreadLocal hcall

/-- **Every call keeps the account.** -/
theorem accounts_step (hn : NamesOnce s) (h : Accounts s) (hs : apiStep s op = .ok (s', out)) :
    Accounts s' := by
  cases apiStep_moves hs with
  | created hc => exact h.create hc
  | gotSingleton hg => exact h.getSingleton hg
  | destroyed hd => exact h.destroy hn hd
  | destroyThrew hd => exact h.destroy hn hd
  | call hop hcall => exact hcall.accounts h

theorem accounts_run {ops : List ApiOp} {outs : List ApiOut}
    (hr : run apiStep .init ops = .ok (s, outs)) : Accounts s := by
  have hstep : ∀ s op s' out, (Sound s ∧ NamesOnce s) ∧ Accounts s → apiStep s op = .ok (s', out) →
      (Sound s' ∧ NamesOnce s') ∧ Accounts s' :=
    fun _ _ _ _ h hs => ⟨⟨sound_step h.1.1 hs, namesOnce_step h.1.1 h.1.2 hs⟩,
      accounts_step h.1.2 h.2 hs⟩
  exact (run_invariant hstep ⟨⟨Sound.init, List.nodup_nil⟩, accounts_init⟩ hr).2

end Steps

/-! ## What the counters show -/

/-- The blocks of the process that are neither an allocator nor given out by one. -/
def counted (s : Api) : Finset Nat :=
  (Finset.range s.lib.proc.heap.next).filter fun a =>
    (s.lib.proc.heap.cells a).isSome ∧ a ∉ s.aside

end Api

/-- The size in the header of a block. -/
def Process.sizeAt (p : Process Object) (a : Nat) : UInt64 := p.heap.weighs Block.uSize a

/-- The counters of the process show these blocks, modulo `2 ^ 64`. -/
structure CountersAccount (s : Api) : Prop where
  nodup : (s.aside ++ s.direct).Nodup
  live : ∀ a ∈ s.aside ++ s.direct, ∃ b, s.lib.proc.heap.cells a = some b
  size : s.lib.proc.s_allocateStats.liveSize = ∑ a ∈ s.counted, s.lib.proc.sizeAt a
  count : s.lib.proc.s_allocateStats.liveCount = UInt64.ofNat s.counted.card

section Counters

open Api

variable {s : Api} {ops : List ApiOp} {outs : List ApiOut}

/-- A column of the counters. -/
theorem live_eq_sum_counted (h : Accounts s) (c : Column) :
    c.live s.lib.proc.s_allocateStats = ∑ a ∈ s.counted, s.lib.proc.share c a := by
  have hsplit := Heap.total_split (fun b => c.share b.uSize) s.lib.proc.heap
    h.nodup.of_append_left fun a ha => h.live a (List.mem_append_left _ ha)
  have haside := h.beside c
  have hcounted : ∑ a ∈ s.counted, s.lib.proc.share c a =
      ∑ a ∈ Finset.range s.lib.proc.heap.next with a ∉ s.aside, s.lib.proc.share c a := by
    refine Finset.sum_subset (fun a ha => ?_) fun a ha hnot => ?_
    · obtain ⟨hrange, -, hout⟩ := Finset.mem_filter.mp ha
      exact Finset.mem_filter.mpr ⟨hrange, hout⟩
    · obtain ⟨hrange, hout⟩ := Finset.mem_filter.mp ha
      refine Heap.weighs_of_none ?_
      by_contra hsome
      exact hnot (Finset.mem_filter.mpr ⟨hrange, Option.isSome_iff_ne_none.mpr hsome, hout⟩)
  rw [hcounted]
  unfold Process.beside at haside
  rw [hsplit] at haside
  unfold Process.share at haside ⊢
  grind

theorem sum_one (as : Finset Nat) : ∑ _a ∈ as, (1 : UInt64) = UInt64.ofNat as.card := by
  induction as using Finset.induction with
  | empty => rfl
  | insert a as ha ih =>
    rw [Finset.sum_insert ha, ih, Finset.card_insert_of_notMem ha, UInt64.ofNat_add, add_comm]
    rfl

/-- **The counters of every program.** Whatever calls any threads make, failing or not, as long as
none uses a block that is gone: the allocators and the blocks that the program holds are alive and
apart from each other, and what `__lldkGetAllocateStats` shows as live is the bytes and the number
of the live blocks that are neither an allocator nor given out by one. -/
theorem counters_account (hr : run apiStep .init ops = .ok (s, outs)) : CountersAccount s := by
  have h : Accounts s := accounts_run hr
  refine ⟨h.nodup, h.live, ?_, ?_⟩
  · have hsize := live_eq_sum_counted h .sizes
    refine hsize.trans (Finset.sum_congr rfl fun a _ => ?_)
    have hweight : (fun b : Block Object => Column.sizes.share b.uSize) = Block.uSize :=
      funext fun b => UInt64.ofNat_toNat
    unfold Process.share Process.sizeAt
    rw [hweight]
  · have hcount := live_eq_sum_counted h .counts
    refine hcount.trans ?_
    have hone : ∀ a ∈ s.counted, s.lib.proc.share .counts a = 1 := by
      intro a ha
      obtain ⟨b, hb⟩ := Option.isSome_iff_exists.mp (Finset.mem_filter.mp ha).2.1
      exact Heap.weighs_of_some hb
    exact (Finset.sum_congr rfl hone).trans (sum_one s.counted)

/-- Threads 0 and 1 use an allocator and `__lldkAllocate`; a creation fails, and thread 0 destroys
the allocator of thread 1. The counters show two tables, four records, one of them of the allocator
that is gone, and the blocks of 100 and 50 bytes. -/
theorem counters_account_sample :
    ∃ s outs, run apiStep .init [.create 0 (some "a") 1 {}, .lldkAllocate 1 100 true,
        .constructThreadLocal 1 0 statsType {}, .allocate 1 3 64 true, .lldkAllocate 0 50 true,
        .create 1 (some "b") 0 { objectMem := false }, .create 1 (some "b") 0 {},
        .destroy 0 (some 10) {}] = .ok (s, outs) ∧
      s.lib.proc.s_allocateStats.liveSize = 33078 ∧ s.lib.proc.s_allocateStats.liveCount = 8 ∧
      CountersAccount s := by
  have hends : (run apiStep .init [.create 0 (some "a") 1 {}, .lldkAllocate 1 100 true,
      .constructThreadLocal 1 0 statsType {}, .allocate 1 3 64 true, .lldkAllocate 0 50 true,
      .create 1 (some "b") 0 { objectMem := false }, .create 1 (some "b") 0 {},
      .destroy 0 (some 10) {}]).toOption.any
      (fun r => decide (r.1.lib.proc.s_allocateStats.liveSize = 33078) &&
        decide (r.1.lib.proc.s_allocateStats.liveCount = 8)) = true := by
    decide +kernel
  obtain ⟨⟨s, outs⟩, h, hends⟩ := exists_of_any hends
  obtain ⟨hsize, hcount⟩ := Bool.and_eq_true_iff.mp hends
  exact ⟨s, outs, h, of_decide_eq_true hsize, of_decide_eq_true hcount, counters_account h⟩

end Counters

end Lldk
