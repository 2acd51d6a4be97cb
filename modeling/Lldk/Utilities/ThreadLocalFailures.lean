import Lldk.Utilities.ThreadLocal

/-!
What a store and a construction leave behind when they fail.

* `LeftAlone p p'`: only error codes and the history differ; blocks that were allocated on the way
  were released and counted as freed.
* `setThreadLocalStorage_cases`: a store that returns has put its pointer into its slot, or left
  everything alone. `setThreadLocalStorage_atomic` is the same for every process whose tables
  only `setThreadLocalStorage` has changed.
* `RolledBack p p'`: what a constructor that throws should leave. `construct_never_rolls_back`:
  with an id in hand it never does.
-/

namespace Lldk

open Lib Process

variable {β : Type}

namespace Process

/-! ## Nothing but error codes -/

/-- The counters of the process show the same as live. -/
structure SameLive (p p' : Process β) : Prop where
  liveSize : p'.s_allocateStats.liveSize = p.s_allocateStats.liveSize
  liveCount : p'.s_allocateStats.liveCount = p.s_allocateStats.liveCount

theorem SameLive.refl (p : Process β) : SameLive p p := ⟨rfl, rfl⟩

theorem SameLive.trans {p p' p'' : Process β} (h : SameLive p p') (h' : SameLive p' p'') :
    SameLive p p'' :=
  ⟨h'.liveSize.trans h.liveSize, h'.liveCount.trans h.liveCount⟩

/-- Ids, tables, blocks and live counts are as they were, and no object was created or destroyed. -/
structure LeftAlone (p p' : Process β) : Prop extends Untouched p p', SameLive p p' where
  log : ∃ as : List Nat, p'.log = p.log ++ as.map .freed

theorem LeftAlone.trans {p p' p'' : Process β} (h : LeftAlone p p') (h' : LeftAlone p' p'') :
    LeftAlone p p'' where
  toUntouched := h.toUntouched.trans h'.toUntouched
  toSameLive := h.toSameLive.trans h'.toSameLive
  log := by
    obtain ⟨as, has⟩ := h.log
    obtain ⟨as', has'⟩ := h'.log
    exact ⟨as ++ as', by rw [has', has, List.map_append, List.append_assoc]⟩

theorem leftAlone_lldkSetErrorCode (p : Process β) (t : Tid) (e : ErrorCode) :
    LeftAlone p (p.lldkSetErrorCode t e) :=
  ⟨untouched_lldkSetErrorCode p t e, ⟨rfl, rfl⟩, [], (List.append_nil _).symm⟩

/-- The release of a block takes back what its allocation counted. -/
theorem sameLive_released {p p' : Process β} {uSize : UInt64} (a : Nat)
    (hsize : p'.s_allocateStats.liveSize = p.s_allocateStats.liveSize + uSize)
    (hcount : p'.s_allocateStats.liveCount = p.s_allocateStats.liveCount + 1) :
    SameLive p (p'.released a uSize) := by
  have hfreed : (p'.released a uSize).s_allocateStats = p'.s_allocateStats.addFreed uSize := rfl
  constructor
  · rw [hfreed, AllocateStats.liveSize_addFreed, hsize]
    exact UInt64.add_sub_cancel ..
  · rw [hfreed, AllocateStats.liveCount_addFreed, hcount]
    exact UInt64.add_sub_cancel ..

/-- A block that is allocated and released at once. -/
theorem leftAlone_released_next (p : Process β) (t : Tid) (size : UInt64) :
    LeftAlone p ((p.lldkAllocate t size true).2.released p.heap.next size) where
  toUntouched := untouched_released_next p t size
  toSameLive := sameLive_released p.heap.next (AllocateStats.liveSize_addAllocated ..)
    (AllocateStats.liveCount_addAllocated ..)
  log := ⟨[p.heap.next], rfl⟩

/-! ## The store -/

/-- A first store that does not get its table leaves everything alone. -/
theorem createInstances_leftAlone (p : Process β) (t : Tid) {env : Env}
    (h : ¬ (env.tableMem = true ∧ env.pushMem = true)) :
    ∃ p', p.createInstances t env = .ok (false, p') ∧ LeftAlone p p' := by
  cases hm : env.tableMem with
  | false =>
    refine ⟨_, by simp only [createInstances, hm]; rfl, ?_⟩
    exact (leftAlone_lldkSetErrorCode p t .kNoMemory).trans (leftAlone_lldkSetErrorCode _ t _)
  | true =>
    have hp : env.pushMem = false := by
      cases hp : env.pushMem with
      | false => rfl
      | true => exact absurd ⟨hm, hp⟩ h
    exact ⟨_, createInstances_unregistered p t hm hp, (leftAlone_released_next p t tableSize).trans
      (leftAlone_lldkSetErrorCode _ t .kThrowException)⟩

theorem setThreadLocalStorage_leftAlone {p : Process β} {t : Tid} {i : Nat} {env : Env}
    (hi : i ≠ kInvalidInstanceId) (ht : ¬ p.hasTable t)
    (henv : ¬ (env.tableMem = true ∧ env.pushMem = true)) (a : Nat) :
    ∃ p', p.setThreadLocalStorage t i (some a) env = .ok (-1, p') ∧ LeftAlone p p' := by
  obtain ⟨p', hc, hl⟩ := createInstances_leftAlone p t henv
  exact ⟨p', by simp only [setThreadLocalStorage, hi, if_false, noTable_iff.mp ht, hc], hl⟩

/-- What a store on `t` needs to get. -/
def canStore (p : Process β) (t : Tid) (env : Env) : Prop :=
  p.hasTable t ∨ (env.tableMem = true ∧ env.pushMem = true)

/-- **The store returns**, for every id up to `kInvalidInstanceId`: it has stored the pointer, or
left everything alone. -/
theorem setThreadLocalStorage_cases (p : Process β) (t : Tid) {i : Nat} (hi : i ≤ kMaxInstanceId)
    (pStorage : Option Nat) (env : Env) :
    ∃ rc p', p.setThreadLocalStorage t i pStorage env = .ok (rc, p') ∧
      ((rc = 0 ∧ ∃ a, pStorage = some a ∧ Stored p t i a p') ∨
        (rc = -1 ∧ LeftAlone p p' ∧
          (i < kMaxInstanceId → pStorage ≠ none → ¬ p.canStore t env))) := by
  cases pStorage with
  | none =>
    exact ⟨-1, _, rfl, Or.inr ⟨rfl, leftAlone_lldkSetErrorCode p t _, fun _ h => absurd rfl h⟩⟩
  | some a =>
    by_cases hlt : i < kMaxInstanceId
    · by_cases henv : p.canStore t env
      · obtain ⟨p', hset, hst⟩ := setThreadLocalStorage_stored hlt henv a
        exact ⟨0, p', hset, Or.inl ⟨rfl, a, rfl, hst⟩⟩
      · have ht : ¬ p.hasTable t := fun ht => henv (Or.inl ht)
        obtain ⟨p', hset, hl⟩ := setThreadLocalStorage_leftAlone (Nat.ne_of_lt hlt) ht
          (fun h => henv (Or.inr h)) a
        exact ⟨-1, p', hset, Or.inr ⟨rfl, hl, fun _ _ => henv⟩⟩
    · have hid : i = kInvalidInstanceId := Nat.le_antisymm hi (Nat.le_of_not_lt hlt)
      refine ⟨-1, p.lldkSetErrorCode t .kInvalidParam, ?_,
        Or.inr ⟨rfl, leftAlone_lldkSetErrorCode p t _, fun h => absurd h hlt⟩⟩
      simp only [setThreadLocalStorage, hid, if_true]

/-- An id outside every table: a store that returns has not come to its table. -/
theorem setThreadLocalStorage_outside {p p' : Process β} {t : Tid} {i : Nat}
    {pStorage : Option Nat} {env : Env} {rc : Int} (hi : kMaxInstanceId < i)
    (h : p.setThreadLocalStorage t i pStorage env = .ok (rc, p')) : LeftAlone p p' := by
  cases pStorage with
  | none =>
    cases h
    exact leftAlone_lldkSetErrorCode p t _
  | some a =>
    have hne : i ≠ kInvalidInstanceId := Nat.ne_of_gt hi
    have hge : ¬ i < kMaxInstanceId := Nat.not_lt.mpr (Nat.le_of_lt hi)
    cases ht : p.s_ppInstances t with
    | some table =>
      simp only [setThreadLocalStorage, hne, if_false, ht, storeSlot, hge] at h
      cases h
    | none =>
      by_cases henv : env.tableMem = true ∧ env.pushMem = true
      · obtain ⟨hm, hp⟩ := henv
        simp only [setThreadLocalStorage, hne, if_false, ht, createInstances, hm, hp, lldkAllocate,
          mallocWithHeader, if_true, storeSlot, withTable, Function.update_self, hge] at h
        cases h
      · obtain ⟨q, hset, hl⟩ := setThreadLocalStorage_leftAlone hne (noTable_iff.mpr ht) henv a
        rw [h] at hset
        cases hset
        exact hl

end Process

/-- A process whose tables no function but `setThreadLocalStorage` has changed: they are statics
of `lldk_thread_local.cpp`. -/
inductive TablesReached : Process β → Prop
  | init : TablesReached .init
  | store {p p' : Process β} {t : Tid} {i : Nat} {pStorage : Option Nat} {env : Env} {rc : Int} :
      TablesReached p → p.setThreadLocalStorage t i pStorage env = .ok (rc, p') → TablesReached p'
  | other {p p' : Process β} : TablesReached p → p'.s_ppInstances = p.s_ppInstances →
      p'.s_vecpppInstances = p.s_vecpppInstances → TablesReached p'

/-- Every table is registered. -/
def TablesRegistered (p : Process β) : Prop := ∀ t, p.hasTable t → t ∈ p.s_vecpppInstances

theorem TablesRegistered.of_same {p p' : Process β} (h : TablesRegistered p)
    (htables : p'.s_ppInstances = p.s_ppInstances)
    (hregs : p'.s_vecpppInstances = p.s_vecpppInstances) : TablesRegistered p' := by
  intro t ht
  rw [hregs]
  exact h t ((hasTable_congr htables t).mp ht)

/-- The tables of all but `t` are as before, and `t` has one now, registered if it is new. -/
theorem TablesRegistered.of_grown {p p' : Process β} {t : Tid} (h : TablesRegistered p)
    (htables : ∀ t', p'.hasTable t' ↔ p.hasTable t' ∨ t' = t)
    (hold : p.hasTable t → p'.s_vecpppInstances = p.s_vecpppInstances)
    (hnew : ¬ p.hasTable t → p'.s_vecpppInstances = p.s_vecpppInstances ++ [t]) :
    TablesRegistered p' := by
  intro t' ht'
  by_cases ht : p.hasTable t
  · rw [hold ht]
    rcases (htables t').mp ht' with h' | rfl
    · exact h t' h'
    · exact h _ ht
  · rw [hnew ht, List.mem_append, List.mem_singleton]
    exact ((htables t').mp ht').imp_left (h t')

theorem TablesRegistered.of_stored {p p' : Process β} {t : Tid} {i a : Nat}
    (h : TablesRegistered p) (hst : Stored p t i a p') : TablesRegistered p' :=
  h.of_grown hst.hasTable hst.registered hst.first

theorem TablesReached.registered {p : Process β} (h : TablesReached p) : TablesRegistered p := by
  induction h with
  | init =>
    rintro t ⟨table, ht⟩
    cases ht
  | @store p p' t i pStorage env rc _ hset ih =>
    rcases Nat.lt_or_ge kMaxInstanceId i with hi | hi
    · have hl := setThreadLocalStorage_outside hi hset
      exact ih.of_same hl.s_ppInstances hl.s_vecpppInstances
    · obtain ⟨_, _, hset', hcases⟩ := setThreadLocalStorage_cases p t hi pStorage env
      rw [hset] at hset'
      cases hset'
      rcases hcases with ⟨-, a, -, hst⟩ | ⟨-, hl, -⟩
      · exact ih.of_stored hst
      · exact ih.of_same hl.s_ppInstances hl.s_vecpppInstances
  | other _ htables hregs ih => exact ih.of_same htables hregs

/-- **A store succeeds, or nothing has happened.** When it returns 0, the slot holds the pointer,
no other slot has changed, and the thread's table is registered; when it returns -1, slots,
tables, the list of tables and the live blocks are as before. It returns 0 if it is given an id, a
pointer and what it needs. -/
theorem Process.setThreadLocalStorage_atomic {p : Process β} (hp : TablesReached p) (t : Tid)
    {i : Nat} (hi : i ≤ kMaxInstanceId) (pStorage : Option Nat) (env : Env) :
    ∃ rc p', p.setThreadLocalStorage t i pStorage env = .ok (rc, p') ∧
      ((rc = 0 ∧ p'.slot t i = pStorage ∧
          (∀ t' j, t' ≠ t ∨ j ≠ i → p'.slot t' j = p.slot t' j) ∧ p'.hasTable t ∧
          t ∈ p'.s_vecpppInstances) ∨
        (rc = -1 ∧ (∀ t' j, p'.slot t' j = p.slot t' j) ∧
          (∀ t', p'.hasTable t' ↔ p.hasTable t') ∧ p'.s_vecpppInstances = p.s_vecpppInstances ∧
          p'.heap.cells = p.heap.cells ∧ SameLive p p')) ∧
      (i < kMaxInstanceId → pStorage ≠ none → p.canStore t env → rc = 0) := by
  obtain ⟨rc, p', hset, hcases⟩ := setThreadLocalStorage_cases p t hi pStorage env
  refine ⟨rc, p', hset, ?_, fun hlt hne henv => ?_⟩
  · rcases hcases with ⟨hrc, a, ha, hst⟩ | ⟨hrc, hl, -⟩
    · have ht : p'.hasTable t := (hst.hasTable t).mpr (Or.inr rfl)
      exact Or.inl ⟨hrc, hst.self.trans ha.symm, hst.others, ht, hp.registered.of_stored hst t ht⟩
    · exact Or.inr ⟨hrc, fun t' j => slot_congr hl.s_ppInstances t' j,
        fun t' => hasTable_congr hl.s_ppInstances t', hl.s_vecpppInstances, funext hl.blocks,
        hl.toSameLive⟩
  · rcases hcases with ⟨hrc, -⟩ | ⟨-, -, hno⟩
    · exact hrc
    · exact absurd henv (hno hlt hne)

/-- The first store of the process. -/
theorem Process.setThreadLocalStorage_atomic_sample :
    ∃ rc p', (Process.init : Process Unit).setThreadLocalStorage 3 7 (some 100) {} =
        .ok (rc, p') ∧
      ((rc = 0 ∧ p'.slot 3 7 = some 100 ∧
          (∀ t' j, t' ≠ 3 ∨ j ≠ 7 → p'.slot t' j = (Process.init : Process Unit).slot t' j) ∧
          p'.hasTable 3 ∧ 3 ∈ p'.s_vecpppInstances) ∨
        (rc = -1 ∧ (∀ t' j, p'.slot t' j = (Process.init : Process Unit).slot t' j) ∧
          (∀ t', p'.hasTable t' ↔ (Process.init : Process Unit).hasTable t') ∧
          p'.s_vecpppInstances = [] ∧
          p'.heap.cells = (Process.init : Process Unit).heap.cells ∧
          SameLive (Process.init : Process Unit) p')) ∧
      (7 < kMaxInstanceId → some 100 ≠ none →
        (Process.init : Process Unit).canStore 3 {} → rc = 0) :=
  setThreadLocalStorage_atomic .init 3 (by decide) (some 100) {}

/-! ## The constructor -/

/-- Ids, live blocks, slots and the list of tables are as they were. -/
structure Restored (p p' : Process β) : Prop extends SameLive p p' where
  marked : ∀ j, p'.marked j ↔ p.marked j
  cells : p'.heap.cells = p.heap.cells
  slots : ∀ t j, p'.slot t j = p.slot t j
  s_vecpppInstances : p'.s_vecpppInstances = p.s_vecpppInstances

/-- What a constructor that throws should leave: all is as it was, and every object that was
created has been destroyed. -/
structure RolledBack (p p' : Process β) : Prop extends Restored p p' where
  destroyed : ∃ es, p'.log = p.log ++ es ∧ ∀ a, .created a ∈ es → .destroyed a ∈ es

namespace LldkThreadLocal

variable (T : ObjectType β) {p : Process β} {t : Tid} {i : Nat} {env : Env}

/-- A constructor without a slot releases its storage and its id, and not its object. -/
theorem setUp_noSlot_released (hi : i < kMaxInstanceId) (hmem : env.storageMem = true)
    (hctor : env.ctorThrows = false) (ht : ¬ p.hasTable t)
    (htable : ¬ (env.tableMem = true ∧ env.pushMem = true)) :
    ∃ what p' as, setUp T p t i env = .ok (.threw what, p') ∧
      (∀ j, p'.marked j ↔ p.marked j ∧ j ≠ i) ∧ p'.heap.cells = p.heap.cells ∧
      p'.s_ppInstances = p.s_ppInstances ∧ p'.s_vecpppInstances = p.s_vecpppInstances ∧
      SameLive p p' ∧
      p'.log = p.log ++ .created p.heap.next :: (as ++ [p.heap.next]).map Event.freed := by
  have hne : i ≠ kInvalidInstanceId := Nat.ne_of_lt hi
  obtain ⟨p₁, hset, hl⟩ : ∃ p', (withStorage T p t).setThreadLocalStorage t i
      (some p.heap.next) env = .ok (-1, p') ∧ LeftAlone (withStorage T p t) p' :=
    setThreadLocalStorage_leftAlone (p := withStorage T p t) hne ht htable p.heap.next
  have hr := released_spec p₁ p.heap.next T.size
  obtain ⟨bits, hsetUp, hmarked⟩ := setUp_givesBack T hi hmem hctor hset hl.toUntouched
  have hlive : SameLive p (p₁.released p.heap.next T.size) := sameLive_released p.heap.next
    (hl.liveSize.trans (AllocateStats.liveSize_addAllocated ..))
    (hl.liveCount.trans (AllocateStats.liveCount_addAllocated ..))
  obtain ⟨as, has⟩ := hl.log
  have hlog : (withStorage T p t).log = p.log ++ [.created p.heap.next] := rfl
  refine ⟨_, (p₁.released p.heap.next T.size).withBits bits, as, hsetUp, hmarked,
    funext fun b => ?_, hr.s_ppInstances.trans hl.s_ppInstances,
    hr.s_vecpppInstances.trans hl.s_vecpppInstances, ⟨hlive.liveSize, hlive.liveCount⟩, ?_⟩
  · show (p₁.released p.heap.next T.size).heap.cells b = p.heap.cells b
    by_cases hb : b = p.heap.next
    · rw [hb, hr.gone, p.heap.fresh _ (Nat.le_refl _)]
    · rw [hr.others b hb, hl.blocks b]
      exact withStorage_ne T p t hb
  · show p₁.log ++ [.freed p.heap.next] = _
    rw [has, hlog, List.map_append]
    simp only [List.append_assoc, List.cons_append, List.nil_append, List.map_cons, List.map_nil]

/-- Without storage or without an object in it, the id is not given back. -/
theorem setUp_keepsId (hobj : ¬ (env.storageMem = true ∧ env.ctorThrows = false)) :
    ∃ what p', setUp T p t i env = .ok (.threw what, p') ∧ p'.s_bitset = p.s_bitset := by
  cases hmem : env.storageMem with
  | false =>
    exact ⟨_, p.lldkSetErrorCode t .kNoMemory,
      by simp only [setUp, hmem, lldkAllocate, mallocWithHeader]; rfl, rfl⟩
  | true =>
    cases hctor : env.ctorThrows with
    | false => exact absurd ⟨hmem, hctor⟩ hobj
    | true =>
      exact ⟨_, (p.lldkAllocate t T.size true).2,
        by simp only [setUp, hmem, hctor, lldkAllocate, mallocWithHeader]; rfl, rfl⟩

/-- **A constructor that fails after it got an id never rolls back.** It throws; without
storage or when `T()` throws, its id stays marked; without a slot it puts everything back and does
not destroy its object. -/
theorem construct_never_rolls_back {p : Process β} {t : Tid} {env : Env}
    (hid : ∃ i, i < kMaxInstanceId ∧ ¬ p.marked i) (henv : ¬ env.serves p t) :
    ∃ what p', construct T p t env = .ok (.threw what, p') ∧ ¬ RolledBack p p' ∧
      (Restored p p' ↔ env.storageMem = true ∧ env.ctorThrows = false) := by
  obtain ⟨i, hi, hfree, hleast⟩ :
      ∃ i, i < kMaxInstanceId ∧ ¬ p.marked i ∧ ∀ j, j < i → p.marked j := by
    rcases exists_least_free p with hex | hall
    · exact hex
    · obtain ⟨i, hi, hfree⟩ := hid
      exact absurd (hall i hi) hfree
  obtain ⟨b, hnew, hmarked⟩ := newInstanceId_least hi hfree hleast
  have hne : i ≠ kInvalidInstanceId := Nat.ne_of_lt hi
  by_cases hobj : env.storageMem = true ∧ env.ctorThrows = false
  · obtain ⟨hmem, hctor⟩ := hobj
    have ht : ¬ (p.withBits b).hasTable t := fun ht => henv ⟨hmem, hctor, Or.inl ht⟩
    have htable : ¬ (env.tableMem = true ∧ env.pushMem = true) :=
      fun h => henv ⟨hmem, hctor, Or.inr h⟩
    obtain ⟨what, p', as, hs, hmarked', hcells, htables, hregs, hlive, hlog⟩ :=
      setUp_noSlot_released T hi hmem hctor ht htable
    refine ⟨what, p', by simp only [construct, hnew, hne, if_false, hs], fun hback => ?_,
      fun _ => ⟨hmem, hctor⟩, fun _ => ⟨⟨hlive.liveSize, hlive.liveCount⟩, fun j => ?_, hcells,
        fun t' j => slot_congr (p := p) htables t' j, hregs⟩⟩
    · obtain ⟨es, hes, hdestroyed⟩ := hback.destroyed
      have heq : es = .created p.heap.next :: (as ++ [p.heap.next]).map Event.freed :=
        List.append_cancel_left (hes.symm.trans hlog)
      have hd := hdestroyed p.heap.next (heq ▸ List.mem_cons_self ..)
      simp [heq] at hd
    · rw [hmarked' j, hmarked j]
      constructor
      · rintro ⟨hj | rfl, hji⟩
        · exact hj
        · exact absurd rfl hji
      · intro hj
        refine ⟨Or.inl hj, ?_⟩
        rintro rfl
        exact hfree hj
  · obtain ⟨what, p', hs, hbits⟩ := setUp_keepsId T (p := p.withBits b) (t := t) (i := i) hobj
    have hkept : ¬ Restored p p' := fun hback =>
      hfree ((hback.marked i).mp ((marked_congr hbits i).mpr ((hmarked i).mpr (Or.inr rfl))))
    exact ⟨what, p', by simp only [construct, hnew, hne, if_false, hs],
      fun hback => hkept hback.toRestored, fun hback => absurd hback hkept,
      fun h => absurd h hobj⟩

/-- The first construction, when the table cannot be registered. -/
theorem construct_never_rolls_back_unregistered :
    ∃ what p', construct (⟨16, ()⟩ : ObjectType Unit) .init 0 { pushMem := false } =
        .ok (.threw what, p') ∧ ¬ RolledBack .init p' ∧
      (Restored .init p' ↔ true = true ∧ false = false) :=
  construct_never_rolls_back ⟨16, ()⟩ ⟨0, by decide, by decide⟩ (by
    rintro ⟨-, -, ⟨table, ht⟩ | ⟨-, hp⟩⟩
    · cases ht
    · cases hp)

/-- The first construction, without memory for the storage: id 0 stays marked. -/
theorem construct_keeps_id :
    ∃ p', construct (⟨16, ()⟩ : ObjectType Unit) .init 0 { storageMem := false } =
        .ok (.threw "Failed to create storage", p') ∧
      ¬ (Process.init : Process Unit).marked 0 ∧ p'.marked 0 ∧ ¬ RolledBack .init p' := by
  have hrun : ((construct (⟨16, ()⟩ : ObjectType Unit) .init 0 { storageMem := false }).map
      fun r => (r.1, decide (r.2.marked 0))) = .ok (.threw "Failed to create storage", true) := by
    decide +kernel
  cases hc : construct (⟨16, ()⟩ : ObjectType Unit) .init 0 { storageMem := false } with
  | error f =>
    rw [hc] at hrun
    cases hrun
  | ok r =>
    obtain ⟨r, p'⟩ := r
    rw [hc] at hrun
    obtain ⟨rfl, hm⟩ := Prod.mk.inj (Except.ok.inj hrun)
    have hfree : ¬ (Process.init : Process Unit).marked 0 := by decide
    have hm' : p'.marked 0 := of_decide_eq_true hm
    exact ⟨p', rfl, hfree, hm', fun hback => hfree ((hback.marked 0).mp hm')⟩

end LldkThreadLocal

end Lldk
