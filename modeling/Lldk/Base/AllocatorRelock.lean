import Lldk.Base.AllocatorDeadlock
import Lldk.Lib.Stuck

/-!
What becomes of a thread that destroys an allocator under the mutex of the registry and finds a
storage of its own to free.

* `neat_call`: all code unlocks in reverse what it locks, and `~LldkThreadLocal`, where it finds a
  storage, goes on to ask for the mutex of the registry.
* `storage_under_lock_hangs`: the thread never comes out of its call, and nobody gets that mutex any
  more. So the condition of `deadlockFree_of_noStorage` cannot be weakened.
-/

namespace Lldk

open Lib Lib.Trace Lib.Threads

/-- The slot that the destructor looks at is not null. -/
def Finds (t : Tid) : Site → Library → Prop
  | .plain, _ => False
  | .destructs i, l => l.proc.slot t i ≠ none

namespace LibraryCode

open Prog

/-- Code of thread `t` that asks for the mutex of the registry wherever it finds a storage. -/
abbrev NeatCode {α : Type} (t : Tid) (p : LibraryCode α) : Prop := Neat (Finds t) .registry p

variable {t : Tid}

/-! ## Actions -/

theorem neat_onLibrary {α : Type} (f : Library → Except Fault (α × Library)) :
    NeatCode t (onLibrary f) := neat_attempt fun _ h => h

theorem neat_onProcess {α : Type} (f : Process Object → Except Fault (α × Process Object)) :
    NeatCode t (onProcess f) := neat_onLibrary _

theorem neat_modify (f : Process Object → Process Object) : NeatCode t (modify f) :=
  neat_onProcess _

theorem neat_read {α : Type} (f : Library → α) : NeatCode t (read f) := neat_onLibrary _

theorem neat_destroyObject (a : Nat) : NeatCode t (destroyObject a) := neat_onProcess _

theorem neat_freeBlock (a : Nat) : NeatCode t (freeBlock a) := neat_onProcess _

theorem neat_setErrorCode (u : Tid) (e : ErrorCode) : NeatCode t (setErrorCode u e) :=
  neat_modify _

/-! ## `lldk_thread_local.cpp` and the counted allocation -/

theorem neat_newInstanceId : NeatCode t newInstanceId := neat_lockGuard (neat_onProcess _)

theorem neat_deleteInstanceId (i : Nat) : NeatCode t (deleteInstanceId i) :=
  neat_lockGuard (neat_onProcess _)

theorem neat_lldkAllocate (uSize : UInt64) (mem : Bool) :
    NeatCode t (lldkAllocate t uSize mem) := by
  apply neat_bind (neat_onProcess _)
  intro q
  cases q with
  | none => exact neat_bind (neat_setErrorCode _ _) fun _ => neat_pure _
  | some a => exact neat_bind (neat_lockGuard (neat_modify _)) fun _ => neat_pure _

theorem neat_lldkFree (pMemory : Option Nat) : NeatCode t (lldkFree t pMemory) := by
  cases pMemory with
  | none => exact neat_setErrorCode _ _
  | some a =>
    apply neat_bind (neat_read _)
    intro b
    cases b with
    | none => exact neat_fault
    | some b => exact neat_bind (neat_lockGuard (neat_modify _)) fun _ => neat_freeBlock _

theorem neat_createInstances (env : Env) : NeatCode t (createInstances t env) := by
  apply neat_bind (neat_lldkAllocate _ _)
  intro q
  cases q with
  | none => exact neat_bind (neat_setErrorCode _ _) fun _ => neat_pure _
  | some a =>
    refine neat_bind (neat_modify _) fun _ => ?_
    apply neat_bind (neat_lockGuard (neat_onProcess _))
    intro pushed
    cases pushed with
    | true => exact neat_pure _
    | false =>
      refine neat_bind (neat_lldkFree _) fun _ => ?_
      refine neat_bind (neat_modify _) fun _ => ?_
      exact neat_bind (neat_setErrorCode _ _) fun _ => neat_pure _

theorem neat_setThreadLocalStorage (i : Nat) (pStorage : Option Nat) (env : Env) :
    NeatCode t (setThreadLocalStorage t i pStorage env) := by
  have hfails : ∀ e, NeatCode t (do
      setErrorCode t e
      pure (-1) : LibraryCode Int) := fun e =>
    neat_bind (neat_setErrorCode _ _) fun _ => neat_pure _
  cases pStorage with
  | none => exact hfails _
  | some a =>
    have hstore : ∀ ready : Bool, NeatCode t
        (if ready = true then do
          onProcess fun p => (p.storeSlot t i a).map fun p => ((), p)
          pure 0
        else pure (-1) : LibraryCode Int) := by
      intro ready
      cases ready with
      | false => exact neat_pure _
      | true => exact neat_bind (neat_onProcess _) fun _ => neat_pure _
    simp only [setThreadLocalStorage]
    by_cases hi : i = kInvalidInstanceId
    · rw [if_pos hi]
      exact hfails _
    · rw [if_neg hi]
      apply neat_bind (neat_read _)
      intro table
      cases table with
      | none => exact neat_bind (neat_createInstances env) hstore
      | some table => exact neat_bind (neat_pure _) hstore

theorem neat_constructThreadLocal (T : ObjectType Object) (env : Env) :
    NeatCode t (constructThreadLocal T t env) := by
  apply neat_bind neat_newInstanceId
  intro i
  by_cases hi : i = kInvalidInstanceId
  · rw [if_pos hi]
    exact neat_pure _
  · rw [if_neg hi]
    apply neat_bind (neat_lldkAllocate _ _)
    intro q
    cases q with
    | none => exact neat_pure _
    | some pStorage =>
      by_cases hthrows : env.ctorThrows = true
      · simp only [hthrows, if_true]
        exact neat_pure _
      · simp only [hthrows]
        refine neat_bind (neat_modify _) fun _ => ?_
        apply neat_bind (neat_setThreadLocalStorage _ _ _)
        intro rc
        by_cases hrc : rc ≠ 0
        · rw [if_pos hrc]
          refine neat_bind (neat_lldkFree _) fun _ => ?_
          exact neat_bind (neat_deleteInstanceId _) fun _ => neat_pure _
        · rw [if_neg hrc]
          exact neat_pure _

theorem asksFor_onLibrary {α β : Type} {f : Library → Except Fault (α × Library)}
    {q : α → LibraryCode β} (h : ∀ a, AsksFor .registry (q a)) :
    AsksFor .registry (onLibrary f >>= q) := by
  unfold onLibrary
  exact asksFor_attempt h

theorem asksFor_lldkFree (a : Nat) : AsksFor .registry (lldkFree t (some a)) := by
  unfold lldkFree read
  refine asksFor_onLibrary fun b => ?_
  cases b with
  | none => trivial
  | some b => exact (asksFor_lockGuard _ _).bind _

/-- **The destructor.** Where it finds a storage it destroys the object and calls `__lldkFree`. -/
theorem neat_destructThreadLocal (obj : LldkThreadLocal) :
    NeatCode t (destructThreadLocal t obj) := by
  refine neat_look (fun l q hfinds hq => ?_) fun q => ?_
  · cases hget : l.proc.getThreadLocalStorage t obj.m_uInstanceId with
    | error f =>
      rw [hget] at hq
      cases hq
    | ok r =>
      rw [hget] at hq
      cases hq
      have hslot := Process.eq_slot_of_getThreadLocalStorage hget
      cases r with
      | none => exact absurd hslot.symm hfinds
      | some pStorage =>
        unfold destroyObject onProcess
        exact asksFor_onLibrary fun _ => (asksFor_lldkFree pStorage).bind _
  · cases q with
    | none => exact neat_deleteInstanceId _
    | some pStorage =>
      refine neat_bind (neat_destroyObject _) fun _ => ?_
      refine neat_bind (neat_lldkFree _) fun _ => ?_
      refine neat_bind (neat_setThreadLocalStorage _ _ _) fun _ => ?_
      exact neat_deleteInstanceId _

/-! ## `AllocatorImpl` -/

theorem neat_constructAllocator (pName : String) (env : Env) :
    NeatCode t (constructAllocator t pName env) := by
  unfold constructAllocator
  cases env.nameMem with
  | false => exact neat_pure _
  | true =>
    apply neat_bind (neat_constructThreadLocal _ _)
    intro r
    cases r with
    | threw what => exact neat_pure _
    | object obj pStorage => exact neat_pure _

theorem neat_destroyAllocator (a : Nat) : NeatCode t (destroyAllocator t a) := by
  apply neat_bind (neat_read _)
  intro al
  cases al with
  | none => exact neat_fault
  | some al => exact neat_bind (neat_destructThreadLocal _) fun _ => neat_destroyObject _

theorem neat_newAllocator (pName : String) (env : CallEnv) :
    NeatCode t (newAllocator t pName env) := by
  unfold newAllocator
  cases env.objectMem with
  | false => exact neat_pure _
  | true =>
    apply neat_bind (neat_onProcess _)
    intro a
    apply neat_bind (neat_constructAllocator _ _)
    intro r
    cases r with
    | error what => exact neat_bind (neat_modify _) fun _ => neat_pure _
    | ok al => exact neat_bind (neat_modify _) fun _ => neat_pure _

theorem neat_newObject (al : AllocatorImpl) (pName : String) (env : CallEnv) :
    NeatCode t (newObject t al pName env) := by
  apply neat_bind (neat_onProcess _)
  intro q
  cases q with
  | none => exact neat_pure _
  | some pMemory =>
    apply neat_bind (neat_constructAllocator _ _)
    intro r
    cases r with
    | error what => exact neat_bind (neat_onProcess _) fun _ => neat_pure _
    | ok al => exact neat_bind (neat_modify _) fun _ => neat_pure _

theorem neat_deleteObject (al : AllocatorImpl) (a : Nat) : NeatCode t (deleteObject t al a) :=
  neat_bind (neat_destroyAllocator a) fun _ => neat_onProcess _

theorem neat_getAllocateStats (al : AllocatorImpl) (pAllocateStats : Option (List AllocateStats))
    (pThreadCount : Option UInt32) :
    NeatCode t (getAllocateStats t al pAllocateStats pThreadCount) := by
  unfold getAllocateStats
  split
  · exact neat_lockGuard (neat_onProcess _)
  · exact neat_onProcess _

/-! ## The exported functions -/

theorem neat_lldkGetAllocatorSingleton (env : CallEnv) :
    NeatCode t (lldkGetAllocatorSingleton t env) := by
  apply neat_bind (neat_read _)
  intro q
  cases q with
  | some a => exact neat_pure _
  | none =>
    refine neat_lockGuard (neat_bind (neat_read _) fun q => ?_)
    cases q with
    | some a => exact neat_pure _
    | none =>
      apply neat_bind (neat_newAllocator _ _)
      intro r
      cases r with
      | error what => exact neat_pure _
      | ok a =>
        refine neat_bind (neat_onLibrary _) fun _ => ?_
        apply neat_bind (neat_onProcess _)
        intro rc
        by_cases hrc : rc ≠ 0
        · rw [if_pos hrc]
          refine neat_bind (neat_destroyAllocator a) fun _ => ?_
          refine neat_bind (neat_modify _) fun _ => ?_
          exact neat_bind (neat_setErrorCode _ _) fun _ => neat_pure _
        · rw [if_neg hrc]
          exact neat_pure _

theorem neat_deleteAllocatorImpl (a : Nat) (env : CallEnv) :
    NeatCode t (deleteAllocatorImpl t a env) := by
  apply neat_bind (neat_lldkGetAllocatorSingleton env)
  intro r
  match r with
  | .error what => exact neat_fault
  | .ok none => exact neat_setErrorCode _ _
  | .ok (some s) =>
    apply neat_bind (neat_read _)
    intro al
    cases al with
    | none => exact neat_fault
    | some al => exact neat_deleteObject al a

theorem neat_createCheck (pName : String) (env : CallEnv) :
    NeatCode t (createCheck t pName env) := by
  apply neat_lockGuard
  cases env.keyMem with
  | false => exact neat_pure _
  | true =>
    apply neat_bind (neat_read _)
    intro q
    cases q with
    | none => exact neat_pure _
    | some a => exact neat_bind (neat_setErrorCode _ _) fun _ => neat_pure _

theorem neat_createObject (pName : String) (uMaxSizeMB : UInt64) (env : CallEnv) :
    NeatCode t (createObject t pName uMaxSizeMB env) := by
  apply neat_bind (neat_lldkGetAllocatorSingleton env)
  intro r
  match r with
  | .error what => exact neat_pure _
  | .ok none => exact neat_bind (neat_setErrorCode _ _) fun _ => neat_pure _
  | .ok (some s) =>
    apply neat_bind (neat_read _)
    intro al
    cases al with
    | none => exact neat_fault
    | some al =>
      apply neat_bind (neat_newObject al pName env)
      intro r
      match r with
      | .error what => exact neat_pure _
      | .ok none => exact neat_bind (neat_setErrorCode _ _) fun _ => neat_pure _
      | .ok (some a) =>
        apply neat_bind (neat_onProcess _)
        intro rc
        by_cases hrc : rc ≠ 0
        · rw [if_pos hrc]
          refine neat_bind (neat_setErrorCode _ _) fun _ => ?_
          exact neat_bind (neat_deleteAllocatorImpl a env) fun _ => neat_pure _
        · rw [if_neg hrc]
          exact neat_pure _

theorem neat_emplace (pName : String) (a : Nat) (env : CallEnv) :
    NeatCode t (emplace t pName a env) := by
  unfold emplace
  cases env.nodeMem with
  | false => exact neat_pure _
  | true =>
    apply neat_bind (neat_read _)
    intro q
    cases q with
    | some b => exact neat_bind (neat_deleteAllocatorImpl a env) fun _ => neat_pure _
    | none =>
      cases env.rehashMem with
      | true => exact neat_bind (neat_onLibrary _) fun _ => neat_pure _
      | false => exact neat_bind (neat_deleteAllocatorImpl a env) fun _ => neat_pure _

theorem neat_createEmplace (pName : String) (a : Nat) (env : CallEnv) :
    NeatCode t (createEmplace t pName a env) := by
  refine neat_bind (neat_lockGuard (neat_emplace pName a env)) fun r => ?_
  match r with
  | .done => exact neat_pure _
  | .threw true => exact neat_bind (neat_setErrorCode _ _) fun _ => neat_pure _
  | .threw false =>
    refine neat_bind (neat_setErrorCode _ _) fun _ => ?_
    exact neat_bind (neat_deleteAllocatorImpl a env) fun _ => neat_pure _

theorem neat_lldkCreateAllocator (pName : Option String) (uMaxSizeMB : UInt64) (env : CallEnv) :
    NeatCode t (lldkCreateAllocator t pName uMaxSizeMB env) := by
  cases pName with
  | none => exact neat_bind (neat_setErrorCode _ _) fun _ => neat_pure _
  | some pName =>
    apply neat_bind (neat_createCheck pName env)
    intro r
    match r with
    | .error what => exact neat_pure _
    | .ok false => exact neat_pure _
    | .ok true =>
      apply neat_bind (neat_createObject pName uMaxSizeMB env)
      intro r
      match r with
      | .error what => exact neat_pure _
      | .ok none => exact neat_pure _
      | .ok (some a) => exact neat_bind (neat_createEmplace pName a env) fun _ => neat_pure _

theorem neat_eraseAllocator (a : Nat) (env : CallEnv) : NeatCode t (eraseAllocator t a env) := by
  apply neat_bind (neat_read _)
  intro al
  cases al with
  | none => exact neat_fault
  | some al =>
    cases env.keyMem with
    | false => exact neat_pure _
    | true =>
      apply neat_bind (neat_read _)
      intro q
      by_cases hq : q = some a
      · rw [if_pos hq]
        refine neat_bind (neat_onLibrary _) fun _ => ?_
        exact neat_bind (neat_deleteAllocatorImpl a env) fun _ => neat_pure _
      · rw [if_neg hq]
        exact neat_pure _

theorem neat_lldkDestroyAllocator (pAllocator : Option Nat) (env : CallEnv) :
    NeatCode t (lldkDestroyAllocator t pAllocator env) := by
  cases pAllocator with
  | none => exact neat_bind (neat_setErrorCode _ _) fun _ => neat_pure _
  | some a =>
    apply neat_bind (neat_read _)
    intro al
    cases al with
    | none => exact neat_fault
    | some al =>
      refine neat_bind (neat_lockGuard (neat_eraseAllocator a env)) fun r => ?_
      match r with
      | .error what => exact neat_pure _
      | .ok () => exact neat_bind (neat_setErrorCode _ _) fun _ => neat_pure _

theorem neat_lldkGetAllocateStats (buffer : Bool) :
    NeatCode t (lldkGetAllocateStats t buffer) := by
  cases buffer with
  | true => exact neat_lockGuard (neat_onProcess _)
  | false => exact neat_bind (neat_setErrorCode _ _) fun _ => neat_pure _

theorem neat_call (t : Tid) (c : Call) : NeatCode t (call t c) := by
  cases c with
  | lldkCreateAllocator pName uMaxSizeMB env =>
    exact neat_bind (neat_lldkCreateAllocator pName uMaxSizeMB env) fun _ => neat_pure _
  | lldkDestroyAllocator pAllocator env =>
    exact neat_bind (neat_lldkDestroyAllocator pAllocator env) fun _ => neat_pure _
  | lldkGetAllocatorSingleton env =>
    exact neat_bind (neat_lldkGetAllocatorSingleton env) fun _ => neat_pure _
  | getAllocateStats a pAllocateStats pThreadCount =>
    apply neat_bind (neat_read _)
    intro al
    cases al with
    | none => exact neat_fault
    | some al =>
      exact neat_bind (neat_getAllocateStats al pAllocateStats pThreadCount) fun _ => neat_pure _
  | lldkAllocate uSize mem => exact neat_bind (neat_lldkAllocate uSize mem) fun _ => neat_pure _
  | lldkFree pMemory => exact neat_lldkFree pMemory
  | lldkGetAllocateStats buffer =>
    exact neat_bind (neat_lldkGetAllocateStats buffer) fun _ => neat_pure _
  | newAllocator pName env => exact neat_bind (neat_newAllocator pName env) fun _ => neat_pure _
  | destroyAllocator a => exact neat_destroyAllocator a

end LibraryCode

/-! ## Runs of the threads -/

open LibraryCode

/-- What it takes to break the condition. -/
theorem finds_of_not_noStorage {c : Threads} {t : Tid}
    (h : ¬ NoStorageUnderLock c (.go t)) :
    ∃ i, (c.progs t).acts = some (.destructs i) ∧ c.owner .registry = some t ∧
      Finds t (.destructs i) c.shared := by
  simp only [NoStorageUnderLock, not_forall] at h
  obtain ⟨i, hacts, howner, hslot⟩ := h
  exact ⟨i, hacts, howner, hslot⟩

/-- **The thread hangs, with the mutex.** In any run, if a thread destroys an allocator while it
holds the mutex of the registry and finds a storage of its own, then in every state after it,
whoever moves, the thread has not come out of its call and the mutex is not free: no other thread
creates or destroys an allocator, or allocates, ever again. -/
theorem storage_under_lock_hangs {moves moves' : List (Move Tid Call)} {c c' : Threads} {t : Tid}
    {outs outs' : List Unit}
    (hrun : run (threadStep call) (Config.start .init) moves = .ok (c, outs))
    (hfinds : ¬ NoStorageUnderLock c (.go t))
    (hrun' : run (threadStep call) c (.go t :: moves') = .ok (c', outs')) :
    c'.owner .registry = some t ∧ c'.progs t ≠ .ret () := by
  obtain ⟨i, hacts, howner, hR⟩ := finds_of_not_noStorage hfinds
  have htidy : Tidy Finds .registry c := tidy_run neat_call (tidy_start _) hrun
  obtain ⟨c₁, b, bs, hs, hrun', -⟩ := run_cons_eq_ok.mp hrun'
  have hstuck : Stuck .registry t c₁ := stuck_of_look htidy howner hacts hR hs
  have hend := stuck_run neat_call hstuck (tidy_step neat_call htidy hs) hrun'
  refine ⟨hend.owner, fun hret => ?_⟩
  have hasks := hend.asks
  rw [hret] at hasks
  exact hasks

/-- Thread 1 destroys its own allocator; thread 2 comes and wants to allocate. -/
theorem storage_under_lock_hangs_sample :
    ∃ c outs c' outs', run (threadStep call) (Config.start .init) (destroyOwn.take 57) =
        .ok (c, outs) ∧
      run (threadStep call) c ([.go 1, .start 2 (.lldkAllocate 8 true)] ++
        [.go 1, .go 2, .go 1]) = .ok (c', outs') ∧
      c'.owner .registry = some 1 ∧ c'.progs 1 ≠ .ret () := by
  have hends : (run (threadStep call) (Config.start .init) (destroyOwn.take 57)).toOption.any
      (fun r => decide (¬ NoStorageUnderLock r.1 (.go 1)) &&
        (run (threadStep call) r.1 ([.go 1, .start 2 (.lldkAllocate 8 true)] ++
          [.go 1, .go 2, .go 1])).toOption.any fun _ => true) = true := by
    decide +kernel
  obtain ⟨⟨c, outs⟩, hrun, hends⟩ := exists_of_any hends
  obtain ⟨hfinds, hends⟩ := Bool.and_eq_true_iff.mp hends
  obtain ⟨⟨c', outs'⟩, hrun', -⟩ := exists_of_any hends
  exact ⟨c, outs, c', outs', hrun, hrun',
    storage_under_lock_hangs hrun (of_decide_eq_true hfinds) hrun'⟩

end Lldk
