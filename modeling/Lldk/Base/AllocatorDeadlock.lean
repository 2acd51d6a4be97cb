import Lldk.Base.AllocatorLocks
import Lldk.Lib.LockOrder

/-!
No deadlock among the mutexes of the library, and the destruction that breaks it.

* `lockOrder` ranks the mutex of the singleton below that of the registry, and that below the one
  of the instance ids. `disciplined_call`: whatever a thread calls follows it.
* Its guard is on one action, the look of `~LldkThreadLocal` at the slot of its id. A thread that
  holds the mutex of the registry there must find null: `NoStorageUnderLock`.
* `deadlockFree_of_noStorage`: in a run whose steps meet that condition, no thread asks for a mutex
  it holds and no threads wait for each other in a circle.
* `destructThreadLocal_relocks`: a thread that breaks it asks for the mutex it holds. One that
  creates an allocator and destroys it does (`destroy_relocks`).
-/

namespace Lldk

open Lib Lib.Trace Lib.Threads Lib.LockOrder Lib.LockOrder.Discipline

/-! ## The order of the mutexes -/

def Mutex.rank : Mutex → Nat
  | .singleton => 0
  | .registry => 1
  | .ids => 2

/-- Once there is a singleton there always is one. -/
def HasSingleton (l : Library) : Prop := l.s_pAllocator ≠ none

def lockOrder : Discipline Tid Mutex Library Site where
  rank := Mutex.rank
  -- the allocators of the registry come from the singleton
  inv l := l.s_pAllocatorMap ≠ [] → HasSingleton l
  rely l l' := HasSingleton l → HasSingleton l'
  refl _ := fun h => h
  trans h h' := fun hs => h' (h hs)
  guard t holds site l :=
    match site with
    | .destructs i => holds .registry → l.proc.slot t i = none
    | .plain => True

theorem stable_hasSingleton : lockOrder.Stable HasSingleton := fun _ _ h hr => hr h

theorem below_ids {held : List Mutex} (h : lockOrder.Below .registry held) :
    lockOrder.Below .ids held :=
  fun m hm => Nat.lt_trans (h m hm) (by decide)

/-- The mutex of the ids is locked last; below it only the registry's is not below that one. -/
theorem below_registry {held : List Mutex} (h : lockOrder.Below .ids held)
    (hr : Mutex.registry ∉ held) : lockOrder.Below .registry held := by
  intro m hm
  have hids := h m hm
  cases m with
  | singleton => decide
  | registry => exact absurd hm hr
  | ids => exact absurd hids (Nat.lt_irrefl _)

theorem below_nil (m : Mutex) : lockOrder.Below m [] := nofun

theorem below_cons {m m' : Mutex} {held : List Mutex} (h : m'.rank < m.rank)
    (hm : lockOrder.Below m held) : lockOrder.Below m (m' :: held) := by
  intro m'' hm''
  rcases List.mem_cons.mp hm'' with rfl | hm''
  · exact h
  · exact hm m'' hm''

namespace LibraryCode

open Prog

variable {t : Tid} {held : List Mutex}

/-! ## Actions -/

theorem orderly_onProcess {α : Type} (f : Process Object → Except Fault (α × Process Object)) :
    lockOrder.Orderly t held (onProcess f) := by
  apply orderly_attempt
  intro l r hi hf
  obtain ⟨q, -, rfl⟩ := map_eq_ok.mp hf
  exact ⟨hi, fun h => h⟩

theorem orderly_modify (f : Process Object → Process Object) :
    lockOrder.Orderly t held (modify f) := orderly_onProcess _

theorem orderly_setErrorCode (e : ErrorCode) : lockOrder.Orderly t held (setErrorCode t e) :=
  orderly_modify _

theorem orderly_destroyObject (a : Nat) : lockOrder.Orderly t held (destroyObject a) :=
  orderly_onProcess _

theorem orderly_freeBlock (a : Nat) : lockOrder.Orderly t held (freeBlock a) :=
  orderly_onProcess _

/-- What is read is true of the state after it as well. -/
theorem triple_read {α : Type} {P : Library → Prop} (hP : lockOrder.Stable P) (f : Library → α)
    {Q : α → Library → Prop} (h : ∀ l, P l → lockOrder.inv l → Q (f l) l) :
    lockOrder.Triple t held P (read f) Q := by
  unfold read onLibrary
  refine triple_attempt hP fun l r hl hi _ hf => ?_
  cases hf
  exact ⟨hi, fun h => h, h l hl hi⟩

theorem orderly_read {α : Type} (f : Library → α) : lockOrder.Orderly t held (read f) :=
  triple_read (fun _ _ _ _ => trivial) f fun _ _ _ => trivial

/-! ## `lldk_thread_local.cpp` and the counted allocation -/

theorem orderly_newInstanceId (h : lockOrder.Below .ids held) :
    lockOrder.Orderly t held newInstanceId :=
  orderly_lockGuard h (orderly_onProcess _)

theorem orderly_deleteInstanceId (h : lockOrder.Below .ids held) (i : Nat) :
    lockOrder.Orderly t held (deleteInstanceId i) :=
  orderly_lockGuard h (orderly_onProcess _)

theorem orderly_lldkAllocate (h : lockOrder.Below .registry held) (uSize : UInt64) (mem : Bool) :
    lockOrder.Orderly t held (lldkAllocate t uSize mem) := by
  apply orderly_bind (orderly_onProcess _)
  intro q
  cases q with
  | none => exact orderly_bind (orderly_setErrorCode _) fun _ => orderly_pure _
  | some a =>
    exact orderly_bind (orderly_lockGuard h (orderly_modify _)) fun _ => orderly_pure _

theorem orderly_lldkFree (h : lockOrder.Below .registry held) (pMemory : Option Nat) :
    lockOrder.Orderly t held (lldkFree t pMemory) := by
  cases pMemory with
  | none => exact orderly_setErrorCode _
  | some a =>
    apply orderly_bind (orderly_read _)
    intro b
    cases b with
    | none => exact triple_fault
    | some b =>
      exact orderly_bind (orderly_lockGuard h (orderly_modify _)) fun _ => orderly_freeBlock _

theorem orderly_createInstances (h : lockOrder.Below .registry held) (env : Env) :
    lockOrder.Orderly t held (createInstances t env) := by
  apply orderly_bind (orderly_lldkAllocate h _ _)
  intro q
  cases q with
  | none => exact orderly_bind (orderly_setErrorCode _) fun _ => orderly_pure _
  | some a =>
    refine orderly_bind (orderly_modify _) fun _ => ?_
    apply orderly_bind (orderly_lockGuard (below_ids h) (orderly_onProcess _))
    intro pushed
    cases pushed with
    | true => exact orderly_pure _
    | false =>
      refine orderly_bind (orderly_lldkFree h _) fun _ => ?_
      refine orderly_bind (orderly_modify _) fun _ => ?_
      exact orderly_bind (orderly_setErrorCode _) fun _ => orderly_pure _

theorem orderly_setThreadLocalStorage_null (i : Nat) (env : Env) :
    lockOrder.Orderly t held (setThreadLocalStorage t i none env) :=
  orderly_bind (orderly_setErrorCode _) fun _ => orderly_pure _

theorem orderly_setThreadLocalStorage (h : lockOrder.Below .registry held) (i : Nat)
    (pStorage : Option Nat) (env : Env) :
    lockOrder.Orderly t held (setThreadLocalStorage t i pStorage env) := by
  cases pStorage with
  | none => exact orderly_setThreadLocalStorage_null i env
  | some a =>
    have hstore : ∀ ready : Bool, lockOrder.Orderly t held
        (if ready = true then do
          onProcess fun p => (p.storeSlot t i a).map fun p => ((), p)
          pure 0
        else pure (-1) : LibraryCode Int) := by
      intro ready
      cases ready with
      | false => exact orderly_pure _
      | true => exact orderly_bind (orderly_onProcess _) fun _ => orderly_pure _
    simp only [setThreadLocalStorage]
    by_cases hi : i = kInvalidInstanceId
    · rw [if_pos hi]
      exact orderly_bind (orderly_setErrorCode _) fun _ => orderly_pure _
    · rw [if_neg hi]
      apply orderly_bind (orderly_read _)
      intro table
      cases table with
      | none => exact orderly_bind (orderly_createInstances h env) hstore
      | some table => exact orderly_bind (orderly_pure _) hstore

theorem orderly_constructThreadLocal (h : lockOrder.Below .registry held) (T : ObjectType Object)
    (env : Env) : lockOrder.Orderly t held (constructThreadLocal T t env) := by
  apply orderly_bind (orderly_newInstanceId (below_ids h))
  intro i
  by_cases hi : i = kInvalidInstanceId
  · rw [if_pos hi]
    exact orderly_pure _
  · rw [if_neg hi]
    apply orderly_bind (orderly_lldkAllocate h _ _)
    intro q
    cases q with
    | none => exact orderly_pure _
    | some pStorage =>
      by_cases hthrows : env.ctorThrows = true
      · simp only [hthrows, if_true]
        exact orderly_pure _
      · simp only [hthrows]
        refine orderly_bind (orderly_modify _) fun _ => ?_
        apply orderly_bind (orderly_setThreadLocalStorage h _ _ _)
        intro rc
        by_cases hrc : rc ≠ 0
        · rw [if_pos hrc]
          refine orderly_bind (orderly_lldkFree h _) fun _ => ?_
          exact orderly_bind (orderly_deleteInstanceId (below_ids h) _) fun _ => orderly_pure _
        · rw [if_neg hrc]
          exact orderly_pure _

/-- The destructor frees a storage only where the mutex of the registry is not held: this is what
the guard is for. -/
theorem orderly_destructThreadLocal (h : lockOrder.Below .ids held) (obj : LldkThreadLocal) :
    lockOrder.Orderly t held (destructThreadLocal t obj) := by
  have hlook : lockOrder.Triple t held (fun _ => True)
      (attempt (.destructs obj.m_uInstanceId) fun l =>
        (l.proc.getThreadLocalStorage t obj.m_uInstanceId).map fun q => (q, l))
      fun q _ => Mutex.registry ∈ held → q = none := by
    refine triple_attempt (fun _ _ _ _ => trivial) fun l r _ hi hg hf => ?_
    obtain ⟨q, hq, rfl⟩ := map_eq_ok.mp hf
    refine ⟨hi, fun h => h, fun hheld => ?_⟩
    exact (Process.eq_slot_of_getThreadLocalStorage hq).trans (hg hheld)
  apply triple_bind hlook
  intro q
  cases q with
  | none => exact (orderly_deleteInstanceId h _).triple
  | some pStorage =>
    by_cases hheld : Mutex.registry ∈ held
    · exact fun l hl => absurd (hl hheld) nofun
    · have hr := below_registry h hheld
      apply Orderly.triple
      refine orderly_bind (orderly_destroyObject _) fun _ => ?_
      refine orderly_bind (orderly_lldkFree hr _) fun _ => ?_
      refine orderly_bind (orderly_setThreadLocalStorage_null _ _) fun _ => ?_
      exact orderly_deleteInstanceId h _

/-! ## `AllocatorImpl` -/

theorem orderly_constructAllocator (h : lockOrder.Below .registry held) (pName : String)
    (env : Env) : lockOrder.Orderly t held (constructAllocator t pName env) := by
  unfold constructAllocator
  cases env.nameMem with
  | false => exact orderly_pure _
  | true =>
    apply orderly_bind (orderly_constructThreadLocal h _ _)
    intro r
    cases r with
    | threw what => exact orderly_pure _
    | object obj pStorage => exact orderly_pure _

theorem orderly_destroyAllocator (h : lockOrder.Below .ids held) (a : Nat) :
    lockOrder.Orderly t held (destroyAllocator t a) := by
  apply orderly_bind (orderly_read _)
  intro al
  cases al with
  | none => exact triple_fault
  | some al =>
    exact orderly_bind (orderly_destructThreadLocal h _) fun _ => orderly_destroyObject _

theorem orderly_newAllocator (h : lockOrder.Below .registry held) (pName : String)
    (env : CallEnv) : lockOrder.Orderly t held (newAllocator t pName env) := by
  unfold newAllocator
  cases env.objectMem with
  | false => exact orderly_pure _
  | true =>
    apply orderly_bind (orderly_onProcess _)
    intro a
    apply orderly_bind (orderly_constructAllocator h _ _)
    intro r
    cases r with
    | error what => exact orderly_bind (orderly_modify _) fun _ => orderly_pure _
    | ok al => exact orderly_bind (orderly_modify _) fun _ => orderly_pure _

theorem orderly_newObject (h : lockOrder.Below .registry held) (al : AllocatorImpl)
    (pName : String) (env : CallEnv) : lockOrder.Orderly t held (newObject t al pName env) := by
  apply orderly_bind (orderly_onProcess _)
  intro q
  cases q with
  | none => exact orderly_pure _
  | some pMemory =>
    apply orderly_bind (orderly_constructAllocator h _ _)
    intro r
    cases r with
    | error what => exact orderly_bind (orderly_onProcess _) fun _ => orderly_pure _
    | ok al => exact orderly_bind (orderly_modify _) fun _ => orderly_pure _

theorem orderly_deleteObject (h : lockOrder.Below .ids held) (al : AllocatorImpl) (a : Nat) :
    lockOrder.Orderly t held (deleteObject t al a) :=
  orderly_bind (orderly_destroyAllocator h a) fun _ => orderly_onProcess _

theorem orderly_getAllocateStats (h : lockOrder.Below .ids held) (al : AllocatorImpl)
    (pAllocateStats : Option (List AllocateStats)) (pThreadCount : Option UInt32) :
    lockOrder.Orderly t held (getAllocateStats t al pAllocateStats pThreadCount) := by
  unfold getAllocateStats
  split
  · exact orderly_lockGuard h (orderly_onProcess _)
  · exact orderly_onProcess _

/-! ## The singleton -/

theorem orderly_keeps {α : Type} {p : LibraryCode α} (h : lockOrder.Orderly t held p) :
    lockOrder.Triple t held HasSingleton p fun _ => HasSingleton :=
  triple_keeps stable_hasSingleton h fun _ _ => trivial

/-- The store of the singleton. -/
theorem triple_setSingleton (a : Nat) :
    lockOrder.Triple t held (fun _ => True)
      (onLibrary fun l => .ok ((), { l with s_pAllocator := some a })) fun _ => HasSingleton := by
  unfold onLibrary
  refine triple_attempt (fun _ _ _ _ => trivial) fun l r _ _ _ hf => ?_
  cases hf
  have h : HasSingleton { l with s_pAllocator := some a } := nofun
  exact ⟨fun _ => h, fun _ => h, h⟩

theorem triple_lldkGetAllocatorSingleton (env : CallEnv) :
    lockOrder.Triple t [] (fun _ => True) (lldkGetAllocatorSingleton t env)
      fun r l => ∀ a, r = .ok (some a) → HasSingleton l := by
  have hread : ∀ held, lockOrder.Triple t held (fun _ => True) (read fun l => l.s_pAllocator)
      fun q l => q ≠ none → HasSingleton l :=
    fun held => triple_read (fun _ _ _ _ => trivial) _ fun l _ _ h => h
  have hregistry : lockOrder.Below .registry [Mutex.singleton] :=
    below_cons (by decide) (below_nil _)
  apply triple_bind (hread [])
  intro q
  cases q with
  | some a => exact triple_pure fun l hl _ _ => hl nofun
  | none =>
    refine triple_lockGuard (below_nil _) (triple_bind
      (triple_pre (hread [.singleton]) fun _ _ => trivial) fun q => ?_)
    cases q with
    | some a => exact triple_pure fun l hl _ _ => hl nofun
    | none =>
      apply triple_bind (orderly_newAllocator hregistry _ env.forSingleton).triple
      intro r
      cases r with
      | error what => exact triple_pure fun _ _ _ => nofun
      | ok a =>
        refine triple_bind (triple_setSingleton a) fun _ => ?_
        apply triple_bind (orderly_keeps (orderly_onProcess _))
        intro rc
        by_cases hrc : rc ≠ 0
        · rw [if_pos hrc]
          refine triple_pre (P := fun _ => True) ?_ fun _ _ => trivial
          refine triple_bind (orderly_destroyAllocator (below_ids hregistry) a) fun _ => ?_
          refine triple_bind (orderly_modify _) fun _ => ?_
          refine triple_bind (orderly_setErrorCode _) fun _ => ?_
          exact triple_pure fun _ _ _ => nofun
        · rw [if_neg hrc]
          exact triple_pure fun l hl _ _ => hl

/-- Where there is a singleton its mutex is not locked. -/
theorem triple_lldkGetAllocatorSingleton_set (env : CallEnv) :
    lockOrder.Triple t held HasSingleton (lldkGetAllocatorSingleton t env) fun _ _ => True := by
  have hread : lockOrder.Triple t held HasSingleton (read fun l => l.s_pAllocator)
      fun q _ => q ≠ none := triple_read stable_hasSingleton _ fun l hl _ => hl
  apply triple_bind hread
  intro q
  cases q with
  | none => exact fun l hl => absurd rfl hl
  | some a => exact triple_pure fun _ _ => trivial

theorem triple_deleteAllocatorImpl (h : lockOrder.Below .ids held) (a : Nat) (env : CallEnv) :
    lockOrder.Triple t held HasSingleton (deleteAllocatorImpl t a env) fun _ _ => True := by
  apply triple_bind (triple_lldkGetAllocatorSingleton_set env)
  intro r
  match r with
  | .error what => exact triple_fault
  | .ok none => exact orderly_setErrorCode _
  | .ok (some s) =>
    apply orderly_bind (orderly_read _)
    intro al
    cases al with
    | none => exact triple_fault
    | some al => exact orderly_deleteObject h al a

/-! ## The registry -/

theorem below_ids_registry : lockOrder.Below .ids [Mutex.registry] :=
  below_cons (by decide) (below_nil _)

/-- What is done to the registry, by a thread that knows of the singleton. -/
theorem triple_onRegistry {f : Library → Library}
    (hf : ∀ l, (f l).s_pAllocator = l.s_pAllocator) :
    lockOrder.Triple t held HasSingleton (onLibrary fun l => .ok ((), f l))
      fun _ => HasSingleton := by
  unfold onLibrary
  refine triple_attempt stable_hasSingleton fun l r hl _ _ hr => ?_
  cases hr
  have h : HasSingleton (f l) := (hf l).trans_ne hl
  exact ⟨fun _ => h, fun _ => h, h⟩

theorem orderly_createCheck (pName : String) (env : CallEnv) :
    lockOrder.Orderly t [] (createCheck t pName env) := by
  apply orderly_lockGuard (below_nil _)
  cases env.keyMem with
  | false => exact orderly_pure _
  | true =>
    apply orderly_bind (orderly_read _)
    intro q
    cases q with
    | none => exact orderly_pure _
    | some a => exact orderly_bind (orderly_setErrorCode _) fun _ => orderly_pure _

/-- Only a thread that has seen the singleton gets an allocator. -/
theorem triple_createObject (pName : String) (uMaxSizeMB : UInt64) (env : CallEnv) :
    lockOrder.Triple t [] (fun _ => True) (createObject t pName uMaxSizeMB env)
      fun r l => ∀ a, r = .ok (some a) → HasSingleton l := by
  apply triple_bind (triple_lldkGetAllocatorSingleton env)
  intro r
  match r with
  | .error what => exact triple_pure fun _ _ _ => nofun
  | .ok none =>
    refine triple_bind (orderly_setErrorCode _).triple fun _ => ?_
    exact triple_pure fun _ _ _ => nofun
  | .ok (some s) =>
    refine triple_pre (P := HasSingleton) ?_ fun l hl => hl s rfl
    apply triple_bind (orderly_keeps (orderly_read _))
    intro al
    cases al with
    | none => exact triple_fault
    | some al =>
      apply triple_bind (orderly_keeps (orderly_newObject (below_nil _) al pName env))
      intro r
      match r with
      | .error what => exact triple_pure fun _ _ _ => nofun
      | .ok none =>
        refine triple_bind (orderly_setErrorCode _).triple fun _ => ?_
        exact triple_pure fun _ _ _ => nofun
      | .ok (some a) =>
        apply triple_bind (orderly_keeps (orderly_onProcess _))
        intro rc
        by_cases hrc : rc ≠ 0
        · rw [if_pos hrc]
          refine triple_bind (orderly_keeps (orderly_setErrorCode _)) fun _ => ?_
          refine triple_bind (triple_deleteAllocatorImpl (below_nil _) a env) fun _ => ?_
          exact triple_pure fun _ _ _ => nofun
        · rw [if_neg hrc]
          exact triple_pure fun l hl _ _ => hl

/-- The node that is destroyed in `emplace` destroys its allocator under the mutex. -/
theorem triple_emplace (pName : String) (a : Nat) (env : CallEnv) :
    lockOrder.Triple t [.registry] HasSingleton (emplace t pName a env) fun _ _ => True := by
  unfold emplace
  cases env.nodeMem with
  | false => exact triple_pure fun _ _ => trivial
  | true =>
    apply triple_bind (orderly_keeps (orderly_read _))
    intro q
    cases q with
    | some b =>
      exact triple_bind (triple_deleteAllocatorImpl below_ids_registry a env)
        fun _ => orderly_pure _
    | none =>
      cases env.rehashMem with
      | true =>
        refine triple_bind (triple_onRegistry fun _ => rfl) fun _ => ?_
        exact triple_pure fun _ _ => trivial
      | false =>
        exact triple_bind (triple_deleteAllocatorImpl below_ids_registry a env)
          fun _ => orderly_pure _

theorem triple_createEmplace (pName : String) (a : Nat) (env : CallEnv) :
    lockOrder.Triple t [] HasSingleton (createEmplace t pName a env) fun _ _ => True := by
  refine triple_bind (triple_keeps stable_hasSingleton
    (triple_lockGuard (below_nil _) (triple_emplace pName a env)) fun _ h => h) fun r => ?_
  match r with
  | .done => exact triple_pure fun _ _ => trivial
  | .threw true =>
    exact (orderly_bind (orderly_setErrorCode _) fun _ => orderly_pure _).triple
  | .threw false =>
    refine triple_bind (orderly_keeps (orderly_setErrorCode _)) fun _ => ?_
    exact triple_bind (triple_deleteAllocatorImpl (below_nil _) a env) fun _ => orderly_pure _

theorem orderly_lldkCreateAllocator (pName : Option String) (uMaxSizeMB : UInt64)
    (env : CallEnv) : lockOrder.Orderly t [] (lldkCreateAllocator t pName uMaxSizeMB env) := by
  cases pName with
  | none => exact orderly_bind (orderly_setErrorCode _) fun _ => orderly_pure _
  | some pName =>
    apply orderly_bind (orderly_createCheck pName env)
    intro r
    match r with
    | .error what => exact orderly_pure _
    | .ok false => exact orderly_pure _
    | .ok true =>
      apply triple_bind (triple_createObject pName uMaxSizeMB env)
      intro r
      match r with
      | .error what => exact triple_pure fun _ _ => trivial
      | .ok none => exact triple_pure fun _ _ => trivial
      | .ok (some a) =>
        refine triple_pre (P := HasSingleton) ?_ fun l hl => hl a rfl
        exact triple_bind (triple_createEmplace pName a env) fun _ => orderly_pure _

/-- A name that is found is in the registry, so there is a singleton. -/
theorem orderly_eraseAllocator (a : Nat) (env : CallEnv) :
    lockOrder.Orderly t [.registry] (eraseAllocator t a env) := by
  apply orderly_bind (orderly_read _)
  intro al
  cases al with
  | none => exact triple_fault
  | some al =>
    cases env.keyMem with
    | false => exact orderly_pure _
    | true =>
      have hfind : lockOrder.Triple t [.registry] (fun _ => True)
          (read fun l => l.find al.getName) fun q l => q = some a → HasSingleton l := by
        refine triple_read (fun _ _ _ _ => trivial) _ fun l _ hi hq => hi fun hempty => ?_
        simp [Library.find, hempty] at hq
      apply triple_bind hfind
      intro q
      by_cases hq : q = some a
      · rw [if_pos hq]
        refine triple_pre (P := HasSingleton) ?_ fun l hl => hl hq
        refine triple_bind (triple_onRegistry fun _ => rfl) fun _ => ?_
        exact triple_bind (triple_deleteAllocatorImpl below_ids_registry a env)
          fun _ => orderly_pure _
      · rw [if_neg hq]
        exact triple_pure fun _ _ => trivial

theorem orderly_lldkDestroyAllocator (pAllocator : Option Nat) (env : CallEnv) :
    lockOrder.Orderly t [] (lldkDestroyAllocator t pAllocator env) := by
  cases pAllocator with
  | none => exact orderly_bind (orderly_setErrorCode _) fun _ => orderly_pure _
  | some a =>
    apply orderly_bind (orderly_read _)
    intro al
    cases al with
    | none => exact triple_fault
    | some al =>
      refine orderly_bind (orderly_lockGuard (below_nil _) (orderly_eraseAllocator a env))
        fun r => ?_
      match r with
      | .error what => exact orderly_pure _
      | .ok () => exact orderly_bind (orderly_setErrorCode _) fun _ => orderly_pure _

theorem orderly_lldkGetAllocateStats (buffer : Bool) :
    lockOrder.Orderly t [] (lldkGetAllocateStats t buffer) := by
  cases buffer with
  | true => exact orderly_lockGuard (below_nil _) (orderly_onProcess _)
  | false => exact orderly_bind (orderly_setErrorCode _) fun _ => orderly_pure _

theorem disciplined_call : Disciplined lockOrder call := by
  intro t c
  cases c with
  | lldkCreateAllocator pName uMaxSizeMB env =>
    exact orderly_bind (orderly_lldkCreateAllocator pName uMaxSizeMB env) fun _ => orderly_pure _
  | lldkDestroyAllocator pAllocator env =>
    exact orderly_bind (orderly_lldkDestroyAllocator pAllocator env) fun _ => orderly_pure _
  | lldkGetAllocatorSingleton env =>
    refine orderly_bind ?_ fun _ => orderly_pure _
    exact Orderly.of_triple (triple_lldkGetAllocatorSingleton env)
  | getAllocateStats a pAllocateStats pThreadCount =>
    apply orderly_bind (orderly_read _)
    intro al
    cases al with
    | none => exact triple_fault
    | some al =>
      exact orderly_bind (orderly_getAllocateStats (below_nil _) al pAllocateStats pThreadCount)
        fun _ => orderly_pure _
  | lldkAllocate uSize mem =>
    exact orderly_bind (orderly_lldkAllocate (below_nil _) uSize mem) fun _ => orderly_pure _
  | lldkFree pMemory => exact orderly_lldkFree (below_nil _) pMemory
  | lldkGetAllocateStats buffer =>
    exact orderly_bind (orderly_lldkGetAllocateStats buffer) fun _ => orderly_pure _
  | newAllocator pName env =>
    exact orderly_bind (orderly_newAllocator (below_nil _) pName env) fun _ => orderly_pure _
  | destroyAllocator a => exact orderly_destroyAllocator (below_nil _) a

end LibraryCode

/-! ## Runs of the threads -/

open LibraryCode

abbrev Threads := Config Tid Mutex Library Site Unit

/-- A thread that destroys an allocator under the mutex of the registry has no storage under the
id of that allocator. -/
def NoStorageUnderLock (c : Threads) : Move Tid Call → Prop
  | .start _ _ => True
  | .go t =>
    ∀ i, (c.progs t).acts = some (.destructs i) → c.owner .registry = some t →
      c.shared.proc.slot t i = none

instance (c : Threads) (move : Move Tid Call) : Decidable (NoStorageUnderLock c move) :=
  match move with
  | .start _ _ => isTrue trivial
  | .go t =>
    match h : (c.progs t).acts with
    | some (.destructs i) =>
      decidable_of_iff (c.owner .registry = some t → c.shared.proc.slot t i = none)
        ⟨fun hi j hj => by cases h.symm.trans hj; exact hi, fun hall => hall i h⟩
    | some .plain => isTrue fun i hi => by cases h.symm.trans hi
    | none => isTrue fun i hi => by cases h.symm.trans hi

theorem respects_of_noStorage {c : Threads} {move : Move Tid Call}
    (h : NoStorageUnderLock c move) : Respects lockOrder c move := by
  cases move with
  | start t c => trivial
  | go t =>
    intro site hsite
    cases site with
    | plain => trivial
    | destructs i => exact h i hsite

/-- **No deadlock** where no storage is freed under the mutex of the registry: no thread asks for
a mutex it holds, and no threads wait for each other in a circle. -/
theorem deadlockFree_of_noStorage {moves : List (Move Tid Call)}
    (hrun : ∃ r, run (threadStep call) (Config.start .init) moves = .ok r)
    (hmeets : EachStep (threadStep call) NoStorageUnderLock (Config.start .init) moves) :
    AllAlong (threadStep call) DeadlockFree (Config.start .init) moves :=
  deadlockFree_along disciplined_call (follows_start fun h => absurd rfl h) hrun
    (hmeets.mono fun _ _ => respects_of_noStorage)

/-- Thread 1 creates an allocator, and thread 2, which has a table of its own by then and no
storage in the allocator, destroys it. -/
def destroyElsewhere : List (Move Tid Call) :=
  [.start 1 (.lldkCreateAllocator (some "a") 0 {}), .start 2 (.newAllocator "b" {})] ++
    List.replicate 30 (.go 1) ++ List.replicate 20 (.go 2) ++ List.replicate 17 (.go 1) ++
    [.start 2 (.lldkDestroyAllocator (some 6) {})] ++ List.replicate 16 (.go 2)

theorem deadlockFree_of_noStorage_sample :
    AllAlong (threadStep call) DeadlockFree (Config.start .init) destroyElsewhere :=
  deadlockFree_of_noStorage (exists_of_isOk (by decide +kernel)) (by decide +kernel)

/-! ## The destruction that locks twice -/

theorem acts_destroyObject {α : Type} {l : Library} {a : Nat} {b : Block Object}
    (hc : l.proc.heap.cells a = some b) (q : Unit → LibraryCode α) :
    Acts 1 (destroyObject a >>= q) l (q ()) (l.withProc (l.proc.emptied a)) := by
  unfold destroyObject onProcess onLibrary
  refine acts_attempt ?_ q
  simp only [Process.destroyObject_live hc]
  rfl

theorem acts_read {α β : Type} (f : Library → α) (l : Library) (q : α → LibraryCode β) :
    Acts 1 (LibraryCode.read f >>= q) l (q (f l)) l := by
  unfold LibraryCode.read onLibrary
  exact acts_attempt rfl q

theorem acts_look {α : Type} {t : Tid} {i : Nat} {r : Option Nat} {l : Library}
    (h : l.proc.getThreadLocalStorage t i = .ok r) (q : Option Nat → LibraryCode α) :
    Acts 1 (Prog.attempt (.destructs i) (fun l =>
      (l.proc.getThreadLocalStorage t i).map fun q => (q, l)) >>= q) l (q r) l :=
  acts_attempt (by rw [h]; rfl) q

theorem acts_lldkFree (t : Tid) {a : Nat} {l : Library} {b : Block Object}
    (hc : l.proc.heap.cells a = some b) :
    ∃ k, Acts 1 (lldkFree t (some a)) l (.lock .registry k) l := by
  have hread := acts_read (fun l => l.proc.heap.cells a) l (β := Unit)
  rw [hc] at hread
  exact ⟨_, hread _⟩

/-- **Where the condition fails** on a storage that is there, the thread asks for the mutex of the
registry, which it holds: three actions of `~LldkThreadLocal` lead to the lock of `__lldkFree`. -/
theorem destructThreadLocal_relocks {c : Threads} {t : Tid} {obj : LldkThreadLocal} {a : Nat}
    {rest : Unit → LibraryCode Unit} (hprog : c.progs t = destructThreadLocal t obj >>= rest)
    (hheld : c.owner .registry = some t) (hi : obj.m_uInstanceId < kMaxInstanceId)
    (hslot : c.shared.proc.slot t obj.m_uInstanceId = some a) {block : Block Object}
    (hblock : c.shared.proc.heap.cells a = some block) :
    ∃ c' outs, run (threadStep call) c (List.replicate 3 (.go t)) = .ok (c', outs) ∧
      Wants c' t .registry ∧ c'.owner .registry = some t := by
  have htable : c.shared.proc.hasTable t := by
    apply Classical.byContradiction
    intro h
    rw [Process.slot_of_noTable h] at hslot
    cases hslot
  have hget : c.shared.proc.getThreadLocalStorage t obj.m_uInstanceId = .ok (some a) := by
    rw [Process.getThreadLocalStorage_ok htable hi, hslot]
  obtain ⟨k, hfree⟩ := acts_lldkFree t (l := c.shared.withProc (c.shared.proc.emptied a))
    (Process.emptied_self hblock)
  have hlook : ∃ q : Unit → LibraryCode Unit, Acts 1 (destructThreadLocal t obj) c.shared
      (destroyObject a >>= fun _ => lldkFree t (some a) >>= q) c.shared := ⟨_, acts_look hget _⟩
  obtain ⟨q, hlook⟩ := hlook
  have hacts := (hlook.trans (acts_destroyObject hblock _)).trans (hfree.bind q)
  refine ⟨_, _, run_of_acts (hacts.bind rest) rfl hprog, ?_, hheld⟩
  simp only [Wants, Function.update_self]
  rfl

/-- One thread creates an allocator and destroys it. -/
def destroyOwn : List (Move Tid Call) :=
  [.start 1 (.lldkCreateAllocator (some "a") 0 {})] ++ List.replicate 47 (.go 1) ++
    [.start 1 (.lldkDestroyAllocator (some 3) {})] ++ List.replicate 11 (.go 1)

/-- **The erase under the mutex** destroys the allocator, whose destructor frees the storage of
the thread through `__lldkFree`, and that locks the mutex again. -/
theorem destroy_relocks :
    (∃ c outs, run (threadStep call) (Config.start .init) destroyOwn = .ok (c, outs) ∧
      Wants c 1 .registry ∧ c.owner .registry = some 1) ∧
    ¬ AllAlong (threadStep call) DeadlockFree (Config.start .init) destroyOwn := by
  have hends : (run (threadStep call) (Config.start .init) destroyOwn).toOption.any
      (fun r => decide (Wants r.1 1 .registry ∧ r.1.owner .registry = some 1)) = true := by
    decide +kernel
  obtain ⟨⟨c, outs⟩, hrun, hends⟩ := exists_of_any hends
  obtain ⟨hwants, howner⟩ := of_decide_eq_true hends
  refine ⟨⟨c, outs, hrun, hwants, howner⟩, fun h => ?_⟩
  obtain ⟨c', outs', hrun', hfree⟩ :=
    allAlong_iff_prefix.mp h destroyOwn [] (List.append_nil _).symm
  rw [hrun] at hrun'
  cases hrun'
  exact hfree.relock 1 .registry hwants howner

end Lldk
