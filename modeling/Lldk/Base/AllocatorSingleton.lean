import Lldk.Lib.Outline
import Lldk.Base.AllocatorApi
import Lldk.Base.AllocatorLocks

/-!
`lldkGetAllocatorSingleton` of any number of threads, statement by statement.

* `lldkGetAllocatorSingleton` is the code of a caller: the tests and reads of `s_pAllocator`, the
  construction with its store, and `init` are actions of their own, and other threads run between
  them. `alone_lldkGetAllocatorSingleton`: by itself it is the function of the sequential model.
* `Place` is where a caller stands, `outline` what it does there.
* `Consistent` is the invariant: what each place knows of the pointer. `consistent_step` and
  `consistent_run` keep it.
* `one_singleton`: at most one allocator is constructed, and every call that returns a pointer
  returns it.
-/

namespace Lldk

open Lib Lib.Threads Lib.Trace Process Library

/-- The statics of the function. -/
structure SingletonState where
  lib : Library
  /-- history, read by no function: the allocators that were constructed for `s_pAllocator` -/
  constructed : List Nat

namespace SingletonState

/-- Before the first call, whatever else the process has done. -/
def start (p : Process Object) (allocators : List (String × Nat)) : SingletonState :=
  ⟨⟨p, allocators, none⟩, []⟩

/-- `s_pAllocator = new AllocatorImpl("lldk.global.allocator")`: what throws, throws before the
store. -/
def construct (s : SingletonState) (t : Tid) (env : CallEnv) :
    Except Fault (Except String Unit × SingletonState) :=
  match s.lib.proc.newAllocator t "lldk.global.allocator" env.forSingleton with
  | .error f => .error f
  | .ok (.error what, p) => .ok (.error what, { s with lib := s.lib.withProc p })
  | .ok (.ok a, p) =>
    .ok (.ok (), ⟨{ s.lib with proc := p, s_pAllocator := some a }, s.constructed ++ [a]⟩)

/-- `s_pAllocator->init(0)` -/
def init (s : SingletonState) : Except Fault (Int × SingletonState) :=
  match s.lib.s_pAllocator with
  | none => .error (.deadObject 0)
  | some a =>
    (s.lib.proc.initAllocator a 0).map fun r => (r.1, { s with lib := s.lib.withProc r.2 })

/-- `delete s_pAllocator` -/
def delete (s : SingletonState) (t : Tid) : Except Fault (Unit × SingletonState) :=
  match s.lib.s_pAllocator with
  | none => .ok ((), s)
  | some a =>
    (s.lib.proc.destroyAllocator t a).map fun p =>
      ((), { s with lib := s.lib.withProc (p.freeBlock a) })

def lldkSetErrorCode (s : SingletonState) (t : Tid) (eErrorCode : ErrorCode) : SingletonState :=
  { s with lib := s.lib.lldkSetErrorCode t eErrorCode }

end SingletonState

abbrev SingletonCode (α : Type) := Prog Mutex SingletonState Unit α

namespace SingletonCode

open Prog

/-! ## The code of a caller -/

def onState {α : Type} (f : SingletonState → Except Fault (α × SingletonState)) :
    SingletonCode α :=
  attempt () f

/-- A look at `s_pAllocator`. -/
def pAllocator : SingletonCode (Option Nat) := onState fun s => .ok (s.lib.s_pAllocator, s)

def setErrorCode (t : Tid) (eErrorCode : ErrorCode) : SingletonCode Unit :=
  onState fun s => .ok ((), s.lldkSetErrorCode t eErrorCode)

/-- `return s_pAllocator` -/
def returnAllocator : SingletonCode (Except String (Option Nat)) := do
  return .ok (← pAllocator)

def noMemory (t : Tid) : SingletonCode (Except String (Option Nat)) := do
  setErrorCode t .kNoMemory
  return .ok none

/-- `init`, which would have to fail for the singleton to be deleted. -/
def initAllocator (t : Tid) : SingletonCode (Except String (Option Nat)) := do
  if (← onState SingletonState.init) ≠ 0 then
    onState fun s => s.delete t
    noMemory t
  else returnAllocator

/-- After `new`, which does not return null. -/
def checkAllocator (t : Tid) : SingletonCode (Except String (Option Nat)) := do
  if (← pAllocator).isNone then noMemory t
  else initAllocator t

def createAllocator (t : Tid) (env : CallEnv) : SingletonCode (Except String (Option Nat)) := do
  match ← onState fun s => s.construct t env with
  | .error what => return .error what
  | .ok () => checkAllocator t

/-- The critical section. -/
def locked (t : Tid) (env : CallEnv) : SingletonCode (Except String (Option Nat)) := do
  if (← pAllocator).isNone then createAllocator t env
  else returnAllocator

/-- The function, called by thread `t`. -/
def lldkGetAllocatorSingleton (t : Tid) (env : CallEnv) :
    SingletonCode (Except String (Option Nat)) := do
  if (← pAllocator).isSome then returnAllocator
  else lockGuard .singleton (locked t env)

/-! ## A call by itself -/

section Alone

variable (s : SingletonState) (t : Tid)

@[simp] theorem alone_onState {α : Type}
    (f : SingletonState → Except Fault (α × SingletonState)) :
    (onState f).alone s = (f s).toOption := alone_attempt ..

@[simp] theorem alone_pAllocator : pAllocator.alone s = some (s.lib.s_pAllocator, s) := rfl

@[simp] theorem alone_returnAllocator :
    returnAllocator.alone s = some (.ok s.lib.s_pAllocator, s) := rfl

/-- `init` does not fail. -/
theorem alone_initAllocator {a : Nat} (h : s.lib.s_pAllocator = some a) :
    (initAllocator t).alone s = (s.lib.proc.initAllocator a 0).toOption.map fun r =>
      (.ok (some a), { s with lib := s.lib.withProc r.2 }) := by
  unfold initAllocator
  simp only [alone_bind, alone_onState, SingletonState.init, h]
  cases hi : s.lib.proc.initAllocator a 0 with
  | error f => rfl
  | ok r =>
    obtain ⟨rc, p⟩ := r
    obtain ⟨rfl, -⟩ := codes_initAllocator hi
    show some (Except.ok s.lib.s_pAllocator, _) = _
    rw [h]
    rfl

/-- **With nobody else around** the code is the function of the sequential model. -/
theorem alone_lldkGetAllocatorSingleton (env : CallEnv) :
    ((lldkGetAllocatorSingleton t env).alone s).map (fun r => (r.1, r.2.lib)) =
      (s.lib.lldkGetAllocatorSingleton t env).toOption := by
  unfold lldkGetAllocatorSingleton Library.lldkGetAllocatorSingleton
  rw [alone_bind, alone_pAllocator]
  cases hp : s.lib.s_pAllocator with
  | some a =>
    show some (Except.ok s.lib.s_pAllocator, s.lib) = _
    rw [hp]
    rfl
  | none =>
    simp only [Option.bind_some, Option.isSome_none, Bool.false_eq_true, if_false,
      alone_lockGuard, locked, alone_bind, alone_pAllocator, hp, Option.isNone_none, if_true,
      createAllocator, alone_onState, SingletonState.construct]
    cases s.lib.proc.newAllocator t "lldk.global.allocator" env.forSingleton with
    | error f => rfl
    | ok r =>
      obtain ⟨r, p⟩ := r
      cases r with
      | error what => rfl
      | ok a =>
        show Option.map _ ((initAllocator t).alone
          ⟨{ s.lib with proc := p, s_pAllocator := some a }, s.constructed ++ [a]⟩) = _
        rw [alone_initAllocator _ t rfl]
        cases hi : p.initAllocator a 0 with
        | error f =>
          simp only [Bind.bind, Except.bind, hi]
          rfl
        | ok r =>
          obtain ⟨rc, p'⟩ := r
          obtain ⟨rfl, -⟩ := codes_initAllocator hi
          simp only [Bind.bind, Except.bind, hi]
          rfl

end Alone

/-! ## Places -/

/-- Where a caller stands: what it does next. -/
inductive Place
  | returned (r : Except String (Option Nat))
  | crashed (locked : Bool)
  | test (env : CallEnv)
  | read
  | lock (env : CallEnv)
  | lockedTest (env : CallEnv)
  | construct (env : CallEnv)
  | nullTest
  | noMemory
  | init
  | lockedRead
  | unlock (r : Except String (Option Nat))

/-- The places in the critical section. -/
def Place.locked : Place → Bool
  | .crashed locked => locked
  | .returned _ | .test _ | .read | .lock _ => false
  | _ => true

def look (s : SingletonState) : Except Fault (Option Nat × SingletonState) :=
  .ok (s.lib.s_pAllocator, s)

/-- The end of the critical section. -/
def release (r : Except String (Option Nat)) : SingletonCode (Except String (Option Nat)) :=
  .unlock .singleton (.ret r)

def left (t : Tid) : Place → SingletonCode (Except String (Option Nat))
  | .returned r => .ret r
  | .crashed _ => .fault
  | .test env => lldkGetAllocatorSingleton t env
  | .read => returnAllocator
  | .lock env => lockGuard .singleton (SingletonCode.locked t env)
  | .lockedTest env => SingletonCode.locked t env >>= release
  | .construct env => createAllocator t env >>= release
  | .nullTest => checkAllocator t >>= release
  | .noMemory => SingletonCode.noMemory t >>= release
  | .init => initAllocator t >>= release
  | .lockedRead => returnAllocator >>= release
  | .unlock r => release r

def next (t : Tid) : Place → Next Mutex SingletonState Unit (Except String (Option Nat)) Place
  | .returned r => .ret r
  | .crashed _ => .fault
  | .test env =>
    .attempt () look (fun q => if q.isSome then .read else .lock env) (.crashed false)
  | .read => .attempt () look (fun q => .returned (.ok q)) (.crashed false)
  | .lock env => .lock .singleton (.lockedTest env)
  | .lockedTest env =>
    .attempt () look (fun q => if q.isNone then .construct env else .lockedRead) (.crashed true)
  | .construct env =>
    .attempt () (fun s => s.construct t env)
      (fun r => match r with
        | .error what => .unlock (.error what)
        | .ok () => .nullTest) (.crashed true)
  | .nullTest =>
    .attempt () look (fun q => if q.isNone then .noMemory else .init) (.crashed true)
  | .noMemory =>
    .attempt () (fun s => (.ok ((), s.lldkSetErrorCode t .kNoMemory) : Except Fault _))
      (fun () => .unlock (.ok none)) (.crashed true)
  | .init => .attempt () SingletonState.init (fun _ => .lockedRead) (.crashed true)
  | .lockedRead => .attempt () look (fun q => .unlock (.ok q)) (.crashed true)
  | .unlock r => .unlock .singleton (.returned r)

/-- `init` has no way to fail, and leaves the pointer. -/
theorem init_ok {s s' : SingletonState} {rc : Int} (h : s.init = .ok (rc, s')) :
    rc = 0 ∧ s'.lib.s_pAllocator = s.lib.s_pAllocator ∧ s'.constructed = s.constructed := by
  unfold SingletonState.init at h
  cases hp : s.lib.s_pAllocator with
  | none =>
    simp only [hp] at h
    cases h
  | some a =>
    simp only [hp] at h
    obtain ⟨⟨rc', p⟩, hi, he⟩ := map_eq_ok.mp h
    cases he
    exact ⟨(codes_initAllocator hi).1, hp, rfl⟩

theorem left_eq (t : Tid) (φ : Place) : left t φ = (next t φ).prog (left t) := by
  cases φ with
  | returned r => rfl
  | crashed locked => rfl
  | lock env => rfl
  | unlock r => rfl
  | test env =>
    simp only [next]
    refine Next.prog_attempt rfl rfl fun s r _ => ?_
    cases r.1 <;> rfl
  | read =>
    simp only [next]
    exact Next.prog_attempt rfl rfl fun _ _ _ => rfl
  | lockedTest env =>
    simp only [next]
    refine Next.prog_attempt (Prog.bind_assoc ..) rfl fun s r _ => ?_
    cases r.1 <;> rfl
  | construct env =>
    simp only [next]
    refine Next.prog_attempt (Prog.bind_assoc ..) rfl fun s r _ => ?_
    cases r.1 <;> rfl
  | nullTest =>
    simp only [next]
    refine Next.prog_attempt (Prog.bind_assoc ..) rfl fun s r _ => ?_
    cases r.1 <;> rfl
  | noMemory =>
    simp only [next]
    exact Next.prog_attempt (Prog.bind_assoc ..) rfl fun _ _ _ => rfl
  | init =>
    simp only [next]
    refine Next.prog_attempt (Prog.bind_assoc ..) rfl fun s r h => ?_
    obtain ⟨rc, s'⟩ := r
    obtain ⟨rfl, -⟩ := init_ok h
    rfl
  | lockedRead =>
    simp only [next]
    exact Next.prog_attempt (Prog.bind_assoc ..) rfl fun _ _ _ => rfl

theorem held (t : Tid) (φ : Place) :
    (next t φ).Held (HoldsOnly .singleton Place.locked) φ := by
  cases φ with
  | returned r => exact not_holdsOnly rfl
  | crashed locked => trivial
  | lock env => exact Next.held_lock rfl rfl
  | unlock r => exact Next.held_unlock rfl rfl
  | test env =>
    simp only [next]
    refine Next.held_attempt (fun q m => ?_) fun m => Iff.rfl
    cases q <;> exact Iff.rfl
  | read =>
    simp only [next]
    exact Next.held_attempt (fun q m => Iff.rfl) fun m => Iff.rfl
  | lockedTest env =>
    simp only [next]
    refine Next.held_attempt (fun q m => ?_) fun m => Iff.rfl
    cases q <;> exact Iff.rfl
  | construct env =>
    simp only [next]
    refine Next.held_attempt (fun r m => ?_) fun m => Iff.rfl
    cases r <;> exact Iff.rfl
  | nullTest =>
    simp only [next]
    refine Next.held_attempt (fun q m => ?_) fun m => Iff.rfl
    cases q <;> exact Iff.rfl
  | noMemory =>
    simp only [next]
    exact Next.held_attempt (fun q m => Iff.rfl) fun m => Iff.rfl
  | init =>
    simp only [next]
    exact Next.held_attempt (fun rc m => Iff.rfl) fun m => Iff.rfl
  | lockedRead =>
    simp only [next]
    exact Next.held_attempt (fun q m => Iff.rfl) fun m => Iff.rfl

def outline : Outline Tid Mutex SingletonState Unit (Except String (Option Nat)) Place where
  next := next
  left := left
  holds := HoldsOnly .singleton Place.locked
  left_eq := left_eq
  held := held

/-! ## The pointer -/

/-- What a caller knows at a place: `q` is `s_pAllocator`. -/
def Place.knows (q : Option Nat) : Place → Prop
  | .read | .nullTest | .init | .lockedRead => q ≠ none
  | .construct _ => q = none
  | .noMemory => False
  | .unlock r | .returned r => ∀ a, r = .ok (some a) → q = some a
  | .test _ | .lock _ | .lockedTest _ | .crashed _ => True

/-- What a caller knows of no pointer, it knows of every pointer, but for the constructor. -/
theorem Place.knows_some {φ : Place} (h : φ.knows none) (hφ : φ.locked = false) (a : Nat) :
    φ.knows (some a) := by
  cases φ with
  | read => exact nofun
  | returned r =>
    intro b hr
    cases h b hr
  | test env => trivial
  | lock env => trivial
  | crashed locked => trivial
  | _ => cases hφ

theorem construct_cases {s s' : SingletonState} {t : Tid} {env : CallEnv}
    {r : Except String Unit} (h : s.construct t env = .ok (r, s')) :
    (∃ what, r = .error what ∧ s'.lib.s_pAllocator = s.lib.s_pAllocator ∧
      s'.constructed = s.constructed) ∨
    ∃ a, r = .ok () ∧ s'.lib.s_pAllocator = some a ∧ s'.constructed = s.constructed ++ [a] := by
  unfold SingletonState.construct at h
  split at h
  · cases h
  · cases h
    exact Or.inl ⟨_, rfl, rfl, rfl⟩
  · cases h
    exact Or.inr ⟨_, rfl, rfl, rfl⟩

/-- The step leaves the pointer alone, and the caller knows where it gets to. -/
structure Keeps (s s' : SingletonState) (φ : Place) : Prop where
  pointer : s'.lib.s_pAllocator = s.lib.s_pAllocator
  constructed : s'.constructed = s.constructed
  knows : φ.knows s.lib.s_pAllocator

/-- The caller stores an allocator that it has constructed. -/
structure Stores (s s' : SingletonState) (φ : Place) : Prop where
  knows : φ.knows s'.lib.s_pAllocator
  stored : ∃ a, s'.lib.s_pAllocator = some a ∧ s'.constructed = s.constructed ++ [a]

section Goes

variable {t : Tid} {s s' : SingletonState} {φ φ' : Place}

/-- A look at the pointer: the next place is told what it is. -/
theorem keeps_of_look {k : Option Nat → Place} {crashed : Place}
    (h : (Next.attempt () look k crashed :
      Next Mutex SingletonState Unit (Except String (Option Nat)) Place).Goes s φ' s')
    (hk : (k s.lib.s_pAllocator).knows s.lib.s_pAllocator) : Keeps s s' φ' := by
  rcases Next.goes_attempt h with ⟨q, hf, rfl⟩ | ⟨⟨e, hf⟩, -⟩
  · cases hf
    exact ⟨rfl, rfl, hk⟩
  · cases hf

/-- **A step** of a caller that knows what it has to. -/
theorem goes_cases (h : (next t φ).Goes s φ' s') (hk : φ.knows s.lib.s_pAllocator) :
    Keeps s s' φ' ∨ (∃ env, φ = .construct env) ∧ Stores s s' φ' := by
  cases φ with
  | returned r => exact absurd h (Next.not_goes_ret r)
  | crashed locked => exact absurd h Next.not_goes_fault
  | lock env =>
    obtain ⟨rfl, rfl⟩ := Next.goes_lock h
    exact Or.inl ⟨rfl, rfl, trivial⟩
  | unlock r =>
    obtain ⟨rfl, rfl⟩ := Next.goes_unlock h
    exact Or.inl ⟨rfl, rfl, hk⟩
  | test env =>
    simp only [next] at h
    refine Or.inl (keeps_of_look h ?_)
    cases s.lib.s_pAllocator with
    | none => trivial
    | some a => exact nofun
  | read =>
    simp only [next] at h
    exact Or.inl (keeps_of_look h fun a hr => Except.ok.inj hr)
  | lockedTest env =>
    simp only [next] at h
    refine Or.inl (keeps_of_look h ?_)
    cases s.lib.s_pAllocator with
    | none => rfl
    | some a => exact nofun
  | construct env =>
    simp only [next] at h
    rcases Next.goes_attempt h with ⟨r, hf, rfl⟩ | ⟨-, rfl, rfl⟩
    · rcases construct_cases hf with ⟨what, rfl, hp, hc⟩ | ⟨a, rfl, hp, hc⟩
      · exact Or.inl ⟨hp, hc, nofun⟩
      · refine Or.inr ⟨⟨env, rfl⟩, ?_, a, hp, hc⟩
        rw [hp]
        exact nofun
    · exact Or.inl ⟨rfl, rfl, trivial⟩
  | nullTest =>
    simp only [next] at h
    refine Or.inl (keeps_of_look h ?_)
    cases hq : s.lib.s_pAllocator with
    | none => exact absurd hq hk
    | some a => exact nofun
  | noMemory => exact hk.elim
  | init =>
    simp only [next] at h
    rcases Next.goes_attempt h with ⟨rc, hf, rfl⟩ | ⟨-, rfl, rfl⟩
    · obtain ⟨-, hp, hc⟩ := init_ok hf
      exact Or.inl ⟨hp, hc, hk⟩
    · exact Or.inl ⟨rfl, rfl, trivial⟩
  | lockedRead =>
    simp only [next] at h
    exact Or.inl (keeps_of_look h fun a hr => Except.ok.inj hr)

end Goes

end SingletonCode

/-! ## Runs -/

open SingletonCode

/-- The callers, and what they share. -/
abbrev SingletonCallers :=
  Config Tid Mutex SingletonState Unit (Except String (Option Nat))

namespace SingletonCallers

/-- Nobody has called the function yet. -/
def start (p : Process Object) (allocators : List (String × Nat)) : SingletonCallers :=
  ⟨.start p allocators, fun _ => none, fun _ => .ret (.ok none)⟩

/-- Every caller stands at a place and knows what it has to there, and the pointer is to the one
allocator that was constructed. -/
def Consistent (c : SingletonCallers) : Prop :=
  ∃ place, Stands outline c place ∧ (∀ t, (place t).knows c.shared.lib.s_pAllocator) ∧
    c.shared.constructed = c.shared.lib.s_pAllocator.toList

variable {c c' : SingletonCallers}

theorem consistent_start (p : Process Object) (allocators : List (String × Nat)) :
    Consistent (start p allocators) := by
  refine ⟨fun _ => .returned (.ok none), ⟨fun t => rfl, fun m t => ?_⟩, fun t => ?_, rfl⟩
  · exact ⟨nofun, nofun⟩
  · intro a h
    cases h

/-- The pointer of `c` is the pointer of `c'`, if there is one in `c`. -/
def Later (c c' : SingletonCallers) : Prop :=
  ∀ a, c.shared.lib.s_pAllocator = some a → c'.shared.lib.s_pAllocator = some a

theorem consistent_go {t : Tid} {out : Unit} (hc : Consistent c)
    (h : threadStep lldkGetAllocatorSingleton c (.go t) = .ok (c', out)) :
    Consistent c' ∧ Later c c' := by
  obtain ⟨place, S, hk, hone⟩ := hc
  obtain ⟨φ, hgoes, S'⟩ := S.go h
  rcases goes_cases hgoes (hk t) with hkeeps | ⟨⟨env, hφ⟩, hstores⟩
  · refine ⟨⟨_, S', ?_, ?_⟩, fun a ha => hkeeps.pointer.trans ha⟩
    · rw [hkeeps.pointer]
      exact (Function.forall_update_iff place _).mpr ⟨hkeeps.knows, fun t' _ => hk t'⟩
    · rw [hkeeps.pointer, hkeeps.constructed, hone]
  · obtain ⟨a, ha, hcons⟩ := hstores.stored
    have hnone : c.shared.lib.s_pAllocator = none := by
      have hkt := hk t
      rwa [hφ] at hkt
    have hlocked : (place t).locked = true := by
      rw [hφ]
      rfl
    refine ⟨⟨_, S', ?_, ?_⟩, fun b hb => ?_⟩
    · refine (Function.forall_update_iff place _).mpr ⟨hstores.knows, fun t' hne => ?_⟩
      have hkt := hk t'
      rw [hnone] at hkt
      rw [ha]
      exact Place.knows_some hkt (S.others_unlocked rfl hlocked hne) a
    · rw [hcons, hone, hnone, ha]
      rfl
    · rw [hnone] at hb
      cases hb

theorem consistent_start_call {t : Tid} {env : CallEnv} {out : Unit} (hc : Consistent c)
    (h : threadStep lldkGetAllocatorSingleton c (.start t env) = .ok (c', out)) :
    Consistent c' ∧ Later c c' := by
  obtain ⟨place, S, hk, hone⟩ := hc
  obtain ⟨-, hs, S'⟩ := S.start (φ := .test env) rfl (not_holdsOnly rfl) h
  refine ⟨⟨_, S', ?_, ?_⟩, fun a ha => ?_⟩
  · rw [hs]
    exact (Function.forall_update_iff place _).mpr ⟨trivial, fun t' _ => hk t'⟩
  · rw [hs]
    exact hone
  · rw [hs]
    exact ha

/-- A caller that has returned a pointer has returned the pointer. -/
theorem pointer_of_result (hc : Consistent c) {t : Tid} {a : Nat}
    (h : (c.progs t).result = some (.ok (some a))) : c.shared.lib.s_pAllocator = some a := by
  obtain ⟨place, S, hk, -⟩ := hc
  have hn : next t (place t) = .ret (.ok (some a)) := S.next_of_result h
  have hkt := hk t
  generalize place t = φ at hn hkt
  cases φ with
  | returned r =>
    cases hn
    exact hkt a rfl
  | _ => cases hn

/-- **The step lemma.** -/
theorem consistent_step {act : Move Tid CallEnv} {out : Option (Except String (Option Nat))}
    (hc : Consistent c) (h : callStep lldkGetAllocatorSingleton c act = .ok (c', out)) :
    Consistent c' ∧ Later c c' ∧
      ∀ a, out = some (.ok (some a)) → c'.shared.lib.s_pAllocator = some a := by
  cases act with
  | start t env =>
    obtain ⟨hstep, rfl⟩ := callStep_start h
    obtain ⟨hc', hlater⟩ := consistent_start_call hc hstep
    exact ⟨hc', hlater, nofun⟩
  | go t =>
    obtain ⟨hstep, rfl⟩ := callStep_go h
    obtain ⟨hc', hlater⟩ := consistent_go hc hstep
    exact ⟨hc', hlater, fun a ha => pointer_of_result hc' ha⟩

/-- **The run lemma.** -/
theorem consistent_run {acts : List (Move Tid CallEnv)}
    {outs : List (Option (Except String (Option Nat)))} (hc : Consistent c)
    (h : run (callStep lldkGetAllocatorSingleton) c acts = .ok (c', outs)) :
    Consistent c' ∧ Later c c' ∧
      ∀ a, some (.ok (some a)) ∈ outs → c'.shared.lib.s_pAllocator = some a := by
  induction acts generalizing c outs with
  | nil =>
    cases h
    exact ⟨hc, fun a ha => ha, nofun⟩
  | cons act acts ih =>
    obtain ⟨d, out, outs', hstep, hrun, rfl⟩ := run_cons_eq_ok.mp h
    obtain ⟨hd, hlater, hout⟩ := consistent_step hc hstep
    obtain ⟨hc', hlater', houts⟩ := ih hd hrun
    refine ⟨hc', fun a ha => hlater' a (hlater a ha), fun a ha => ?_⟩
    rcases List.mem_cons.mp ha with rfl | ha
    · exact hlater' a (hout a rfl)
    · exact houts a ha

/-- **There is one singleton**: at most one allocator is constructed, whoever calls the function
when, and every pointer that is returned is to that one. -/
theorem one_singleton (p : Process Object) (allocators : List (String × Nat))
    {acts : List (Move Tid CallEnv)} {c : SingletonCallers}
    {outs : List (Option (Except String (Option Nat)))}
    (h : run (callStep lldkGetAllocatorSingleton) (start p allocators) acts = .ok (c, outs)) :
    c.shared.constructed.length ≤ 1 ∧
      ∀ a, some (.ok (some a)) ∈ outs → c.shared.constructed = [a] := by
  obtain ⟨⟨place, S, hk, hone⟩, -, houts⟩ := consistent_run (consistent_start p allocators) h
  rw [hone]
  refine ⟨?_, fun a ha => ?_⟩
  · cases c.shared.lib.s_pAllocator with
    | none => exact Nat.zero_le 1
    | some a => exact Nat.le_refl 1
  · rw [houts a ha]
    rfl

/-- The construction of thread 1 throws while thread 2 waits, thread 3 reads the pointer that
thread 2 has stored before `init`, and thread 1 calls again. -/
def retriedCalls : List (Move Tid CallEnv) :=
  List.flatten [[.start 1 { singletonEnv := { tableMem := false } }, .start 2 {}, .go 1, .go 2],
    List.replicate 4 (.go 1), List.replicate 3 (.go 2), [.start 3 {}], List.replicate 2 (.go 3),
    List.replicate 4 (.go 2), [.start 1 {}], List.replicate 2 (.go 1)]

theorem one_singleton_retried :
    ∃ c outs, run (callStep lldkGetAllocatorSingleton) (start Process.init []) retriedCalls =
        .ok (c, outs) ∧
      outs.filterMap id = [.error "Failed to set thread local storage", .ok (some 2),
        .ok (some 2), .ok (some 2)] ∧
      c.shared.constructed.length ≤ 1 ∧
      ∀ a, some (.ok (some a)) ∈ outs → c.shared.constructed = [a] := by
  obtain ⟨⟨c, outs⟩, h, houts⟩ := exists_of_any
    (x := run (callStep lldkGetAllocatorSingleton) (start Process.init []) retriedCalls)
    (P := fun r => decide (r.2.filterMap id =
      [.error "Failed to set thread local storage", .ok (some 2), .ok (some 2), .ok (some 2)]))
    (by decide +kernel)
  exact ⟨c, outs, h, of_decide_eq_true houts, one_singleton Process.init [] h⟩

end SingletonCallers

end Lldk
