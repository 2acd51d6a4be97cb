import Lldk.Base.Allocator

/-!
Calls of `lldkCreateAllocator` in parts that other threads may come between.

* `Phase` is where a thread stands in its call, `createStep` one part of a call: the locked check
  of the name, the construction, the locked `emplace`, or a call that destroys an allocator.
* `Creations.granted` is history: the pointers returned and not destroyed since, with their names.
* `lldkCreateAllocator_steps`: the parts, one after the other, are the function.
-/

namespace Lldk

open Lib Lib.Trace Process Library

/-! ## Calls in parts -/

inductive Phase
  | idle
  /-- the name was not registered -/
  | checked (pName : String) (uMaxSizeMB : UInt64)
  | constructed (pName : String) (pAllocator : Nat)

theorem Phase.idle_ne (n : String) (a : Nat) : Phase.idle ≠ .constructed n a := by
  intro h
  cases h

theorem Phase.checked_ne (m : String) (u : UInt64) (n : String) (a : Nat) :
    Phase.checked m u ≠ .constructed n a := by
  intro h
  cases h

structure Creations where
  lib : Library
  phase : Tid → Phase
  granted : List (String × Nat)

inductive CreateOp
  | check (t : Tid) (pName : Option String) (uMaxSizeMB : UInt64) (env : CallEnv)
  | construct (t : Tid) (env : CallEnv)
  | emplace (t : Tid) (env : CallEnv)
  | destroy (t : Tid) (pAllocator : Option Nat) (env : CallEnv)
  | singleton (t : Tid) (env : CallEnv)

inductive CreateOut
  /-- the call goes on -/
  | continues
  | returned (pAllocator : Option Nat)
  | destroyed
  | threw (what : String)
  deriving DecidableEq, Repr

inductive CreateFault
  | library (f : Fault)
  /-- not the part that comes next on thread `t` -/
  | badCall (t : Tid)
  deriving DecidableEq, Repr

namespace Creations

def start (p : Process Object) : Creations := ⟨⟨p, [], none⟩, fun _ => .idle, []⟩

/-- The part of thread `t` leaves `l`, and the thread where `phase` says. -/
def goes (s : Creations) (l : Library) (t : Tid) (phase : Phase) : Creations :=
  { s with lib := l, phase := Function.update s.phase t phase }

@[simp] theorem goes_lib (s : Creations) (l : Library) (t : Tid) (phase : Phase) :
    (s.goes l t phase).lib = l := rfl

@[simp] theorem goes_phase_self (s : Creations) (l : Library) (t : Tid) (phase : Phase) :
    (s.goes l t phase).phase t = phase := Function.update_self ..

end Creations

def createStep : Step Creations CreateOp CreateOut CreateFault
  | s, .check t pName uMaxSizeMB env =>
    match s.phase t, pName with
    | .idle, none =>
      .ok ({ s with lib := s.lib.lldkSetErrorCode t .kInvalidParam }, .returned none)
    | .idle, some pName =>
      match s.lib.createCheck t pName env with
      | (.error what, l) => .ok ({ s with lib := l }, .threw what)
      | (.ok false, l) => .ok ({ s with lib := l }, .returned none)
      | (.ok true, l) => .ok (s.goes l t (.checked pName uMaxSizeMB), .continues)
    | _, _ => .error (.badCall t)
  | s, .construct t env =>
    match s.phase t with
    | .checked pName uMaxSizeMB =>
      match s.lib.createObject t pName uMaxSizeMB env with
      | .error f => .error (.library f)
      | .ok (.error what, l) => .ok (s.goes l t .idle, .threw what)
      | .ok (.ok none, l) => .ok (s.goes l t .idle, .returned none)
      | .ok (.ok (some a), l) => .ok (s.goes l t (.constructed pName a), .continues)
    | _ => .error (.badCall t)
  | s, .emplace t env =>
    match s.phase t with
    | .constructed pName pAllocator =>
      match s.lib.createEmplace t pName pAllocator env with
      | .error f => .error (.library f)
      | .ok (none, l) => .ok (s.goes l t .idle, .returned none)
      | .ok (some a, l) =>
        .ok ({ s.goes l t .idle with granted := s.granted ++ [(pName, a)] }, .returned (some a))
    | _ => .error (.badCall t)
  | s, .destroy t pAllocator env =>
    match s.phase t with
    | .idle =>
      match s.lib.lldkDestroyAllocator t pAllocator env with
      | .error f => .error (.library f)
      | .ok (.error what, l) => .ok ({ s with lib := l }, .threw what)
      | .ok (.ok (), l) =>
        .ok ({ s with
          lib := l
          granted := s.granted.filter fun e => some e.2 ≠ pAllocator }, .destroyed)
    | _ => .error (.badCall t)
  | s, .singleton t env =>
    match s.phase t with
    | .idle =>
      match s.lib.lldkGetAllocatorSingleton t env with
      | .error f => .error (.library f)
      | .ok (.error what, l) => .ok ({ s with lib := l }, .threw what)
      | .ok (.ok q, l) => .ok ({ s with lib := l }, .returned q)
    | _ => .error (.badCall t)

/-- How a call that came to its end shows. -/
def outcome : Except String (Option Nat) → CreateOut
  | .error what => .threw what
  | .ok q => .returned q

theorem goes_idle {s s' : Creations} {t : Tid} {phase : Phase} (ht : s.phase t = .idle)
    (hs : s'.phase = Function.update s.phase t phase) (l : Library) :
    (s'.goes l t .idle).phase = s.phase := by
  show Function.update s'.phase t .idle = s.phase
  rw [hs, Function.update_idem, ← ht, Function.update_eq_self]

/-- **The parts are the function.** On a thread that is not in a call, the parts of one call with
no other thread between them do what `lldkCreateAllocator` does. -/
theorem lldkCreateAllocator_steps {s : Creations} {t : Tid} (ht : s.phase t = .idle)
    {pName : Option String} {uMaxSizeMB : UInt64} {env : CallEnv}
    {r : Except String (Option Nat)} {l : Library}
    (h : s.lib.lldkCreateAllocator t pName uMaxSizeMB env = .ok (r, l)) :
    ∃ parts s' outs, parts <+: [.check t pName uMaxSizeMB env, .construct t env, .emplace t env] ∧
      run createStep s parts = .ok (s', outs) ∧ s'.lib = l ∧ s'.phase = s.phase ∧
      outs.getLast? = some (outcome r) := by
  cases pName with
  | none =>
    cases h
    refine ⟨[.check t none uMaxSizeMB env],
      { s with lib := s.lib.lldkSetErrorCode t .kInvalidParam },
      [.returned none], ⟨_, rfl⟩, ?_, rfl, rfl, rfl⟩
    simp only [run, createStep, ht]
  | some name =>
    unfold lldkCreateAllocator at h
    rcases hc : s.lib.createCheck t name env with ⟨what | _ | _, l₁⟩
    · simp only [hc] at h
      cases h
      refine ⟨[.check t (some name) uMaxSizeMB env], { s with lib := l }, [.threw what],
        ⟨_, rfl⟩, ?_, rfl, rfl, rfl⟩
      simp only [run, createStep, ht, hc]
    · simp only [hc] at h
      cases h
      refine ⟨[.check t (some name) uMaxSizeMB env], { s with lib := l }, [.returned none],
        ⟨_, rfl⟩, ?_, rfl, rfl, rfl⟩
      simp only [run, createStep, ht, hc]
    · simp only [hc] at h
      have hcheck : createStep s (.check t (some name) uMaxSizeMB env) =
          .ok (s.goes l₁ t (.checked name uMaxSizeMB), .continues) := by
        simp only [createStep, ht, hc]
      obtain ⟨⟨r₂, l₂⟩, ho, h⟩ := bind_eq_ok.mp h
      rcases r₂ with what | _ | a
      · cases h
        refine ⟨[.check t (some name) uMaxSizeMB env, .construct t env],
          (s.goes l₁ t (.checked name uMaxSizeMB)).goes l t .idle, [.continues, .threw what],
          ⟨_, rfl⟩, ?_, rfl, goes_idle ht rfl l, rfl⟩
        rw [run_cons_ok hcheck]
        simp only [run, createStep, Creations.goes_lib, Creations.goes_phase_self, ho]
      · cases h
        refine ⟨[.check t (some name) uMaxSizeMB env, .construct t env],
          (s.goes l₁ t (.checked name uMaxSizeMB)).goes l t .idle, [.continues, .returned none],
          ⟨_, rfl⟩, ?_, rfl, goes_idle ht rfl l, rfl⟩
        rw [run_cons_ok hcheck]
        simp only [run, createStep, Creations.goes_lib, Creations.goes_phase_self, ho]
      · obtain ⟨⟨q, l₃⟩, he, h⟩ := bind_eq_ok.mp h
        cases h
        have hconstruct : createStep (s.goes l₁ t (.checked name uMaxSizeMB)) (.construct t env) =
            .ok ((s.goes l₁ t (.checked name uMaxSizeMB)).goes l₂ t (.constructed name a),
              .continues) := by
          simp only [createStep, Creations.goes_lib, Creations.goes_phase_self, ho]
        have hphase : ((s.goes l₁ t (.checked name uMaxSizeMB)).goes l₂ t
            (.constructed name a)).phase = Function.update s.phase t (.constructed name a) :=
          Function.update_idem ..
        cases q with
        | none =>
          refine ⟨_, ((s.goes l₁ t (.checked name uMaxSizeMB)).goes l₂ t
            (.constructed name a)).goes l₃ t .idle, [.continues, .continues, .returned none],
            List.prefix_refl _, ?_, rfl, goes_idle ht hphase l₃, rfl⟩
          rw [run_cons_ok hcheck, run_cons_ok hconstruct]
          simp only [run, createStep, Creations.goes_lib, Creations.goes_phase_self, he]
        | some a' =>
          refine ⟨_, { ((s.goes l₁ t (.checked name uMaxSizeMB)).goes l₂ t
            (.constructed name a)).goes l₃ t .idle with granted := s.granted ++ [(name, a')] },
            [.continues, .continues, .returned (some a')],
            List.prefix_refl _, ?_, rfl, goes_idle ht hphase l₃, rfl⟩
          rw [run_cons_ok hcheck, run_cons_ok hconstruct]
          simp only [run, createStep, Creations.goes_lib, Creations.goes_phase_self, he]
          rfl

end Lldk
