import Mathlib.Logic.Function.Basic
import Lldk.Lib.Trace

/-!
Threads that share a state and lock mutexes.

* `Prog` is the code of a thread: actions on the shared state, each of them atomic, and mutexes
  locked and unlocked between them. `lockGuard` holds a mutex for a scope.
* `alone` runs a program with no other thread around; `alone_bind`, `alone_attempt` and
  `alone_lockGuard` compute it.
* `threadStep` lets one thread start a call or take its next step. A mutex is granted when nobody
  holds it, and a thread that asks for one that is held waits; `run_of_acts` is the run of a
  thread that only acts.
-/

namespace Lib.Threads

open Lib.Trace

variable {ι L σ ℓ α β γ C ε : Type}

/-- The code of a thread, over mutexes `L` and a shared state `σ`; `ℓ` labels the actions. -/
inductive Prog (L σ ℓ α : Type)
  | ret (a : α)
  /-- the thread crashes -/
  | fault
  | lock (m : L) (k : Prog L σ ℓ α)
  | unlock (m : L) (k : Prog L σ ℓ α)
  /-- the state becomes `f s`, and the thread goes on with what it saw -/
  | act (l : ℓ) (f : σ → σ) (k : σ → Prog L σ ℓ α)

namespace Prog

def bind : Prog L σ ℓ α → (α → Prog L σ ℓ β) → Prog L σ ℓ β
  | .ret a, q => q a
  | .fault, _ => .fault
  | .lock m k, q => .lock m (k.bind q)
  | .unlock m k, q => .unlock m (k.bind q)
  | .act l f k, q => .act l f fun s => (k s).bind q

instance : Monad (Prog L σ ℓ) where
  pure := .ret
  bind := bind

theorem bind_assoc (p : Prog L σ ℓ α) (q : α → Prog L σ ℓ β) (r : β → Prog L σ ℓ γ) :
    (p >>= q) >>= r = p >>= fun a => q a >>= r := by
  show (p.bind q).bind r = p.bind fun a => (q a).bind r
  induction p with
  | ret a => rfl
  | fault => rfl
  | lock m k ih => exact congrArg (Prog.lock m) ih
  | unlock m k ih => exact congrArg (Prog.unlock m) ih
  | act l f k ih => exact congrArg (Prog.act l f) (funext ih)

/-- One atomic action that may crash the thread. -/
def attempt (l : ℓ) (f : σ → Except ε (α × σ)) : Prog L σ ℓ α :=
  .act l
    (fun s =>
      match f s with
      | .ok r => r.2
      | .error _ => s)
    fun s =>
      match f s with
      | .ok r => .ret r.1
      | .error _ => .fault

/-- `p` in the scope of a lock guard. -/
def lockGuard (m : L) (p : Prog L σ ℓ α) : Prog L σ ℓ α :=
  .lock m (p.bind fun a => .unlock m (.ret a))

/-- The run of a program when every mutex is granted and nothing comes between. -/
def alone : Prog L σ ℓ α → σ → Option (α × σ)
  | .ret a, s => some (a, s)
  | .fault, _ => none
  | .lock _ k, s => k.alone s
  | .unlock _ k, s => k.alone s
  | .act _ f k, s => (k s).alone (f s)

@[simp] theorem alone_pure (a : α) (s : σ) :
    (pure a : Prog L σ ℓ α).alone s = some (a, s) := rfl

@[simp] theorem alone_bind (p : Prog L σ ℓ α) (q : α → Prog L σ ℓ β) (s : σ) :
    (p >>= q).alone s = (p.alone s).bind fun r => (q r.1).alone r.2 := by
  show (p.bind q).alone s = _
  induction p generalizing s with
  | ret a => rfl
  | fault => rfl
  | lock m k ih => exact ih s
  | unlock m k ih => exact ih s
  | act l f k ih => exact ih s (f s)

@[simp] theorem alone_attempt (l : ℓ) (f : σ → Except ε (α × σ)) (s : σ) :
    (attempt l f : Prog L σ ℓ α).alone s = (f s).toOption := by
  simp only [attempt, alone]
  cases f s <;> rfl

@[simp] theorem alone_lockGuard (m : L) (p : Prog L σ ℓ α) (s : σ) :
    (lockGuard m p).alone s = p.alone s := by
  show (p >>= fun a => .unlock m (.ret a)).alone s = _
  rw [alone_bind]
  cases p.alone s <;> rfl

/-- The mutex that the thread asks for next. -/
def wants : Prog L σ ℓ α → Option L
  | .lock m _ => some m
  | _ => none

/-- The label of the action that the thread takes next. -/
def acts : Prog L σ ℓ α → Option ℓ
  | .act l _ _ => some l
  | _ => none

end Prog

/-- The program `p` acts `n` times from `s`, which leaves the program `q` and the state `s'`. -/
inductive Acts : Nat → Prog L σ ℓ α → σ → Prog L σ ℓ α → σ → Prop
  | refl (p : Prog L σ ℓ α) (s : σ) : Acts 0 p s p s
  | act {n : Nat} {l : ℓ} {f : σ → σ} {k : σ → Prog L σ ℓ α} {s : σ} {q : Prog L σ ℓ α} {s' : σ}
    (h : Acts n (k s) (f s) q s') : Acts (n + 1) (.act l f k) s q s'

theorem Acts.trans {m n : Nat} {p q r : Prog L σ ℓ α} {s s' s'' : σ} (h : Acts m p s q s')
    (h' : Acts n q s' r s'') : Acts (m + n) p s r s'' := by
  induction h with
  | refl p s =>
    rw [Nat.zero_add]
    exact h'
  | @act m l f k s q s' _ ih =>
    rw [Nat.add_right_comm]
    exact .act (ih h')

theorem Acts.bind {n : Nat} {p p' : Prog L σ ℓ α} {s s' : σ} (h : Acts n p s p' s')
    (q : α → Prog L σ ℓ β) : Acts n (p >>= q) s (p' >>= q) s' := by
  induction h with
  | refl p s => exact .refl _ _
  | act _ ih => exact .act ih

theorem acts_attempt {l : ℓ} {f : σ → Except ε (α × σ)} {s s' : σ} {a : α}
    (h : f s = .ok (a, s')) (q : α → Prog L σ ℓ β) :
    Acts 1 (Prog.attempt l f >>= q) s (q a) s' := by
  apply Acts.act
  simp only [h]
  exact .refl _ _

/-- All threads: what they share, who holds which mutex, and what each has left to do. -/
structure Config (ι L σ ℓ α : Type) where
  shared : σ
  owner : L → Option ι
  progs : ι → Prog L σ ℓ α

/-- A thread starts a call, or takes its next step. -/
inductive Move (ι C : Type)
  | start (t : ι) (call : C)
  | go (t : ι)

/-- The thread that moves. -/
def Move.thread : Move ι C → ι
  | .start t _ => t
  | .go t => t

/-- Why a thread does not move. -/
inductive Halt
  | busy
  | idle
  | waits
  | crashed
  deriving DecidableEq, Repr

variable [DecidableEq ι] [DecidableEq L]

def threadStep (code : ι → C → Prog L σ ℓ α) :
    Step (Config ι L σ ℓ α) (Move ι C) Unit Halt
  | c, .start t call =>
    match c.progs t with
    | .ret _ => .ok ({ c with progs := Function.update c.progs t (code t call) }, ())
    | _ => .error .busy
  | c, .go t =>
    match c.progs t with
    | .ret _ => .error .idle
    | .fault => .error .crashed
    | .lock m k =>
      match c.owner m with
      | none =>
        .ok ({ c with
          owner := Function.update c.owner m (some t)
          progs := Function.update c.progs t k }, ())
      | some _ => .error .waits
    | .unlock m k =>
      .ok ({ c with
        owner := Function.update c.owner m none
        progs := Function.update c.progs t k }, ())
    | .act _ f k =>
      .ok ({ c with
        shared := f c.shared
        progs := Function.update c.progs t (k c.shared) }, ())

/-- A thread that acts needs nobody else. -/
theorem run_of_acts {code : ι → C → Prog L σ ℓ α} {n : Nat} {p q : Prog L σ ℓ α} {s s' : σ}
    (h : Acts n p s q s') {c : Config ι L σ ℓ α} {t : ι} (hs : c.shared = s)
    (hp : c.progs t = p) :
    run (threadStep code) c (List.replicate n (.go t)) =
      .ok (⟨s', c.owner, Function.update c.progs t q⟩, List.replicate n ()) := by
  induction h generalizing c with
  | refl p s =>
    subst hs hp
    rw [Function.update_eq_self]
    rfl
  | @act n l f k s q s' _ ih =>
    subst hs
    have hstep : threadStep code c (.go t) =
        .ok (⟨f c.shared, c.owner, Function.update c.progs t (k c.shared)⟩, ()) := by
      simp only [threadStep, hp]
    rw [List.replicate_succ, run_cons_ok hstep, ih rfl (Function.update_self ..)]
    simp only [Function.update_idem]
    rfl

/-- Nobody has called anything yet. -/
def Config.start (s : σ) : Config ι L σ ℓ Unit := ⟨s, fun _ => none, fun _ => .ret ()⟩

end Lib.Threads
