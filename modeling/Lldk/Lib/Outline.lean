import Lldk.Lib.Threads

/-!
Threads at the places of their code.

* `Next` is what a thread does next at a place and where it stands then. An `Outline` says it for
  every place of every thread, with the code that is left there and the mutexes that are held there.
* `Stands O c place`: all threads of `c` stand at their places, and hold what is held there.
  `Stands.go` and `Stands.start` are the step rules, with `Next.Goes` for where a step gets to;
  `Stands.unique` is mutual exclusion.
* `HoldsOnly` is what is held where there is one mutex; `Stands.others_unlocked`: one thread at most
  is in its critical section.
* `callStep` is `threadStep` with the results of the calls as its outputs.
-/

namespace Lib.Threads

open Lib.Trace

variable {ι L σ ℓ α β γ C ε Φ : Type}

/-- What a thread does next, over the places `Φ`. -/
inductive Next (L σ ℓ α Φ : Type)
  | ret (a : α)
  | fault
  | lock (m : L) (φ : Φ)
  | unlock (m : L) (φ : Φ)
  | act (l : ℓ) (f : σ → σ) (k : σ → Φ)

namespace Next

/-- The program that does it and goes on with the code of the next place. -/
def prog (left : Φ → Prog L σ ℓ α) : Next L σ ℓ α Φ → Prog L σ ℓ α
  | .ret a => .ret a
  | .fault => .fault
  | .lock m φ => .lock m (left φ)
  | .unlock m φ => .unlock m (left φ)
  | .act l f k => .act l f fun s => left (k s)

/-- An action that may crash the thread. -/
def attempt (l : ℓ) (f : σ → Except ε (β × σ)) (k : β → Φ) (crashed : Φ) : Next L σ ℓ α Φ :=
  .act l
    (fun s =>
      match f s with
      | .ok r => r.2
      | .error _ => s)
    fun s =>
      match f s with
      | .ok r => k r.1
      | .error _ => crashed

/-- An action and the code after it, where the code is that of the next places. -/
theorem prog_attempt {left : Φ → Prog L σ ℓ α} {crashed : Φ} {l : ℓ}
    {f : σ → Except ε (β × σ)} {k : β → Φ} {q : β → Prog L σ ℓ α} {p : Prog L σ ℓ α}
    (hp : p = Prog.attempt l f >>= q) (hcrashed : left crashed = .fault)
    (hq : ∀ s r, f s = .ok r → q r.1 = left (k r.1)) :
    p = (attempt l f k crashed).prog left := by
  subst hp
  refine congrArg (Prog.act l _) (funext fun s => ?_)
  dsimp only
  cases hf : f s with
  | error e => exact hcrashed.symm
  | ok r => exact hq s r hf

/-- At `φ` the mutexes `holds φ` are held, and at the next place what is left of them. -/
def Held (holds : Φ → L → Prop) (φ : Φ) : Next L σ ℓ α Φ → Prop
  | .ret _ => ∀ m, ¬ holds φ m
  | .fault => True
  | .lock m φ' => ∀ m', holds φ' m' ↔ m' = m ∨ holds φ m'
  | .unlock m φ' => holds φ m ∧ ∀ m', holds φ' m' ↔ m' ≠ m ∧ holds φ m'
  | .act _ _ k => ∀ s m, holds (k s) m ↔ holds φ m

theorem held_attempt {holds : Φ → L → Prop} {φ crashed : Φ} {l : ℓ} {f : σ → Except ε (β × σ)}
    {k : β → Φ} (hk : ∀ b m, holds (k b) m ↔ holds φ m)
    (hcrashed : ∀ m, holds crashed m ↔ holds φ m) :
    (attempt l f k crashed : Next L σ ℓ α Φ).Held holds φ := by
  intro s m
  dsimp only
  cases f s with
  | error e => exact hcrashed m
  | ok r => exact hk r.1 m

/-- Where a thread gets to with one step, and what becomes of the shared state. -/
inductive Goes (s : σ) : Next L σ ℓ α Φ → Φ → σ → Prop
  | lock {m : L} {φ : Φ} : Goes s (.lock m φ) φ s
  | unlock {m : L} {φ : Φ} : Goes s (.unlock m φ) φ s
  | act {l : ℓ} {f : σ → σ} {k : σ → Φ} : Goes s (.act l f k) (k s) (f s)

section Goes

variable {s s' : σ} {φ : Φ}

theorem goes_lock {m : L} {φ' : Φ} (h : Goes s (.lock m φ' : Next L σ ℓ α Φ) φ s') :
    φ = φ' ∧ s' = s := by
  cases h
  exact ⟨rfl, rfl⟩

theorem goes_unlock {m : L} {φ' : Φ} (h : Goes s (.unlock m φ' : Next L σ ℓ α Φ) φ s') :
    φ = φ' ∧ s' = s := by
  cases h
  exact ⟨rfl, rfl⟩

theorem goes_act {l : ℓ} {f : σ → σ} {k : σ → Φ}
    (h : Goes s (.act l f k : Next L σ ℓ α Φ) φ s') : φ = k s ∧ s' = f s := by
  cases h
  exact ⟨rfl, rfl⟩

/-- An action that may crash the thread: it succeeds, or the thread does crash. -/
theorem goes_attempt {l : ℓ} {f : σ → Except ε (β × σ)} {k : β → Φ} {crashed : Φ}
    (h : Goes s (attempt l f k crashed : Next L σ ℓ α Φ) φ s') :
    (∃ b, f s = .ok (b, s') ∧ φ = k b) ∨ ((∃ e, f s = .error e) ∧ φ = crashed ∧ s' = s) := by
  obtain ⟨rfl, rfl⟩ := goes_act h
  cases f s with
  | error e => exact Or.inr ⟨⟨e, rfl⟩, rfl, rfl⟩
  | ok r => exact Or.inl ⟨r.1, rfl, rfl⟩

/-- The end of the code, and the end of a crashed thread. -/
theorem not_goes_ret (a : α) : ¬ Goes s (.ret a : Next L σ ℓ α Φ) φ s' := nofun

theorem not_goes_fault : ¬ Goes s (.fault : Next L σ ℓ α Φ) φ s' := nofun

end Goes

end Next

/-- What a program has returned. -/
def Prog.result : Prog L σ ℓ α → Option α
  | .ret a => some a
  | _ => none

/-- The places of the threads `ι` in their code. -/
structure Outline (ι L σ ℓ α Φ : Type) where
  next : ι → Φ → Next L σ ℓ α Φ
  left : ι → Φ → Prog L σ ℓ α
  holds : Φ → L → Prop
  left_eq : ∀ t φ, left t φ = (next t φ).prog (left t)
  held : ∀ t φ, (next t φ).Held holds φ

structure Stands (O : Outline ι L σ ℓ α Φ) (c : Config ι L σ ℓ α) (place : ι → Φ) : Prop where
  progs : ∀ t, c.progs t = O.left t (place t)
  owner : ∀ m t, c.owner m = some t ↔ O.holds (place t) m

variable {O : Outline ι L σ ℓ α Φ} {c c' : Config ι L σ ℓ α} {place : ι → Φ} {t : ι}

/-- **Mutual exclusion.** -/
theorem Stands.unique (S : Stands O c place) {t' : ι} {m : L} (h : O.holds (place t) m)
    (h' : O.holds (place t') m) : t = t' := by
  have ht : c.owner m = some t := (S.owner m t).mpr h
  rw [(S.owner m t').mpr h'] at ht
  exact (Option.some.inj ht).symm

theorem Stands.prog_eq (S : Stands O c place) (t : ι) :
    c.progs t = (O.next t (place t)).prog (O.left t) :=
  (S.progs t).trans (O.left_eq t (place t))

/-- A thread that has returned stands where its code ends. -/
theorem Stands.next_of_result (S : Stands O c place) {a : α}
    (h : (c.progs t).result = some a) : O.next t (place t) = .ret a := by
  rw [S.prog_eq t] at h
  cases hn : O.next t (place t) with
  | ret b =>
    rw [hn] at h
    cases h
    rfl
  | _ =>
    rw [hn] at h
    cases h

variable [DecidableEq ι]

/-- One thread moves on to `φ`, and the others hold what they held. -/
theorem Stands.move (S : Stands O c place) {φ : Φ}
    (hprogs : c'.progs = Function.update c.progs t (O.left t φ))
    (hself : ∀ m, c'.owner m = some t ↔ O.holds φ m)
    (hothers : ∀ m t', t' ≠ t → (c'.owner m = some t' ↔ c.owner m = some t')) :
    Stands O c' (Function.update place t φ) where
  progs := by
    intro t'
    rw [hprogs]
    by_cases ht : t' = t
    · subst ht
      rw [Function.update_self, Function.update_self]
    · rw [Function.update_of_ne ht, Function.update_of_ne ht, S.progs t']
  owner := by
    intro m t'
    by_cases ht : t' = t
    · subst ht
      rw [Function.update_self]
      exact hself m
    · rw [Function.update_of_ne ht]
      exact (hothers m t' ht).trans (S.owner m t')

theorem Stands.act (S : Stands O c place) {l : ℓ} {f : σ → σ} {k : σ → Φ}
    (hn : O.next t (place t) = .act l f k)
    (hc : c' = { c with
      shared := f c.shared
      progs := Function.update c.progs t (O.left t (k c.shared)) }) :
    Stands O c' (Function.update place t (k c.shared)) := by
  have hheld := O.held t (place t)
  rw [hn] at hheld
  subst hc
  exact S.move rfl (fun m => (S.owner m t).trans (hheld c.shared m).symm) fun _ _ _ => Iff.rfl

variable [DecidableEq L]

theorem Stands.lock (S : Stands O c place) {m : L} {φ : Φ}
    (hn : O.next t (place t) = .lock m φ) (hfree : c.owner m = none)
    (hc : c' = { c with
      owner := Function.update c.owner m (some t)
      progs := Function.update c.progs t (O.left t φ) }) :
    Stands O c' (Function.update place t φ) := by
  have hheld := O.held t (place t)
  rw [hn] at hheld
  subst hc
  refine S.move rfl (fun m' => ?_) fun m' t' ht => ?_
  · by_cases hm : m' = m
    · subst hm
      simp [hheld m']
    · simp [hheld m', hm, S.owner m' t]
  · by_cases hm : m' = m
    · subst hm
      simp [hfree, Ne.symm ht]
    · simp [hm]

theorem Stands.unlock (S : Stands O c place) {m : L} {φ : Φ}
    (hn : O.next t (place t) = .unlock m φ)
    (hc : c' = { c with
      owner := Function.update c.owner m none
      progs := Function.update c.progs t (O.left t φ) }) :
    Stands O c' (Function.update place t φ) := by
  have hheld := O.held t (place t)
  rw [hn] at hheld
  obtain ⟨hmine, hheld⟩ := hheld
  have howner : c.owner m = some t := (S.owner m t).mpr hmine
  subst hc
  refine S.move rfl (fun m' => ?_) fun m' t' ht => ?_
  · by_cases hm : m' = m
    · subst hm
      simp [hheld m']
    · simp [hheld m', hm, S.owner m' t]
  · by_cases hm : m' = m
    · subst hm
      simp [howner, Ne.symm ht]
    · simp [hm]

variable {code : ι → C → Prog L σ ℓ α}

/-- **A step** takes its thread to the next place. -/
theorem Stands.go (S : Stands O c place) {out : Unit}
    (h : threadStep code c (.go t) = .ok (c', out)) :
    ∃ φ, (O.next t (place t)).Goes c.shared φ c'.shared ∧
      Stands O c' (Function.update place t φ) := by
  have hprog := S.prog_eq t
  cases hn : O.next t (place t) with
  | ret a =>
    simp only [hn, Next.prog] at hprog
    simp only [threadStep, hprog] at h
    cases h
  | fault =>
    simp only [hn, Next.prog] at hprog
    simp only [threadStep, hprog] at h
    cases h
  | lock m φ =>
    simp only [hn, Next.prog] at hprog
    simp only [threadStep, hprog] at h
    split at h
    · rename_i hfree
      cases h
      exact ⟨φ, .lock, S.lock hn hfree rfl⟩
    · cases h
  | unlock m φ =>
    simp only [hn, Next.prog] at hprog
    simp only [threadStep, hprog] at h
    cases h
    exact ⟨φ, .unlock, S.unlock hn rfl⟩
  | act l f k =>
    simp only [hn, Next.prog] at hprog
    simp only [threadStep, hprog] at h
    cases h
    exact ⟨k c.shared, .act, S.act hn rfl⟩

/-- **A call** begins at the place of its code. -/
theorem Stands.start (S : Stands O c place) {call : C} {φ : Φ} (hcode : code t call = O.left t φ)
    (hfree : ∀ m, ¬ O.holds φ m) {out : Unit}
    (h : threadStep code c (.start t call) = .ok (c', out)) :
    (∃ a, O.next t (place t) = .ret a) ∧ c'.shared = c.shared ∧
      Stands O c' (Function.update place t φ) := by
  simp only [threadStep] at h
  split at h
  · rename_i a hp
    cases h
    have hret : O.next t (place t) = .ret a := S.next_of_result (by rw [hp]; rfl)
    have hheld := O.held t (place t)
    rw [hret] at hheld
    refine ⟨⟨a, hret⟩, rfl, S.move (by rw [hcode]) (fun m => ?_) fun _ _ _ => Iff.rfl⟩
    exact (S.owner m t).trans (iff_of_false (hheld m) (hfree m))
  · cases h

/-! ## One mutex -/

/-- The mutex `m₀` is held at the places that are `locked`, and no other is. -/
def HoldsOnly (m₀ : L) (locked : Φ → Bool) (φ : Φ) (m : L) : Prop := locked φ = true ∧ m = m₀

section OneMutex

omit [DecidableEq ι] [DecidableEq L]

variable {m₀ : L} {locked : Φ → Bool} {φ φ' : Φ}

theorem not_holdsOnly (h : locked φ = false) (m : L) : ¬ HoldsOnly m₀ locked φ m := by
  rintro ⟨hlocked, -⟩
  rw [h] at hlocked
  cases hlocked

theorem Next.held_lock (h : locked φ = false) (h' : locked φ' = true) :
    (Next.lock m₀ φ' : Next L σ ℓ α Φ).Held (HoldsOnly m₀ locked) φ := by
  intro m
  simp [HoldsOnly, h, h']

theorem Next.held_unlock (h : locked φ = true) (h' : locked φ' = false) :
    (Next.unlock m₀ φ' : Next L σ ℓ α Φ).Held (HoldsOnly m₀ locked) φ := by
  refine ⟨⟨h, rfl⟩, fun m => ?_⟩
  simp [HoldsOnly, h, h']

/-- One thread at most is in the critical section. -/
theorem Stands.others_unlocked (S : Stands O c place) (hO : O.holds = HoldsOnly m₀ locked)
    (ht : locked (place t) = true) {t' : ι} (hne : t' ≠ t) : locked (place t') = false := by
  apply eq_false_of_ne_true
  intro ht'
  refine hne (S.unique (m := m₀) ?_ ?_)
  · rw [hO]
    exact ⟨ht', rfl⟩
  · rw [hO]
    exact ⟨ht, rfl⟩

end OneMutex

/-! ## Results -/

def callStep (code : ι → C → Prog L σ ℓ α) :
    Step (Config ι L σ ℓ α) (Move ι C) (Option α) Halt
  | c, .start t call => (threadStep code c (.start t call)).map fun r => (r.1, none)
  | c, .go t => (threadStep code c (.go t)).map fun r => (r.1, (r.1.progs t).result)

theorem callStep_start {call : C} {out : Option α}
    (h : callStep code c (.start t call) = .ok (c', out)) :
    threadStep code c (.start t call) = .ok (c', ()) ∧ out = none := by
  obtain ⟨r, hs, he⟩ := map_eq_ok.mp h
  cases he
  exact ⟨hs, rfl⟩

theorem callStep_go {out : Option α} (h : callStep code c (.go t) = .ok (c', out)) :
    threadStep code c (.go t) = .ok (c', ()) ∧ out = (c'.progs t).result := by
  obtain ⟨r, hs, he⟩ := map_eq_ok.mp h
  cases he
  exact ⟨hs, rfl⟩

/-- The other threads stay where they are. -/
theorem progs_of_ne {move : Move ι C} {out : Unit} (h : threadStep code c move = .ok (c', out))
    {t' : ι} (ht : t' ≠ move.thread) : c'.progs t' = c.progs t' := by
  cases move with
  | start t call =>
    simp only [threadStep] at h
    split at h
    · cases h
      exact Function.update_of_ne ht ..
    · cases h
  | go t =>
    simp only [threadStep] at h
    split at h
    · cases h
    · cases h
    · split at h
      · cases h
        exact Function.update_of_ne ht ..
      · cases h
    · cases h
      exact Function.update_of_ne ht ..
    · cases h
      exact Function.update_of_ne ht ..

end Lib.Threads
