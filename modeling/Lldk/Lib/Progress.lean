import Mathlib.Logic.Hydra
import Lldk.Lib.LockOrder

/-!
Threads that follow a locking discipline get to the end of their calls.

* Each step of a thread leaves a smaller program (`next_wf`), and a step of any of finitely many
  threads makes the multiset of their programs smaller (`cutExpand_go`).
* Along a chain of waiting threads the ranks rise, so when the ranks are bounded someone at its end
  can move: `Follows.some_goes`.
* `Follows.ended_of_stuck`: where nobody can move, every call has returned and every mutex is
  free, or a thread has crashed.
* `turns` lets the threads take their turns; who cannot move lets its turn pass.
  `Follows.ended_of_fair`: when every thread that is in a call gets its turn again and again,
  all of them return, or one crashes.
-/

namespace Lib.LockOrder

open Lib.Trace Lib.Threads

variable {ι L σ ℓ α C : Type}

/-! ## Programs get smaller -/

/-- A step of the program `p` leaves the program `q`. -/
inductive Next : Prog L σ ℓ α → Prog L σ ℓ α → Prop
  | lock {m : L} {k : Prog L σ ℓ α} : Next k (.lock m k)
  | unlock {m : L} {k : Prog L σ ℓ α} : Next k (.unlock m k)
  | act {l : ℓ} {f : σ → σ} {k : σ → Prog L σ ℓ α} (s : σ) : Next (k s) (.act l f k)

theorem next_wf : WellFounded (Next : Prog L σ ℓ α → Prog L σ ℓ α → Prop) := by
  refine ⟨fun p => ?_⟩
  induction p with
  | ret a => exact ⟨_, fun q h => by cases h⟩
  | fault => exact ⟨_, fun q h => by cases h⟩
  | lock m k ih =>
    refine ⟨_, fun q h => ?_⟩
    cases h
    exact ih
  | unlock m k ih =>
    refine ⟨_, fun q h => ?_⟩
    cases h
    exact ih
  | act l f k ih =>
    refine ⟨_, fun q h => ?_⟩
    cases h with
    | act s => exact ih s

section Measure

variable {c c' : Config ι L σ ℓ α} {A : Finset ι} {t : ι}

instance (p : Prog L σ ℓ α) : Decidable (∃ a, p = .ret a) :=
  match p with
  | .ret a => isTrue ⟨a, rfl⟩
  | .fault => isFalse fun ⟨_, h⟩ => by cases h
  | .lock _ _ => isFalse fun ⟨_, h⟩ => by cases h
  | .unlock _ _ => isFalse fun ⟨_, h⟩ => by cases h
  | .act _ _ _ => isFalse fun ⟨_, h⟩ => by cases h

/-- Only threads of `A` are in a call. -/
def BusyIn (A : Finset ι) (c : Config ι L σ ℓ α) : Prop := ∀ t, t ∉ A → ∃ a, c.progs t = .ret a

theorem BusyIn.ret_of_mem (hA : BusyIn A c) (h : ∀ t ∈ A, ∃ a, c.progs t = .ret a)
    (t : ι) : ∃ a, c.progs t = .ret a := by
  by_contra hno
  exact hno (hA t fun ht => hno (h t ht))

theorem BusyIn.mem_of_next (hA : BusyIn A c) {q : Prog L σ ℓ α} (h : Next q (c.progs t)) :
    t ∈ A := by
  by_contra ht
  obtain ⟨a, ha⟩ := hA t ht
  rw [ha] at h
  cases h

variable [DecidableEq ι]

theorem BusyIn.update (hA : BusyIn A c) (ht : t ∈ A) {q : Prog L σ ℓ α}
    (hprogs : c'.progs = Function.update c.progs t q) : BusyIn A c' := by
  intro u hu
  have hne : u ≠ t := fun he => hu (he ▸ ht)
  rw [hprogs, Function.update_of_ne hne]
  exact hA u hu

/-- The programs of the threads of `A`, with those of a thread of `A` in front. -/
theorem map_progs (ht : t ∈ A) (progs : ι → Prog L σ ℓ α) :
    A.val.map progs = {progs t} + (A.erase t).val.map progs := by
  rw [Multiset.singleton_add, ← Multiset.map_cons, Finset.erase_val, Multiset.cons_erase ht]

variable [DecidableEq L] {code : ι → C → Prog L σ ℓ α}

theorem go_next (h : threadStep code c (.go t) = .ok (c', ())) :
    ∃ q, Next q (c.progs t) ∧ c'.progs = Function.update c.progs t q := by
  simp only [threadStep] at h
  split at h
  · cases h
  · cases h
  · rename_i m k hp
    split at h
    · cases h
      exact ⟨k, by rw [hp]; exact .lock, rfl⟩
    · cases h
  · rename_i m k hp
    cases h
    exact ⟨k, by rw [hp]; exact .unlock, rfl⟩
  · rename_i l f k hp
    cases h
    exact ⟨k c.shared, by rw [hp]; exact .act _, rfl⟩

theorem cutExpand_go (hA : BusyIn A c) (h : threadStep code c (.go t) = .ok (c', ())) :
    BusyIn A c' ∧ Relation.CutExpand Next (A.val.map c'.progs) (A.val.map c.progs) := by
  obtain ⟨q, hq, hprogs⟩ := go_next h
  have ht := hA.mem_of_next hq
  refine ⟨hA.update ht hprogs, ?_⟩
  have hothers : (A.erase t).val.map c'.progs = (A.erase t).val.map c.progs := by
    refine Multiset.map_congr rfl fun u hu => ?_
    rw [hprogs, Function.update_of_ne (Finset.ne_of_mem_erase hu)]
  rw [map_progs ht c'.progs, map_progs ht c.progs, hothers, hprogs, Function.update_self]
  exact Relation.cutExpand_single_add hq _

/-- Only threads that have moved are in a call. -/
theorem busyIn_run (hA : BusyIn A c) {moves : List (Move ι C)} {outs : List Unit}
    (hmoves : ∀ move ∈ moves, move.thread ∈ A)
    (h : run (threadStep code) c moves = .ok (c', outs)) : BusyIn A c' := by
  induction moves generalizing c outs with
  | nil =>
    cases h
    exact hA
  | cons move moves ih =>
    obtain ⟨c₁, b, bs, hs, hrun, -⟩ := run_cons_eq_ok.mp h
    have hrest : ∀ move ∈ moves, move.thread ∈ A := fun move hin =>
      hmoves move (List.mem_cons_of_mem _ hin)
    cases move with
    | start t call =>
      have ht : t ∈ A := hmoves _ List.mem_cons_self
      simp only [threadStep] at hs
      split at hs
      · cases hs
        exact ih (hA.update ht rfl) hrest hrun
      · cases hs
    | go t => exact ih (cutExpand_go hA hs).1 hrest hrun

/-- Finitely many threads are in a call. -/
theorem exists_busyIn (hA : BusyIn ∅ c) {moves : List (Move ι C)} {outs : List Unit}
    (h : run (threadStep code) c moves = .ok (c', outs)) : ∃ A, BusyIn A c' :=
  ⟨(moves.map Move.thread).toFinset, busyIn_run (fun t _ => hA t (Finset.notMem_empty t))
    (fun _ hin => List.mem_toFinset.mpr (List.mem_map_of_mem hin)) h⟩

end Measure

/-! ## Someone can move -/

section Progress

variable {D : Discipline ι L σ ℓ} {c : Config ι L σ ℓ α} {t : ι} {m : L}

/-- A thread that holds a mutex is in a call. -/
theorem Follows.not_ret (F : Follows D c) (h : c.owner m = some t) (a : α) :
    c.progs t ≠ .ret a := by
  intro ha
  obtain ⟨held, s, -, howner, -, hwp⟩ := F.each t
  rw [ha] at hwp
  have hnil : held = [] := hwp
  have hmem := (howner m).mp h
  rw [hnil] at hmem
  cases hmem

/-- Every call has returned, and every mutex is free. -/
structure AllReturned (c : Config ι L σ ℓ α) : Prop where
  progs : ∀ t, ∃ a, c.progs t = .ret a
  owner : ∀ m, c.owner m = none

/-- All calls have returned, or a thread has crashed. -/
def Ended (c : Config ι L σ ℓ α) : Prop := AllReturned c ∨ ∃ u, c.progs u = .fault

variable [DecidableEq ι] [DecidableEq L] {code : ι → C → Prog L σ ℓ α}

theorem stuck_of_ret (h : ∀ t, ∃ a, c.progs t = .ret a) (u : ι) (r : Config ι L σ ℓ α × Unit) :
    threadStep code c (.go u) ≠ .ok r := by
  obtain ⟨a, ha⟩ := h u
  simp [threadStep, ha]

theorem goes_lock {k : Prog L σ ℓ α} (ht : c.progs t = .lock m k) (hm : c.owner m = none) :
    ∃ r, threadStep code c (.go t) = .ok r := by
  simp only [threadStep, ht, hm]
  exact ⟨_, rfl⟩

theorem goes_unlock {k : Prog L σ ℓ α} (ht : c.progs t = .unlock m k) :
    ∃ r, threadStep code c (.go t) = .ok r := by
  simp only [threadStep, ht]
  exact ⟨_, rfl⟩

theorem goes_act {l : ℓ} {f : σ → σ} {k : σ → Prog L σ ℓ α} (ht : c.progs t = .act l f k) :
    ∃ r, threadStep code c (.go t) = .ok r := by
  simp only [threadStep, ht]
  exact ⟨_, rfl⟩

/-- Somebody has crashed, or can take its next step. -/
def SomeoneGoes (code : ι → C → Prog L σ ℓ α) (c : Config ι L σ ℓ α) : Prop :=
  ∃ u, c.progs u = .fault ∨ ∃ r, threadStep code c (.go u) = .ok r

/-- The thread that holds what is wanted goes on, or wants a mutex that ranks above it. -/
theorem Follows.goes_of_wants {N : Nat} (hN : ∀ m, D.rank m < N) (F : Follows D c)
    (hm : Wants c t m) : SomeoneGoes code c := by
  generalize hn : N - D.rank m = n
  induction n using Nat.strong_induction_on generalizing t m with
  | _ n ih =>
    obtain ⟨k, hk⟩ := wants_eq hm
    cases howner : c.owner m with
    | none => exact ⟨t, Or.inr (goes_lock hk howner)⟩
    | some u =>
      cases hu : c.progs u with
      | ret a => exact absurd hu (F.not_ret howner a)
      | fault => exact ⟨u, Or.inl hu⟩
      | lock m' k' =>
        have hlt := F.lock hu m howner
        have hN' := hN m'
        have hw : Wants c u m' := by
          unfold Wants
          rw [hu]
          rfl
        exact ih (N - D.rank m') (by omega) hw rfl
      | unlock m' k' => exact ⟨u, Or.inr (goes_unlock hu)⟩
      | act l f k' => exact ⟨u, Or.inr (goes_act hu)⟩

/-- **Progress.** -/
theorem Follows.some_goes {N : Nat} (hN : ∀ m, D.rank m < N) (F : Follows D c)
    (ht : ∀ a, c.progs t ≠ .ret a) : SomeoneGoes code c := by
  cases hp : c.progs t with
  | ret a => exact absurd hp (ht a)
  | fault => exact ⟨t, Or.inl hp⟩
  | lock m k =>
    refine F.goes_of_wants hN (t := t) (m := m) ?_
    unfold Wants
    rw [hp]
    rfl
  | unlock m k => exact ⟨t, Or.inr (goes_unlock hp)⟩
  | act l f k => exact ⟨t, Or.inr (goes_act hp)⟩

/-- **The end of a schedule.** -/
theorem Follows.ended_of_stuck {N : Nat} (hN : ∀ m, D.rank m < N) (F : Follows D c)
    (hstuck : ∀ u r, threadStep code c (.go u) ≠ .ok r) : Ended c := by
  by_cases hall : ∀ t, ∃ a, c.progs t = .ret a
  · refine Or.inl ⟨hall, fun m => ?_⟩
    cases howner : c.owner m with
    | none => rfl
    | some t =>
      obtain ⟨a, ha⟩ := hall t
      exact absurd ha (F.not_ret howner a)
  · obtain ⟨t, ht⟩ := not_forall.mp hall
    obtain ⟨u, hu | ⟨r, hr⟩⟩ := F.some_goes hN (t := t)
      fun a ha => ht ⟨a, ha⟩
    · exact Or.inr ⟨u, hu⟩
    · exact absurd hr (hstuck u r)

/-! ## Taking turns -/

/-- Thread `t` takes its next step, or lets its turn pass when it cannot. -/
def goOrPass (code : ι → C → Prog L σ ℓ α) (c : Config ι L σ ℓ α) (t : ι) : Config ι L σ ℓ α :=
  match threadStep code c (.go t) with
  | .ok r => r.1
  | .error _ => c

/-- What the first `n` turns lead to. -/
def turns (code : ι → C → Prog L σ ℓ α) (c : Config ι L σ ℓ α) (ts : Nat → ι) :
    Nat → Config ι L σ ℓ α
  | 0 => c
  | n + 1 => goOrPass code (turns code c ts n) (ts n)

/-- Every thread that is in a call gets its turn again and again. -/
def Fair (c : Config ι L σ ℓ α) (ts : Nat → ι) : Prop :=
  ∀ t, (∀ a, c.progs t ≠ .ret a) → ∀ n, ∃ m, n ≤ m ∧ ts m = t

theorem goOrPass_ok {r : Config ι L σ ℓ α × Unit} (h : threadStep code c (.go t) = .ok r) :
    goOrPass code c t = r.1 := by
  simp only [goOrPass, h]

theorem goOrPass_error {e : Halt} (h : threadStep code c (.go t) = .error e) :
    goOrPass code c t = c := by
  simp only [goOrPass, h]

theorem turns_add (code : ι → C → Prog L σ ℓ α) (c : Config ι L σ ℓ α) (ts : Nat → ι) (k n : Nat) :
    turns code c ts (k + n) = turns code (turns code c ts k) (fun i => ts (k + i)) n := by
  induction n with
  | zero => rfl
  | succ n ih => exact congrArg (fun c => goOrPass code c (ts (k + n))) ih

/-- Turns that pass. -/
theorem turns_of_passing {ts : Nat → ι} {k : Nat}
    (h : ∀ j, j < k → ∀ r, threadStep code c (.go (ts j)) ≠ .ok r) : turns code c ts k = c := by
  induction k with
  | zero => rfl
  | succ k ih =>
    have hpass : turns code c ts k = c := ih fun j hj => h j (Nat.lt_succ_of_lt hj)
    change goOrPass code (turns code c ts k) (ts k) = c
    rw [hpass]
    cases hgo : threadStep code c (.go (ts k)) with
    | error e => exact goOrPass_error hgo
    | ok r => exact absurd hgo (h k (Nat.lt_succ_self k) r)

theorem BusyIn.turns {A : Finset ι} (hA : BusyIn A c) (ts : Nat → ι) (n : Nat) :
    BusyIn A (LockOrder.turns code c ts n) := by
  induction n with
  | zero => exact hA
  | succ n ih =>
    change BusyIn A (goOrPass code (LockOrder.turns code c ts n) (ts n))
    cases hgo : threadStep code (LockOrder.turns code c ts n) (.go (ts n)) with
    | error e =>
      rw [goOrPass_error hgo]
      exact ih
    | ok r =>
      rw [goOrPass_ok hgo]
      exact (cutExpand_go ih hgo).1

/-- Up to the first turn of a thread that can move, nothing changes. -/
theorem exists_first_go {ts : Nat → ι} {m : Nat}
    (h : ∃ r, threadStep code c (.go (ts m)) = .ok r) :
    ∃ k c₁, turns code c ts k = c ∧ threadStep code c (.go (ts k)) = .ok (c₁, ()) ∧
      turns code c ts (k + 1) = c₁ := by
  classical
  have hex : ∃ k, ∃ r, threadStep code c (.go (ts k)) = .ok r := ⟨m, h⟩
  obtain ⟨⟨c₁, ⟨⟩⟩, hgo⟩ := Nat.find_spec hex
  have hpass : turns code c ts (Nat.find hex) = c :=
    turns_of_passing fun j hj r hr => Nat.find_min hex hj ⟨r, hr⟩
  refine ⟨Nat.find hex, c₁, hpass, hgo, ?_⟩
  change goOrPass code (turns code c ts (Nat.find hex)) (ts (Nat.find hex)) = c₁
  rw [hpass, goOrPass_ok hgo]

theorem not_ret_of_go {r : Config ι L σ ℓ α × Unit} (h : threadStep code c (.go t) = .ok r)
    (a : α) : c.progs t ≠ .ret a := by
  obtain ⟨c', ⟨⟩⟩ := r
  obtain ⟨q, hq, -⟩ := go_next h
  intro ha
  rw [ha] at hq
  cases hq

/-- A schedule stays fair: nobody else gets into a call. -/
theorem Fair.drop {ts : Nat → ι} {k : Nat} {c₁ : Config ι L σ ℓ α} (hfair : Fair c ts)
    (h : threadStep code c (.go (ts k)) = .ok (c₁, ())) : Fair c₁ fun i => ts (k + 1 + i) := by
  intro t ht n
  have hbusy : ∀ a, c.progs t ≠ .ret a := by
    by_cases he : t = ts k
    · subst he
      exact not_ret_of_go h
    · obtain ⟨q, -, hprogs⟩ := go_next h
      rw [hprogs, Function.update_of_ne he] at ht
      exact ht
  obtain ⟨m, hm, hts⟩ := hfair t hbusy (k + 1 + n)
  refine ⟨m - (k + 1), by omega, ?_⟩
  change ts (k + 1 + (m - (k + 1))) = t
  rw [Nat.add_sub_of_le (by omega), hts]

/-- **The end of a fair schedule.** -/
theorem Follows.ended_of_fair {N : Nat} (hN : ∀ m, D.rank m < N) (hcode : Disciplined D code)
    {A : Finset ι} (hA : BusyIn A c) (F : Follows D c) {ts : Nat → ι} (hfair : Fair c ts)
    (hmeets : ∀ n, Respects D (turns code c ts n) (.go (ts n) : Move ι C)) :
    ∃ n, Ended (turns code c ts n) := by
  generalize hM : A.val.map c.progs = M
  induction M using next_wf.cutExpand.induction generalizing c ts with
  | _ M ih =>
    subst hM
    by_cases hstuck : ∀ u r, threadStep code c (.go u) ≠ .ok r
    · exact ⟨0, F.ended_of_stuck hN hstuck⟩
    obtain ⟨u, hu⟩ := not_forall.mp hstuck
    obtain ⟨⟨c', ⟨⟩⟩, hgo⟩ := not_forall_not.mp hu
    obtain ⟨m, -, rfl⟩ := hfair u (not_ret_of_go hgo) 0
    obtain ⟨k, c₁, hpass, hfirst, hnext⟩ := exists_first_go ⟨_, hgo⟩
    obtain ⟨hA₁, hless⟩ := cutExpand_go hA hfirst
    have hk := hmeets k
    rw [hpass] at hk
    have F₁ : Follows D c₁ := follows_step hcode F hk hfirst
    have hrest : ∀ n, turns code c ts (k + 1 + n) =
        turns code c₁ (fun i => ts (k + 1 + i)) n := by
      intro n
      rw [turns_add, hnext]
    obtain ⟨n, hn⟩ := ih _ hless hA₁ F₁ (hfair.drop hfirst)
      (fun n => hrest n ▸ hmeets (k + 1 + n)) rfl
    exact ⟨k + 1 + n, by rw [hrest]; exact hn⟩

end Progress

end Lib.LockOrder
