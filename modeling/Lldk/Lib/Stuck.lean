import Mathlib.Data.List.Nodup
import Lldk.Lib.Threads

/-!
Threads that ask for a mutex they hold.

* `AsksFor m`: the program only acts until it asks for `m`. `stuck_run`: a thread that holds `m` and
  asks for it stays in its call, and nobody else ever gets `m`.
* `Bracketed R m`: the program unlocks in reverse what it locks, and where an action at a site finds
  what `R` says, it goes on to ask for `m`. `Neat` is a program that ends with the mutexes it began
  with; there is a rule for each way to put programs together.
* `tidy_run`: when all code is neat, each thread of every run has a bracketed program left, over the
  mutexes it holds.
-/

namespace Lib.Threads

open Lib.Trace

variable {ι L σ ℓ α β C ε : Type}

/-! ## Programs -/

/-- The program only acts until it asks for `m`. -/
def AsksFor (m : L) : Prog L σ ℓ α → Prop
  | .ret _ => False
  | .fault => True
  | .lock m' _ => m' = m
  | .unlock _ _ => False
  | .act _ _ k => ∀ s, AsksFor m (k s)

theorem AsksFor.bind {m : L} {p : Prog L σ ℓ α} (h : AsksFor m p) (q : α → Prog L σ ℓ β) :
    AsksFor m (p >>= q) := by
  show AsksFor m (p.bind q)
  induction p with
  | ret a => exact h.elim
  | fault => trivial
  | lock m' k ih => exact h
  | unlock m' k ih => exact h.elim
  | act l f k ih => exact fun s => ih s (h s)

theorem asksFor_attempt {m : L} {l : ℓ} {f : σ → Except ε (α × σ)} {q : α → Prog L σ ℓ β}
    (h : ∀ a, AsksFor m (q a)) : AsksFor m (Prog.attempt l f >>= q) := by
  intro s
  cases hf : f s with
  | error e =>
    simp only [hf]
    trivial
  | ok r =>
    simp only [hf]
    exact h r.1

theorem asksFor_lockGuard (m : L) (p : Prog L σ ℓ α) : AsksFor m (Prog.lockGuard m p) := rfl

/-- The program, of a thread that holds `held`, ends with mutexes of which `Q` holds. -/
def Bracketed (R : ℓ → σ → Prop) (m : L) : Prog L σ ℓ α → List L → (List L → Prop) → Prop
  | .ret _, held, Q => Q held
  | .fault, _, _ => True
  | .lock m' k, held, Q => Bracketed R m k (m' :: held) Q
  | .unlock m' k, held, Q => ∃ rest, held = m' :: rest ∧ Bracketed R m k rest Q
  | .act l _ k, held, Q => ∀ s, (R l s → AsksFor m (k s)) ∧ Bracketed R m (k s) held Q

variable {R : ℓ → σ → Prop} {m : L}

theorem bracketed_bind {p : Prog L σ ℓ α} {q : α → Prog L σ ℓ β} {held : List L}
    {Q Q' : List L → Prop} (hp : Bracketed R m p held Q)
    (hq : ∀ a held, Q held → Bracketed R m (q a) held Q') :
    Bracketed R m (p.bind q) held Q' := by
  induction p generalizing held with
  | ret a => exact hq a held hp
  | fault => trivial
  | lock m' k ih => exact ih hp
  | unlock m' k ih =>
    obtain ⟨rest, he, h⟩ := hp
    exact ⟨rest, he, ih h⟩
  | act l f k ih => exact fun s => ⟨fun hs => ((hp s).1 hs).bind q, ih s (hp s).2⟩

/-- The program ends with the mutexes it began with. -/
def Neat (R : ℓ → σ → Prop) (m : L) (p : Prog L σ ℓ α) : Prop :=
  ∀ held, Bracketed R m p held (· = held)

theorem neat_pure (a : α) : Neat R m (pure a : Prog L σ ℓ α) := fun _ => rfl

theorem neat_fault : Neat R m (.fault : Prog L σ ℓ α) := fun _ => trivial

theorem neat_bind {p : Prog L σ ℓ α} {q : α → Prog L σ ℓ β} (hp : Neat R m p)
    (hq : ∀ a, Neat R m (q a)) : Neat R m (p >>= q) := by
  intro held
  refine bracketed_bind (hp held) ?_
  rintro a _ rfl
  exact hq a _

theorem neat_lockGuard {m' : L} {p : Prog L σ ℓ α} (hp : Neat R m p) :
    Neat R m (Prog.lockGuard m' p) := by
  intro held
  refine bracketed_bind (hp (m' :: held)) ?_
  rintro a _ rfl
  exact ⟨held, rfl, rfl⟩

/-- An action at a site where `R` holds of no state. -/
theorem neat_attempt {l : ℓ} {f : σ → Except ε (α × σ)} (hl : ∀ s, ¬ R l s) :
    Neat R m (Prog.attempt l f) := by
  refine fun held s => ⟨fun hs => absurd hs (hl s), ?_⟩
  cases hf : f s with
  | error e =>
    simp only [hf]
    trivial
  | ok r =>
    simp only [hf]
    rfl

/-- An action that looks, and what follows on it. -/
theorem neat_look {l : ℓ} {f : σ → Except ε (α × σ)} {q : α → Prog L σ ℓ β}
    (hl : ∀ s a, R l s → (f s).toOption.map Prod.fst = some a → AsksFor m (q a))
    (hq : ∀ a, Neat R m (q a)) : Neat R m (Prog.attempt l f >>= q) := by
  intro held s
  cases hf : f s with
  | error e =>
    simp only [hf]
    exact ⟨fun _ => trivial, trivial⟩
  | ok r =>
    simp only [hf]
    exact ⟨fun hs => hl s r.1 hs (by rw [hf]; rfl), hq r.1 held⟩

/-! ## Threads -/

variable {c c' : Config ι L σ ℓ α} {t : ι} {moves : List (Move ι C)} {outs : List Unit}

/-- Every thread has a bracketed program left. What holds where it looks may depend on the
thread. -/
structure Tidy (R : ι → ℓ → σ → Prop) (m : L) (c : Config ι L σ ℓ α) : Prop where
  each : ∀ t, ∃ held, held.Nodup ∧ (∀ m', c.owner m' = some t ↔ m' ∈ held) ∧
    Bracketed (R t) m (c.progs t) held (· = [])

variable {R : ι → ℓ → σ → Prop}

theorem tidy_start (s : σ) : Tidy R m (Config.start s : Config ι L σ ℓ Unit) :=
  ⟨fun _ => ⟨[], List.nodup_nil, fun _ => ⟨nofun, nofun⟩, rfl⟩⟩

/-- Thread `t` holds `m` and is about to ask for it again. -/
structure Stuck (m : L) (t : ι) (c : Config ι L σ ℓ α) : Prop where
  owner : c.owner m = some t
  asks : AsksFor m (c.progs t)

variable [DecidableEq ι]

/-- One thread changes its program and its mutexes. -/
theorem tidy_update (h : Tidy R m c) {p : Prog L σ ℓ α}
    (hprogs : c'.progs = Function.update c.progs t p)
    (hothers : ∀ u, u ≠ t → ∀ m', c'.owner m' = some u ↔ c.owner m' = some u)
    (hself : ∃ held, held.Nodup ∧ (∀ m', c'.owner m' = some t ↔ m' ∈ held) ∧
      Bracketed (R t) m p held (· = [])) : Tidy R m c' := by
  refine ⟨fun u => ?_⟩
  by_cases hu : u = t
  · subst hu
    rw [hprogs, Function.update_self]
    exact hself
  · obtain ⟨held, hn, howner, hb⟩ := h.each u
    rw [hprogs, Function.update_of_ne hu]
    exact ⟨held, hn, fun m' => (hothers u hu m').trans (howner m'), hb⟩

variable [DecidableEq L] {code : ι → C → Prog L σ ℓ α}

/-- **Every step of neat code.** -/
theorem tidy_step (hcode : ∀ t call, Neat (R t) m (code t call)) {move : Move ι C} {out : Unit}
    (h : Tidy R m c) (hs : threadStep code c move = .ok (c', out)) : Tidy R m c' := by
  cases move with
  | start t call =>
    simp only [threadStep] at hs
    split at hs
    · rename_i a hp
      cases hs
      obtain ⟨held, hn, howner, hb⟩ := h.each t
      rw [hp] at hb
      obtain rfl : held = [] := hb
      exact tidy_update h rfl (fun _ _ _ => Iff.rfl) ⟨[], hn, howner, hcode t call []⟩
    · cases hs
  | go t =>
    obtain ⟨held, hn, howner, hb⟩ := h.each t
    simp only [threadStep] at hs
    split at hs
    · cases hs
    · cases hs
    · rename_i m' k hp
      rw [hp] at hb
      split at hs
      · rename_i hfree
        cases hs
        have hnot : m' ∉ held := fun hin => by
          rw [(howner m').mpr hin] at hfree
          cases hfree
        refine tidy_update h rfl (fun u hu m'' => ?_)
          ⟨m' :: held, List.nodup_cons.mpr ⟨hnot, hn⟩, fun m'' => ?_, hb⟩
        · by_cases hm : m'' = m'
          · subst hm
            simp [hfree, Ne.symm hu]
          · simp [hm]
        · by_cases hm : m'' = m'
          · subst hm
            simp
          · simp [hm, howner m'']
      · cases hs
    · rename_i m' k hp
      rw [hp] at hb
      obtain ⟨rest, rfl, hb⟩ := hb
      cases hs
      have howns : c.owner m' = some t := (howner m').mpr List.mem_cons_self
      obtain ⟨hnot, hn⟩ := List.nodup_cons.mp hn
      refine tidy_update h rfl (fun u hu m'' => ?_) ⟨rest, hn, fun m'' => ?_, hb⟩
      · by_cases hm : m'' = m'
        · subst hm
          simp [howns, Ne.symm hu]
        · simp [hm]
      · by_cases hm : m'' = m'
        · subst hm
          simp [hnot]
        · simp [hm, howner m'']
    · rename_i l f k hp
      rw [hp] at hb
      cases hs
      exact tidy_update h rfl (fun _ _ _ => Iff.rfl) ⟨held, hn, howner, (hb c.shared).2⟩

theorem tidy_run (hcode : ∀ t call, Neat (R t) m (code t call)) (h : Tidy R m c)
    (hr : run (threadStep code) c moves = .ok (c', outs)) : Tidy R m c' :=
  run_invariant (fun _ _ _ _ h hs => tidy_step hcode h hs) h hr

/-! ## Asking for what is held -/

theorem stuck_step (h : Stuck m t c) (hc : Tidy R m c) {move : Move ι C} {out : Unit}
    (hs : threadStep code c move = .ok (c', out)) : Stuck m t c' := by
  have hother : ∀ {u : ι} {p : Prog L σ ℓ α}, u ≠ t →
      AsksFor m (Function.update c.progs u p t) := by
    intro u p hu
    rw [Function.update_of_ne (Ne.symm hu)]
    exact h.asks
  cases move with
  | start u call =>
    simp only [threadStep] at hs
    split at hs
    · rename_i a hp
      cases hs
      refine ⟨h.owner, hother ?_⟩
      rintro rfl
      have hasks := h.asks
      rw [hp] at hasks
      exact hasks
    · cases hs
  | go u =>
    simp only [threadStep] at hs
    split at hs
    · cases hs
    · cases hs
    · rename_i m' k hp
      split at hs
      · rename_i hfree
        cases hs
        have hm : m ≠ m' := by
          rintro rfl
          rw [h.owner] at hfree
          cases hfree
        refine ⟨(Function.update_of_ne hm ..).trans h.owner, hother ?_⟩
        rintro rfl
        have hasks := h.asks
        rw [hp] at hasks
        exact hm hasks.symm
      · cases hs
    · rename_i m' k hp
      cases hs
      have hu : u ≠ t := by
        rintro rfl
        have hasks := h.asks
        rw [hp] at hasks
        exact hasks
      -- what `u` unlocks it holds
      have hm : m ≠ m' := by
        rintro rfl
        obtain ⟨held, -, howner, hb⟩ := hc.each u
        rw [hp] at hb
        obtain ⟨rest, rfl, -⟩ := hb
        have howns := (howner m).mpr List.mem_cons_self
        rw [h.owner] at howns
        exact hu (Option.some.inj howns).symm
      exact ⟨(Function.update_of_ne hm ..).trans h.owner, hother hu⟩
    · rename_i l f k hp
      cases hs
      refine ⟨h.owner, ?_⟩
      by_cases hu : u = t
      · subst hu
        have hasks := h.asks
        rw [hp] at hasks
        show AsksFor m (Function.update c.progs u (k c.shared) u)
        rw [Function.update_self]
        exact hasks c.shared
      · exact hother hu

/-- **For ever.** -/
theorem stuck_run (hcode : ∀ t call, Neat (R t) m (code t call)) (h : Stuck m t c)
    (hc : Tidy R m c) (hr : run (threadStep code) c moves = .ok (c', outs)) : Stuck m t c' := by
  have hstep : ∀ c move c' out, Stuck m t c ∧ Tidy R m c →
      threadStep code c move = .ok (c', out) → Stuck m t c' ∧ Tidy R m c' :=
    fun _ _ _ _ h hs => ⟨stuck_step h.1 h.2 hs, tidy_step hcode h.2 hs⟩
  exact (run_invariant hstep ⟨h, hc⟩ hr).1

/-- A look that finds what `R` says, by a thread that holds `m`. -/
theorem stuck_of_look (hc : Tidy R m c) (hm : c.owner m = some t) {l : ℓ}
    (hl : (c.progs t).acts = some l) (hR : R t l c.shared) {out : Unit}
    (hs : threadStep code c (.go t) = .ok (c', out)) : Stuck m t c' := by
  obtain ⟨held, -, -, hb⟩ := hc.each t
  cases hp : c.progs t with
  | act l' f k =>
    rw [hp] at hl hb
    cases hl
    simp only [threadStep, hp] at hs
    cases hs
    refine ⟨hm, ?_⟩
    show AsksFor m (Function.update c.progs t (k c.shared) t)
    rw [Function.update_self]
    exact (hb c.shared).1 hR
  | _ =>
    rw [hp] at hl
    cases hl

end Lib.Threads
