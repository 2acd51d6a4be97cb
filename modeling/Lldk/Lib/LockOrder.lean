import Mathlib.Logic.Relation
import Lldk.Lib.Threads

/-!
A locking discipline that rules out deadlocks.

* A `Discipline` ranks the mutexes, and says what every action keeps (`inv`), what the other
  threads may do to the state in the meantime (`rely`), and when an action may be taken (`guard`).
* `wp` is the weakest precondition of a program under it: mutexes are locked in the order of
  their ranks and unlocked in reverse.
* `Triple` is the triple for programs that end with the mutexes they began with. A program of
  which nothing else is said is `Orderly`. `triple_keeps` is the frame rule: what the other
  threads keep, the program keeps.
* `deadlockFree_along`: when all code follows the discipline, no thread asks for a mutex it holds
  and no threads wait for each other in a circle, in any state of any run whose actions meet the
  guard.
-/

namespace Lib.LockOrder

open Lib.Trace Lib.Threads

variable {ι L σ ℓ α β γ C ε : Type}

structure Discipline (ι L σ ℓ : Type) where
  rank : L → Nat
  inv : σ → Prop
  rely : σ → σ → Prop
  refl : ∀ s, rely s s
  trans : ∀ {s s' s''}, rely s s' → rely s' s'' → rely s s''
  /-- The thread holds the mutexes of the predicate. -/
  guard : ι → (L → Prop) → ℓ → σ → Prop

namespace Discipline

variable (D : Discipline ι L σ ℓ)

/-- Every mutex that is held ranks below `m`. -/
def Below (m : L) (held : List L) : Prop := ∀ m' ∈ held, D.rank m' < D.rank m

/-- What the other threads do keeps `P`. -/
def Stable (P : σ → Prop) : Prop := ∀ s s', P s → D.rely s s' → P s'

/-- The program of thread `t` follows the discipline and ends in `Q`. The thread holds `held`, the
last one locked first, and saw the state `s` last. -/
def wp (t : ι) : Prog L σ ℓ α → List L → σ → (List L → σ → α → Prop) → Prop
  | .ret a, held, s, Q => Q held s a
  | .fault, _, _, _ => True
  | .lock m k, held, s, Q => D.Below m held ∧ wp t k (m :: held) s Q
  | .unlock m k, held, s, Q => ∃ rest, held = m :: rest ∧ wp t k rest s Q
  | .act l f k, held, s, Q =>
    ∀ s', D.rely s s' → D.inv s' → D.guard t (fun m => m ∈ held) l s' →
      D.inv (f s') ∧ D.rely s' (f s') ∧ wp t (k s') held (f s') Q

theorem wp_mono {t : ι} {p : Prog L σ ℓ α} {Q Q' : List L → σ → α → Prop}
    (hQ : ∀ held s a, Q held s a → Q' held s a) {held : List L} {s : σ}
    (h : D.wp t p held s Q) : D.wp t p held s Q' := by
  induction p generalizing held s with
  | ret a => exact hQ held s a h
  | fault => trivial
  | lock m k ih => exact ⟨h.1, ih h.2⟩
  | unlock m k ih =>
    obtain ⟨rest, he, h⟩ := h
    exact ⟨rest, he, ih h⟩
  | act l f k ih =>
    intro s' hr hi hg
    obtain ⟨hi', hr', h⟩ := h s' hr hi hg
    exact ⟨hi', hr', ih s' h⟩

theorem wp_bind {t : ι} {p : Prog L σ ℓ α} {q : α → Prog L σ ℓ β} {Q : List L → σ → β → Prop}
    {held : List L} {s : σ} (h : D.wp t p held s fun held s a => D.wp t (q a) held s Q) :
    D.wp t (p.bind q) held s Q := by
  induction p generalizing held s with
  | ret a => exact h
  | fault => trivial
  | lock m k ih => exact ⟨h.1, ih h.2⟩
  | unlock m k ih =>
    obtain ⟨rest, he, h⟩ := h
    exact ⟨rest, he, ih h⟩
  | act l f k ih =>
    intro s' hr hi hg
    obtain ⟨hi', hr', h⟩ := h s' hr hi hg
    exact ⟨hi', hr', ih s' h⟩

/-- What the other threads keep, the program keeps as well. -/
theorem wp_frame {t : ι} {p : Prog L σ ℓ α} {Q : List L → σ → α → Prop} {R : σ → Prop}
    (hR : D.Stable R) {held : List L} {s : σ} (h : D.wp t p held s Q) (hs : R s) :
    D.wp t p held s fun held s a => Q held s a ∧ R s := by
  induction p generalizing held s with
  | ret a => exact ⟨h, hs⟩
  | fault => trivial
  | lock m k ih => exact ⟨h.1, ih h.2 hs⟩
  | unlock m k ih =>
    obtain ⟨rest, he, h⟩ := h
    exact ⟨rest, he, ih h hs⟩
  | act l f k ih =>
    intro s' hr hi hg
    obtain ⟨hi', hr', h⟩ := h s' hr hi hg
    exact ⟨hi', hr', ih s' h (hR s' (f s') (hR s s' hs hr) hr')⟩

/-! ## Triples -/

/-- From `P`, the program ends in `Q`, with the mutexes it began with. -/
def Triple (t : ι) (held : List L) (P : σ → Prop) (p : Prog L σ ℓ α) (Q : α → σ → Prop) : Prop :=
  ∀ s, P s → D.wp t p held s fun held' s' a => held' = held ∧ Q a s'

variable {D} {t : ι} {held : List L} {P P' : σ → Prop}

theorem triple_pure {a : α} {Q : α → σ → Prop} (h : ∀ s, P s → Q a s) :
    D.Triple t held P (pure a) Q :=
  fun s hs => ⟨rfl, h s hs⟩

theorem triple_fault {Q : α → σ → Prop} : D.Triple t held P .fault Q := fun _ _ => trivial

theorem triple_bind {p : Prog L σ ℓ α} {q : α → Prog L σ ℓ β} {M : α → σ → Prop}
    {Q : β → σ → Prop} (hp : D.Triple t held P p M) (hq : ∀ a, D.Triple t held (M a) (q a) Q) :
    D.Triple t held P (p >>= q) Q := by
  intro s hs
  refine D.wp_bind (D.wp_mono (fun held' s' a h => ?_) (hp s hs))
  obtain ⟨rfl, h⟩ := h
  exact hq a s' h

theorem triple_pre {p : Prog L σ ℓ α} {Q : α → σ → Prop} (h : D.Triple t held P p Q)
    (hP : ∀ s, P' s → P s) : D.Triple t held P' p Q :=
  fun s hs => h s (hP s hs)

/-- **Frame rule.** -/
theorem triple_keeps {p : Prog L σ ℓ α} {Q : α → σ → Prop} (hP : D.Stable P)
    (h : D.Triple t held P' p Q) (hP' : ∀ s, P s → P' s) : D.Triple t held P p fun _ => P :=
  fun s hs => D.wp_mono (fun _ _ _ h => ⟨h.1.1, h.2⟩) (D.wp_frame hP (h s (hP' s hs)) hs)

theorem triple_attempt {l : ℓ} {f : σ → Except ε (α × σ)} {Q : α → σ → Prop} (hP : D.Stable P)
    (h : ∀ s r, P s → D.inv s → D.guard t (fun m => m ∈ held) l s → f s = .ok r →
      D.inv r.2 ∧ D.rely s r.2 ∧ Q r.1 r.2) : D.Triple t held P (Prog.attempt l f) Q := by
  intro s hs s' hr hi hg
  have hs' := hP s s' hs hr
  cases hf : f s' with
  | error e =>
    simp only [hf]
    exact ⟨hi, D.refl s', trivial⟩
  | ok r =>
    obtain ⟨hi', hr', hQ⟩ := h s' r hs' hi hg hf
    simp only [hf]
    exact ⟨hi', hr', rfl, hQ⟩

theorem triple_lockGuard {m : L} {p : Prog L σ ℓ α} {Q : α → σ → Prop} (hm : D.Below m held)
    (h : D.Triple t (m :: held) P p Q) : D.Triple t held P (Prog.lockGuard m p) Q := by
  intro s hs
  refine ⟨hm, D.wp_bind (D.wp_mono (fun held' s' a h => ?_) (h s hs))⟩
  obtain ⟨rfl, hQ⟩ := h
  exact ⟨held, rfl, rfl, hQ⟩

/-- The program follows the discipline from any state. -/
def Orderly (D : Discipline ι L σ ℓ) (t : ι) (held : List L) (p : Prog L σ ℓ α) : Prop :=
  D.Triple t held (fun _ => True) p fun _ _ => True

theorem orderly_pure (a : α) : D.Orderly t held (pure a) := triple_pure fun _ _ => trivial

theorem orderly_bind {p : Prog L σ ℓ α} {q : α → Prog L σ ℓ β} (hp : D.Orderly t held p)
    (hq : ∀ a, D.Orderly t held (q a)) : D.Orderly t held (p >>= q) :=
  triple_bind hp hq

theorem orderly_attempt {l : ℓ} {f : σ → Except ε (α × σ)}
    (h : ∀ s r, D.inv s → f s = .ok r → D.inv r.2 ∧ D.rely s r.2) :
    D.Orderly t held (Prog.attempt l f) := by
  refine triple_attempt (fun _ _ _ _ => trivial) fun s r _ hi _ hf => ?_
  obtain ⟨hi', hr⟩ := h s r hi hf
  exact ⟨hi', hr, trivial⟩

theorem orderly_lockGuard {m : L} {p : Prog L σ ℓ α} (hm : D.Below m held)
    (h : D.Orderly t (m :: held) p) : D.Orderly t held (Prog.lockGuard m p) :=
  triple_lockGuard hm h

theorem Orderly.of_triple {p : Prog L σ ℓ α} {Q : α → σ → Prop}
    (h : D.Triple t held (fun _ => True) p Q) : D.Orderly t held p :=
  fun s hs => D.wp_mono (fun _ _ _ h => ⟨h.1, trivial⟩) (h s hs)

theorem Orderly.triple {p : Prog L σ ℓ α} (h : D.Orderly t held p) :
    D.Triple t held P p fun _ _ => True :=
  triple_pre h fun _ _ => trivial

end Discipline

/-! ## Deadlocks -/

def Wants (c : Config ι L σ ℓ α) (t : ι) (m : L) : Prop := (c.progs t).wants = some m

instance [DecidableEq L] (c : Config ι L σ ℓ α) (t : ι) (m : L) : Decidable (Wants c t m) :=
  inferInstanceAs (Decidable (_ = _))

def WaitsFor (c : Config ι L σ ℓ α) (t t' : ι) : Prop := ∃ m, Wants c t m ∧ c.owner m = some t'

/-- No thread asks for a mutex it holds, and no threads wait for each other in a circle. -/
structure DeadlockFree (c : Config ι L σ ℓ α) : Prop where
  relock : ∀ t m, Wants c t m → c.owner m ≠ some t
  circle : ∀ t, ¬ Relation.TransGen (WaitsFor c) t t

/-- The step of a thread that acts meets the guard. -/
def Respects (D : Discipline ι L σ ℓ) (c : Config ι L σ ℓ α) : Move ι C → Prop
  | .start _ _ => True
  | .go t => ∀ l, (c.progs t).acts = some l → D.guard t (fun m => c.owner m = some t) l c.shared

variable {D : Discipline ι L σ ℓ}

/-- Every thread is somewhere in a program that follows the discipline. -/
structure Follows (D : Discipline ι L σ ℓ) (c : Config ι L σ ℓ α) : Prop where
  inv : D.inv c.shared
  each : ∀ t, ∃ held s, held.Nodup ∧ (∀ m, c.owner m = some t ↔ m ∈ held) ∧
    D.rely s c.shared ∧ D.wp t (c.progs t) held s fun held' _ _ => held' = []

theorem Follows.lock {c : Config ι L σ ℓ α} (F : Follows D c) {t : ι} {m : L}
    {k : Prog L σ ℓ α} (ht : c.progs t = .lock m k) : ∀ m', c.owner m' = some t →
      D.rank m' < D.rank m := by
  obtain ⟨held, s, -, howner, -, hwp⟩ := F.each t
  rw [ht] at hwp
  exact fun m' hm' => hwp.1 m' ((howner m').mp hm')

theorem wants_eq {c : Config ι L σ ℓ α} {t : ι} {m : L} (h : Wants c t m) :
    ∃ k, c.progs t = .lock m k := by
  unfold Wants at h
  cases hp : c.progs t with
  | lock m' k =>
    rw [hp] at h
    cases h
    exact ⟨k, rfl⟩
  | _ =>
    rw [hp] at h
    cases h

/-- Along a chain of waiting threads the ranks of the mutexes they want rise. -/
theorem Follows.rank_lt {c : Config ι L σ ℓ α} (F : Follows D c) {t t' : ι} {m : L}
    (hm : Wants c t m) (h : Relation.TransGen (WaitsFor c) t t') :
    ∀ m', Wants c t' m' → D.rank m < D.rank m' := by
  -- a thread that is waited for holds the mutex wanted, and wants only higher ones
  have hstep : ∀ {u u' m₁ m₂}, Wants c u m₁ → WaitsFor c u u' → Wants c u' m₂ →
      D.rank m₁ < D.rank m₂ := by
    rintro u u' m₁ m₂ h₁ ⟨m, hw, howner⟩ h₂
    have he : m = m₁ := Option.some.inj (hw.symm.trans h₁)
    obtain ⟨k, hk⟩ := wants_eq h₂
    rw [← he]
    exact F.lock hk m howner
  induction h with
  | single hw => exact fun m' hm' => hstep hm hw hm'
  | tail _ hw ih =>
    intro m' hm'
    obtain ⟨m₁, h₁, -⟩ := id hw
    exact Nat.lt_trans (ih m₁ h₁) (hstep h₁ hw hm')

theorem Follows.deadlockFree {c : Config ι L σ ℓ α} (F : Follows D c) : DeadlockFree c where
  relock := by
    intro t m hm howner
    obtain ⟨k, hk⟩ := wants_eq hm
    exact Nat.lt_irrefl _ (F.lock hk m howner)
  circle := by
    intro t h
    obtain ⟨u, ⟨m, hm, -⟩, -⟩ := Relation.TransGen.head'_iff.mp h
    exact Nat.lt_irrefl _ (F.rank_lt hm h m hm)

theorem follows_start {s : σ} (h : D.inv s) :
    Follows D (Config.start s : Config ι L σ ℓ Unit) where
  inv := h
  each := by
    intro t
    refine ⟨[], s, List.nodup_nil, fun m => ?_, D.refl s, rfl⟩
    exact ⟨nofun, nofun⟩

/-- One thread changes its program, its mutexes and the shared state. -/
theorem follows_update [DecidableEq ι] {c c' : Config ι L σ ℓ α} (F : Follows D c) {t : ι}
    {p : Prog L σ ℓ α} (hprogs : c'.progs = Function.update c.progs t p) (hinv : D.inv c'.shared)
    (hrely : D.rely c.shared c'.shared)
    (hothers : ∀ u, u ≠ t → ∀ m, c'.owner m = some u ↔ c.owner m = some u)
    (hself : ∃ held s, held.Nodup ∧ (∀ m, c'.owner m = some t ↔ m ∈ held) ∧
      D.rely s c'.shared ∧ D.wp t p held s fun held' _ _ => held' = []) : Follows D c' where
  inv := hinv
  each := by
    intro u
    by_cases hu : u = t
    · subst hu
      rw [hprogs, Function.update_self]
      exact hself
    · obtain ⟨held, s, hn, howner, hr, hwp⟩ := F.each u
      rw [hprogs, Function.update_of_ne hu]
      exact ⟨held, s, hn, fun m => (hothers u hu m).trans (howner m), D.trans hr hrely, hwp⟩

section Steps

variable [DecidableEq ι] [DecidableEq L] {code : ι → C → Prog L σ ℓ α}

/-- Code in the discipline: calls begin and end without a mutex. -/
def Disciplined (D : Discipline ι L σ ℓ) (code : ι → C → Prog L σ ℓ α) : Prop :=
  ∀ t call, D.Orderly t [] (code t call)

/-- **Step lemma.** -/
theorem follows_step (hcode : Disciplined D code) {c c' : Config ι L σ ℓ α} {move : Move ι C}
    {out : Unit} (F : Follows D c) (hg : Respects D c move)
    (h : threadStep code c move = .ok (c', out)) : Follows D c' := by
  cases move with
  | start t call =>
    simp only [threadStep] at h
    split at h
    · rename_i a hp
      cases h
      obtain ⟨held, s, hn, howner, -, hwp⟩ := F.each t
      rw [hp] at hwp
      obtain rfl : held = [] := hwp
      have hcall : D.wp t (code t call) [] c.shared fun held' _ _ => held' = [] :=
        D.wp_mono (fun _ _ _ h => h.1) (hcode t call c.shared trivial)
      exact follows_update F rfl F.inv (D.refl _) (fun _ _ _ => Iff.rfl)
        ⟨[], c.shared, hn, howner, D.refl _, hcall⟩
    · cases h
  | go t =>
    obtain ⟨held, s, hn, howner, hr, hwp⟩ := F.each t
    simp only [threadStep] at h
    split at h
    · cases h
    · cases h
    · rename_i m k hp
      rw [hp] at hwp
      obtain ⟨hbelow, hwp⟩ := hwp
      split at h
      · rename_i hfree
        cases h
        have hnot : m ∉ held := fun hin => Nat.lt_irrefl _ (hbelow m hin)
        refine follows_update F rfl F.inv (D.refl _) (fun u hu m' => ?_)
          ⟨m :: held, s, List.nodup_cons.mpr ⟨hnot, hn⟩, fun m' => ?_, hr, hwp⟩
        · by_cases hm : m' = m
          · subst hm
            simp [hfree, Ne.symm hu]
          · simp [hm]
        · by_cases hm : m' = m
          · subst hm
            simp
          · simp [hm, howner m']
      · cases h
    · rename_i m k hp
      rw [hp] at hwp
      obtain ⟨rest, rfl, hwp⟩ := hwp
      cases h
      have howns : c.owner m = some t := (howner m).mpr (List.mem_cons_self ..)
      obtain ⟨hnot, hn⟩ := List.nodup_cons.mp hn
      refine follows_update F rfl F.inv (D.refl _) (fun u hu m' => ?_)
        ⟨rest, s, hn, fun m' => ?_, hr, hwp⟩
      · by_cases hm : m' = m
        · subst hm
          simp [howns, Ne.symm hu]
        · simp [hm]
      · by_cases hm : m' = m
        · subst hm
          simp [hnot]
        · simp [hm, howner m']
    · rename_i l f k hp
      rw [hp] at hwp
      cases h
      have hguard : D.guard t (fun m => m ∈ held) l c.shared := by
        have hheld : (fun m => m ∈ held) = fun m => c.owner m = some t :=
          funext fun m => propext (howner m).symm
        rw [hheld]
        exact hg l (by rw [hp]; rfl)
      obtain ⟨hinv, hrely, hwp⟩ := hwp c.shared hr F.inv hguard
      exact follows_update F rfl hinv hrely (fun _ _ _ => Iff.rfl)
        ⟨held, f c.shared, hn, howner, D.refl _, hwp⟩

/-- **No deadlock.** -/
theorem deadlockFree_along (hcode : Disciplined D code) {c : Config ι L σ ℓ α} (F : Follows D c)
    {moves : List (Move ι C)} (hrun : ∃ r, run (threadStep code) c moves = .ok r)
    (hg : EachStep (threadStep code) (Respects D) c moves) :
    AllAlong (threadStep code) DeadlockFree c moves := by
  obtain ⟨r, hr⟩ := hrun
  refine AllAlong.mono (fun c F => F.deadlockFree) (allAlong_of_eachStep (Follows D) ?_ F
    ((eachStep_of_run hr).and hg))
  rintro c move F ⟨⟨⟨c', out⟩, h⟩, hg⟩
  exact ⟨c', out, h, follows_step hcode F hg h⟩

end Steps

end Lib.LockOrder
