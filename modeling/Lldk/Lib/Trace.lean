/-!
Runs of a step function that may fault.

* `run` takes a list of actions and collects the outputs, stopping at the first fault;
* `EachStep c` says that `c` holds of every step, at the state the step is taken in;
* `AllAlong P` says that no step faults and that `P` holds in every state reached
  (`allAlong_iff_prefix`);
* `run_invariant` and `allAlong_of_eachStep` are the invariant rules, `run_simulates` the simulation
  rule;
* `allAlong_iff_eachStep` is the exactness rule: a guard that keeps an invariant, and
  whose violation is seen at once, holds at each step iff the property holds all along.
-/

namespace Lib.Trace

universe u v w x y

variable {σ : Type u} {α : Type v} {β : Type w} {ε : Type x} {τ : Type y}

theorem bind_eq_ok {α β : Type u} {x : Except ε α} {f : α → Except ε β} {b : β} :
    (x >>= f) = .ok b ↔ ∃ a, x = .ok a ∧ f a = .ok b := by
  cases x with
  | error e =>
    constructor
    · intro h
      cases h
    · rintro ⟨_, h, _⟩
      cases h
  | ok a =>
    constructor
    · intro h
      exact ⟨a, rfl, h⟩
    · rintro ⟨_, h, hf⟩
      cases h
      exact hf

theorem map_eq_ok {α β : Type u} {x : Except ε α} {f : α → β} {b : β} :
    x.map f = .ok b ↔ ∃ a, x = .ok a ∧ f a = b := by
  cases x with
  | error e =>
    constructor
    · intro h
      cases h
    · rintro ⟨_, h, _⟩
      cases h
  | ok a =>
    constructor
    · intro h
      exact ⟨a, rfl, Except.ok.inj h⟩
    · rintro ⟨_, h, rfl⟩
      cases h
      rfl

theorem exists_of_isOk {α : Type u} {x : Except ε α} (h : x.isOk = true) : ∃ a, x = .ok a := by
  cases x with
  | error e => cases h
  | ok a => exact ⟨a, rfl⟩

/-- What is seen of a result that is computed. -/
theorem exists_of_any {α : Type u} {x : Except ε α} {P : α → Bool}
    (h : x.toOption.any P = true) : ∃ a, x = .ok a ∧ P a = true := by
  cases x with
  | error e => cases h
  | ok a => exact ⟨a, rfl, h⟩

/-- A fault is seen whatever is made of the results. -/
theorem eq_error_of_map {α β : Type u} {x : Except ε α} {f : α → β} {e : ε}
    (h : x.map f = .error e) : x = .error e := by
  cases x with
  | error e' => exact congrArg Except.error (Except.error.inj h)
  | ok a => cases h

/-- One step: a fault, or the next state and an output. -/
abbrev Step (σ : Type u) (α : Type v) (β : Type w) (ε : Type x) := σ → α → Except ε (σ × β)

def run (step : Step σ α β ε) : σ → List α → Except ε (σ × List β)
  | s, [] => .ok (s, [])
  | s, a :: as =>
    match step s a with
    | .error e => .error e
    | .ok (s', b) =>
      match run step s' as with
      | .error e => .error e
      | .ok (s'', bs) => .ok (s'', b :: bs)

/-- `c` holds of every step that is taken, at the state before it. -/
def EachStep (step : Step σ α β ε) (c : σ → α → Prop) : σ → List α → Prop
  | _, [] => True
  | s, a :: as => c s a ∧ ∀ s' b, step s a = .ok (s', b) → EachStep step c s' as

/-- No step faults, and `P` holds in every state reached, the first included. -/
def AllAlong (step : Step σ α β ε) (P : σ → Prop) : σ → List α → Prop
  | s, [] => P s
  | s, a :: as => P s ∧ ∃ s' b, step s a = .ok (s', b) ∧ AllAlong step P s' as

variable {step : Step σ α β ε}

theorem run_cons_ok {s s' : σ} {a : α} {b : β} (h : step s a = .ok (s', b)) (as : List α) :
    run step s (a :: as) = match run step s' as with
      | .error e => .error e
      | .ok (s'', bs) => .ok (s'', b :: bs) := by
  simp only [run, h]

theorem run_cons_error {s : σ} {a : α} {e : ε} (h : step s a = .error e) (as : List α) :
    run step s (a :: as) = .error e := by
  simp only [run, h]

/-- A run that does not fault takes its first step and runs on from there. -/
theorem run_cons_eq_ok {s s'' : σ} {a : α} {as : List α} {bs : List β} :
    run step s (a :: as) = .ok (s'', bs) ↔
      ∃ s' b bs', step s a = .ok (s', b) ∧ run step s' as = .ok (s'', bs') ∧ bs = b :: bs' := by
  constructor
  · intro h
    cases hs : step s a with
    | error e => rw [run_cons_error hs] at h; cases h
    | ok r =>
      obtain ⟨s', b⟩ := r
      rw [run_cons_ok hs] at h
      cases hr : run step s' as with
      | error e => rw [hr] at h; cases h
      | ok q =>
        obtain ⟨t, bs'⟩ := q
        rw [hr] at h
        cases h
        exact ⟨s', b, bs', rfl, hr, rfl⟩
  · rintro ⟨s', b, bs', hs, hr, rfl⟩
    rw [run_cons_ok hs, hr]

theorem run_append {s s' s'' : σ} {as as' : List α} {bs bs' : List β}
    (h : run step s as = .ok (s', bs)) (h' : run step s' as' = .ok (s'', bs')) :
    run step s (as ++ as') = .ok (s'', bs ++ bs') := by
  induction as generalizing s bs with
  | nil =>
    cases h
    exact h'
  | cons a as ih =>
    obtain ⟨t, b, cs, hs, hr, rfl⟩ := run_cons_eq_ok.mp h
    exact run_cons_eq_ok.mpr ⟨t, b, cs ++ bs', hs, ih hr, rfl⟩

/-! ## Invariants -/

/-- A property that every step preserves holds at the end of every run. -/
theorem run_invariant {Inv : σ → Prop}
    (hstep : ∀ s a s' b, Inv s → step s a = .ok (s', b) → Inv s') {s s' : σ} {as : List α}
    {bs : List β} (hs : Inv s) (h : run step s as = .ok (s', bs)) : Inv s' := by
  induction as generalizing s bs with
  | nil => cases h; exact hs
  | cons a as ih =>
    obtain ⟨t, b, cs, ht, hr, rfl⟩ := run_cons_eq_ok.mp h
    exact ih (hstep s a t b hs ht) hr

theorem EachStep.mono {c d : σ → α → Prop} (hcd : ∀ s a, c s a → d s a) {s : σ} {as : List α}
    (h : EachStep step c s as) : EachStep step d s as := by
  induction as generalizing s with
  | nil => trivial
  | cons a as ih => exact ⟨hcd s a h.1, fun s' b hs => ih (h.2 s' b hs)⟩

theorem EachStep.and {c d : σ → α → Prop} {s : σ} {as : List α} (hc : EachStep step c s as)
    (hd : EachStep step d s as) : EachStep step (fun s a => c s a ∧ d s a) s as := by
  induction as generalizing s with
  | nil => trivial
  | cons a as ih => exact ⟨⟨hc.1, hd.1⟩, fun s' b hs => ih (hc.2 s' b hs) (hd.2 s' b hs)⟩

/-- A guarded run is guarded from each state that it comes through. -/
theorem EachStep.after {c : σ → α → Prop} {s s' : σ} {as as' : List α} {bs : List β}
    (h : EachStep step c s (as ++ as')) (hr : run step s as = .ok (s', bs)) :
    EachStep step c s' as' := by
  induction as generalizing s bs with
  | nil =>
    cases hr
    exact h
  | cons a as ih =>
    obtain ⟨t, b, cs, ht, hr, -⟩ := run_cons_eq_ok.mp hr
    exact ih (h.2 t b ht) hr

/-- A guard that implies another wherever an invariant holds. -/
theorem EachStep.mono_of_invariant (Inv : σ → Prop) {c d : σ → α → Prop}
    (hstep : ∀ s a s' b, Inv s → step s a = .ok (s', b) → Inv s')
    (hcd : ∀ s a, Inv s → c s a → d s a) {s : σ} {as : List α} (hs : Inv s)
    (h : EachStep step c s as) : EachStep step d s as := by
  induction as generalizing s with
  | nil => trivial
  | cons a as ih =>
    exact ⟨hcd s a hs h.1, fun s' b ha => ih (hstep s a s' b hs ha) (h.2 s' b ha)⟩

/-- Two guards that agree wherever an invariant holds guard the same runs. -/
theorem eachStep_iff_of_invariant (Inv : σ → Prop) {c d : σ → α → Prop}
    (hstep : ∀ s a s' b, Inv s → step s a = .ok (s', b) → Inv s')
    (hcd : ∀ s a, Inv s → (c s a ↔ d s a)) {s : σ} {as : List α} (hs : Inv s) :
    EachStep step c s as ↔ EachStep step d s as :=
  ⟨EachStep.mono_of_invariant Inv hstep (fun s a h => (hcd s a h).mp) hs,
    EachStep.mono_of_invariant Inv hstep (fun s a h => (hcd s a h).mpr) hs⟩

/-- What a step does wherever an invariant and a guard hold, each step of a guarded run does. -/
theorem eachStep_of_invariant (Inv : σ → Prop) {c : σ → α → Prop} {P : σ → α → σ → β → Prop}
    (hstep : ∀ s a, Inv s → c s a → ∃ s' b, step s a = .ok (s', b) ∧ Inv s' ∧ P s a s' b) {s : σ}
    {as : List α} (hs : Inv s) (h : EachStep step c s as) :
    EachStep step (fun s a => ∃ s' b, step s a = .ok (s', b) ∧ P s a s' b) s as := by
  induction as generalizing s with
  | nil => trivial
  | cons a as ih =>
    obtain ⟨s', b, ha, hi, hp⟩ := hstep s a hs h.1
    refine ⟨⟨s', b, ha, hp⟩, fun t b' ht => ?_⟩
    rw [ha] at ht
    cases ht
    exact ih hi (h.2 s' b ha)

/-- The same for steps that meet a guard. -/
theorem run_invariant_of_eachStep {Inv : σ → Prop} {c : σ → α → Prop}
    (hstep : ∀ s a s' b, Inv s → c s a → step s a = .ok (s', b) → Inv s') {s s' : σ} {as : List α}
    {bs : List β} (hs : Inv s) (hc : EachStep step c s as) (h : run step s as = .ok (s', bs)) :
    Inv s' := by
  induction as generalizing s bs with
  | nil => cases h; exact hs
  | cons a as ih =>
    obtain ⟨t, b, cs, ht, hr, rfl⟩ := run_cons_eq_ok.mp h
    exact ih (hstep s a t b hs hc.1 ht) (hc.2 t b ht) hr

theorem eachStep_of_forall {c : σ → α → Prop} (h : ∀ s a, c s a) (s : σ) (as : List α) :
    EachStep step c s as := by
  induction as generalizing s with
  | nil => trivial
  | cons a as ih => exact ⟨h s a, fun s' _ _ => ih s'⟩

/-- A guard on the actions alone. -/
theorem eachStep_of_forall_mem {c : α → Prop} {as : List α} (h : ∀ a, a ∈ as → c a) (s : σ) :
    EachStep step (fun _ a => c a) s as := by
  induction as generalizing s with
  | nil => trivial
  | cons a as ih =>
    obtain ⟨ha, has⟩ := List.forall_mem_cons.mp h
    exact ⟨ha, fun s' _ _ => ih has s'⟩

/-- The steps of a run that does not fault. -/
theorem eachStep_of_run {s : σ} {as : List α} {r : σ × List β} (h : run step s as = .ok r) :
    EachStep step (fun s a => ∃ q, step s a = .ok q) s as := by
  induction as generalizing s r with
  | nil => trivial
  | cons a as ih =>
    obtain ⟨s', b, bs, hs, hr, -⟩ := run_cons_eq_ok.mp h
    refine ⟨⟨_, hs⟩, fun t b' ht => ?_⟩
    rw [hs] at ht
    cases ht
    exact ih hr

/-- Whether a guard holds at each step can be computed by taking the steps. -/
instance decidableEachStep {c : σ → α → Prop} [∀ s a, Decidable (c s a)] (s : σ) (as : List α) :
    Decidable (EachStep step c s as) :=
  match as with
  | [] => isTrue trivial
  | a :: as =>
    match hs : step s a with
    | .error _ =>
      decidable_of_iff (c s a)
        ⟨fun h => ⟨h, fun s' b h' => by rw [hs] at h'; cases h'⟩, fun h => h.1⟩
    | .ok (s', b) =>
      have := decidableEachStep (c := c) s' as
      decidable_of_iff (c s a ∧ EachStep step c s' as)
        ⟨fun h => ⟨h.1, fun t b' h' => by rw [hs] at h'; cases h'; exact h.2⟩,
          fun h => ⟨h.1, h.2 s' b hs⟩⟩

/-! ## Properties of every state reached -/

theorem AllAlong.head {P : σ → Prop} {s : σ} {as : List α} (h : AllAlong step P s as) : P s := by
  cases as with
  | nil => exact h
  | cons a as => exact h.1

/-- `AllAlong` spelled out: every prefix of the run ends, without a fault, in a state with `P`. -/
theorem allAlong_iff_prefix {P : σ → Prop} {s : σ} {as : List α} :
    AllAlong step P s as ↔
      ∀ pre post, as = pre ++ post → ∃ s' bs, run step s pre = .ok (s', bs) ∧ P s' := by
  induction as generalizing s with
  | nil =>
    constructor
    · intro h pre post he
      obtain ⟨rfl, -⟩ := List.append_eq_nil_iff.mp he.symm
      exact ⟨s, [], rfl, h⟩
    · intro h
      obtain ⟨s', bs, hr, hp⟩ := h [] [] rfl
      cases hr
      exact hp
  | cons a as ih =>
    constructor
    · rintro ⟨hp, s', b, hs, hall⟩ pre post he
      cases pre with
      | nil => exact ⟨s, [], rfl, hp⟩
      | cons a' pre =>
        obtain ⟨rfl, he'⟩ := List.cons.inj he
        obtain ⟨t, bs, hr, ht⟩ := ih.mp hall pre post he'
        exact ⟨t, b :: bs, by rw [run_cons_ok hs, hr], ht⟩
    · intro h
      obtain ⟨_, _, hr, hp⟩ := h [] (a :: as) rfl
      cases hr
      obtain ⟨t, bs, hr, -⟩ := h [a] as rfl
      obtain ⟨s', b, _, hs, -, -⟩ := run_cons_eq_ok.mp hr
      refine ⟨hp, s', b, hs, ih.mpr fun pre post he => ?_⟩
      obtain ⟨t, bs, hr, ht⟩ := h (a :: pre) post (by rw [he, List.cons_append])
      obtain ⟨s₁, b₁, bs₁, hs₁, hr₁, -⟩ := run_cons_eq_ok.mp hr
      rw [hs] at hs₁
      cases hs₁
      exact ⟨t, bs₁, hr₁, ht⟩

instance decidableAllAlong {P : σ → Prop} [DecidablePred P] (s : σ) (as : List α) :
    Decidable (AllAlong step P s as) :=
  match as with
  | [] => inferInstanceAs (Decidable (P s))
  | a :: as =>
    match hs : step s a with
    | .error _ => isFalse fun ⟨_, s', b, h, _⟩ => by
      rw [hs] at h
      cases h
    | .ok (s', b) =>
      have := decidableAllAlong (P := P) s' as
      decidable_of_iff (P s ∧ AllAlong step P s' as)
        ⟨fun ⟨h, hrest⟩ => ⟨h, s', b, hs, hrest⟩, fun ⟨h, t, b', h', hrest⟩ => ⟨h, by
          rw [hs] at h'
          cases h'
          exact hrest⟩⟩

theorem allAlong_true_iff {s : σ} {as : List α} :
    AllAlong step (fun _ => True) s as ↔ ∃ r, run step s as = .ok r := by
  induction as generalizing s with
  | nil => exact ⟨fun _ => ⟨_, rfl⟩, fun _ => trivial⟩
  | cons a as ih =>
    constructor
    · rintro ⟨-, s', b, h, hall⟩
      obtain ⟨⟨s'', bs⟩, hr⟩ := ih.mp hall
      exact ⟨(s'', b :: bs), by rw [run_cons_ok h, hr]⟩
    · rintro ⟨⟨s'', bs⟩, hr⟩
      obtain ⟨s', b, bs', h, hr', -⟩ := run_cons_eq_ok.mp hr
      exact ⟨trivial, s', b, h, ih.mpr ⟨_, hr'⟩⟩

/-- An invariant that guarded steps keep, without faulting, holds all along a guarded run. -/
theorem allAlong_of_eachStep (Inv : σ → Prop) {c : σ → α → Prop}
    (hstep : ∀ s a, Inv s → c s a → ∃ s' b, step s a = .ok (s', b) ∧ Inv s') {s : σ}
    {as : List α} (hs : Inv s) (hc : EachStep step c s as) : AllAlong step Inv s as := by
  induction as generalizing s with
  | nil => exact hs
  | cons a as ih =>
    obtain ⟨s', b, h, hi⟩ := hstep s a hs hc.1
    exact ⟨hs, s', b, h, ih hi (hc.2 s' b h)⟩

theorem AllAlong.mono {P Q : σ → Prop} (hPQ : ∀ s, P s → Q s) {s : σ} {as : List α}
    (h : AllAlong step P s as) : AllAlong step Q s as := by
  induction as generalizing s with
  | nil => exact hPQ s h
  | cons a as ih =>
    obtain ⟨hp, s', b, hs, hall⟩ := h
    exact ⟨hPQ s hp, s', b, hs, ih hall⟩

/-- **Exactness rule.** Suppose that from an invariant state a legal step that meets the guard
keeps the invariant, and one that does not either faults or ends outside `P`. Then a run of
legal steps has `P` all along iff each of its steps meets the guard. -/
theorem allAlong_iff_eachStep (Inv : σ → Prop) {P : σ → Prop} {legal c : σ → α → Prop}
    (hP : ∀ s, Inv s → P s)
    (hgood : ∀ s a, Inv s → legal s a → c s a → ∃ s' b, step s a = .ok (s', b) ∧ Inv s')
    (hbad : ∀ s a s' b, Inv s → legal s a → ¬ c s a → step s a = .ok (s', b) → ¬ P s')
    {s : σ} {as : List α} (hs : Inv s) (hl : EachStep step legal s as) :
    AllAlong step P s as ↔ EachStep step c s as := by
  induction as generalizing s with
  | nil => exact ⟨fun _ => trivial, fun _ => hP s hs⟩
  | cons a as ih =>
    constructor
    · rintro ⟨-, s', b, h, hall⟩
      have hc : c s a := by
        apply Classical.byContradiction
        intro hn
        exact hbad s a s' b hs hl.1 hn h hall.head
      obtain ⟨t, b', h', hi⟩ := hgood s a hs hl.1 hc
      rw [h] at h'
      cases h'
      refine ⟨hc, fun t b' h' => ?_⟩
      rw [h] at h'
      cases h'
      exact (ih hi (hl.2 _ _ h)).mp hall
    · rintro ⟨hc, hrest⟩
      obtain ⟨s', b, h, hi⟩ := hgood s a hs hl.1 hc
      exact ⟨hP s hs, s', b, h, (ih hi (hl.2 s' b h)).mpr (hrest s' b h)⟩

/-! ## Simulation -/

/-- **Simulation rule.** If each step of `spec` is matched, output included, by a step between
related states, then so is each of its runs. -/
theorem run_simulates {ε' : Type x} {spec : Step τ α β ε'} (R : σ → τ → Prop)
    (hsim : ∀ s t a t' b, R s t → spec t a = .ok (t', b) →
      ∃ s', step s a = .ok (s', b) ∧ R s' t') {s : σ} {t t' : τ} {as : List α} {bs : List β}
    (hR : R s t) (h : run spec t as = .ok (t', bs)) :
    ∃ s', run step s as = .ok (s', bs) ∧ R s' t' := by
  induction as generalizing s t bs with
  | nil => cases h; exact ⟨s, rfl, hR⟩
  | cons a as ih =>
    obtain ⟨t₁, b, cs, ht, hr, rfl⟩ := run_cons_eq_ok.mp h
    obtain ⟨s₁, hs, hR₁⟩ := hsim s t a t₁ b hR ht
    obtain ⟨s', hr', hR'⟩ := ih hR₁ hr
    exact ⟨s', by rw [run_cons_ok hs, hr'], hR'⟩

end Lib.Trace
