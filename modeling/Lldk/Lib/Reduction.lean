import Lldk.Lib.Outline

/-!
The critical sections of a mutex as single actions.

* `Parts v w`: a state is its part `v` and its part `w`. `On v w` is an action that works on `v`;
  one on `v` and one on `w` commute (`On.comm`).
* `Sectioned`: a program works on `v` while it holds the mutex `m` and on `w` while it does not, and
  locks nothing inside a section of `m`.
* `merge` makes one action of each section; `close` is what a section comes to.
* `merge_run`: whatever sectioned code does in any interleaving of its actions, the merged code
  does as well, with the same calls and the same results in the same order.
-/

namespace Lib.Threads

open Lib.Trace

variable {ι L σ ℓ α β γ δ C ε Φ Ψ : Type}

/-! ## Parts of a state -/

def Parts (v : σ → γ) (w : σ → δ) : Prop := ∀ s s', v s = v s' → w s = w s' → s = s'

/-- An action `f` that goes on with `k`: it keeps `w`, and of the state it sees `v` alone. -/
structure On (v : σ → γ) (w : σ → δ) (f : σ → σ) (k : σ → Φ) : Prop where
  keeps : ∀ s, w (f s) = w s
  sees : ∀ s s', v s = v s' → v (f s) = v (f s')
  goes : ∀ s s', v s = v s' → k s = k s'

variable {v : σ → γ} {w : σ → δ} {f g : σ → σ} {k : σ → Φ} {k' : σ → Ψ}

theorem On.comm (hparts : Parts v w) (hf : On v w f k) (hg : On w v g k') (s : σ) :
    f (g s) = g (f s) := by
  apply hparts
  · rw [hg.keeps (f s)]
    exact hf.sees _ _ (hg.keeps s)
  · rw [hf.keeps (g s)]
    exact hg.sees _ _ (hf.keeps s).symm

theorem On.map (h : On v w f k) (q : Φ → Ψ) : On v w f fun s => q (k s) :=
  ⟨h.keeps, h.sees, fun s s' hv => congrArg q (h.goes s s' hv)⟩

/-- A look at `v`. -/
theorem on_read (h : ∀ s s', v s = v s' → k s = k s') : On v w id k :=
  ⟨fun _ => rfl, fun _ _ hv => hv, h⟩

/-! ## Sections -/

/-- The program acts on `v` and locks nothing. -/
def Body (v : σ → γ) (w : σ → δ) : Prog L σ ℓ α → Prop
  | .ret _ => True
  | .fault => True
  | .lock _ _ => False
  | .unlock _ _ => False
  | .act _ f k => On v w f k ∧ ∀ s, Body v w (k s)

/-- What is left of a program that holds `m` iff it is `inside`. -/
def Sectioned [DecidableEq L] (m : L) (v : σ → γ) (w : σ → δ) : Bool → Prog L σ ℓ α → Prop
  | inside, .ret _ => inside = false
  | _, .fault => True
  | inside, .lock m' k => inside = false ∧ Sectioned m v w (decide (m' = m)) k
  | inside, .unlock m' k => (m' = m ↔ inside = true) ∧ Sectioned m v w false k
  | true, .act _ f k => On v w f k ∧ ∀ s, Sectioned m v w true (k s)
  | false, .act _ f k => On w v f k ∧ ∀ s, Sectioned m v w false (k s)

mutual

/-- The program with one action for each section of `m`. -/
def merge [DecidableEq L] (m : L) (l₀ : ℓ) : Prog L σ ℓ α → Prog L σ ℓ α
  | .ret a => .ret a
  | .fault => .fault
  | .lock m' k =>
    if m' = m then .act l₀ (fun s => (close m l₀ k s).2) fun s => (close m l₀ k s).1
    else .lock m' (merge m l₀ k)
  | .unlock m' k => .unlock m' (merge m l₀ k)
  | .act l f k => .act l f fun s => merge m l₀ (k s)

/-- The rest of a section of `m`, run to its end: the code after it, and the state. -/
def close [DecidableEq L] (m : L) (l₀ : ℓ) : Prog L σ ℓ α → σ → Prog L σ ℓ α × σ
  | .unlock _ k, s => (merge m l₀ k, s)
  | .act _ f k, s => close m l₀ (k s) (f s)
  | .ret _, s => (.fault, s)
  | .fault, s => (.fault, s)
  | .lock _ _, s => (.fault, s)

end

section Programs

variable [DecidableEq L] {m : L} {l₀ : ℓ} {p q : Prog L σ ℓ α}

/-- A lock guard of `m` around actions on `v`. -/
theorem sectioned_lockGuard (h : Body v w p) : Sectioned m v w false (Prog.lockGuard m p) := by
  refine ⟨rfl, ?_⟩
  rw [decide_eq_true rfl]
  induction p with
  | ret a => exact ⟨iff_of_true rfl rfl, rfl⟩
  | fault => trivial
  | lock m' k ih => exact h.elim
  | unlock m' k ih => exact h.elim
  | act l f k ih => exact ⟨h.1.map fun p => p.bind _, fun s => ih s (h.2 s)⟩

omit [DecidableEq L] in
theorem body_bind {q : α → Prog L σ ℓ β} (hp : Body v w p) (hq : ∀ a, Body v w (q a)) :
    Body v w (p.bind q) := by
  induction p with
  | ret a => exact hq a
  | fault => trivial
  | lock m' k ih => exact hp.elim
  | unlock m' k ih => exact hp.elim
  | act l f k ih => exact ⟨hp.1.map fun p => p.bind q, fun s => ih s (hp.2 s)⟩

/-- Merging shows in no result. -/
theorem result_merge (p : Prog L σ ℓ α) : (merge m l₀ p).result = p.result := by
  cases p with
  | lock m' k =>
    simp only [merge]
    split <;> rfl
  | _ => rfl

theorem result_inside (h : Sectioned m v w true p) : p.result = none := by
  cases p with
  | ret a => cases h
  | _ => rfl

/-- A section that has got to `q` comes to the same from there. -/
theorem close_of_acts {n : Nat} {s s' : σ} (h : Acts n p s q s') :
    close m l₀ p s = close m l₀ q s' := by
  induction h with
  | refl p s => rfl
  | act _ ih => exact ih

/-- A section comes to what its body does by itself. -/
theorem close_lockGuard {a : α} {s s' : σ} (hp : Body v w p) (h : p.alone s = some (a, s')) :
    close m l₀ (p.bind fun a => .unlock m (.ret a)) s = (.ret a, s') := by
  induction p generalizing s with
  | ret b =>
    cases h
    rfl
  | fault => cases h
  | lock m' k ih => exact hp.elim
  | unlock m' k ih => exact hp.elim
  | act l f k ih => exact ih s (hp.2 s) h

/-- An action on the other part may as well come before what was done of a section. -/
theorem Acts.across (hparts : Parts v w) (hg : On w v g k') {n : Nat} {s s' : σ}
    (h : Acts n p s q s') (hp : Sectioned m v w true p) :
    Acts n p (g s) q (g s') ∧ w s = w s' := by
  induction h with
  | refl p s => exact ⟨.refl p _, rfl⟩
  | @act n l f k s q s' _ ih =>
    obtain ⟨hf, hk⟩ := hp
    obtain ⟨hacts, hw⟩ := ih (hk s)
    refine ⟨.act ?_, (hf.keeps s).symm.trans hw⟩
    rw [hf.goes _ _ (hg.keeps s), hf.comm hparts hg s]
    exact hacts

end Programs

/-! ## The simulation -/

section Simulation

variable [DecidableEq L] {m : L} {l₀ : ℓ} {c c' d : Config ι L σ ℓ α}

/-- `d` is `c` with the sections of `m` merged: the thread that is in one has not begun it in `d`.
-/
structure Lags (m : L) (l₀ : ℓ) (v : σ → γ) (w : σ → δ) (c d : Config ι L σ ℓ α) : Prop where
  merged : d.owner m = none
  owner : ∀ m', m' ≠ m → d.owner m' = c.owner m'
  free : c.owner m = none → d.shared = c.shared
  outside : ∀ t, c.owner m ≠ some t →
    Sectioned m v w false (c.progs t) ∧ d.progs t = merge m l₀ (c.progs t)
  inside : ∀ t, c.owner m = some t → Sectioned m v w true (c.progs t) ∧
    ∃ n p, Acts n p d.shared (c.progs t) c.shared ∧ Sectioned m v w true p ∧
      d.progs t = merge m l₀ (.lock m p)

/-- A state in which no call is in progress. -/
theorem lags_start (howner : ∀ m, c.owner m = none) (hprogs : ∀ t, ∃ a, c.progs t = .ret a) :
    Lags m l₀ v w c c where
  merged := howner m
  owner _ _ := rfl
  free _ := rfl
  outside t _ := by
    obtain ⟨a, ha⟩ := hprogs t
    rw [ha]
    exact ⟨rfl, rfl⟩
  inside t ht := by
    rw [howner m] at ht
    cases ht

variable [DecidableEq ι] {t : ι}

/-- A thread outside the sections takes a step that the merged code takes as well. -/
theorem Lags.both (R : Lags m l₀ v w c d) (ht : c.owner m ≠ some t) {d' : Config ι L σ ℓ α}
    {p : Prog L σ ℓ α} (hp : Sectioned m v w false p)
    (hprogs : c'.progs = Function.update c.progs t p)
    (hprogs' : d'.progs = Function.update d.progs t (merge m l₀ p))
    (hm : c'.owner m = c.owner m) (hm' : d'.owner m = none)
    (howner : ∀ m', m' ≠ m → d'.owner m' = c'.owner m')
    (hfree : d.shared = c.shared → d'.shared = c'.shared)
    (hacts : ∀ n (q q' : Prog L σ ℓ α), Sectioned m v w true q → Acts n q d.shared q' c.shared →
      Acts n q d'.shared q' c'.shared) : Lags m l₀ v w c' d' where
  merged := hm'
  owner := howner
  free h := hfree (R.free (hm.symm.trans h))
  outside u hu := by
    rw [hprogs, hprogs']
    by_cases he : u = t
    · subst he
      rw [Function.update_self, Function.update_self]
      exact ⟨hp, rfl⟩
    · rw [Function.update_of_ne he, Function.update_of_ne he]
      rw [hm] at hu
      exact R.outside u hu
  inside u hu := by
    rw [hm] at hu
    have he : u ≠ t := by
      rintro rfl
      exact ht hu
    rw [hprogs, hprogs', Function.update_of_ne he, Function.update_of_ne he]
    obtain ⟨hsec, n, q, h, hq, hd⟩ := R.inside u hu
    exact ⟨hsec, n, q, hacts n q _ hq h, hq, hd⟩

/-- A thread locks `m`: the merged code waits. -/
theorem Lags.enter (R : Lags m l₀ v w c d) {k : Prog L σ ℓ α} (hp : c.progs t = .lock m k)
    (hfree : c.owner m = none)
    (hc : c' = { c with
      owner := Function.update c.owner m (some t)
      progs := Function.update c.progs t k }) : Lags m l₀ v w c' d := by
  have hnot : ∀ u, c.owner m ≠ some u := by
    intro u
    rw [hfree]
    exact nofun
  obtain ⟨⟨-, hk⟩, hd⟩ := hp ▸ R.outside t (hnot t)
  rw [decide_eq_true rfl] at hk
  subst hc
  refine ⟨R.merged, fun m' hm => ?_, fun h => ?_, fun u hu => ?_, fun u hu => ?_⟩
  · exact (R.owner m' hm).trans (Function.update_of_ne hm ..).symm
  · dsimp only at h
    rw [Function.update_self] at h
    cases h
  · dsimp only at hu ⊢
    rw [Function.update_self] at hu
    have he : u ≠ t := fun he => hu (congrArg some he.symm)
    rw [Function.update_of_ne he]
    exact R.outside u (hnot u)
  · dsimp only at hu ⊢
    rw [Function.update_self] at hu
    obtain rfl := Option.some.inj hu
    rw [Function.update_self]
    refine ⟨hk, 0, k, ?_, hk, hd⟩
    rw [R.free hfree]
    exact .refl k _

/-- A thread acts inside a section: the merged code waits. -/
theorem Lags.within (R : Lags m l₀ v w c d) (ht : c.owner m = some t) {l : ℓ} {f : σ → σ}
    {k : σ → Prog L σ ℓ α} (hp : c.progs t = .act l f k)
    (hc : c' = { c with
      shared := f c.shared
      progs := Function.update c.progs t (k c.shared) }) : Lags m l₀ v w c' d := by
  obtain ⟨hsec, n, p, h, hpsec, hd⟩ := R.inside t ht
  rw [hp] at hsec h
  subst hc
  refine ⟨R.merged, R.owner, fun hnone => ?_, fun u hu => ?_, fun u hu => ?_⟩
  · rw [hnone] at ht
    cases ht
  · have he : u ≠ t := by
      rintro rfl
      exact hu ht
    dsimp only
    rw [Function.update_of_ne he]
    exact R.outside u hu
  · rw [ht] at hu
    dsimp only
    obtain rfl := Option.some.inj hu
    rw [Function.update_self]
    exact ⟨hsec.2 c.shared, n + 1, p, h.trans (.act (.refl _ _)), hpsec, hd⟩

/-- A thread leaves its section: the merged code takes its one action. -/
theorem Lags.leave (R : Lags m l₀ v w c d) (ht : c.owner m = some t) {k : Prog L σ ℓ α}
    (hp : c.progs t = .unlock m k)
    (hc : c' = { c with
      owner := Function.update c.owner m none
      progs := Function.update c.progs t k }) :
    ∃ f k', d.progs t = .act l₀ f k' ∧ f d.shared = c'.shared ∧ k' d.shared = merge m l₀ k ∧
      Lags m l₀ v w c' ⟨c'.shared, d.owner, Function.update d.progs t (merge m l₀ k)⟩ := by
  obtain ⟨⟨-, hk⟩, n, p, h, -, hd⟩ := hp ▸ R.inside t ht
  have hclose : close m l₀ p d.shared = (merge m l₀ k, c.shared) := close_of_acts h
  rw [merge, if_pos rfl] at hd
  subst hc
  refine ⟨_, _, hd, by rw [hclose], by rw [hclose], R.merged, fun m' hm => ?_, fun _ => rfl,
    fun u hu => ?_, fun u hu => ?_⟩
  · exact (R.owner m' hm).trans (Function.update_of_ne hm ..).symm
  · dsimp only
    by_cases he : u = t
    · subst he
      rw [Function.update_self, Function.update_self]
      exact ⟨hk, rfl⟩
    · rw [Function.update_of_ne he, Function.update_of_ne he]
      refine R.outside u fun hown => he ?_
      rw [ht] at hown
      exact (Option.some.inj hown).symm
  · dsimp only at hu
    rw [Function.update_self] at hu
    cases hu

theorem callStep_of_go {code : ι → C → Prog L σ ℓ α}
    (h : threadStep code c (.go t) = .ok (c', ())) :
    callStep code c (.go t) = .ok (c', (c'.progs t).result) :=
  map_eq_ok.mpr ⟨_, h, rfl⟩

/-- The code with merged sections. -/
def mergedCode (m : L) (l₀ : ℓ) (code : ι → C → Prog L σ ℓ α) (t : ι) (call : C) : Prog L σ ℓ α :=
  merge m l₀ (code t call)

variable {code : ι → C → Prog L σ ℓ α}

/-- A call begins in both. -/
theorem Lags.start (R : Lags m l₀ v w c d) {call : C}
    (hcode : Sectioned m v w false (code t call)) {out : Option α}
    (h : callStep code c (.start t call) = .ok (c', out)) :
    ∃ d', callStep (mergedCode m l₀ code) d (.start t call) = .ok (d', out) ∧
      Lags m l₀ v w c' d' := by
  obtain ⟨hs, rfl⟩ := callStep_start h
  simp only [threadStep] at hs
  split at hs
  · rename_i a hp
    cases hs
    have ht : c.owner m ≠ some t := by
      intro hown
      obtain ⟨hsec, -⟩ := R.inside t hown
      rw [hp] at hsec
      cases hsec
    have hd : d.progs t = .ret a := by
      rw [(R.outside t ht).2, hp]
      rfl
    refine ⟨_, by simp only [callStep, threadStep, hd]; rfl, ?_⟩
    exact R.both ht hcode rfl rfl rfl R.merged R.owner (fun he => he) fun _ _ _ _ h => h
  · cases hs

/-- A step of the thread that is in a section: nobody sees it, or the section ends with it. -/
theorem Lags.go_inside (R : Lags m l₀ v w c d) (ht : c.owner m = some t)
    (h : threadStep code c (.go t) = .ok (c', ())) :
    (∃ d', threadStep (mergedCode m l₀ code) d (.go t) = .ok (d', ()) ∧
        (d'.progs t).result = (c'.progs t).result ∧ Lags m l₀ v w c' d') ∨
      ((c'.progs t).result = none ∧ Lags m l₀ v w c' d) := by
  obtain ⟨hsec, -⟩ := R.inside t ht
  simp only [threadStep] at h
  split at h
  · cases h
  · cases h
  · rename_i m' k hp
    rw [hp] at hsec
    cases hsec.1
  · rename_i m' k hp
    rw [hp] at hsec
    obtain rfl : m' = m := hsec.1.mpr rfl
    cases h
    obtain ⟨f, k', hd, hs, hk, R'⟩ := R.leave ht hp rfl
    refine Or.inl ⟨_, by simp only [threadStep, hd, hs, hk], ?_, R'⟩
    dsimp only
    rw [Function.update_self, Function.update_self, result_merge]
  · rename_i l f k hp
    rw [hp] at hsec
    cases h
    refine Or.inr ⟨?_, R.within ht hp rfl⟩
    dsimp only
    rw [Function.update_self]
    exact result_inside (hsec.2 c.shared)

omit [DecidableEq ι] in
/-- One mutex other than `m` changes hands. -/
theorem Lags.update_owner (R : Lags m l₀ v w c d) {m' m₁ : L} (hm₁ : m₁ ≠ m) (u : Option ι) :
    Function.update d.owner m' u m₁ = Function.update c.owner m' u m₁ := by
  by_cases he : m₁ = m'
  · subst he
    rw [Function.update_self, Function.update_self]
  · rw [Function.update_of_ne he, Function.update_of_ne he, R.owner m₁ hm₁]

/-- A step of a thread that is in no section: it begins one, or both take the step. -/
theorem Lags.go_outside (hparts : Parts v w) (R : Lags m l₀ v w c d) (ht : c.owner m ≠ some t)
    (h : threadStep code c (.go t) = .ok (c', ())) :
    (∃ d', threadStep (mergedCode m l₀ code) d (.go t) = .ok (d', ()) ∧
        (d'.progs t).result = (c'.progs t).result ∧ Lags m l₀ v w c' d') ∨
      ((c'.progs t).result = none ∧ Lags m l₀ v w c' d) := by
  obtain ⟨hsec, hd⟩ := R.outside t ht
  have hresult : ∀ k : Prog L σ ℓ α, (Function.update d.progs t (merge m l₀ k) t).result =
      (Function.update c.progs t k t).result := by
    intro k
    rw [Function.update_self, Function.update_self, result_merge]
  simp only [threadStep] at h
  split at h
  · cases h
  · cases h
  · rename_i m' k hp
    rw [hp] at hsec hd
    split at h
    · rename_i hfree
      cases h
      by_cases hm : m' = m
      · subst hm
        refine Or.inr ⟨?_, R.enter hp hfree rfl⟩
        have hk := hsec.2
        rw [decide_eq_true rfl] at hk
        dsimp only
        rw [Function.update_self]
        exact result_inside hk
      · rw [merge, if_neg hm] at hd
        have hk := hsec.2
        rw [decide_eq_false hm] at hk
        have hne : m ≠ m' := Ne.symm hm
        refine Or.inl ⟨⟨d.shared, Function.update d.owner m' (some t),
            Function.update d.progs t (merge m l₀ k)⟩,
          by simp only [threadStep, hd, R.owner m' hm, hfree], hresult k,
          R.both ht hk rfl rfl (Function.update_of_ne hne ..)
            ((Function.update_of_ne hne ..).trans R.merged) (fun _ hm₁ => R.update_owner hm₁ _)
            (fun hs => hs) fun _ _ _ _ h => h⟩
    · cases h
  · rename_i m' k hp
    rw [hp] at hsec hd
    cases h
    have hne : m ≠ m' := fun hm => Bool.false_ne_true (hsec.1.mp hm.symm)
    rw [merge] at hd
    refine Or.inl ⟨⟨d.shared, Function.update d.owner m' none,
        Function.update d.progs t (merge m l₀ k)⟩, by simp only [threadStep, hd], hresult k,
      R.both ht hsec.2 rfl rfl (Function.update_of_ne hne ..)
        ((Function.update_of_ne hne ..).trans R.merged) (fun _ hm₁ => R.update_owner hm₁ _)
        (fun hs => hs) fun _ _ _ _ h => h⟩
  · rename_i l f k hp
    rw [hp] at hsec hd
    cases h
    -- the action sees the same in the state that the merged code has got to
    have hw : w d.shared = w c.shared := by
      cases hown : c.owner m with
      | none => rw [R.free hown]
      | some u =>
        obtain ⟨-, n, p, hacts, hpsec, -⟩ := R.inside u hown
        exact (hacts.across hparts hsec.1 hpsec).2
    rw [merge] at hd
    refine Or.inl ⟨⟨f d.shared, d.owner, Function.update d.progs t (merge m l₀ (k c.shared))⟩,
      by simp only [threadStep, hd, hsec.1.goes _ _ hw], hresult (k c.shared),
      R.both ht (hsec.2 c.shared) rfl rfl rfl R.merged R.owner
        (fun hs => congrArg f hs) fun n q q' hq hacts => (hacts.across hparts hsec.1 hq).1⟩

/-- **A step** of the code is a step of the merged code with the same result, or one inside a
section, which nobody sees. -/
theorem merge_step (hparts : Parts v w) (hcode : ∀ t call, Sectioned m v w false (code t call))
    (R : Lags m l₀ v w c d) {move : Move ι C} {out : Option α}
    (h : callStep code c move = .ok (c', out)) :
    (∃ d', callStep (mergedCode m l₀ code) d move = .ok (d', out) ∧ Lags m l₀ v w c' d') ∨
      ((∃ t, move = .go t) ∧ out = none ∧ Lags m l₀ v w c' d) := by
  cases move with
  | start t call => exact Or.inl (R.start (hcode t call) h)
  | go t =>
    obtain ⟨hs, rfl⟩ := callStep_go h
    have hgo : (∃ d', threadStep (mergedCode m l₀ code) d (.go t) = .ok (d', ()) ∧
          (d'.progs t).result = (c'.progs t).result ∧ Lags m l₀ v w c' d') ∨
        ((c'.progs t).result = none ∧ Lags m l₀ v w c' d) := by
      by_cases ht : c.owner m = some t
      · exact R.go_inside ht hs
      · exact R.go_outside hparts ht hs
    rcases hgo with ⟨d', hd, hres, R'⟩ | ⟨hnone, R'⟩
    · exact Or.inl ⟨d', by rw [callStep_of_go hd, hres], R'⟩
    · exact Or.inr ⟨⟨t, rfl⟩, hnone, R'⟩

/-- In merged code a lock guard is one step, which does what its body does by itself. -/
theorem go_merged_lockGuard {code' : ι → C → Prog L σ ℓ α} {p : Prog L σ ℓ α} {a : α} {s' : σ}
    (hp : Body v w p) (hd : d.progs t = merge m l₀ (Prog.lockGuard m p))
    (h : p.alone d.shared = some (a, s')) :
    callStep code' d (.go t) =
      .ok (⟨s', d.owner, Function.update d.progs t (.ret a)⟩, some a) := by
  rw [Prog.lockGuard, merge, if_pos rfl] at hd
  have hgo : threadStep code' d (.go t) =
      .ok (⟨s', d.owner, Function.update d.progs t (.ret a)⟩, ()) := by
    simp only [threadStep, hd, close_lockGuard hp h]
  rw [callStep_of_go hgo]
  dsimp only
  rw [Function.update_self]
  rfl

/-! ## Runs -/

/-- What there is to see of a run: the calls, and what they return. -/
inductive Seen (ι C α : Type)
  | called (t : ι) (call : C)
  | returned (t : ι) (a : α)
  deriving DecidableEq

def seen : Move ι C → Option α → List (Seen ι C α)
  | .start t call, _ => [.called t call]
  | .go t, some a => [.returned t a]
  | .go _, none => []

def history (moves : List (Move ι C)) (outs : List (Option α)) : List (Seen ι C α) :=
  (List.zipWith seen moves outs).flatten

/-- **Sections are atomic.** What is seen of any run of the code is seen of a run of the merged
code, which makes some of its moves; whenever nobody is in a section, the two are in the same
state. -/
theorem merge_run (hparts : Parts v w) (hcode : ∀ t call, Sectioned m v w false (code t call))
    (R : Lags m l₀ v w c d) {moves : List (Move ι C)} {outs : List (Option α)}
    (h : run (callStep code) c moves = .ok (c', outs)) :
    ∃ moves' outs' d', moves'.Sublist moves ∧
      run (callStep (mergedCode m l₀ code)) d moves' = .ok (d', outs') ∧
      history moves' outs' = history moves outs ∧ Lags m l₀ v w c' d' := by
  induction moves generalizing c d outs with
  | nil =>
    cases h
    exact ⟨[], [], d, List.nil_sublist _, rfl, rfl, R⟩
  | cons move moves ih =>
    obtain ⟨c₁, out, outs₁, hstep, hrun, rfl⟩ := run_cons_eq_ok.mp h
    rcases merge_step hparts hcode R hstep with ⟨d₁, hd, R₁⟩ | ⟨⟨t, rfl⟩, rfl, R₁⟩
    · obtain ⟨moves', outs', d', hsub, hrun', hhist, R'⟩ := ih R₁ hrun
      refine ⟨move :: moves', out :: outs', d', hsub.cons_cons move, ?_, ?_, R'⟩
      · rw [run_cons_ok hd, hrun']
      · simp only [history, List.zipWith_cons_cons, List.flatten_cons]
        exact congrArg _ hhist
    · obtain ⟨moves', outs', d', hsub, hrun', hhist, R'⟩ := ih R₁ hrun
      exact ⟨moves', outs', d', hsub.cons _, hrun', hhist, R'⟩

end Simulation

end Lib.Threads
