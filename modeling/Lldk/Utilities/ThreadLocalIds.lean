import Lldk.Utilities.ThreadLocal

/-!
The ids of `LldkThreadLocal` objects.

* `IdInv`: objects with an id have different ones, and those ids are marked in `s_bitset`. Each
  member of the class keeps it (`idInv_step`); a move hands the id over, so that `transfer` is
  the one argument for both kinds of move.
* `ids_unique`: over every run, with what `newInstanceId` hands out in each state.
-/

namespace Lldk

open Lib.Trace Process

variable {β : Type}

/-! ## The invariant -/

structure IdInv (w : World β) : Prop where
  unique : ∀ o o' inst inst', w.objs o = some inst → w.objs o' = some inst' →
    inst.obj.m_uInstanceId < kMaxInstanceId →
    inst.obj.m_uInstanceId = inst'.obj.m_uInstanceId → o = o'
  used : ∀ o inst, w.objs o = some inst → inst.obj.m_uInstanceId < kMaxInstanceId →
    w.proc.marked inst.obj.m_uInstanceId
  bounded : ∀ o inst, w.objs o = some inst → inst.obj.m_uInstanceId ≤ kMaxInstanceId

theorem idInv_init : IdInv (World.init : World β) where
  unique := by
    intro o o' inst inst' ho
    cases ho
  used := by
    intro o inst ho
    cases ho
  bounded := by
    intro o inst ho
    cases ho

namespace IdInv

variable {w : World β} {o : Nat}

/-- A process that marks the ids of the live objects may take the place of the old one. -/
theorem withProc (I : IdInv w) {p : Process β}
    (hp : ∀ o inst, w.objs o = some inst → inst.obj.m_uInstanceId < kMaxInstanceId →
      p.marked inst.obj.m_uInstanceId) : IdInv { w with proc := p } :=
  ⟨I.unique, hp, I.bounded⟩

/-- A new object with an id that was not marked. -/
theorem construct (I : IdInv w) {i : Nat} (hi : i < kMaxInstanceId)
    (hfree : ¬ w.proc.marked i) {p : Process β} (hp : ∀ j, p.marked j ↔ w.proc.marked j ∨ j = i)
    {inst : Instance} (hinst : inst.obj.m_uInstanceId = i) :
    IdInv ⟨p, Function.update w.objs o (some inst)⟩ := by
  -- an object that was there has a marked id, so not the new one
  have hother : ∀ o' inst', w.objs o' = some inst' → inst'.obj.m_uInstanceId < kMaxInstanceId →
      inst'.obj.m_uInstanceId ≠ i := by
    intro o' inst' ho' hlt he
    have hm := I.used o' inst' ho' hlt
    rw [he] at hm
    exact hfree hm
  refine ⟨fun o₁ o₂ inst₁ inst₂ h₁ h₂ hlt he => ?_, fun o₁ inst₁ h₁ hlt => ?_,
    fun o₁ inst₁ h₁ => ?_⟩
  · simp only [Function.update_apply] at h₁ h₂
    split at h₁ <;> split at h₂
    · rename_i e₁ e₂
      exact e₁.trans e₂.symm
    · cases h₁
      rw [hinst] at hlt he
      exact absurd he.symm (hother o₂ inst₂ h₂ (he ▸ hlt))
    · cases h₂
      rw [hinst] at he
      exact absurd he (hother o₁ inst₁ h₁ hlt)
    · exact I.unique o₁ o₂ inst₁ inst₂ h₁ h₂ hlt he
  · simp only [Function.update_apply] at h₁
    show p.marked _
    rw [hp]
    split at h₁
    · cases h₁
      exact Or.inr hinst
    · exact Or.inl (I.used o₁ inst₁ h₁ hlt)
  · simp only [Function.update_apply] at h₁
    split at h₁
    · cases h₁
      omega
    · exact I.bounded o₁ inst₁ h₁

/-- A move: the id of `src` goes to `o`, and `src` keeps none. -/
theorem transfer (I : IdInv w) {src : Nat} {that : Instance} (hsrc : w.objs src = some that)
    (hne : o ≠ src) : IdInv { w with objs := moved w.objs o src that } := by
  -- an object that holds an id afterwards is `o`, with the id of `that`, or was not touched
  have hlook : ∀ o' inst', moved w.objs o src that o' = some inst' →
      (o' = o ∧ inst' = that) ∨ inst'.obj.m_uInstanceId = kInvalidInstanceId ∨
        (o' ≠ src ∧ w.objs o' = some inst') := by
    intro o' inst' h
    unfold moved at h
    by_cases ho : o' = o
    · rw [ho, Function.update_self] at h
      exact Or.inl ⟨ho, (Option.some.inj h).symm⟩
    · rw [Function.update_of_ne ho] at h
      by_cases hs : o' = src
      · rw [hs, Function.update_self] at h
        cases h
        exact Or.inr (Or.inl rfl)
      · rw [Function.update_of_ne hs] at h
        exact Or.inr (Or.inr ⟨hs, h⟩)
  have hnone : ∀ {inst' : Instance}, inst'.obj.m_uInstanceId = kInvalidInstanceId →
      ¬ inst'.obj.m_uInstanceId < kMaxInstanceId := fun he hlt => Nat.ne_of_lt hlt he
  refine ⟨fun o₁ o₂ inst₁ inst₂ h₁ h₂ hlt he => ?_, fun o₁ inst₁ h₁ hlt => ?_,
    fun o₁ inst₁ h₁ => ?_⟩
  · have hlt₂ : inst₂.obj.m_uInstanceId < kMaxInstanceId := he ▸ hlt
    rcases hlook o₁ inst₁ h₁ with ⟨rfl, rfl⟩ | hno | ⟨hs₁, h₁'⟩
    · rcases hlook o₂ inst₂ h₂ with ⟨rfl, -⟩ | hno | ⟨hs₂, h₂'⟩
      · rfl
      · exact absurd hlt₂ (hnone hno)
      · exact absurd (I.unique src o₂ inst₁ inst₂ hsrc h₂' hlt he).symm hs₂
    · exact absurd hlt (hnone hno)
    · rcases hlook o₂ inst₂ h₂ with ⟨rfl, rfl⟩ | hno | ⟨-, h₂'⟩
      · exact absurd (I.unique o₁ src inst₁ inst₂ h₁' hsrc hlt he) hs₁
      · exact absurd hlt₂ (hnone hno)
      · exact I.unique o₁ o₂ inst₁ inst₂ h₁' h₂' hlt he
  · rcases hlook o₁ inst₁ h₁ with ⟨-, rfl⟩ | hno | ⟨-, h₁'⟩
    · exact I.used src inst₁ hsrc hlt
    · exact absurd hlt (hnone hno)
    · exact I.used o₁ inst₁ h₁' hlt
  · rcases hlook o₁ inst₁ h₁ with ⟨-, rfl⟩ | hno | ⟨-, h₁'⟩
    · exact I.bounded src inst₁ hsrc
    · exact Nat.le_of_eq hno
    · exact I.bounded o₁ inst₁ h₁'

/-- An object is gone, and its id is no longer marked. -/
theorem destroy (I : IdInv w) {inst : Instance} (ho : w.objs o = some inst) {p : Process β}
    (hp : ∀ j, p.marked j ↔ w.proc.marked j ∧ j ≠ inst.obj.m_uInstanceId) :
    IdInv ⟨p, Function.update w.objs o none⟩ := by
  have hlook : ∀ o' inst', Function.update w.objs o none o' = some inst' →
      o' ≠ o ∧ w.objs o' = some inst' := by
    intro o' inst' h
    by_cases he : o' = o
    · rw [he, Function.update_self] at h
      cases h
    · rw [Function.update_of_ne he] at h
      exact ⟨he, h⟩
  refine ⟨fun o₁ o₂ inst₁ inst₂ h₁ h₂ => ?_, fun o₁ inst₁ h₁ hlt => ?_, fun o₁ inst₁ h₁ => ?_⟩
  · exact I.unique o₁ o₂ inst₁ inst₂ (hlook o₁ inst₁ h₁).2 (hlook o₂ inst₂ h₂).2
  · obtain ⟨hne, h₁'⟩ := hlook o₁ inst₁ h₁
    refine (hp _).mpr ⟨I.used o₁ inst₁ h₁' hlt, fun he => ?_⟩
    exact hne (I.unique o₁ o inst₁ inst h₁' ho hlt he)
  · exact I.bounded o₁ inst₁ (hlook o₁ inst₁ h₁).2

end IdInv

/-! ## Steps -/

variable {T : ObjectType β} {w w' : World β} {op : WorldOp} {out : WorldOut}

/-- **Step lemma.** -/
theorem idInv_step (I : IdInv w) (h : worldStep T w op = .ok (w', out)) : IdInv w' := by
  cases stepped_of_ok h with
  | constructed ho hc =>
    obtain ⟨hi, hfree, -, hb⟩ := LldkThreadLocal.construct_object T hc
    exact I.construct hi hfree hb.marked rfl
  | threw ho hc =>
    rcases LldkThreadLocal.construct_threw T hc with ⟨rfl, -⟩ | ⟨i, -, hfree, -, ha⟩
    · exact I
    · refine I.withProc fun o' inst' ho' hlt => ?_
      have hm := I.used o' inst' ho' hlt
      have hne : inst'.obj.m_uInstanceId ≠ i := by
        intro he
        rw [he] at hm
        exact hfree hm
      exact (ha.keeps _ hne).mpr hm
  | moveConstructed ho hsrc =>
    refine I.transfer hsrc ?_
    rintro rfl
    rw [ho] at hsrc
    cases hsrc
  | moveAssigned hne ho hsrc => exact I.transfer hsrc hne
  | moveAssignedSelf ho => exact I
  | destroyed ho hd => exact I.destroy ho (LldkThreadLocal.destruct_destructed hd).marked
  | got ho hg => exact I
  | visited ho hf =>
    have hu := LldkThreadLocal.foreach_untouched (I.bounded _ _ ho) hf
    exact I.withProc fun o' inst' ho' hlt => (hu.marked _).mpr (I.used o' inst' ho' hlt)

/-! ## Runs -/

/-- What holds of the ids in every state. -/
structure IdsOk (w : World β) : Prop where
  unique : ∀ o o' inst inst', w.objs o = some inst → w.objs o' = some inst' →
    inst.obj.m_uInstanceId < kMaxInstanceId →
    inst.obj.m_uInstanceId = inst'.obj.m_uInstanceId → o = o'
  used : ∀ o inst, w.objs o = some inst → inst.obj.m_uInstanceId < kMaxInstanceId →
    w.proc.marked inst.obj.m_uInstanceId
  handsOutLeast : ∀ i, i < kMaxInstanceId → ¬ w.proc.marked i → (∀ j, j < i → w.proc.marked j) →
    ∃ p', w.proc.newInstanceId = .ok (i, p') ∧ ∀ j, p'.marked j ↔ w.proc.marked j ∨ j = i
  exhausted : ∀ p', w.proc.newInstanceId = .ok (kInvalidInstanceId, p') ↔
    p' = w.proc ∧ ∀ j, j < kMaxInstanceId → w.proc.marked j

theorem newInstanceId_invalid_iff (p p' : Process β) :
    p.newInstanceId = .ok (kInvalidInstanceId, p') ↔
      p' = p ∧ ∀ j, j < kMaxInstanceId → p.marked j := by
  constructor
  · intro h
    rcases exists_least_free p with ⟨i, hi, hfree, hleast⟩ | hall
    · obtain ⟨b, hnew, -⟩ := newInstanceId_least hi hfree hleast
      rw [h] at hnew
      cases hnew
      exact absurd hi (Nat.lt_irrefl _)
    · rw [newInstanceId_exhausted hall] at h
      cases h
      exact ⟨rfl, hall⟩
  · rintro ⟨rfl, hall⟩
    exact newInstanceId_exhausted hall

theorem IdInv.idsOk {w : World β} (I : IdInv w) : IdsOk w where
  unique := I.unique
  used := I.used
  handsOutLeast := by
    intro i hi hfree hleast
    obtain ⟨b, hnew, hmarked⟩ := newInstanceId_least hi hfree hleast
    exact ⟨_, hnew, hmarked⟩
  exhausted := newInstanceId_invalid_iff w.proc

/-- **Ids.** In every state that a run reaches no two live objects share an id, every id in use is
marked, and the next id is the least that is not marked. -/
theorem ids_unique (T : ObjectType β) {ops : List WorldOp} {w : World β} {outs : List WorldOut}
    (hr : run (worldStep T) World.init ops = .ok (w, outs)) : IdsOk w :=
  (run_invariant (fun _ _ _ _ I h => idInv_step I h) idInv_init hr).idsOk

/-- Two threads: an id is moved to a new object, released by it, and handed out again. -/
theorem ids_unique_sample :
    ∃ w outs, run (worldStep (⟨8, ()⟩ : ObjectType Unit)) World.init
        [.construct 1 0 {}, .construct 2 1 {}, .moveConstruct 2 0, .moveAssign 1 1, .destroy 1 2,
          .construct 1 3 {}, .destroy 2 1] = .ok (w, outs) ∧
      (w.objs 3).map (fun inst => inst.obj.m_uInstanceId) = some 0 ∧ IdsOk w := by
  have hends : (run (worldStep (⟨8, ()⟩ : ObjectType Unit)) World.init
      [.construct 1 0 {}, .construct 2 1 {}, .moveConstruct 2 0, .moveAssign 1 1, .destroy 1 2,
        .construct 1 3 {}, .destroy 2 1]).toOption.any (fun r =>
      decide ((r.1.objs 3).map (fun inst => inst.obj.m_uInstanceId) = some 0)) = true := by
    decide +kernel
  obtain ⟨⟨w, outs⟩, hr, hid⟩ := exists_of_any hends
  exact ⟨w, outs, hr, of_decide_eq_true hid, ids_unique _ hr⟩

end Lldk
