import Lldk.Utilities.ThreadLocal

/-!
What `foreach` returns and which pointers it passes to its callback.

* `ReturnsZero func s as`: `func`, called on all of `as`, never asks to stop. `Visited` splits a
  traversal at the first call that does.
* `foreach_result_iff`: when `foreach` returns what it documents.
-/

namespace Lldk

open Lib Lib.Trace Process

variable {β σ : Type}

/-! ## A traversal -/

/-- The state of the callback after its calls on `as`. -/
def after (func : σ → Nat → σ × Int) (s : σ) (as : List Nat) : σ :=
  as.foldl (fun s a => (func s a).1) s

/-- Called on `as`, one after the other, `func` returns 0 each time. -/
def ReturnsZero (func : σ → Nat → σ × Int) : σ → List Nat → Prop
  | _, [] => True
  | s, a :: as => (func s a).2 = 0 ∧ ReturnsZero func (func s a).1 as

/-- What a traversal of `as` comes to: `calls` are the pointers that `func` is called on, and
`stopped` says whether the last of these calls asked to stop. -/
inductive Visited (func : σ → Nat → σ × Int) (s : σ) (as : List Nat) : List Nat → Bool → Prop
  | all : ReturnsZero func s as → Visited func s as as false
  | stop {pre post : List Nat} {a : Nat} : as = pre ++ a :: post → ReturnsZero func s pre →
      (func (after func s pre) a).2 ≠ 0 → Visited func s as (pre ++ [a]) true

theorem exists_visited (func : σ → Nat → σ × Int) (s : σ) (as : List Nat) :
    ∃ calls stopped, Visited func s as calls stopped := by
  induction as generalizing s with
  | nil => exact ⟨[], false, .all trivial⟩
  | cons a as ih =>
    by_cases hrc : (func s a).2 = 0
    · obtain ⟨calls, stopped, hcalls⟩ := ih (func s a).1
      refine ⟨a :: calls, stopped, ?_⟩
      cases hcalls with
      | all hz => exact .all ⟨hrc, hz⟩
      | @stop pre post b he hz hstop =>
        have hsplit : a :: as = (a :: pre) ++ b :: post := by rw [he, List.cons_append]
        exact .stop hsplit ⟨hrc, hz⟩ hstop
    · have hsplit : a :: as = [] ++ a :: as := rfl
      exact ⟨[a], true, .stop hsplit trivial hrc⟩

theorem visit_of_returnsZero {func : σ → Nat → σ × Int} {s : σ} {as : List Nat}
    (h : ReturnsZero func s as) : visit func s as = (true, after func s as) := by
  induction as generalizing s with
  | nil => rfl
  | cons a as ih =>
    rw [visit_cons, if_neg (not_not_intro h.1)]
    exact ih h.2

theorem visit_of_stop {func : σ → Nat → σ × Int} {s : σ} {pre : List Nat} {a : Nat}
    (h : ReturnsZero func s pre) (hstop : (func (after func s pre) a).2 ≠ 0) (post : List Nat) :
    visit func s (pre ++ a :: post) = (false, after func s (pre ++ [a])) := by
  induction pre generalizing s with
  | nil =>
    rw [List.nil_append, visit_cons]
    exact if_pos hstop
  | cons b pre ih =>
    rw [List.cons_append, visit_cons, if_neg (not_not_intro h.1)]
    exact ih h.2 hstop

/-- **A traversal** passes over its list up to and including the first call that asks to stop. -/
theorem Visited.visit_eq {func : σ → Nat → σ × Int} {s : σ} {as calls : List Nat} {stopped : Bool}
    (h : Visited func s as calls stopped) : visit func s as = (!stopped, after func s calls) := by
  cases h with
  | all hz => exact visit_of_returnsZero hz
  | @stop pre post a he hz hstop =>
    rw [he]
    exact visit_of_stop hz hstop post

theorem not_returnsZero_append {func : σ → Nat → σ × Int} {s : σ} {pre post : List Nat} {a : Nat}
    (h : (func (after func s pre) a).2 ≠ 0) : ¬ ReturnsZero func s (pre ++ a :: post) := by
  induction pre generalizing s with
  | nil => exact fun hz => h hz.1
  | cons b pre ih => exact fun hz => ih h hz.2

theorem Visited.stopped_eq {func : σ → Nat → σ × Int} {s : σ} {as calls : List Nat} {stopped : Bool}
    (h : Visited func s as calls stopped) : stopped = false ↔ ReturnsZero func s as := by
  cases h with
  | all hz => exact ⟨fun _ => hz, fun _ => rfl⟩
  | stop he _ hstop =>
    refine ⟨fun hf => (nomatch hf), fun hz => ?_⟩
    rw [he] at hz
    exact absurd hz (not_returnsZero_append hstop)

/-- `foreach` returns 0 when its callback never asks to stop, and -1 when it does. -/
theorem foreach_of_visited (p : Process β) (t : Tid) {i : Nat} (hi : i < kMaxInstanceId)
    {func : σ → Nat → σ × Int} {s : σ} {calls : List Nat} {stopped : Bool}
    (h : Visited func s (p.storages i) calls stopped) :
    p.foreach t i (some func) s = .ok (if stopped then -1 else 0, after func s calls,
      if stopped then p.lldkSetErrorCode t .kCallFailed else p) := by
  rw [foreach_eq p t hi func s, h.visit_eq]
  cases stopped <;> rfl

/-! ## The documented result -/

/-- The call returns, and not something other than 0 without a reason. -/
def ReturnsNonzeroOnlyIf (reason : Prop) (r : Except Fault (Int × σ × Process β)) : Prop :=
  ∃ rc s' p', r = .ok (rc, s', p') ∧ (rc ≠ 0 → reason)

theorem foreachLoop_outside (p : Process β) {i : Nat} (hi : kMaxInstanceId ≤ i)
    (func : σ → Nat → σ × Int) (s : σ) (ts : List Tid) :
    foreachLoop p.s_ppInstances i func s ts =
      if ∀ t, t ∈ ts → ¬ p.hasTable t then .ok (true, s) else .error (.slotRange i) := by
  induction ts with
  | nil => rfl
  | cons t ts ih =>
    cases ht : p.s_ppInstances t with
    | none =>
      have hno : ¬ p.hasTable t := noTable_iff.mpr ht
      simp only [foreachLoop, ht, ih, List.forall_mem_cons, hno, not_false_eq_true, true_and]
    | some table =>
      have hyes : p.hasTable t := ⟨table, ht⟩
      have hge : ¬ i < kMaxInstanceId := Nat.not_lt.mpr hi
      simp only [foreachLoop, ht, hge, if_false, List.forall_mem_cons, hyes, not_true_eq_false,
        false_and]

/-- `LldkThreadLocalBase::foreach` -/
theorem base_foreach_result_iff (p : Process β) (t : Tid) (i : Nat)
    (func : Option (σ → Nat → σ × Int)) (s : σ) :
    ReturnsNonzeroOnlyIf (func = none ∨ kMaxInstanceId ≤ i) (p.foreach t i func s) ↔
      ∀ f, func = some f → (i < kMaxInstanceId → ReturnsZero f s (p.storages i)) ∧
        (kMaxInstanceId ≤ i → ∀ t', t' ∈ p.s_vecpppInstances → ¬ p.hasTable t') := by
  cases func with
  | none => exact ⟨fun _ f hf => (nomatch hf), fun _ => ⟨-1, s, _, rfl, fun _ => Or.inl rfl⟩⟩
  | some f =>
    rcases Nat.lt_or_ge i kMaxInstanceId with hi | hi
    · obtain ⟨calls, stopped, hcalls⟩ := exists_visited f s (p.storages i)
      rw [foreach_of_visited p t hi hcalls]
      constructor
      · rintro ⟨rc, s', q, he, hreason⟩ g hg
        cases hg
        cases he
        refine ⟨fun _ => hcalls.stopped_eq.mp ?_, fun hge => absurd hi (Nat.not_lt.mpr hge)⟩
        cases stopped with
        | false => rfl
        | true =>
          rcases hreason (by decide) with hnone | hge
          · cases hnone
          · exact absurd hi (Nat.not_lt.mpr hge)
      · intro h
        have hstopped : stopped = false := hcalls.stopped_eq.mpr ((h f rfl).1 hi)
        exact ⟨_, _, _, rfl, fun hne => absurd (by rw [hstopped]; rfl) hne⟩
    · have hforeach : p.foreach t i (some f) s =
          if ∀ t', t' ∈ p.s_vecpppInstances → ¬ p.hasTable t' then .ok (0, s, p)
          else .error (.slotRange i) := by
        simp only [Process.foreach, foreachLoop_outside p hi]
        by_cases hno : ∀ t', t' ∈ p.s_vecpppInstances → ¬ p.hasTable t'
        · rw [if_pos hno, if_pos hno]
        · rw [if_neg hno, if_neg hno]
      rw [hforeach]
      constructor
      · rintro ⟨rc, s', q, he, -⟩ g hg
        refine ⟨fun hlt => absurd hlt (Nat.not_lt.mpr hi), fun _ => ?_⟩
        split at he
        · assumption
        · cases he
      · intro h
        exact ⟨0, s, p, if_pos ((h f rfl).2 hi), fun _ => Or.inr hi⟩

/-- **The documented result, exactly.** Both functions return, and return non-zero only for an
empty callback or an invalid id, iff the callback is empty, or never asks to stop; an id outside the
tables must meet none, unless `LldkThreadLocal::foreach` recognizes it. -/
theorem foreach_result_iff (p : Process β) (t : Tid) (i : Nat) (obj : LldkThreadLocal)
    (func : Option (σ → Nat → σ × Int)) (s : σ) :
    (ReturnsNonzeroOnlyIf (func = none ∨ kMaxInstanceId ≤ i) (p.foreach t i func s) ↔
      ∀ f, func = some f → (i < kMaxInstanceId → ReturnsZero f s (p.storages i)) ∧
        (kMaxInstanceId ≤ i → ∀ t', t' ∈ p.s_vecpppInstances → ¬ p.hasTable t')) ∧
    (ReturnsNonzeroOnlyIf (func = none ∨ kMaxInstanceId ≤ obj.m_uInstanceId)
        (obj.foreach p t func s) ↔
      ∀ f, func = some f →
        (obj.m_uInstanceId < kMaxInstanceId →
          ReturnsZero f s (p.storages obj.m_uInstanceId)) ∧
        (kMaxInstanceId < obj.m_uInstanceId →
          ∀ t', t' ∈ p.s_vecpppInstances → ¬ p.hasTable t')) := by
  refine ⟨base_foreach_result_iff p t i func s, ?_⟩
  cases func with
  | none => exact ⟨fun _ f hf => (nomatch hf), fun _ => ⟨-1, s, _, rfl, fun _ => Or.inl rfl⟩⟩
  | some f =>
    by_cases hinv : obj.m_uInstanceId = kInvalidInstanceId
    · have hforeach : obj.foreach p t (some f) s = .ok (-1, s, p) := by
        simp only [LldkThreadLocal.foreach, hinv, ne_eq, not_true_eq_false, if_false]
      rw [hforeach]
      refine ⟨fun _ _ _ => ⟨fun hlt => absurd hinv (Nat.ne_of_lt hlt),
        fun hgt => absurd hinv (Nat.ne_of_gt hgt)⟩,
        fun _ => ⟨-1, s, p, rfl, fun _ => Or.inr (Nat.le_of_eq hinv.symm)⟩⟩
    · have hforeach : obj.foreach p t (some f) s =
          p.foreach t obj.m_uInstanceId (some f) s := by
        simp only [LldkThreadLocal.foreach, hinv, ne_eq, not_false_eq_true, if_true]
      rw [hforeach, base_foreach_result_iff p t obj.m_uInstanceId (some f) s]
      have hge : kMaxInstanceId ≤ obj.m_uInstanceId ↔ kMaxInstanceId < obj.m_uInstanceId :=
        ⟨fun h => Nat.lt_of_le_of_ne h (Ne.symm hinv), Nat.le_of_lt⟩
      simp only [hge]

/-- A callback that stops at the first storage makes both functions fail, with a callback and an
id that are there. -/
theorem stopped_foreach_fails :
    ∃ p q r, LldkThreadLocal.construct (⟨16, ()⟩ : ObjectType Unit) .init 1 {} =
        .ok (.object ⟨0⟩ 0, p) ∧
      p.foreach 1 0 (some fun (s : Unit) _ => (s, 1)) () = .ok (-1, (), q) ∧
      (⟨0⟩ : LldkThreadLocal).foreach p 1 (some fun (s : Unit) _ => (s, 1)) () =
        .ok (-1, (), r) := by
  have hends : (LldkThreadLocal.construct (⟨16, ()⟩ : ObjectType Unit) .init 1 {}).toOption.any
      (fun c => decide (c.1 = .object ⟨0⟩ 0) &&
        ((c.2.foreach 1 0 (some fun (s : Unit) _ => (s, 1)) ()).toOption.any fun r =>
          decide (r.1 = -1)) &&
        (((⟨0⟩ : LldkThreadLocal).foreach c.2 1 (some fun (s : Unit) _ => (s, 1)) ()).toOption.any
          fun r => decide (r.1 = -1))) = true := by decide +kernel
  obtain ⟨⟨c, p⟩, hc, hends⟩ := exists_of_any hends
  obtain ⟨hends, hobj⟩ := Bool.and_eq_true_iff.mp hends
  obtain ⟨hbuilt, hbase⟩ := Bool.and_eq_true_iff.mp hends
  obtain rfl : c = .object ⟨0⟩ 0 := of_decide_eq_true hbuilt
  obtain ⟨⟨rc, _, q⟩, hbase, hrc⟩ := exists_of_any hbase
  obtain ⟨⟨rc', _, r⟩, hobj, hrc'⟩ := exists_of_any hobj
  obtain rfl : rc = -1 := of_decide_eq_true hrc
  obtain rfl : rc' = -1 := of_decide_eq_true hrc'
  exact ⟨p, q, r, hc, hbase, hobj⟩

end Lldk
