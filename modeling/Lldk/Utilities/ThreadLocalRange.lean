import Lldk.Utilities.ThreadLocal

/-!
The indices that `LldkThreadLocal` uses.

* `inRange`: a step uses no index of a slot table, and no bit of `s_bitset`, from
  `kMaxInstanceId` on.
* The mark of a moved-from object is `kMaxInstanceId` itself. `foreach` looks at it; `get` and the
  destructor do not, so that `readsHeldId` is what their callers have to see to.
* `inRange_iff` is the step, `indices_in_range_iff` the run.
-/

namespace Lldk

open Lib.Trace Process

variable {β : Type}

/-- An index beyond the slot table or beyond the array of the bitset. -/
def WorldFault.outOfRange : WorldFault → Bool
  | .library (.slotRange _) => true
  | .library (.bitRange _) => true
  | _ => false

/-- Every index that the step uses is below `kMaxInstanceId`. -/
def inRange (T : ObjectType β) (w : World β) (op : WorldOp) : Bool :=
  match worldStep T w op with
  | .error f => !f.outOfRange
  | .ok _ => true

/-- What is destroyed or read on a thread with a table holds an id. -/
def readsHeldId (w : World β) : WorldOp → Prop
  | .construct _ _ _ => True
  | .moveConstruct _ _ => True
  | .moveAssign _ _ => True
  | .destroy t o => w.proc.hasTable t →
      ∀ inst ∈ w.objs o, inst.obj.m_uInstanceId < kMaxInstanceId
  | .get t o => w.proc.hasTable t →
      ∀ inst ∈ w.objs o, inst.obj.m_uInstanceId < kMaxInstanceId
  | .foreach _ _ _ => True

/-! ## Ids never exceed the mark of a moved-from object -/

def Bounded (w : World β) : Prop :=
  ∀ o inst, w.objs o = some inst → inst.obj.m_uInstanceId ≤ kMaxInstanceId

theorem bounded_init : Bounded (World.init : World β) := by
  intro o inst ho
  cases ho

theorem bounded_moved {w : World β} (I : Bounded w) {o src : Nat} {that : Instance}
    (hsrc : w.objs src = some that) : Bounded { w with objs := moved w.objs o src that } := by
  intro o' inst' h
  show inst'.obj.m_uInstanceId ≤ kMaxInstanceId
  simp only [moved, Function.update_apply] at h
  split at h
  · cases h
    exact I src that hsrc
  · split at h
    · cases h
      exact Nat.le_refl _
    · exact I o' inst' h

variable (T : ObjectType β)

theorem bounded_step (w : World β) (op : WorldOp) (w' : World β) (out : WorldOut)
    (I : Bounded w) (h : worldStep T w op = .ok (w', out)) : Bounded w' := by
  cases stepped_of_ok h with
  | constructed ho hc =>
    intro o' inst' h'
    simp only [Function.update_apply] at h'
    split at h'
    · cases h'
      exact Nat.le_of_lt (LldkThreadLocal.construct_object T hc).1
    · exact I o' inst' h'
  | threw ho hc => exact I
  | moveConstructed ho hsrc => exact bounded_moved I hsrc
  | moveAssigned hne ho hsrc => exact bounded_moved I hsrc
  | moveAssignedSelf ho => exact I
  | destroyed ho hd =>
    intro o' inst' h'
    simp only [Function.update_apply] at h'
    split at h'
    · cases h'
    · exact I o' inst' h'
  | got ho hg => exact I
  | visited ho hf => exact I

/-! ## Single steps -/

variable {T} {w : World β} {t : Tid} {o : Nat}

theorem inRange_of_ok {op : WorldOp} {r : World β × WorldOut} (h : worldStep T w op = .ok r) :
    inRange T w op = true := by
  simp only [inRange, h]

theorem inRange_of_error {op : WorldOp} {f : WorldFault} (h : worldStep T w op = .error f) :
    inRange T w op = !f.outOfRange := by
  simp only [inRange, h]

theorem inRange_construct (w : World β) (t : Tid) (o : Nat) (env : Env) :
    inRange T w (.construct t o env) = true := by
  cases ho : w.objs o with
  | some inst => exact inRange_of_error (f := .badObject o) (by simp only [worldStep, ho])
  | none =>
    obtain ⟨r, p, hc⟩ := LldkThreadLocal.construct_returns T w.proc t env
    cases r with
    | object obj a => exact inRange_of_ok (worldStep_construct_object ho hc)
    | threw what => exact inRange_of_ok (worldStep_construct_threw ho hc)

theorem inRange_moveConstruct (w : World β) (o src : Nat) :
    inRange T w (.moveConstruct o src) = true := by
  cases ho : w.objs o with
  | some inst => exact inRange_of_error (f := .badObject o) (by simp only [worldStep, ho])
  | none =>
    cases hsrc : w.objs src with
    | none => exact inRange_of_error (f := .badObject src) (by simp only [worldStep, ho, hsrc])
    | some that => exact inRange_of_ok (worldStep_moveConstruct ho hsrc)

theorem inRange_moveAssign (w : World β) (o src : Nat) :
    inRange T w (.moveAssign o src) = true := by
  cases ho : w.objs o with
  | none => exact inRange_of_error (f := .badObject o) (by simp only [worldStep, ho])
  | some inst =>
    cases hsrc : w.objs src with
    | none => exact inRange_of_error (f := .badObject src) (by simp only [worldStep, ho, hsrc])
    | some that =>
      by_cases hne : o = src
      · subst hne
        exact inRange_of_ok (worldStep_moveAssign_self ho)
      · exact inRange_of_ok (worldStep_moveAssign hne ho hsrc)

/-- A step on a live object that begins with a read of its slot. -/
theorem inRange_reads {op : WorldOp} {inst : Instance}
    (hok : inst.obj.m_uInstanceId < kMaxInstanceId → w.proc.hasTable t → inRange T w op = true)
    (hget : ∀ f, w.proc.getThreadLocalStorage t inst.obj.m_uInstanceId = .error f →
      worldStep T w op = .error (.library f)) :
    inRange T w op = true ↔
      (w.proc.hasTable t → inst.obj.m_uInstanceId < kMaxInstanceId) := by
  by_cases ht : w.proc.hasTable t
  · by_cases hi : inst.obj.m_uInstanceId < kMaxInstanceId
    · exact ⟨fun _ _ => hi, fun _ => hok hi ht⟩
    · obtain ⟨table, htable⟩ := ht
      have hf := hget (.slotRange inst.obj.m_uInstanceId)
        (by simp only [getThreadLocalStorage, htable, hi, if_false])
      rw [inRange_of_error hf]
      exact ⟨fun h => Bool.noConfusion h, fun h => absurd (h ⟨table, htable⟩) hi⟩
  · rw [inRange_of_error (hget .nullTable (getThreadLocalStorage_noTable ht _))]
    exact ⟨fun _ h => absurd h ht, fun _ => rfl⟩

/-- The destructor reads the slot of whatever id its object has. -/
theorem inRange_destroy (w : World β) (t : Tid) (o : Nat) :
    inRange T w (.destroy t o) = true ↔ readsHeldId w (.destroy t o) := by
  cases ho : w.objs o with
  | none =>
    have hr : inRange T w (.destroy t o) = true :=
      inRange_of_error (f := .badObject o) (by simp only [worldStep, ho])
    simp [readsHeldId, ho, hr]
  | some inst =>
    simp only [readsHeldId, ho, Option.mem_def, Option.some.injEq, forall_eq']
    refine inRange_reads (fun hi ht => ?_) (fun f hf => ?_)
    · by_cases hlive : w.proc.slotLive t inst.obj.m_uInstanceId
      · obtain ⟨p, hd, -⟩ := LldkThreadLocal.destruct_spec hi ht hlive
        exact inRange_of_ok (worldStep_destroy ho hd)
      · -- the fault is another one
        unfold slotLive at hlive
        push Not at hlive
        obtain ⟨a, ha, hb⟩ := hlive
        have hgone : w.proc.heap.cells a = none := Option.eq_none_iff_forall_ne_some.mpr hb
        refine inRange_of_error (f := .library (.deadObject a)) ?_
        simp only [worldStep, ho, LldkThreadLocal.destruct_dead hi ht ha hgone]
    · simp only [worldStep, ho, LldkThreadLocal.destruct, hf]

theorem inRange_get (w : World β) (t : Tid) (o : Nat) :
    inRange T w (.get t o) = true ↔ readsHeldId w (.get t o) := by
  cases ho : w.objs o with
  | none =>
    have hr : inRange T w (.get t o) = true :=
      inRange_of_error (f := .badObject o) (by simp only [worldStep, ho])
    simp [readsHeldId, ho, hr]
  | some inst =>
    simp only [readsHeldId, ho, Option.mem_def, Option.some.injEq, forall_eq']
    refine inRange_reads (fun hi ht => inRange_of_ok (worldStep_get ho hi ht)) (fun f hf => ?_)
    simp only [worldStep, ho, LldkThreadLocal.get, hf]

/-- The mark of a moved-from object is looked at first. -/
theorem inRange_foreach (I : Bounded w) (t : Tid) (o : Nat) (answer : Nat → Int) :
    inRange T w (.foreach t o answer) = true := by
  cases ho : w.objs o with
  | none => exact inRange_of_error (f := .badObject o) (by simp only [worldStep, ho])
  | some inst =>
    obtain ⟨p, out, hs, -⟩ := worldStep_foreach ho (I o inst ho) answer
    exact inRange_of_ok hs

/-- **Step lemma.** -/
theorem inRange_iff (T : ObjectType β) (w : World β) (op : WorldOp) (I : Bounded w) :
    inRange T w op = true ↔ readsHeldId w op := by
  cases op with
  | construct t o env => exact ⟨fun _ => trivial, fun _ => inRange_construct w t o env⟩
  | moveConstruct o src => exact ⟨fun _ => trivial, fun _ => inRange_moveConstruct w o src⟩
  | moveAssign o src => exact ⟨fun _ => trivial, fun _ => inRange_moveAssign w o src⟩
  | destroy t o => exact inRange_destroy w t o
  | get t o => exact inRange_get w t o
  | foreach t o answer => exact ⟨fun _ => trivial, fun _ => inRange_foreach I t o answer⟩

/-! ## Runs -/

/-- **Indices.** Over every run the indices used stay below `kMaxInstanceId` iff no moved-from
object is destroyed, or read with `get`, on a thread that has a table. -/
theorem indices_in_range_iff (T : ObjectType β) (ops : List WorldOp) :
    EachStep (worldStep T) (fun w op => inRange T w op = true) World.init ops ↔
      EachStep (worldStep T) readsHeldId World.init ops :=
  eachStep_iff_of_invariant Bounded (bounded_step T) (fun w op I => inRange_iff T w op I)
    bounded_init

/-- An object is moved from and then destroyed, as both objects of a move are in the end. -/
theorem moved_from_reads_past_table :
    run (worldStep (⟨8, ()⟩ : ObjectType Unit)) World.init
        [.construct 1 0 {}, .moveConstruct 1 0, .destroy 1 0] =
      .error (.library (.slotRange kMaxInstanceId)) ∧
    ¬ EachStep (worldStep (⟨8, ()⟩ : ObjectType Unit))
        (fun w op => inRange (⟨8, ()⟩ : ObjectType Unit) w op = true) World.init
        [.construct 1 0 {}, .moveConstruct 1 0, .destroy 1 0] :=
  ⟨eq_error_of_map (f := fun _ => ()) (by decide +kernel), by decide +kernel⟩

end Lldk
