import Lldk.Lib.Trace
import Lldk.Utilities.ThreadLocalBase

/-!
`LldkThreadLocalBase` as a store with one cell for each thread and id.

* `storeStep` is the store: a read returns what the same thread stored last under the id, null
  if it never stored there. `slotStep` is the library, with every allocation succeeding.
* `slotStep_set`, `slotStep_get`: the slots behave as the cells on a thread that has its table.
* `slots_are_store_iff`: a run of the library gives the results of the store iff every thread
  stores something before it reads.
-/

namespace Lldk

open Lib.Trace Process

inductive StoreOp
  | set (t : Tid) (uInstanceId a : Nat)
  | get (t : Tid) (uInstanceId : Nat)
  deriving DecidableEq, Repr

inductive StoreOut
  | stored (rc : Int)
  | ptr (p : Option Nat)
  deriving DecidableEq, Repr

def StoreOp.uInstanceId : StoreOp → Nat
  | .set _ i _ => i
  | .get _ i => i

/-- What every thread stored last under every id. -/
abbrev Cells := Tid → Nat → Option Nat

def storeStep : Step Cells StoreOp StoreOut Empty
  | s, .set t i a => .ok (Function.update s t (Function.update (s t) i (some a)), .stored 0)
  | s, .get t i => .ok (s, .ptr (s t i))

variable {β : Type}

def slotStep : Step (Process β) StoreOp StoreOut Fault
  | p, .set t i a =>
    match p.setThreadLocalStorage t i (some a) {} with
    | .error f => .error f
    | .ok (rc, p') => .ok (p', .stored rc)
  | p, .get t i =>
    match p.getThreadLocalStorage t i with
    | .error f => .error f
    | .ok q => .ok (p, .ptr q)

/-- The slots hold what the cells hold. -/
def Holds (p : Process β) (s : Cells) : Prop := ∀ t i, p.slot t i = s t i

theorem holds_init : Holds (Process.init : Process β) fun _ _ => none := fun _ _ => rfl

theorem slotStep_set {p : Process β} {s : Cells} (hps : Holds p s) (t : Tid) {i : Nat}
    (hi : i < kMaxInstanceId) (a : Nat) :
    ∃ p', slotStep p (.set t i a) = .ok (p', .stored 0) ∧
      Holds p' (Function.update s t (Function.update (s t) i (some a))) ∧
      ∀ t', p'.hasTable t' ↔ p.hasTable t' ∨ t' = t := by
  have hstored : ∃ p', p.setThreadLocalStorage t i (some a) {} = .ok (0, p') ∧ Stored p t i a p' :=
    setThreadLocalStorage_stored hi (Or.inr ⟨rfl, rfl⟩) a
  obtain ⟨p', hset, hst⟩ := hstored
  refine ⟨p', by simp only [slotStep, hset], fun t' j => ?_, hst.hasTable⟩
  by_cases ht : t' = t
  · subst ht
    by_cases hj : j = i
    · subst hj
      rw [hst.self, Function.update_self, Function.update_self]
    · rw [hst.others t' j (Or.inr hj), Function.update_self, Function.update_of_ne hj, hps t' j]
  · rw [hst.others t' j (Or.inl ht), Function.update_of_ne ht, hps t' j]

theorem slotStep_get {p : Process β} {s : Cells} (hps : Holds p s) {t : Tid} {i : Nat}
    (hi : i < kMaxInstanceId) (ht : p.hasTable t) :
    slotStep p (.get t i) = .ok (p, .ptr (s t i)) := by
  simp only [slotStep, getThreadLocalStorage_ok ht hi, hps t i]

theorem slotStep_get_noTable {p : Process β} {t : Tid} (ht : ¬ p.hasTable t) (i : Nat) :
    slotStep p (.get t i) = .error .nullTable := by
  simp only [slotStep, getThreadLocalStorage_noTable ht]

/-- Every read of `ops` is on a thread of `old` or comes after a store of its thread. -/
def ReadsAfterStore (old : Tid → Prop) (ops : List StoreOp) : Prop :=
  ∀ pre t i post, ops = pre ++ .get t i :: post → old t ∨ ∃ j a, .set t j a ∈ pre

theorem readsAfterStore_set {old : Tid → Prop} {t : Tid} {i a : Nat} {ops : List StoreOp} :
    ReadsAfterStore old (.set t i a :: ops) ↔ ReadsAfterStore (fun t' => old t' ∨ t' = t) ops := by
  constructor
  · intro h pre t' j post he
    rcases h (.set t i a :: pre) t' j post (by rw [he, List.cons_append]) with hold | ⟨k, b, hin⟩
    · exact Or.inl (Or.inl hold)
    · rcases List.mem_cons.mp hin with he' | hin
      · cases he'
        exact Or.inl (Or.inr rfl)
      · exact Or.inr ⟨k, b, hin⟩
  · intro h pre t' j post he
    cases pre with
    | nil => cases he
    | cons op pre =>
      obtain ⟨rfl, he'⟩ := List.cons.inj he
      rcases h pre t' j post he' with (hold | rfl) | ⟨k, b, hin⟩
      · exact Or.inl hold
      · exact Or.inr ⟨i, a, List.mem_cons_self ..⟩
      · exact Or.inr ⟨k, b, List.mem_cons_of_mem _ hin⟩

theorem readsAfterStore_get {old : Tid → Prop} {t : Tid} {i : Nat} {ops : List StoreOp} :
    ReadsAfterStore old (.get t i :: ops) ↔ old t ∧ ReadsAfterStore old ops := by
  constructor
  · intro h
    refine ⟨?_, fun pre t' j post he => ?_⟩
    · rcases h [] t i ops rfl with hold | ⟨k, b, hin⟩
      · exact hold
      · cases hin
    · rcases h (.get t i :: pre) t' j post (by rw [he, List.cons_append]) with hold | ⟨k, b, hin⟩
      · exact Or.inl hold
      · rcases List.mem_cons.mp hin with he' | hin
        · cases he'
        · exact Or.inr ⟨k, b, hin⟩
  · rintro ⟨hold, h⟩ pre t' j post he
    cases pre with
    | nil =>
      cases he
      exact Or.inl hold
    | cons op pre =>
      obtain ⟨rfl, he'⟩ := List.cons.inj he
      rcases h pre t' j post he' with hold' | ⟨k, b, hin⟩
      · exact Or.inl hold'
      · exact Or.inr ⟨k, b, List.mem_cons_of_mem _ hin⟩

/-- The library and the store give the same results on `ops`. -/
def Agree (p : Process β) (s : Cells) (ops : List StoreOp) : Prop :=
  ∃ p' s' outs, run slotStep p ops = .ok (p', outs) ∧ run storeStep s ops = .ok (s', outs)

theorem agree_cons {p p' : Process β} {s s' : Cells} {op : StoreOp} {out : StoreOut}
    {ops : List StoreOp} (hp : slotStep p op = .ok (p', out))
    (hs : storeStep s op = .ok (s', out)) :
    Agree p s (op :: ops) ↔ Agree p' s' ops := by
  constructor
  · rintro ⟨q, r, outs, hq, hr⟩
    obtain ⟨p₁, o₁, outs₁, hp₁, hq₁, rfl⟩ := run_cons_eq_ok.mp hq
    obtain ⟨s₁, o₂, outs₂, hs₁, hr₁, he⟩ := run_cons_eq_ok.mp hr
    rw [hp] at hp₁
    cases hp₁
    rw [hs] at hs₁
    cases hs₁
    obtain ⟨-, rfl⟩ := List.cons.inj he
    exact ⟨q, r, outs₁, hq₁, hr₁⟩
  · rintro ⟨q, r, outs, hq, hr⟩
    exact ⟨q, r, out :: outs, by rw [run_cons_ok hp, hq], by rw [run_cons_ok hs, hr]⟩

theorem agree_iff (ops : List StoreOp) (hids : ∀ op ∈ ops, op.uInstanceId < kMaxInstanceId)
    {p : Process β} {s : Cells} (hps : Holds p s) :
    Agree p s ops ↔ ReadsAfterStore p.hasTable ops := by
  induction ops generalizing p s with
  | nil =>
    refine ⟨fun _ pre t i post he => ?_, fun _ => ⟨p, s, [], rfl, rfl⟩⟩
    cases pre <;> cases he
  | cons op ops ih =>
    have hrest : ∀ op' ∈ ops, op'.uInstanceId < kMaxInstanceId :=
      fun op' h => hids op' (List.mem_cons_of_mem _ h)
    cases op with
    | set t i a =>
      have hid : i < kMaxInstanceId := hids _ (List.mem_cons_self ..)
      obtain ⟨p', hp, hps', htables⟩ := slotStep_set hps t hid a
      have hold : p'.hasTable = fun t' => p.hasTable t' ∨ t' = t :=
        funext fun t' => propext (htables t')
      rw [agree_cons hp rfl, ih hrest hps', readsAfterStore_set, hold]
    | get t i =>
      have hid : i < kMaxInstanceId := hids _ (List.mem_cons_self ..)
      rw [readsAfterStore_get]
      by_cases ht : p.hasTable t
      · rw [agree_cons (slotStep_get hps hid ht) rfl, ih hrest hps]
        exact ⟨fun h => ⟨ht, h⟩, fun h => h.2⟩
      · refine ⟨fun ⟨_, _, _, hq, _⟩ => ?_, fun h => absurd h.1 ht⟩
        rw [run_cons_error (slotStep_get_noTable ht i)] at hq
        cases hq

/-- **The slots as a store.** From the start of the process, a run of stores and reads gives the
results of the store with one cell for each thread and id iff every read comes after some store
of its own thread. -/
theorem slots_are_store_iff (ops : List StoreOp)
    (hids : ∀ op ∈ ops, op.uInstanceId < kMaxInstanceId) :
    (∃ p s outs, run slotStep (Process.init : Process β) ops = .ok (p, outs) ∧
        run storeStep (fun _ _ => none) ops = .ok (s, outs)) ↔
      ∀ pre t i post, ops = pre ++ .get t i :: post → ∃ j a, .set t j a ∈ pre := by
  have h := agree_iff ops hids (holds_init : Holds (Process.init : Process β) _)
  have hnone : ∀ t, ¬ (Process.init : Process β).hasTable t := by
    rintro t ⟨table, ht⟩
    cases ht
  refine h.trans ⟨fun hr pre t i post he => ?_,
    fun hr pre t i post he => Or.inr (hr pre t i post he)⟩
  exact (hr pre t i post he).resolve_left (hnone t)

/-- Two threads under the same id, one of them reading an id it never stored to. -/
theorem slots_are_store_iff_sample :
    (∃ p s outs, run slotStep (Process.init : Process Unit)
          [.set 1 7 100, .set 2 7 200, .get 1 7, .get 2 8] = .ok (p, outs) ∧
        run storeStep (fun _ _ => none)
          [.set 1 7 100, .set 2 7 200, .get 1 7, .get 2 8] = .ok (s, outs)) ↔
      ∀ pre t i post, [StoreOp.set 1 7 100, .set 2 7 200, .get 1 7, .get 2 8] =
        pre ++ .get t i :: post → ∃ j a, .set t j a ∈ pre :=
  slots_are_store_iff _ (by decide)

/-- A thread that has stored nothing reads through a null table, where the store says null. -/
theorem first_read_indexes_null_table :
    run slotStep (Process.init : Process Unit) [.get 1 0] = .error .nullTable ∧
      (run storeStep (fun _ _ => none) [.get 1 0]).map Prod.snd = .ok [.ptr none] :=
  ⟨rfl, rfl⟩

end Lldk
