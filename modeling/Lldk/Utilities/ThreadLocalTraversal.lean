import Lldk.Utilities.ThreadLocalOrder

/-!
`foreach` while other threads store.

* `traversalStep`: the moves of the stores, and the steps of a call of `foreach`, which holds
  `s_mutex` and reads each slot twice, once for its check and once for the call of `func`.
  `foreach_alone`: with nobody else around the steps are the function.
* `Follows` is the invariant of a call in progress: the tables it has passed, each with what had
  happened when it read the slot. `follows_store` and `follows_go` keep it.
* `foreach_while_storing`: the call visits the slots as they were at some time during the call, one
  after the other.
-/

namespace Lldk

open Lib Lib.Trace Process

variable {β σ : Type}

/-! ## Steps of a traversal -/

/-- A call of `foreach` that holds the mutex. `start`, `began` and `calls` are its history: the
state of its callback and what the threads had done when it began, and what it has passed to `func`.
-/
structure Traversal (σ : Type) where
  thread : Tid
  uInstanceId : Nat
  iter : Nat
  iterEnd : Nat
  /-- the slot was no null pointer when it was read first -/
  checked : Bool
  state : σ
  start : σ
  began : List StoreEvent
  calls : List (Option Nat)

/-- A call that is over. -/
structure Traversed (σ : Type) where
  uInstanceId : Nat
  start : σ
  began : List StoreEvent
  ended : List StoreEvent
  calls : List (Option Nat)
  rc : Int
  state : σ

structure Traversing (β σ : Type) where
  stores : Stores β
  holder : Option (Traversal σ)

inductive TraversalMove (σ : Type)
  | store (m : StoreMove)
  | foreach (t : Tid) (uInstanceId : Nat) (start : σ)
  | go

inductive TraversalFault
  | move (e : MoveFault)
  /-- the mutex is taken -/
  | waits
  | busy
  | noTraversal
  /-- the vector has changed under the loop -/
  | iterator
  deriving DecidableEq, Repr

namespace Traversal

variable (T : Traversal σ)

/-- The loop goes on to the next table. -/
def next : Traversal σ := { T with iter := T.iter + 1, checked := false }

/-- `func` was called. -/
def called (a : Option Nat) (state : σ) : Traversal σ := { T with state, calls := T.calls ++ [a] }

def finish (ended : List StoreEvent) (rc : Int) : Traversed σ :=
  ⟨T.uInstanceId, T.start, T.began, ended, T.calls, rc, T.state⟩

/-- A step of the loop. -/
def go (func : σ → Option Nat → σ × Int) (s : Stores β) :
    Except TraversalFault (Traversing β σ × Option (Traversed σ)) :=
  if T.iter = T.iterEnd then .ok (⟨s, none⟩, some (T.finish s.history 0))
  else
    match s.proc.s_vecpppInstances[T.iter]? with
    | none => .error .iterator
    | some t =>
      match s.proc.s_ppInstances t with
      | none => .ok (⟨s, some T.next⟩, none)
      | some table =>
        if T.uInstanceId < kMaxInstanceId then
          if T.checked then
            let (state, rc) := func T.state (table.slots T.uInstanceId)
            let T := T.called (table.slots T.uInstanceId) state
            if rc ≠ 0 then
              .ok (⟨{ s with proc := s.proc.lldkSetErrorCode T.thread .kCallFailed }, none⟩,
                some (T.finish s.history (-1)))
            else .ok (⟨s, some T.next⟩, none)
          else
            match table.slots T.uInstanceId with
            | none => .ok (⟨s, some T.next⟩, none)
            | some _ => .ok (⟨s, some { T with checked := true }⟩, none)
        else .error (.move (.library (.slotRange T.uInstanceId)))

end Traversal

/-- The moves under `s_mutex`. -/
def StoreMove.locks : StoreMove → Bool
  | .register _ _ => true
  | _ => false

def traversalStep (func : σ → Option Nat → σ × Int) :
    Step (Traversing β σ) (TraversalMove σ) (Option (Traversed σ)) TraversalFault
  | s, .store m =>
    if s.holder.any fun T => m.thread = T.thread then .error .busy
    else if m.locks && s.holder.isSome then .error .waits
    else
      match storeMove s.stores m with
      | .error e => .error (.move e)
      | .ok (stores, _) => .ok ({ s with stores }, none)
  | s, .foreach t i start =>
    if s.stores.phase t ≠ .idle then .error .busy
    else if s.holder.isSome then .error .waits
    else .ok ({ s with holder := some ⟨t, i, 0, s.stores.proc.s_vecpppInstances.length, false,
      start, start, s.stores.history, []⟩ }, none)
  | s, .go =>
    match s.holder with
    | none => .error .noTraversal
    | some T => T.go func s.stores

/-! ## The invariant -/

/-- The callback, on pointers that are not null. -/
def onPointer (func : σ → Option Nat → σ × Int) (s : σ) (a : Nat) : σ × Int := func s (some a)

/-- The slots under `i` that are not null, each read when what it goes with had happened. -/
def pointers (i : Nat) (reads : List (Tid × List StoreEvent)) : List Nat :=
  reads.filterMap fun e => lastStored e.2 e.1 i

/-- The call has passed the tables of `reads` and has those of `rest` before it. -/
structure Follows (func : σ → Option Nat → σ × Int) (s : Stores β) (T : Traversal σ)
    (reads : List (Tid × List StoreEvent)) (rest : List Tid) : Prop where
  tables : registrations s.history = reads.map Prod.fst ++ rest
  frozen : registrations T.began = registrations s.history
  began : T.began <+: s.history
  iter : T.iter = reads.length
  iterEnd : T.iterEnd = (reads.map Prod.fst ++ rest).length
  between : ∀ e ∈ reads, T.began <+: e.2 ∧ e.2 <+: s.history
  chain : reads.Pairwise fun e e' => e.2 <+: e'.2
  calls : T.calls = (pointers T.uInstanceId reads).map some
  zero : ReturnsZero (onPointer func) T.start (pointers T.uInstanceId reads)
  state : T.state = after (onPointer func) T.start (pointers T.uInstanceId reads)
  checked : T.checked = true →
    ∃ t rest' a, rest = t :: rest' ∧ lastStored s.history t T.uInstanceId = some a

/-- **What a call comes to**: a visit of the slots of its id, in the order of registration, each
as it was at some time during the call, and at no earlier time than those before it. -/
def Traversed.Right (func : σ → Option Nat → σ × Int) (r : Traversed σ) : Prop :=
  ∃ reads stopped calls, reads.map Prod.fst = registrations r.began ∧
    (∀ e ∈ reads, r.began <+: e.2 ∧ e.2 <+: r.ended) ∧
    reads.Pairwise (fun e e' => e.2 <+: e'.2) ∧
    Visited (onPointer func) r.start (pointers r.uInstanceId reads) calls stopped ∧
    r.calls = calls.map some ∧ r.state = after (onPointer func) r.start calls ∧
    r.rc = if stopped then -1 else 0

section Follows

variable {func : σ → Option Nat → σ × Int} {s s' : Stores β} {T : Traversal σ}
  {reads : List (Tid × List StoreEvent)} {rest : List Tid} {t : Tid} {i : Nat}

theorem pointers_concat (reads : List (Tid × List StoreEvent)) (e : Tid × List StoreEvent) :
    pointers i (reads ++ [e]) = pointers i reads ++ (lastStored e.2 e.1 i).toList := by
  rw [pointers, List.filterMap_append]
  refine congrArg _ ?_
  cases h : lastStored e.2 e.1 i <;> simp [h]

theorem returnsZero_concat {f : σ → Nat → σ × Int} {s₀ : σ} {as : List Nat} {a : Nat}
    (h : ReturnsZero f s₀ as) (ha : (f (after f s₀ as) a).2 = 0) :
    ReturnsZero f s₀ (as ++ [a]) := by
  induction as generalizing s₀ with
  | nil => exact ⟨ha, trivial⟩
  | cons b as ih => exact ⟨h.1, ih h.2 ha⟩

theorem after_concat (f : σ → Nat → σ × Int) (s₀ : σ) (as : List Nat) (a : Nat) :
    after f s₀ (as ++ [a]) = (f (after f s₀ as) a).1 := by
  rw [after, List.foldl_append]
  rfl

/-- A slot that was stored does not become null again. -/
theorem lastStored_some_concat {es : List StoreEvent} {a : Nat} (e : StoreEvent)
    (h : lastStored es t i = some a) : ∃ b, lastStored (es ++ [e]) t i = some b := by
  rw [lastStored_concat]
  cases e with
  | registered u => exact ⟨a, h⟩
  | failed u => exact ⟨a, h⟩
  | stored u j b =>
    dsimp only
    by_cases hu : t = u
    · subst hu
      by_cases hj : i = j
      · subst hj
        exact ⟨b, by rw [Function.update_self, Function.update_self]⟩
      · exact ⟨a, by rw [Function.update_self, Function.update_of_ne hj, h]⟩
    · exact ⟨a, by rw [Function.update_of_ne hu, h]⟩

/-- A move without the mutex adds one event to the history at most, and registers nothing. -/
theorem history_of_unlocked {m : StoreMove} {out : Option Int} (hm : m.locks = false)
    (h : storeMove s m = .ok (s', out)) :
    s'.history = s.history ∨
      ∃ e, (∀ u, e ≠ .registered u) ∧ s'.history = s.history ++ [e] := by
  cases m with
  | enter u j pStorage tableMem =>
    simp only [storeMove] at h
    repeat' split at h
    all_goals first
      | cases h; done
      | cases h; exact Or.inl rfl
      | cases h; exact Or.inr ⟨.failed u, (fun v he => by cases he), rfl⟩
  | register u pushMem => cases hm
  | write u =>
    simp only [storeMove] at h
    split at h
    · rename_i j a hphase
      split at h
      · cases h
      · cases h
        exact Or.inr ⟨.stored u j a, (fun v he => by cases he), rfl⟩
    · cases h

theorem registrations_quiet {es : List StoreEvent} {e : StoreEvent}
    (h : ∀ u, e ≠ .registered u) : registrations (es ++ [e]) = registrations es := by
  rw [registrations_concat]
  cases e with
  | registered u => exact absurd rfl (h u)
  | stored u j a => exact List.append_nil _
  | failed u => exact List.append_nil _

/-- **A move of another thread** while the call goes on. -/
theorem follows_store (F : Follows func s T reads rest) {m : StoreMove} {out : Option Int}
    (hm : m.locks = false) (h : storeMove s m = .ok (s', out)) : Follows func s' T reads rest := by
  have hmore : s.history <+: s'.history ∧
      registrations s'.history = registrations s.history ∧
      ∀ t i a, lastStored s.history t i = some a → ∃ b, lastStored s'.history t i = some b := by
    rcases history_of_unlocked hm h with he | ⟨e, hquiet, he⟩
    · rw [he]
      exact ⟨List.prefix_refl _, rfl, fun _ _ a ha => ⟨a, ha⟩⟩
    · rw [he]
      exact ⟨List.prefix_append .., registrations_quiet hquiet,
        fun _ _ _ ha => lastStored_some_concat e ha⟩
  obtain ⟨hbefore, hreg, hsome⟩ := hmore
  refine ⟨hreg.trans F.tables, F.frozen.trans hreg.symm, F.began.trans hbefore, F.iter, F.iterEnd,
    fun e he => ⟨(F.between e he).1, (F.between e he).2.trans hbefore⟩, F.chain, F.calls, F.zero,
    F.state, fun hc => ?_⟩
  obtain ⟨t, rest', a, hrest, ha⟩ := F.checked hc
  obtain ⟨b, hb⟩ := hsome _ _ _ ha
  exact ⟨t, rest', b, hrest, hb⟩

/-- The mutex is taken, and the loop begins. -/
theorem follows_start (C : Coherent s) (t : Tid) (i : Nat) (start : σ) :
    Follows func s ⟨t, i, 0, s.proc.s_vecpppInstances.length, false, start, start, s.history, []⟩
      [] (registrations s.history) where
  tables := rfl
  frozen := rfl
  began := List.prefix_refl _
  iter := rfl
  iterEnd := congrArg List.length C.order
  between := nofun
  chain := List.Pairwise.nil
  calls := rfl
  zero := trivial
  state := rfl
  checked := nofun

theorem Coherent.hasTable_of_registered (C : Coherent s) (h : t ∈ registrations s.history) :
    s.proc.hasTable t := by
  cases hphase : s.phase t with
  | idle => exact (C.of_idle hphase).1.mpr h
  | created i a => exact absurd h (C.of_created hphase).2.1
  | ready i a => exact (C.of_ready hphase).1

/-- The table at the iterator. -/
theorem Follows.table (F : Follows func s T reads (t :: rest)) (C : Coherent s) :
    s.proc.s_vecpppInstances[T.iter]? = some t := by
  rw [C.order, F.tables, F.iter, ← List.length_map (f := Prod.fst), List.getElem?_append_right
    (Nat.le_refl _), Nat.sub_self]
  rfl

theorem Follows.atEnd (F : Follows func s T reads rest) : T.iter = T.iterEnd ↔ rest = [] := by
  rw [F.iter, F.iterEnd, List.length_append, List.length_map]
  constructor
  · intro h
    exact List.length_eq_zero_iff.mp (Nat.left_eq_add.mp h)
  · rintro rfl
    rfl

/-- The table of `t` has been read, now. -/
theorem Follows.reads_concat (F : Follows func s T reads (t :: rest)) :
    registrations s.history = (reads ++ [(t, s.history)]).map Prod.fst ++ rest ∧
      (∀ e ∈ reads ++ [(t, s.history)], T.began <+: e.2 ∧ e.2 <+: s.history) ∧
      (reads ++ [(t, s.history)]).Pairwise fun e e' => e.2 <+: e'.2 := by
  refine ⟨?_, fun e he => ?_, ?_⟩
  · rw [F.tables, List.map_append, List.append_assoc]
    rfl
  · rcases List.mem_append.mp he with he | he
    · exact F.between e he
    · rw [List.mem_singleton.mp he]
      exact ⟨F.began, List.prefix_refl _⟩
  · refine List.pairwise_append.mpr ⟨F.chain, List.pairwise_singleton .., fun e he e' he' => ?_⟩
    rw [List.mem_singleton.mp he']
    exact (F.between e he).2

theorem Follows.next_iter (F : Follows func s T reads (t :: rest)) :
    T.iter + 1 = (reads ++ [(t, s.history)]).length ∧
      T.iterEnd = ((reads ++ [(t, s.history)]).map Prod.fst ++ rest).length := by
  rw [F.iter, F.iterEnd]
  refine ⟨by rw [List.length_append]; rfl, ?_⟩
  rw [List.map_append, List.append_assoc]
  rfl

/-- The slot is a null pointer. -/
theorem Follows.pass (F : Follows func s T reads (t :: rest))
    (hnone : lastStored s.history t T.uInstanceId = none) :
    Follows func s T.next (reads ++ [(t, s.history)]) rest := by
  obtain ⟨htables, hbetween, hchain⟩ := F.reads_concat
  obtain ⟨hiter, hend⟩ := F.next_iter
  have hpointers : pointers T.uInstanceId (reads ++ [(t, s.history)]) =
      pointers T.uInstanceId reads := by
    rw [pointers_concat, hnone]
    exact List.append_nil _
  refine ⟨htables, F.frozen, F.began, hiter, hend, hbetween, hchain, ?_, ?_, ?_, nofun⟩
  · exact F.calls.trans (congrArg (List.map some) hpointers.symm)
  · exact hpointers.symm ▸ F.zero
  · exact hpointers.symm ▸ F.state

/-- The callback, called with the slot, asks for more. -/
theorem Follows.call (F : Follows func s T reads (t :: rest)) {a : Nat}
    (hsome : lastStored s.history t T.uInstanceId = some a)
    (hzero : (func T.state (some a)).2 = 0) :
    Follows func s (T.called (some a) (func T.state (some a)).1).next
      (reads ++ [(t, s.history)]) rest := by
  obtain ⟨htables, hbetween, hchain⟩ := F.reads_concat
  obtain ⟨hiter, hend⟩ := F.next_iter
  have hpointers : pointers T.uInstanceId (reads ++ [(t, s.history)]) =
      pointers T.uInstanceId reads ++ [a] := by
    rw [pointers_concat, hsome]
    rfl
  refine ⟨htables, F.frozen, F.began, hiter, hend, hbetween, hchain, ?_, ?_, ?_, nofun⟩
  · show T.calls ++ [some a] = (pointers T.uInstanceId (reads ++ [(t, s.history)])).map some
    rw [hpointers, F.calls, List.map_append]
    rfl
  · show ReturnsZero _ T.start (pointers T.uInstanceId (reads ++ [(t, s.history)]))
    rw [hpointers]
    refine returnsZero_concat F.zero ?_
    rw [← F.state]
    exact hzero
  · show (func T.state (some a)).1 =
      after _ T.start (pointers T.uInstanceId (reads ++ [(t, s.history)]))
    rw [hpointers, after_concat, ← F.state]
    rfl

/-- The callback asks to stop. -/
theorem Follows.stop (F : Follows func s T reads (t :: rest)) {a : Nat}
    (hsome : lastStored s.history t T.uInstanceId = some a)
    (hstop : (func T.state (some a)).2 ≠ 0) :
    ((T.called (some a) (func T.state (some a)).1).finish s.history (-1)).Right func := by
  obtain ⟨htables, hbetween, hchain⟩ := F.reads_concat
  -- what is left of the tables is not read; it might as well be read now
  refine ⟨reads ++ [(t, s.history)] ++ rest.map fun u => (u, s.history), true,
    pointers T.uInstanceId reads ++ [a], ?_, fun e he => ?_, ?_, ?_, ?_, ?_, rfl⟩
  · show _ = registrations T.began
    rw [F.frozen, htables, List.map_append, List.map_map]
    simp only [Function.comp_def, List.map_id']
  · rcases List.mem_append.mp he with he | he
    · exact hbetween e he
    · obtain ⟨u, -, rfl⟩ := List.mem_map.mp he
      exact ⟨F.began, List.prefix_refl _⟩
  · refine List.pairwise_append.mpr ⟨hchain, ?_, fun e he e' he' => ?_⟩
    · exact List.pairwise_map.mpr
        (List.pairwise_of_forall fun _ _ => List.prefix_refl _)
    · obtain ⟨u, -, rfl⟩ := List.mem_map.mp he'
      exact (hbetween e he).2
  · have hpointers : pointers T.uInstanceId
          (reads ++ [(t, s.history)] ++ rest.map fun u => (u, s.history)) =
        pointers T.uInstanceId reads ++
          a :: pointers T.uInstanceId (rest.map fun u => (u, s.history)) := by
      rw [pointers, List.filterMap_append, ← pointers, pointers_concat, hsome, List.append_assoc]
      rfl
    refine .stop hpointers F.zero ?_
    · show (func (after _ T.start _) (some a)).2 ≠ 0
      rw [← F.state]
      exact hstop
  · show T.calls ++ [some a] = _
    rw [F.calls, List.map_append]
    rfl
  · show (func T.state (some a)).1 = after _ T.start _
    rw [after_concat, ← F.state]
    rfl

/-- The loop is over. -/
theorem Follows.finish (F : Follows func s T reads []) : (T.finish s.history 0).Right func := by
  refine ⟨reads, false, pointers T.uInstanceId reads, ?_, F.between, F.chain, .all F.zero, F.calls,
    F.state, rfl⟩
  show _ = registrations T.began
  rw [F.frozen, F.tables, List.append_nil]

/-- **A step of the loop**: it goes on, or the call is over and right. -/
theorem follows_go (C : Coherent s) (hi : T.uInstanceId < kMaxInstanceId)
    (F : Follows func s T reads rest) :
    (∃ T' reads' rest', T.go func s = .ok (⟨s, some T'⟩, none) ∧
      T'.uInstanceId = T.uInstanceId ∧ Follows func s T' reads' rest') ∨
    ∃ s' r, T.go func s = .ok (⟨s', none⟩, some r) ∧ r.Right func ∧
      (s' = s ∨ s' = { s with proc := s.proc.lldkSetErrorCode T.thread .kCallFailed }) := by
  cases rest with
  | nil =>
    exact Or.inr ⟨s, _, by rw [Traversal.go, if_pos (F.atEnd.mpr rfl)], F.finish, Or.inl rfl⟩
  | cons t rest =>
    have hmore : T.iter ≠ T.iterEnd := fun he => (nomatch F.atEnd.mp he)
    have hregistered : t ∈ registrations s.history := by
      rw [F.tables]
      exact List.mem_append_right _ List.mem_cons_self
    obtain ⟨table, htable⟩ := C.hasTable_of_registered hregistered
    have hslot : table.slots T.uInstanceId = lastStored s.history t T.uInstanceId := by
      rw [← C.slots, Process.slot, htable]
    rw [Traversal.go, if_neg hmore]
    simp only [F.table C, htable, hi, if_true, hslot]
    by_cases hc : T.checked = true
    · obtain ⟨t', rest', a, he, ha⟩ := F.checked hc
      cases he
      simp only [hc, if_true, ha]
      by_cases hrc : (func T.state (some a)).2 = 0
      · simp only [hrc, ne_eq, not_true_eq_false, if_false]
        exact Or.inl ⟨_, _, _, rfl, rfl, F.call ha hrc⟩
      · simp only [ne_eq, hrc, not_false_eq_true, if_true]
        exact Or.inr ⟨_, _, rfl, F.stop ha hrc, Or.inr rfl⟩
    · simp only [hc, Bool.false_eq_true, if_false]
      cases ha : lastStored s.history t T.uInstanceId with
      | none => exact Or.inl ⟨_, _, _, rfl, rfl, F.pass ha⟩
      | some a =>
        refine Or.inl ⟨_, reads, t :: rest, rfl, rfl, ?_⟩
        exact ⟨F.tables, F.frozen, F.began, F.iter, F.iterEnd, F.between, F.chain, F.calls, F.zero,
          F.state, fun _ => ⟨t, rest, a, rfl, ha⟩⟩

end Follows

/-! ## A call by itself -/

/-- With nobody else around the call returns `rc`, and the callback and the process are left in
`state` and `p`. -/
def Ends (func : σ → Option Nat → σ × Int) (s : Stores β) (T : Traversal σ) (rc : Int) (state : σ)
    (p : Process β) : Prop :=
  ∃ n outs r, run (traversalStep func) ⟨s, some T⟩ (List.replicate n .go) =
    .ok (⟨{ s with proc := p }, none⟩, outs ++ [some r]) ∧ r.rc = rc ∧ r.state = state

section Alone

variable {func : σ → Option Nat → σ × Int} {s : Stores β} {T T' : Traversal σ} {t : Tid} {i : Nat}
  {p : Process β} {rc : Int} {state : σ}

theorem ends_of_go (h : T.go func s = .ok (⟨s, some T'⟩, none))
    (H : Ends func s T' rc state p) : Ends func s T rc state p := by
  obtain ⟨n, outs, r, hrun, hr⟩ := H
  have hstep : traversalStep func ⟨s, some T⟩ .go = .ok (⟨s, some T'⟩, none) := h
  refine ⟨n + 1, none :: outs, r, ?_, hr⟩
  rw [List.replicate_succ, run_cons_ok hstep, hrun]
  rfl

theorem ends_of_finish {r : Traversed σ}
    (h : T.go func s = .ok (⟨{ s with proc := p }, none⟩, some r)) :
    Ends func s T r.rc r.state p := by
  have hstep : traversalStep func ⟨s, some T⟩ .go =
      .ok (⟨{ s with proc := p }, none⟩, some r) := h
  exact ⟨1, [], r, run_cons_ok hstep [], rfl, rfl⟩

/-- The loop over the tables `ts`. -/
theorem loop_alone {ts : List Tid} {T : Traversal σ} (hi : T.uInstanceId < kMaxInstanceId)
    (hiter : s.proc.s_vecpppInstances.drop T.iter = ts) (hend : T.iterEnd = T.iter + ts.length)
    (hchecked : T.checked = false) {more : Bool}
    (h : foreachLoop s.proc.s_ppInstances T.uInstanceId (onPointer func) T.state ts =
      .ok (more, state)) :
    Ends func s T (if more then 0 else -1) state
      (if more then s.proc else s.proc.lldkSetErrorCode T.thread .kCallFailed) := by
  induction ts generalizing T with
  | nil =>
    cases h
    have hgo : T.go func s = .ok (⟨s, none⟩, some (T.finish s.history 0)) := by
      rw [Traversal.go]
      exact if_pos hend.symm
    exact ends_of_finish hgo
  | cons t ts ih =>
    have htable : s.proc.s_vecpppInstances[T.iter]? = some t := by
      rw [← List.head?_drop, hiter]
      rfl
    have hmore : T.iter ≠ T.iterEnd := by
      rw [hend, List.length_cons]
      omega
    have hrest : s.proc.s_vecpppInstances.drop (T.iter + 1) = ts := by
      rw [← List.tail_drop, hiter]
      rfl
    have hrestEnd : T.iterEnd = T.iter + 1 + ts.length := by
      rw [hend, List.length_cons]
      omega
    simp only [foreachLoop] at h
    cases hp : s.proc.s_ppInstances t with
    | none =>
      simp only [hp] at h
      have hgo : T.go func s = .ok (⟨s, some T.next⟩, none) := by
        simp only [Traversal.go, if_neg hmore, htable, hp]
      exact ends_of_go hgo (ih (T := T.next) hi hrest hrestEnd rfl h)
    | some table =>
      simp only [hp, hi, if_true] at h
      cases ha : table.slots T.uInstanceId with
      | none =>
        simp only [ha] at h
        have hgo : T.go func s = .ok (⟨s, some T.next⟩, none) := by
          simp only [Traversal.go, if_neg hmore, htable, hp, hi, if_true, hchecked,
            Bool.false_eq_true, if_false, ha]
        exact ends_of_go hgo (ih (T := T.next) hi hrest hrestEnd rfl h)
      | some a =>
        have hcall : onPointer func T.state a = func T.state (some a) := rfl
        simp only [ha, hcall] at h
        have hfirst : T.go func s = .ok (⟨s, some { T with checked := true }⟩, none) := by
          simp only [Traversal.go, if_neg hmore, htable, hp, hi, if_true, hchecked,
            Bool.false_eq_true, if_false, ha]
        refine ends_of_go hfirst ?_
        by_cases hrc : (func T.state (some a)).2 = 0
        · have hloop : foreachLoop s.proc.s_ppInstances T.uInstanceId (onPointer func)
              (func T.state (some a)).1 ts = .ok (more, state) := by
            rw [if_neg (not_not_intro hrc)] at h
            exact h
          have hgo : ({ T with checked := true } : Traversal σ).go func s =
              .ok (⟨s, some (T.called (some a) (func T.state (some a)).1).next⟩, none) := by
            simp only [Traversal.go, if_neg hmore, htable, hp, hi, if_true, ha, hrc, ne_eq,
              not_true_eq_false, if_false]
            rfl
          exact ends_of_go hgo
            (ih (T := (T.called (some a) (func T.state (some a)).1).next) hi hrest hrestEnd rfl
              hloop)
        · rw [if_pos hrc] at h
          cases h
          refine ends_of_finish
            (r := (T.called (some a) (func T.state (some a)).1).finish s.history (-1)) ?_
          simp only [Traversal.go, if_neg hmore, htable, hp, hi, if_true, ha, ne_eq, hrc,
            not_false_eq_true]
          rfl

/-- **With nobody else around** the steps are the function. -/
theorem foreach_alone (ht : s.phase t = .idle) (hi : i < kMaxInstanceId) (start : σ)
    (h : s.proc.foreach t i (some (onPointer func)) start = .ok (rc, state, p)) :
    ∃ T, traversalStep func ⟨s, none⟩ (.foreach t i start) = .ok (⟨s, some T⟩, none) ∧
      Ends func s T rc state p := by
  refine ⟨_, by simp only [traversalStep, ht]; rfl, ?_⟩
  simp only [Process.foreach] at h
  cases hloop : foreachLoop s.proc.s_ppInstances i (onPointer func) start
      s.proc.s_vecpppInstances with
  | error f =>
    simp only [hloop] at h
    cases h
  | ok r =>
    obtain ⟨more, state'⟩ := r
    have H := loop_alone (s := s) (T := ⟨t, i, 0, s.proc.s_vecpppInstances.length, false, start,
      start, s.history, []⟩) hi rfl (Nat.zero_add _).symm rfl hloop
    simp only [hloop] at h
    cases more with
    | true =>
      cases h
      exact H
    | false =>
      cases h
      exact H

end Alone

/-! ## Runs -/

namespace Traversing

/-- Before the first call. -/
def init : Traversing β σ := ⟨.init, none⟩

end Traversing

def TraversalMove.inRange : TraversalMove σ → Prop
  | .store m => m.inRange
  | .foreach _ i _ => i < kMaxInstanceId
  | .go => True

structure Traverses (func : σ → Option Nat → σ × Int) (s : Traversing β σ) : Prop where
  coherent : Coherent s.stores
  inRange : ∀ t, (s.stores.phase t).inRange
  follows : ∀ T, s.holder = some T → T.uInstanceId < kMaxInstanceId ∧
    ∃ reads rest, Follows func s.stores T reads rest

section Runs

variable {func : σ → Option Nat → σ × Int} {s s' : Traversing β σ} {m : TraversalMove σ}
  {out : Option (Traversed σ)}

theorem traverses_init : Traverses func (Traversing.init : Traversing β σ) :=
  ⟨coherent_init, fun _ => trivial, nofun⟩

theorem Coherent.setErrorCode {s : Stores β} (C : Coherent s) (t : Tid) (e : ErrorCode) :
    Coherent { s with proc := s.proc.lldkSetErrorCode t e } :=
  ⟨C.order, C.nodup, C.first, C.slots, C.owned.congr rfl rfl, C.placed⟩

/-- **Step lemma.** -/
theorem traverses_step (I : Traverses func s) (hm : m.inRange)
    (h : traversalStep func s m = .ok (s', out)) :
    Traverses func s' ∧ ∀ r, out = some r → r.Right func := by
  cases m with
  | store m =>
    simp only [traversalStep] at h
    split at h
    · cases h
    · split at h
      · cases h
      · rename_i hlock
        cases hs : storeMove s.stores m with
        | error e =>
          rw [hs] at h
          cases h
        | ok r =>
          rw [hs] at h
          cases h
          refine ⟨⟨coherent_step I.coherent hs, inRange_step I.inRange hm hs, fun T hT => ?_⟩,
            nofun⟩
          have hunlocked : m.locks = false := by
            cases hl : m.locks with
            | false => rfl
            | true =>
              have hT' : s.holder = some T := hT
              exact absurd (by rw [hl, hT']; rfl) hlock
          obtain ⟨hi, reads, rest, F⟩ := I.follows T hT
          exact ⟨hi, reads, rest, follows_store F hunlocked hs⟩
  | foreach t i start =>
    simp only [traversalStep] at h
    split at h
    · cases h
    · split at h
      · cases h
      · cases h
        refine ⟨⟨I.coherent, I.inRange, fun T hT => ?_⟩, nofun⟩
        cases hT
        exact ⟨hm, [], _, follows_start I.coherent t i start⟩
  | go =>
    simp only [traversalStep] at h
    split at h
    · cases h
    · rename_i T hT
      obtain ⟨hi, reads, rest, F⟩ := I.follows T hT
      rcases follows_go I.coherent hi F with
        ⟨T', reads', rest', hgo, hid, F'⟩ | ⟨s₁, r, hgo, hr, hs⟩
      · rw [hgo] at h
        cases h
        refine ⟨⟨I.coherent, I.inRange, fun T₁ hT₁ => ?_⟩, nofun⟩
        cases hT₁
        exact ⟨hid ▸ hi, reads', rest', F'⟩
      · rw [hgo] at h
        cases h
        refine ⟨⟨?_, ?_, nofun⟩, fun r' hr' => ?_⟩
        · rcases hs with rfl | rfl
          · exact I.coherent
          · exact I.coherent.setErrorCode _ _
        · rcases hs with rfl | rfl
          · exact I.inRange
          · exact I.inRange
        · cases hr'
          exact hr

/-- **Run lemma.** -/
theorem traverses_run {moves : List (TraversalMove σ)} {outs : List (Option (Traversed σ))}
    (I : Traverses func s) (hids : ∀ m ∈ moves, m.inRange)
    (h : run (traversalStep func) s moves = .ok (s', outs)) :
    ∀ r, some r ∈ outs → r.Right func := by
  induction moves generalizing s outs with
  | nil =>
    cases h
    exact nofun
  | cons m moves ih =>
    obtain ⟨s₁, out, outs', hstep, hrun, rfl⟩ := run_cons_eq_ok.mp h
    obtain ⟨hm, hrest⟩ := List.forall_mem_cons.mp hids
    obtain ⟨I₁, hr⟩ := traverses_step I hm hstep
    intro r hmem
    rcases List.mem_cons.mp hmem with he | hmem
    · exact hr r he.symm
    · exact ih I₁ hrest hrun r hmem

/-- A slot is read outside its table, or a table beyond the end of the vector. -/
def TraversalFault.outside : TraversalFault → Prop
  | .move (.library _) => True
  | .iterator => True
  | _ => False

theorem traversalStep_inside (I : Traverses func s) {e : TraversalFault}
    (h : traversalStep func s m = .error e) : ¬ e.outside := by
  cases m with
  | store m =>
    simp only [traversalStep] at h
    split at h
    · cases h
      exact id
    · split at h
      · cases h
        exact id
      · cases hs : storeMove s.stores m with
        | error e' =>
          rw [hs] at h
          cases h
          cases e' with
          | library f => exact absurd hs (storeMove_ne_fault I.coherent I.inRange m f)
          | notThere t => exact id
        | ok r =>
          rw [hs] at h
          cases h
  | foreach t i start =>
    simp only [traversalStep] at h
    split at h
    · cases h
      exact id
    · split at h
      · cases h
        exact id
      · cases h
  | go =>
    simp only [traversalStep] at h
    split at h
    · cases h
      exact id
    · rename_i T hT
      obtain ⟨hi, reads, rest, F⟩ := I.follows T hT
      rcases follows_go I.coherent hi F with ⟨T', reads', rest', hgo, -⟩ | ⟨s₁, r, hgo, -⟩
      · rw [hgo] at h
        cases h
      · rw [hgo] at h
        cases h

theorem traversalRun_inside {moves : List (TraversalMove σ)} (I : Traverses func s)
    (hids : ∀ m ∈ moves, m.inRange) {e : TraversalFault}
    (h : run (traversalStep func) s moves = .error e) : ¬ e.outside := by
  induction moves generalizing s with
  | nil => cases h
  | cons m moves ih =>
    obtain ⟨hm, hrest⟩ := List.forall_mem_cons.mp hids
    cases hstep : traversalStep func s m with
    | error e' =>
      rw [run_cons_error hstep] at h
      cases h
      exact traversalStep_inside I hstep
    | ok r =>
      rw [run_cons_ok hstep] at h
      have hnext := ih (traverses_step I hm hstep).1 hrest
      cases hr : run (traversalStep func) r.1 moves with
      | error e' =>
        rw [hr] at h
        cases h
        exact hnext hr
      | ok q =>
        rw [hr] at h
        cases h

/-- **`foreach` while others store.** In any interleaving of stores with calls of `foreach`: no slot
is read outside its table, and the vector does not change under the loop. A call passes to `func`
no null pointer; it visits the tables that were registered when it began, in that order, with what
each slot held at some time during the call and at no earlier time than the slots before it. -/
theorem foreach_while_storing (func : σ → Option Nat → σ × Int) {moves : List (TraversalMove σ)}
    (hids : ∀ m ∈ moves, m.inRange) :
    (∀ e, run (traversalStep func) (Traversing.init : Traversing β σ) moves = .error e →
      ¬ e.outside) ∧
    ∀ s outs, run (traversalStep func) (Traversing.init : Traversing β σ) moves = .ok (s, outs) →
      ∀ r, some r ∈ outs → r.Right func :=
  ⟨fun _ h => traversalRun_inside traverses_init hids h,
    fun _ _ h => traverses_run traverses_init hids h⟩

/-- Thread 1 stores 101 between the check of its slot and the call of `func`; thread 2 has its
table, and cannot register it. -/
def storedBetween : List (TraversalMove Unit) :=
  [.store (.enter 1 7 (some 100) true), .store (.register 1 true), .store (.write 1),
    .store (.enter 2 7 (some 200) true), .store (.enter 1 7 (some 101) true), .foreach 3 7 (), .go,
    .store (.write 1), .go, .go, .store (.register 2 true)]

theorem foreach_while_storing_between :
    ∃ s outs r, run (traversalStep fun (s : Unit) _ => (s, 0))
        (Traversing.init : Traversing Unit Unit) storedBetween = .ok (s, outs) ∧
      some r ∈ outs ∧ r.calls = [some 101] ∧ r.Right fun s _ => (s, 0) := by
  have hids : ∀ m ∈ storedBetween, m.inRange := by
    simp [storedBetween, TraversalMove.inRange, StoreMove.inRange, kMaxInstanceId]
  have hends : (run (traversalStep fun (s : Unit) _ => (s, 0))
      (Traversing.init : Traversing Unit Unit) storedBetween).toOption.any (fun q =>
        q.2.any fun out => out.any fun r => decide (r.calls = [some 101])) = true := by
    decide +kernel
  obtain ⟨⟨s, outs⟩, h, hends⟩ := exists_of_any hends
  obtain ⟨out, hmem, hout⟩ := List.any_eq_true.mp hends
  obtain ⟨r, rfl, hcalls⟩ := (Option.any_eq_true _ _).mp hout
  exact ⟨s, outs, r, h, hmem, of_decide_eq_true hcalls,
    (foreach_while_storing _ hids).2 s outs h r hmem⟩

end Runs

end Lldk
