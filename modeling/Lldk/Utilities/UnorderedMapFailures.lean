import Lldk.Utilities.UnorderedMapRefinement

/-!
`LldkUnorderedMap` when the container does not get the memory of a node.

* `insert` swallows the exception and returns `false`, `operator[]` lets `std::bad_alloc` out
  after a lookup that already touched the cache and the counter.
* `failStep` is the plain map whose client may run out of memory: it answers the calls that
  `plainStep` says nothing about, and a failed call changes nothing.
* `served` are the calls of a run that did not fail. `run_served`: for the plain map the others
  might as well not have been made.
* `clientStep_withFailures` is the step lemma against the class.
* `failed_calls_change_nothing`: every run of `failStep` is matched, result for result, by a run
  of the class, with `StaleRead.traps` too as long as no resident key is erased.
-/

namespace Lldk.UnorderedMap

open Lib Lib.Trace LldkUnorderedMap

variable {K V : Type} [DecidableEq K] [Inhabited V]

/-! ## The plain map that may run out of memory -/

def failStep : Step (Plain K V) (ClientOp K V) (Out V Unit) Outside
  | s, .call (.insert _ _ false) => .ok (s, .bool false)
  | s, .call (.index key false) =>
    match s.map.lookup key with
    | some _ => .ok ({ s with refs := s.refs ++ [some key] }, .ref ())
    | none => .ok (s, .threw "std::bad_alloc")
  | s, op => plainStep s op

/-- The call with its result, if it did not fail for lack of memory. A key that `operator[]`
finds needs no memory. -/
def served : ClientOp K V × Out V Unit → Option (ClientOp K V × Out V Unit)
  | (.call (.insert _ _ false), _) => none
  | (.call (.index key false), out) =>
    match out with
    | .threw _ => none
    | _ => some (.call (.index key true), out)
  | p => some p

/-- **Step lemma.** A step either fails and changes nothing, or is a step of the plain map. -/
theorem failStep_cases {s s' : Plain K V} {op : ClientOp K V} {out : Out V Unit}
    (h : failStep s op = .ok (s', out)) :
    served (op, out) = none ∧ s' = s ∨
      ∃ op', served (op, out) = some (op', out) ∧ plainStep s op' = .ok (s', out) := by
  cases op with
  | read i => exact Or.inr ⟨_, rfl, h⟩
  | write i value => exact Or.inr ⟨_, rfl, h⟩
  | call op =>
    cases op with
    | insert key value mem =>
      cases mem with
      | true => exact Or.inr ⟨_, rfl, h⟩
      | false =>
        cases h
        exact Or.inl ⟨rfl, rfl⟩
    | index key mem =>
      cases mem with
      | true => exact Or.inr ⟨_, rfl, h⟩
      | false =>
        cases hl : s.map.lookup key with
        | none =>
          simp only [failStep, hl] at h
          cases h
          exact Or.inl ⟨rfl, rfl⟩
        | some v =>
          simp only [failStep, hl] at h
          cases h
          exact Or.inr ⟨_, rfl, by simp only [plainStep, hl]⟩
    | erase key => exact Or.inr ⟨_, rfl, h⟩
    | find key => exact Or.inr ⟨_, rfl, h⟩
    | contains key => exact Or.inr ⟨_, rfl, h⟩
    | clear => exact Or.inr ⟨_, rfl, h⟩
    | size => exact Or.inr ⟨_, rfl, h⟩
    | empty => exact Or.inr ⟨_, rfl, h⟩

/-- **Run lemma.** The calls that were served make the same run of the plain map. -/
theorem run_served {s s' : Plain K V} {ops : List (ClientOp K V)} {outs : List (Out V Unit)}
    (h : run failStep s ops = .ok (s', outs)) :
    run plainStep s (((ops.zip outs).filterMap served).map Prod.fst) =
      .ok (s', ((ops.zip outs).filterMap served).map Prod.snd) := by
  induction ops generalizing s outs with
  | nil =>
    cases h
    rfl
  | cons op ops ih =>
    obtain ⟨t, out, outs', hs, hr, rfl⟩ := run_cons_eq_ok.mp h
    rw [List.zip_cons_cons]
    rcases failStep_cases hs with ⟨hnone, rfl⟩ | ⟨op', hsome, hplain⟩
    · rw [List.filterMap_cons_none hnone]
      exact ih hr
    · rw [List.filterMap_cons_some hsome, List.map_cons, List.map_cons]
      exact run_cons_eq_ok.mpr ⟨t, out, _, hplain, ih hr, rfl⟩

/-! ## The class -/

variable {CACHE_SIZE : Nat} [NeZero CACHE_SIZE] {hashFunc : K → UInt64}

/-- **Step lemma.** The class answers a call that gets no memory as `failStep` does. -/
theorem clientStep_withFailures {c : Client K V CACHE_SIZE} {s s' : Plain K V} {op : ClientOp K V}
    {out : Out V Unit} (R : Refines hashFunc c s) (h : failStep s op = .ok (s', out)) :
    ∃ c', clientStep hashFunc .seesOldKey c op = .ok (c', out) ∧ Refines hashFunc c' s' := by
  obtain ⟨heap, obj, ptrs⟩ := c
  have hi : Inv hashFunc heap obj := R.inv
  -- what `plainStep` says of the step, where it says something
  have hplain : plainStep s op = .ok (s', out) →
      ∃ c', clientStep hashFunc .seesOldKey ⟨heap, obj, ptrs⟩ op = .ok (c', out) ∧
        Refines hashFunc c' s' := by
    intro hs
    obtain ⟨c', hc, R', -⟩ := clientStep_simulates R hs
    exact ⟨c', hc, R'⟩
  cases op with
  | read i => exact hplain h
  | write i value => exact hplain h
  | call op =>
    cases op with
    | insert key value mem =>
      cases mem with
      | true => exact hplain h
      | false =>
        cases h
        refine ⟨⟨heap, obj, ptrs⟩, ?_, R⟩
        cases hf : obj.m_mapEntries.find heap key with
        | some n => simp [clientStep, step_insert_present hf, Out.pointers, Out.hide]
        | none => simp [clientStep, step_insert_noMemory hf, Out.pointers, Out.hide]
    | index key mem =>
      cases mem with
      | true => exact hplain h
      | false =>
        -- the lookup of `operator[]` changes the cache and the counter before the insertion fails
        have hlook : Refines hashFunc ⟨heap, looked hashFunc heap obj key, ptrs⟩ s :=
          R.of_same (hi.refill key _) rfl
        cases hl : s.map.lookup key with
        | some v =>
          simp only [failStep, hl] at h
          cases h
          obtain ⟨n, hf, e⟩ := R.find_of_lookup hl
          refine ⟨_, ?_, hlook.push (some n) (some key) ?_⟩
          · simp [clientStep, step_index_present hi hf, Out.pointers, Out.hide]
          · rintro k hk
            cases hk
            exact ⟨n, v, rfl, e⟩
        | none =>
          simp only [failStep, hl] at h
          cases h
          have hf := R.find_of_lookup_none hl
          refine ⟨_, ?_, hlook⟩
          simp [clientStep, step_index_noMemory hi hf, Out.pointers, Out.hide]
    | erase key => exact hplain h
    | find key => exact hplain h
    | contains key => exact hplain h
    | clear => exact hplain h
    | size => exact hplain h
    | empty => exact hplain h

/-- A write through a pointer may go to any node of the heap, so the invariant is not one of all
runs of the client; it is one of those that `failStep` allows. -/
theorem run_anyRead (r : StaleRead) {c : Client K V CACHE_SIZE} {s s' : Plain K V}
    {ops : List (ClientOp K V)} {outs : List (Out V Unit)} (R : Refines hashFunc c s)
    (h : run failStep s ops = .ok (s', outs))
    (hr : EachStep (clientStep hashFunc .seesOldKey) (erasesNoResident hashFunc) c ops) :
    run (clientStep hashFunc r) c ops = run (clientStep hashFunc .seesOldKey) c ops := by
  induction ops generalizing c s outs with
  | nil => rfl
  | cons op ops ih =>
    obtain ⟨t, out, outs', hs, hrest, rfl⟩ := run_cons_eq_ok.mp h
    obtain ⟨c', hc, R'⟩ := clientStep_withFailures R hs
    have hc' : clientStep hashFunc r c op = .ok (c', out) :=
      (clientStep_anyRead r R.inv hr.1).trans hc
    rw [run_cons_ok hc, run_cons_ok hc', ih R' hrest (hr.2 c' out hc)]

/-- **Calls that get no memory.** Whatever calls, reads and writes a client makes, and whichever
of its insertions get no memory, the class answers as the plain map does: a failed `insert`
returns `false`, a failed `operator[]` throws, and otherwise it is as if the call had not been
made: the contents and every pointer handed out are those of the run of the served calls. -/
theorem failed_calls_change_nothing (hashFunc : K → UInt64) (ops : List (ClientOp K V))
    (s : Plain K V) (outs : List (Out V Unit))
    (h : run failStep Plain.init ops = .ok (s, outs)) :
    run plainStep Plain.init (((ops.zip outs).filterMap served).map Prod.fst) =
        .ok (s, ((ops.zip outs).filterMap served).map Prod.snd) ∧
      ∃ c : Client K V CACHE_SIZE,
        run (clientStep hashFunc .seesOldKey) Client.init ops = .ok (c, outs) ∧
        (∀ k v, s.map.lookup k = some v ↔ ∃ n, Entry c.heap c.obj.m_mapEntries n k v) ∧
        (EachStep (clientStep hashFunc .seesOldKey) (erasesNoResident hashFunc)
            (Client.init : Client K V CACHE_SIZE) ops →
          ∀ r, run (clientStep hashFunc r) Client.init ops = .ok (c, outs)) := by
  have hsim : ∀ (c : Client K V CACHE_SIZE) s op s' out, Refines hashFunc c s →
      failStep s op = .ok (s', out) →
      ∃ c', clientStep hashFunc .seesOldKey c op = .ok (c', out) ∧ Refines hashFunc c' s' :=
    fun _ _ _ _ _ R hs => clientStep_withFailures R hs
  obtain ⟨c, hc, R⟩ := run_simulates (Refines hashFunc) hsim refines_init h
  refine ⟨run_served h, c, hc, R.agree, fun hr r => ?_⟩
  rw [run_anyRead r refines_init h hr, hc]

/-- Keys 1 and 3 share the slot. 3 does not get in, 5 throws, and the pointer to the cell of 1 is
good before and after; erasing 1 while 7 has the slot reads no removed node. -/
theorem failed_calls_change_nothing_sample :
    ∃ (s : Plain Nat Nat) (c : Client Nat Nat 2),
      s.map.lookup 7 = some 70 ∧
      run (clientStep (fun key : Nat => key.toUInt64) .traps) Client.init
          [.call (.insert 1 10 true), .call (.insert 3 30 false), .call (.find 3),
            .call (.index 1 false), .write 1 11, .call (.index 5 false), .read 1,
            .call (.insert 7 70 true), .call (.erase 1), .call .size] =
        .ok (c, [.bool true, .bool false, .ptr none, .ref (), .unit, .threw "std::bad_alloc",
          .value 11, .bool true, .unit, .count 1]) ∧
      ∀ k v, s.map.lookup k = some v ↔ ∃ n, Entry c.heap c.obj.m_mapEntries n k v := by
  obtain ⟨-, c, -, hentry, htraps⟩ :=
    @failed_calls_change_nothing Nat Nat _ _ 2 _ (fun key : Nat => key.toUInt64)
      [.call (.insert 1 10 true), .call (.insert 3 30 false), .call (.find 3),
        .call (.index 1 false), .write 1 11, .call (.index 5 false), .read 1,
        .call (.insert 7 70 true), .call (.erase 1), .call .size] _ _ rfl
  exact ⟨_, c, rfl, htraps (by decide) .traps, hentry⟩

end Lldk.UnorderedMap
