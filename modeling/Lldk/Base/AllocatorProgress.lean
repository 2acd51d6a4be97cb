import Lldk.Base.AllocatorDeadlock
import Lldk.Lib.Progress

/-!
The calls of the library come to an end.
The functions have no loops besides the traversal, which is one action under its mutex. Where no
storage is freed under the mutex of the registry, the threads come to a halt only when every call
has returned and every mutex is free, or a thread has crashed; and to that halt they do come when
they get their turns: `calls_return`.
-/

namespace Lldk

open Lib Lib.Trace Lib.Threads Lib.LockOrder LibraryCode

theorem rank_lt (m : Mutex) : lockOrder.rank m < 3 := by
  cases m <;> decide

/-- Nobody has called anything. -/
theorem busyIn_start : BusyIn ∅ (Config.start .init : Threads) := fun _ _ => ⟨(), rfl⟩

/-- What the discipline says of a run whose steps meet the condition holds where it ends. -/
theorem follows_end {c c' : Threads} (F : Follows lockOrder c) {moves : List (Move Tid Call)}
    {outs : List Unit} (hrun : run (threadStep call) c moves = .ok (c', outs))
    (hmeets : EachStep (threadStep call) NoStorageUnderLock c moves) : Follows lockOrder c' :=
  run_invariant_of_eachStep
    (fun _ _ _ _ F hg hs => follows_step disciplined_call F (respects_of_noStorage hg) hs) F hmeets
    hrun

/-- **The calls return.** Take any run that meets the condition, on any number of threads, up to
any state in the middle of their calls. If nobody can move there, every call has returned and every
mutex is free, or a thread has crashed. Otherwise this comes about in finitely many turns, however
the threads take them, as long as each thread in a call gets its turn again and again and the
condition goes on to hold. -/
theorem calls_return {moves : List (Move Tid Call)} {c : Threads} {outs : List Unit}
    (hrun : run (threadStep call) (Config.start .init) moves = .ok (c, outs))
    (hmeets : EachStep (threadStep call) NoStorageUnderLock (Config.start .init) moves) :
    ((∀ u r, threadStep call c (.go u) ≠ .ok r) → Ended c) ∧
      ∀ ts : Nat → Tid, Fair c ts →
        (∀ n, NoStorageUnderLock (turns call c ts n) (.go (ts n))) →
        ∃ n, Ended (turns call c ts n) := by
  have F : Follows lockOrder c := follows_end (follows_start fun h => absurd rfl h) hrun hmeets
  obtain ⟨A, hA⟩ := exists_busyIn busyIn_start hrun
  exact ⟨F.ended_of_stuck rank_lt, fun ts hfair hall =>
    F.ended_of_fair rank_lt disciplined_call hA hfair fun n => respects_of_noStorage (hall n)⟩

theorem noStorage_of_ret {c : Threads} (h : ∀ t, ∃ a, c.progs t = .ret a) (move : Move Tid Call) :
    NoStorageUnderLock c move := by
  cases move with
  | start t call => trivial
  | go t =>
    intro i hi
    obtain ⟨a, ha⟩ := h t
    rw [ha] at hi
    cases hi

/-- Taking turns, threads 1 and 2 meet the condition as long as they are in their calls. -/
theorem noStorage_turns {c : Threads} {ts : Nat → Tid} {N : Nat}
    (h : ∀ n, n < N → NoStorageUnderLock (turns call c ts n) (.go (ts n)))
    (hret : ∀ t, ∃ a, (turns call c ts N).progs t = .ret a) (n : Nat) :
    NoStorageUnderLock (turns call c ts n) (.go (ts n)) := by
  by_cases hn : n < N
  · exact h n hn
  · obtain ⟨k, rfl⟩ := Nat.exists_eq_add_of_le (Nat.le_of_not_lt hn)
    rw [turns_add, turns_of_passing fun _ _ => stuck_of_ret hret _]
    exact noStorage_of_ret hret _

/-- Thread 2 destroys what thread 1 created, and then nobody can move. In the middle of that run
both are in their calls and thread 2 holds the mutex of the registry; by turns they get out. -/
theorem calls_return_sample :
    (∃ c outs, run (threadStep call) (Config.start .init) destroyElsewhere = .ok (c, outs) ∧
      (∀ u r, threadStep call c (.go u) ≠ .ok r) ∧ AllReturned c) ∧
    ∃ c outs, run (threadStep call) (Config.start .init) (destroyElsewhere.take 45) =
        .ok (c, outs) ∧ c.owner .registry = some 2 ∧
      ∃ n, Ended (turns call c (fun i => 1 + i % 2) n) := by
  have hin : ∀ move ∈ destroyElsewhere, move.thread ∈ ({1, 2} : Finset Tid) := by decide
  constructor
  · have hends : (run (threadStep call) (Config.start .init) destroyElsewhere).toOption.any
        (fun r => decide (∀ t ∈ ({1, 2} : Finset Tid), ∃ a, r.1.progs t = .ret a)) = true := by
      decide +kernel
    obtain ⟨⟨c, outs⟩, hrun, hends⟩ := exists_of_any hends
    have hmeets : EachStep (threadStep call) NoStorageUnderLock (Config.start .init)
        destroyElsewhere := by decide +kernel
    have hA : BusyIn {1, 2} c := busyIn_run (fun _ _ => ⟨(), rfl⟩) hin hrun
    have hret := hA.ret_of_mem (of_decide_eq_true hends)
    refine ⟨c, outs, hrun, stuck_of_ret hret, ?_⟩
    refine ((calls_return hrun hmeets).1 (stuck_of_ret hret)).resolve_right ?_
    rintro ⟨u, hu⟩
    obtain ⟨a, ha⟩ := hret u
    rw [ha] at hu
    cases hu
  · have hends : (run (threadStep call) (Config.start .init)
        (destroyElsewhere.take 45)).toOption.any
          (fun r => decide (r.1.owner .registry = some 2 ∧
            (∀ n, n < 33 → NoStorageUnderLock (turns call r.1 (fun i => 1 + i % 2) n)
              (.go (1 + n % 2))) ∧
            ∀ t ∈ ({1, 2} : Finset Tid),
              ∃ a, (turns call r.1 (fun i => 1 + i % 2) 33).progs t = .ret a)) = true := by
      decide +kernel
    obtain ⟨⟨c, outs⟩, hrun, hends⟩ := exists_of_any hends
    obtain ⟨howner, hbusy, hret⟩ := of_decide_eq_true hends
    have hmeets : EachStep (threadStep call) NoStorageUnderLock (Config.start .init)
        (destroyElsewhere.take 45) := by decide +kernel
    have hA : BusyIn {1, 2} c :=
      busyIn_run (fun _ _ => ⟨(), rfl⟩) (fun move hm => hin move (List.mem_of_mem_take hm)) hrun
    have hfair : Fair c fun i => 1 + i % 2 := by
      intro t ht n
      have htA : t ∈ ({1, 2} : Finset Tid) := by
        by_contra hnot
        obtain ⟨a, ha⟩ := hA t hnot
        exact ht a ha
      rcases Finset.mem_insert.mp htA with rfl | htA
      · refine ⟨2 * n, by omega, ?_⟩
        change 1 + 2 * n % 2 = 1
        omega
      · obtain rfl := Finset.mem_singleton.mp htA
        refine ⟨2 * n + 1, by omega, ?_⟩
        change 1 + (2 * n + 1) % 2 = 2
        omega
    exact ⟨c, outs, hrun, howner, (calls_return hrun hmeets).2 _ hfair
      (noStorage_turns hbusy ((hA.turns _ _).ret_of_mem hret))⟩

end Lldk
