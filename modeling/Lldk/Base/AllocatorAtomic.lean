import Lldk.Base.AllocatorCounters
import Lldk.Lib.AtomicObject

/-!
The counters of the process as an atomic object.

* `ProcessCounters` has the four counters and the blocks that they show; one whose counters show
  anything else cannot be built. `Takes` is what each call does to it.
* `Shows`: the object that a state of the threads comes to. A call takes effect with the store of
  its second counter, or with the copy of the counters.
* `shows_step`, and from it `counters_linearizable`: the calls of any number of threads, interleaved
  load by load and store by store, return what the object returns.
-/

namespace Lldk

open Lib Lib.Threads Lib.Trace Process

/-! ## The object -/

structure ProcessCounters where
  stats : AllocateStats
  blocks : Ledger Nat UInt64
  sizes : stats.liveSize = UInt64.ofNat (blocks.total UInt64.toNat)
  counts : stats.liveCount = UInt64.ofNat blocks.entries.length

namespace ProcessCounters

variable {o o' : ProcessCounters} {a : Nat} {uSize : UInt64}

def zero : ProcessCounters :=
  ⟨.zero, ∅, AllocateStats.liveSize_zero, AllocateStats.liveCount_zero⟩

def allocated (o : ProcessCounters) (uSize : UInt64) (h : a ∉ o.blocks) : ProcessCounters where
  stats := o.stats.addAllocated uSize
  blocks := o.blocks.insert a uSize
  sizes := by
    rw [AllocateStats.liveSize_addAllocated, o.sizes, Ledger.total_insert_of_notMem _ h,
      UInt64.ofNat_add, UInt64.ofNat_toNat]
    exact UInt64.add_comm ..
  counts := by
    rw [AllocateStats.liveCount_addAllocated, o.counts, ← Ledger.total_one, ← Ledger.total_one,
      Ledger.total_insert_of_notMem _ h, UInt64.ofNat_add]
    exact UInt64.add_comm ..

def freed (o : ProcessCounters) (h : o.blocks.lookup a = some uSize) : ProcessCounters where
  stats := o.stats.addFreed uSize
  blocks := o.blocks.erase a
  sizes := by
    rw [AllocateStats.liveSize_addFreed, o.sizes, Ledger.total_erase _ h, UInt64.ofNat_add,
      UInt64.ofNat_toNat, UInt64.add_comm]
    exact UInt64.add_sub_cancel ..
  counts := by
    rw [AllocateStats.liveCount_addFreed, o.counts, ← Ledger.total_one, ← Ledger.total_one,
      Ledger.total_erase _ h, UInt64.ofNat_add, UInt64.add_comm]
    exact UInt64.add_sub_cancel ..

/-- What a call does and returns: `malloc` has memory or not, the pointer is that of no other
block, and the block that is given back is there. -/
inductive Takes : Spec ProcessCounters CountingCall Returned
  | allocated {o : ProcessCounters} {a : Nat} {uSize : UInt64} (junk : UInt64)
    (h : a ∉ o.blocks) :
    Takes o (.lldkAllocate uSize junk true) (.pointer (some a)) (o.allocated uSize h)
  | noMemory (o : ProcessCounters) (uSize junk : UInt64) :
    Takes o (.lldkAllocate uSize junk false) (.pointer none) o
  | freed {o : ProcessCounters} {a : Nat} {uSize : UInt64} (h : o.blocks.lookup a = some uSize) :
    Takes o (.lldkFree (some a)) .unit (o.freed h)
  | freedNull (o : ProcessCounters) : Takes o (.lldkFree none) .unit o
  | stats (o : ProcessCounters) : Takes o (.lldkGetAllocateStats true) (.stats 0 (some o.stats)) o
  | statsNull (o : ProcessCounters) : Takes o (.lldkGetAllocateStats false) (.stats (-1) none) o

end ProcessCounters

abbrev AtomicCounters := Atomic Tid ProcessCounters CountingCall Returned

namespace CountingCode

/-! ## The object that the threads come to -/

/-- How far the call of a thread has got. -/
def Place.At : Place → Status CountingCall Returned → Prop
  | .returned _, q => q = .idle
  | .crashed, _ => False
  | .fails _ r, q => q = .done r
  | .malloc uSize junk mem, q => q = .called (.lldkAllocate uSize junk mem)
  | .writeHeader _ uSize, q => ∃ junk, q = .called (.lldkAllocate uSize junk true)
  | .readHeader a _, q => q = .called (.lldkFree (some a))
  | .count .allocated .unlock a _, q => q = .done (.pointer (some a))
  | .count .allocated _ _ uSize, q => ∃ junk, q = .called (.lldkAllocate uSize junk true)
  | .count .freed .unlock _ _, q => q = .done .unit
  | .count .freed _ a _, q => q = .called (.lldkFree (some a))
  | .release _ _, q => q = .done .unit
  | .lockStats, q => q = .called (.lldkGetAllocateStats true)
  | .copyStats, q => q = .called (.lldkGetAllocateStats true)
  | .unlockStats s, q => q = .done (.stats 0 (some s))

/-- What the thread has made of the counters `s` so far. -/
def Place.half (s : AllocateStats) : Place → AllocateStats
  | .count c .loadCount _ uSize => c.setSize (c.size s + uSize) s
  | .count c (.storeCount _) _ uSize => c.setSize (c.size s + uSize) s
  | _ => s

theorem Place.half_of_unlocked {φ : Place} (h : φ.locked = false) (s : AllocateStats) :
    φ.half s = s := by
  cases φ with
  | count c stage a uSize =>
    cases stage with
    | lock => rfl
    | _ => cases h
  | _ => rfl

structure Shows (p : Process Object) (live : Ledger Nat UInt64) (place : Tid → Place)
    (s : AtomicCounters) : Prop where
  status : ∀ t, (place t).At (s.status t)
  blocks : Hands.Tallies (Place.shown Stage.numbered) live place s.object.blocks
  half : ∀ t, (∀ t', t' ≠ t → (place t').locked = false) →
    p.s_allocateStats = (place t).half s.object.stats

section Shows

variable {p p' : Process Object} {live live' : Ledger Nat UInt64} {place : Tid → Place}
  {s s' : AtomicCounters} {φ : Place} {t : Tid} {a : Nat} {uSize : UInt64} {r : Returned}
  {call : CountingCall} {o : ProcessCounters}

/-- Thread `t` goes to `φ`. -/
theorem Shows.move (S : Shows p live place s)
    (hlock : (place t).locked = true → ∀ t', t' ≠ t → (place t').locked = false)
    (hat : φ.At (s'.status t)) (hstatus : ∀ t', t' ≠ t → s'.status t' = s.status t')
    (hblocks : Hands.Tallies (Place.shown Stage.numbered) live' (Function.update place t φ)
      s'.object.blocks)
    (hhalf : p.s_allocateStats = (place t).half s.object.stats →
      p'.s_allocateStats = φ.half s'.object.stats)
    (hstats : (place t).locked = false → p'.s_allocateStats = p.s_allocateStats ∧
      s'.object.stats = s.object.stats) : Shows p' live' (Function.update place t φ) s' where
  status := by
    refine (Function.forall_update_iff place fun t' φ' => φ'.At (s'.status t')).mpr
      ⟨hat, fun t' ht => ?_⟩
    rw [hstatus t' ht]
    exact S.status t'
  blocks := hblocks
  half := by
    intro u hu
    by_cases he : u = t
    · subst he
      rw [Function.update_self]
      refine hhalf (S.half u fun t' ht => ?_)
      have h := hu t' ht
      rwa [Function.update_of_ne ht] at h
    · have hφ := hu t (Ne.symm he)
      rw [Function.update_self] at hφ
      rw [Function.update_of_ne he]
      cases hplace : (place t).locked with
      | true =>
        -- the section ends with this step
        have hothers := hlock hplace
        rw [Place.half_of_unlocked (hothers u he), hhalf (S.half t hothers),
          Place.half_of_unlocked hφ]
      | false =>
        obtain ⟨hp, hs⟩ := hstats hplace
        rw [hp, hs]
        refine S.half u fun t' ht => ?_
        by_cases ht' : t' = t
        · rw [ht', hplace]
        · have h := hu t' ht
          rwa [Function.update_of_ne ht'] at h

/-- A step that the object does not see. -/
theorem Shows.silent (S : Shows p live place s)
    (hlock : (place t).locked = true → ∀ t', t' ≠ t → (place t').locked = false)
    (hat : (place t).At (s.status t) → φ.At (s.status t))
    (hshown : φ.shown Stage.numbered = (place t).shown Stage.numbered)
    (hhalf : p.s_allocateStats = (place t).half s.object.stats →
      p'.s_allocateStats = φ.half s.object.stats)
    (hstats : (place t).locked = false → p'.s_allocateStats = p.s_allocateStats) :
    ∃ s', Effects ProcessCounters.Takes s [] s' ∧ Shows p' live (Function.update place t φ) s' :=
  ⟨s, .refl s, S.move hlock (hat (S.status t)) (fun _ _ => rfl) (S.blocks.keep hshown) hhalf
    fun h => ⟨hstats h, rfl⟩⟩

/-- A step with which the call of thread `t` takes its effect. -/
theorem Shows.effect (S : Shows p live place s)
    (hlock : (place t).locked = true → ∀ t', t' ≠ t → (place t').locked = false)
    (hcall : s.status t = .called call) (htakes : ProcessCounters.Takes s.object call r o)
    (hat : φ.At (.done r))
    (hblocks : Hands.Tallies (Place.shown Stage.numbered) live (Function.update place t φ)
      o.blocks)
    (hhalf : p.s_allocateStats = (place t).half s.object.stats →
      p'.s_allocateStats = φ.half o.stats)
    (hstats : (place t).locked = false → p'.s_allocateStats = p.s_allocateStats ∧
      o.stats = s.object.stats) :
    ∃ s', Effects ProcessCounters.Takes s [] s' ∧
      Shows p' live (Function.update place t φ) s' :=
  ⟨_, .effect hcall htakes (.refl _), S.move hlock (by dsimp only; rwa [Function.update_self])
    (fun _ ht => Function.update_of_ne ht ..) hblocks hhalf hstats⟩

/-- The call of thread `t` returns. -/
theorem Shows.ret (S : Shows p live place s)
    (hlock : (place t).locked = true → ∀ t', t' ≠ t → (place t').locked = false)
    (hdone : s.status t = .done r)
    (hblocks : Hands.Tallies (Place.shown Stage.numbered) live'
      (Function.update place t (.returned r)) s.object.blocks)
    (hhalf : (place t).half s.object.stats = s.object.stats)
    (hstats : p'.s_allocateStats = p.s_allocateStats) :
    ∃ s', Effects ProcessCounters.Takes s [.returned t r] s' ∧
      Shows p' live' (Function.update place t (.returned r)) s' :=
  ⟨_, .ret hdone (.refl _), S.move hlock (Function.update_self ..)
    (fun _ ht => Function.update_of_ne ht ..) hblocks
    (fun h => hstats.trans (h.trans hhalf)) fun _ => ⟨hstats, rfl⟩⟩

/-- The store of the second counter. -/
theorem Shows.storesCount (S : Shows p live place s) (A : Accounts p live place)
    (hlock : ∀ t', t' ≠ t → (place t').locked = false) {c : Counters} {uValue : UInt64}
    (hplace : place t = .count c (.storeCount uValue) a uSize) :
    ∃ s', Effects ProcessCounters.Takes s [] s' ∧
      Shows (p.store (c.setCount (uValue + 1))) live
        (Function.update place t (.count c .unlock a uSize)) s' := by
  have hlocked : (place t).locked ≠ false := by
    rw [hplace]
    exact nofun
  have hat := S.status t
  have hknows := A.knows t
  have hstats := S.half t hlock
  rw [hplace] at hat hknows hstats
  obtain ⟨-, rfl⟩ := hknows
  have hsized : p.s_allocateStats = c.setSize (c.size s.object.stats + uSize) s.object.stats :=
    hstats
  cases c with
  | allocated =>
    obtain ⟨junk, hcall⟩ := hat
    have hkeep : Hands.Apart Place.hand live
        (Function.update place t (.count .allocated .unlock a uSize)) :=
      A.apart.keep fun e he => by rwa [hplace]
    obtain ⟨hnot, T⟩ := S.blocks.add (k := a) (v := uSize) (apart_shown Stage.numbered hkeep)
      (by rw [hplace]; rfl) rfl
    refine S.effect (fun _ => hlock) hcall (.allocated junk hnot) rfl T (fun _ => ?_)
      fun h => absurd h hlocked
    simp only [Process.store, hsized]
    rfl
  | freed =>
    obtain ⟨hlookup, T⟩ := S.blocks.remove (t := t) (k := a) (v := uSize)
      (φ := .count .freed .unlock a uSize) (apart_shown Stage.numbered A.apart)
      (by rw [hplace]; rfl) rfl
    refine S.effect (fun _ => hlock) hat (.freed hlookup) rfl T (fun _ => ?_)
      fun h => absurd h hlocked
    simp only [Process.store, hsized]
    rfl

/-- A step of thread `t` from the stages of a critical section, up to the last. -/
theorem shows_count (S : Shows p live place s) (A : Accounts p live place) {c : Counters}
    {stage : Stage} (hplace : place t = .count c stage a uSize) (hstage : stage ≠ .unlock)
    (hlock : (place t).locked = true → ∀ t', t' ≠ t → (place t').locked = false)
    (h : (next t (.count c stage a uSize)).Goes p φ p') :
    ∃ s', Effects ProcessCounters.Takes s [] s' ∧
      Shows p' live (Function.update place t φ) s' := by
  have hknows := A.knows t
  rw [hplace] at hknows
  cases stage with
  | lock =>
    obtain ⟨rfl, rfl⟩ := Next.goes_lock h
    refine S.silent hlock ?_ ?_ ?_ fun _ => rfl
    · rw [hplace]
      cases c <;> exact id
    · rw [hplace]
      cases c <;> rfl
    · rw [hplace]
      exact id
  | loadSize =>
    obtain ⟨rfl, rfl⟩ := Next.goes_act h
    refine S.silent hlock ?_ ?_ ?_ fun _ => rfl
    · rw [hplace]
      cases c <;> exact id
    · rw [hplace]
      cases c <;> rfl
    · rw [hplace]
      exact id
  | storeSize uValue =>
    obtain ⟨rfl, rfl⟩ := Next.goes_act h
    obtain ⟨-, rfl⟩ := hknows
    refine S.silent hlock ?_ ?_ ?_ ?_
    · rw [hplace]
      cases c <;> exact id
    · rw [hplace]
      cases c <;> rfl
    · rw [hplace]
      intro hhalf
      have hstats : p.s_allocateStats = s.object.stats := hhalf
      simp only [Process.store, hstats]
      rfl
    · rw [hplace]
      exact nofun
  | loadCount =>
    obtain ⟨rfl, rfl⟩ := Next.goes_act h
    refine S.silent hlock ?_ ?_ ?_ fun _ => rfl
    · rw [hplace]
      cases c <;> exact id
    · rw [hplace]
      cases c <;> rfl
    · rw [hplace]
      exact id
  | storeCount uValue =>
    obtain ⟨rfl, rfl⟩ := Next.goes_act h
    exact S.storesCount A (hlock (by rw [hplace]; rfl)) hplace
  | unlock => exact absurd rfl hstage

/-- The result that a thread at a place has. -/
def Place.out : Place → Option Returned
  | .returned r => some r
  | _ => none

/-- **A step** of thread `t`: what the object does, and what is seen of it. -/
theorem shows_go (S : Shows p live place s) (A : Accounts p live place)
    (hlock : (place t).locked = true → ∀ t', t' ≠ t → (place t').locked = false)
    (h : (next t (place t)).Goes p φ p') :
    (∃ a uSize, place t = .count .allocated .unlock a uSize ∧
      φ = .returned (.pointer (some a)) ∧
      ∃ s', Effects ProcessCounters.Takes s [.returned t (.pointer (some a))] s' ∧
        Shows p' (live.insert a uSize) (Function.update place t φ) s') ∨
    (∀ a uSize, place t ≠ .count .allocated .unlock a uSize) ∧
      ∃ s', Effects ProcessCounters.Takes s (seen (C := CountingCall) (.go t) φ.out) s' ∧
        Shows p' live (Function.update place t φ) s' := by
  have hknows := A.knows t
  have hat := S.status t
  cases hφ : place t with
  | returned r =>
    rw [hφ] at h
    exact absurd h (Next.not_goes_ret r)
  | crashed =>
    rw [hφ] at hknows
    exact hknows.elim
  | fails eErrorCode r =>
    rw [hφ] at h hat
    obtain ⟨rfl, rfl⟩ := Next.goes_act h
    refine Or.inr ⟨nofun, S.ret hlock hat (S.blocks.keep (by rw [hφ]; rfl)) (by rw [hφ]; rfl) rfl⟩
  | malloc uSize junk mem =>
    rw [hφ] at h hat
    obtain ⟨rfl, rfl⟩ := Next.goes_act h
    refine Or.inr ⟨nofun, ?_⟩
    cases mem with
    | true =>
      refine S.silent hlock ?_ (by rw [hφ]; rfl) (by rw [hφ]; exact id) fun _ => rfl
      rw [hφ]
      exact fun hcall => ⟨junk, hcall⟩
    | false =>
      exact S.effect hlock hat (.noMemory _ uSize junk) rfl (S.blocks.keep (by rw [hφ]; rfl))
        (by rw [hφ]; exact id) fun _ => ⟨rfl, rfl⟩
  | writeHeader a uSize =>
    rw [hφ] at h
    obtain ⟨rfl, rfl⟩ := Next.goes_act h
    exact Or.inr ⟨nofun, S.silent hlock (by rw [hφ]; exact id) (by rw [hφ]; rfl)
      (by rw [hφ]; exact id) fun _ => rfl⟩
  | readHeader a uSize =>
    rw [hφ] at h hknows
    obtain ⟨rfl, rfl⟩ := Next.goes_act h
    have hheader : p'.header a = some uSize := hknows
    simp only [hheader]
    exact Or.inr ⟨nofun, S.silent hlock (by rw [hφ]; exact id) (by rw [hφ]; rfl)
      (by rw [hφ]; exact id) fun _ => rfl⟩
  | count c stage a uSize =>
    rw [hφ] at h hat
    cases stage with
    | unlock =>
      obtain ⟨rfl, rfl⟩ := Next.goes_unlock h
      cases c with
      | allocated =>
        exact Or.inl ⟨a, uSize, rfl, rfl, S.ret hlock hat
          (S.blocks.put (apart_shown Stage.numbered A.apart) (by rw [hφ]; rfl) rfl)
          (by rw [hφ]; rfl) rfl⟩
      | freed =>
        exact Or.inr ⟨nofun, S.silent hlock (by rw [hφ]; exact id) (by rw [hφ]; rfl)
          (by rw [hφ]; exact id) fun _ => rfl⟩
    | _ =>
      obtain ⟨⟨stage', rfl⟩, -⟩ := accounts_count A hφ nofun hlock h
      exact Or.inr ⟨nofun, shows_count S A hφ nofun hlock h⟩
  | release a uSize =>
    rw [hφ] at h hat
    obtain ⟨rfl, rfl⟩ := Next.goes_act h
    exact Or.inr ⟨nofun, S.ret hlock hat (S.blocks.keep (by rw [hφ]; rfl)) (by rw [hφ]; rfl) rfl⟩
  | lockStats =>
    rw [hφ] at h
    obtain ⟨rfl, rfl⟩ := Next.goes_lock h
    exact Or.inr ⟨nofun, S.silent hlock (by rw [hφ]; exact id) (by rw [hφ]; rfl)
      (by rw [hφ]; exact id) fun _ => rfl⟩
  | copyStats =>
    rw [hφ] at h hat
    obtain ⟨rfl, rfl⟩ := Next.goes_act h
    have hstats := S.half t (hlock (by rw [hφ]; rfl))
    rw [hφ] at hstats
    refine Or.inr ⟨nofun, S.effect hlock hat (.stats _) ?_ (S.blocks.keep (by rw [hφ]; rfl))
      (by rw [hφ]; exact id) fun _ => ⟨rfl, rfl⟩⟩
    rw [hstats]
    rfl
  | unlockStats st =>
    rw [hφ] at h hat
    obtain ⟨rfl, rfl⟩ := Next.goes_unlock h
    exact Or.inr ⟨nofun, S.ret hlock hat (S.blocks.keep (by rw [hφ]; rfl)) (by rw [hφ]; rfl) rfl⟩

/-- **A call** of thread `t` that stands between calls. -/
theorem Shows.called (S : Shows p live place s) (hplace : place t = .returned r)
    (hat : φ.At (.called call)) (hlocked : φ.locked = false)
    (hblocks : Hands.Tallies (Place.shown Stage.numbered) live' (Function.update place t φ)
      s.object.blocks) :
    ∃ s', Effects ProcessCounters.Takes s [.called t call] s' ∧
      Shows p live' (Function.update place t φ) s' := by
  have hidle := S.status t
  rw [hplace] at hidle
  refine ⟨_, .call hidle (.refl _), S.move (by rw [hplace]; exact nofun)
    (by dsimp only; rwa [Function.update_self]) (fun _ ht => Function.update_of_ne ht ..) hblocks
    (fun h => ?_) fun _ => ⟨rfl, rfl⟩⟩
  rw [hplace] at h
  rw [h, Place.half_of_unlocked hlocked]
  rfl

/-- A call that fails at once. -/
theorem Shows.callFails (S : Shows p live place s) (hplace : place t = .returned r)
    {eErrorCode : ErrorCode} {r' : Returned}
    (htakes : ProcessCounters.Takes s.object call r' s.object) :
    ∃ s', Effects ProcessCounters.Takes s [.called t call] s' ∧
      Shows p live (Function.update place t (.fails eErrorCode r')) s' := by
  have hidle := S.status t
  rw [hplace] at hidle
  refine ⟨_, .call hidle (.effect (Function.update_self ..) htakes (.refl _)),
    S.move (by rw [hplace]; exact nofun) (Function.update_self ..) (fun t' ht => ?_)
      (S.blocks.keep (by rw [hplace]; rfl)) (fun h => ?_) fun _ => ⟨rfl, rfl⟩⟩
  · dsimp only
    rw [Function.update_of_ne ht, Function.update_of_ne ht]
  · rw [hplace] at h
    exact h

end Shows

end CountingCode

/-! ## Runs -/

namespace Counting

open CountingCode

variable {s s' : Counting} {a : AtomicCounters} {t : Tid} {call : CountingCall}
  {out : Option Returned} {c : Config Tid Mutex (Process Object) Unit Returned}

/-- The state `s` of the threads comes to the state `a` of the object. -/
def Comes (s : Counting) (a : AtomicCounters) : Prop :=
  ∃ place, Stands outline s.config place ∧ Accounts s.config.shared s.live place ∧
    (∀ t uSize, (place t).asked = some uSize → s.requested t = uSize) ∧
    Shows s.config.shared s.live place a

theorem comes_start : start.Comes (.start .zero) := by
  refine ⟨fun _ => .returned .unit, ⟨fun t => rfl, fun m t => ⟨nofun, nofun⟩⟩,
    ⟨⟨nofun, nofun⟩, ?_, ?_, nofun, fun t => trivial⟩, nofun,
    ⟨fun t => rfl, Hands.tallies_empty fun t => rfl, fun t _ => rfl⟩⟩
  · exact ⟨∅, Hands.tallies_empty fun t => rfl, rfl⟩
  · exact ⟨∅, Hands.tallies_empty fun t => rfl, rfl⟩

/-- **A call** of thread `t` begins at the place of its code. -/
theorem comes_call (hs : s.Comes a) {φ : Place} (hcode : call.code t = left t φ)
    (hlocked : φ.locked = false)
    (haccounts : ∀ place r, place t = .returned r → Accounts s.config.shared s.live place →
      Accounts s.config.shared (s.started t call).live (Function.update place t φ))
    (hasked : ∀ uSize, φ.asked = some uSize → (s.started t call).requested t = uSize)
    (hshows : ∀ place r, place t = .returned r → Accounts s.config.shared s.live place →
      Shows s.config.shared s.live place a → ∃ a',
        Effects ProcessCounters.Takes a [.called t call] a' ∧
        Shows s.config.shared (s.started t call).live (Function.update place t φ) a')
    (h : threadStep CountingCall.code s.config (.start t call) = .ok (c, ())) :
    ∃ a', Effects ProcessCounters.Takes a [.called t call] a' ∧
      Comes { s.started t call with config := c } a' := by
  obtain ⟨place, S, A, hrequested, W⟩ := hs
  obtain ⟨⟨r, hret⟩, hshared, S'⟩ := S.start hcode (not_holdsOnly hlocked) h
  have hplace := returned_of_next hret
  obtain ⟨a', H, W'⟩ := hshows place r hplace A W
  refine ⟨a', H, _, S', ?_, ?_, ?_⟩
  · rw [hshared]
    exact haccounts place r hplace A
  · refine (Function.forall_update_iff place fun t' φ' => ∀ uSize, φ'.asked = some uSize →
      (s.started t call).requested t' = uSize).mpr ⟨hasked, fun t' ht uSize h => ?_⟩
    rw [started_requested_of_ne s call ht]
    exact hrequested t' uSize h
  · rw [hshared]
    exact W'

theorem comes_start_call (hs : s.Comes a)
    (hlive : (call.frees.all fun a => (s.live.lookup a).isSome) = true)
    (h : threadStep CountingCall.code s.config (.start t call) = .ok (c, ())) :
    ∃ a', Effects ProcessCounters.Takes a [.called t call] a' ∧
      Comes { s.started t call with config := c } a' := by
  cases call with
  | lldkAllocate uSize junk mem =>
    refine comes_call hs (φ := .malloc uSize junk mem) rfl rfl
      (fun place r hplace A => accounts_call hplace A rfl (fun _ => rfl) trivial)
      (fun uSize' hasked => ?_)
      (fun place r hplace A W => W.called hplace rfl rfl (W.blocks.keep (by rw [hplace]; rfl))) h
    cases hasked
    exact Function.update_self ..
  | lldkFree pMemory =>
    cases pMemory with
    | none =>
      exact comes_call hs (φ := .fails .kInvalidParam .unit) rfl rfl
        (fun place r hplace A => accounts_call hplace A rfl (fun _ => rfl) rfl) nofun
        (fun place r hplace A W => W.callFails hplace (.freedNull _)) h
    | some a =>
      obtain ⟨uSize, hlookup⟩ := Option.isSome_iff_exists.mp hlive
      exact comes_call hs (φ := .readHeader a uSize) rfl rfl
        (fun place r hplace A => A.pick hplace hlookup) nofun
        (fun place r hplace A W => W.called hplace rfl rfl (W.blocks.pick
          (apart_shown Stage.numbered A.apart) hlookup (by rw [hplace]; rfl) rfl)) h
  | lldkGetAllocateStats buffer =>
    cases buffer with
    | true =>
      exact comes_call hs (φ := .lockStats) rfl rfl
        (fun place r hplace A => accounts_call hplace A rfl (fun _ => rfl) trivial) nofun
        (fun place r hplace A W => W.called hplace rfl rfl (W.blocks.keep (by rw [hplace]; rfl))) h
    | false =>
      exact comes_call hs (φ := .fails .kInvalidParam (.stats (-1) none)) rfl rfl
        (fun place r hplace A => accounts_call hplace A rfl (fun _ => rfl) rfl) nofun
        (fun place r hplace A W => W.callFails hplace (.statsNull _)) h

/-- The result of the code that is left at a place. -/
theorem result_left (t : Tid) (φ : Place) : (left t φ).result = φ.out := by
  rw [left_eq]
  cases φ with
  | count c stage a uSize => cases stage <;> rfl
  | _ => rfl

theorem comes_go (hs : s.Comes a)
    (h : threadStep CountingCall.code s.config (.go t) = .ok (c, ())) :
    ∃ a', Effects ProcessCounters.Takes a (seen (.go t) (c.progs t).result) a' ∧
      Comes { s.went t (c.progs t).result with config := c } a' := by
  obtain ⟨place, S, A, hrequested, W⟩ := hs
  obtain ⟨φ, hgoes, S'⟩ := S.go h
  have hresult : (c.progs t).result = φ.out := by
    rw [S'.progs t, Function.update_self]
    exact result_left t φ
  have hasked : ∀ t' uSize, (Function.update place t φ t').asked = some uSize →
      s.requested t' = uSize :=
    (Function.forall_update_iff place fun t' φ' => ∀ uSize, φ'.asked = some uSize →
      s.requested t' = uSize).mpr ⟨fun uSize h => hrequested t uSize (asked_go hgoes h),
        fun t' _ => hrequested t'⟩
  have hlock : (place t).locked = true → ∀ t', t' ≠ t → (place t').locked = false :=
    fun hlocked t' ht => S.others_unlocked rfl hlocked ht
  rw [hresult]
  rcases shows_go W A hlock hgoes with ⟨k, uSize, hplace, rfl, a', H, W'⟩ | ⟨hnot, a', H, W'⟩
  · have hreq : s.requested t = uSize := hrequested t uSize (by rw [hplace]; rfl)
    rcases accounts_go A hlock hgoes with ⟨k', uSize', hplace', he, A'⟩ | ⟨hmade, -⟩
    · rw [hplace] at hplace'
      cases hplace'
      rw [← hreq] at A' W'
      exact ⟨a', H, _, S', A', hasked, W'⟩
    · exact absurd (hmade _ rfl) nofun
  · rcases accounts_go A hlock hgoes with ⟨k', uSize', hplace', -⟩ | ⟨hmade, A'⟩
    · exact absurd hplace' (hnot k' uSize')
    · have hnone : φ.out.bind Returned.made = none := by
        cases φ with
        | returned r => exact hmade r rfl
        | _ => rfl
      rw [went, hnone]
      exact ⟨a', H, _, S', A', hasked, W'⟩

theorem comes_step {move : Move Tid CountingCall} (hs : s.Comes a)
    (h : countingStep s move = .ok (s', out)) :
    ∃ a', Effects ProcessCounters.Takes a (seen move out) a' ∧ s'.Comes a' := by
  cases move with
  | start t call =>
    obtain ⟨hlive, c, hstep, rfl⟩ := countingStep_start h
    exact comes_start_call hs hlive hstep
  | go t =>
    obtain ⟨c, hstep, rfl, rfl⟩ := countingStep_go h
    exact comes_go hs hstep

/-- **The counters are an atomic object**: whatever the threads do and however their loads and
stores are interleaved, each call returns what the object returns if it takes its effect at one
instant between the call and the result. -/
theorem counters_linearizable {moves : List (Move Tid CountingCall)}
    {outs : List (Option Returned)} (h : run countingStep start moves = .ok (s, outs)) :
    Linearizable ProcessCounters.Takes .zero (history moves outs) :=
  linearizable_of_simulation Comes (fun _ _ _ _ _ hs hstep => comes_step hs hstep) comes_start h

deriving instance DecidableEq for CountingCall

/-- Thread 1 allocates 100 bytes and gives them back; thread 3 asks for the counters while the free
is in progress, and thread 2, which has its memory, waits for the mutex. -/
def asked : List (Move Tid CountingCall) :=
  List.flatten [.start 1 (.lldkAllocate 100 7 true) :: List.replicate 8 (.go 1),
    [.start 2 (.lldkAllocate 50 9 true), .start 1 (.lldkFree (some 0)),
      .start 3 (.lldkGetAllocateStats true), .go 2, .go 2],
    List.replicate 7 (.go 1), List.replicate 3 (.go 3), .go 1 :: List.replicate 6 (.go 2)]

theorem counters_linearizable_asked :
    ∃ s outs, run countingStep start asked = .ok (s, outs) ∧
      history asked outs = [.called 1 (.lldkAllocate 100 7 true), .returned 1 (.pointer (some 0)),
        .called 2 (.lldkAllocate 50 9 true), .called 1 (.lldkFree (some 0)),
        .called 3 (.lldkGetAllocateStats true), .returned 3 (.stats 0 (some ⟨0, 100, 1, 100, 1⟩)),
        .returned 1 .unit, .returned 2 (.pointer (some 1))] ∧
      Linearizable ProcessCounters.Takes .zero (history asked outs) := by
  obtain ⟨⟨s, outs⟩, h, hhist⟩ := exists_of_any (x := run countingStep start asked)
    (P := fun r => decide (history asked r.2 = [.called 1 (.lldkAllocate 100 7 true),
        .returned 1 (.pointer (some 0)),
        .called 2 (.lldkAllocate 50 9 true), .called 1 (.lldkFree (some 0)),
        .called 3 (.lldkGetAllocateStats true), .returned 3 (.stats 0 (some ⟨0, 100, 1, 100, 1⟩)),
        .returned 1 .unit, .returned 2 (.pointer (some 1))]))
    (by decide +kernel)
  exact ⟨s, outs, h, of_decide_eq_true hhist, counters_linearizable h⟩

end Counting

end Lldk
