import Lldk.Base.AllocatorRegistry
import Mathlib.Data.Finset.Card

/-!
Runs that create and destroy allocators keep their books.

* `Balanced` compares the number of registered allocators with the ids in use, with the counters
  of the process and with the record of the singleton.
* `cycles_balanced`: every run that starts with the singleton is balanced all along, whether its
  calls succeed, are refused or throw.
-/

namespace Lldk

open Lib Lib.Trace Process

/-- With `n` names registered, `n + 1` ids are in use, the process has `n + 2` live blocks and
the singleton, whose only record is that of `b`, has `n`. -/
structure Balanced (s : Api) : Prop where
  names : (s.lib.s_pAllocatorMap.map Prod.fst).Nodup
  ids : ((Finset.range kMaxInstanceId).filter s.lib.proc.marked).card =
    s.lib.s_pAllocatorMap.length + 1
  process : s.lib.proc.s_allocateStats.liveCount.toNat = s.lib.s_pAllocatorMap.length + 2
  singleton : ∃ a al b st, s.lib.s_pAllocator = some a ∧
    s.lib.proc.readAllocator a = some al ∧ s.lib.proc.storages al.id = [b] ∧
    s.lib.proc.readStats b = some st ∧ st.liveCount.toNat = s.lib.s_pAllocatorMap.length

namespace Members

variable {t : Tid} {p : Process Object} {ms : List Member}

/-- Two members do not share an id, since each has its own record in the slot of its id. -/
theorem nodup_ids (h : Members t p ms) : (ms.map fun m => m.al.id).Nodup := by
  refine List.pairwise_map.mpr (h.distinct.imp_of_mem fun hm hn hd he => hd.2 ?_)
  have hslot := h.slot _ hm
  rw [he, h.slot _ hn] at hslot
  exact (Option.some.inj hslot).symm

theorem card_marked (h : Members t p ms) :
    ((Finset.range kMaxInstanceId).filter p.marked).card = ms.length := by
  have hids : (Finset.range kMaxInstanceId).filter p.marked =
      (ms.map fun m => m.al.id).toFinset := by
    ext j
    rw [Finset.mem_filter, Finset.mem_range, List.mem_toFinset, List.mem_map, h.marked j]
    constructor
    · rintro ⟨-, hj⟩
      exact hj
    · rintro ⟨m, hm, rfl⟩
      exact ⟨h.id_lt m hm, m, hm, rfl⟩
  rw [hids, List.toFinset_card_of_nodup h.nodup_ids, List.length_map]

/-- There are at most as many as there are ids. -/
theorem length_le (h : Members t p ms) : ms.length ≤ kMaxInstanceId := by
  rw [← h.card_marked]
  calc ((Finset.range kMaxInstanceId).filter p.marked).card
      ≤ (Finset.range kMaxInstanceId).card := Finset.card_filter_le _ _
    _ = kMaxInstanceId := Finset.card_range _

end Members

theorem toNat_ofNat_of_le {n : Nat} (h : n ≤ kMaxInstanceId + 1) : (UInt64.ofNat n).toNat = n := by
  have hlt : kMaxInstanceId + 1 < 2 ^ 64 := by decide
  rw [UInt64.toNat_ofNat']
  exact Nat.mod_eq_of_lt (Nat.lt_of_le_of_lt h hlt)

theorem Registry.balanced {t : Tid} {s : Api} {m : Member} {es : List Member}
    (h : Registry t s.lib m es) : Balanced s := by
  have hlen : s.lib.s_pAllocatorMap.length = es.length := by
    rw [h.s_pAllocatorMap, List.length_map]
  have hle : es.length + 1 ≤ kMaxInstanceId := h.members.length_le
  obtain ⟨st, hst, hlive⟩ := h.singleton
  refine ⟨h.keys, ?_, ?_, m.a, m.al, m.b, st, h.s_pAllocator,
    h.members.object m h.mem_singleton, ?_, hst, ?_⟩
  · rw [hlen]
    exact h.members.card_marked
  · rw [h.process, hlen]
    exact toNat_ofNat_of_le (by omega)
  · unfold storages
    rw [h.members.s_vecpppInstances]
    exact List.filterMap_cons_some (h.members.slot m h.mem_singleton)
  · rw [hlive, hlen]
    exact toNat_ofNat_of_le (by omega)

/-- **Creating and destroying allocators leaks nothing**: whatever the calls are and however
they end, ids and blocks go with the allocators that are registered. -/
theorem cycles_balanced (t : Tid) :
    ∃ s₀ out, registryStep t .init .getSingleton = .ok (s₀, out) ∧
      ∀ ops, EachStep (registryStep t) mayCall s₀ ops →
        AllAlong (registryStep t) Balanced s₀ ops := by
  obtain ⟨al, p, hs, h₀, -⟩ := (NoAllocators.init t).getSingleton
  refine ⟨_, _, registryStep_getSingleton (s := .init) hs, fun ops hops => ?_⟩
  have hstep : ∀ s op, (∃ m es, Registry t s.lib m es) → mayCall s op →
      ∃ s' out, registryStep t s op = .ok (s', out) ∧ ∃ m es, Registry t s'.lib m es := by
    rintro s op ⟨m, es, h⟩ hop
    obtain ⟨s', out, es', hs, h', -⟩ := registry_step h hop
    exact ⟨s', out, hs, m, es', h'⟩
  have hall := allAlong_of_eachStep (fun s : Api => ∃ m es, Registry t s.lib m es) hstep
    ⟨_, _, h₀⟩ hops
  refine hall.mono fun s h => ?_
  obtain ⟨m, es, h⟩ := h
  exact h.balanced

/-- A run with calls that succeed and calls that are refused. -/
theorem cycles_balanced_sample :
    ∃ s₀ out, registryStep 0 .init .getSingleton = .ok (s₀, out) ∧
      AllAlong (registryStep 0) Balanced s₀
        [.create (some "a") 0, .create (some "a") 0, .destroy (some 0), .destroy none,
          .destroy (some 3), .create none 1, .create (some "b") 1] := by
  obtain ⟨s₀, out, hs, hall⟩ := cycles_balanced 0
  have hmay : EachStep (registryStep 0) mayCall .init
      (.getSingleton :: [.create (some "a") 0, .create (some "a") 0, .destroy (some 0),
        .destroy none, .destroy (some 3), .create none 1, .create (some "b") 1]) := by
    decide +kernel
  exact ⟨s₀, out, hs, hall _ (hmay.2 s₀ out hs)⟩

end Lldk
