import Lldk.Lib.Ledger

/-!
Items in a pool and in the hands of threads, which stand at places.

* `hand φ` is the item, with its value, that a thread at `φ` has in its hand. `Apart`: no item is
  in two hands, or in a hand and in the pool.
* `Tallies`: a ledger has the items of the pool and those that are counted in the hands. Its rules
  are the ways of an item: `add` and `remove` while it is in a hand, `put` and `pick` between a
  hand and the pool.
-/

namespace Lib.Hands

variable {ι κ ν Φ : Type}

structure Apart (hand : Φ → Option (κ × ν)) (pool : Ledger κ ν) (place : ι → Φ) : Prop where
  hands : ∀ {t t' : ι} {k : κ} {v v' : ν}, hand (place t) = some (k, v) →
    hand (place t') = some (k, v') → t = t'
  pool : ∀ {t : ι} {k : κ} {v : ν}, hand (place t) = some (k, v) → k ∉ pool

def Tallies [DecidableEq κ] (hand : Φ → Option (κ × ν)) (pool : Ledger κ ν) (place : ι → Φ)
    (K : Ledger κ ν) : Prop :=
  ∀ k v, K.lookup k = some v ↔ pool.lookup k = some v ∨ ∃ t, hand (place t) = some (k, v)

variable {hand tally : Φ → Option (κ × ν)} {pool K : Ledger κ ν} {place : ι → Φ} {φ : Φ} {t : ι}
  {k : κ} {v : ν}

/-- Where nothing else is counted than what is in the hands. -/
theorem Apart.mono (A : Apart hand pool place) (h : ∀ φ e, tally φ = some e → hand φ = some e) :
    Apart tally pool place where
  hands ht ht' := A.hands (h _ _ ht) (h _ _ ht')
  pool ht := A.pool (h _ _ ht)

/-- Nobody else has the item that is in the hand of `t`. -/
theorem Apart.not_other (A : Apart hand pool place) (hsome : hand (place t) = some (k, v)) {t' : ι}
    (ht : t' ≠ t) (v' : ν) : hand (place t') ≠ some (k, v') :=
  fun h => ht (A.hands h hsome)

section Ends

variable [DecidableEq κ]

theorem tallies_empty (h : ∀ t, hand (place t) = none) :
    Tallies hand (∅ : Ledger κ ν) place ∅ := by
  intro k v
  constructor
  · intro hk
    cases hk
  · rintro (hk | ⟨t, ht⟩)
    · cases hk
    · rw [h t] at ht
      cases ht

/-- With empty hands the ledger is the pool. -/
theorem Tallies.total_eq (T : Tallies hand pool place K) (h : ∀ t, hand (place t) = none)
    (w : ν → Nat) : K.total w = pool.total w := by
  refine Ledger.total_congr w fun k => Option.ext fun v => (T k v).trans ⟨?_, Or.inl⟩
  rintro (hk | ⟨t, ht⟩)
  · exact hk
  · rw [h t] at ht
    cases ht

end Ends

variable [DecidableEq ι]

/-- What is in the hands after thread `t` has moved on. -/
theorem exists_update_iff (hand : Φ → Option (κ × ν)) (place : ι → Φ) (t : ι) (φ : Φ) (e : κ × ν) :
    (∃ t', hand (Function.update place t φ t') = some e) ↔
      hand φ = some e ∨ ∃ t', t' ≠ t ∧ hand (place t') = some e :=
  Function.exists_update_iff place fun _ φ' => hand φ' = some e

theorem exists_iff (hand : Φ → Option (κ × ν)) (place : ι → Φ) (t : ι) (e : κ × ν) :
    (∃ t', hand (place t') = some e) ↔
      hand (place t) = some e ∨ ∃ t', t' ≠ t ∧ hand (place t') = some e := by
  have h := exists_update_iff hand place t (place t) e
  rwa [Function.update_eq_self] at h

namespace Apart

/-- The hand of `t` gets emptied, or stays as it is. -/
theorem keep (A : Apart hand pool place) (h : ∀ e, hand φ = some e → hand (place t) = some e) :
    Apart hand pool (Function.update place t φ) := by
  have hmine : ∀ t' e, hand (Function.update place t φ t') = some e → hand (place t') = some e := by
    intro t' e he
    by_cases ht : t' = t
    · subst ht
      rw [Function.update_self] at he
      exact h e he
    · rwa [Function.update_of_ne ht] at he
  exact ⟨fun ht ht' => A.hands (hmine _ _ ht) (hmine _ _ ht'), fun ht => A.pool (hmine _ _ ht)⟩

/-- Thread `t` takes an item that was nowhere. -/
theorem take (A : Apart hand pool place) (hsome : hand φ = some (k, v)) (hpool : k ∉ pool)
    (hnew : ∀ t v, hand (place t) ≠ some (k, v)) :
    Apart hand pool (Function.update place t φ) where
  hands := by
    intro t₁ t₂ k' v₁ v₂ h₁ h₂
    by_cases ht₁ : t₁ = t <;> by_cases ht₂ : t₂ = t
    · rw [ht₁, ht₂]
    · subst ht₁
      rw [Function.update_self, hsome] at h₁
      rw [Function.update_of_ne ht₂] at h₂
      cases h₁
      exact absurd h₂ (hnew t₂ v₂)
    · subst ht₂
      rw [Function.update_self, hsome] at h₂
      rw [Function.update_of_ne ht₁] at h₁
      cases h₂
      exact absurd h₁ (hnew t₁ v₁)
    · rw [Function.update_of_ne ht₁] at h₁
      rw [Function.update_of_ne ht₂] at h₂
      exact A.hands h₁ h₂
  pool := by
    intro t' k' v' h
    by_cases ht : t' = t
    · subst ht
      rw [Function.update_self, hsome] at h
      cases h
      exact hpool
    · rw [Function.update_of_ne ht] at h
      exact A.pool h

variable [DecidableEq κ]

/-- Thread `t` puts its item into the pool. -/
theorem put (A : Apart hand pool place) (hsome : hand (place t) = some (k, v))
    (hnone : hand φ = none) : Apart hand (pool.insert k v) (Function.update place t φ) := by
  have A' : Apart hand pool (Function.update place t φ) := A.keep fun e he => by
    rw [hnone] at he
    cases he
  refine ⟨A'.hands, fun {t' k' v'} h hk => ?_⟩
  rcases (AList.mem_insert pool).mp hk with rfl | hk
  · by_cases ht : t' = t
    · subst ht
      rw [Function.update_self, hnone] at h
      cases h
    · rw [Function.update_of_ne ht] at h
      exact A.not_other hsome ht v' h
  · exact A'.pool h hk

/-- Thread `t` picks an item of the pool. -/
theorem pick (A : Apart hand pool place) (hk : k ∈ pool) (hsome : hand φ = some (k, v)) :
    Apart hand (pool.erase k) (Function.update place t φ) := by
  have Apool : Apart hand (pool.erase k) place :=
    ⟨A.hands, fun h hin => A.pool h (AList.mem_erase.mp hin).2⟩
  exact Apool.take hsome (fun hin => (AList.mem_erase.mp hin).1 rfl) fun t' v' h => A.pool h hk

end Apart

variable [DecidableEq κ]

namespace Tallies

/-- A step that changes nothing that is counted. -/
theorem keep (T : Tallies hand pool place K) (h : hand φ = hand (place t)) :
    Tallies hand pool (Function.update place t φ) K := by
  intro k v
  rw [exists_update_iff, h, ← exists_iff]
  exact T k v

/-- A step of thread `t` with the item `k`, which the other threads do not have. -/
theorem move (T : Tallies hand pool place K) {pool' K' : Ledger κ ν}
    (hothers : ∀ t' v, t' ≠ t → hand (place t') ≠ some (k, v))
    (hhand : ∀ k' v, k' ≠ k → (hand φ = some (k', v) ↔ hand (place t) = some (k', v)))
    (hpool : ∀ k', k' ≠ k → pool'.lookup k' = pool.lookup k')
    (hK : ∀ k', k' ≠ k → K'.lookup k' = K.lookup k')
    (hk : ∀ v, K'.lookup k = some v ↔ pool'.lookup k = some v ∨ hand φ = some (k, v)) :
    Tallies hand pool' (Function.update place t φ) K' := by
  intro k' v
  rw [exists_update_iff]
  by_cases he : k' = k
  · subst he
    rw [hk v]
    refine or_congr_right ⟨Or.inl, fun h => ?_⟩
    rcases h with h | ⟨t', ht, h⟩
    · exact h
    · exact absurd h (hothers t' v ht)
  · rw [hK k' he, hpool k' he, hhand k' v he, ← exists_iff]
    exact T k' v

/-- The item in the hand of `t` gets counted. -/
theorem add (T : Tallies hand pool place K) (A : Apart hand pool (Function.update place t φ))
    (hnone : hand (place t) = none) (hsome : hand φ = some (k, v)) :
    k ∉ K ∧ Tallies hand pool (Function.update place t φ) (K.insert k v) := by
  have hself : hand (Function.update place t φ t) = some (k, v) := by
    rw [Function.update_self, hsome]
  have hothers : ∀ t' v', t' ≠ t → hand (place t') ≠ some (k, v') := by
    intro t' v' ht h
    have h' : hand (Function.update place t φ t') = some (k, v') := by
      rw [Function.update_of_ne ht, h]
    exact A.not_other hself ht v' h'
  have hpool : pool.lookup k = none := AList.lookup_eq_none.mpr (A.pool hself)
  constructor
  · intro hk
    obtain ⟨v', hv⟩ := Option.isSome_iff_exists.mp (AList.lookup_isSome.mpr hk)
    rcases (T k v').mp hv with h | ⟨t', h⟩
    · rw [hpool] at h
      cases h
    · by_cases ht : t' = t
      · subst ht
        rw [hnone] at h
        cases h
      · exact hothers t' v' ht h
  · refine T.move hothers (fun k' v' he => ?_) (fun _ _ => rfl)
      (fun k' he => AList.lookup_insert_ne he) fun v' => ?_
    · rw [hsome, hnone]
      refine iff_of_false (fun h => ?_) nofun
      cases h
      exact he rfl
    · rw [AList.lookup_insert, hpool, hsome]
      simp

/-- The item in the hand of `t` is counted no more. -/
theorem remove (T : Tallies hand pool place K) (A : Apart hand pool place)
    (hsome : hand (place t) = some (k, v)) (hnone : hand φ = none) :
    K.lookup k = some v ∧ Tallies hand pool (Function.update place t φ) (K.erase k) := by
  refine ⟨(T k v).mpr (Or.inr ⟨t, hsome⟩), T.move (fun t' v' ht => A.not_other hsome ht v')
    (fun k' v' he => ?_) (fun _ _ => rfl) (fun k' he => AList.lookup_erase_ne he) fun v' => ?_⟩
  · rw [hsome, hnone]
    refine iff_of_false nofun fun h => ?_
    cases h
    exact he rfl
  · have hpool : pool.lookup k = none := AList.lookup_eq_none.mpr (A.pool hsome)
    rw [AList.lookup_erase, hpool, hnone]
    simp

/-- A counted item goes from the hand of `t` into the pool. -/
theorem put (T : Tallies hand pool place K) (A : Apart hand pool place)
    (hsome : hand (place t) = some (k, v)) (hnone : hand φ = none) :
    Tallies hand (pool.insert k v) (Function.update place t φ) K := by
  refine T.move (fun t' v' ht => A.not_other hsome ht v') (fun k' v' he => ?_)
    (fun k' he => AList.lookup_insert_ne he) (fun _ _ => rfl) fun v' => ?_
  · rw [hsome, hnone]
    refine iff_of_false nofun fun h => ?_
    cases h
    exact he rfl
  · rw [(T k v).mpr (Or.inr ⟨t, hsome⟩), AList.lookup_insert, hnone]
    simp

/-- An item of the pool goes into the hand of `t`, and stays counted. -/
theorem pick (T : Tallies hand pool place K) (A : Apart hand pool place)
    (hk : pool.lookup k = some v) (hnone : hand (place t) = none) (hsome : hand φ = some (k, v)) :
    Tallies hand (pool.erase k) (Function.update place t φ) K := by
  have hmem : k ∈ pool := AList.lookup_isSome.mp (by rw [hk]; rfl)
  refine T.move (fun t' v' _ h => A.pool h hmem) (fun k' v' he => ?_)
    (fun k' he => AList.lookup_erase_ne he) (fun _ _ => rfl) fun v' => ?_
  · rw [hsome, hnone]
    refine iff_of_false (fun h => ?_) nofun
    cases h
    exact he rfl
  · rw [(T k v).mpr (Or.inl hk), AList.lookup_erase, hsome]
    simp

end Tallies

end Lib.Hands
