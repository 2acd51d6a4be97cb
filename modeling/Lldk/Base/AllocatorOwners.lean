import Lldk.Base.AllocatorCreate
import Lldk.Base.AllocatorEffects
import Lldk.Base.AllocatorStats

/-!
Who owns the allocators while threads create them at the same time.

* `OneOwner`: no name has two of the pointers returned, and each is live and registered under its
  name.
* `CreateInv` is the invariant: every allocator has one owner, the registry, a thread that is
  about to register it, or the singleton pointer.
* `createInv_step` keeps it, as long as no `emplace` finds its name registered;
  `emplace_registered` is what happens otherwise.
* `one_owner_iff`: along a run `OneOwner` holds iff no `emplace` finds its name registered.
* `one_owner`: where a mutex is not granted to a thread that holds it, no `emplace` that finds its
  name registered returns, and every run keeps `OneOwner`.
-/

namespace Lldk

open Lib Lib.Trace Process Library

/-! ## One owner -/

structure OneOwner (s : Creations) : Prop where
  once : (s.granted.map Prod.fst).Nodup
  registered : ∀ e ∈ s.granted, s.lib.find e.1 = some e.2
  live : ∀ e ∈ s.granted, ∃ al, s.lib.proc.readAllocator e.2 = some al ∧ al.getName = e.1

/-- An `emplace` that gets its node finds its name unregistered. -/
def emplacesNewName (s : Creations) (op : CreateOp) : Prop :=
  ∀ t env pName a, op = .emplace t env → s.phase t = .constructed pName a →
    env.nodeMem = true → s.lib.find pName = none

inductive Owner
  | registry (pName : String)
  | thread (t : Tid)
  | singleton

def Creations.owns (s : Creations) : Owner → Option (String × Nat)
  | .registry pName => (s.lib.find pName).map fun a => (pName, a)
  | .thread t =>
    match s.phase t with
    | .constructed pName a => some (pName, a)
    | _ => none
  | .singleton => s.lib.s_pAllocator.map fun a => ("lldk.global.allocator", a)

/-- What `owns` lists are live allocators, each with one owner and in no slot. One that a thread
owns has a storage on this thread. -/
structure Owned (p : Process Object) (owns : Owner → Option (String × Nat)) : Prop where
  live : ∀ o n a, owns o = some (n, a) → ∃ al, p.readAllocator a = some al ∧ al.m_sName = n
  single : ∀ o o' n n' a, owns o = some (n, a) → owns o' = some (n', a) → o = o'
  unstored : ∀ o n a, owns o = some (n, a) → ∀ t i, p.slot t i ≠ some a
  stored : ∀ t n a, owns (.thread t) = some (n, a) → ∃ al b, p.readAllocator a = some al ∧
    al.id < kMaxInstanceId ∧ p.slot t al.id = some b

namespace Owned

variable {p p' : Process Object} {owns owns' : Owner → Option (String × Nat)}

theorem grew (h : Owned p owns) (hg : Grew p p') : Owned p' owns where
  live := by
    intro o n a ho
    obtain ⟨al, hal, hn⟩ := h.live o n a ho
    exact ⟨al, hg.allocators a al hal, hn⟩
  single := h.single
  unstored := by
    intro o n a ho t i hs
    obtain ⟨al, hal, -⟩ := h.live o n a ho
    have hlt := readAllocator_lt hal
    rcases hg.slots t i a hs with hold | hnew
    · exact h.unstored o n a ho t i hold
    · omega
  stored := by
    intro t n a ho
    obtain ⟨al, b, hal, hi, hs⟩ := h.stored t n a ho
    obtain ⟨b', hs'⟩ := hg.kept t al.id b hs
    exact ⟨al, b', hg.allocators a al hal, hi, hs'⟩

/-- A new allocator gets an owner. -/
theorem gained (h : Owned p owns) {n₀ : String} {a₀ : Nat} {o₀ : Owner} (hg : Gained p p' n₀ a₀)
    (ho' : ∀ o e, owns' o = some e → owns o = some e ∨ (o = o₀ ∧ e = (n₀, a₀)))
    (hstored : ∀ t, o₀ = .thread t → ∃ al b, p'.readAllocator a₀ = some al ∧
      al.id < kMaxInstanceId ∧ p'.slot t al.id = some b) : Owned p' owns' := by
  have hold := h.grew hg.toGrew
  have hnew : ∀ o n, owns o ≠ some (n, a₀) := by
    intro o n ho
    obtain ⟨al, hal, -⟩ := h.live o n a₀ ho
    have hlt := readAllocator_lt hal
    have hfresh := hg.fresh
    omega
  refine ⟨fun o n a ho => ?_, fun o o' n n' a h₁ h₂ => ?_, fun o n a ho => ?_, fun t n a ho => ?_⟩
  · rcases ho' o _ ho with ho | ⟨-, he⟩
    · exact hold.live o n a ho
    · cases he
      exact hg.live
  · rcases ho' o _ h₁ with h₁ | ⟨rfl, he₁⟩ <;> rcases ho' o' _ h₂ with h₂ | ⟨rfl, he₂⟩
    · exact h.single o o' n n' a h₁ h₂
    · cases he₂
      exact absurd h₁ (hnew o n)
    · cases he₁
      exact absurd h₂ (hnew o' n')
    · rfl
  · rcases ho' o _ ho with ho | ⟨-, he⟩
    · exact hold.unstored o n a ho
    · cases he
      exact hg.unstored
  · rcases ho' _ _ ho with ho | ⟨ht, he⟩
    · exact hold.stored t n a ho
    · cases he
      exact hstored t ht.symm

/-- An owner loses its allocator, which is deleted. -/
theorem deleted (h : Owned p owns) {n₀ : String} {a₀ : Nat} {o₀ : Owner} (hd : Deleted p a₀ p')
    (h₀ : owns o₀ = some (n₀, a₀))
    (ho' : ∀ o e, owns' o = some e → owns o = some e ∧ o ≠ o₀) : Owned p' owns' := by
  have hkept : ∀ o n a al, owns o = some (n, a) → o ≠ o₀ → p.readAllocator a = some al →
      p'.readAllocator a = some al := by
    intro o n a al ho hne hal
    have ha : a ≠ a₀ := by
      rintro rfl
      exact hne (h.single o o₀ n n₀ a ho h₀)
    exact hd.allocators a al ha (h.unstored o n a ho) hal
  refine ⟨fun o n a ho => ?_, fun o o' n n' a h₁ h₂ => ?_, fun o n a ho t i hs => ?_,
    fun t n a ho => ?_⟩
  · obtain ⟨ho, hne⟩ := ho' o _ ho
    obtain ⟨al, hal, hn⟩ := h.live o n a ho
    exact ⟨al, hkept o n a al ho hne hal, hn⟩
  · exact h.single o o' n n' a (ho' o _ h₁).1 (ho' o' _ h₂).1
  · exact h.unstored o n a (ho' o _ ho).1 t i ((slot_congr hd.s_ppInstances t i).symm.trans hs)
  · obtain ⟨ho, hne⟩ := ho' _ _ ho
    obtain ⟨al, b, hal, hi, hs⟩ := h.stored t n a ho
    exact ⟨al, b, hkept _ n a al ho hne hal, hi, (slot_congr hd.s_ppInstances t _).trans hs⟩

/-- An owner hands its allocator to another, which is no thread. -/
theorem handed (h : Owned p owns) {e₀ : String × Nat} {o₀ o₁ : Owner} (h₀ : owns o₀ = some e₀)
    (ho' : ∀ o e, owns' o = some e → (owns o = some e ∧ o ≠ o₀) ∨ (o = o₁ ∧ e = e₀))
    (hthread : ∀ t, o₁ ≠ .thread t) : Owned p owns' := by
  obtain ⟨n₀, a₀⟩ := e₀
  refine ⟨fun o n a ho => ?_, fun o o' n n' a h₁ h₂ => ?_, fun o n a ho => ?_, fun t n a ho => ?_⟩
  · rcases ho' o _ ho with ⟨ho, -⟩ | ⟨-, he⟩
    · exact h.live o n a ho
    · cases he
      exact h.live o₀ n₀ a₀ h₀
  · rcases ho' o _ h₁ with ⟨h₁, hne₁⟩ | ⟨rfl, he₁⟩ <;>
      rcases ho' o' _ h₂ with ⟨h₂, hne₂⟩ | ⟨rfl, he₂⟩
    · exact h.single o o' n n' a h₁ h₂
    · cases he₂
      exact absurd (h.single o o₀ n n₀ a₀ h₁ h₀) hne₁
    · cases he₁
      exact absurd (h.single o' o₀ n' n₀ a₀ h₂ h₀) hne₂
    · rfl
  · rcases ho' o _ ho with ⟨ho, -⟩ | ⟨-, he⟩
    · exact h.unstored o n a ho
    · cases he
      exact h.unstored o₀ n₀ a₀ h₀
  · rcases ho' _ _ ho with ⟨ho, -⟩ | ⟨ht, -⟩
    · exact h.stored t n a ho
    · exact absurd ht.symm (hthread t)

end Owned

structure CreateInv (s : Creations) : Prop where
  granted : s.granted = s.lib.s_pAllocatorMap
  names : (s.lib.s_pAllocatorMap.map Prod.fst).Nodup
  owned : Owned s.lib.proc s.owns
  slots : SlotsBelow s.lib.proc
  singleton : s.lib.s_pAllocator = none → ∀ o, s.owns o = none

theorem CreateInv.oneOwner {s : Creations} (I : CreateInv s) : OneOwner s where
  once := by
    rw [I.granted]
    exact I.names
  registered := by
    intro e he
    rw [I.granted] at he
    exact (find_iff_mem I.names).mpr he
  live := by
    intro e he
    rw [I.granted] at he
    have hfind : s.lib.find e.1 = some e.2 := (find_iff_mem I.names).mpr he
    have ho : s.owns (.registry e.1) = some (e.1, e.2) := by
      simp only [Creations.owns, hfind, Option.map_some]
    exact I.owned.live _ _ _ ho

/-! ## Steps -/

section Steps

variable {s : Creations} {t : Tid} {env : CallEnv}

theorem owned_congr {p p' : Process Object} {owns owns' : Owner → Option (String × Nat)}
    (h : Owned p owns) (hcells : p'.heap.cells = p.heap.cells)
    (hslots : p'.s_ppInstances = p.s_ppInstances)
    (ho' : ∀ o e, owns' o = some e → owns o = some e) : Owned p' owns' := by
  refine ⟨fun o n a ho => ?_, fun o o' n n' a h₁ h₂ => ?_, fun o n a ho t i hs => ?_,
    fun t n a ho => ?_⟩
  · obtain ⟨al, hal, hn⟩ := h.live o n a (ho' o _ ho)
    exact ⟨al, (readAllocator_congr (congrFun hcells a)).trans hal, hn⟩
  · exact h.single o o' n n' a (ho' o _ h₁) (ho' o' _ h₂)
  · exact h.unstored o n a (ho' o _ ho) t i ((slot_congr hslots t i).symm.trans hs)
  · obtain ⟨al, b, hal, hi, hs⟩ := h.stored t n a (ho' _ _ ho)
    exact ⟨al, b, (readAllocator_congr (congrFun hcells a)).trans hal, hi,
      (slot_congr hslots t _).trans hs⟩

/-- Only error codes change, and no thread comes to own something. -/
theorem createInv_quiet (I : CreateInv s) {s' : Creations} {codes : Tid → ErrorCode}
    (hlib : s'.lib = s.lib.withProc { s.lib.proc with s_eErrorCode := codes })
    (hg : s'.granted = s.granted) (ho : ∀ o e, s'.owns o = some e → s.owns o = some e) :
    CreateInv s' := by
  have hmap : s'.lib.s_pAllocatorMap = s.lib.s_pAllocatorMap := by rw [hlib]; rfl
  have hs : s'.lib.s_pAllocator = s.lib.s_pAllocator := by rw [hlib]; rfl
  have hheap : s'.lib.proc.heap = s.lib.proc.heap := by rw [hlib]; rfl
  have htables : s'.lib.proc.s_ppInstances = s.lib.proc.s_ppInstances := by rw [hlib]; rfl
  refine ⟨?_, ?_, owned_congr I.owned (congrArg Heap.cells hheap) htables ho,
    fun t' i b hb => ?_, fun hnone o => ?_⟩
  · rw [hg, hmap]
    exact I.granted
  · rw [hmap]
    exact I.names
  · rw [hheap]
    exact I.slots t' i b ((slot_congr htables t' i).symm.trans hb)
  · cases hso : s'.owns o with
    | none => rfl
    | some e' =>
      have hold := ho o e' hso
      rw [I.singleton (hs.symm.trans hnone) o] at hold
      cases hold

/-- **The singleton.** -/
theorem createInv_singleton (I : CreateInv s) {r : Except String (Option Nat)} {l : Library}
    (h : s.lib.lldkGetAllocatorSingleton t env = .ok (r, l)) :
    CreateInv { s with lib := l } ∧ ∀ a, r = .ok (some a) → l.s_pAllocator = some a := by
  rcases lldkGetAllocatorSingleton_ok I.slots h with
    ⟨a, hs, rfl, rfl⟩ | ⟨a, p, hs, rfl, rfl, hg⟩ | ⟨what, p, rfl, rfl, hg⟩
  · refine ⟨I, fun a' ha' => ?_⟩
    cases ha'
    exact hs
  · have howns : ∀ o e, Creations.owns { s with
        lib := { s.lib with proc := p, s_pAllocator := some a } } o = some e →
        s.owns o = some e ∨ (o = .singleton ∧ e = ("lldk.global.allocator", a)) := by
      intro o e ho
      cases o with
      | registry n => exact Or.inl ho
      | thread t' => exact Or.inl ho
      | singleton =>
        cases ho
        exact Or.inr ⟨rfl, rfl⟩
    refine ⟨⟨I.granted, I.names, I.owned.gained hg howns fun _ ht => (nomatch ht),
      I.slots.grew hg.toGrew, nofun⟩, fun a' ha' => ?_⟩
    cases ha'
    rfl
  · exact ⟨⟨I.granted, I.names, I.owned.grew hg, I.slots.grew hg, I.singleton⟩, nofun⟩

/-- The thread goes to a phase in which it owns nothing, from one in which it owned nothing. -/
theorem owns_goes {l : Library} {phase : Phase} (hl : l.s_pAllocatorMap = s.lib.s_pAllocatorMap)
    (hs : l.s_pAllocator = s.lib.s_pAllocator) (hphase : ∀ n a, phase ≠ .constructed n a)
    {o : Owner} {e : String × Nat} (ho : (s.goes l t phase).owns o = some e) :
    s.owns o = some e ∧ o ≠ .thread t := by
  cases o with
  | registry n =>
    refine ⟨?_, nofun⟩
    simpa only [Creations.owns, find, Creations.goes_lib, hl] using ho
  | singleton =>
    refine ⟨?_, nofun⟩
    simpa only [Creations.owns, Creations.goes_lib, hs] using ho
  | thread t' =>
    by_cases htt : t' = t
    · subst htt
      have hnone : (s.goes l t' phase).owns (.thread t') = none := by
        simp only [Creations.owns, Creations.goes_phase_self]
      rw [hnone] at ho
      cases ho
    · have hsame : (s.goes l t phase).phase t' = s.phase t' := Function.update_of_ne htt ..
      refine ⟨?_, fun he => htt (Owner.thread.inj he)⟩
      simpa only [Creations.owns, hsame] using ho

/-- The allocator of thread `t` is deleted, and its call is over. -/
theorem createInv_dropped (I : CreateInv s) {n : String} {a : Nat}
    (ht : s.phase t = .constructed n a) {l : Library}
    (hl : l.s_pAllocatorMap = s.lib.s_pAllocatorMap) (hs : l.s_pAllocator = s.lib.s_pAllocator)
    (hd : Deleted s.lib.proc a l.proc) : CreateInv (s.goes l t .idle) := by
  have hown : s.owns (.thread t) = some (n, a) := by simp only [Creations.owns, ht]
  refine ⟨?_, ?_, I.owned.deleted hd hown fun o e => owns_goes hl hs Phase.idle_ne,
    fun t' i b hb => ?_,
    fun hnone o => ?_⟩
  · show s.granted = l.s_pAllocatorMap
    rw [hl]
    exact I.granted
  · show (l.s_pAllocatorMap.map Prod.fst).Nodup
    rw [hl]
    exact I.names
  · show b < l.proc.heap.next
    rw [hd.next]
    exact I.slots t' i b ((slot_congr hd.s_ppInstances t' i).symm.trans hb)
  · have hempty := I.singleton (hs.symm.trans hnone) (.thread t)
    rw [hown] at hempty
    cases hempty

theorem createInv_check (I : CreateInv s) {pName : Option String} {uMaxSizeMB : UInt64}
    {s' : Creations} {out : CreateOut}
    (h : createStep s (.check t pName uMaxSizeMB env) = .ok (s', out)) : CreateInv s' := by
  unfold createStep at h
  match hp : s.phase t, pName with
  | .idle, none =>
    simp only [hp] at h
    cases h
    exact createInv_quiet I rfl rfl fun o e ho => ho
  | .idle, some name =>
    simp only [hp] at h
    unfold createCheck at h
    cases hkey : env.keyMem with
    | false =>
      simp only [hkey] at h
      cases h
      exact createInv_quiet I rfl rfl fun o e ho => ho
    | true =>
      simp only [hkey, if_true] at h
      cases hfind : s.lib.find name with
      | some b =>
        simp only [hfind] at h
        cases h
        exact createInv_quiet I rfl rfl fun o e ho => ho
      | none =>
        simp only [hfind] at h
        cases h
        exact createInv_quiet I rfl rfl fun o e ho =>
          (owns_goes rfl rfl (Phase.checked_ne _ _) ho).1
  | .checked n u, _ =>
    simp only [hp] at h
    cases h
  | .constructed n a, _ =>
    simp only [hp] at h
    cases h

/-- Nothing is deleted, and the call of thread `t` is over. -/
theorem createInv_grew (I : CreateInv s) {p : Process Object} (hg : Grew s.lib.proc p) :
    CreateInv (s.goes (s.lib.withProc p) t .idle) := by
  have howns : ∀ o e, (s.goes (s.lib.withProc p) t .idle).owns o = some e → s.owns o = some e :=
    fun o e ho => (owns_goes rfl rfl Phase.idle_ne ho).1
  refine ⟨I.granted, I.names, owned_congr (I.owned.grew hg) rfl rfl howns, I.slots.grew hg,
    fun hnone o => ?_⟩
  cases ho : (s.goes (s.lib.withProc p) t .idle).owns o with
  | none => rfl
  | some e =>
    have hold := howns o e ho
    rw [I.singleton hnone o] at hold
    cases hold

/-- Thread `t` has a new allocator. -/
theorem createInv_gained (I : CreateInv s) {p : Process Object} {n : String} {a b : Nat}
    (hs : s.lib.s_pAllocator = some b) (hg : Gained s.lib.proc p n a)
    (hstored : ∃ al b, p.readAllocator a = some al ∧ al.id < kMaxInstanceId ∧
      p.slot t al.id = some b) :
    CreateInv (s.goes (s.lib.withProc p) t (.constructed n a)) := by
  have howns : ∀ o e, (s.goes (s.lib.withProc p) t (.constructed n a)).owns o = some e →
      s.owns o = some e ∨ (o = .thread t ∧ e = (n, a)) := by
    intro o e ho
    cases o with
    | registry m => exact Or.inl ho
    | singleton => exact Or.inl ho
    | thread t' =>
      by_cases htt : t' = t
      · subst htt
        simp only [Creations.owns, Creations.goes_phase_self, Option.some.injEq] at ho
        exact Or.inr ⟨rfl, ho.symm⟩
      · have hsame : (s.goes (s.lib.withProc p) t (.constructed n a)).phase t' = s.phase t' :=
          Function.update_of_ne htt ..
        apply Or.inl
        simpa only [Creations.owns, hsame] using ho
  refine ⟨I.granted, I.names, I.owned.gained hg howns fun t' ht' => ?_, I.slots.grew hg.toGrew,
    fun hnone => ?_⟩
  · obtain rfl := Owner.thread.inj ht'
    exact hstored
  · cases hs.symm.trans hnone

theorem createInv_construct (I : CreateInv s) {s' : Creations} {out : CreateOut}
    (h : createStep s (.construct t env) = .ok (s', out)) : CreateInv s' := by
  unfold createStep at h
  match hp : s.phase t with
  | .idle =>
    simp only [hp] at h
    cases h
  | .constructed n a =>
    simp only [hp] at h
    cases h
  | .checked name u =>
    simp only [hp] at h
    cases ho : s.lib.createObject t name u env with
    | error f => simp [ho] at h
    | ok res =>
      obtain ⟨r, l⟩ := res
      obtain ⟨r₁, l₁, p, hs, rfl, hcases⟩ := createObject_ok I.slots ho
      obtain ⟨I₁, hsome⟩ := createInv_singleton I hs
      rcases hcases with ⟨a, b, rfl, rfl, hg⟩ | ⟨hnot, hg⟩
      · simp only [ho] at h
        cases h
        exact createInv_gained I₁ (hsome b rfl) hg (createObject_stored I.slots ho)
      · match r with
        | .error what =>
          simp only [ho] at h
          cases h
          exact createInv_grew I₁ hg
        | .ok none =>
          simp only [ho] at h
          cases h
          exact createInv_grew I₁ hg
        | .ok (some a) => exact absurd rfl (hnot a)

theorem CreateInv.hasSingleton (I : CreateInv s) {o : Owner} {e : String × Nat}
    (ho : s.owns o = some e) : ∃ b, s.lib.s_pAllocator = some b := by
  cases hs : s.lib.s_pAllocator with
  | none =>
    rw [I.singleton hs o] at ho
    cases ho
  | some b => exact ⟨b, rfl⟩

/-- Thread `t` hands its allocator to the registry. -/
theorem owns_registered {n : String} {a : Nat} {granted : List (String × Nat)} (o : Owner)
    (e : String × Nat)
    (ho : Creations.owns { s.goes { s.lib with
      s_pAllocatorMap := s.lib.s_pAllocatorMap ++ [(n, a)] } t .idle with granted := granted } o =
        some e) :
    (s.owns o = some e ∧ o ≠ .thread t) ∨ (o = .registry n ∧ e = (n, a)) := by
  cases o with
  | registry m =>
    simp only [Creations.owns, Creations.goes_lib, find_registered] at ho
    cases hold : s.lib.find m with
    | some b =>
      rw [hold] at ho
      refine Or.inl ⟨?_, nofun⟩
      simp only [Creations.owns, hold]
      exact ho
    | none =>
      rw [hold, Option.none_or] at ho
      by_cases hmn : m = n
      · subst hmn
        rw [if_pos rfl] at ho
        cases ho
        exact Or.inr ⟨rfl, rfl⟩
      · rw [if_neg hmn] at ho
        cases ho
  | singleton => exact Or.inl ⟨ho, nofun⟩
  | thread t' =>
    have hidle : (s.goes s.lib t .idle).owns (.thread t') = some e := ho
    exact Or.inl (owns_goes rfl rfl Phase.idle_ne hidle)

/-- The allocator of thread `t` is registered and returned. -/
theorem createInv_registered (I : CreateInv s) {n : String} {a : Nat}
    (ht : s.phase t = .constructed n a) (hfind : s.lib.find n = none) :
    CreateInv { s.goes
      { s.lib with s_pAllocatorMap := s.lib.s_pAllocatorMap ++ [(n, a)] } t .idle with
      granted := s.granted ++ [(n, a)] } := by
  have hown : s.owns (.thread t) = some (n, a) := by simp only [Creations.owns, ht]
  have hnew : n ∉ s.lib.s_pAllocatorMap.map Prod.fst := by
    intro hin
    obtain ⟨⟨n', a'⟩, he, rfl⟩ := List.mem_map.mp hin
    rw [(find_iff_mem I.names).mpr he] at hfind
    cases hfind
  have hnames : ((s.lib.s_pAllocatorMap ++ [(n, a)]).map Prod.fst).Nodup := by
    rw [List.map_append, List.nodup_append]
    refine ⟨I.names, List.nodup_cons.mpr ⟨List.not_mem_nil, List.nodup_nil⟩, fun m hm m' hm' => ?_⟩
    rw [List.mem_singleton.mp hm']
    rintro rfl
    exact hnew hm
  obtain ⟨b, hb⟩ := I.hasSingleton hown
  have hgranted : s.granted ++ [(n, a)] = s.lib.s_pAllocatorMap ++ [(n, a)] := by rw [I.granted]
  refine ⟨hgranted, hnames, I.owned.handed hown owns_registered nofun, I.slots, fun hnone => ?_⟩
  cases hb.symm.trans hnone

theorem createInv_emplace (I : CreateInv s) (hc : emplacesNewName s (.emplace t env))
    {s' : Creations} {out : CreateOut}
    (h : createStep s (.emplace t env) = .ok (s', out)) : CreateInv s' := by
  unfold createStep at h
  match hp : s.phase t with
  | .idle =>
    simp only [hp] at h
    cases h
  | .checked n u =>
    simp only [hp] at h
    cases h
  | .constructed n a =>
    have hown : s.owns (.thread t) = some (n, a) := by simp only [Creations.owns, hp]
    obtain ⟨b, hb⟩ := I.hasSingleton hown
    simp only [hp] at h
    cases he : s.lib.createEmplace t n a env with
    | error f => simp [he] at h
    | ok res =>
      obtain ⟨q, l⟩ := res
      simp only [he] at h
      cases createEmplace_moves he with
      | noNode hnode hd =>
        -- `emplace` throws before it takes the pointer
        have hb' : (s.lib.lldkSetErrorCode t .kThrowException).s_pAllocator = some b := hb
        obtain ⟨p, rfl, hdel⟩ := deleteAllocatorImpl_ok hb' hd
        cases h
        exact createInv_dropped I hp rfl rfl
          ⟨hdel.next, hdel.s_ppInstances, hdel.gone, hdel.allocators⟩
      | there hnode hfind hd =>
        rw [hc t env n a rfl hp hnode] at hfind
        cases hfind
      | noBuckets hnode hfind hrehash hd =>
        obtain ⟨p, rfl, hdel⟩ := deleteUnderLock_ok hb hd
        cases h
        exact createInv_dropped I hp rfl rfl
          ⟨hdel.next, hdel.s_ppInstances, hdel.gone, hdel.allocators⟩
      | added hnode hfind hrehash =>
        cases h
        exact createInv_registered I hp hfind

/-- A registered pointer occurs under its name only. -/
theorem CreateInv.registered_iff (I : CreateInv s) {n : String} {a : Nat}
    (hfind : s.lib.find n = some a) {e : String × Nat} (he : e ∈ s.lib.s_pAllocatorMap) :
    e.2 = a ↔ e.1 = n := by
  have hfind' : s.lib.find e.1 = some e.2 := (find_iff_mem I.names).mpr he
  constructor
  · intro ha
    have h₁ : s.owns (.registry e.1) = some (e.1, a) := by
      simp only [Creations.owns, hfind', Option.map_some, ha]
    have h₂ : s.owns (.registry n) = some (n, a) := by
      simp only [Creations.owns, hfind, Option.map_some]
    exact Owner.registry.inj (I.owned.single _ _ _ _ a h₁ h₂)
  · intro hn
    rw [hn, hfind] at hfind'
    exact (Option.some.inj hfind').symm

/-- A registered allocator is unregistered and deleted. -/
theorem createInv_erased (I : CreateInv s) {n : String} {a : Nat} (hfind : s.lib.find n = some a)
    {p : Process Object} (hd : Deleted s.lib.proc a p) :
    CreateInv { s with
      lib := (s.lib.erase n).withProc p
      granted := s.granted.filter fun e => some e.2 ≠ some a } := by
  have hown : s.owns (.registry n) = some (n, a) := by
    simp only [Creations.owns, hfind, Option.map_some]
  have hgranted : s.granted.filter (fun e => some e.2 ≠ some a) =
      s.lib.s_pAllocatorMap.filter fun e => e.1 ≠ n := by
    rw [I.granted]
    apply List.filter_congr
    intro e he
    have hiff := I.registered_iff hfind he
    simp only [ne_eq, Option.some.injEq, hiff]
  have hnames : ((s.lib.erase n).s_pAllocatorMap.map Prod.fst).Nodup :=
    I.names.sublist (List.filter_sublist.map Prod.fst)
  have howns : ∀ o e, Creations.owns { s with
      lib := (s.lib.erase n).withProc p
      granted := s.granted.filter fun e => some e.2 ≠ some a } o = some e →
      s.owns o = some e ∧ o ≠ .registry n := by
    intro o e ho
    cases o with
    | thread t' => exact ⟨ho, nofun⟩
    | singleton => exact ⟨ho, nofun⟩
    | registry m =>
      have hfm : ((s.lib.erase n).withProc p).find m = if m = n then none else s.lib.find m :=
        find_erase s.lib n m
      simp only [Creations.owns, hfm] at ho
      by_cases hm : m = n
      · rw [if_pos hm] at ho
        cases ho
      · rw [if_neg hm] at ho
        exact ⟨ho, fun he => hm (Owner.registry.inj he)⟩
  obtain ⟨b, hb⟩ := I.hasSingleton hown
  refine ⟨hgranted, hnames, I.owned.deleted hd hown howns, fun t' i c hc => ?_, fun hnone => ?_⟩
  · show c < p.heap.next
    rw [hd.next]
    exact I.slots t' i c ((slot_congr hd.s_ppInstances t' i).symm.trans hc)
  · cases hb.symm.trans hnone

/-- The pointer of a call that destroys nothing is not among the granted ones. -/
theorem CreateInv.not_granted (I : CreateInv s) {a : Nat} {al : AllocatorImpl}
    (hal : s.lib.proc.readAllocator a = some al) (hfind : s.lib.find al.getName ≠ some a) :
    s.granted.filter (fun e => some e.2 ≠ some a) = s.granted := by
  apply List.filter_eq_self.mpr
  intro e he
  rw [I.granted] at he
  have hfind' : s.lib.find e.1 = some e.2 := (find_iff_mem I.names).mpr he
  have hown : s.owns (.registry e.1) = some (e.1, e.2) := by
    simp only [Creations.owns, hfind', Option.map_some]
  obtain ⟨al', hal', hn⟩ := I.owned.live _ _ _ hown
  refine decide_eq_true fun ha => hfind ?_
  obtain rfl : e.2 = a := Option.some.inj ha
  obtain rfl : al' = al := Option.some.inj (hal'.symm.trans hal)
  show s.lib.find al'.m_sName = some e.2
  rw [hn]
  exact hfind'

theorem createInv_destroy (I : CreateInv s) {pAllocator : Option Nat} {s' : Creations}
    {out : CreateOut} (h : createStep s (.destroy t pAllocator env) = .ok (s', out)) :
    CreateInv s' := by
  unfold createStep at h
  match hp : s.phase t with
  | .checked n u =>
    simp only [hp] at h
    cases h
  | .constructed n a =>
    simp only [hp] at h
    cases h
  | .idle =>
    simp only [hp] at h
    cases hd : s.lib.lldkDestroyAllocator t pAllocator env with
    | error f => simp [hd] at h
    | ok res =>
      obtain ⟨r, l⟩ := res
      simp only [hd] at h
      cases lldkDestroyAllocator_moves hd with
      | refused hno =>
        cases h
        refine createInv_quiet I rfl ?_ fun o e ho => ho
        cases pAllocator with
        | none => exact List.filter_eq_self.mpr fun e _ => rfl
        | some a =>
          obtain ⟨-, al, hal, hfind⟩ := hno a rfl
          exact I.not_granted hal hfind
      | noKey hkey =>
        cases h
        exact createInv_quiet I rfl rfl fun o e ho => ho
      | @deleted a al l₁ hkey hal hfind hdel =>
        cases h
        have hown : s.owns (.registry al.getName) = some (al.getName, a) := by
          simp only [Creations.owns, hfind, Option.map_some]
        obtain ⟨b, hb⟩ := I.hasSingleton hown
        have hb' : (s.lib.erase al.getName).s_pAllocator = some b := hb
        obtain ⟨p, rfl, hdeleted⟩ := deleteUnderLock_ok hb' hdel
        exact createInv_erased I hfind
          ⟨hdeleted.next, hdeleted.s_ppInstances, hdeleted.gone, hdeleted.allocators⟩

/-- **Step lemma.** -/
theorem createInv_step {op : CreateOp} (I : CreateInv s) (hc : emplacesNewName s op)
    {s' : Creations} {out : CreateOut} (h : createStep s op = .ok (s', out)) : CreateInv s' := by
  cases op with
  | check t pName uMaxSizeMB env => exact createInv_check I h
  | construct t env => exact createInv_construct I h
  | emplace t env => exact createInv_emplace I hc h
  | destroy t pAllocator env => exact createInv_destroy I h
  | singleton t env =>
    unfold createStep at h
    match hp : s.phase t with
    | .checked n u =>
      simp only [hp] at h
      cases h
    | .constructed n a =>
      simp only [hp] at h
      cases h
    | .idle =>
      simp only [hp] at h
      cases hs : s.lib.lldkGetAllocatorSingleton t env with
      | error f => simp [hs] at h
      | ok res =>
        obtain ⟨r, l⟩ := res
        obtain ⟨I', -⟩ := createInv_singleton I hs
        cases r with
        | error what =>
          simp only [hs] at h
          cases h
          exact I'
        | ok q =>
          simp only [hs] at h
          cases h
          exact I'

/-- An `emplace` that finds its name registered destroys the new allocator and returns its
pointer: the name has two pointers then. -/
theorem emplace_registered {op : CreateOp} (I : CreateInv s) (hc : ¬ emplacesNewName s op)
    {s' : Creations} {out : CreateOut} (h : createStep s op = .ok (s', out)) : ¬ OneOwner s' := by
  unfold emplacesNewName at hc
  push Not at hc
  obtain ⟨t, env, n, a, rfl, hp, hnode, hfind⟩ := hc
  obtain ⟨b, hb⟩ := Option.ne_none_iff_exists'.mp hfind
  have hin : (n, b) ∈ s.granted := by
    rw [I.granted]
    exact (find_iff_mem I.names).mp hb
  unfold createStep at h
  simp only [hp, createEmplace, hnode, if_true, hb] at h
  cases hd : s.lib.deleteUnderLock t a env with
  | error f =>
    rw [hd] at h
    cases h
  | ok l =>
    rw [hd] at h
    cases h
    intro hone
    have honce := hone.once
    rw [List.map_append, List.nodup_append] at honce
    exact honce.2.2 n (List.mem_map_of_mem hin) n (List.mem_singleton.mpr rfl) rfl

end Steps

/-! ## Runs -/

theorem SlotsBelow.same {p p' : Process Object} (h : SlotsBelow p) (hs : SameTables p p') :
    SlotsBelow p' := by
  intro t i b hb
  exact Nat.lt_of_lt_of_le (h t i b ((slot_congr hs.s_ppInstances t i).symm.trans hb)) hs.next

theorem Reached.slotsBelow {p : Process Object} (h : Reached p) : SlotsBelow p := by
  induction h with
  | init => exact fun t i b hb => by cases hb
  | construct _ hc ih => exact ih.grew (constructs_threadLocal hc).toGrew
  | destruct _ hd ih =>
    have hp := LldkThreadLocal.destruct_destructed hd
    intro t i b hb
    rw [hp.next]
    exact ih t i b ((slot_congr hp.s_ppInstances t i).symm.trans hb)
  | allocate _ ha ih => exact ih.same (AllocatorImpl.allocate_tables ha)
  | free _ hf ih => exact ih.same (AllocatorImpl.free_tables hf)
  | reAllocate _ hr ih => exact ih.same (AllocatorImpl.reAllocate_tables hr)
  | lldkAllocate t uSize mem _ ih =>
    cases mem with
    | false => exact ih.same ⟨rfl, rfl, rfl, Nat.le_refl _⟩
    | true => exact ih.same ⟨rfl, rfl, rfl, Nat.le_succ _⟩
  | @lldkFree p p' t q _ hf ih =>
    cases q with
    | none =>
      cases hf
      exact ih.same ⟨rfl, rfl, rfl, Nat.le_refl _⟩
    | some a =>
      have hr := released_lldkFree hf
      exact ih.same ⟨hr.s_bitset, hr.s_ppInstances, hr.s_vecpppInstances, Nat.le_of_eq hr.next.symm⟩

theorem createInv_start {p : Process Object} (h : Reached p) : CreateInv (Creations.start p) where
  granted := rfl
  names := List.nodup_nil
  owned := by
    refine ⟨fun o n a ho => ?_, fun o o' n n' a ho => ?_, fun o n a ho => ?_, fun t n a ho => ?_⟩
    · cases o <;> cases ho
    · cases o <;> cases ho
    · cases o <;> cases ho
    · cases ho
  slots := h.slotsBelow
  singleton := by
    intro _ o
    cases o <;> rfl

/-- **One owner.** In a run of parts of calls, by any threads in any order, on a library that has
no allocators yet, the pointers returned are all along the one live allocator registered under
their name iff every `emplace` that gets its node finds its name unregistered. -/
theorem one_owner_iff {p : Process Object} (hp : Reached p) (ops : List CreateOp)
    (hrun : ∃ r, run createStep (Creations.start p) ops = .ok r) :
    AllAlong createStep OneOwner (Creations.start p) ops ↔
      EachStep createStep emplacesNewName (Creations.start p) ops := by
  obtain ⟨r, hr⟩ := hrun
  refine allAlong_iff_eachStep CreateInv (fun _ => CreateInv.oneOwner) ?_ ?_ (createInv_start hp)
    (eachStep_of_run hr)
  · rintro s op I ⟨⟨s', out⟩, h⟩ hc
    exact ⟨s', out, h, createInv_step I hc h⟩
  · intro s op s' out I _ hc h
    exact emplace_registered I hc h

/-- What is around a part of a call. -/
def CreateOp.env : CreateOp → CallEnv
  | check _ _ _ env => env
  | construct _ env => env
  | emplace _ env => env
  | destroy _ _ env => env
  | singleton _ env => env

/-- Where a mutex is not granted to its holder, an `emplace` that returns found its name
unregistered: the other allocator would be deleted under the mutex, and its thread has a storage
in it, which `__lldkFree` releases under the same mutex. -/
theorem emplacesNewName_of_returns {s s' : Creations} {op : CreateOp} {out : CreateOut}
    (I : CreateInv s) (hlock : op.env.relock = false) (h : createStep s op = .ok (s', out)) :
    emplacesNewName s op := by
  rintro t env n a rfl hp hnode
  by_contra hfind
  obtain ⟨b, hb⟩ := Option.ne_none_iff_exists'.mp hfind
  obtain ⟨al, c, hal, hi, hslot⟩ := I.owned.stored t n a (by simp only [Creations.owns, hp])
  have hfrees : s.lib.frees t a = true := frees_of_slot hal hi hslot
  have hrelock : env.relock = false := hlock
  simp [createStep, hp, createEmplace, hnode, hb, deleteUnderLock, hfrees, hrelock] at h

/-- **One owner, with a mutex that is granted once.** Whatever parts of calls threads take in
whatever order, on a library that has no allocators yet: in every state reached the pointers
returned and not destroyed since are one for a name, each to a live allocator that is registered
under it. -/
theorem one_owner {p : Process Object} (hp : Reached p) {ops : List CreateOp}
    (hlock : ∀ op ∈ ops, op.env.relock = false) {s : Creations} {outs : List CreateOut}
    (h : run createStep (Creations.start p) ops = .ok (s, outs)) : OneOwner s := by
  have hstep : ∀ s op s' out, CreateInv s → op.env.relock = false →
      createStep s op = .ok (s', out) → CreateInv s' := fun s op s' out I hop hs =>
    createInv_step I (emplacesNewName_of_returns I hop hs) hs
  exact (run_invariant_of_eachStep (c := fun _ op => op.env.relock = false) hstep
    (createInv_start hp) (eachStep_of_forall_mem hlock _) h).oneOwner

/-- Thread 2 has a table from an object of its own. Two threads pass the check of one name, and
the first registers its allocator; the `emplace` of the second does not return. -/
theorem one_owner_race :
    ∃ r p s outs, LldkThreadLocal.construct statsType .init 2 {} = .ok (r, p) ∧
      run createStep (Creations.start p)
        [.check 1 (some "a") 0 {}, .check 2 (some "a") 0 {}, .check 3 (some "b") 0 {},
          .construct 1 {}, .construct 2 {}, .emplace 1 {}] = .ok (s, outs) ∧
      s.granted = [("a", 5)] ∧ OneOwner s ∧
      createStep s (.emplace 2 {}) = .error (.library (.hangs 2)) := by
  have hends : (LldkThreadLocal.construct statsType (.init : Process Object) 2 {}).toOption.any
      (fun q => (run createStep (Creations.start q.2)
        [.check 1 (some "a") 0 {}, .check 2 (some "a") 0 {}, .check 3 (some "b") 0 {},
          .construct 1 {}, .construct 2 {}, .emplace 1 {}]).toOption.any fun r =>
        decide (r.1.granted = [("a", 5)] ∧ (createStep r.1 (.emplace 2 {})).map (fun _ => ()) =
          .error (.library (.hangs 2)))) = true := by
    decide +kernel
  obtain ⟨⟨r, p⟩, hc, hends⟩ := exists_of_any hends
  obtain ⟨⟨s, outs⟩, hr, hends⟩ := exists_of_any hends
  obtain ⟨hgranted, hhangs⟩ := of_decide_eq_true hends
  exact ⟨r, p, s, outs, hc, hr, hgranted,
    one_owner (Reached.init.construct hc) (by decide) hr, eq_error_of_map hhangs⟩

end Lldk
