import Lldk.Lib.Reduction
import Lldk.Utilities.ThreadLocalBase

/-!
`newInstanceId` and `deleteInstanceId` of any number of threads, word by word.

* Each load and each store of a word of `s_bitset` is an action of its own, between which other
  threads run. `alone_newInstanceId`, `alone_deleteInstanceId`: by themselves the functions are
  those of the sequential model.
* `Holding` follows a history of calls and results: the ids that were handed out and not given back,
  and those that a call is giving back.
* The sections of `s_mutex` merge into one action each, and `merged_run` is the run of what is then
  left; `ids_interleaved` is the run of the code.
-/

namespace Lldk

open Lib Lib.Threads Lib.Trace Lldk.Bitset Process

variable {β : Type}

/-- What a call returns. -/
inductive IdReturn
  | id (uInstanceId : Nat)
  | unit
  deriving DecidableEq

/-- The code of a thread; the one mutex is `s_mutex` of `lldk_thread_local.cpp`. -/
abbrev IdCode (β α : Type) := Prog Unit (Process β) Unit α

namespace IdCode

open Prog

/-! ## The code -/

/-- `m_arrBits[i]` -/
def loadWord (i : Nat) : IdCode β (BitVec 64) :=
  .act () id fun p =>
    match p.s_bitset.m_arrBits[i]? with
    | some word => .ret word
    | none => .fault

/-- `m_arrBits[i] = word` -/
def storeWord (i : Nat) (word : BitVec 64) : IdCode β Unit :=
  .act () (fun p => p.withBits (p.s_bitset.store i word)) fun _ => .ret ()

/-- The loop of `findFirstNone` over `n` words, from the `i`-th on. -/
def findFirstNoneFrom : Nat → Nat → IdCode β Nat
  | 0, _ => pure kMaxInstanceId
  | n + 1, i => do
    if (← loadWord i) ≠ BitVec.allOnes 64 then
      let word ← loadWord i
      return (i * kBitsPerElement % 2 ^ 32 + (~~~word).ctz.toNat) % 2 ^ 32
    else findFirstNoneFrom n (i + 1)

def findFirstNone : IdCode β Nat := findFirstNoneFrom (kBitCount kMaxInstanceId) 0

/-- `m_arrBits[getArrayIndex(uIndex)]`, read and written back as `f` of it. -/
def updateWord (uIndex : Nat) (f : BitVec 64 → BitVec 64) : IdCode β Unit := do
  let word ← loadWord (getArrayIndex uIndex)
  storeWord (getArrayIndex uIndex) (f word)

def set (uIndex : Nat) : IdCode β Unit :=
  updateWord uIndex fun word => word ||| (1#64 <<< getBitIndex uIndex)

def clear (uIndex : Nat) : IdCode β Unit :=
  updateWord uIndex fun word => word &&& ~~~(1#64 <<< getBitIndex uIndex)

/-- The critical section of `newInstanceId`. -/
def takeId : IdCode β IdReturn := do
  let uInstanceId ← findFirstNone
  if uInstanceId = kMaxInstanceId then return .id kInvalidInstanceId
  else
    set uInstanceId
    return .id uInstanceId

def newInstanceId : IdCode β IdReturn := lockGuard () takeId

/-- The critical section of `deleteInstanceId`. -/
def giveId (uInstanceId : Nat) : IdCode β IdReturn := do
  clear uInstanceId
  return .unit

def deleteInstanceId (uInstanceId : Nat) : IdCode β IdReturn := lockGuard () (giveId uInstanceId)

/-! ## A call by itself -/

section Alone

variable (p : Process β)

theorem alone_loadWord {i : Nat} {word : BitVec 64} (h : p.s_bitset.m_arrBits[i]? = some word) :
    (loadWord i).alone p = some (word, p) := by
  simp only [loadWord, alone, h, id]

theorem alone_findFirstNoneFrom (words : List (BitVec 64)) (i : Nat)
    (hdrop : p.s_bitset.m_arrBits.drop i = words) :
    (findFirstNoneFrom words.length i).alone p =
      some (LldkBitset.findFirst (BitVec.allOnes 64) (fun word => ~~~word) kMaxInstanceId i words,
        p) := by
  induction words generalizing i with
  | nil => rfl
  | cons word words ih =>
    have hword : p.s_bitset.m_arrBits[i]? = some word := by
      rw [← List.head?_drop, hdrop]
      rfl
    have hrest : p.s_bitset.m_arrBits.drop (i + 1) = words := by
      rw [← List.tail_drop, hdrop]
      rfl
    simp only [List.length_cons, findFirstNoneFrom, alone_bind, alone_loadWord p hword,
      Option.bind_some, LldkBitset.findFirst]
    split
    · simp only [alone_bind, alone_loadWord p hword, Option.bind_some]
      rfl
    · exact ih (i + 1) hrest

theorem alone_findFirstNone : findFirstNone.alone p = some (p.s_bitset.findFirstNone, p) := by
  have h := alone_findFirstNoneFrom p p.s_bitset.m_arrBits 0 rfl
  rw [p.s_bitset.length_eq] at h
  exact h

theorem alone_updateWord {uIndex : Nat} {word : BitVec 64} (f : BitVec 64 → BitVec 64)
    (h : p.s_bitset.m_arrBits[getArrayIndex uIndex]? = some word) :
    (updateWord uIndex f).alone p =
      some ((), p.withBits (p.s_bitset.store (getArrayIndex uIndex) (f word))) := by
  simp only [updateWord, alone_bind, alone_loadWord p h, Option.bind_some]
  rfl

theorem alone_set {uIndex : Nat} {b : LldkBitset instanceIds} (h : p.s_bitset.set uIndex = some b) :
    (set uIndex).alone p = some ((), p.withBits b) := by
  simp only [LldkBitset.set] at h
  split at h
  · rename_i word hword
    cases h
    exact alone_updateWord p _ hword
  · cases h

theorem alone_clear {uIndex : Nat} {b : LldkBitset instanceIds}
    (h : p.s_bitset.clear uIndex = some b) : (clear uIndex).alone p = some ((), p.withBits b) := by
  simp only [LldkBitset.clear] at h
  split at h
  · rename_i word hword
    cases h
    exact alone_updateWord p _ hword
  · cases h

/-- **With nobody else around** the code is the function of the sequential model. -/
theorem alone_newInstanceId {i : Nat} {p' : Process β} (h : p.newInstanceId = .ok (i, p')) :
    takeId.alone p = some (.id i, p') := by
  simp only [Process.newInstanceId] at h
  simp only [takeId, alone_bind, alone_findFirstNone, Option.bind_some]
  split at h
  · rename_i hfull
    cases h
    rw [if_pos hfull]
    rfl
  · rename_i hfull
    split at h
    · rename_i b hb
      cases h
      rw [if_neg hfull, alone_bind, alone_set p hb]
      rfl
    · cases h

theorem alone_deleteInstanceId {i : Nat} {p' : Process β} (h : p.deleteInstanceId i = .ok p') :
    (giveId i).alone p = some (.unit, p') := by
  simp only [Process.deleteInstanceId] at h
  split at h
  · rename_i b hb
    cases h
    simp only [giveId, alone_bind, alone_clear p hb, Option.bind_some]
    rfl
  · cases h

end Alone

/-! ## The sections -/

/-- Everything but `s_bitset`. -/
def rest (p : Process β) : Process β := p.withBits .new

theorem parts : Parts (Process.s_bitset : Process β → _) rest := by
  intro p p' hbits hrest
  have h : ∀ q : Process β, (rest q).withBits q.s_bitset = q := fun _ => rfl
  rw [← h p, ← h p', hbits, hrest]

/-- The body of a section works on `s_bitset`. -/
abbrev OnBits {α : Type} (p : IdCode β α) : Prop := Body Process.s_bitset rest p

theorem onBits_loadWord (i : Nat) : OnBits (loadWord i : IdCode β _) := by
  refine ⟨on_read fun p p' h => ?_, fun p => ?_⟩
  · rw [h]
  · dsimp only
    split <;> trivial

theorem onBits_storeWord (i : Nat) (word : BitVec 64) :
    OnBits (storeWord i word : IdCode β _) := by
  refine ⟨⟨fun p => rfl, fun p p' h => ?_, fun p p' h => rfl⟩, fun p => trivial⟩
  dsimp only [withBits]
  rw [h]

theorem onBits_findFirstNoneFrom (n i : Nat) : OnBits (findFirstNoneFrom n i : IdCode β _) := by
  induction n generalizing i with
  | zero => trivial
  | succ n ih =>
    refine body_bind (onBits_loadWord i) fun word => ?_
    split
    · exact body_bind (onBits_loadWord i) fun word => trivial
    · exact ih (i + 1)

theorem onBits_updateWord (i : Nat) (f : BitVec 64 → BitVec 64) :
    OnBits (updateWord i f : IdCode β _) :=
  body_bind (onBits_loadWord _) fun _ => onBits_storeWord _ _

theorem onBits_takeId : OnBits (takeId : IdCode β _) := by
  refine body_bind (onBits_findFirstNoneFrom _ _) fun i => ?_
  split
  · trivial
  · exact body_bind (onBits_updateWord _ _) fun _ => trivial

theorem onBits_giveId (i : Nat) : OnBits (giveId i : IdCode β _) :=
  body_bind (onBits_updateWord _ _) fun _ => trivial

end IdCode

/-! ## Calls -/

inductive IdCall
  | newInstanceId
  | deleteInstanceId (uInstanceId : Nat)
  deriving DecidableEq

def IdCall.body : IdCall → IdCode β IdReturn
  | .newInstanceId => IdCode.takeId
  | .deleteInstanceId i => IdCode.giveId i

def IdCall.code : IdCall → IdCode β IdReturn
  | .newInstanceId => IdCode.newInstanceId
  | .deleteInstanceId i => IdCode.deleteInstanceId i

theorem IdCall.code_eq (call : IdCall) :
    (call.code : IdCode β _) = Prog.lockGuard () call.body := by
  cases call <;> rfl

theorem IdCall.onBits (call : IdCall) : IdCode.OnBits (call.body : IdCode β _) := by
  cases call with
  | newInstanceId => exact IdCode.onBits_takeId
  | deleteInstanceId i => exact IdCode.onBits_giveId i

abbrev IdThreads (β : Type) := Config Tid Unit (Process β) Unit IdReturn

/-- No call has been made yet. -/
def IdThreads.start (p : Process β) : IdThreads β := ⟨p, fun _ => none, fun _ => .ret .unit⟩

def IdThreads.idle (c : IdThreads β) : Prop := ∀ t, (c.progs t).result.isSome

def idCode (_ : Tid) (call : IdCall) : IdCode β IdReturn := call.code

/-! ## Who holds an id -/

abbrev IdEvent := Seen Tid IdCall IdReturn

/-- What a history leaves: the ids that are held, and those that calls are giving back. -/
structure Holding where
  held : Finset Nat
  deleting : Tid → Option Nat

namespace Holding

def next (H : Holding) : IdEvent → Holding
  | .called _ .newInstanceId => H
  | .called t (.deleteInstanceId i) =>
    ⟨H.held.erase i, Function.update H.deleting t (some i)⟩
  | .returned _ (.id i) => if i = kInvalidInstanceId then H else { H with held := insert i H.held }
  | .returned t .unit => { H with deleting := Function.update H.deleting t none }

def after (H : Holding) (es : List IdEvent) : Holding := es.foldl next H

/-- The ids that are marked in `p` are held. -/
def start (p : Process β) : Holding :=
  ⟨(Finset.range kMaxInstanceId).filter p.marked, fun _ => none⟩

/-- The id is held, or on its way back. -/
def uses (H : Holding) (i : Nat) : Prop := i ∈ H.held ∨ ∃ t, H.deleting t = some i

/-- Callers give back what they hold. -/
def mayCall (H : Holding) : IdEvent → Prop
  | .called _ (.deleteInstanceId i) => i ∈ H.held
  | _ => True

instance (H : Holding) (e : IdEvent) : Decidable (H.mayCall e) :=
  match e with
  | .called _ (.deleteInstanceId i) => inferInstanceAs (Decidable (i ∈ H.held))
  | .called _ .newInstanceId => .isTrue trivial
  | .returned _ _ => .isTrue trivial

/-- `newInstanceId` returns the least id that is not in use, and the invalid one when there is none.
-/
def right (H : Holding) : IdEvent → Prop
  | .returned _ (.id i) =>
    (i < kMaxInstanceId ∧ ¬ H.uses i ∧ ∀ j, j < i → H.uses j) ∨
      (i = kInvalidInstanceId ∧ ∀ j, j < kMaxInstanceId → H.uses j)
  | _ => True

end Holding

/-- The events of a history, one by one. -/
def holdingStep : Step Holding IdEvent Unit Unit := fun H e => .ok (H.next e, ())

theorem eachStep_holding {P : Holding → IdEvent → Prop} {H : Holding} {e : IdEvent}
    {es : List IdEvent} :
    EachStep holdingStep P H (e :: es) ↔ P H e ∧ EachStep holdingStep P (H.next e) es := by
  refine and_congr_right fun _ => ⟨fun h => h _ () rfl, fun h H' u he => ?_⟩
  cases he
  exact h

namespace Holding

variable {H : Holding} {t : Tid} {i : Nat}

/-- An id on its way back is still in use. -/
theorem uses_called (hi : i ∈ H.held) (ht : H.deleting t = none) (j : Nat) :
    (H.next (.called t (.deleteInstanceId i))).uses j ↔ H.uses j := by
  have hdeleting : (∃ t', Function.update H.deleting t (some i) t' = some j) ↔
      j = i ∨ ∃ t', H.deleting t' = some j := by
    rw [Function.exists_update_iff H.deleting fun _ q => q = some j]
    constructor
    · rintro (h | ⟨t', -, h⟩)
      · exact Or.inl (Option.some.inj h).symm
      · exact Or.inr ⟨t', h⟩
    · rintro (rfl | ⟨t', h⟩)
      · exact Or.inl rfl
      · refine Or.inr ⟨t', ?_, h⟩
        rintro rfl
        rw [ht] at h
        cases h
  show (j ∈ H.held.erase i ∨ ∃ t', Function.update H.deleting t (some i) t' = some j) ↔ H.uses j
  rw [hdeleting, Finset.mem_erase]
  by_cases hj : j = i
  · subst hj
    exact iff_of_true (Or.inr (Or.inl rfl)) (Or.inl hi)
  · simp only [hj, ne_eq, not_false_eq_true, true_and, false_or]
    exact Iff.rfl

theorem uses_taken (hi : i < kMaxInstanceId) (j : Nat) :
    (H.next (.returned t (.id i))).uses j ↔ H.uses j ∨ j = i := by
  have hne : i ≠ kInvalidInstanceId := Nat.ne_of_lt hi
  simp only [next, if_neg hne, uses, Finset.mem_insert]
  rw [or_assoc, or_comm]

theorem uses_given (ht : H.deleting t = some i) (hapart : i ∉ H.held)
    (honce : ∀ t', H.deleting t' = some i → t' = t) (j : Nat) :
    (H.next (.returned t .unit)).uses j ↔ H.uses j ∧ j ≠ i := by
  have hdeleting : (∃ t', Function.update H.deleting t none t' = some j) ↔
      (∃ t', H.deleting t' = some j) ∧ j ≠ i := by
    rw [Function.exists_update_iff H.deleting fun _ q => q = some j]
    constructor
    · rintro (h | ⟨t', hne, h⟩)
      · cases h
      · refine ⟨⟨t', h⟩, ?_⟩
        rintro rfl
        exact hne (honce t' h)
    · rintro ⟨⟨t', h⟩, hj⟩
      refine Or.inr ⟨t', ?_, h⟩
      rintro rfl
      rw [ht] at h
      exact hj (Option.some.inj h).symm
  show (j ∈ H.held ∨ ∃ t', Function.update H.deleting t none t' = some j) ↔ H.uses j ∧ j ≠ i
  rw [hdeleting, uses, or_and_right]
  refine or_congr_left ⟨fun h => ⟨h, ?_⟩, And.left⟩
  rintro rfl
  exact hapart h

end Holding

/-! ## Merged sections -/

abbrev mergedIds : Tid → IdCall → IdCode β IdReturn := mergedCode () () idCode

/-- A thread between calls, or in front of the one step of its call. -/
inductive AtCall (d : IdThreads β) (H : Holding) (t : Tid) : Prop
  | idle {r : IdReturn} (hp : d.progs t = .ret r) (hd : H.deleting t = none)
  | takes (hp : d.progs t = mergedIds t .newInstanceId) (hd : H.deleting t = none)
  | gives {i : Nat} (hp : d.progs t = mergedIds t (.deleteInstanceId i))
    (hd : H.deleting t = some i)

/-- The ids in use are marked, each is used once. -/
structure Matches (d : IdThreads β) (H : Holding) : Prop where
  marked : ∀ i, d.shared.marked i ↔ H.uses i
  stands : ∀ t, AtCall d H t
  apart : ∀ t i, H.deleting t = some i → i ∉ H.held
  once : ∀ t t' i, H.deleting t = some i → H.deleting t' = some i → t = t'

section Merged

variable {d d' : IdThreads β} {H : Holding} {t : Tid}

theorem matches_start (p : Process β) : Matches (IdThreads.start p) (Holding.start p) where
  marked i := by
    constructor
    · intro h
      exact Or.inl (Finset.mem_filter.mpr ⟨Finset.mem_range.mpr (marked_iff.mp h).1, h⟩)
    · rintro (h | ⟨t, h⟩)
      · exact (Finset.mem_filter.mp h).2
      · cases h
  stands _ := .idle rfl rfl
  apart _ _ h := by cases h
  once _ _ _ h := by cases h

theorem merged_ne_ret (t : Tid) (call : IdCall) (r : IdReturn) :
    (mergedIds t call : IdCode β _) ≠ .ret r := by
  intro h
  have hres : (merge () () (idCode t call : IdCode β _)).result =
      (idCode t call : IdCode β _).result := result_merge _
  rw [idCode, IdCall.code_eq] at hres
  have hcall : (mergedIds t call : IdCode β _).result = none := by
    rw [mergedIds, mergedCode, idCode, IdCall.code_eq]
    exact hres
  rw [h] at hcall
  cases hcall

/-- One thread goes to another place, with everything it says. -/
theorem Matches.stands_update (M : Matches d H) {p : IdCode β IdReturn} {q : Option Nat}
    (hprogs : d'.progs = Function.update d.progs t p) {H' : Holding}
    (hdeleting : H'.deleting = Function.update H.deleting t q) (ht : AtCall d' H' t) :
    ∀ t', AtCall d' H' t' := by
  intro t'
  by_cases he : t' = t
  · rw [he]
    exact ht
  · have hp : d'.progs t' = d.progs t' := by rw [hprogs, Function.update_of_ne he]
    have hd : H'.deleting t' = H.deleting t' := by rw [hdeleting, Function.update_of_ne he]
    cases M.stands t' with
    | idle h h' => exact .idle (hp.trans h) (hd.trans h')
    | takes h h' => exact .takes (hp.trans h) (hd.trans h')
    | gives h h' => exact .gives (hp.trans h) (hd.trans h')

/-- **A call** of a thread that gives back what it holds. -/
theorem Matches.called (M : Matches d H) {call : IdCall} {out : Option IdReturn}
    (h : Threads.callStep mergedIds d (.start t call) = .ok (d', out))
    (hmay : H.mayCall (.called t call)) : out = none ∧ Matches d' (H.next (.called t call)) := by
  obtain ⟨hs, rfl⟩ := callStep_start h
  refine ⟨rfl, ?_⟩
  simp only [threadStep] at hs
  split at hs
  · rename_i r hp
    cases hs
    have ht : H.deleting t = none := by
      cases M.stands t with
      | idle h h' => exact h'
      | takes h h' => exact h'
      | gives h h' =>
        rw [hp] at h
        exact absurd h.symm (merged_ne_ret t _ r)
    cases call with
    | newInstanceId =>
      have hd : H.deleting = Function.update H.deleting t none := by
        rw [← ht, Function.update_eq_self]
      exact ⟨M.marked, M.stands_update rfl hd (.takes (Function.update_self ..) ht), M.apart,
        M.once⟩
    | deleteInstanceId i =>
      have hi : i ∈ H.held := hmay
      have hothers : ∀ t' j, Function.update H.deleting t (some i) t' = some j →
          t' = t ∧ j = i ∨ t' ≠ t ∧ H.deleting t' = some j := by
        intro t' j hj
        by_cases he : t' = t
        · subst he
          rw [Function.update_self] at hj
          exact Or.inl ⟨rfl, (Option.some.inj hj).symm⟩
        · rw [Function.update_of_ne he] at hj
          exact Or.inr ⟨he, hj⟩
      have hnot : ∀ t', H.deleting t' ≠ some i := fun t' hd => M.apart t' i hd hi
      refine ⟨fun j => (M.marked j).trans (Holding.uses_called hi ht j).symm,
        M.stands_update rfl rfl
          (.gives (i := i) (Function.update_self ..) (Function.update_self ..)),
        fun t' j hj hin => ?_, fun t' t'' j hj hj' => ?_⟩
      · obtain ⟨hne, hin⟩ := Finset.mem_erase.mp hin
        rcases hothers t' j hj with ⟨-, rfl⟩ | ⟨-, hj⟩
        · exact hne rfl
        · exact M.apart t' j hj hin
      · rcases hothers t' j hj with ⟨rfl, rfl⟩ | ⟨-, hold⟩
        · rcases hothers t'' _ hj' with ⟨rfl, -⟩ | ⟨-, hold'⟩
          · rfl
          · exact absurd hold' (hnot t'')
        · rcases hothers t'' j hj' with ⟨-, rfl⟩ | ⟨-, hold'⟩
          · exact absurd hold (hnot t')
          · exact M.once t' t'' j hold hold'
  · cases hs

/-- The one step of a call. -/
theorem go_merged {call : IdCall} {r : IdReturn} {p : Process β} {out : Option IdReturn}
    (hp : d.progs t = mergedIds t call) (hbody : call.body.alone d.shared = some (r, p))
    (h : Threads.callStep mergedIds d (.go t) = .ok (d', out)) :
    d' = ⟨p, d.owner, Function.update d.progs t (.ret r)⟩ ∧ out = some r := by
  rw [mergedIds, mergedCode, idCode, IdCall.code_eq] at hp
  rw [go_merged_lockGuard call.onBits hp hbody] at h
  cases h
  exact ⟨rfl, rfl⟩

/-- **A result** is right. -/
theorem Matches.returned (M : Matches d H) {out : Option IdReturn}
    (h : Threads.callStep mergedIds d (.go t) = .ok (d', out)) :
    ∃ r, out = some r ∧ H.right (.returned t r) ∧ Matches d' (H.next (.returned t r)) := by
  cases M.stands t with
  | idle hp hd =>
    obtain ⟨hs, -⟩ := callStep_go h
    simp only [threadStep, hp] at hs
    cases hs
  | takes hp hd =>
    have hsame : H.deleting = Function.update H.deleting t none := by
      rw [← hd, Function.update_eq_self]
    rcases exists_least_free d.shared with ⟨i, hi, hfree, hleast⟩ | hall
    · obtain ⟨b, hnew, hmarked⟩ := newInstanceId_least hi hfree hleast
      obtain ⟨rfl, rfl⟩ := go_merged hp (IdCode.alone_newInstanceId _ hnew) h
      have hnot : ¬ H.uses i := fun hu => hfree ((M.marked i).mpr hu)
      have hnext : H.next (.returned t (.id i)) = { H with held := insert i H.held } :=
        if_neg (Nat.ne_of_lt hi)
      have huses : ∀ j, (d.shared.withBits b).marked j ↔
          Holding.uses { H with held := insert i H.held } j := by
        intro j
        rw [← hnext, Holding.uses_taken hi, ← M.marked j]
        exact hmarked j
      refine ⟨_, rfl, Or.inl ⟨hi, hnot, fun j hj => (M.marked j).mp (hleast j hj)⟩, ?_⟩
      rw [hnext]
      refine ⟨huses, M.stands_update rfl hsame (.idle (Function.update_self ..) hd),
        fun t' j hj hin => ?_, M.once⟩
      rcases Finset.mem_insert.mp hin with rfl | hin
      · exact hnot (Or.inr ⟨t', hj⟩)
      · exact M.apart t' j hj hin
    · obtain ⟨rfl, rfl⟩ :=
        go_merged hp (IdCode.alone_newInstanceId _ (newInstanceId_exhausted hall)) h
      refine ⟨_, rfl, Or.inr ⟨rfl, fun j hj => (M.marked j).mp (hall j hj)⟩, ?_⟩
      simp only [Holding.next, if_true]
      exact ⟨M.marked, M.stands_update rfl hsame (.idle (Function.update_self ..) hd), M.apart,
        M.once⟩
  | @gives i hp hd =>
    have hi : i < kMaxInstanceId := (marked_iff.mp ((M.marked i).mpr (Or.inr ⟨t, hd⟩))).1
    obtain ⟨b, hdel, hmarked⟩ := deleteInstanceId_spec d.shared hi
    obtain ⟨rfl, rfl⟩ := go_merged hp (IdCode.alone_deleteInstanceId _ hdel) h
    have hothers : ∀ t' j, Function.update H.deleting t none t' = some j →
        H.deleting t' = some j := by
      intro t' j hj
      by_cases he : t' = t
      · subst he
        rw [Function.update_self] at hj
        cases hj
      · rwa [Function.update_of_ne he] at hj
    refine ⟨_, rfl, trivial, fun j => ?_,
      M.stands_update rfl rfl (.idle (Function.update_self ..) (Function.update_self ..)),
      fun t' j hj => M.apart t' j (hothers t' j hj),
      fun t' t'' j hj hj' => M.once t' t'' j (hothers t' j hj) (hothers t'' j hj')⟩
    rw [Holding.uses_given hd (M.apart t i hd) fun t' h => M.once t' t i h hd, ← M.marked j]
    exact hmarked j

/-- **A run** of the merged code. -/
theorem merged_run (M : Matches d H) {moves : List (Move Tid IdCall)}
    {outs : List (Option IdReturn)} (h : run (Threads.callStep mergedIds) d moves = .ok (d', outs))
    (hmay : EachStep holdingStep Holding.mayCall H (history moves outs)) :
    EachStep holdingStep Holding.right H (history moves outs) ∧
      Matches d' (H.after (history moves outs)) := by
  induction moves generalizing d H outs with
  | nil =>
    cases h
    exact ⟨trivial, M⟩
  | cons move moves ih =>
    obtain ⟨d₁, out, outs₁, hstep, hrun, rfl⟩ := run_cons_eq_ok.mp h
    cases move with
    | start t call =>
      have hmay' := eachStep_holding.mp hmay
      obtain ⟨rfl, M₁⟩ := M.called hstep hmay'.1
      obtain ⟨hright, M'⟩ := ih M₁ hrun hmay'.2
      exact ⟨eachStep_holding.mpr ⟨trivial, hright⟩, M'⟩
    | go t =>
      obtain ⟨r, rfl, hr, M₁⟩ := M.returned hstep
      obtain ⟨hright, M'⟩ := ih M₁ hrun (eachStep_holding.mp hmay).2
      exact ⟨eachStep_holding.mpr ⟨hr, hright⟩, M'⟩

end Merged

/-- **Ids under any interleaving.** However the loads and stores of calls on any number of threads
follow one another, as long as ids are given back by those who hold them: each call of
`newInstanceId` returns the least id that nobody has, and the invalid one only when all are in
use; and when no call is in progress, the marked ids are those that are held. -/
theorem ids_interleaved (p : Process β) {moves : List (Move Tid IdCall)} {c : IdThreads β}
    {outs : List (Option IdReturn)}
    (h : run (Threads.callStep idCode) (IdThreads.start p) moves = .ok (c, outs))
    (hmay : EachStep holdingStep Holding.mayCall (.start p) (history moves outs)) :
    EachStep holdingStep Holding.right (.start p) (history moves outs) ∧
      (c.idle → ∀ i, c.shared.marked i ↔
        i ∈ ((Holding.start p).after (history moves outs)).held) := by
  have hcode : ∀ t call, Sectioned () Process.s_bitset IdCode.rest false
      (idCode t call : IdCode β _) := by
    intro t call
    rw [idCode, IdCall.code_eq]
    exact sectioned_lockGuard call.onBits
  have hstart : Lags () () Process.s_bitset IdCode.rest (IdThreads.start p) (IdThreads.start p) :=
    lags_start (fun _ => rfl) fun _ => ⟨.unit, rfl⟩
  obtain ⟨moves', outs', d, -, hrun, hhist, R⟩ := merge_run IdCode.parts hcode hstart h
  rw [← hhist] at hmay ⊢
  obtain ⟨hright, M⟩ := merged_run (matches_start p) hrun hmay
  refine ⟨hright, fun hidle i => ?_⟩
  have hret : ∀ t, ∃ r, c.progs t = .ret r := by
    intro t
    have ht := hidle t
    cases hp : c.progs t with
    | ret r => exact ⟨r, rfl⟩
    | _ =>
      rw [hp] at ht
      cases ht
  have hfree : c.owner () = none := by
    cases hown : c.owner () with
    | none => rfl
    | some t =>
      obtain ⟨r, hr⟩ := hret t
      have hsec := (R.inside t hown).1
      rw [hr] at hsec
      cases hsec
  rw [← R.free hfree, M.marked i]
  refine or_iff_left ?_
  rintro ⟨t, ht⟩
  obtain ⟨r, hr⟩ := hret t
  have hd : d.progs t = .ret r := by
    rw [(R.outside t (by rw [hfree]; exact nofun)).2, hr]
    rfl
  cases M.stands t with
  | idle _ h' =>
    rw [h'] at ht
    cases ht
  | takes _ h' =>
    rw [h'] at ht
    cases ht
  | gives h' _ =>
    rw [hd] at h'
    exact merged_ne_ret t _ r h'.symm

/-- Threads 1 and 2 take ids; thread 1 gives its own back while thread 2 is in its section, and
thread 3 gets it. -/
def idsTaken : List (Move Tid IdCall) :=
  List.flatten [[.start 1 .newInstanceId, .start 2 .newInstanceId], List.replicate 5 (.go 1),
    [.start 3 .newInstanceId, .go 1, .go 2, .go 2, .start 1 (.deleteInstanceId 0)],
    List.replicate 4 (.go 2), List.replicate 4 (.go 1), List.replicate 6 (.go 3)]

theorem ids_interleaved_sample :
    ∃ c outs, run (Threads.callStep idCode) (IdThreads.start (Process.init : Process Unit))
        idsTaken = .ok (c, outs) ∧
      history idsTaken outs = [.called 1 .newInstanceId, .called 2 .newInstanceId,
        .called 3 .newInstanceId, .returned 1 (.id 0), .called 1 (.deleteInstanceId 0),
        .returned 2 (.id 1), .returned 1 .unit, .returned 3 (.id 0)] ∧
      EachStep holdingStep Holding.right (.start (Process.init : Process Unit))
        (history idsTaken outs) := by
  obtain ⟨⟨c, outs⟩, h, hends⟩ := exists_of_any
    (x := run (Threads.callStep idCode) (IdThreads.start (Process.init : Process Unit)) idsTaken)
    (P := fun r => decide (history idsTaken r.2 = [.called 1 .newInstanceId,
        .called 2 .newInstanceId, .called 3 .newInstanceId, .returned 1 (.id 0),
        .called 1 (.deleteInstanceId 0), .returned 2 (.id 1), .returned 1 .unit,
        .returned 3 (.id 0)]) &&
      decide (EachStep holdingStep Holding.mayCall (.start (Process.init : Process Unit))
        (history idsTaken r.2)))
    (by decide +kernel)
  obtain ⟨hhist, hmay⟩ := Bool.and_eq_true_iff.mp hends
  exact ⟨c, outs, h, of_decide_eq_true hhist,
    (ids_interleaved Process.init h (of_decide_eq_true hmay)).1⟩

end Lldk
