import Mathlib.Algebra.Group.Nat.Defs
import Mathlib.Data.List.Nodup
import Mathlib.Logic.Function.Basic
import Mathlib.Tactic.Lemma

/-!
# Registered events of a task

The `edevt_t` of an `EdTask` on the heap, the two `EdObjList`s that hold them and the
interest set of its epoll. A function that reads an `edevt_t` gives none when the address
is not allocated. `birth` numbers the allocations, since addresses are used again.
-/

namespace EdNio.Event

abbrev Addr := Nat

/-- The two lists of events of an `EdTask`. -/
inductive EvtList
  | mEvtList
  | mDummyEvtList
deriving DecidableEq, Repr

/-- The list header before an object. -/
structure Hdr where
  seed : Nat
  list : Option EvtList
deriving DecidableEq, Repr

/-- The `user` of an event: the task itself or an `EdEvent` object. -/
inductive User
  | task
  | obj (o : Nat)
deriving DecidableEq, Repr

structure Edevt where
  hdr : Hdr
  fd : Int
  user : User
  isReg : Bool
  birth : Nat
deriving DecidableEq, Repr

/-- Where the lists lie in the `EdTask`. -/
structure Layout where
  addr : EvtList → Nat

/-- `mSeed` of a list, made from its address. -/
def Layout.seed (L : Layout) (l : EvtList) : Nat :=
  L.addr l / 4 % 2 ^ 32

/-- What a heap holds after one address was written. -/
lemma update_some_iff {β : Type} {m : Addr → Option β} {a b : Addr} {v w : β} :
    Function.update m a (some v) b = some w ↔ b = a ∧ w = v ∨ b ≠ a ∧ m b = some w := by
  by_cases hba : b = a
  · simp [hba, eq_comm]
  · simp [hba]

lemma update_none_iff {β : Type} {m : Addr → Option β} {a b : Addr} {w : β} :
    Function.update m a none b = some w ↔ b ≠ a ∧ m b = some w := by
  by_cases hba : b = a
  · simp [hba]
  · simp [hba]

/-- `deregistered` and `freed` record the calls of `deregEdEvent` and the releases of
`cleanUpEventResource` with the batch they belong to. -/
structure Registry where
  heap : Addr → Option Edevt
  lists : EvtList → List Addr
  interest : Int → Option Addr
  evt_count : Int
  evt_alloc_cnt : Int
  births : Nat
  batch : Nat
  deregistered : List (Nat × Nat)
  freed : List (Nat × Nat)

namespace Registry

variable (L : Layout) (r : Registry)

def empty : Registry where
  heap _ := none
  lists _ := []
  interest _ := none
  evt_count := 0
  evt_alloc_cnt := 0
  births := 0
  batch := 0
  deregistered := []
  freed := []

def write (a : Addr) (f : Edevt → Edevt) : Registry :=
  { r with heap := Function.update r.heap a ((r.heap a).map f) }

def push_back (l : EvtList) (a : Addr) : Option Registry :=
  (r.heap a).map (fun e =>
    if e.hdr.seed ≠ 0 ∨ e.hdr.list.isSome then r
    else
      { r.write a (fun e => { e with hdr := ⟨L.seed l, some l⟩ }) with
        lists := Function.update r.lists l (r.lists l ++ [a]) })

def remove (l : EvtList) (a : Addr) : Option Registry :=
  (r.heap a).map (fun e =>
    if e.hdr.seed ≠ L.seed l then r
    else
      { r.write a (fun e => { e with hdr := ⟨0, none⟩ }) with
        lists := Function.update r.lists l ((r.lists l).erase a) })

def pop_front (l : EvtList) : Option (Option Addr × Registry) :=
  match r.lists l with
  | [] => some (none, r)
  | a :: _ => (r.remove L l a).map (fun r => (some a, r))

/-- The allocator gives the address `a`. -/
def allocEvent (a : Addr) : Registry :=
  { r with
    heap := Function.update r.heap a (some ⟨⟨0, none⟩, 0, .task, false, r.births⟩)
    births := r.births + 1
    evt_alloc_cnt := r.evt_alloc_cnt + 1 }

def freeEvent (a : Addr) : Option Registry :=
  (r.heap a).map (fun _ =>
    { r with
      heap := Function.update r.heap a none
      evt_alloc_cnt := r.evt_alloc_cnt - 1 })

/-- `added` says that `EPOLL_CTL_ADD` succeeds. -/
def regEdEvent (a : Addr) (fd : Int) (user : User) (added : Bool) :
    Option (Option Addr × Registry) :=
  let r := (r.allocEvent a).write a (fun e => { e with fd := fd, user := user })
  let r := { r with evt_count := r.evt_count + 1 }
  if added then
    let r := { r with interest := Function.update r.interest fd (some a) }
    let r := r.write a (fun e => { e with isReg := true })
    (r.push_back L .mEvtList a).map (fun r => (some a, r))
  else (r.freeEvent a).map (fun r => (none, r))

/-- After `EPOLL_CTL_DEL` the descriptor is not watched, also when it fails because it was
not before. -/
def deregEdEvent (a : Addr) : Option Registry :=
  (r.heap a).bind (fun e =>
    let r := { r with
      interest := Function.update r.interest e.fd none
      evt_count := r.evt_count - 1
      deregistered := r.deregistered ++ [(e.birth, r.batch)] }
    let r := r.write a (fun e => { e with isReg := false })
    (r.remove L .mEvtList a).bind (fun r => r.push_back L .mDummyEvtList a))

/-- `EPOLL_CTL_MOD` changes an entry only if there is one. -/
def changeEdEvent (a : Addr) : Option Registry :=
  (r.heap a).map (fun e =>
    if (r.interest e.fd).isSome then
      { r with interest := Function.update r.interest e.fd (some a) }
    else r)

/-- `fuel` bounds the rounds of the loop. -/
def cleanUpEventResource : Nat → Registry → Option Registry
  | 0, _ => none
  | fuel + 1, r =>
    (r.pop_front L .mDummyEvtList).bind (fun (front, r) =>
      match front with
      | none => some r
      | some a =>
        let r := r.write a (fun e => { e with fd := 0 })
        (r.heap a).bind (fun e =>
          (r.freeEvent a).bind (fun r =>
            cleanUpEventResource fuel { r with freed := r.freed ++ [(e.birth, r.batch)] })))

/-- `::close` of a descriptor takes it out of the interest set. -/
def sysClose (fd : Int) : Registry :=
  { r with interest := Function.update r.interest fd none }

end Registry

/-- The list that should hold an event. -/
def Edevt.home (e : Edevt) : EvtList :=
  if e.isReg then .mEvtList else .mDummyEvtList

/-- Every allocated event is on the list that `isReg` tells, and epoll only points to
registered ones. What was deregistered is freed or waits to be freed. -/
structure Wf (L : Layout) (r : Registry) : Prop where
  hdr : ∀ a e, r.heap a = some e → e.hdr = ⟨L.seed e.home, some e.home⟩
  mem : ∀ a l, a ∈ r.lists l ↔ ∃ e, r.heap a = some e ∧ e.home = l
  nodup : ∀ l, (r.lists l).Nodup
  fd : ∀ a e, r.heap a = some e → 0 < e.fd
  interest : ∀ f a, r.interest f = some a → ∃ e, r.heap a = some e ∧ e.isReg = true ∧ e.fd = f
  birth : ∀ a e, r.heap a = some e → e.birth < r.births
  distinct : ∀ a b e e', r.heap a = some e → r.heap b = some e' → e.birth = e'.birth → a = b
  live : ∀ a e, r.heap a = some e → ∀ n,
    (e.birth, n) ∉ r.freed ∧ ((e.birth, n) ∈ r.deregistered ↔ e.isReg = false ∧ n = r.batch)
  old : ∀ x ∈ r.deregistered, x.1 < r.births ∧ x.2 ≤ r.batch
  accounted : ∀ x ∈ r.deregistered, x ∈ r.freed ∨ ∃ a e, r.heap a = some e ∧ e.birth = x.1
  freed : ∀ x ∈ r.freed, x ∈ r.deregistered
  once : (r.freed.map Prod.fst).Nodup

namespace Registry

variable {L : Layout} {r : Registry} {a : Addr} {e : Edevt} {fd : Int} {user : User}

/-- The registry with a new event. -/
def added (L : Layout) (r : Registry) (a : Addr) (fd : Int) (user : User) : Registry :=
  { r with
    heap := Function.update r.heap a
      (some ⟨⟨L.seed .mEvtList, some .mEvtList⟩, fd, user, true, r.births⟩)
    lists := Function.update r.lists .mEvtList (r.lists .mEvtList ++ [a])
    interest := Function.update r.interest fd (some a)
    evt_count := r.evt_count + 1
    evt_alloc_cnt := r.evt_alloc_cnt + 1
    births := r.births + 1 }

lemma regEdEvent_added : r.regEdEvent L a fd user true = some (some a, r.added L a fd user) := by
  simp [regEdEvent, allocEvent, write, push_back, added]

/-- The registry after a registration that epoll has refused. -/
def refused (r : Registry) : Registry :=
  { r with evt_count := r.evt_count + 1, births := r.births + 1 }

lemma regEdEvent_refused (ha : r.heap a = none) :
    r.regEdEvent L a fd user false = some (none, r.refused) := by
  have hheap : Function.update r.heap a none = r.heap := by
    rw [← ha]
    exact Function.update_eq_self a r.heap
  simp [regEdEvent, allocEvent, write, freeEvent, refused, hheap]

/-- The registry in which an event has moved to `mDummyEvtList`. -/
def retired (L : Layout) (r : Registry) (a : Addr) (e : Edevt) : Registry :=
  { r with
    heap := Function.update r.heap a
      (some { e with isReg := false, hdr := ⟨L.seed .mDummyEvtList, some .mDummyEvtList⟩ })
    lists := Function.update (Function.update r.lists .mEvtList ((r.lists .mEvtList).erase a))
      .mDummyEvtList (r.lists .mDummyEvtList ++ [a])
    interest := Function.update r.interest e.fd none
    evt_count := r.evt_count - 1
    deregistered := r.deregistered ++ [(e.birth, r.batch)] }

lemma deregEdEvent_eq (h : Wf L r) (ha : r.heap a = some e) (hr : e.isReg = true) :
    r.deregEdEvent L a = some (r.retired L a e) := by
  have hhdr := h.hdr a e ha
  simp only [Edevt.home, hr, if_true] at hhdr
  simp [deregEdEvent, ha, write, remove, push_back, hhdr, retired]

/-- One round of `cleanUpEventResource`. -/
def released (r : Registry) (a : Addr) (e : Edevt) (rest : List Addr) : Registry :=
  { r with
    heap := Function.update r.heap a none
    lists := Function.update r.lists .mDummyEvtList rest
    evt_alloc_cnt := r.evt_alloc_cnt - 1
    freed := r.freed ++ [(e.birth, r.batch)] }

lemma cleanUpEventResource_nil (hl : r.lists .mDummyEvtList = []) (n : Nat) :
    cleanUpEventResource L (n + 1) r = some r := by
  simp [cleanUpEventResource, pop_front, hl]

lemma cleanUpEventResource_cons {rest : List Addr} (h : Wf L r) (ha : r.heap a = some e)
    (hr : e.isReg = false) (hl : r.lists .mDummyEvtList = a :: rest) (n : Nat) :
    cleanUpEventResource L (n + 1) r = cleanUpEventResource L n (r.released a e rest) := by
  have hhdr := h.hdr a e ha
  simp only [Edevt.home, hr, Bool.false_eq_true, if_false] at hhdr
  simp [cleanUpEventResource, pop_front, hl, remove, ha, hhdr, write, freeEvent, released]

section Lists

variable {rest : List Addr}

@[simp] lemma added_mEvtList :
    (r.added L a fd user).lists .mEvtList = r.lists .mEvtList ++ [a] := by
  simp [added]

@[simp] lemma added_mDummyEvtList :
    (r.added L a fd user).lists .mDummyEvtList = r.lists .mDummyEvtList := by
  simp [added]

@[simp] lemma retired_mEvtList :
    (r.retired L a e).lists .mEvtList = (r.lists .mEvtList).erase a := by
  simp [retired]

@[simp] lemma retired_mDummyEvtList :
    (r.retired L a e).lists .mDummyEvtList = r.lists .mDummyEvtList ++ [a] := by
  simp [retired]

@[simp] lemma released_mEvtList :
    (r.released a e rest).lists .mEvtList = r.lists .mEvtList := by
  simp [released]

@[simp] lemma released_mDummyEvtList :
    (r.released a e rest).lists .mDummyEvtList = rest := by
  simp [released]

/-- `evt_count` counts the events on `mEvtList`. -/
lemma evt_count_added (h : r.evt_count = (r.lists .mEvtList).length) :
    (r.added L a fd user).evt_count = ((r.added L a fd user).lists .mEvtList).length := by
  have hcount : (r.added L a fd user).evt_count = r.evt_count + 1 := rfl
  rw [added_mEvtList, List.length_append, List.length_singleton]
  omega

lemma evt_count_retired (h : r.evt_count = (r.lists .mEvtList).length)
    (hmem : a ∈ r.lists .mEvtList) :
    (r.retired L a e).evt_count = ((r.retired L a e).lists .mEvtList).length := by
  have hcount : (r.retired L a e).evt_count = r.evt_count - 1 := rfl
  have hpos := List.length_pos_of_mem hmem
  rw [retired_mEvtList, List.length_erase_of_mem hmem]
  omega

/-- `evt_alloc_cnt` counts the events on the two lists. -/
lemma evt_alloc_cnt_added
    (h : r.evt_alloc_cnt = (r.lists .mEvtList).length + (r.lists .mDummyEvtList).length) :
    (r.added L a fd user).evt_alloc_cnt = ((r.added L a fd user).lists .mEvtList).length +
      ((r.added L a fd user).lists .mDummyEvtList).length := by
  have hcount : (r.added L a fd user).evt_alloc_cnt = r.evt_alloc_cnt + 1 := rfl
  rw [added_mEvtList, added_mDummyEvtList, List.length_append, List.length_singleton]
  omega

lemma evt_alloc_cnt_retired
    (h : r.evt_alloc_cnt = (r.lists .mEvtList).length + (r.lists .mDummyEvtList).length)
    (hmem : a ∈ r.lists .mEvtList) :
    (r.retired L a e).evt_alloc_cnt = ((r.retired L a e).lists .mEvtList).length +
      ((r.retired L a e).lists .mDummyEvtList).length := by
  have hcount : (r.retired L a e).evt_alloc_cnt = r.evt_alloc_cnt := rfl
  have hpos := List.length_pos_of_mem hmem
  rw [retired_mEvtList, retired_mDummyEvtList, List.length_erase_of_mem hmem, List.length_append,
    List.length_singleton]
  omega

end Lists

end Registry

namespace Wf

variable {L : Layout} {r : Registry} {a : Addr} {e : Edevt} {fd : Int} {user : User}

lemma empty : Wf L Registry.empty := by
  constructor <;> simp [Registry.empty]

/-- `mEvtList` holds the events that are registered. -/
lemma mem_mEvtList_iff (h : Wf L r) :
    a ∈ r.lists .mEvtList ↔ ∃ e, r.heap a = some e ∧ e.isReg = true := by
  rw [h.mem]
  simp [Edevt.home]

/-- `mDummyEvtList` holds the events that are not. -/
lemma mem_mDummyEvtList_iff (h : Wf L r) :
    a ∈ r.lists .mDummyEvtList ↔ ∃ e, r.heap a = some e ∧ e.isReg = false := by
  rw [h.mem]
  simp [Edevt.home]

/-- With no event on `mDummyEvtList` each one is registered. -/
lemma isReg_of_nil (h : Wf L r) (hl : r.lists .mDummyEvtList = []) (ha : r.heap a = some e) :
    e.isReg = true := by
  cases hr : e.isReg with
  | true => rfl
  | false =>
    have hin := h.mem_mDummyEvtList_iff.mpr ⟨e, ha, hr⟩
    simp [hl] at hin

lemma not_mem (h : Wf L r) (ha : r.heap a = none) (l : EvtList) : a ∉ r.lists l := by
  intro hl
  obtain ⟨e, he, -⟩ := (h.mem a l).mp hl
  simp [ha] at he

lemma added (h : Wf L r) (ha : r.heap a = none) (hfd : 0 < fd) :
    Wf L (r.added L a fd user) := by
  have hne : ∀ {b e}, r.heap b = some e → b ≠ a := by
    rintro b e hb rfl
    simp [ha] at hb
  have hheap : ∀ b e, (r.added L a fd user).heap b = some e →
      b = a ∧ e = ⟨⟨L.seed .mEvtList, some .mEvtList⟩, fd, user, true, r.births⟩ ∨
        b ≠ a ∧ r.heap b = some e :=
    fun b e => update_some_iff.mp
  have hkeep : ∀ b e, r.heap b = some e → (r.added L a fd user).heap b = some e :=
    fun b e hb => update_some_iff.mpr (.inr ⟨hne hb, hb⟩)
  have hnew : (r.added L a fd user).heap a =
      some ⟨⟨L.seed .mEvtList, some .mEvtList⟩, fd, user, true, r.births⟩ :=
    update_some_iff.mpr (.inl ⟨rfl, rfl⟩)
  constructor
  case hdr =>
    intro b e hb
    rcases hheap b e hb with ⟨-, rfl⟩ | ⟨-, hb⟩
    · rfl
    · exact h.hdr b e hb
  case mem =>
    intro b l
    have hmem := h.mem b l
    constructor
    · intro hb
      by_cases hl : l = .mEvtList
      · subst hl
        rw [Registry.added_mEvtList, List.mem_append, List.mem_singleton] at hb
        rcases hb with hb | rfl
        · obtain ⟨e, he, hh⟩ := hmem.mp hb
          exact ⟨e, hkeep b e he, hh⟩
        · exact ⟨_, hnew, rfl⟩
      · simp only [Registry.added, Function.update_of_ne hl] at hb
        obtain ⟨e, he, hh⟩ := hmem.mp hb
        exact ⟨e, hkeep b e he, hh⟩
    · rintro ⟨e, hb, hh⟩
      rcases hheap b e hb with ⟨rfl, rfl⟩ | ⟨-, hb⟩
      · subst hh
        simp [Registry.added, Edevt.home]
      · have hin := hmem.mpr ⟨e, hb, hh⟩
        by_cases hl : l = .mEvtList
        · subst hl
          simp [Registry.added, hin]
        · simpa [Registry.added, Function.update_of_ne hl] using hin
  case nodup =>
    intro l
    by_cases hl : l = .mEvtList
    · subst hl
      rw [Registry.added_mEvtList, ← List.concat_eq_append]
      exact (h.nodup _).concat (h.not_mem ha _)
    · simpa [Registry.added, Function.update_of_ne hl] using h.nodup l
  case fd =>
    intro b e hb
    rcases hheap b e hb with ⟨-, rfl⟩ | ⟨-, hb⟩
    · exact hfd
    · exact h.fd b e hb
  case interest =>
    intro f b hf
    by_cases hffd : f = fd
    · subst hffd
      simp only [Registry.added, Function.update_self, Option.some.injEq] at hf
      subst hf
      exact ⟨_, hnew, rfl, rfl⟩
    · simp only [Registry.added, Function.update_of_ne hffd] at hf
      obtain ⟨e, he, hh⟩ := h.interest f b hf
      exact ⟨e, hkeep b e he, hh⟩
  case birth =>
    intro b e hb
    rcases hheap b e hb with ⟨-, rfl⟩ | ⟨-, hb⟩
    · exact Nat.lt_succ_self _
    · exact Nat.lt_succ_of_lt (h.birth b e hb)
  case distinct =>
    intro b c e e' hb hc heq
    rcases hheap b e hb with ⟨hba, rfl⟩ | ⟨-, hb'⟩ <;>
      rcases hheap c e' hc with ⟨hca, rfl⟩ | ⟨-, hc'⟩
    · rw [hba, hca]
    · exact absurd heq (Nat.ne_of_gt (h.birth c e' hc'))
    · exact absurd heq (Nat.ne_of_lt (h.birth b e hb'))
    · exact h.distinct b c e e' hb' hc' heq
  case live =>
    intro b e hb n
    rcases hheap b e hb with ⟨rfl, rfl⟩ | ⟨-, hb⟩
    · have hfresh : (r.births, n) ∉ r.deregistered :=
        fun hd => absurd (h.old _ hd).1 (Nat.lt_irrefl _)
      exact ⟨fun hf => hfresh (h.freed _ hf), by simpa [Registry.added] using hfresh⟩
    · exact h.live b e hb n
  case old =>
    intro x hx
    exact (h.old x hx).imp_left Nat.lt_succ_of_lt
  case accounted =>
    intro x hx
    rcases h.accounted x hx with hf | ⟨b, e, hb, hbirth⟩
    · exact .inl hf
    · exact .inr ⟨b, e, hkeep b e hb, hbirth⟩
  case freed =>
    exact h.freed
  case once =>
    exact h.once

lemma refused (h : Wf L r) : Wf L r.refused where
  hdr := h.hdr
  mem := h.mem
  nodup := h.nodup
  fd := h.fd
  interest := h.interest
  birth b e hb := Nat.lt_succ_of_lt (h.birth b e hb)
  distinct := h.distinct
  live := h.live
  old x hx := (h.old x hx).imp_left Nat.lt_succ_of_lt
  accounted := h.accounted
  freed := h.freed
  once := h.once

lemma ne_of_isReg {b : Addr} {p : Edevt} (ha : r.heap a = some e) (hb : r.heap b = some p)
    (hr : e.isReg = false) (hp : p.isReg = true) : b ≠ a := by
  rintro rfl
  rw [ha] at hb
  cases hb
  simp [hr] at hp

/-- An allocated event whose deregistration is recorded waits to be freed in this batch. -/
lemma waits (h : Wf L r) (ha : r.heap a = some e) {x : Nat × Nat} (hx : x ∈ r.deregistered)
    (hbirth : e.birth = x.1) : e.isReg = false ∧ x.2 = r.batch := by
  apply (h.live a e ha x.2).2.mp
  rw [hbirth]
  exact hx

/-- An event is on no list but its own. -/
lemma home_of_mem (h : Wf L r) (ha : r.heap a = some e) {l : EvtList} (hl : a ∈ r.lists l) :
    e.home = l := by
  obtain ⟨e', he', hh⟩ := (h.mem a l).mp hl
  rw [ha] at he'
  cases he'
  exact hh

lemma retired (h : Wf L r) (ha : r.heap a = some e) (hr : e.isReg = true) :
    Wf L (r.retired L a e) := by
  let e₁ : Edevt := { e with
    isReg := false, hdr := ⟨L.seed .mDummyEvtList, some .mDummyEvtList⟩ }
  have hhome : e.home = .mEvtList := by simp [Edevt.home, hr]
  have hheap : ∀ b p, (r.retired L a e).heap b = some p →
      b = a ∧ p = e₁ ∨ b ≠ a ∧ r.heap b = some p :=
    fun b p => update_some_iff.mp
  have hkeep : ∀ b p, b ≠ a → r.heap b = some p → (r.retired L a e).heap b = some p :=
    fun b p hba hb => update_some_iff.mpr (.inr ⟨hba, hb⟩)
  have hnew : (r.retired L a e).heap a = some e₁ := update_some_iff.mpr (.inl ⟨rfl, rfl⟩)
  have hout : a ∉ r.lists .mDummyEvtList := by
    intro hin
    have := h.home_of_mem ha hin
    simp [hhome] at this
  constructor
  case hdr =>
    intro b p hb
    rcases hheap b p hb with ⟨-, rfl⟩ | ⟨-, hb⟩
    · rfl
    · exact h.hdr b p hb
  case mem =>
    intro b l
    have hmem := h.mem b l
    cases l with
    | mEvtList =>
      rw [Registry.retired_mEvtList, (h.nodup _).mem_erase_iff, hmem]
      constructor
      · rintro ⟨hba, p, hb, hh⟩
        exact ⟨p, hkeep b p hba hb, hh⟩
      · rintro ⟨p, hb, hh⟩
        rcases hheap b p hb with ⟨-, rfl⟩ | ⟨hba, hb⟩
        · simp [e₁, Edevt.home] at hh
        · exact ⟨hba, p, hb, hh⟩
    | mDummyEvtList =>
      rw [Registry.retired_mDummyEvtList, List.mem_append, List.mem_singleton]
      constructor
      · rintro (hin | rfl)
        · obtain ⟨p, hb, hh⟩ := hmem.mp hin
          exact ⟨p, hkeep b p (fun hba => hout (hba ▸ hin)) hb, hh⟩
        · exact ⟨e₁, hnew, by simp [e₁, Edevt.home]⟩
      · rintro ⟨p, hb, hh⟩
        rcases hheap b p hb with ⟨hba, -⟩ | ⟨-, hb⟩
        · exact .inr hba
        · exact .inl (hmem.mpr ⟨p, hb, hh⟩)
  case nodup =>
    intro l
    cases l with
    | mEvtList =>
      rw [Registry.retired_mEvtList]
      exact (h.nodup _).erase a
    | mDummyEvtList =>
      rw [Registry.retired_mDummyEvtList, ← List.concat_eq_append]
      exact (h.nodup _).concat hout
  case fd =>
    intro b p hb
    rcases hheap b p hb with ⟨-, rfl⟩ | ⟨-, hb⟩
    · exact h.fd a e ha
    · exact h.fd b p hb
  case interest =>
    intro f b hf
    by_cases hfe : f = e.fd
    · subst hfe
      simp [Registry.retired] at hf
    · simp only [Registry.retired, Function.update_of_ne hfe] at hf
      obtain ⟨p, hb, hp, hpf⟩ := h.interest f b hf
      have hba : b ≠ a := by
        rintro rfl
        rw [ha] at hb
        cases hb
        exact hfe hpf.symm
      exact ⟨p, hkeep b p hba hb, hp, hpf⟩
  case birth =>
    intro b p hb
    rcases hheap b p hb with ⟨-, rfl⟩ | ⟨-, hb⟩
    · exact h.birth a e ha
    · exact h.birth b p hb
  case distinct =>
    intro b c p q hb hc heq
    rcases hheap b p hb with ⟨rfl, rfl⟩ | ⟨-, hb'⟩ <;>
      rcases hheap c q hc with ⟨rfl, rfl⟩ | ⟨-, hc'⟩
    · rfl
    · exact h.distinct _ _ e q ha hc' heq
    · exact h.distinct _ _ p e hb' ha heq
    · exact h.distinct b c p q hb' hc' heq
  case live =>
    intro b p hb n
    simp only [Registry.retired, List.mem_append, List.mem_singleton, Prod.mk.injEq]
    rcases hheap b p hb with ⟨rfl, rfl⟩ | ⟨hba, hb⟩
    · have hl := h.live b e ha n
      refine ⟨hl.1, ?_⟩
      simp [e₁, hl.2, hr]
    · have hl := h.live b p hb n
      have hbirth : p.birth ≠ e.birth := fun heq => hba (h.distinct b a p e hb ha heq)
      simpa [hbirth] using hl
  case old =>
    intro x hx
    simp only [Registry.retired, List.mem_append, List.mem_singleton] at hx
    rcases hx with hx | rfl
    · exact h.old x hx
    · exact ⟨h.birth a e ha, Nat.le_refl _⟩
  case accounted =>
    intro x hx
    simp only [Registry.retired, List.mem_append, List.mem_singleton] at hx
    rcases hx with hx | rfl
    · rcases h.accounted x hx with hf | ⟨b, p, hb, hbirth⟩
      · exact .inl hf
      · by_cases hba : b = a
        · subst hba
          rw [ha] at hb
          cases hb
          exact .inr ⟨b, e₁, hnew, hbirth⟩
        · exact .inr ⟨b, p, hkeep b p hba hb, hbirth⟩
    · exact .inr ⟨a, e₁, hnew, rfl⟩
  case freed =>
    intro x hx
    exact List.mem_append_left _ (h.freed x hx)
  case once =>
    exact h.once

lemma released {rest : List Addr} (h : Wf L r) (ha : r.heap a = some e) (hr : e.isReg = false)
    (hl : r.lists .mDummyEvtList = a :: rest) : Wf L (r.released a e rest) := by
  have hnodup := h.nodup .mDummyEvtList
  rw [hl, List.nodup_cons] at hnodup
  have hheap : ∀ b p, (r.released a e rest).heap b = some p ↔ b ≠ a ∧ r.heap b = some p :=
    fun b p => update_none_iff
  have hnew : (e.birth, r.batch) ∉ r.freed := (h.live a e ha _).1
  have hdereg : (e.birth, r.batch) ∈ r.deregistered := (h.live a e ha _).2.mpr ⟨hr, rfl⟩
  constructor
  case hdr =>
    intro b p hb
    exact h.hdr b p ((hheap b p).mp hb).2
  case mem =>
    intro b l
    have hmem := h.mem b l
    simp only [hheap]
    cases l with
    | mEvtList =>
      rw [Registry.released_mEvtList, hmem]
      constructor
      · rintro ⟨p, hb, hh⟩
        refine ⟨p, ⟨?_, hb⟩, hh⟩
        rintro rfl
        rw [ha] at hb
        cases hb
        simp [Edevt.home, hr] at hh
      · rintro ⟨p, ⟨-, hb⟩, hh⟩
        exact ⟨p, hb, hh⟩
    | mDummyEvtList =>
      rw [Registry.released_mDummyEvtList]
      rw [hl, List.mem_cons] at hmem
      constructor
      · intro hb
        obtain ⟨p, hp, hh⟩ := hmem.mp (.inr hb)
        exact ⟨p, ⟨fun hba => hnodup.1 (hba ▸ hb), hp⟩, hh⟩
      · rintro ⟨p, ⟨hba, hb⟩, hh⟩
        exact (hmem.mpr ⟨p, hb, hh⟩).resolve_left hba
  case nodup =>
    intro l
    cases l with
    | mEvtList =>
      rw [Registry.released_mEvtList]
      exact h.nodup _
    | mDummyEvtList =>
      rw [Registry.released_mDummyEvtList]
      exact hnodup.2
  case fd =>
    intro b p hb
    exact h.fd b p ((hheap b p).mp hb).2
  case interest =>
    intro f b hf
    obtain ⟨p, hb, hp, hpf⟩ := h.interest f b hf
    exact ⟨p, (hheap b p).mpr ⟨ne_of_isReg ha hb hr hp, hb⟩, hp, hpf⟩
  case birth =>
    intro b p hb
    exact h.birth b p ((hheap b p).mp hb).2
  case distinct =>
    intro b c p q hb hc heq
    exact h.distinct b c p q ((hheap b p).mp hb).2 ((hheap c q).mp hc).2 heq
  case live =>
    intro b p hb n
    obtain ⟨hba, hb⟩ := (hheap b p).mp hb
    have hbirth : p.birth ≠ e.birth := fun heq => hba (h.distinct b a p e hb ha heq)
    have hlive := h.live b p hb n
    simpa [Registry.released, hbirth] using hlive
  case old =>
    exact h.old
  case accounted =>
    intro x hx
    simp only [Registry.released, List.mem_append, List.mem_singleton]
    rcases h.accounted x hx with hf | ⟨b, p, hb, hbirth⟩
    · exact .inl (.inl hf)
    · by_cases hba : b = a
      · subst hba
        rw [ha] at hb
        cases hb
        exact .inl (.inr (Prod.ext hbirth.symm (h.waits ha hx hbirth).2))
      · exact .inr ⟨b, p, (hheap b p).mpr ⟨hba, hb⟩, hbirth⟩
  case freed =>
    intro x hx
    simp only [Registry.released, List.mem_append, List.mem_singleton] at hx
    rcases hx with hx | rfl
    · exact h.freed x hx
    · exact hdereg
  case once =>
    simp only [Registry.released, List.map_append, List.map_cons, List.map_nil]
    rw [← List.concat_eq_append]
    apply h.once.concat
    intro hin
    obtain ⟨x, hx, hbirth⟩ := List.mem_map.mp hin
    have hx' : (e.birth, x.2) ∈ r.freed := by
      rw [← hbirth]
      exact hx
    exact (h.live a e ha x.2).1 hx'

/-- The loop of `cleanUpEventResource` ends within the length of its list and empties it. -/
theorem cleanUpEventResource (h : Wf L r) {n : Nat} (hn : (r.lists .mDummyEvtList).length < n) :
    ∃ t, Registry.cleanUpEventResource L n r = some t ∧ Wf L t ∧
      t.lists .mDummyEvtList = [] ∧ t.batch = r.batch ∧
      t.deregistered = r.deregistered ∧
      ∀ b p, p.isReg = true → r.heap b = some p → t.heap b = some p := by
  induction n generalizing r with
  | zero => simp at hn
  | succ n ih =>
    cases hl : r.lists .mDummyEvtList with
    | nil =>
      refine ⟨r, Registry.cleanUpEventResource_nil hl n, h, hl, rfl, rfl, ?_⟩
      intro b p _ hb
      exact hb
    | cons a rest =>
      have hin : a ∈ r.lists .mDummyEvtList := by simp [hl]
      obtain ⟨e, ha, hr⟩ := h.mem_mDummyEvtList_iff.mp hin
      rw [hl, List.length_cons] at hn
      obtain ⟨t, ht, hw, hempty, hbatch, hdereg, hkeep⟩ :=
        ih (h.released ha hr hl) (by rw [Registry.released_mDummyEvtList]; omega)
      refine ⟨t, ?_, hw, hempty, hbatch, hdereg, ?_⟩
      · rw [Registry.cleanUpEventResource_cons h ha hr hl]
        exact ht
      · intro b p hp hb
        apply hkeep b p hp
        have hba := ne_of_isReg ha hb hr hp
        simpa [Registry.released, Function.update_of_ne hba] using hb

lemma sysClose (h : Wf L r) (fd : Int) : Wf L (r.sysClose fd) :=
  { h with
    interest := by
      intro f b hf
      by_cases hfd : f = fd
      · simp [Registry.sysClose, hfd] at hf
      · simp only [Registry.sysClose, Function.update_of_ne hfd] at hf
        exact h.interest f b hf }

/-- `changeEdEvent` of a registered event. -/
lemma changeEdEvent (h : Wf L r) (ha : r.heap a = some e) (hr : e.isReg = true) :
    ∃ t, r.changeEdEvent a = some t ∧ Wf L t ∧ t.heap = r.heap ∧
      t.deregistered = r.deregistered ∧ t.freed = r.freed ∧ t.batch = r.batch := by
  simp only [Registry.changeEdEvent, ha, Option.map_some, Option.some.injEq, exists_eq_left']
  split
  · refine ⟨{ h with interest := ?_ }, rfl, rfl, rfl, rfl⟩
    intro f b hf
    by_cases hfe : f = e.fd
    · subst hfe
      simp only [Function.update_self, Option.some.injEq] at hf
      subst hf
      exact ⟨e, ha, hr, rfl⟩
    · simp only [Function.update_of_ne hfe] at hf
      exact h.interest f b hf
  · exact ⟨h, rfl, rfl, rfl, rfl⟩

end Wf

end EdNio.Event
