import EdNio.Container.HandleManager
import EdNio.Library.History

/-!
# Stale handles

The handles of one slot differ in their seed, a counter of 16 bits that passes over 0. A
handle that was freed is not taken for a new one until the counter has come around.
-/

namespace EdNio.Container
open LinkedList Transition

variable {ω : Type}

/-- A manager with the objects of its slots; none is a null pointer. -/
structure HandleObjects (ω : Type) where
  manager : EsHandleManager
  obj : Nat → Option ω

namespace HandleObjects

variable (m : HandleObjects ω)

/-- `newObj` are the objects that `new T` gives; none when `isobjalloc` is false. -/
def new (max mHandleSeed : UInt16) (listSeed : UInt32) (hdr : Nat → ListHdr Unit Nat)
    (info : Nat → HandleInfo) (newObj : Option (Nat → ω)) : HandleObjects ω where
  manager := .new max mHandleSeed listSeed hdr info
  obj i := newObj.map (fun f => f i)

def allocHandle : UInt32 × HandleObjects ω :=
  (m.manager.allocHandle.1, { m with manager := m.manager.allocHandle.2 })

def freeHandle (handle : UInt32) : HandleObjects ω :=
  { m with manager := m.manager.freeHandle handle }

def setObject (handle : UInt32) (obj : Option ω) : HandleObjects ω :=
  match m.manager.handleToObj handle with
  | some p => { m with obj := Function.update m.obj p obj }
  | none => m

def getObject (handle : UInt32) : Option ω :=
  match m.manager.handleToObj handle with
  | some p => m.obj p
  | none => none

end HandleObjects

/-- The manager and the handles that it has given out and not taken back. -/
structure LiveObjects (ω : Type) where
  objects : HandleObjects ω
  live : List UInt32

inductive HandleCall (ω : Type)
  | allocHandle
  | freeHandle (handle : UInt32)
  | setObject (handle : UInt32) (obj : Option ω)

inductive HandleEvent (ω : Type)
  | issued (handle : UInt32)
  | freed (handle : UInt32)
  | stored (handle : UInt32) (obj : Option ω)

namespace LiveObjects

variable (x : LiveObjects ω)

def managed : Managed :=
  ⟨x.objects.manager, x.live⟩

def call : HandleCall ω → LiveObjects ω
  | .allocHandle =>
    ⟨x.objects.allocHandle.2,
      if x.objects.allocHandle.1 = 0 then x.live else x.live ++ [x.objects.allocHandle.1]⟩
  | .freeHandle handle => ⟨x.objects.freeHandle handle, x.live.erase handle⟩
  | .setObject handle obj => ⟨x.objects.setObject handle obj, x.live⟩

def event : HandleCall ω → Option (HandleEvent ω)
  | .allocHandle =>
    if x.objects.allocHandle.1 = 0 then none else some (.issued x.objects.allocHandle.1)
  | .freeHandle handle => some (.freed handle)
  | .setObject handle obj => some (.stored handle obj)

end LiveObjects

/-- A manager with the log of its handles. -/
abbrev LoggedHandles (ω : Type) := Recorded (LiveObjects ω) (HandleEvent ω)

/-- All runs of managers of any size. -/
def handleLog (ω : Type) (isobjalloc : Bool) : System (LoggedHandles ω) (HandleCall ω) :=
  ({ init := fun x => ∃ max seed listSeed hdr info newObj,
        Option.isSome newObj = isobjalloc ∧ x = ⟨.new max seed listSeed hdr info newObj, []⟩
     step := fun x c => some (x.call c) } : System (LiveObjects ω) (HandleCall ω)).recorded
    LiveObjects.event

/-- The handles issued, in order. -/
def issuedIn : List (HandleEvent ω) → List UInt32
  | [] => []
  | .issued handle :: log => handle :: issuedIn log
  | _ :: log => issuedIn log

/-- While a slot is free, the next handle is not 0, not live, and none of the last 65534. -/
def NextFresh (x : LoggedHandles ω) : Prop :=
  x.state.live.length < x.state.objects.manager.mMaxHandle.toNat →
    x.state.objects.allocHandle.1 ≠ 0 ∧ x.state.objects.allocHandle.1 ∉ x.state.live ∧
      x.state.objects.allocHandle.1 ∉
        (issuedIn x.log).drop ((issuedIn x.log).length - 65534)

/-- The handle does nothing. -/
structure Rejected (m : HandleObjects ω) (handle : UInt32) : Prop where
  getObject : m.getObject handle = none
  freeHandle : m.freeHandle handle = m
  setObject : ∀ obj, m.setObject handle obj = m

/-- A handle that has been freed does nothing until 65535 handles were issued after it. -/
def StaleRejected (x : LoggedHandles ω) : Prop :=
  ∀ before handle after, x.log = before ++ .issued handle :: after → .freed handle ∈ after →
    (issuedIn after).length < 65535 → Rejected x.state.objects handle

/-- `freeHandle(0)` is not called. -/
def NonzeroFree : HandleCall ω → Prop
  | .freeHandle handle => handle ≠ 0
  | _ => True

instance (c : HandleCall ω) : Decidable (NonzeroFree c) :=
  match c with
  | .freeHandle handle => inferInstanceAs (Decidable (handle ≠ 0))
  | .allocHandle | .setObject _ _ => .isTrue trivial

variable {x : LiveObjects ω} {c : HandleCall ω} {l : List Nat} {h : UInt32}

lemma issuedIn_append (log log' : List (HandleEvent ω)) :
    issuedIn (log ++ log') = issuedIn log ++ issuedIn log' := by
  induction log with
  | nil => rfl
  | cons e log ih =>
    cases e with
    | issued handle => exact congrArg (handle :: ·) ih
    | freed | stored => exact ih

lemma manager_setObject (m : HandleObjects ω) (handle : UInt32) (obj : Option ω) :
    (m.setObject handle obj).manager = m.manager := by
  unfold HandleObjects.setObject
  split <;> rfl

lemma managed_setObject (x : LiveObjects ω) (handle : UInt32) (obj : Option ω) :
    (x.call (.setObject handle obj)).managed = x.managed :=
  congrArg (fun m => Managed.mk m x.live) (manager_setObject x.objects handle obj)

lemma sparesFree_of_ne {x : Managed} (h0 : h ≠ 0) : sparesFree x (.freeHandle h) = true := by
  simp [sparesFree, h0]

lemma Slots.handleCall (hs : Slots x.managed l) (hok : NonzeroFree c) :
    ∃ l', Slots (x.call c).managed l' := by
  cases c with
  | allocHandle => exact hs.call (show sparesFree x.managed .allocHandle = true from rfl)
  | freeHandle handle => exact hs.call (sparesFree_of_ne hok)
  | setObject handle obj =>
    rw [managed_setObject]
    exact ⟨l, hs⟩

lemma Slots.rejected (hs : Slots x.managed l) (hlive : h ∉ x.live)
    (hspare : sparesFree x.managed (.freeHandle h) = true) : Rejected x.objects h := by
  have hnone : x.objects.manager.handleToObj h = none := hs.handleToObj_eq_none hlive hspare
  constructor
  · rw [HandleObjects.getObject, hnone]
  · rw [HandleObjects.freeHandle, EsHandleManager.freeHandle, hnone]
  · intro obj
    rw [HandleObjects.setObject, hnone]

/-- With no free slot the call changes nothing, and no handle is issued. -/
lemma Slots.eq_of_allocHandle {x t : LoggedHandles ω} (hs : Slots x.state.managed [])
    (ht : t.state = x.state.call .allocHandle)
    (hlog : t.log = x.log ++ (x.state.event .allocHandle).toList) : t = x := by
  have hsame : x.state.objects.manager.allocHandle = (0, x.state.objects.manager) :=
    hs.allocHandle_nil
  have h0 : x.state.objects.allocHandle.1 = 0 := by
    rw [HandleObjects.allocHandle, hsame]
  rw [LiveObjects.call, if_pos h0, HandleObjects.allocHandle, hsame] at ht
  rw [LiveObjects.event, if_pos h0, Option.toList_none, List.append_nil] at hlog
  obtain ⟨state, log⟩ := t
  obtain rfl : state = x.state := ht
  obtain rfl : log = x.log := hlog
  rfl

/-- The seed of the next handle. -/
def EsHandleManager.nextSeed (m : EsHandleManager) : UInt16 :=
  if m.mHandleSeed + 1 = 0 then 1 else m.mHandleSeed + 1

lemma toNat_nextSeed (m : EsHandleManager) :
    m.nextSeed.toNat = m.mHandleSeed.toNat % 65535 + 1 := by
  have hlt : m.mHandleSeed.toNat < 65536 := m.mHandleSeed.toNat_lt
  have hadd : (m.mHandleSeed + 1).toNat = (m.mHandleSeed.toNat + 1) % 65536 := by
    rw [UInt16.toNat_add, UInt16.toNat_one]
  unfold EsHandleManager.nextSeed
  split
  · rename_i hzero
    rw [hzero, UInt16.toNat_zero] at hadd
    rw [UInt16.toNat_one]
    omega
  · rename_i hne
    have hne' : (m.mHandleSeed + 1).toNat ≠ 0 := fun h0 => hne (UInt16.toNat_inj.mp h0)
    omega

/-- A handle carries the seed that the manager has after it. -/
lemma allocHandle_seed {m : EsHandleManager} (h : m.allocHandle.1 ≠ 0) :
    m.allocHandle.1.toNat / 65536 = m.nextSeed.toNat ∧
      m.allocHandle.2.mHandleSeed = m.nextSeed := by
  unfold EsHandleManager.allocHandle at h ⊢
  split
  · rename_i p free hpop
    refine ⟨?_, rfl⟩
    have hidx : (m.mRes p).index.toNat < 65536 := (m.mRes p).index.toNat_lt
    dsimp only
    rw [toNat_handle]
    have hseed : m.nextSeed.toNat < 65536 := m.nextSeed.toNat_lt
    change (2 ^ 16 * m.nextSeed.toNat + (m.mRes p).index.toNat) / 65536 = m.nextSeed.toNat
    omega
  · rename_i free hpop
    rw [hpop] at h
    exact absurd rfl h

lemma freeHandle_same (m : EsHandleManager) (handle : UInt32) :
    (m.freeHandle handle).mHandleSeed = m.mHandleSeed ∧
      (m.freeHandle handle).mMaxHandle = m.mMaxHandle := by
  unfold EsHandleManager.freeHandle
  split <;> exact ⟨rfl, rfl⟩

/-- The seeds of the handles follow one another from `s` on, and a handle that was freed and
not issued again is not live. -/
structure WindowInv (x : LoggedHandles ω) (s : Nat) : Prop where
  slots : ∃ l, Slots x.state.managed l
  seeds : ∀ k h, (issuedIn x.log)[k]? = some h → h.toNat / 65536 = (s + k) % 65535 + 1
  next : x.state.objects.manager.mHandleSeed.toNat % 65535 =
    (s + (issuedIn x.log).length) % 65535
  gone : ∀ before handle after, x.log = before ++ .issued handle :: after →
    .freed handle ∈ after → handle ∉ issuedIn after → handle ∉ x.state.live

namespace WindowInv

variable {x t : LoggedHandles ω} {s : Nat}

lemma init {isobjalloc : Bool} (h0 : (handleLog ω isobjalloc).init x) :
    ∃ s, WindowInv x s := by
  obtain ⟨⟨max, seed, listSeed, hdr, info, newObj, -, hx⟩, hlog⟩ := h0
  refine ⟨x.state.objects.manager.mHandleSeed.toNat, ?_, ?_, ?_, ?_⟩
  · rw [hx]
    exact ⟨_, Slots.new max seed listSeed hdr info⟩
  · intro k h hk
    rw [hlog] at hk
    cases hk
  · rw [hlog]
    rfl
  · intro before handle after heq
    rw [hlog] at heq
    simp at heq

/-- Handles less than 65535 apart have different seeds. -/
lemma seed_ne {s i j : Nat} (hlt : i < j) (hij : j < i + 65535) :
    (s + i) % 65535 ≠ (s + j) % 65535 := by
  omega

lemma next_seed (h : WindowInv x s) (hne : x.state.objects.allocHandle.1 ≠ 0) :
    x.state.objects.allocHandle.1.toNat / 65536 =
      (s + (issuedIn x.log).length) % 65535 + 1 := by
  rw [HandleObjects.allocHandle, (allocHandle_seed hne).1, toNat_nextSeed, h.next]

lemma nextFresh (h : WindowInv x s) : NextFresh x := by
  intro hfree
  obtain ⟨l, hs⟩ := h.slots
  have hint := hs.integrity
  have hne : x.state.objects.allocHandle.1 ≠ 0 := hint.succeeds.mpr hfree
  refine ⟨hne, fun hlive => hint.alloc hne _ hlive rfl, fun hmem => ?_⟩
  obtain ⟨k, hk⟩ := List.mem_iff_getElem?.mp hmem
  rw [List.getElem?_drop] at hk
  have hseed := h.seeds _ _ hk
  rw [h.next_seed hne] at hseed
  have hlt := (List.getElem?_eq_some_iff.mp hk).1
  exact seed_ne hlt (by omega) (Nat.add_right_cancel hseed).symm

lemma staleRejected (h : WindowInv x s) : StaleRejected x := by
  intro before handle after hlog hfreed hwindow
  obtain ⟨l, hs⟩ := h.slots
  have hissued : issuedIn x.log = issuedIn before ++ handle :: issuedIn after := by
    rw [hlog, issuedIn_append]
    rfl
  have hfirst : (issuedIn x.log)[(issuedIn before).length]? = some handle := by
    rw [hissued, List.getElem?_append_right (Nat.le_refl _), Nat.sub_self]
    rfl
  have hseed := h.seeds _ _ hfirst
  have hagain : handle ∉ issuedIn after := by
    intro hmem
    obtain ⟨k, hk⟩ := List.mem_iff_getElem?.mp hmem
    have hlt := (List.getElem?_eq_some_iff.mp hk).1
    have hlater : (issuedIn x.log)[(issuedIn before).length + (k + 1)]? = some handle := by
      rw [hissued, List.getElem?_append_right (Nat.le_add_right _ _), Nat.add_sub_cancel_left,
        List.getElem?_cons_succ]
      exact hk
    have hseed' := h.seeds _ _ hlater
    rw [hseed] at hseed'
    refine seed_ne ?_ ?_ (Nat.add_right_cancel hseed')
    · exact Nat.lt_add_of_pos_right (Nat.succ_pos k)
    · omega
  have h0 : handle ≠ 0 := by
    rintro rfl
    rw [UInt32.toNat_zero] at hseed
    omega
  exact hs.rejected (h.gone before handle after hlog hfreed hagain) (sparesFree_of_ne h0)

/-- A handle goes when it is freed and comes back only when it is issued. -/
lemma gone_concat (h : WindowInv x s) {e : HandleEvent ω} {live : List UInt32}
    (hsub : ∀ g ∈ live, g ∈ x.state.live ∨ e = .issued g)
    (hfreed : ∀ g, e = .freed g → g ∉ live) :
    ∀ before handle after, x.log ++ [e] = before ++ .issued handle :: after →
      .freed handle ∈ after → handle ∉ issuedIn after → handle ∉ live := by
  intro before handle after hlog hin hagain hlive
  rcases concat_eq_append_cons hlog with ⟨after', rfl, hlog'⟩ | ⟨rfl, -⟩
  · rw [issuedIn_append, List.mem_append, not_or] at hagain
    rcases List.mem_append.mp hin with hin | hin
    · rcases hsub handle hlive with hold | rfl
      · exact h.gone before handle after' hlog' hin hagain.1 hold
      · exact hagain.2 List.mem_cons_self
    · exact hfreed handle (List.mem_singleton.mp hin).symm hlive
  · cases hin

lemma allocHandle (h : WindowInv x s) (hne : x.state.objects.allocHandle.1 ≠ 0)
    (ht : t.state = x.state.call .allocHandle)
    (hlog : t.log = x.log ++ [.issued x.state.objects.allocHandle.1]) : WindowInv t s := by
  obtain ⟨l, hs⟩ := h.slots
  have hissued : issuedIn t.log = issuedIn x.log ++ [x.state.objects.allocHandle.1] := by
    rw [hlog, issuedIn_append]
    rfl
  have hlive : t.state.live = x.state.live ++ [x.state.objects.allocHandle.1] := by
    rw [ht, LiveObjects.call, if_neg hne]
  have hseed : t.state.objects.manager.mHandleSeed = x.state.objects.manager.nextSeed := by
    rw [ht]
    exact (allocHandle_seed hne).2
  constructor
  · rw [ht]
    exact hs.handleCall (c := .allocHandle) trivial
  · intro k g hk
    rw [hissued] at hk
    rcases Nat.lt_or_ge k (issuedIn x.log).length with hlt | hge
    · rw [List.getElem?_append_left hlt] at hk
      exact h.seeds k g hk
    · have hkn := (List.getElem?_eq_some_iff.mp hk).1
      rw [List.length_append, List.length_singleton] at hkn
      obtain rfl : k = (issuedIn x.log).length := by omega
      rw [List.getElem?_append_right hge, Nat.sub_self] at hk
      obtain rfl := Option.some.inj hk
      exact h.next_seed hne
  · rw [hseed, toNat_nextSeed, h.next, hissued, List.length_append, List.length_singleton]
    omega
  · rw [hlog, hlive]
    apply h.gone_concat
    · intro g hg
      rcases List.mem_append.mp hg with hg | hg
      · exact .inl hg
      · exact .inr (congrArg _ (List.mem_singleton.mp hg).symm)
    · intro g heq
      cases heq

/-- A step that issues nothing and leaves the seed. -/
lemma of_not_issued (h : WindowInv x s) {e : HandleEvent ω} (he : issuedIn [e] = [])
    (hlog : t.log = x.log ++ [e]) (hslots : ∃ l, Slots t.state.managed l)
    (hseed : t.state.objects.manager.mHandleSeed = x.state.objects.manager.mHandleSeed)
    (hsub : ∀ g ∈ t.state.live, g ∈ x.state.live)
    (hfreed : ∀ g, e = .freed g → g ∉ t.state.live) : WindowInv t s := by
  have hissued : issuedIn t.log = issuedIn x.log := by
    rw [hlog, issuedIn_append, he, List.append_nil]
  constructor
  · exact hslots
  · rw [hissued]
    exact h.seeds
  · rw [hseed, hissued]
    exact h.next
  · rw [hlog]
    exact h.gone_concat (fun g hg => .inl (hsub g hg)) hfreed

lemma step {isobjalloc : Bool} (h : WindowInv x s) (hok : NonzeroFree c)
    (hs : (handleLog ω isobjalloc).step x c = some t) : WindowInv t s := by
  obtain ⟨hstep, hlog⟩ := recorded_step hs
  have ht : t.state = x.state.call c := (Option.some.inj hstep).symm
  obtain ⟨l, hslots⟩ := h.slots
  have hslots' : ∃ l, Slots t.state.managed l := by
    rw [ht]
    exact hslots.handleCall hok
  cases c with
  | allocHandle =>
    cases l with
    | nil => exact hslots.eq_of_allocHandle ht hlog ▸ h
    | cons p l =>
      have hne : x.state.objects.allocHandle.1 ≠ 0 := hslots.allocHandle_cons.2.1
      rw [LiveObjects.event, if_neg hne] at hlog
      exact h.allocHandle hne ht hlog
  | freeHandle handle =>
    refine h.of_not_issued rfl hlog hslots' ?_ ?_ ?_
    · rw [ht]
      exact (freeHandle_same ..).1
    · rw [ht]
      exact fun g hg => List.mem_of_mem_erase hg
    · intro g heq
      obtain rfl := HandleEvent.freed.inj heq
      have hnd : x.state.live.Nodup := .of_map HIDX (List.nodup_append'.mp hslots.nodup).2.1
      rw [ht]
      exact hnd.not_mem_erase
  | setObject handle obj =>
    refine h.of_not_issued rfl hlog hslots' ?_ ?_ ?_
    · rw [ht]
      exact congrArg EsHandleManager.mHandleSeed (manager_setObject ..)
    · rw [ht]
      exact fun g hg => hg
    · intro g heq
      cases heq

end WindowInv

/-- In every run in which `freeHandle` is not given 0, the handle that `allocHandle` returns
while a slot is free is none of the last 65534, and a handle that was freed is rejected until
65535 more have been issued. -/
theorem stale_handles_rejected {isobjalloc : Bool} {x : LoggedHandles ω}
    (h : (handleLog ω isobjalloc).Reaches (fun _ c => NonzeroFree c) x) :
    NextFresh x ∧ StaleRejected x := by
  have hI : ∃ s, WindowInv x s := by
    refine h.invariant (I := fun x => ∃ s, WindowInv x s) ?_ ?_
    · intro x h0
      exact WindowInv.init h0
    · rintro x c t - ⟨s, hI⟩ hok hs
      exact ⟨s, hI.step hok hs⟩
  obtain ⟨s, hI⟩ := hI
  exact ⟨hI.nextFresh, hI.staleRejected⟩

/-- A manager of `max` slots without objects, in memory that was zero. -/
def zeroedObjects (max : UInt16) : LoggedHandles ω :=
  ⟨⟨⟨(zeroed max).manager, fun _ => none⟩, []⟩, []⟩

lemma zeroedObjects_init (max : UInt16) :
    (handleLog ω false).init (zeroedObjects max) :=
  ⟨⟨max, 0, 1, _, _, none, rfl, rfl⟩, rfl⟩

/-- The slot of a freed handle has been given out again. -/
theorem stale_handles_rejected_reused : ∃ x : LoggedHandles Nat,
    (handleLog Nat false).Reaches (fun _ c => NonzeroFree c) x ∧ x.state.live = [131072] ∧
      NextFresh x ∧ StaleRejected x := by
  obtain ⟨x, hr, hx⟩ := System.exists_of_exec_restrict (M := handleLog Nat false)
    (T := fun _ c => decide (NonzeroFree c)) (zeroedObjects_init 1)
    (l := [.allocHandle, .freeHandle 65536, .allocHandle]) (f := fun x => x.state.live)
    (b := [131072]) (by decide +kernel)
  have hr' := hr.mono fun _ _ hok => of_decide_eq_true hok
  exact ⟨x, hr', hx, stale_handles_rejected hr'⟩

/-- A manager with one slot after it was given out and freed `n` times. -/
structure Cycled (x : LoggedHandles ω) (n : Nat) : Prop where
  reached : (handleLog ω false).Reaches (fun _ c => NonzeroFree c) x
  slots : Slots x.state.managed [0]
  live : x.state.live = []
  seed : x.state.objects.manager.mHandleSeed.toNat = n
  issued : (issuedIn x.log).length = n
  start : n = 0 → x.log = []
  first : 0 < n → ∃ after, x.log = .issued 65536 :: after ∧ .freed 65536 ∈ after

namespace Cycled

variable {x : LoggedHandles ω} {n : Nat}

lemma handle (h : Cycled x n) : x.state.objects.allocHandle.1 ≠ 0 ∧
    x.state.objects.allocHandle.1.toNat = 65536 * (n % 65535 + 1) := by
  obtain ⟨-, hne, hidx⟩ := h.slots.allocHandle_cons
  have hseed := (allocHandle_seed hne).1
  rw [HIDX_eq_mod] at hidx
  rw [toNat_nextSeed] at hseed
  have hn := h.seed
  refine ⟨hne, ?_⟩
  change x.state.objects.manager.allocHandle.1.toNat = _
  change x.state.objects.manager.allocHandle.1.toNat % 65536 = 0 at hidx
  change x.state.objects.manager.allocHandle.1.toNat / 65536 =
    x.state.objects.manager.mHandleSeed.toNat % 65535 + 1 at hseed
  omega

lemma alloc (h : Cycled x n) : (handleLog ω false).Reaches (fun _ c => NonzeroFree c)
      ⟨x.state.call .allocHandle, x.log ++ [.issued x.state.objects.allocHandle.1]⟩ ∧
    (x.state.call .allocHandle).live = [x.state.objects.allocHandle.1] ∧
    Slots (x.state.call .allocHandle).managed [] := by
  obtain ⟨hne, -⟩ := h.handle
  have hs : (handleLog ω false).step x .allocHandle =
      some ⟨x.state.call .allocHandle, x.log ++ [.issued x.state.objects.allocHandle.1]⟩ := by
    change some (Recorded.mk _ (x.log ++ (x.state.event .allocHandle).toList)) = _
    rw [LiveObjects.event, if_neg hne]
    rfl
  have hok : NonzeroFree (.allocHandle : HandleCall ω) := trivial
  refine ⟨.step h.reached hok hs, ?_, h.slots.allocHandle_cons.1⟩
  rw [LiveObjects.call, if_neg hne, h.live]
  rfl

lemma next (h : Cycled x n) (hn : n < 65535) : ∃ y : LoggedHandles ω, Cycled y (n + 1) := by
  obtain ⟨hne, hval⟩ := h.handle
  obtain ⟨hreach, hlive, hslots⟩ := h.alloc
  generalize hg : x.state.objects.allocHandle.1 = g at hne hval hreach hlive
  have hok : NonzeroFree (.freeHandle g : HandleCall ω) := hne
  obtain ⟨l, hslots'⟩ := hslots.handleCall hok
  have hgone : ((x.state.call .allocHandle).call (.freeHandle g)).live = [] := by
    change (x.state.call .allocHandle).live.erase g = []
    rw [hlive]
    simp
  have hseed : (x.state.call .allocHandle).objects.manager.mHandleSeed.toNat = n + 1 := by
    have hnext := (allocHandle_seed (m := x.state.objects.manager) (hg ▸ hne)).2
    change x.state.objects.manager.allocHandle.2.mHandleSeed.toNat = n + 1
    rw [hnext, toNat_nextSeed, h.seed, Nat.mod_eq_of_lt hn]
  have hlist : l = [0] := by
    have hlen := hslots.length
    have hperm := hslots'.slots
    change (l ++ ((x.state.call .allocHandle).call (.freeHandle g)).live.map HIDX).Perm
      (List.range ((x.state.call .allocHandle).objects.manager.freeHandle g).mMaxHandle.toNat)
      at hperm
    change 0 + (x.state.call .allocHandle).live.length =
      (x.state.call .allocHandle).objects.manager.mMaxHandle.toNat at hlen
    rw [hlive] at hlen
    rw [hgone, (freeHandle_same ..).2, ← hlen, List.map_nil, List.append_nil] at hperm
    exact List.perm_singleton.mp hperm
  subst hlist
  refine ⟨⟨(x.state.call .allocHandle).call (.freeHandle g),
    x.log ++ [.issued g] ++ [.freed g]⟩, .step hreach hok rfl, hslots', hgone, ?_, ?_, ?_,
    fun _ => ?_⟩
  · exact (congrArg UInt16.toNat (freeHandle_same ..).1).trans hseed
  · rw [issuedIn_append, issuedIn_append, List.length_append, List.length_append, h.issued]
    rfl
  · exact fun h0 => absurd h0 (Nat.succ_ne_zero n)
  · rcases Nat.eq_zero_or_pos n with rfl | hpos
    · have hfirst : g = 65536 := UInt32.toNat_inj.mp hval
      rw [h.start rfl, hfirst]
      exact ⟨[.freed 65536], rfl, List.mem_singleton_self _⟩
    · obtain ⟨after, hlog, hin⟩ := h.first hpos
      rw [hlog]
      exact ⟨after ++ [.issued g] ++ [.freed g], rfl,
        List.mem_append_left _ (List.mem_append_left _ hin)⟩

lemma exists_of_le (hn : n ≤ 65535) : ∃ x : LoggedHandles ω, Cycled x n := by
  induction n with
  | zero =>
    refine ⟨zeroedObjects 1, .init (zeroedObjects_init 1), Slots.new .., rfl, rfl, rfl,
      fun _ => rfl, fun h0 => absurd h0 (Nat.lt_irrefl 0)⟩
  | succ n ih =>
    obtain ⟨x, h⟩ := ih (by omega)
    exact h.next (by omega)

end Cycled

/-- After 65535 more handles the first one comes again, and is taken for the one it was. -/
theorem stale_handle_accepted : ∃ (x : LoggedHandles ω) (handle : UInt32)
    (after : List (HandleEvent ω)),
    (handleLog ω false).Reaches (fun _ c => NonzeroFree c) x ∧ x.log = .issued handle :: after ∧
      .freed handle ∈ after ∧ (issuedIn after).length = 65535 ∧
      ¬ Rejected x.state.objects handle := by
  obtain ⟨x, h⟩ : ∃ x : LoggedHandles ω, Cycled x 65535 := Cycled.exists_of_le (Nat.le_refl _)
  obtain ⟨-, hval⟩ := h.handle
  obtain ⟨hreach, hlive, hslots⟩ := h.alloc
  have hg : x.state.objects.allocHandle.1 = 65536 := UInt32.toNat_inj.mp hval
  rw [hg] at hreach hlive
  obtain ⟨after, hlog, hin⟩ := h.first (by decide)
  have hlen := h.issued
  rw [hlog] at hlen
  refine ⟨_, 65536, after ++ [.issued 65536], hreach, ?_, List.mem_append_left _ hin, ?_, ?_⟩
  · rw [hlog]
    rfl
  · rw [issuedIn_append, List.length_append]
    exact hlen
  · intro hr
    have hin' : 65536 ∈ (x.state.call .allocHandle).managed.live := by
      rw [LiveObjects.managed, hlive]
      exact List.mem_singleton_self _
    have hobj := hslots.handleToObj_live hin'
    have hsame := congrArg (fun m => (m.manager.mRes 0).handle) hr.freeHandle
    have hslot : ((x.state.call .allocHandle).objects.manager.mRes 0).handle = 65536 :=
      (hslots.live 65536 hin').1
    have hzero : (((x.state.call .allocHandle).objects.manager.freeHandle 65536).mRes 0).handle =
        0 := by
      rw [EsHandleManager.freeHandle, show (x.state.call .allocHandle).objects.manager.handleToObj
        65536 = some 0 from hobj]
      dsimp only
      rw [Function.update_self]
    exact absurd (hzero.symm.trans (hsame.trans hslot)) (by decide)

end EdNio.Container
