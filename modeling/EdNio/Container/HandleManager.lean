import EdNio.Container.EsList
import EdNio.Library.MachineInt
import EdNio.Library.Transition
import Mathlib.Data.List.Perm.Lattice

/-!
# EsHandleManager

A handle is the index of a slot below a seed. The slots that are free are on a list.
-/

namespace EdNio.Container
open LinkedList MachineInt Transition

structure HandleInfo where
  handle : UInt32
  index : UInt16

/-- `mHandleFreeList` holds the links of the nodes of `mRes` too. -/
structure EsHandleManager where
  mMaxHandle : UInt16
  mHandleFreeList : Lists Unit Nat
  mRes : Nat → HandleInfo
  mHandleSeed : UInt16

def HIDX (h : UInt32) : Nat := (0x0000ffff &&& h).toNat

namespace EsHandleManager

variable (m : EsHandleManager)

/-- A pass of the loop of the constructor. -/
def addSlot (i : Nat) : EsHandleManager :=
  { m with
    mRes := Function.update m.mRes i ⟨0, UInt16.ofNat i⟩
    mHandleFreeList := m.mHandleFreeList.add () i }

/-- `hdr` and `info` are what is in the memory of the new nodes, `listSeed` is the seed of the
list. -/
def new (max mHandleSeed : UInt16) (listSeed : UInt32) (hdr : Nat → ListHdr Unit Nat)
    (info : Nat → HandleInfo) : EsHandleManager :=
  (List.range max.toNat).foldl addSlot
    ⟨max, ⟨hdr, fun _ => ⟨none, none, listSeed, 0⟩⟩, info, mHandleSeed⟩

/-- `HANDLE_TO_OBJ`. -/
def handleToObj (handle : UInt32) : Option Nat :=
  if m.mMaxHandle.toNat ≤ HIDX handle then none
  else if (m.mRes (HIDX handle)).handle = handle then some (HIDX handle)
  else none

def allocHandle : UInt32 × EsHandleManager :=
  match m.mHandleFreeList.popHead () with
  | (some p, free) =>
    let seed := if m.mHandleSeed + 1 = 0 then 1 else m.mHandleSeed + 1
    let handle := seed.toUInt32 <<< 16 ||| (m.mRes p).index.toUInt32
    (handle, { m with
      mHandleFreeList := free
      mHandleSeed := seed
      mRes := Function.update m.mRes p { m.mRes p with handle := handle } })
  | (none, free) => (0, { m with mHandleFreeList := free })

def freeHandle (handle : UInt32) : EsHandleManager :=
  match m.handleToObj handle with
  | some p =>
    { m with
      mRes := Function.update m.mRes p { m.mRes p with handle := 0 }
      mHandleFreeList := m.mHandleFreeList.add () p }
  | none => m

def getHandleCount : Int :=
  m.mMaxHandle.toNat - toI32 (m.mHandleFreeList.vars ()).mSize.toNat

end EsHandleManager

/-- The manager and the handles that it has given out and not taken back. -/
structure Managed where
  manager : EsHandleManager
  live : List UInt32

inductive HandleOp
  | allocHandle
  | freeHandle (handle : UInt32)
deriving DecidableEq, Repr

def Managed.call (x : Managed) : HandleOp → Managed
  | .allocHandle =>
    ⟨x.manager.allocHandle.2,
      if x.manager.allocHandle.1 = 0 then x.live else x.live ++ [x.manager.allocHandle.1]⟩
  | .freeHandle handle => ⟨x.manager.freeHandle handle, x.live.erase handle⟩

def handles : System Managed HandleOp where
  init x := ∃ max seed listSeed hdr info, 1 ≤ max.toNat ∧
    x = ⟨.new max seed listSeed hdr info, []⟩
  step x op := some (x.call op)

/-- The free list holds the slots without a live handle, and the answers fit it. -/
structure Integrity (x : Managed) : Prop where
  free : ∃ l : List Nat,
    Segment (fun i => (x.manager.mHandleFreeList.hdr i).next)
      (x.manager.mHandleFreeList.vars ()).mphead l none ∧
    l.Nodup ∧ ∀ i, i ∈ l ↔ i < x.manager.mMaxHandle.toNat ∧ ∀ h ∈ x.live, HIDX h ≠ i
  alloc : x.manager.allocHandle.1 ≠ 0 → ∀ h ∈ x.live, HIDX h ≠ HIDX x.manager.allocHandle.1
  succeeds : x.manager.allocHandle.1 ≠ 0 ↔ x.live.length < x.manager.mMaxHandle.toNat
  count : x.manager.getHandleCount = x.live.length

/-- `freeHandle(0)` is not called while slot 0 is free. -/
def sparesFree (x : Managed) : HandleOp → Bool
  | .allocHandle => true
  | .freeHandle handle => handle != 0 || (x.manager.mRes 0).handle != 0

/-- The slots are those of `l`, which are free, and those of the live handles. -/
structure Slots (x : Managed) (l : List Nat) : Prop where
  list : x.manager.mHandleFreeList.IsList () l
  slots : (l ++ x.live.map HIDX).Perm (List.range x.manager.mMaxHandle.toNat)
  index : ∀ i, i < x.manager.mMaxHandle.toNat → (x.manager.mRes i).index = UInt16.ofNat i
  free : ∀ i ∈ l, (x.manager.mRes i).handle = 0
  live : ∀ h ∈ x.live, (x.manager.mRes (HIDX h)).handle = h ∧ h ≠ 0

lemma HIDX_eq_mod (h : UInt32) : HIDX h = h.toNat % 65536 := by
  rw [HIDX, UInt32.toNat_and, Nat.and_comm]
  exact Nat.and_two_pow_sub_one_eq_mod h.toNat 16

lemma toNat_handle (seed index : UInt16) :
    (seed.toUInt32 <<< 16 ||| index.toUInt32).toNat = 2 ^ 16 * seed.toNat + index.toNat := by
  have hs : seed.toNat < 65536 := seed.toNat_lt
  have hi : index.toNat < 2 ^ 16 := index.toNat_lt
  rw [UInt32.toNat_or, UInt32.toNat_shiftLeft, UInt16.toNat_toUInt32, UInt16.toNat_toUInt32,
    Nat.shiftLeft_eq, Nat.two_pow_add_eq_or_of_lt hi]
  congr 1
  simp only [UInt32.reduceToNat, Nat.reduceMod, Nat.reducePow]
  omega

/-- A handle is the index of its slot and its seed, which is not zero. -/
lemma HIDX_handle (seed index : UInt16) :
    HIDX (seed.toUInt32 <<< 16 ||| index.toUInt32) = index.toNat ∧
      (seed ≠ 0 → seed.toUInt32 <<< 16 ||| index.toUInt32 ≠ 0) := by
  have hi : index.toNat < 2 ^ 16 := index.toNat_lt
  have hval := toNat_handle seed index
  constructor
  · rw [HIDX_eq_mod, hval]
    omega
  · intro hne heq
    rw [heq] at hval
    apply hne
    apply UInt16.toNat_inj.mp
    simp only [UInt32.toNat_zero, Nat.reducePow] at hval
    simp only [UInt16.toNat_zero]
    omega

variable {x : Managed} {l : List Nat}

/-- The constructor after `n` passes of its loop. -/
lemma slots_foldl (m : EsHandleManager) (hm : m.mHandleFreeList.IsList () []) (n : Nat) :
    ((List.range n).foldl EsHandleManager.addSlot m).mHandleFreeList.IsList () (List.range n) ∧
      ((List.range n).foldl EsHandleManager.addSlot m).mMaxHandle = m.mMaxHandle ∧
      ∀ i, i < n →
        ((List.range n).foldl EsHandleManager.addSlot m).mRes i = ⟨0, UInt16.ofNat i⟩ := by
  induction n with
  | zero => exact ⟨hm, rfl, fun i hi => absurd hi (Nat.not_lt_zero i)⟩
  | succ n ih =>
    obtain ⟨hl, hmax, hres⟩ := ih
    rw [List.range_succ, List.foldl_append, List.foldl_cons, List.foldl_nil]
    refine ⟨hl.add (by simp), hmax, fun i hi => ?_⟩
    by_cases hin : i = n
    · subst hin
      exact Function.update_self ..
    · exact (Function.update_of_ne hin ..).trans (hres i (by omega))

lemma Slots.new (max seed : UInt16) (listSeed : UInt32) (hdr : Nat → ListHdr Unit Nat)
    (info : Nat → HandleInfo) :
    Slots ⟨.new max seed listSeed hdr info, []⟩ (List.range max.toNat) := by
  obtain ⟨hl, hmax, hres⟩ := slots_foldl
    ⟨max, ⟨hdr, fun _ => ⟨none, none, listSeed, 0⟩⟩, info, seed⟩ ⟨Linked.nil, by simp, rfl⟩
    max.toNat
  constructor
  · exact hl
  · rw [List.map_nil, List.append_nil]
    exact .of_eq (congrArg (fun n : UInt16 => List.range n.toNat) hmax.symm)
  · intro i hi
    exact congrArg HandleInfo.index (hres i (lt_of_lt_of_eq hi (congrArg UInt16.toNat hmax)))
  · intro i hi
    exact congrArg HandleInfo.handle (hres i (List.mem_range.mp hi))
  · simp

lemma Slots.nodup (h : Slots x l) : (l ++ x.live.map HIDX).Nodup :=
  h.slots.nodup_iff.mpr List.nodup_range

lemma Slots.mem (h : Slots x l) (i : Nat) :
    i < x.manager.mMaxHandle.toNat ↔ i ∈ l ∨ ∃ g ∈ x.live, HIDX g = i := by
  rw [← List.mem_range, ← h.slots.mem_iff, List.mem_append, List.mem_map]

lemma Slots.length (h : Slots x l) :
    l.length + x.live.length = x.manager.mMaxHandle.toNat := by
  have hlen := h.slots.length_eq
  rwa [List.length_append, List.length_map, List.length_range] at hlen

/-- `allocHandle` takes the first free slot, with a handle that names it. -/
lemma Slots.allocHandle_eq {p : Nat} (h : Slots x (p :: l)) :
    ∃ g seed, g ≠ 0 ∧ HIDX g = p ∧ x.manager.allocHandle = (g, { x.manager with
      mHandleFreeList := x.manager.mHandleFreeList.del () p
      mHandleSeed := seed
      mRes := Function.update x.manager.mRes p { x.manager.mRes p with handle := g } }) := by
  have hp : p < x.manager.mMaxHandle.toNat := (h.mem p).mpr (.inl List.mem_cons_self)
  have hmax : x.manager.mMaxHandle.toNat < 2 ^ 16 := x.manager.mMaxHandle.toNat_lt
  generalize hseed : (if x.manager.mHandleSeed + 1 = 0 then 1
    else x.manager.mHandleSeed + 1) = seed
  have hseed' : seed ≠ 0 := by
    rw [← hseed]
    split
    · decide
    · assumption
  generalize hg : seed.toUInt32 <<< 16 ||| (UInt16.ofNat p).toUInt32 = g
  obtain ⟨hidx, hne⟩ := HIDX_handle seed (UInt16.ofNat p)
  rw [hg, UInt16.toNat_ofNat', Nat.mod_eq_of_lt (by omega)] at hidx
  refine ⟨g, seed, hg ▸ hne hseed', hidx, ?_⟩
  rw [EsHandleManager.allocHandle, h.list.popHead_cons.1]
  dsimp only
  rw [hseed, h.index p hp, hg]

lemma Slots.allocHandle_cons {p : Nat} (h : Slots x (p :: l)) :
    Slots (x.call .allocHandle) l ∧ x.manager.allocHandle.1 ≠ 0 ∧
      HIDX x.manager.allocHandle.1 = p := by
  have hlist := h.list.popHead_cons.2
  have hnd := h.nodup
  rw [List.cons_append, List.nodup_cons, List.mem_append, not_or] at hnd
  obtain ⟨g, seed, hg0, hidx, halloc⟩ := h.allocHandle_eq
  have hcall : x.call .allocHandle = ⟨x.manager.allocHandle.2, x.live ++ [g]⟩ := by
    rw [Managed.call, halloc]
    dsimp only
    rw [if_neg hg0]
  rw [hcall, halloc]
  refine ⟨?_, hg0, hidx⟩
  constructor
  all_goals dsimp only
  · exact hlist
  · rw [List.map_append, List.map_singleton, hidx, ← List.append_assoc]
    exact (List.perm_append_singleton p _).trans h.slots
  · intro i hi
    by_cases hip : i = p
    · subst hip
      rw [Function.update_self]
      exact h.index i hi
    · rw [Function.update_of_ne hip]
      exact h.index i hi
  · intro i hi
    have hip : i ≠ p := by
      rintro rfl
      exact hnd.1.1 hi
    rw [Function.update_of_ne hip]
    exact h.free i (List.mem_cons_of_mem _ hi)
  · intro f hf
    rw [List.mem_append, List.mem_singleton] at hf
    rcases hf with hf | rfl
    · have hfp : HIDX f ≠ p := fun heq => hnd.1.2 (heq ▸ List.mem_map_of_mem hf)
      rw [Function.update_of_ne hfp]
      exact h.live f hf
    · rw [hidx, Function.update_self]
      exact ⟨rfl, hg0⟩

lemma Slots.allocHandle_nil (h : Slots x []) :
    x.manager.allocHandle = (0, x.manager) := by
  rw [EsHandleManager.allocHandle, h.list.popHead_nil]

lemma Slots.integrity (h : Slots x l) : Integrity x := by
  have hlen := h.length
  have hmax : x.manager.mMaxHandle.toNat < 2 ^ 16 := x.manager.mMaxHandle.toNat_lt
  have hnd := List.nodup_append'.mp h.nodup
  have hfree : ∀ i, i ∈ l ↔ i < x.manager.mMaxHandle.toNat ∧ ∀ g ∈ x.live, HIDX g ≠ i := by
    intro i
    rw [h.mem]
    constructor
    · intro hi
      refine ⟨.inl hi, ?_⟩
      rintro g hg rfl
      exact hnd.2.2 hi (List.mem_map_of_mem hg)
    · rintro ⟨hi | ⟨g, hg, heq⟩, hno⟩
      · exact hi
      · exact absurd heq (hno g hg)
  refine ⟨⟨l, h.list.linked.forward, hnd.1, hfree⟩, ?_, ?_, ?_⟩
  · cases l with
    | nil =>
      rw [h.allocHandle_nil]
      exact fun hne => absurd rfl hne
    | cons p l =>
      intro _ g hg
      rw [h.allocHandle_cons.2.2]
      exact ((hfree p).mp List.mem_cons_self).2 g hg
  · cases l with
    | nil =>
      rw [h.allocHandle_nil]
      simp only [List.length_nil] at hlen
      simp only [ne_eq, not_true_eq_false, false_iff]
      omega
    | cons p l =>
      rw [List.length_cons] at hlen
      exact ⟨fun _ => by omega, fun _ => h.allocHandle_cons.2.1⟩
  · rw [EsHandleManager.getHandleCount, h.list.size, UInt32.toNat_ofNat',
      Nat.mod_eq_of_lt (by omega), toI32_eq (by omega) (by omega)]
    omega

/-- A handle that is not live is ignored, unless it is 0 and slot 0 is free. -/
lemma Slots.handleToObj_eq_none (h : Slots x l) {g : UInt32} (hg : g ∉ x.live)
    (hspare : sparesFree x (.freeHandle g) = true) : x.manager.handleToObj g = none := by
  rw [EsHandleManager.handleToObj]
  split
  · rfl
  · rename_i hlt
    rw [if_neg]
    intro heq
    rcases (h.mem (HIDX g)).mp (by omega) with hl | ⟨f, hf, hfg⟩
    · have hzero : g = 0 := heq.symm.trans (h.free _ hl)
      subst hzero
      have hslot : (x.manager.mRes 0).handle = 0 := heq
      simp [sparesFree, hslot] at hspare
    · rw [← hfg, (h.live f hf).1] at heq
      exact hg (heq ▸ hf)

lemma Slots.handleToObj_live (h : Slots x l) {g : UInt32} (hg : g ∈ x.live) :
    x.manager.handleToObj g = some (HIDX g) := by
  have hlt : HIDX g < x.manager.mMaxHandle.toNat := (h.mem _).mpr (.inr ⟨g, hg, rfl⟩)
  rw [EsHandleManager.handleToObj, if_neg (by omega), if_pos (h.live g hg).1]

lemma Slots.freeHandle (h : Slots x l) {g : UInt32}
    (hspare : sparesFree x (.freeHandle g) = true) :
    ∃ l', Slots (x.call (.freeHandle g)) l' := by
  by_cases hg : g ∈ x.live
  · have hnd := List.nodup_append'.mp h.nodup
    have hgl : HIDX g ∉ l := fun hl => hnd.2.2 hl (List.mem_map_of_mem hg)
    refine ⟨l ++ [HIDX g], ?_⟩
    rw [Managed.call, EsHandleManager.freeHandle, h.handleToObj_live hg]
    constructor
    all_goals dsimp only
    · exact h.list.add hgl
    · have hperm := ((List.perm_cons_erase hg).map HIDX).symm
      rw [List.append_assoc, List.singleton_append, ← List.map_cons]
      exact (hperm.append_left l).trans h.slots
    · intro i hi
      by_cases hig : i = HIDX g
      · subst hig
        rw [Function.update_self]
        exact h.index _ hi
      · rw [Function.update_of_ne hig]
        exact h.index i hi
    · intro i hi
      by_cases hig : i = HIDX g
      · subst hig
        rw [Function.update_self]
      · rw [Function.update_of_ne hig]
        rw [List.mem_append, List.mem_singleton] at hi
        exact h.free i (hi.resolve_right hig)
    · intro f hf
      have hflive : f ∈ x.live := List.mem_of_mem_erase hf
      have hfg : HIDX f ≠ HIDX g := by
        intro heq
        have hfeq : f = g := by
          rw [← (h.live f hflive).1, heq, (h.live g hg).1]
        have hlive := List.Nodup.of_map HIDX hnd.2.1
        exact (hlive.mem_erase_iff.mp hf).1 hfeq
      rw [Function.update_of_ne hfg]
      exact h.live f hflive
  · refine ⟨l, ?_⟩
    rw [Managed.call, EsHandleManager.freeHandle, h.handleToObj_eq_none hg hspare,
      List.erase_of_not_mem hg]
    exact h

lemma Slots.call (h : Slots x l) {op : HandleOp} (hspare : sparesFree x op = true) :
    ∃ l', Slots (x.call op) l' := by
  cases op with
  | allocHandle =>
    cases l with
    | nil =>
      refine ⟨[], ?_⟩
      rw [Managed.call, h.allocHandle_nil]
      exact h
    | cons p l => exact ⟨l, h.allocHandle_cons.1⟩
  | freeHandle g => exact h.freeHandle hspare

/-- The free list and the live handles share the slots, as long as `freeHandle(0)` is not
called while slot 0 is free. -/
theorem free_list_integrity {x : Managed}
    (hr : handles.Reaches (fun x op => sparesFree x op = true) x) : Integrity x := by
  have hslots : ∃ l, Slots x l := by
    refine hr.invariant (I := fun x => ∃ l, Slots x l) ?_ ?_
    · rintro _ ⟨max, seed, listSeed, hdr, info, -, rfl⟩
      exact ⟨_, Slots.new max seed listSeed hdr info⟩
    · rintro x op _ - ⟨l, h⟩ hspare heq
      obtain rfl := Option.some.inj heq
      exact h.call hspare
  obtain ⟨l, h⟩ := hslots
  exact h.integrity

/-- A manager of `max` slots in memory that was zero. -/
def zeroed (max : UInt16) : Managed :=
  ⟨.new max 0 1 (fun _ => ⟨none, none, 0, none⟩) (fun _ => ⟨0, 0⟩), []⟩

lemma zeroed_init (max : UInt16) (h : 1 ≤ max.toNat) : handles.init (zeroed max) :=
  ⟨max, 0, 1, _, _, h, rfl⟩

/-- A handle freed twice. -/
theorem free_list_integrity_stale :
    ∃ x, handles.Reaches (fun x op => sparesFree x op = true) x ∧ x.live = [131073, 196608] ∧
      Integrity x := by
  obtain ⟨x, hr, hx⟩ := System.exists_of_exec_restrict (M := handles) (T := sparesFree)
    (zeroed_init 2 (by decide))
    (show ((handles.restrict sparesFree).exec (zeroed 2) [.allocHandle, .allocHandle,
      .freeHandle 65536, .freeHandle 65536, .freeHandle 7, .allocHandle]).map Managed.live =
        some [131073, 196608] by decide +kernel)
  exact ⟨x, hr, hx, free_list_integrity hr⟩

/-- Slot 0 is put on the list a second time and given out twice. -/
theorem not_free_list_integrity : ¬ ∀ x, handles.Reachable x → Integrity x := by
  intro h
  obtain ⟨x, hr, hx⟩ := System.exists_of_exec (M := handles)
    (f := fun x => (x.live, x.manager.allocHandle.1)) (zeroed_init 1 (by decide))
    (show (handles.exec (zeroed 1) [.freeHandle 0, .allocHandle]).map
      (fun x => (x.live, x.manager.allocHandle.1)) = some ([65536], 131072) by decide +kernel)
  obtain ⟨hlive, halloc⟩ := Prod.mk.inj hx
  have hshared := (h x hr).alloc (by rw [halloc]; decide) 65536 (by rw [hlive]; decide)
  rw [halloc] at hshared
  exact hshared (by decide)

end EdNio.Container
