import EdNio.Task.Steps
import Mathlib.Data.List.Nodup

/-!
# Message slots and the order of messages

A slot is in the hand of the task thread, in `mQuedMsgs` or in `mEmptyMsgs`, and in one
place only. The messages are popped in the order of their `push_back`.
-/

namespace EdNio.Task
open MachineInt Transition

/-- The slot the task thread has popped and not yet put into `mEmptyMsgs`. -/
def TaskPc.inHand : TaskPc → List Slot
  | .hand slot _ _ => [slot]
  | .drain slot _ => [slot]
  | _ => []

/-- `closeMsg` has begun. -/
def TaskPc.closing : TaskPc → Bool
  | .draining => true
  | .drain _ _ => true
  | .closed => true
  | _ => false

def State.slots (s : State) : List Slot :=
  s.pc.inHand ++ s.mQuedMsgs ++ s.mEmptyMsgs

/-- Each allocated slot is in one place. -/
structure SlotsInv (s : State) : Prop where
  nodup : s.slots.Nodup
  bound : ∀ slot ∈ s.slots, slot < s.fresh

lemma SlotsInv.of_slots_perm {s s' : State} (h : SlotsInv s) (hs : s'.slots.Perm s.slots)
    (hf : s'.fresh = s.fresh) : SlotsInv s' :=
  ⟨hs.nodup_iff.mpr h.nodup, fun slot hm => hf ▸ h.bound slot (hs.mem_iff.mp hm)⟩

/-- A slot given to a new call is neither queued nor in the hand of the task thread. -/
lemma Alloc.not_busy {N : Int} {s : State} {slot fresh : Slot} {m : EdMsg} {empty : List Slot}
    (h : Alloc N s slot m empty fresh) (hI : SlotsInv s) :
    slot ∉ s.pc.inHand ∧ slot ∉ s.mQuedMsgs := by
  cases h with
  | recycled he =>
    have hn := hI.nodup
    rw [State.slots, he, List.nodup_append'] at hn
    have hd : slot ∉ s.pc.inHand ++ s.mQuedMsgs := fun hm =>
      hn.2.2 hm List.mem_cons_self
    simpa [not_or] using hd
  | new he hlt =>
    have hb : s.fresh ∉ s.slots := fun hm => Nat.lt_irrefl _ (hI.bound _ hm)
    simp only [State.slots, List.mem_append, not_or] at hb
    exact hb.1

lemma Alloc.slotsInv {N : Int} {s s' : State} {slot fresh : Slot} {m : EdMsg} {empty : List Slot}
    (h : Alloc N s slot m empty fresh) (hI : SlotsInv s) (hpc : s'.pc = s.pc)
    (hq : s'.mQuedMsgs = s.mQuedMsgs ++ [slot]) (he : s'.mEmptyMsgs = empty)
    (hf : s'.fresh = fresh) : SlotsInv s' := by
  cases h with
  | recycled hrec =>
    refine hI.of_slots_perm (.of_eq ?_) hf
    simp [State.slots, hpc, hq, he, hrec]
  | new hrec hlt =>
    have hs : s'.slots = s.slots ++ [s.fresh] := by
      simp [State.slots, hpc, hq, he, hrec]
    have hb : s.fresh ∉ s.slots := fun hm => Nat.lt_irrefl _ (hI.bound _ hm)
    constructor
    · rw [hs, List.nodup_append']
      exact ⟨hI.nodup, List.nodup_singleton _, by simpa using hb⟩
    · intro x hx
      rw [hs, List.mem_append, List.mem_singleton] at hx
      rw [hf]
      rcases hx with hx | rfl
      · exact Nat.lt_succ_of_lt (hI.bound x hx)
      · exact Nat.lt_succ_self _

/-- What a step does to the slots: one more is queued, they move, or some are freed. -/
inductive SlotsStep (N : Int) (s s' : State) : Prop
  | alloc {slot fresh : Slot} {m : EdMsg} {empty : List Slot} : Alloc N s slot m empty fresh →
      s'.pc = s.pc → s'.mQuedMsgs = s.mQuedMsgs ++ [slot] → s'.mEmptyMsgs = empty →
      s'.fresh = fresh → SlotsStep N s s'
  | moved : s'.slots.Perm s.slots → s'.fresh = s.fresh → SlotsStep N s s'
  | freed : s'.slots.Sublist s.slots → s'.fresh = s.fresh → SlotsStep N s s'

theorem Step.slots {N : Int} {s s' : State} {a : Action} (h : Step N s a s') :
    SlotsStep N s s' := by
  cases h with
  | posted c k slot m empty fresh _ _ _ _ _ hal => exact .alloc hal rfl rfl rfl rfl
  | pushed c k slot m empty fresh _ _ _ _ _ hal => exact .alloc hal rfl rfl rfl rfl
  | popped left slot rest hpc hm hq =>
    exact .moved (.of_eq (by simp [State.slots, TaskPc.inHand, hpc, hq])) rfl
  | recycle slot left hpc hm =>
    refine .moved ?_ rfl
    simp only [State.slots, TaskPc.inHand, hpc, List.nil_append, List.cons_append,
      ← List.append_assoc]
    exact List.perm_append_singleton _ _
  | drainSync slot rest hpc hq hs =>
    exact .moved (.of_eq (by simp [State.slots, TaskPc.inHand, hpc, hq])) rfl
  | drainPost slot rest hpc hq hs =>
    refine .moved ?_ rfl
    simp only [State.slots, TaskPc.inHand, hpc, hq, List.nil_append, List.cons_append,
      ← List.append_assoc]
    exact List.perm_append_singleton _ _
  | drainUnlock slot c hpc hc =>
    refine .moved ?_ rfl
    simp only [State.slots, TaskPc.inHand, hpc, List.nil_append, List.cons_append,
      ← List.append_assoc]
    exact List.perm_append_singleton _ _
  | drainEnd hpc hq => exact .freed (by simp [State.slots, TaskPc.inHand, hq]) rfl
  | closeEmpty hpc => exact .freed (by simp [State.slots, TaskPc.inHand, hpc]) rfl
  | _ => exact .moved (.of_eq (by simp [State.slots, TaskPc.inHand, State.createTaskMsgQue,
      State.destroyTaskMsgQue, State.deliver, State.finish, State.closeFd,
      State.setSendMsgResult, *])) rfl

theorem SlotsInv.step {N : Int} {s s' : State} {a : Action} (hI : SlotsInv s)
    (h : Step N s a s') : SlotsInv s' := by
  cases h.slots with
  | alloc hal hpc hq he hf => exact hal.slotsInv hI hpc hq he hf
  | moved hs hf => exact hI.of_slots_perm hs hf
  | freed hs hf => exact ⟨hI.nodup.sublist hs, fun x hx => hf ▸ hI.bound x (hs.subset hx)⟩

/-- Call `c` has passed its section under `mMsgMutex`. -/
def Started (calls : List Call) (c : CallId) : Prop :=
  ∃ k, calls[c]? = some k ∧ k.pc ≠ .called

/-- A call after call `d` was changed: that call, or another one. -/
lemma call_of_modify {calls : List Call} {c d : CallId} {f : Call → Call} {k : Call}
    (hk : (calls.modify d f)[c]? = some k) :
    (c = d ∧ ∃ k', calls[d]? = some k' ∧ f k' = k) ∨ c ≠ d ∧ calls[c]? = some k := by
  by_cases hc : c = d
  · rw [hc, List.getElem?_modify_eq] at hk
    exact .inl ⟨hc, Option.map_eq_some_iff.mp hk⟩
  · exact .inr ⟨hc, by simpa [Ne.symm hc] using hk⟩

/-- A call after a new one was added. -/
lemma call_of_append {calls : List Call} {c : CallId} {k k' : Call}
    (hk : (calls ++ [k'])[c]? = some k) : calls[c]? = some k ∨ k' = k := by
  rcases Nat.lt_trichotomy c calls.length with hc | hc | hc
  · rw [List.getElem?_append_left hc] at hk
    exact .inl hk
  · rw [hc, List.getElem?_concat_length, Option.some.injEq] at hk
    exact .inr hk
  · rw [List.getElem?_eq_none (by simpa [Nat.succ_le_iff] using hc)] at hk
    cases hk

lemma Started.modify {calls : List Call} {c : CallId} (h : Started calls c) (d : CallId)
    {f : Call → Call} (hf : ∀ k, k.pc ≠ .called → (f k).pc ≠ .called) :
    Started (calls.modify d f) c := by
  obtain ⟨k, hk, hpc⟩ := h
  by_cases hd : d = c
  · exact ⟨f k, by simp [hd, hk], hf k hpc⟩
  · exact ⟨k, by simp [hd, hk], hpc⟩

lemma Started.append {calls : List Call} {c : CallId} (h : Started calls c) (k : Call) :
    Started (calls ++ [k]) c := by
  obtain ⟨k', hk, hpc⟩ := h
  have hlt := (List.getElem?_eq_some_iff.mp hk).1
  exact ⟨k', by rw [List.getElem?_append_left hlt, hk], hpc⟩

lemma Call.wake_pc (k : Call) (h : k.pc ≠ .called) : k.wake.pc ≠ .called := by
  unfold Call.wake
  split
  · simp
  · exact h

lemma size_nil : State.size [] = 0 := rfl

/-- `size` is the length while that fits an `int`. -/
lemma eq_nil_of_size {l : List Slot} (hl : l.length < 2 ^ 31) (h : State.size l ≤ 0) : l = [] := by
  unfold State.size at h
  rw [toI32_eq (by omega) (by omega)] at h
  exact List.length_eq_zero_iff.mp (by omega)

/-- The accepted messages are those popped by the dispatcher, those popped by `closeMsg`
and those still queued, in this order. -/
structure HistoryInv (s : State) : Prop where
  order : s.accepted = s.dispatched ++ s.drained ++ s.mQuedMsgs.map s.owner
  nodup : s.accepted.Nodup
  started : ∀ c ∈ s.accepted, Started s.calls c
  undrained : s.pc.closing = false → s.drained = []
  closedFd : s.pc.closing = true → s.mMsgFd < 0
  closed : s.pc = .closed → State.size s.mQuedMsgs ≤ 0
  last : ∀ slot ∈ s.pc.inHand, (s.dispatched ++ s.drained).getLast? = some (s.owner slot)

/-- The effect of an accepted call on the history. -/
lemma HistoryInv.accept {N : Int} {s s' : State} {c : CallId} {k : Call} {slot fresh : Slot}
    {m : EdMsg} {empty : List Slot} {f : Call → Call} (hI : HistoryInv s) (hS : SlotsInv s)
    (hk : s.calls[c]? = some k) (hpc : k.pc = .called) (hfd : 0 ≤ s.mMsgFd)
    (hal : Alloc N s slot m empty fresh) (hf : ∀ k, (f k).pc ≠ .called)
    (hacc : s'.accepted = s.accepted ++ [c]) (hq : s'.mQuedMsgs = s.mQuedMsgs ++ [slot])
    (hown : s'.owner = Function.update s.owner slot c)
    (hcalls : s'.calls = s.calls.modify c f) (hrest : s'.dispatched = s.dispatched ∧
      s'.drained = s.drained ∧ s'.pc = s.pc ∧ s'.mMsgFd = s.mMsgFd) : HistoryInv s' := by
  obtain ⟨hdisp, hdr, hpc', hfd'⟩ := hrest
  obtain ⟨hhand, hqueue⟩ := hal.not_busy hS
  have hopen : s.pc.closing = false := by
    by_contra hc
    have := hI.closedFd (by simpa using hc)
    omega
  have howner : ∀ x, x ≠ slot → s'.owner x = s.owner x := fun x hx => by
    rw [hown, Function.update_of_ne hx]
  have hmap : s.mQuedMsgs.map s'.owner = s.mQuedMsgs.map s.owner :=
    List.map_congr_left (fun x hx => howner x (fun he => hqueue (he ▸ hx)))
  have hnew : c ∉ s.accepted := by
    intro hc
    obtain ⟨k', hk', hne⟩ := hI.started c hc
    rw [hk] at hk'
    exact hne (Option.some.inj hk' ▸ hpc)
  constructor
  · rw [hacc, hdisp, hdr, hq, List.map_append, hmap, hI.order]
    simp [hown]
  · rw [hacc, List.nodup_append']
    exact ⟨hI.nodup, List.nodup_singleton _, by simpa using hnew⟩
  · intro d hd
    rw [hacc, List.mem_append, List.mem_singleton] at hd
    rw [hcalls]
    rcases hd with hd | rfl
    · exact (hI.started d hd).modify c (fun k _ => hf k)
    · exact ⟨f k, by simp [hk], hf k⟩
  · exact fun hc => by rw [hdr]; exact hI.undrained (hpc' ▸ hc)
  · exact fun hc => by rw [hfd']; exact hI.closedFd (hpc' ▸ hc)
  · intro hc
    rw [hpc'] at hc
    simp [hc, TaskPc.closing] at hopen
  · intro x hx
    rw [hpc'] at hx
    rw [hdisp, hdr, howner x (fun he => hhand (he ▸ hx))]
    exact hI.last x hx

/-- A step that moves no message keeps the history. -/
lemma HistoryInv.frame {s s' : State} (hI : HistoryInv s)
    (hacc : s'.accepted = s.accepted ∧ s'.dispatched = s.dispatched ∧ s'.drained = s.drained ∧
      s'.mQuedMsgs = s.mQuedMsgs ∧ s'.owner = s.owner ∧ s'.mMsgFd = s.mMsgFd)
    (hcalls : ∀ c, Started s.calls c → Started s'.calls c)
    (hclosing : s'.pc.closing = s.pc.closing)
    (hclosed : s'.pc = .closed → State.size s.mQuedMsgs ≤ 0)
    (hhand : ∀ slot ∈ s'.pc.inHand, slot ∈ s.pc.inHand) : HistoryInv s' := by
  obtain ⟨h1, h2, h3, h4, h5, h6⟩ := hacc
  constructor
  · rw [h1, h2, h3, h4, h5]
    exact hI.order
  · exact h1 ▸ hI.nodup
  · exact fun c hc => hcalls c (hI.started c (h1 ▸ hc))
  · exact fun hc => h3 ▸ hI.undrained (hclosing ▸ hc)
  · exact fun hc => h6 ▸ hI.closedFd (hclosing ▸ hc)
  · exact fun hc => h4 ▸ hclosed hc
  · intro slot hs
    rw [h2, h3, h5]
    exact hI.last slot (hhand slot hs)

theorem HistoryInv.step {N : Int} {s s' : State} {a : Action} (hS : SlotsInv s)
    (hI : HistoryInv s) (h : Step N s a s') : HistoryInv s' := by
  cases h with
  | posted c k slot m empty fresh hk hpc hm hfd ha hal =>
    exact hI.accept hS hk hpc hfd hal (f := Call.leave (.posted 0)) (by simp [Call.leave])
      rfl rfl rfl rfl ⟨rfl, rfl, rfl, rfl⟩
  | pushed c k slot m empty fresh hk hpc hm hfd ha hal =>
    exact hI.accept hS hk hpc hfd hal (f := Call.push) (by simp [Call.push])
      rfl rfl rfl rfl ⟨rfl, rfl, rfl, rfl⟩
  | popped left slot rest hpc hm hq =>
    have hd := hI.undrained (by simp [hpc, TaskPc.closing])
    have ho := hI.order
    exact ⟨by simpa [hd, hq] using ho, hI.nodup, hI.started, fun _ => hd, by simp [TaskPc.closing],
      by simp, by simp [TaskPc.inHand, hd]⟩
  | drainSync slot rest hpc hq hs =>
    have ho := hI.order
    have hfd := hI.closedFd (by simp [hpc, TaskPc.closing])
    exact ⟨by simpa [hq] using ho, hI.nodup, hI.started, by simp [TaskPc.closing], fun _ => hfd,
      by simp, by simp [TaskPc.inHand, ← List.append_assoc]⟩
  | drainPost slot rest hpc hq hs =>
    have ho := hI.order
    have hfd := hI.closedFd (by simp [hpc, TaskPc.closing])
    exact ⟨by simpa [hq] using ho, hI.nodup, hI.started, by simp [hpc, TaskPc.closing],
      fun _ => hfd, by simp [hpc], by simp [hpc, TaskPc.inHand]⟩
  | closeMsg hpc hm hq =>
    refine ⟨hI.order, hI.nodup, hI.started, by simp [State.closeFd, TaskPc.closing], ?_,
      by simp [State.closeFd], by simp [State.closeFd, TaskPc.inHand]⟩
    intro _
    simp only [State.closeFd]
    split <;> omega
  | closeEmpty hpc hm hq =>
    refine ⟨hI.order, hI.nodup, hI.started, by simp [TaskPc.closing], ?_,
      fun _ => Int.not_lt.mp hq, by simp [TaskPc.inHand]⟩
    intro _
    simp only
    split <;> omega
  | initMsg fd hpc hfd =>
    have hd := hI.undrained (by simp [hpc, TaskPc.closing])
    exact ⟨hI.order, hI.nodup, hI.started, fun _ => hd, by simp [TaskPc.closing], by simp,
      by simp [TaskPc.inHand]⟩
  | queError left hpc _ _ =>
    exact hI.frame ⟨rfl, rfl, rfl, rfl, rfl, rfl⟩ (fun _ h => h)
      (by simp [hpc, TaskPc.closing]) (by simp) (by simp [TaskPc.inHand])
  | setSendMsgResult slot left t code hpc =>
    refine hI.frame ⟨rfl, rfl, rfl, rfl, rfl, rfl⟩ ?_ rfl hI.closed (fun _ h => h)
    intro c hc
    simp only [State.setSendMsgResult]
    split
    · split
      · exact hc.modify _ (fun _ h => h)
      · exact hc
    · exact hc
  | call a =>
    exact hI.frame ⟨rfl, rfl, rfl, rfl, rfl, rfl⟩ (fun _ h => h.append _) rfl
      hI.closed (fun _ h => h)
  | notify slot left c hpc hc =>
    exact hI.frame ⟨rfl, rfl, rfl, rfl, rfl, rfl⟩ (fun _ h => h.modify _ Call.wake_pc)
      (by simp [hpc, TaskPc.closing]) (by simp) (by simp [hpc, TaskPc.inHand])
  | drainNotify slot c d hpc hc hd =>
    exact hI.frame ⟨rfl, rfl, rfl, rfl, rfl, rfl⟩
      (fun _ h => (h.modify c (f := fun k => { k with result := -1000 }) (fun _ h => h)).modify d
        Call.wake_pc)
      (by simp [hpc, TaskPc.closing]) (by simp) (by simp [hpc, TaskPc.inHand])
  | spuriousWake c hpc =>
    exact hI.frame ⟨rfl, rfl, rfl, rfl, rfl, rfl⟩ (fun _ h => h.modify _ Call.wake_pc) rfl
      hI.closed (fun _ h => h)
  | drainEnd hpc hq =>
    exact hI.frame ⟨rfl, rfl, rfl, rfl, rfl, rfl⟩ (fun _ h => h)
      (by simp [hpc, TaskPc.closing]) (fun _ => by simp [hq, size_nil])
      (by simp [TaskPc.inHand])
  | createTaskMsgQue =>
    exact hI.frame ⟨rfl, rfl, rfl, rfl, rfl, rfl⟩ (fun _ h => h) rfl
      hI.closed (fun _ h => h)
  | destroyTaskMsgQue =>
    exact hI.frame ⟨rfl, rfl, rfl, rfl, rfl, rfl⟩ (fun _ h => h) rfl
      hI.closed (fun _ h => h)
  | readNone hpc _ _ => exact hI
  | editMsg =>
    exact hI.frame ⟨rfl, rfl, rfl, rfl, rfl, rfl⟩ (fun _ h => h) rfl
      hI.closed (fun _ h => h)
  | refused | queueFull | write | writeFails | wait | resume =>
    exact hI.frame ⟨rfl, rfl, rfl, rfl, rfl, rfl⟩
      (fun _ h => h.modify _ (fun _ _ => by simp [Call.leave])) rfl hI.closed (fun _ h => h)
  | lockMtx slot left c hpc | unlockMtx slot left c hpc | drainLock slot c hpc
  | drainUnlock slot c hpc =>
    exact hI.frame ⟨rfl, rfl, rfl, rfl, rfl, rfl⟩ (fun _ h => h.modify _ (fun _ h => h))
      (by simp [hpc, TaskPc.closing]) (by simp) (by simp [hpc, TaskPc.inHand])
  | _ =>
    exact hI.frame ⟨rfl, rfl, rfl, rfl, rfl, rfl⟩ (fun _ h => h)
      (by simp [State.deliver, State.finish, TaskPc.closing, *])
      (by simp [State.deliver, State.finish])
      (by simp [State.deliver, State.finish, TaskPc.inHand, *])

lemma SlotsInv.init : SlotsInv State.init := by
  constructor <;> simp [State.slots, State.init, TaskPc.inHand]

lemma HistoryInv.init : HistoryInv State.init := by
  constructor <;> simp [State.init, TaskPc.inHand, TaskPc.closing]

theorem reachable_slots {N : Int} {s : State} (h : (queue N).Reachable s) : SlotsInv s :=
  h.invariant (fun _ h0 => h0 ▸ SlotsInv.init)
    (fun _ _ _ _ hI _ hs => hI.step (step_cases hs))

theorem reachable_history {N : Int} {s : State} (h : (queue N).Reachable s) : HistoryInv s :=
  h.invariant (fun _ h0 => h0 ▸ HistoryInv.init)
    (fun _ _ _ hr hI _ hs => hI.step (reachable_slots hr) (step_cases hs))

end EdNio.Task
