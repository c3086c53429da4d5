import EdNio.Library.History
import EdNio.Library.MachineInt
import Mathlib.Data.List.Nodup
import Mathlib.Logic.Function.Basic

/-!
# EdLocalEvent

An open event object with a listener. The eventfd counts the posted events, its read event
delivers as many of them as it has counted, and the listener may post from within.
-/

namespace EdNio.Event
open MachineInt Transition

structure LocalEvt where
  evt_id : UInt16
  p1 : UInt32
  p2 : UInt32
deriving DecidableEq, Repr

/-- Where the task thread is. -/
inductive LocalPc
  | idle
  /-- In the loop of `OnEventFd`, with `left` passes to go. -/
  | loop (left : Nat)
  /-- In the listener, with `left` passes to go after this one. -/
  | listener (left : Nat)
deriving DecidableEq, Repr

/-- The nodes of the queues are numbered in the order of their allocation. -/
structure EdLocalEvent where
  mMaxEvent : Nat
  mEvtQue : List Nat
  mDummyEvtQue : List Nat
  event : Nat → LocalEvt
  allocated : Nat
  counter : Nat
  pc : LocalPc

namespace EdLocalEvent

variable (s : EdLocalEvent)

/-- The state after `open`; `event` is what is in the memory of nodes not yet allocated. -/
def opened (maxevt : Nat) (event : Nat → LocalEvt) : EdLocalEvent where
  mMaxEvent := maxevt
  mEvtQue := []
  mDummyEvtQue := []
  event := event
  allocated := 0
  counter := 0
  pc := .idle

/-- `EdEventFd::raise`. The counter of an eventfd stays below `2^64 - 1`. -/
def raise : Int × EdLocalEvent :=
  if s.counter + 1 < 2 ^ 64 - 1 then (0, { s with counter := s.counter + 1 }) else (-1, s)

/-- The node that `postEvent` puts at the end of the queue. -/
def queueNode : Nat × EdLocalEvent :=
  match s.mDummyEvtQue with
  | ptr :: dummy => (ptr, { s with mEvtQue := s.mEvtQue ++ [ptr], mDummyEvtQue := dummy })
  | [] => (s.allocated,
      { s with mEvtQue := s.mEvtQue ++ [s.allocated], allocated := s.allocated + 1 })

def postEvent (e : LocalEvt) : Int × EdLocalEvent :=
  if s.mMaxEvent ≤ s.mEvtQue.length then (-1, s)
  else
    let (ptr, s) := s.queueNode
    raise { s with event := Function.update s.event ptr e }

/-- A read of the eventfd fails while the counter is zero. -/
def OnEventRead : EdLocalEvent :=
  if s.counter = 0 then s
  else { s with counter := 0, pc := .loop (toI32 s.counter).toNat }

/-- A pass of the loop of `OnEventFd`, up to the call of the listener. -/
def pass (left : Nat) : EdLocalEvent :=
  match s.mEvtQue with
  | ptr :: que =>
    { s with mEvtQue := que, mDummyEvtQue := ptr :: s.mDummyEvtQue, pc := .listener left }
  | [] => { s with pc := .loop left }

inductive Action
  | postEvent (e : LocalEvt)
  | OnEventRead
  | pass
  | listenerReturn
  | loopEnd
deriving DecidableEq, Repr

/-- `postEvent` is called by the listener or while the task thread is not in the loop. -/
def step : Action → Option EdLocalEvent
  | .postEvent e =>
    match s.pc with
    | .loop _ => none
    | .idle => some (s.postEvent e).2
    | .listener _ => some (s.postEvent e).2
  | .OnEventRead =>
    match s.pc with
    | .idle => some s.OnEventRead
    | .loop _ => none
    | .listener _ => none
  | .pass =>
    match s.pc with
    | .loop (left + 1) => some (s.pass left)
    | .loop 0 => none
    | .idle => none
    | .listener _ => none
  | .listenerReturn =>
    match s.pc with
    | .listener left => some { s with pc := .loop left }
    | .idle => none
    | .loop _ => none
  | .loopEnd =>
    match s.pc with
    | .loop 0 => some { s with pc := .idle }
    | .loop (_ + 1) => none
    | .idle => none
    | .listener _ => none

end EdLocalEvent

inductive LocalEntry
  | accepted (e : LocalEvt)
  | delivered (e : LocalEvt)
deriving DecidableEq, Repr

/-- An event is accepted when `postEvent` returns 0, and delivered as its node is when the
listener is called. -/
def localEntry (s : EdLocalEvent) : EdLocalEvent.Action → Option LocalEntry
  | .postEvent e => if (s.postEvent e).1 = 0 then some (.accepted e) else none
  | .pass => s.mEvtQue.head?.map (fun ptr => .delivered (s.event ptr))
  | .OnEventRead => none
  | .listenerReturn => none
  | .loopEnd => none

def localEvents : System (Recorded EdLocalEvent LocalEntry) EdLocalEvent.Action :=
  System.recorded
    { init := fun s => ∃ maxevt event, maxevt < 2 ^ 31 ∧ s = .opened maxevt event
      step := EdLocalEvent.step } localEntry

def accepted (log : List LocalEntry) : List LocalEvt :=
  log.filterMap (fun e => match e with
    | .accepted e => some e
    | .delivered _ => none)

def delivered (log : List LocalEntry) : List LocalEvt :=
  log.filterMap (fun e => match e with
    | .accepted _ => none
    | .delivered e => some e)

def LocalPc.remaining : LocalPc → Nat
  | .idle => 0
  | .loop left => left
  | .listener left => left

/-- The events on the queue are those accepted and not delivered, each counted once. -/
structure Fifo (x : Recorded EdLocalEvent LocalEntry) : Prop where
  counter : x.state.counter + x.state.pc.remaining = x.state.mEvtQue.length
  order : accepted x.log = delivered x.log ++ x.state.mEvtQue.map x.state.event
  queue : x.state.mEvtQue.length ≤ x.state.mMaxEvent
  nodes : x.state.allocated ≤ x.state.mMaxEvent

/-- The loop that a read event begins ends with every event delivered that was accepted
before it. -/
def Delivers (x : Recorded EdLocalEvent LocalEntry) : Prop :=
  ∀ y, localEvents.step x .OnEventRead = some y →
    (∃ z, localEvents.Leads y z ∧ z.state.pc = .idle) ∧
    ∀ z, localEvents.Leads y z → z.state.pc = .idle → accepted x.log <+: delivered z.log

/-- Each node is in one of the queues. -/
structure LocalInv (x : Recorded EdLocalEvent LocalEntry) : Prop extends Fifo x where
  limit : x.state.mMaxEvent < 2 ^ 31
  nodup : (x.state.mEvtQue ++ x.state.mDummyEvtQue).Nodup
  bound : ∀ ptr ∈ x.state.mEvtQue ++ x.state.mDummyEvtQue, ptr < x.state.allocated
  count : (x.state.mEvtQue ++ x.state.mDummyEvtQue).length = x.state.allocated

variable {s : EdLocalEvent} {x y z : Recorded EdLocalEvent LocalEntry} {log log' : List LocalEntry}

@[simp] lemma accepted_append : accepted (log ++ log') = accepted log ++ accepted log' :=
  List.filterMap_append

@[simp] lemma delivered_append : delivered (log ++ log') = delivered log ++ delivered log' :=
  List.filterMap_append

lemma queueNode_eq (hn : (s.mEvtQue ++ s.mDummyEvtQue).Nodup)
    (hb : ∀ ptr ∈ s.mEvtQue ++ s.mDummyEvtQue, ptr < s.allocated)
    (hc : (s.mEvtQue ++ s.mDummyEvtQue).length = s.allocated)
    (hroom : s.mEvtQue.length < s.mMaxEvent) (hle : s.allocated ≤ s.mMaxEvent) :
    ∃ ptr dummy allocated, s.queueNode = (ptr, { s with
        mEvtQue := s.mEvtQue ++ [ptr], mDummyEvtQue := dummy, allocated := allocated }) ∧
      ptr ∉ s.mEvtQue ∧ allocated ≤ s.mMaxEvent ∧ (s.mEvtQue ++ [ptr] ++ dummy).Nodup ∧
      (∀ p ∈ s.mEvtQue ++ [ptr] ++ dummy, p < allocated) ∧
      (s.mEvtQue ++ [ptr] ++ dummy).length = allocated := by
  rw [EdLocalEvent.queueNode]
  cases hd : s.mDummyEvtQue with
  | nil =>
    rw [hd, List.append_nil] at hn hb hc
    have hnew : s.allocated ∉ s.mEvtQue := fun hm => Nat.lt_irrefl _ (hb _ hm)
    refine ⟨s.allocated, [], s.allocated + 1, rfl, hnew, by omega, ?_, ?_, ?_⟩
    · rw [List.append_nil, List.nodup_append']
      exact ⟨hn, List.nodup_singleton _, by simpa using hnew⟩
    · intro p hp
      simp only [List.append_nil, List.mem_append, List.mem_singleton] at hp
      rcases hp with hp | rfl
      · exact Nat.lt_succ_of_lt (hb p hp)
      · exact Nat.lt_succ_self _
    · simp [hc]
  | cons ptr dummy =>
    rw [hd] at hn hb hc
    have happ : s.mEvtQue ++ [ptr] ++ dummy = s.mEvtQue ++ ptr :: dummy := by simp
    refine ⟨ptr, dummy, s.allocated, rfl, ?_, hle, by rwa [happ], by rwa [happ], by rwa [happ]⟩
    intro hm
    exact (List.nodup_append'.mp hn).2.2 hm List.mem_cons_self

/-- A post is refused when the queue is full, and otherwise queues the event and counts it. -/
lemma postEvent_eq (h : LocalInv x) (e : LocalEvt) :
    (x.state.postEvent e = (-1, x.state) ∧ x.state.mEvtQue.length = x.state.mMaxEvent) ∨
    ∃ ptr dummy allocated, x.state.postEvent e = (0, { x.state with
        mEvtQue := x.state.mEvtQue ++ [ptr], mDummyEvtQue := dummy, allocated := allocated
        event := Function.update x.state.event ptr e, counter := x.state.counter + 1 }) ∧
      x.state.mEvtQue.length < x.state.mMaxEvent ∧
      ptr ∉ x.state.mEvtQue ∧ allocated ≤ x.state.mMaxEvent ∧
      (x.state.mEvtQue ++ [ptr] ++ dummy).Nodup ∧
      (∀ p ∈ x.state.mEvtQue ++ [ptr] ++ dummy, p < allocated) ∧
      (x.state.mEvtQue ++ [ptr] ++ dummy).length = allocated := by
  have hq := h.queue
  have hc := h.counter
  have hlim := h.limit
  by_cases hfull : x.state.mMaxEvent ≤ x.state.mEvtQue.length
  · exact .inl ⟨if_pos hfull, by omega⟩
  · obtain ⟨ptr, dummy, allocated, hnode, hspec⟩ :=
      queueNode_eq h.nodup h.bound h.count (by omega) h.nodes
    refine .inr ⟨ptr, dummy, allocated, ?_, by omega, hspec⟩
    rw [EdLocalEvent.postEvent, if_neg hfull, hnode]
    exact if_pos (by dsimp only; omega)

lemma LocalInv.opened (maxevt : Nat) (event : Nat → LocalEvt) (h : maxevt < 2 ^ 31) :
    LocalInv ⟨.opened maxevt event, []⟩ := by
  constructor
  · constructor <;> simp [EdLocalEvent.opened, LocalPc.remaining, accepted, delivered]
  · exact h
  · simp [EdLocalEvent.opened]
  · simp [EdLocalEvent.opened]
  · rfl

lemma LocalInv.postEvent (h : LocalInv x) (e : LocalEvt) :
    LocalInv ⟨(x.state.postEvent e).2,
      x.log ++ (localEntry x.state (.postEvent e)).toList⟩ := by
  rcases postEvent_eq h e with ⟨hpost, -⟩ |
    ⟨ptr, dummy, allocated, hpost, hroom, hptr, hle, hn, hb, hc⟩
  · rw [hpost, localEntry, hpost, if_neg (by simp)]
    simpa using h
  · have hmap : x.state.mEvtQue.map (Function.update x.state.event ptr e) =
        x.state.mEvtQue.map x.state.event := by
      refine List.map_congr_left (fun p hp => Function.update_of_ne ?_ ..)
      rintro rfl
      exact hptr hp
    have hcount := h.counter
    rw [hpost, localEntry, hpost, if_pos rfl]
    refine ⟨⟨?_, ?_, ?_, hle⟩, h.limit, hn, hb, hc⟩
    · simp only [List.length_append, List.length_singleton]
      omega
    · simp only [accepted_append, delivered_append, List.map_append, hmap, h.order]
      simp [accepted, delivered]
    · simp only [List.length_append, List.length_singleton]
      omega

lemma LocalInv.pass (h : LocalInv x) {left : Nat} (hpc : x.state.pc = .loop (left + 1)) :
    LocalInv ⟨x.state.pass left, x.log ++ (localEntry x.state .pass).toList⟩ ∧
      (x.state.pass left).pc = .listener left ∧
      ∃ e, localEntry x.state .pass = some (.delivered e) := by
  have hcount := h.counter
  rw [hpc, LocalPc.remaining] at hcount
  obtain ⟨ptr, que, hq⟩ : ∃ ptr que, x.state.mEvtQue = ptr :: que := by
    cases hq : x.state.mEvtQue with
    | nil =>
      rw [hq, List.length_nil] at hcount
      omega
    | cons ptr que => exact ⟨ptr, que, rfl⟩
  have hpass : x.state.pass left = { x.state with
      mEvtQue := que, mDummyEvtQue := ptr :: x.state.mDummyEvtQue, pc := .listener left } := by
    rw [EdLocalEvent.pass, hq]
  have hentry : localEntry x.state .pass = some (.delivered (x.state.event ptr)) := by
    rw [localEntry, hq]
    rfl
  have hperm : (que ++ ptr :: x.state.mDummyEvtQue).Perm
      (x.state.mEvtQue ++ x.state.mDummyEvtQue) := by
    rw [hq]
    exact List.perm_middle
  rw [hpass, hentry]
  rw [hq, List.length_cons] at hcount
  refine ⟨⟨⟨?_, ?_, ?_, h.nodes⟩, h.limit, ?_, ?_, ?_⟩, rfl, _, rfl⟩
  · simp only [LocalPc.remaining]
    omega
  · simp only [accepted_append, delivered_append, h.order, hq]
    simp [accepted, delivered]
  · have hqueue := h.queue
    rw [hq, List.length_cons] at hqueue
    simp only
    omega
  · exact hperm.nodup_iff.mpr h.nodup
  · exact fun p hp => h.bound p (hperm.mem_iff.mp hp)
  · exact hperm.length_eq.trans h.count

/-- The invariant does not look at the counter and the task thread alone. -/
lemma LocalInv.of_sum_eq (h : LocalInv x) {counter : Nat} {pc : LocalPc}
    (hsum : counter + pc.remaining = x.state.counter + x.state.pc.remaining) :
    LocalInv ⟨{ x.state with counter := counter, pc := pc }, x.log⟩ :=
  ⟨⟨hsum.trans h.counter, h.order, h.queue, h.nodes⟩, h.limit, h.nodup, h.bound, h.count⟩

lemma OnEventRead_eq (h : LocalInv x) (hpc : x.state.pc = .idle) :
    x.state.OnEventRead = { x.state with
      counter := 0
      pc := if x.state.counter = 0 then .idle else .loop x.state.counter } := by
  have hc := h.counter
  have hq := h.queue
  have hlim := h.limit
  rw [EdLocalEvent.OnEventRead]
  split
  · rename_i hzero
    rw [← hzero, ← hpc]
  · rw [toI32_eq (by omega) (by omega), Int.toNat_natCast]

lemma EdLocalEvent.step_cases {t : EdLocalEvent} {a : EdLocalEvent.Action}
    (h : s.step a = some t) :
    (∃ e, a = .postEvent e ∧ t = (s.postEvent e).2) ∨
    (a = .OnEventRead ∧ s.pc = .idle ∧ t = s.OnEventRead) ∨
    (∃ left, a = .pass ∧ s.pc = .loop (left + 1) ∧ t = s.pass left) ∨
    (∃ left, a = .listenerReturn ∧ s.pc = .listener left ∧ t = { s with pc := .loop left }) ∨
    (a = .loopEnd ∧ s.pc = .loop 0 ∧ t = { s with pc := .idle }) := by
  cases a with
  | postEvent e => cases hpc : s.pc <;> simp_all [step]
  | OnEventRead => cases hpc : s.pc <;> simp_all [step]
  | pass =>
    cases hpc : s.pc with
    | loop left => cases left <;> simp_all [step]
    | _ => simp [step, hpc] at h
  | listenerReturn => cases hpc : s.pc <;> simp_all [step]
  | loopEnd =>
    cases hpc : s.pc with
    | loop left => cases left <;> simp_all [step]
    | _ => simp [step, hpc] at h

/-- A step keeps the invariant. The calls made and still to be made are not fewer after it. -/
lemma LocalInv.step (h : LocalInv x) {a : EdLocalEvent.Action}
    (hs : localEvents.step x a = some y) :
    LocalInv y ∧ accepted x.log <+: accepted y.log ∧
      (delivered x.log).length + x.state.pc.remaining ≤
        (delivered y.log).length + y.state.pc.remaining := by
  obtain ⟨hstep, hlog⟩ := recorded_step hs
  obtain ⟨t, log⟩ := y
  dsimp only at hstep hlog
  subst hlog
  simp only [accepted_append, delivered_append, List.length_append]
  rcases EdLocalEvent.step_cases hstep with ⟨e, rfl, rfl⟩ | ⟨rfl, hpc, rfl⟩ |
    ⟨left, rfl, hpc, rfl⟩ | ⟨left, rfl, hpc, rfl⟩ | ⟨rfl, hpc, rfl⟩
  · have hpc : (x.state.postEvent e).2.pc = x.state.pc := by
      rcases postEvent_eq h e with ⟨heq, -⟩ | ⟨_, _, _, heq, -⟩ <;> rw [heq]
    refine ⟨h.postEvent e, List.prefix_append _ _, ?_⟩
    rw [hpc]
    omega
  · refine ⟨?_, List.prefix_append _ _, ?_⟩
    · rw [localEntry, Option.toList_none, List.append_nil, OnEventRead_eq h hpc]
      refine h.of_sum_eq ?_
      rw [hpc]
      split <;> simp [LocalPc.remaining, *]
    · rw [hpc, LocalPc.remaining]
      omega
  · obtain ⟨hinv, hlis, e, he⟩ := h.pass hpc
    refine ⟨hinv, List.prefix_append _ _, ?_⟩
    rw [hlis, he, hpc]
    simp only [LocalPc.remaining, delivered, Option.toList_some, List.filterMap_cons,
      List.filterMap_nil, List.length_singleton]
    omega
  · rw [localEntry, Option.toList_none, List.append_nil]
    refine ⟨h.of_sum_eq (by rw [hpc]; rfl), List.prefix_append _ _, ?_⟩
    rw [hpc]
    exact Nat.le_refl _
  · rw [localEntry, Option.toList_none, List.append_nil]
    refine ⟨h.of_sum_eq (by rw [hpc]; rfl), List.prefix_append _ _, ?_⟩
    rw [hpc]
    exact Nat.le_refl _

lemma localInv_reachable (hr : localEvents.Reachable x) : LocalInv x := by
  refine hr.invariant (I := LocalInv) ?_ ?_
  · rintro ⟨_, log⟩ ⟨⟨maxevt, event, hlim, rfl⟩, rfl⟩
    exact LocalInv.opened maxevt event hlim
  · exact fun x a y _ h _ hs => (h.step hs).1

lemma LocalInv.leads (h : LocalInv x) (hl : localEvents.Leads x y) :
    LocalInv y ∧ accepted x.log <+: accepted y.log ∧
      (delivered x.log).length + x.state.pc.remaining ≤
        (delivered y.log).length + y.state.pc.remaining := by
  induction hl with
  | refl => exact ⟨h, List.prefix_rfl, Nat.le_refl _⟩
  | step _ hs ih =>
    obtain ⟨hy, hacc, hle⟩ := ih
    obtain ⟨hz, hacc', hle'⟩ := hy.step hs
    exact ⟨hz, hacc.trans hacc', Nat.le_trans hle hle'⟩

lemma localEvents_step {t : EdLocalEvent} {a : EdLocalEvent.Action}
    (h : x.state.step a = some t) :
    localEvents.step x a = some ⟨t, x.log ++ (localEntry x.state a).toList⟩ :=
  Option.map_eq_some_iff.mpr ⟨t, h, rfl⟩

lemma LocalInv.loop_ends (n : Nat) (h : LocalInv x) (hpc : x.state.pc = .loop n) :
    ∃ z, localEvents.Leads x z ∧ z.state.pc = .idle := by
  induction n generalizing x with
  | zero =>
    have hs := localEvents_step (x := x) (a := .loopEnd) (by rw [EdLocalEvent.step, hpc])
    exact ⟨_, .step .refl hs, rfl⟩
  | succ n ih =>
    have hs := localEvents_step (x := x) (a := .pass) (by rw [EdLocalEvent.step, hpc])
    obtain ⟨hpass, hlis, -⟩ := h.pass hpc
    have hs' := localEvents_step
      (x := ⟨x.state.pass n, x.log ++ (localEntry x.state .pass).toList⟩) (a := .listenerReturn)
      (by rw [EdLocalEvent.step, hlis])
    obtain ⟨z, hl, hz⟩ := ih (hpass.step hs').1 rfl
    exact ⟨z, .head hs (.head hs' hl), hz⟩

lemma LocalInv.exists_idle (h : LocalInv x) :
    ∃ z, localEvents.Leads x z ∧ z.state.pc = .idle := by
  cases hpc : x.state.pc with
  | idle => exact ⟨x, .refl, hpc⟩
  | loop left => exact h.loop_ends left hpc
  | listener left =>
    have hs := localEvents_step (x := x) (a := .listenerReturn)
      (by rw [EdLocalEvent.step, hpc])
    obtain ⟨z, hl, hz⟩ := (h.step hs).1.loop_ends left rfl
    exact ⟨z, .head hs hl, hz⟩

/-- Each accepted event is delivered once and in its turn, by the next read event at the latest;
the eventfd and the loop together count the queue, and the nodes stay within the limit. -/
theorem exactly_once_fifo (hr : localEvents.Reachable x) : Fifo x ∧ Delivers x := by
  have h := localInv_reachable hr
  refine ⟨h.toFifo, fun y hs => ⟨(h.step hs).1.exists_idle, fun z hl hidle => ?_⟩⟩
  obtain ⟨hy, hacc, -⟩ := h.step hs
  have hzero : y.state.counter = 0 := by
    obtain ⟨hstep, -⟩ := recorded_step hs
    change x.state.step .OnEventRead = some y.state at hstep
    rcases EdLocalEvent.step_cases hstep with ⟨e, ha, -⟩ | ⟨-, hpc, heq⟩ | ⟨_, ha, -⟩ |
      ⟨_, ha, -⟩ | ⟨ha, -⟩
    · cases ha
    · rw [heq, OnEventRead_eq h hpc]
    · cases ha
    · cases ha
    · cases ha
  obtain ⟨hz, hacc', hle⟩ := hy.leads hl
  have hlen : (accepted y.log).length ≤ (delivered z.log).length := by
    have hcount := hy.counter
    rw [hidle, LocalPc.remaining] at hle
    rw [hy.order, List.length_append, List.length_map]
    omega
  have hdel : delivered z.log <+: accepted z.log := hz.order ▸ List.prefix_append _ _
  exact hacc.trans (List.prefix_of_prefix_length_le hacc' hdel hlen)

/-- The listener posts an event while another is still to be delivered. -/
theorem exactly_once_fifo_reentrant :
    ∃ x, localEvents.Reachable x ∧
      delivered x.log = [⟨1, 10, 20⟩, ⟨2, 11, 21⟩, ⟨3, 12, 22⟩] ∧ Fifo x ∧ Delivers x := by
  obtain ⟨x, hr, hx⟩ := System.exists_of_exec (M := localEvents) (f := fun x => delivered x.log)
    (s := ⟨.opened 2 (fun _ => ⟨0, 0, 0⟩), []⟩) ⟨⟨2, _, by decide, rfl⟩, rfl⟩
    (show (localEvents.exec ⟨.opened 2 (fun _ => ⟨0, 0, 0⟩), []⟩
        [.postEvent ⟨1, 10, 20⟩, .postEvent ⟨2, 11, 21⟩, .postEvent ⟨9, 9, 9⟩, .OnEventRead, .pass,
          .postEvent ⟨3, 12, 22⟩, .listenerReturn, .pass, .listenerReturn, .loopEnd, .OnEventRead,
          .pass]).map (fun x => delivered x.log) =
      some [⟨1, 10, 20⟩, ⟨2, 11, 21⟩, ⟨3, 12, 22⟩] by decide +kernel)
  exact ⟨x, hr, hx, exactly_once_fifo hr⟩

end EdNio.Event
