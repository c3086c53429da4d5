import EdNio.Library.History
import EdNio.Task.Routing

/-!
# Who is given a message

`dispatchMsgs` looks at each message it pops once. One with msgid `EDM_EXIT` goes to nobody, one
with handle 0 to `OnEventProc`, and one with another handle to the listener of that queue, if the
queue is in `gViewMap` when the message is looked at.
-/

namespace EdNio.Task
open Transition

/-- Whether the handle of a message is in `gViewMap` when the dispatcher looks at it. -/
def State.known (s : State) : Action → Option (CallId × Bool)
  | .branch =>
    match s.pc with
    | .hand slot _ .popped => some (s.owner slot, (s.gViewMap (s.msg slot).taskque_handle).isSome)
    | _ => none
  | _ => none

/-- The queue of a task with a log of its lookups. -/
def lookups (mMaxMsqQueSize : Int) : System (Recorded State (CallId × Bool)) Action :=
  (queue mMaxMsqQueSize).recorded State.known

def CallArgs.addressee (b : CallArgs) (known : Bool) : Option Target :=
  if b.msgid = EDM_EXIT then none
  else if b.handle = 0 then some .onEventProc
  else if known then some (.listener b.handle)
  else none

/-- Who is to be given the message of a lookup. -/
def State.addressed (s : State) (e : CallId × Bool) : Option (CallId × Target) :=
  (s.callArgs e.1).bind (fun b => (b.addressee e.2).map (fun t => (e.1, t)))

/-- The message that has been popped and not looked at. -/
def State.unlooked (s : State) : List CallId :=
  match s.pc with
  | .hand slot _ .popped => [s.owner slot]
  | _ => []

/-- The listener that has been found and not called. -/
def State.uncalled (s : State) : List (CallId × Target) :=
  match s.pc with
  | .hand slot _ (.found (some h)) => [(s.owner slot, .listener h)]
  | _ => []

/-- The handlers started, in order, each with the message it was started for. -/
def State.given (s : State) : List (CallId × Target) :=
  s.delivered.map (fun d => (d.call, d.target))

/-- Each dispatched message is looked at once, and those that have an addressee are given to
him. -/
structure LookupInv (x : Recorded State (CallId × Bool)) : Prop where
  looked : x.state.dispatched = x.log.map Prod.fst ++ x.state.unlooked
  given : x.state.given ++ x.state.uncalled = x.log.filterMap x.state.addressed

section Lookup

variable {N : Int} {s t : State} {a : Action} {log : List (CallId × Bool)}

lemma addressed_step (hr : (queue N).Reachable s) (h : Step N s a t)
    (hlog : ∀ e ∈ log, e.1 ∈ s.dispatched) :
    log.filterMap t.addressed = log.filterMap s.addressed := by
  refine List.filterMap_congr (fun e he => ?_)
  obtain ⟨b, hb⟩ := finished_callArgs hr (hlog e he)
  simp only [State.addressed, hb, h.callArgs hb]

lemma LookupInv.log_dispatched (hI : LookupInv ⟨s, log⟩) : ∀ e ∈ log, e.1 ∈ s.dispatched := by
  intro e he
  rw [hI.looked]
  exact List.mem_append_left _ (List.mem_map_of_mem he)

lemma LookupInv.frame (hI : LookupInv ⟨s, log⟩) (hr : (queue N).Reachable s) (h : Step N s a t)
    (heq : t.dispatched = s.dispatched ∧ t.delivered = s.delivered)
    (hun : t.unlooked = s.unlooked ∧ t.uncalled = s.uncalled) : LookupInv ⟨t, log⟩ := by
  constructor
  · change t.dispatched = log.map Prod.fst ++ t.unlooked
    rw [heq.1, hun.1]
    exact hI.looked
  · change t.given ++ t.uncalled = log.filterMap t.addressed
    rw [State.given, heq.2, hun.2, addressed_step hr h hI.log_dispatched]
    exact hI.given

lemma LookupInv.look (hI : LookupInv ⟨s, log⟩) (hr : (queue N).Reachable s)
    (h : Step N s .branch t) {slot : Slot} {left : Nat} (hpc : s.pc = .hand slot left .popped)
    (hdisp : t.dispatched = s.dispatched) (hun : t.unlooked = []) {b : CallArgs} {known : Bool}
    (hb : s.callArgs (s.owner slot) = some b)
    (hgiven : t.given ++ t.uncalled =
      s.given ++ ((b.addressee known).map (fun u => (s.owner slot, u))).toList) :
    LookupInv ⟨t, log ++ [(s.owner slot, known)]⟩ := by
  have hlook := hI.looked
  have hold := hI.given
  simp only [State.unlooked, State.uncalled, hpc, List.append_nil] at hlook hold
  constructor
  · change t.dispatched = _ ++ t.unlooked
    rw [hdisp, hun, hlook, List.map_append, List.append_nil]
    rfl
  · change t.given ++ t.uncalled = List.filterMap t.addressed _
    have hlast : t.addressed (s.owner slot, known) =
        (b.addressee known).map (fun u => (s.owner slot, u)) := by
      simp only [State.addressed, h.callArgs hb, Option.bind_some]
    rw [hgiven, List.filterMap_append, addressed_step hr h hI.log_dispatched, ← hold,
      List.filterMap_cons, hlast]
    cases b.addressee known <;> rfl

lemma LookupInv.still (hI : LookupInv ⟨s, log⟩) (hr : (queue N).Reachable s) (h : Step N s a t)
    (heq : t.dispatched = s.dispatched ∧ t.delivered = s.delivered) (hpc : t.pc = s.pc)
    (hown : ∀ slot ∈ s.pc.inHand, t.owner slot = s.owner slot) : LookupInv ⟨t, log⟩ := by
  refine hI.frame hr h heq ⟨?_, ?_⟩
  · simp only [State.unlooked, hpc]
    split
    · rename_i slot left hp
      rw [hown slot (by simp [hp, TaskPc.inHand])]
    · rfl
  · simp only [State.uncalled, hpc]
    split
    · rename_i slot left hd hp
      rw [hown slot (by simp [hp, TaskPc.inHand])]
    · rfl

theorem LookupInv.step (hI : LookupInv ⟨s, log⟩) (hr : (queue N).Reachable s)
    (h : Step N s a t) : LookupInv ⟨t, log ++ (s.known a).toList⟩ := by
  have hstep := h
  cases h with
  | exitMsg slot left hpc hx =>
    have hunread : slot ∈ s.pc.unread := by simp [hpc, TaskPc.unread]
    obtain ⟨b, hb, ⟨⟨hid, -⟩, -⟩⟩ := reachable_carried hr slot (List.mem_append_left _ hunread)
    simp only [State.known, hpc, Option.toList_some]
    refine hI.look hr hstep hpc rfl rfl hb ?_
    simp [State.given, State.uncalled, CallArgs.addressee, ← hid, hx]
  | onEventProc slot left hpc hx hh =>
    have hunread : slot ∈ s.pc.unread := by simp [hpc, TaskPc.unread]
    obtain ⟨b, hb, ⟨⟨hid, hhandle⟩, -⟩⟩ :=
      reachable_carried hr slot (List.mem_append_left _ hunread)
    simp only [State.known, hpc, Option.toList_some]
    refine hI.look hr hstep hpc rfl rfl hb ?_
    simp [State.given, State.uncalled, State.deliver, CallArgs.addressee, ← hid, ← hhandle, hx, hh]
  | find slot left pinfo hpc hx hh hfound =>
    have hunread : slot ∈ s.pc.unread := by simp [hpc, TaskPc.unread]
    obtain ⟨b, hb, ⟨⟨hid, hhandle⟩, -⟩⟩ :=
      reachable_carried hr slot (List.mem_append_left _ hunread)
    simp only [State.known, hpc, Option.toList_some]
    refine hI.look hr hstep hpc rfl rfl hb ?_
    rcases hfound with ⟨rfl, hsome⟩ | ⟨rfl, hnone⟩
    · simp [State.given, State.uncalled, CallArgs.addressee, ← hid, ← hhandle, hx, hh, hsome]
    · simp [State.given, State.uncalled, CallArgs.addressee, ← hid, ← hhandle, hx, hh, hnone]
  | popped left slot rest hpc hm hq =>
    have hlook := hI.looked
    have hold := hI.given
    simp only [State.unlooked, State.uncalled, hpc, List.append_nil] at hlook hold
    simp only [State.known, Option.toList_none, List.append_nil]
    constructor
    · simp [State.unlooked, hlook]
    · have hsame := addressed_step hr hstep hI.log_dispatched
      simp only [State.given, State.uncalled, List.append_nil] at hold ⊢
      rw [hold, hsame]
  | invoke slot left hd hpc =>
    have hlook := hI.looked
    have hold := hI.given
    simp only [State.unlooked, State.uncalled, hpc, List.append_nil] at hlook hold
    simp only [State.known, Option.toList_none, List.append_nil]
    constructor
    · simpa [State.unlooked, State.deliver] using hlook
    · have hsame := addressed_step hr hstep hI.log_dispatched
      simp only [State.given, State.uncalled, State.deliver, List.map_append, List.map_cons,
        List.map_nil, List.append_nil] at hold hsame ⊢
      rw [hold, hsame]
  | posted c k slot m empty fresh hk hpc hm hfd ha hal
  | pushed c k slot m empty fresh hk hpc hm hfd ha hal =>
    simp only [State.known, Option.toList_none, List.append_nil]
    refine hI.still hr hstep ⟨rfl, rfl⟩ rfl (fun x hx => ?_)
    have hbusy := (hal.not_busy (reachable_slots hr)).1
    exact Function.update_of_ne (fun he : x = slot => hbusy (he ▸ hx)) _ _
  | call | refused | queueFull | write | writeFails | wait | spuriousWake | resume | readNone
  | createTaskMsgQue | destroyTaskMsgQue | setSendMsgResult | editMsg =>
    simp only [State.known, Option.toList_none, List.append_nil]
    exact hI.still hr hstep ⟨rfl, rfl⟩ rfl (fun _ _ => rfl)
  | _ =>
    simp only [State.known, Option.toList_none, List.append_nil]
    exact hI.frame hr hstep ⟨rfl, rfl⟩
      (by simp [State.unlooked, State.uncalled, State.finish, State.closeFd, *])

end Lookup

theorem reachable_lookups {N : Int} {x : Recorded State (CallId × Bool)}
    (h : (lookups N).Reachable x) : LookupInv x := by
  refine h.invariant (fun x h0 => ?_) (fun x a y hr hI _ hs => ?_)
  · obtain ⟨hs, hlog⟩ := h0
    have hstate : x.state = State.init := hs
    constructor <;> simp [hstate, hlog, State.init, State.unlooked, State.uncalled, State.given]
  · obtain ⟨hstep, hlog⟩ := recorded_step hs
    have hy : y = ⟨y.state, x.log ++ (x.state.known a).toList⟩ := by rw [← hlog]
    rw [hy]
    exact LookupInv.step hI hr.of_recorded (step_cases hstep)

/-- The fields `p1` and `p2` of the union (little endian). -/
def View.p1 (v : View) : UInt32 := v.data.toUInt32

def View.p2 (v : View) : UInt32 := (v.data >>> 32).toUInt32

/-- The messages handled and the one whose handler is running, in order. -/
def State.handled (s : State) : List CallId :=
  s.finished ++ s.pc.running.map s.owner

end EdNio.Task
