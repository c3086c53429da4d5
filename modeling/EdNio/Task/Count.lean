import EdNio.Task.Delivery

/-!
# The eventfd counts the queued messages

Until `closeMsg` begins, the length of `mQuedMsgs` is the eventfd counter, plus the
iterations `dispatchMsgs` has left, plus the calls of `sendEdMsg` between their push and
their write. `dispatchMsgs` takes the count as an `int`, so this needs the pool to stay
below `2^31` slots.
-/

namespace EdNio.Task
open MachineInt Transition

/-- Iterations `dispatchMsgs` still has to run. -/
def TaskPc.left : TaskPc → Nat
  | .loop left => left
  | .hand _ left _ => left
  | _ => 0

/-- Calls of `sendEdMsg` that have pushed their message and not written the eventfd. -/
def State.window (s : State) : Nat :=
  s.calls.countP (fun k => k.pc = .pushed)

lemma countP_modify {α : Type} (p : α → Bool) (l : List α) (i : Nat) (f : α → α) {x : α}
    (h : l[i]? = some x) : (l.modify i f).countP p + (if p x then 1 else 0) =
      l.countP p + (if p (f x) then 1 else 0) := by
  induction l generalizing i with
  | nil => simp at h
  | cons y l ih =>
    cases i with
    | zero =>
      simp only [List.getElem?_cons_zero, Option.some.injEq] at h
      subst h
      simp only [List.modify_zero_cons, List.countP_cons]
      omega
    | succ i =>
      have hi := ih i (by simpa using h)
      simp only [List.modify_succ_cons, List.countP_cons]
      omega

lemma countP_modify_same {α : Type} (p : α → Bool) (l : List α) (i : Nat) (f : α → α)
    (h : ∀ x, l[i]? = some x → p (f x) = p x) : (l.modify i f).countP p = l.countP p := by
  cases hx : l[i]? with
  | none => rw [List.modify_eq_self (List.getElem?_eq_none_iff.mp hx)]
  | some x =>
    have hm := countP_modify p l i f hx
    rw [h x hx] at hm
    omega

lemma Call.wake_pushed (k : Call) : decide (k.wake.pc = .pushed) = decide (k.pc = .pushed) := by
  unfold Call.wake
  split
  · rename_i h
    simp [h]
  · rfl

/-- The slots allocated never exceed the limit by more than the one in hand. -/
def PoolInv (N : Int) (s : State) : Prop :=
  s.slots.length ≤ (N + 1).toNat

lemma TaskPc.inHand_length (pc : TaskPc) : pc.inHand.length ≤ 1 := by
  unfold TaskPc.inHand
  split <;> simp

/-- The count that `allocMsgObj` compares with the limit when `mEmptyMsgs` is empty. -/
lemma toI32_size {l : List Slot} (h : (l.length : Int) < 2 ^ 31) :
    toI32 (State.size [] + State.size l) = l.length := by
  have h0 : State.size [] = 0 := rfl
  have hl : State.size l = l.length := toI32_eq (by omega) h
  rw [h0, hl, Int.zero_add, toI32_eq (by omega) h]

lemma Alloc.poolInv {N : Int} {s s' : State} {slot fresh : Slot} {m : EdMsg} {empty : List Slot}
    (hN : N < 2 ^ 31 - 1) (hal : Alloc N s slot m empty fresh) (hI : PoolInv N s)
    (hpc : s'.pc = s.pc) (hq : s'.mQuedMsgs = s.mQuedMsgs ++ [slot])
    (he : s'.mEmptyMsgs = empty) : PoolInv N s' := by
  unfold PoolInv State.slots at *
  rw [hpc, hq, he]
  cases hal with
  | recycled hrec =>
    simp only [hrec, List.length_append, List.length_cons, List.length_nil] at hI ⊢
    omega
  | new hrec hlt =>
    have hh := s.pc.inHand_length
    simp only [hrec, List.length_append, List.length_nil, List.length_singleton] at hI ⊢
    have hlen : (s.mQuedMsgs.length : Int) < 2 ^ 31 := by omega
    rw [toI32_size hlen] at hlt
    omega

theorem PoolInv.step {N : Int} (hN : N < 2 ^ 31 - 1) {s s' : State} {a : Action}
    (hI : PoolInv N s) (h : Step N s a s') : PoolInv N s' := by
  cases h.slots with
  | alloc hal hpc hq he hf => exact hal.poolInv hN hI hpc hq he
  | moved hs hf =>
    rw [PoolInv, hs.length_eq]
    exact hI
  | freed hs => exact Nat.le_trans hs.length_le hI

theorem reachable_pool {N : Int} (hN : N < 2 ^ 31 - 1) {s : State} (h : (queue N).Reachable s) :
    PoolInv N s :=
  h.invariant (fun _ h0 => h0 ▸ by simp [PoolInv, State.slots, State.init, TaskPc.inHand])
    (fun _ _ _ _ hI _ hs => hI.step hN (step_cases hs))

lemma PoolInv.queued_lt {N : Int} (hN : N < 2 ^ 31 - 1) {s : State} (hP : PoolInv N s) :
    s.mQuedMsgs.length < 2 ^ 31 := by
  have hlen : s.mQuedMsgs.length ≤ s.slots.length := by
    simp only [State.slots, List.length_append]
    omega
  unfold PoolInv at hP
  omega

lemma PoolInv.toI32_eventfd {N : Int} (hN : N < 2 ^ 31 - 1) {s : State} (hP : PoolInv N s)
    (he : s.eventfd ≤ s.mQuedMsgs.length) : toI32 s.eventfd = s.eventfd := by
  have hlen := hP.queued_lt hN
  exact toI32_eq (by omega) (by omega)

/-- With a pool of this size `closeMsg` leaves no message queued. -/
lemma closed_queue {N : Int} (hN : N < 2 ^ 31 - 1) {s : State} (h : (queue N).Reachable s)
    (hpc : s.pc = .closed) : s.mQuedMsgs = [] :=
  eq_nil_of_size ((reachable_pool hN h).queued_lt hN) ((reachable_history h).closed hpc)

structure CountInv (s : State) : Prop where
  count : s.pc.closing = false → s.mQuedMsgs.length = s.eventfd + s.pc.left + s.window
  closedFd : s.pc.closing = false → s.mMsgFd < 0 → s.window = 0
  noError : s.queError = false

lemma window_modify {s : State} {calls : List Call} {c : CallId} {f : Call → Call} {k : Call}
    (hk : s.calls[c]? = some k) (hcalls : calls = s.calls.modify c f) :
    calls.countP (fun k => k.pc = .pushed) + (if k.pc = .pushed then 1 else 0) =
      s.window + (if (f k).pc = .pushed then 1 else 0) := by
  have hm := countP_modify (fun k : Call => decide (k.pc = .pushed)) s.calls c f hk
  rw [hcalls]
  simpa [State.window] using hm

lemma window_modify_same {s : State} {calls : List Call} {c : CallId} {f : Call → Call}
    (hcalls : calls = s.calls.modify c f)
    (hf : ∀ k, s.calls[c]? = some k → ((f k).pc = .pushed ↔ k.pc = .pushed)) :
    calls.countP (fun k => k.pc = .pushed) = s.window := by
  rw [hcalls]
  exact countP_modify_same _ _ _ _ (fun k hk => by simpa using hf k hk)

lemma window_wake {s : State} {calls : List Call} {c : CallId}
    (hcalls : calls = s.calls.modify c Call.wake) :
    calls.countP (fun k => k.pc = .pushed) = s.window :=
  window_modify_same hcalls (fun k _ => by simpa using k.wake_pushed)

/-- A step that changes none of the counters keeps the balance. -/
lemma CountInv.frame {s s' : State} (hI : CountInv s)
    (heq : s'.mQuedMsgs = s.mQuedMsgs ∧ s'.eventfd = s.eventfd ∧ s'.mMsgFd = s.mMsgFd ∧
      s'.queError = s.queError)
    (hpc : s'.pc.left = s.pc.left ∧ (s'.pc.closing = false → s.pc.closing = false))
    (hw : s'.window = s.window) : CountInv s' := by
  obtain ⟨h1, h2, h3, h4⟩ := heq
  constructor
  · intro hc
    rw [h1, h2, hpc.1, hw]
    exact hI.count (hpc.2 hc)
  · intro hc hfd
    rw [hw]
    exact hI.closedFd (hpc.2 hc) (h3 ▸ hfd)
  · rw [h4]
    exact hI.noError

theorem CountInv.step {N : Int} (hN : N < 2 ^ 31 - 1) {s s' : State} {a : Action}
    (hP : PoolInv N s) (hI : CountInv s) (h : Step N s a s') : CountInv s' := by
  cases h with
  | posted c k slot m empty fresh hk hpc hm hfd ha hal =>
    have hw := window_modify_same (s := s) (c := c) (f := Call.leave (.posted 0)) rfl
      (fun k' hk' => by rw [hk, Option.some.injEq] at hk'; simp [← hk', hpc, Call.leave])
    refine ⟨fun hc => ?_, fun _ hfd' => ?_, hI.noError⟩
    · have hb := hI.count hc
      simp only [State.window, List.length_append, List.length_singleton] at hw hb ⊢
      omega
    · exact absurd hfd' (Int.not_lt.mpr hfd)
  | pushed c k slot m empty fresh hk hpc hm hfd ha hal =>
    have hw := window_modify (s := s) (f := Call.push) hk rfl
    simp only [hpc, Call.push, reduceCtorEq, if_false, if_true] at hw
    refine ⟨fun hc => ?_, fun _ hfd' => ?_, hI.noError⟩
    · have hb := hI.count hc
      simp only [State.window, List.length_append, List.length_singleton] at hw hb ⊢
      omega
    · exact absurd hfd' (Int.not_lt.mpr hfd)
  | write c hpc hfd =>
    obtain ⟨k, hk, hp⟩ := callPc_eq hpc
    have hw := window_modify (s := s) (f := fun k => { k with pc := .written }) hk rfl
    simp only [hp, reduceCtorEq, if_false, if_true] at hw
    refine ⟨fun hc => ?_, fun _ hfd' => ?_, hI.noError⟩
    · have hb := hI.count hc
      simp only [State.window] at hw hb ⊢
      omega
    · exact absurd hfd' (Int.not_lt.mpr hfd)
  | writeFails c hpc hfd =>
    -- before `closeMsg` a descriptor is open while a sender is in its window
    obtain ⟨k, hk, hp⟩ := callPc_eq hpc
    have hw := window_modify (s := s)
      (f := fun k => { k with pc := .returned .sendError, mtx := none }) hk rfl
    simp only [hp, reduceCtorEq, if_false, if_true] at hw
    refine ⟨fun hc => ?_, fun hc _ => ?_, hI.noError⟩
    · have h0 := hI.closedFd hc hfd
      omega
    · have h0 := hI.closedFd hc hfd
      omega
  | initMsg fd hpc hfd =>
    have hb := hI.count (by simp [hpc, TaskPc.closing])
    refine ⟨fun _ => ?_, fun _ hfd' => ?_, hI.noError⟩
    · simpa [TaskPc.left, State.window, hpc] using hb
    · simp only at hfd'
      omega
  | read hpc hx he =>
    have hb := hI.count (by simp [hpc, TaskPc.closing])
    simp only [hpc, TaskPc.left] at hb
    -- the kernel would evaluate the conversion, so it goes before the counters are unfolded
    rw [hP.toI32_eventfd hN (by omega), Int.toNat_natCast]
    refine ⟨fun _ => ?_, fun _ hfd => ?_, hI.noError⟩
    · simpa [State.window, TaskPc.left] using hb
    · exact hI.closedFd (by simp [hpc, TaskPc.closing]) hfd
  | popped left slot rest hpc hm hq =>
    have hb := hI.count (by simp [hpc, TaskPc.closing])
    simp only [hpc, TaskPc.left, hq, List.length_cons] at hb
    refine ⟨fun _ => ?_, fun _ hfd => ?_, hI.noError⟩
    · simp only [State.window, TaskPc.left] at hb ⊢
      omega
    · exact hI.closedFd (by simp [hpc, TaskPc.closing]) hfd
  | queError left hpc hm hq =>
    have hb := hI.count (by simp [hpc, TaskPc.closing])
    simp only [hpc, TaskPc.left, hq, List.length_nil] at hb
    omega
  | recycle slot left hpc =>
    exact hI.frame ⟨rfl, rfl, rfl, rfl⟩ (by simp [hpc, TaskPc.left, TaskPc.closing]) rfl
  | call a =>
    exact hI.frame ⟨rfl, rfl, rfl, rfl⟩ ⟨rfl, fun h => h⟩ (by simp [State.window])
  | closeMsg => exact ⟨by simp [State.closeFd, TaskPc.closing],
      by simp [State.closeFd, TaskPc.closing], hI.noError⟩
  | closeEmpty | drainSync | drainPost | drainEnd | drainUnlock | drainLock | drainNotify =>
    exact ⟨by simp [TaskPc.closing, *], by simp [TaskPc.closing, *], hI.noError⟩
  | refused c k hk hpc | queueFull c k hk hpc =>
    refine hI.frame ⟨rfl, rfl, rfl, rfl⟩ ⟨rfl, fun h => h⟩ (window_modify_same rfl ?_)
    intro k' hk'
    rw [hk, Option.some.injEq] at hk'
    simp [← hk', hpc, Call.leave]
  | wait c hpc | resume c hpc =>
    obtain ⟨k, hk, hp⟩ := callPc_eq hpc
    refine hI.frame ⟨rfl, rfl, rfl, rfl⟩ ⟨rfl, fun h => h⟩ (window_modify_same rfl ?_)
    intro k' hk'
    rw [hk, Option.some.injEq] at hk'
    simp [← hk', hp, Call.leave]
  | spuriousWake c => exact hI.frame ⟨rfl, rfl, rfl, rfl⟩ ⟨rfl, fun h => h⟩ (window_wake rfl)
  | notify slot left c hpc =>
    exact hI.frame ⟨rfl, rfl, rfl, rfl⟩ (by simp [hpc, TaskPc.left, TaskPc.closing])
      (window_wake rfl)
  | lockMtx slot left c hpc | unlockMtx slot left c hpc =>
    exact hI.frame ⟨rfl, rfl, rfl, rfl⟩ (by simp [hpc, TaskPc.left, TaskPc.closing])
      (window_modify_same rfl (fun _ _ => Iff.rfl))
  | setSendMsgResult slot left t code hpc =>
    refine hI.frame ⟨rfl, rfl, rfl, rfl⟩ ⟨rfl, fun h => h⟩ ?_
    simp only [State.window, State.setSendMsgResult]
    split
    · split
      · exact window_modify_same rfl (fun _ _ => Iff.rfl)
      · rfl
    · rfl
  | _ =>
    exact hI.frame ⟨rfl, rfl, rfl, rfl⟩
      (by simp [State.deliver, State.finish, State.createTaskMsgQue, State.destroyTaskMsgQue,
        TaskPc.left, TaskPc.closing, *])
      rfl

lemma CountInv.init : CountInv State.init := by
  constructor <;> simp [State.init, State.window, TaskPc.left]

theorem reachable_count {N : Int} (hN : N < 2 ^ 31 - 1) {s : State} (h : (queue N).Reachable s) :
    CountInv s :=
  h.invariant (fun _ h0 => h0 ▸ CountInv.init)
    (fun _ _ _ hr hI _ hs => hI.step hN (reachable_pool hN hr) (step_cases hs))

/-- What is claimed of a task between `run` and `closeMsg`. -/
def NoStranded (s : State) : Prop :=
  s.mQuedMsgs.length = s.eventfd + s.pc.left + s.window ∧ s.queError = false ∧
    (s.pc = .idle → s.eventfd = 0 → s.window = 0 → s.mQuedMsgs = [])

lemma CountInv.noStranded {s : State} (hI : CountInv s) (hc : s.pc.closing = false) :
    NoStranded s := by
  refine ⟨hI.count hc, hI.noError, fun hpc he hw => ?_⟩
  have hb := hI.count hc
  rw [hpc, he, hw] at hb
  exact List.length_eq_zero_iff.mp hb

/-- A `postMsg` made and served while the rest of the task stands still. -/
lemma post_leads {N : Int} {s : State} (hfd : 0 ≤ s.mMsgFd) (hm : s.mMsgMutex = false)
    (hroom : s.mEmptyMsgs ≠ [] ∨ toI32 (State.size s.mEmptyMsgs + State.size s.mQuedMsgs) < N) :
    ∃ s', (queue N).Leads s s' ∧ s'.mQuedMsgs.length = s.mQuedMsgs.length + 1 ∧
      s'.eventfd = s.eventfd + 1 ∧ s'.mEmptyMsgs = s.mEmptyMsgs.tail ∧ s'.window = s.window ∧
      s'.mMsgFd = s.mMsgFd ∧ s'.mMsgMutex = s.mMsgMutex ∧ s'.pc = s.pc ∧
      s'.exit_flag = s.exit_flag := by
  let k : Call := ⟨postMsg 1000 0 0, .called, 0, none⟩
  have hcall : (queue N).step s (.call k.args) = some { s with calls := s.calls ++ [k] } := rfl
  have hget : (s.calls ++ [k])[s.calls.length]? = some k := by simp
  have hwin : ((s.calls ++ [k]).modify s.calls.length (Call.leave (.posted 0))).countP
      (fun k => k.pc = .pushed) = s.window := by
    rw [countP_modify_same]
    · simp [State.window, k]
    · intro x hx
      rw [hget, Option.some.injEq] at hx
      simp [← hx, k, Call.leave]
  have hfd' : ¬ s.mMsgFd < 0 := by omega
  cases he : s.mEmptyMsgs with
  | nil =>
    have hlt := hroom.resolve_left (by simp [he])
    rw [he] at hlt
    refine ⟨_, .head hcall (.step .refl (a := .enter s.calls.length) (by
      simp only [queue, step, hget]
      rw [if_pos ⟨rfl, hm⟩]
      simp only [k, postMsg, State.postEdMsg, hfd', if_false, State.allocMsgObj, he, hlt, if_true,
        State.writeEventfd, State.enqueue, hfd]
      rfl)), ?_⟩
    simpa [State.updCall, State.window, k, postMsg] using hwin
  | cons slot rest =>
    refine ⟨_, .head hcall (.step .refl (a := .enter s.calls.length) (by
      simp only [queue, step, hget]
      rw [if_pos ⟨rfl, hm⟩]
      simp only [k, postMsg, State.postEdMsg, hfd', if_false, State.allocMsgObj, he, if_true,
        State.writeEventfd, State.enqueue, hfd]
      rfl)), ?_⟩
    simpa [State.updCall, State.window, k, postMsg] using hwin

/-- The pool can reach `2 ^ 31` slots when the limit is `2 ^ 31 - 1`, with all of them
queued. The count read from the eventfd and the size of `mQuedMsgs` are then negative as
an `int`. The first message is an `EDM_EXIT` if `last` is true. -/
structure Burst (last : Bool) (s : State) (n : Nat) : Prop where
  queued : s.mQuedMsgs.length = n
  counter : s.eventfd = n
  empty : s.mEmptyMsgs = []
  window : s.window = 0
  fd : s.mMsgFd = 5
  mutex : s.mMsgMutex = false
  pc : s.pc = .hand 0 0 .recycling
  exit : s.exit_flag = last

def burstPrefix : Bool → List Action
  | false => [.initMsg 5, .call (postMsg 1000 0 0), .enter 0, .msgevent_cb, .popMsg, .branch,
      .handlerReturn, .checkSync]
  | true => [.initMsg 5, .call (postMsg EDM_EXIT 0 0), .enter 0, .msgevent_cb, .popMsg, .branch,
      .checkSync]

lemma burst_zero (last : Bool) : ∃ s, (queue (2 ^ 31 - 1)).Reachable s ∧ Burst last s 0 := by
  obtain ⟨s, hr, hs⟩ := System.exists_of_exec (M := queue (2 ^ 31 - 1)) rfl
    (show ((queue (2 ^ 31 - 1)).exec State.init (burstPrefix last)).map
      (fun s => ((s.mQuedMsgs, s.eventfd, s.mEmptyMsgs, s.window),
        (s.mMsgFd, s.mMsgMutex, s.pc, s.exit_flag))) =
        some (([], 0, [], 0), (5, false, .hand 0 0 .recycling, last)) by cases last <;> decide)
  simp only [Prod.mk.injEq] at hs
  obtain ⟨⟨h1, h2, h3, h4⟩, h5, h6, h7, h8⟩ := hs
  exact ⟨s, hr, by simp [h1], h2, h3, h4, h5, h6, h7, h8⟩

lemma Burst.post {last : Bool} {s : State} {n : Nat} (hb : Burst last s n) (hn : n < 2 ^ 31 - 1) :
    ∃ s', (queue (2 ^ 31 - 1)).Leads s s' ∧ Burst last s' (n + 1) := by
  have hroom : toI32 (State.size s.mEmptyMsgs + State.size s.mQuedMsgs) < 2 ^ 31 - 1 := by
    rw [hb.empty, toI32_size (by rw [hb.queued]; omega), hb.queued]
    omega
  obtain ⟨s', hl, h1, h2, h3, h4, h5, h6, h7, h8⟩ :=
    post_leads (by rw [hb.fd]; decide) hb.mutex (.inr hroom)
  exact ⟨s', hl, by rw [h1, hb.queued], by rw [h2, hb.counter], by rw [h3, hb.empty]; rfl,
    by rw [h4, hb.window], by rw [h5, hb.fd], by rw [h6, hb.mutex], by rw [h7, hb.pc],
    by rw [h8, hb.exit]⟩

lemma burst_reachable (last : Bool) (n : Nat) (hn : n ≤ 2 ^ 31 - 1) :
    ∃ s, (queue (2 ^ 31 - 1)).Reachable s ∧ Burst last s n := by
  induction n with
  | zero => exact burst_zero last
  | succ n ih =>
    obtain ⟨s, hr, hb⟩ := ih (by omega)
    obtain ⟨s', hl, hb'⟩ := hb.post (by omega)
    exact ⟨s', hr.leads hl, hb'⟩

/-- The slot in hand is recycled while all others are queued, and the dispatcher is idle. -/
lemma burst_idle (last : Bool) : ∃ s, (queue (2 ^ 31 - 1)).Reachable s ∧ s.pc = .idle ∧
    s.mEmptyMsgs = [0] ∧ s.mQuedMsgs.length = 2 ^ 31 - 1 ∧ s.eventfd = 2 ^ 31 - 1 ∧
    s.window = 0 ∧ s.mMsgFd = 5 ∧ s.mMsgMutex = false ∧ s.exit_flag = last := by
  obtain ⟨s, hr, hb⟩ := burst_reachable last (2 ^ 31 - 1) (Nat.le_refl _)
  let s1 : State := { s with mEmptyMsgs := s.mEmptyMsgs ++ [0], pc := .loop 0 }
  have h1 : (queue (2 ^ 31 - 1)).step s .recycle = some s1 := by
    simp [queue, step, hb.pc, hb.mutex, s1]
  have h2 : (queue (2 ^ 31 - 1)).step s1 .endLoop = some { s1 with pc := .idle } := rfl
  exact ⟨_, .step (.step hr trivial h1) trivial h2, rfl, by simp [s1, hb.empty], hb.queued,
    hb.counter, hb.window, hb.fd, hb.mutex, hb.exit⟩

/-- With the largest limit the dispatcher can leave `2 ^ 31` messages behind. -/
lemma stranded_reachable : ∃ s, (queue (2 ^ 31 - 1)).Reachable s ∧ s.pc = .idle ∧
    s.eventfd = 0 ∧ s.window = 0 ∧ s.mQuedMsgs.length = 2 ^ 31 := by
  obtain ⟨s, hr, hpc, hempty, hqueued, hcounter, hwindow, hfd, hmutex, hexit⟩ := burst_idle false
  obtain ⟨s3, hl, hq, he, -, hw, -, -, hpc3, hx3⟩ := post_leads (N := 2 ^ 31 - 1)
    (by rw [hfd]; decide) hmutex (.inl (by simp [hempty]))
  have he3 : s3.eventfd = 2 ^ 31 := by rw [he, hcounter]; rfl
  let s4 : State := { s3 with eventfd := 0, pc := .loop 0 }
  have h4 : (queue (2 ^ 31 - 1)).step s3 .msgevent_cb = some s4 := by
    have hcnt : toI32 2147483648 ≤ 0 := by decide
    simp [queue, step, hpc3.trans hpc, hx3.trans hexit, he3, s4, hcnt]
  have h5 : (queue (2 ^ 31 - 1)).step s4 .endLoop = some { s4 with pc := .idle } := rfl
  refine ⟨_, .step (.step (hr.leads hl) trivial h4) trivial h5, rfl, rfl, ?_, ?_⟩
  · exact hw.trans hwindow
  · exact hq.trans (by rw [hqueued]; rfl)

/-- The counters balance before `closeMsg` in every run, and no message is left behind, if
and only if the limit given to `run` is below the largest `int`. -/
theorem noStranded_iff (msgqnum : Int) :
    (∀ s, (queue (toI32 msgqnum)).Reachable s → s.pc.closing = false → NoStranded s) ↔
      toI32 msgqnum ≠ 2 ^ 31 - 1 := by
  constructor
  · intro h hmax
    obtain ⟨s, hr, hpc, he, hw, hq⟩ := stranded_reachable
    have hc : s.pc.closing = false := by simp [hpc, TaskPc.closing]
    have hnil := (h s (hmax ▸ hr) hc).2.2 hpc he hw
    rw [hnil] at hq
    simp at hq
  · intro hne s hr hc
    have hlt : toI32 msgqnum < 2 ^ 31 := by
      have := Int.bmod_lt (x := msgqnum) (m := 2 ^ 32) (by decide)
      unfold toI32
      omega
    exact (reachable_count (by omega) hr).noStranded hc

theorem not_noStranded_max : ¬ ∀ s, (queue (2 ^ 31 - 1)).Reachable s → s.pc.closing = false →
    NoStranded s := by
  intro h
  obtain ⟨s, hr, hpc, he, hw, hq⟩ := stranded_reachable
  have hnil := (h s hr (by simp [hpc, TaskPc.closing])).2.2 hpc he hw
  rw [hnil] at hq
  simp at hq

end EdNio.Task
