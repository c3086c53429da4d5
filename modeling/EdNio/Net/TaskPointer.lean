import EdNio.Net.EdSocket

/-!
# The task pointer of a socket

`setFd` gives an `EdEvent` its task, and `deregisterEvent` takes it away. Every other function
leaves `mTask` as it is.
-/

namespace EdNio.Net

/-- What gives a socket its task, or takes it away. -/
inductive Link
  | opened
  | closed
deriving DecidableEq, Repr

/-- Whether there is a task after `l`. -/
def Link.after (task : Bool) : Option Link → Bool
  | none => task
  | some l => l = .opened

namespace EdSocket

variable (s : EdSocket)

/-- `opened` as it is for the task. -/
def opens : Option Link := if s.mFd = none then some .opened else none

def listens : Option Link := if s.mIsBinded = false then s.opens else none

def connectsIp : Option Link :=
  if s.mStatus = .SOCK_STATUS_DISCONNECTED then s.opens else none

def connectsAddr : Option Link :=
  if s.mType = .SOCK_TYPE_TCP ∨ s.mType = .SOCK_TYPE_UDP then s.connectsIp else none

/-- `close` of a socket that is registered. -/
def closes : Option Link := if s.mFd.isSome ∧ s.mIsReg then some .closed else none

/-- What a socket has needs a task: a descriptor, a registration. -/
structure Tasked : Prop where
  mFd : s.mFd.isSome = true → s.mTask = true
  mIsReg : s.mIsReg = true → s.mTask = true
  mEvt : s.mEvt.isSome = true → s.mIsReg = true

/-- The socket has become `t`, and `l` is what happened to its task. -/
def Moves (l : Option Link) (t : EdSocket) : Prop :=
  t.Tasked ∧ t.mTask = Link.after s.mTask l

variable {s t : EdSocket} {flags : Interest} {pevt fd : Option Nat}

lemma Tasked.moves (h : s.Tasked) : s.Moves none s := ⟨h, rfl⟩

lemma Tasked.new : new.Tasked := by
  constructor <;> simp [EdSocket.new]

lemma Tasked.setFd (h : s.Tasked) (fd : Option Nat) : s.Moves (some .opened) (s.setFd fd) :=
  ⟨⟨fun _ => rfl, fun _ => rfl, h.mEvt⟩, rfl⟩

lemma Tasked.registerEvent (h : s.Tasked) (hs : s.registerEvent flags pevt = some t) :
    s.Moves none t := by
  unfold EdSocket.registerEvent at hs
  split at hs
  · cases hs
    exact h.moves
  split at hs
  · split at hs
    · rename_i htask
      cases hs
      exact ⟨⟨h.mFd, fun _ => htask, fun _ => rfl⟩, rfl⟩
    · cases hs
  · cases hs
    exact h.moves

lemma Tasked.changeEvent (h : s.Tasked) (hs : s.changeEvent flags pevt = some t) :
    s.Moves none t := by
  unfold EdSocket.changeEvent at hs
  split at hs
  · rename_i e he
    cases hs
    exact ⟨⟨h.mFd, h.mIsReg, fun _ => h.mEvt (by rw [he]; rfl)⟩, rfl⟩
  · exact h.registerEvent hs

lemma Tasked.completeConnection (h : s.Tasked) (hs : s.completeConnection pevt = some t) :
    s.Moves none t := by
  have hstatus : { s with mStatus := .SOCK_STATUS_CONNECTED }.Tasked := ⟨h.mFd, h.mIsReg, h.mEvt⟩
  exact hstatus.changeEvent hs

lemma Tasked.openSock (h : s.Tasked) (type : SockType) (fd : Option Nat) :
    s.Moves (some .opened) (s.openSock type fd) :=
  ⟨⟨fun _ => rfl, fun _ => rfl, h.mEvt⟩, rfl⟩

/-- With the descriptor there, a call leaves the task as it is. -/
lemma Moves.registers {l : Option Link} {u : EdSocket} (h : s.Moves l u)
    (hr : u.Registers flags t) : s.Moves l t := by
  induction hr with
  | refl => exact h
  | mark _ hfd hevt hreg htask ih =>
    obtain ⟨ih, heq⟩ := ih
    refine ⟨⟨?_, ?_, ?_⟩, htask.trans heq⟩
    · rw [hfd, htask]
      exact ih.mFd
    · rw [hreg, htask]
      exact ih.mIsReg
    · rw [hevt, hreg]
      exact ih.mEvt
  | register _ hs ih =>
    obtain ⟨ht, heq⟩ := ih.1.registerEvent hs
    exact ⟨ht, heq.trans ih.2⟩

lemma Tasked.openChildSock (h : s.Tasked) {fd : Nat} (hs : s.openChildSock fd pevt = some t) :
    s.Moves (some .opened) t :=
  (h.setFd (some fd)).registers (openChildSock_registers hs)

lemma Tasked.opened (h : s.Tasked) (fd : Option Nat) : s.Moves s.opens (s.opened fd) := by
  unfold opens EdSocket.opened
  split
  · exact h.openSock _ _
  · exact h.moves

lemma Tasked.bindSock (h : s.Tasked) {bound : Bool} (hs : s.bindSock fd bound pevt = some t) :
    s.Moves s.opens t :=
  (h.opened fd).registers (bindSock_registers hs)

lemma Tasked.listenSock (h : s.Tasked) {bound listened : Bool}
    (hs : s.listenSock fd bound listened pevt = some t) : s.Moves s.listens t := by
  unfold listens
  rcases listenSock_cases hs with ⟨hbinded, hr⟩ | ⟨hbinded, hr⟩
  · rw [if_pos hbinded]
    exact (h.opened fd).registers hr
  · rw [if_neg (by rw [hbinded]; decide)]
    exact h.moves.registers hr

lemma Tasked.connectIp (h : s.Tasked) (hs : s.connectIp fd pevt = some t) :
    s.Moves s.connectsIp t := by
  unfold connectsIp
  rcases connectIp_cases hs with ⟨hst, hr⟩ | ⟨hst, rfl⟩
  · rw [if_pos hst]
    exact (h.opened fd).registers hr
  · rw [if_neg hst]
    exact h.moves

lemma Tasked.connectAddr (h : s.Tasked) {cnn : CnnResult}
    (hs : s.connectAddr fd cnn pevt = some t) : s.Moves s.connectsAddr t := by
  unfold connectsAddr
  rcases connectAddr_cases hs with ⟨htype, hs⟩ | ⟨htype, hr⟩
  · rw [if_pos htype]
    exact h.connectIp hs
  · rw [if_neg htype]
    exact h.moves.registers hr

lemma Tasked.mEvt_none (h : s.Tasked) (hreg : s.mIsReg = false) : s.mEvt = none := by
  cases he : s.mEvt with
  | none => rfl
  | some e =>
    have hr := h.mEvt (by rw [he]; rfl)
    rw [hreg] at hr
    cases hr

lemma Tasked.close (h : s.Tasked) : s.Moves s.closes s.close := by
  unfold EdSocket.close closes
  by_cases hfd : s.mFd.isSome = true
  · rw [if_pos hfd]
    unfold deregisterEvent
    cases hreg : s.mIsReg with
    | false =>
      have hevt := h.mEvt_none hreg
      have htask := h.mFd hfd
      exact ⟨by constructor <;> simp [hevt, htask], by simp [Link.after]⟩
    | true =>
      exact ⟨by constructor <;> simp, by simp [hfd, Link.after]⟩
  · rw [if_neg hfd, if_neg (fun hc => hfd hc.1)]
    exact ⟨⟨h.mFd, h.mIsReg, h.mEvt⟩, rfl⟩

/-- `changeEvent` goes through a task of NULL when the socket has none. -/
lemma Tasked.changeEvent_isSome (h : s.Tasked) (flags : Interest) (pevt : Option Nat) :
    (s.changeEvent flags pevt).isSome = s.mTask := by
  cases htask : s.mTask with
  | true =>
    unfold EdSocket.changeEvent EdSocket.registerEvent
    rw [htask, if_pos rfl]
    cases s.mEvt <;> cases s.mIsReg <;> rfl
  | false =>
    have hreg : s.mIsReg = false := by
      cases hr : s.mIsReg with
      | false => rfl
      | true =>
        have ht := h.mIsReg hr
        rw [htask] at ht
        cases ht
    simp [EdSocket.changeEvent, EdSocket.registerEvent, h.mEvt_none hreg, hreg, htask]

end EdSocket

end EdNio.Net
