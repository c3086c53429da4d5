import Mathlib.Tactic.Lemma

/-!
# EdSocket

The functions of `EdSocket` and of `EdEvent` under it that open, register and close a
socket, in `MODE_EDEV` on the thread of the task. What the kernel answers is an argument.
-/

namespace EdNio.Net

/-- Outcome of a `write`. `took k` takes `k + 1` bytes, or all if there are fewer. -/
inductive WriteResult
  | took (k : Nat)
  | again
  | error
deriving DecidableEq, Repr

/-- The return value of a `write` of `bytes`, and the bytes taken. -/
def write (bytes : List UInt8) : WriteResult → Int × List UInt8
  | .took k => ((bytes.take (k + 1)).length, bytes.take (k + 1))
  | .again => (-1, [])
  | .error => (-1, [])

lemma write_fst (bytes : List UInt8) (r : WriteResult) :
    (write bytes r).1 = bytes.length → (write bytes r).2 = bytes := by
  intro h
  cases r with
  | took k =>
    simp only [write, List.length_take, Int.natCast_inj] at h ⊢
    exact List.take_of_length_le (by omega)
  | again | error =>
    simp only [write] at h
    omega

/-- A write that takes bytes takes the first ones. -/
lemma write_snd (bytes : List UInt8) (r : WriteResult) :
    (write bytes r).2 = bytes.take (write bytes r).1.toNat ∧
      (write bytes r).1.toNat ≤ bytes.length := by
  cases r with
  | took k =>
    simp only [write, Int.toNat_natCast, List.length_take]
    exact ⟨List.take_eq_take_min, Nat.min_le_right _ _⟩
  | again => exact ⟨rfl, Nat.zero_le _⟩
  | error => exact ⟨rfl, Nat.zero_le _⟩

/-- Events watched by epoll. -/
structure Interest where
  evtRead : Bool
  evtWrite : Bool
  evtHangup : Bool
deriving DecidableEq, Repr

inductive Status
  | SOCK_STATUS_DISCONNECTED
  | SOCK_STATUS_CONNECTING
  | SOCK_STATUS_CONNECTED
  | SOCK_STATUS_LISTENING
deriving DecidableEq, Repr

inductive SockType
  | SOCK_TYPE_TCP
  | SOCK_TYPE_UDP
  | SOCK_TYPE_UNIXSTREAM
  | SOCK_TYPE_UNIXDGRAM
deriving DecidableEq, Repr

/-- What `mEvt` points to. `id` tells registrations apart. -/
structure Registration where
  id : Nat
  fd : Nat
  interest : Interest
deriving DecidableEq, Repr

/-- `mFd` is none for -1, and `mTask` says that the pointer to the task is not NULL. -/
structure EdSocket where
  mFd : Option Nat
  mEvt : Option Registration
  mIsReg : Bool
  mTask : Bool
  mStatus : Status
  mType : SockType
  mIsListen : Bool
  mIsBinded : Bool
deriving DecidableEq, Repr

/-- What a `connect` on a unix socket answers. -/
inductive CnnResult
  | connected
  | inProgress
  | failed
deriving DecidableEq, Repr

namespace EdSocket

variable (s : EdSocket)

def new : EdSocket where
  mFd := none
  mEvt := none
  mIsReg := false
  mTask := false
  mStatus := .SOCK_STATUS_DISCONNECTED
  mType := .SOCK_TYPE_TCP
  mIsListen := false
  mIsBinded := false

def setFd (fd : Option Nat) : EdSocket :=
  { s with mFd := fd, mTask := true }

/-- `pevt` is the registration that `regEdEvent` makes, none if `epoll_ctl` fails, as it does
on a descriptor of -1. A call through a task of NULL ends the process. -/
def registerEvent (flags : Interest) (pevt : Option Nat) : Option EdSocket :=
  if s.mIsReg then some s
  else if s.mEvt = none then
    if s.mTask then
      some { s with
        mEvt := s.mFd.bind (fun fd => pevt.map (fun id => ⟨id, fd, flags⟩))
        mIsReg := true }
    else none
  else some s

def deregisterEvent : EdSocket :=
  if s.mIsReg = false then s
  else { s with mEvt := none, mIsReg := false, mTask := false }

def changeEvent (flags : Interest) (pevt : Option Nat) : Option EdSocket :=
  match s.mEvt with
  | some e => some { s with mEvt := some { e with interest := flags } }
  | none => s.registerEvent flags pevt

/-- `fd` is the result of `socket`. -/
def openSock (type : SockType) (fd : Option Nat) : EdSocket :=
  { s with mType := type }.setFd fd

def openChildSock (fd : Nat) (pevt : Option Nat) : Option EdSocket :=
  { s.setFd (some fd) with
    mStatus := .SOCK_STATUS_CONNECTED
    mType := .SOCK_TYPE_TCP }.registerEvent ⟨true, false, true⟩ pevt

/-- `bound` says that `bind` succeeds; a descriptor is opened when there is none. -/
def bindSock (fd : Option Nat) (bound : Bool) (pevt : Option Nat) : Option EdSocket :=
  let s := if s.mFd = none then s.openSock .SOCK_TYPE_TCP fd else s
  if bound then { s with mIsBinded := true }.registerEvent ⟨true, false, false⟩ pevt
  else some s

/-- `listened` says that `listen` succeeds. -/
def listenSock (fd : Option Nat) (bound listened : Bool) (pevt : Option Nat) :
    Option EdSocket :=
  let s := { s with mIsListen := true }
  let bind := if s.mIsBinded = false then s.bindSock fd bound pevt else some s
  bind.bind (fun t =>
    if s.mIsBinded = false ∧ bound = false then some t
    else if (t.mType = .SOCK_TYPE_TCP ∨ t.mType = .SOCK_TYPE_UNIXSTREAM) ∧ listened then
      t.registerEvent ⟨true, false, false⟩ pevt
    else some t)

def close : EdSocket :=
  let s := if s.mFd.isSome then
      { s.deregisterEvent with mFd := none, mStatus := .SOCK_STATUS_DISCONNECTED }
    else s
  { s with mIsBinded := false }

/-- `connect(ip, port)`. -/
def connectIp (fd : Option Nat) (pevt : Option Nat) : Option EdSocket :=
  if s.mStatus ≠ .SOCK_STATUS_DISCONNECTED then some s
  else
    let s := if s.mFd = none then s.openSock .SOCK_TYPE_TCP fd else s
    if s.mType = .SOCK_TYPE_TCP then
      (s.registerEvent ⟨false, true, true⟩ pevt).map (fun t =>
        { t with mStatus := .SOCK_STATUS_CONNECTING })
    else some s

/-- `connect(addr, port)`. -/
def connectAddr (fd : Option Nat) (cnn : CnnResult) (pevt : Option Nat) : Option EdSocket :=
  if s.mType = .SOCK_TYPE_TCP ∨ s.mType = .SOCK_TYPE_UDP then s.connectIp fd pevt
  else if s.mStatus ≠ .SOCK_STATUS_DISCONNECTED then some s
  else
    match cnn with
    | .connected =>
      { s with mStatus := .SOCK_STATUS_CONNECTED }.registerEvent ⟨true, false, true⟩ pevt
    | .inProgress =>
      { s with mStatus := .SOCK_STATUS_CONNECTING }.registerEvent ⟨true, false, true⟩ pevt
    | .failed => some { s with mStatus := .SOCK_STATUS_DISCONNECTED }

/-- The connection is established: the branch of `OnEventWrite` up to `OnConnected`. -/
def completeConnection (pevt : Option Nat) : Option EdSocket :=
  { s with mStatus := .SOCK_STATUS_CONNECTED }.changeEvent ⟨true, false, true⟩ pevt

variable {s : EdSocket} {t : EdSocket}

lemma registerEvent_cases {flags : Interest} {pevt : Option Nat}
    (h : s.registerEvent flags pevt = some t) :
    t = s ∨ t = { s with
      mEvt := s.mFd.bind (fun fd => pevt.map (fun id => ⟨id, fd, flags⟩)), mIsReg := true } := by
  unfold registerEvent at h
  split at h
  · exact .inl (Option.some.inj h).symm
  · split at h
    · split at h
      · exact .inr (Option.some.inj h).symm
      · cases h
    · exact .inl (Option.some.inj h).symm

lemma registerEvent_mFd {flags : Interest} {pevt : Option Nat}
    (h : s.registerEvent flags pevt = some t) : t.mFd = s.mFd := by
  rcases registerEvent_cases h with rfl | rfl <;> rfl

lemma changeEvent_mFd {flags : Interest} {pevt : Option Nat}
    (h : s.changeEvent flags pevt = some t) : t.mFd = s.mFd := by
  unfold changeEvent at h
  split at h
  · cases h
    rfl
  · exact registerEvent_mFd h

lemma changeEvent_mStatus {flags : Interest} {pevt : Option Nat}
    (h : s.changeEvent flags pevt = some t) : t.mStatus = s.mStatus := by
  unfold changeEvent at h
  split at h
  · cases h
    rfl
  · rcases registerEvent_cases h with rfl | rfl <;> rfl

lemma completeConnection_mFd {pevt : Option Nat} (h : s.completeConnection pevt = some t) :
    t.mFd = s.mFd := by
  have hc := changeEvent_mFd h
  exact hc

/-- `bindSock` and `connect` open a descriptor when there is none. -/
def opened (s : EdSocket) (fd : Option Nat) : EdSocket :=
  if s.mFd = none then s.openSock .SOCK_TYPE_TCP fd else s

/-- What a call does to its socket with a descriptor there: it sets fields that are not of
`EdEvent`, and registers for `flags`. -/
inductive Registers (flags : Interest) (s : EdSocket) : EdSocket → Prop
  | refl : Registers flags s s
  | mark {t u : EdSocket} (h : Registers flags s t) (hfd : u.mFd = t.mFd)
      (hevt : u.mEvt = t.mEvt) (hreg : u.mIsReg = t.mIsReg) (htask : u.mTask = t.mTask) :
      Registers flags s u
  | register {t u : EdSocket} {pevt : Option Nat} (h : Registers flags s t)
      (hs : t.registerEvent flags pevt = some u) : Registers flags s u

namespace Registers

variable {flags : Interest} {u : EdSocket}

lemma trans (h : s.Registers flags t) (h' : t.Registers flags u) : s.Registers flags u := by
  induction h' with
  | refl => exact h
  | mark _ hfd hevt hreg htask ih => exact .mark ih hfd hevt hreg htask
  | register _ hs ih => exact .register ih hs

lemma mFd (h : s.Registers flags t) : t.mFd = s.mFd := by
  induction h with
  | refl => rfl
  | mark _ hfd _ _ _ ih => exact hfd.trans ih
  | register _ hs ih => exact (registerEvent_mFd hs).trans ih

end Registers

lemma openChildSock_registers {fd : Nat} {pevt : Option Nat}
    (h : s.openChildSock fd pevt = some t) :
    (s.setFd (some fd)).Registers ⟨true, false, true⟩ t := by
  have hmark : (s.setFd (some fd)).Registers ⟨true, false, true⟩ { s.setFd (some fd) with
      mStatus := .SOCK_STATUS_CONNECTED, mType := .SOCK_TYPE_TCP } :=
    .mark .refl rfl rfl rfl rfl
  exact .register hmark h

lemma bindSock_registers {fd pevt : Option Nat} {bound : Bool}
    (h : s.bindSock fd bound pevt = some t) :
    (s.opened fd).Registers ⟨true, false, false⟩ t := by
  unfold bindSock at h
  change (if bound then { s.opened fd with mIsBinded := true }.registerEvent _ pevt
    else some (s.opened fd)) = some t at h
  have hmark : (s.opened fd).Registers ⟨true, false, false⟩
      { s.opened fd with mIsBinded := true } := .mark .refl rfl rfl rfl rfl
  split at h
  · exact .register hmark h
  · cases h
    exact .refl

lemma listenSock_cases {fd pevt : Option Nat} {bound listened : Bool}
    (h : s.listenSock fd bound listened pevt = some t) :
    (s.mIsBinded = false ∧ (s.opened fd).Registers ⟨true, false, false⟩ t) ∨
      (s.mIsBinded = true ∧ s.Registers ⟨true, false, false⟩ t) := by
  unfold listenSock at h
  dsimp only at h
  obtain ⟨u, hu, h⟩ := Option.bind_eq_some_iff.mp h
  have hlast : u.Registers ⟨true, false, false⟩ t := by
    split at h
    · cases h
      exact .refl
    split at h
    · exact .register .refl h
    · cases h
      exact .refl
  split at hu
  · rename_i hbinded
    have hopen : (s.opened fd).Registers ⟨true, false, false⟩
        ({ s with mIsListen := true }.opened fd) := by
      unfold opened
      dsimp only
      split <;> exact .mark .refl rfl rfl rfl rfl
    exact .inl ⟨hbinded, (hopen.trans (bindSock_registers hu)).trans hlast⟩
  · rename_i hbinded
    cases hu
    refine .inr ⟨by simpa using hbinded, Registers.trans ?_ hlast⟩
    exact .mark .refl rfl rfl rfl rfl

lemma connectIp_cases {fd pevt : Option Nat} (h : s.connectIp fd pevt = some t) :
    (s.mStatus = .SOCK_STATUS_DISCONNECTED ∧
        (s.opened fd).Registers ⟨false, true, true⟩ t) ∨
      (s.mStatus ≠ .SOCK_STATUS_DISCONNECTED ∧ t = s) := by
  unfold connectIp at h
  split at h
  · rename_i hst
    cases h
    exact .inr ⟨hst, rfl⟩
  rename_i hst
  refine .inl ⟨Decidable.not_not.mp hst, ?_⟩
  change (if (s.opened fd).mType = .SOCK_TYPE_TCP then
    ((s.opened fd).registerEvent _ pevt).map _ else some (s.opened fd)) = some t at h
  split at h
  · obtain ⟨u, hu, rfl⟩ := Option.map_eq_some_iff.mp h
    exact .mark (.register .refl hu) rfl rfl rfl rfl
  · cases h
    exact .refl

lemma connectAddr_cases {fd pevt : Option Nat} {cnn : CnnResult}
    (h : s.connectAddr fd cnn pevt = some t) :
    ((s.mType = .SOCK_TYPE_TCP ∨ s.mType = .SOCK_TYPE_UDP) ∧ s.connectIp fd pevt = some t) ∨
      (¬(s.mType = .SOCK_TYPE_TCP ∨ s.mType = .SOCK_TYPE_UDP) ∧
        s.Registers ⟨true, false, true⟩ t) := by
  unfold connectAddr at h
  split at h
  · rename_i htype
    exact .inl ⟨htype, h⟩
  rename_i htype
  refine .inr ⟨htype, ?_⟩
  split at h
  · cases h
    exact .refl
  have hstatus : ∀ st, s.Registers ⟨true, false, true⟩ { s with mStatus := st } :=
    fun _ => .mark .refl rfl rfl rfl rfl
  cases cnn with
  | connected => exact .register (hstatus _) h
  | inProgress => exact .register (hstatus _) h
  | failed =>
    cases h
    exact hstatus _

lemma opened_of_isSome (fd : Option Nat) (hfd : s.mFd.isSome = true) : s.opened fd = s :=
  if_neg (Option.isSome_iff_ne_none.mp hfd)

lemma connectIp_mFd {fd pevt : Option Nat} (h : s.connectIp fd pevt = some t)
    (hfd : s.mFd.isSome = true) : t.mFd = s.mFd := by
  rcases connectIp_cases h with ⟨-, hr⟩ | ⟨-, rfl⟩
  · rw [opened_of_isSome fd hfd] at hr
    exact hr.mFd
  · rfl

lemma connectAddr_mFd {fd pevt : Option Nat} {cnn : CnnResult}
    (h : s.connectAddr fd cnn pevt = some t) (hfd : s.mFd.isSome = true) : t.mFd = s.mFd := by
  rcases connectAddr_cases h with ⟨-, hs⟩ | ⟨-, hr⟩
  · exact connectIp_mFd hs hfd
  · exact hr.mFd

lemma close_mFd (s : EdSocket) : s.close.mFd = none := by
  unfold close
  cases h : s.mFd with
  | none => simp [h]
  | some fd => simp

end EdSocket

end EdNio.Net
