import EdNio.Library.Transition
import EdNio.Net.DerivedSocket
import EdNio.Net.SmartSocket

/-!
# A smart socket with SSL

`EdSmartSocket` in `SOCKET_SSL` mode, from the opening of a session on. Reading and writing
share the events that the socket is watched for: `changeSSLSockEvent` sets them to what the
last call of OpenSSL wanted, and the write handler to those of reading, when it has nothing
left to write.
-/

namespace EdNio.Net
open Transition SocketObj

/-- Values of `mSSLWantEvent` other than 0. -/
inductive WantEvent
  | EVT_READ
  | EVT_WRITE
deriving DecidableEq, Repr

/-- The pointers to OpenSSL are true when they are not NULL. For the proofs: `writes` are the
bytes given to `SSL_write`, call by call, `lastWant` is the last error that asked to wait,
unless `reserveWrite` was called after it, `handshakeOnly` says that the user has not called
`sendPacket` or `recvPacket` and the handshake has not failed, and `handled` that an event has
come since it succeeded. -/
structure SmartSSLFields where
  mSSL : Bool
  mSSLCtx : Bool
  mSessionConencted : Bool
  mSSLWantEvent : Option WantEvent
  mPendingBuf : Option (List UInt8)
  mPendingSize : Nat
  mPendingWriteCnt : Nat
  writes : List (List UInt8)
  lastWant : Option SSLError
  handshakeOnly : Bool
  handled : Bool
deriving DecidableEq, Repr

abbrev SmartSSL := SocketObj SmartSSLFields NetEvent

namespace SmartSSL

variable (s : SmartSSL)

def new : SmartSSL where
  sock := .new
  own := ⟨false, false, false, none, none, 0, 0, [], none, true, false⟩
  lastSockErrorNo := 0
  stack := []
  setBy := .opened

def changeSSLSockEvent (err : SSLError) (pevt : Option Nat) : Option SmartSSL :=
  match err with
  | .SSL_ERROR_WANT_WRITE =>
    let own := { s.own with mSSLWantEvent := some .EVT_WRITE, lastWant := some err }
    changeEvent { s with own := own } ⟨false, true, true⟩ (.want .SSL_ERROR_WANT_WRITE) pevt
  | .SSL_ERROR_WANT_READ =>
    let own := { s.own with mSSLWantEvent := some .EVT_READ, lastWant := some err }
    changeEvent { s with own := own } ⟨true, false, true⟩ (.want .SSL_ERROR_WANT_READ) pevt
  | .SSL_ERROR_ZERO_RETURN =>
    some { s with own := { s.own with mSSLWantEvent := none, handshakeOnly := false } }
  | _ => some s

def close : SmartSSL :=
  let t := if s.own.mSSL then
      { s with own := { s.own with mSSL := false, mSSLCtx := false, mSessionConencted := false } }
    else s
  let t := t.closeSock
  { t with own := { t.own with mPendingBuf := none } }

def sslClass : SSLClass SmartSSLFields NetEvent where
  connected s :=
    (setError { s with own := { s.own with mSessionConencted := true } } 0).map (fun s =>
      s.push (.listener .NETEV_CONNECTED))
  closeNeedEnd s :=
    procSSLErrCloseNeedEnd { s with own := { s.own with handshakeOnly := false } }
      .NETEV_DISCONNECTED
  changeSSLSockEvent := changeSSLSockEvent

/-- `SSL_connect` and `SSL_accept` do not take NULL. -/
def procSSLConnect (a : Answers) : Option SmartSSL :=
  if s.own.mSSL then sslClass.procSSLConnect s a else none

def procSSLRead (a : Answers) : Option SmartSSL :=
  if s.own.mSessionConencted = false then s.procSSLConnect a
  else some (s.push (.listener .NETEV_READABLE))

/-- What `procSSLOnWrite` gives to `SSL_write`. -/
def pendingBytes : List UInt8 :=
  ((s.own.mPendingBuf.getD []).drop s.own.mPendingWriteCnt).take
    (s.own.mPendingSize - s.own.mPendingWriteCnt)

/-- The packet has been written. -/
def freePending : SmartSSL :=
  { s with own := { s.own with mPendingBuf := none, mPendingSize := 0, mPendingWriteCnt := 0 } }

def procSSLOnWrite (a : Answers) : Option SmartSSL :=
  if s.own.mSessionConencted = false then s.procSSLConnect a
  else
    match s.own.mPendingBuf with
    | some _ =>
      if s.own.mSSL then
        let t : SmartSSL := { s with own := { s.own with
          mSSLWantEvent := none
          writes := s.own.writes ++ [s.pendingBytes] } }
        if a.ssl.ret > 0 then
          let t : SmartSSL := { t with own := { t.own with
            mPendingWriteCnt := t.own.mPendingWriteCnt + a.ssl.ret.toNat } }
          if t.own.mPendingWriteCnt = t.own.mPendingSize then
            (t.changeEvent ⟨true, false, true⟩ .drained a.pevt).map (fun t =>
              (freePending t).push (.listener .NETEV_WRITABLE))
          else some t
        else changeSSLSockEvent t a.ssl.err a.pevt
      else none
    | none =>
      (if s.own.mSSLWantEvent ≠ some .EVT_WRITE then
        s.changeEvent ⟨true, false, true⟩ .drained a.pevt
      else some s).map (fun t => t.push (.listener .NETEV_WRITABLE))

/-- An event has come. -/
def atEvent : SmartSSL :=
  { s with own := { s.own with handled := s.own.handled || s.own.mSessionConencted } }

def fireRead (a : Answers) : Option SmartSSL :=
  s.atEvent.procSSLRead a

def fireWrite (a : Answers) : Option SmartSSL :=
  s.atEvent.procSSLOnWrite a

/-- `SSL_new` gives NULL for a context of NULL, and `SSL_set_fd` does not take it. -/
def startHandshake (a : Answers) : Option SmartSSL :=
  if s.own.mSSL = false ∧ s.own.mSessionConencted = false then
    if s.own.mSSLCtx then procSSLConnect { s with own := { s.own with mSSL := true } } a
    else none
  else some s

def fireDisconnected : SmartSSL :=
  if s.own.mSessionConencted then s.push (.listener .NETEV_DISCONNECTED) else s

def overrides : Overrides SmartSSLFields NetEvent where
  OnRead := fireRead
  OnWrite := fireWrite
  OnConnected := startHandshake
  OnDisconnected := fireDisconnected
  close := close

/-- The call is not one of the handshake. -/
def byUser : SmartSSL :=
  { s with own := { s.own with handshakeOnly := false } }

/-- `SSL_write` does not take NULL. -/
def sendPacket (buf : List UInt8) (a : Answers) : Option (SendResult × SmartSSL) :=
  let s := s.byUser
  if s.own.mPendingBuf.isSome then some (.SEND_FAIL, s)
  else if s.own.mSSL then
    let t : SmartSSL := { s with own := { s.own with
      mPendingBuf := some buf
      mPendingSize := buf.length
      mPendingWriteCnt := 0
      mSSLWantEvent := none
      writes := s.own.writes ++ [buf] } }
    if a.ssl.ret = buf.length then some (.SEND_OK, t.freePending)
    else if a.ssl.ret ≤ 0 then
      (changeSSLSockEvent t a.ssl.err a.pevt).map (fun t => (.SEND_PENDING, t))
    else some (.SEND_PENDING, t)
  else none

def recvPacket (a : Answers) : Option SmartSSL :=
  let s : SmartSSL := { s.byUser with own := { s.byUser.own with mSSLWantEvent := none } }
  if s.own.mSSL then sslClass.recv s a else none

def sslAccept (a : Answers) : Option SmartSSL :=
  s.procSSLConnect a

def reserveWrite (pevt : Option Nat) : Option SmartSSL :=
  changeEvent { s with own := { s.own with lastWant := none } } ⟨true, true, true⟩ .reserved pevt

/-- A session begins. -/
def begin : SmartSSL :=
  { s with own := { s.own with lastWant := none, handshakeOnly := true, handled := false } }

/-- `ctx` says that the default context is not NULL. -/
def openSSLClientSock (fd : Option Nat) (ctx : Bool) : SmartSSL :=
  let t : SmartSSL := { s.begin with sock := s.sock.openSock .SOCK_TYPE_TCP fd }
  if fd.isSome then { t with own := { t.own with mSSLCtx := ctx } } else t

def openSSLChildSock (fd : Nat) (ctx : Bool) (pevt : Option Nat) : Option SmartSSL :=
  (s.sock.openChildSock fd pevt).bind (fun k =>
    let t : SmartSSL := s.begin.withSock k .opened
    if ctx then some { t with own := { t.own with mSSLCtx := true, mSSL := true } } else none)

def connect (fd : Option Nat) (pevt : Option Nat) : Option SmartSSL :=
  (s.sock.connectIp fd pevt).map (fun k => s.withSock k .connecting)

/-- The socket is new, or has been closed. -/
structure Closed (s : SmartSSL) : Prop where
  fd : s.sock.mFd = none
  evt : s.sock.mEvt = none
  reg : s.sock.mIsReg = false
  status : s.sock.mStatus = .SOCK_STATUS_DISCONNECTED
  listen : s.sock.mIsListen = false
  ssl : s.own.mSSL = false
  unconnected : s.own.mSessionConencted = false
  pending : s.own.mPendingBuf = none

/-- A session has been opened on a closed socket, by the server or by the client. -/
inductive Opened : SmartSSL → Prop
  | child {c s : SmartSSL} {fd : Nat} {ctx : Bool} {pevt : Option Nat} (hc : c.Closed)
    (h : c.openSSLChildSock fd ctx pevt = some s) : Opened s
  | client {c s : SmartSSL} {fd fd' : Option Nat} {ctx : Bool} {pevt : Option Nat}
    (hc : c.Closed) (h : (c.openSSLClientSock fd ctx).connect fd' pevt = some s) : Opened s

end SmartSSL

/-- A call of the user. -/
inductive SmartSSLCall
  | sslAccept (a : Answers)
  | sendPacket (buf : List UInt8) (a : Answers)
  | recvPacket (a : Answers)
  | reserveWrite (pevt : Option Nat)
  | close
deriving DecidableEq, Repr

/-- The user calls the socket, or does something with another socket of the task; an event
comes, or the task goes on with one. -/
inductive SmartSSLAction
  | call (c : SmartSSLCall)
  | otherSocket (lastSockErrorNo : Int)
  | report (read hangup write : Bool)
  | next (a : Answers)
deriving DecidableEq, Repr

namespace SmartSSL

variable (s : SmartSSL)

def call : SmartSSLCall → Option SmartSSL
  | .sslAccept a => s.sslAccept a
  | .sendPacket buf a => (s.sendPacket buf a).map Prod.snd
  | .recvPacket a => s.recvPacket a
  | .reserveWrite pevt => s.reserveWrite pevt
  | .close => some s.close

def step : SmartSSLAction → Option SmartSSL
  | .call c => if s.userRuns then s.call c else none
  | .otherSocket n => if s.userRuns then some { s with lastSockErrorNo := n } else none
  | .report read hangup write => s.report read hangup write
  | .next a => overrides.next s a

end SmartSSL

/-- All runs of a session. -/
def sslSession : System SmartSSL SmartSSLAction where
  init := SmartSSL.Opened
  step := SmartSSL.step

namespace EdSocket

variable {s t : EdSocket} {flags : Interest} {pevt : Option Nat}

lemma completeConnection_mStatus (h : s.completeConnection pevt = some t) :
    t.mStatus = .SOCK_STATUS_CONNECTED := by
  unfold completeConnection at h
  exact changeEvent_mStatus h

lemma close_mStatus (s : EdSocket) :
    s.close.mStatus = s.mStatus ∨ s.close.mStatus = .SOCK_STATUS_DISCONNECTED := by
  unfold close
  cases s.mFd with
  | none => exact .inl rfl
  | some fd => exact .inr rfl

end EdSocket

namespace SmartSSL

variable {s t : SmartSSL} {a : Answers}

/-- With nothing but the handshake, reading is watched for unless the handshake wanted to write
last, and then the write handler knows of it. -/
structure ReadsUnlessWanted (s : SmartSSL) : Prop where
  pending : s.own.mPendingBuf = none
  want : s.own.lastWant = some .SSL_ERROR_WANT_WRITE → s.own.mSSLWantEvent = some .EVT_WRITE
  flags : s.own.mSSL = true → ((watchFlags true s.setBy).evtRead = true ↔
    s.own.lastWant ≠ some .SSL_ERROR_WANT_WRITE)

/-- The socket is watched as its cause asks for; there is a session when it is connected, and
none before the end of the connect. -/
structure Inv (s : SmartSSL) : Prop where
  watched : s.WatchedAs true
  serves : s.sock.Serves
  session : s.own.mSessionConencted = true → s.own.mSSL = true
  connecting : s.sock.mStatus = .SOCK_STATUS_CONNECTING →
    s.own.mSSL = false ∧ s.own.lastWant = none
  connected : s.own.mSSL = true → s.setBy ≠ .connecting
  reading : s.own.handshakeOnly = true → s.ReadsUnlessWanted

lemma Inv.of_sock_eq (h : s.Inv) (hsock : t.sock = s.sock) (hset : t.setBy = s.setBy)
    (hown : t.own = s.own) : t.Inv := by
  refine ⟨h.watched.of_eq (congrArg _ hsock) hset, hsock ▸ h.serves, hown ▸ h.session,
    hown ▸ hsock ▸ h.connecting, hown ▸ hset ▸ h.connected, fun hq => ?_⟩
  have hr := h.reading (hown ▸ hq)
  exact ⟨hown ▸ hr.pending, hown ▸ hr.want, hown ▸ hset ▸ hr.flags⟩

lemma Inv.push (h : s.Inv) (f : Frame NetEvent) : Inv (s.push f) :=
  h.of_sock_eq rfl rfl rfl

/-- The events are changed, with the fields. -/
lemma Inv.changeEvent (h : s.Inv) {own : SmartSSLFields} {w : Watch} {pevt : Option Nat}
    (ht : changeEvent { s with own := own } (watchFlags true w) w pevt = some t)
    (hssl : own.mSSL = s.own.mSSL) (hsession : own.mSessionConencted = s.own.mSessionConencted)
    (hwant : s.sock.mStatus = .SOCK_STATUS_CONNECTING → own.lastWant = none)
    (hw : w ≠ .connecting)
    (hread : own.handshakeOnly = true → ReadsUnlessWanted { s with own := own, setBy := w }) :
    t.Inv := by
  have hwatched : t.WatchedAs true := changeEvent_watchedAs ht
  obtain ⟨k, hk, rfl⟩ := changeEvent_cases ht
  refine ⟨hwatched, h.serves.changeEvent hk, ?_, fun hst => ?_, fun _ => hw, fun hq => ?_⟩
  · intro hc
    exact hssl.trans (h.session (hsession.symm.trans hc))
  · have hst' : s.sock.mStatus = .SOCK_STATUS_CONNECTING :=
      (EdSocket.changeEvent_mStatus hk).symm.trans hst
    exact ⟨hssl.trans (h.connecting hst').1, hwant hst'⟩
  · have hr := hread hq
    exact ⟨hr.pending, hr.want, hr.flags⟩

lemma Inv.not_connecting (h : s.Inv) (hssl : s.own.mSSL = true) :
    s.sock.mStatus ≠ .SOCK_STATUS_CONNECTING := by
  intro hst
  rw [(h.connecting hst).1] at hssl
  cases hssl

/-- Fields that the handshake is not concerned with. -/
lemma Inv.setOwn (h : s.Inv) {own : SmartSSLFields} (hssl : own.mSSL = s.own.mSSL)
    (hsession : own.mSessionConencted = s.own.mSessionConencted)
    (hwant : own.lastWant = s.own.lastWant)
    (hread : own.handshakeOnly = true → s.own.handshakeOnly = true ∧
      own.mPendingBuf = s.own.mPendingBuf ∧ own.mSSLWantEvent = s.own.mSSLWantEvent) :
    Inv { s with own := own } := by
  refine ⟨h.watched, h.serves, fun hc => ?_, fun hst => ?_, fun hc => ?_, fun hq => ?_⟩
  · exact hssl.trans (h.session (hsession.symm.trans hc))
  · exact ⟨hssl.trans (h.connecting hst).1, hwant.trans (h.connecting hst).2⟩
  · exact h.connected (hssl.symm.trans hc)
  · obtain ⟨hs, hpending, hevent⟩ := hread hq
    have hr := h.reading hs
    refine ⟨hpending.trans hr.pending, fun hlast => ?_, fun hc => ?_⟩
    · exact hevent.trans (hr.want (hwant.symm.trans hlast))
    · change _ ↔ own.lastWant ≠ _
      rw [hwant]
      exact hr.flags (hssl.symm.trans hc)

lemma Inv.changeSSLSockEvent (h : s.Inv) (hssl : s.own.mSSL = true) {err : SSLError}
    {pevt : Option Nat} (ht : s.changeSSLSockEvent err pevt = some t) : t.Inv := by
  have hnot := h.not_connecting hssl
  unfold EdNio.Net.SmartSSL.changeSSLSockEvent at ht
  split at ht
  · refine h.changeEvent ht rfl rfl (fun hst => absurd hst hnot) (by decide) (fun hq => ?_)
    refine ⟨(h.reading hq).pending, fun _ => rfl, fun _ => iff_of_false ?_ (fun hne => hne rfl)⟩
    exact show ¬ (watchFlags true (.want .SSL_ERROR_WANT_WRITE)).evtRead = true by decide
  · refine h.changeEvent ht rfl rfl (fun hst => absurd hst hnot) (by decide) (fun hq => ?_)
    have hne : some SSLError.SSL_ERROR_WANT_READ ≠ some .SSL_ERROR_WANT_WRITE := by decide
    exact ⟨(h.reading hq).pending, fun hw => absurd hw hne, fun _ => iff_of_true rfl hne⟩
  · cases ht
    exact h.setOwn rfl rfl rfl (fun hq => by cases hq)
  · cases ht
    exact h

lemma Inv.byUser (h : s.Inv) : s.byUser.Inv :=
  h.setOwn rfl rfl rfl (fun hq => by cases hq)

lemma Inv.freePending (h : s.Inv) (hq : s.own.handshakeOnly = false) : s.freePending.Inv :=
  h.setOwn rfl rfl rfl (fun hq' => absurd (hq.symm.trans hq') Bool.false_ne_true)

lemma Inv.procSSLConnect (h : s.Inv) (ht : s.procSSLConnect a = some t) : t.Inv := by
  unfold EdNio.Net.SmartSSL.procSSLConnect at ht
  split at ht
  · rename_i hssl
    refine SSLClass.procSSLConnect_keeps (I := Inv) ?_ ?_ (fun ht => h.changeSSLSockEvent hssl ht)
      (fun hs => hs.of_sock_eq rfl rfl rfl) h ht
    · intro t ht
      obtain ⟨u, hu, rfl⟩ := Option.map_eq_some_iff.mp ht
      rw [setError_cases hu]
      refine ⟨h.watched, h.serves, fun _ => hssl, h.connecting, h.connected, fun hq => ?_⟩
      have hr := h.reading hq
      exact ⟨hr.pending, hr.want, hr.flags⟩
    · intro s t hs ht
      rw [procSSLErrCloseNeedEnd_cases ht]
      exact (hs.byUser).of_sock_eq rfl rfl rfl
  · cases ht

lemma Inv.atEvent (h : s.Inv) : s.atEvent.Inv :=
  h.setOwn rfl rfl rfl (fun hq => ⟨hq, rfl, rfl⟩)

lemma Inv.fireRead (h : s.Inv) (ht : s.fireRead a = some t) : t.Inv := by
  unfold EdNio.Net.SmartSSL.fireRead procSSLRead at ht
  split at ht
  · exact h.atEvent.procSSLConnect ht
  · cases ht
    exact h.atEvent.push _

/-- With a packet pending the user has sent one. -/
lemma Inv.not_handshakeOnly (h : s.Inv) {b : List UInt8} (hb : s.own.mPendingBuf = some b) :
    s.own.handshakeOnly = false := by
  cases hq : s.own.handshakeOnly with
  | false => rfl
  | true =>
    have hp := (h.reading hq).pending
    rw [hb] at hp
    cases hp

/-- The write handler without a packet: reading is watched for, unless OpenSSL wants to write. -/
lemma Inv.drain (h : s.Inv) (hssl : s.own.mSSL = true)
    (hwant : s.own.mSSLWantEvent ≠ some .EVT_WRITE) {pevt : Option Nat}
    (ht : s.changeEvent ⟨true, false, true⟩ .drained pevt = some t) : t.Inv := by
  refine h.changeEvent ht rfl rfl (fun hst => absurd hst (h.not_connecting hssl)) (by decide)
    (fun hq => ?_)
  have hr := h.reading hq
  exact ⟨hr.pending, hr.want, fun _ => ⟨fun _ hlast => hwant (hr.want hlast), fun _ => rfl⟩⟩

lemma Inv.procSSLOnWrite (h : s.Inv) (ht : s.procSSLOnWrite a = some t) : t.Inv := by
  unfold EdNio.Net.SmartSSL.procSSLOnWrite at ht
  split at ht
  · exact h.procSSLConnect ht
  rename_i hconn
  have hssl := h.session (by simpa using hconn)
  split at ht
  · rename_i b hb
    have hquiet := h.not_handshakeOnly hb
    have hset : ∀ own : SmartSSLFields, own.mSSL = s.own.mSSL →
        own.mSessionConencted = s.own.mSessionConencted → own.lastWant = s.own.lastWant →
        own.handshakeOnly = s.own.handshakeOnly → Inv { s with own := own } := by
      intro own h1 h2 h3 h4
      refine h.setOwn h1 h2 h3 (fun hq => ?_)
      exact absurd (hquiet.symm.trans (h4.symm.trans hq)) Bool.false_ne_true
    rw [if_pos hssl] at ht
    dsimp only at ht
    split at ht
    · split at ht
      · obtain ⟨u, hu, rfl⟩ := Option.map_eq_some_iff.mp ht
        have hI : Inv u := by
          refine h.changeEvent hu rfl rfl (fun hst => absurd hst (h.not_connecting hssl))
            (by decide) (fun hq => ?_)
          exact absurd (hquiet.symm.trans hq) Bool.false_ne_true
        obtain ⟨k, -, rfl⟩ := changeEvent_cases hu
        exact (hI.freePending hquiet).push _
      · cases ht
        exact hset _ rfl rfl rfl rfl
    · refine Inv.changeSSLSockEvent ?_ ?_ ht
      · exact hset _ rfl rfl rfl rfl
      · exact hssl
  · obtain ⟨u, hu, rfl⟩ := Option.map_eq_some_iff.mp ht
    have hI : Inv u := by
      split at hu
      · rename_i hwant
        exact h.drain hssl hwant hu
      · cases hu
        exact h
    exact hI.push _

lemma Inv.closeSock (h : s.Inv) : Inv s.closeSock := by
  refine ⟨h.watched.closeSock, h.serves.close, h.session, fun hst => ?_, h.connected,
    fun hq => ?_⟩
  · rcases s.sock.close_mStatus with heq | heq
    · exact h.connecting (heq.symm.trans hst)
    · exact absurd (heq.symm.trans hst) (by decide)
  · have hr := h.reading hq
    exact ⟨hr.pending, hr.want, hr.flags⟩

lemma Inv.close (h : s.Inv) : s.close.Inv := by
  have hI := h.closeSock
  unfold EdNio.Net.SmartSSL.close
  dsimp only
  split
  · refine ⟨hI.watched, hI.serves, fun hc => ?_, fun hst => ?_, fun hc => ?_, fun hq => ?_⟩
    · cases hc
    · exact ⟨rfl, (hI.connecting hst).2⟩
    · cases hc
    · refine ⟨rfl, (hI.reading hq).want, fun hc => ?_⟩
      cases hc
  · refine ⟨hI.watched, hI.serves, hI.session, hI.connecting, hI.connected, fun hq => ?_⟩
    have hr := hI.reading hq
    exact ⟨rfl, hr.want, hr.flags⟩

lemma Inv.fireDisconnected (h : s.Inv) : s.fireDisconnected.Inv := by
  unfold EdNio.Net.SmartSSL.fireDisconnected
  split
  · exact h.push _
  · exact h

/-- The end of the connect, and the begin of the handshake. -/
lemma Inv.startHandshake (h : s.Inv) (hst : s.sock.mStatus = .SOCK_STATUS_CONNECTING)
    {k : EdSocket} (hk : s.sock.completeConnection a.pevt = some k)
    (ht : startHandshake { s with sock := k, setBy := .established } a = some t) : t.Inv := by
  obtain ⟨hssl, hlast⟩ := h.connecting hst
  have hwatched : WatchedAs { s with sock := k, setBy := .established } true :=
    EdSocket.changeEvent_interest hk
  have hserves := h.serves.completeConnection hk
  have hnot : k.mStatus ≠ .SOCK_STATUS_CONNECTING := by
    rw [EdSocket.completeConnection_mStatus hk]
    decide
  have hset : Watch.established ≠ .connecting := by decide
  have hread : ∀ b, s.own.handshakeOnly = true → ReadsUnlessWanted
      { s with sock := k, setBy := .established, own := { s.own with mSSL := b } } := by
    intro b hq
    have hne : s.own.lastWant ≠ some .SSL_ERROR_WANT_WRITE := by
      rw [hlast]
      decide
    exact ⟨(h.reading hq).pending, (h.reading hq).want, fun _ => iff_of_true rfl hne⟩
  unfold EdNio.Net.SmartSSL.startHandshake at ht
  split at ht
  · rename_i hnew
    split at ht
    · refine Inv.procSSLConnect ?_ ht
      refine ⟨hwatched, hserves, fun _ => rfl, fun hc => absurd hc hnot, fun _ => hset,
        fun hq => ?_⟩
      have hr := hread true hq
      exact ⟨hr.pending, hr.want, hr.flags⟩
    · cases ht
  · cases ht
    refine ⟨hwatched, hserves, h.session, fun hc => absurd hc hnot, fun _ => hset, fun hq => ?_⟩
    have hr := hread s.own.mSSL hq
    exact ⟨hr.pending, hr.want, hr.flags⟩

lemma inv_keeps : overrides.Keeps Inv where
  stack _ hs := hs.of_sock_eq rfl rfl rfl
  read hs ht := hs.fireRead ht
  write hs ht := hs.atEvent.procSSLOnWrite ht
  connect hs hst hk ht := hs.startHandshake hst hk ht
  disconnect hs := hs.fireDisconnected
  closeSock hs := hs.closeSock
  close hs := hs.close

lemma Inv.sendPacket (h : s.Inv) {buf : List UInt8} {r : SendResult}
    (ht : s.sendPacket buf a = some (r, t)) : t.Inv := by
  unfold EdNio.Net.SmartSSL.sendPacket at ht
  dsimp only at ht
  split at ht
  · cases ht
    exact h.byUser
  split at ht
  · rename_i hssl
    have hset : ∀ own : SmartSSLFields, own.mSSL = s.own.mSSL →
        own.mSessionConencted = s.own.mSessionConencted → own.lastWant = s.own.lastWant →
        own.handshakeOnly = false → Inv { s with own := own } :=
      fun own h1 h2 h3 h4 =>
        h.setOwn h1 h2 h3 (fun hq => absurd (h4.symm.trans hq) Bool.false_ne_true)
    split at ht
    · cases ht
      exact hset _ rfl rfl rfl rfl
    split at ht
    · obtain ⟨u, hu, heq⟩ := Option.map_eq_some_iff.mp ht
      cases heq
      refine Inv.changeSSLSockEvent ?_ ?_ hu
      · exact hset _ rfl rfl rfl rfl
      · exact hssl
    · cases ht
      exact hset _ rfl rfl rfl rfl
  · cases ht

lemma Inv.recvPacket (h : s.Inv) (ht : s.recvPacket a = some t) : t.Inv := by
  have hI : Inv { s.byUser with own := { s.byUser.own with mSSLWantEvent := none } } :=
    h.setOwn rfl rfl rfl (fun hq => by cases hq)
  unfold EdNio.Net.SmartSSL.recvPacket at ht
  dsimp only at ht
  split at ht
  · rename_i hssl
    exact SSLClass.recv_keeps (I := Inv) (fun ht => hI.changeSSLSockEvent hssl ht)
      (fun hs => hs.of_sock_eq rfl rfl rfl) hI ht
  · cases ht

lemma Inv.reserveWrite (h : s.Inv) {pevt : Option Nat} (ht : s.reserveWrite pevt = some t) :
    t.Inv := by
  have hne : (none : Option SSLError) ≠ some .SSL_ERROR_WANT_WRITE := by decide
  refine h.changeEvent ht rfl rfl (fun _ => rfl) (by decide) (fun hq => ?_)
  exact ⟨(h.reading hq).pending, fun hw => absurd hw hne, fun _ => iff_of_true rfl hne⟩

/-- A session begins with reading watched for, or with the connect. -/
lemma Inv.opened (h : Opened s) : s.Inv := by
  have hne : (none : Option SSLError) ≠ some .SSL_ERROR_WANT_WRITE := by decide
  cases h with
  | @child c s fd ctx pevt hc h =>
    obtain ⟨k, hk, h⟩ := Option.bind_eq_some_iff.mp h
    dsimp only at h
    split at h
    · cases h
      have hserves : c.sock.Serves := ⟨hc.listen, fun he => by rw [hc.evt] at he; cases he⟩
      have hwatched : WatchedAs c.begin true := fun e he => by
        have he' := hc.evt.symm.trans he
        cases he'
      have hset : (SocketObj.withSock c.begin k .opened).setBy = .opened := by
        change (if c.sock.mEvt.isSome then c.setBy else Watch.opened) = .opened
        rw [hc.evt]
        rfl
      have hstatus : k.mStatus = .SOCK_STATUS_CONNECTED := by
        rcases EdSocket.registerEvent_cases hk with rfl | rfl <;> rfl
      refine ⟨hwatched.withSock (EdSocket.openChildSock_registers hk) rfl,
        hserves.openChildSock hk, fun _ => rfl, fun hst => ?_, fun _ => ?_, fun hq => ?_⟩
      · exact absurd (hstatus.symm.trans hst) (by decide)
      · change (SocketObj.withSock c.begin k .opened).setBy ≠ _
        rw [hset]
        decide
      · refine ⟨hc.pending, fun hw => absurd hw hne, fun _ => ?_⟩
        change (watchFlags true (SocketObj.withSock c.begin k .opened).setBy).evtRead = true ↔ _
        rw [hset]
        exact iff_of_true rfl hne
    · cases h
  | @client c s fd fd' ctx pevt hc h =>
    have hown : (c.openSSLClientSock fd ctx).own.mSSL = false ∧
        (c.openSSLClientSock fd ctx).own.mSessionConencted = false ∧
        (c.openSSLClientSock fd ctx).own.mPendingBuf = none ∧
        (c.openSSLClientSock fd ctx).own.lastWant = none ∧
        (c.openSSLClientSock fd ctx).sock = c.sock.openSock .SOCK_TYPE_TCP fd := by
      unfold openSSLClientSock
      dsimp only
      split <;> exact ⟨hc.ssl, hc.unconnected, hc.pending, rfl, rfl⟩
    obtain ⟨hssl, hconn, hpending, hlast, hsock⟩ := hown
    obtain ⟨k, hk, rfl⟩ := Option.map_eq_some_iff.mp h
    have hevt : (c.openSSLClientSock fd ctx).sock.mEvt = none := by
      rw [hsock]
      exact hc.evt
    have hserves : (c.openSSLClientSock fd ctx).sock.Serves := by
      rw [hsock]
      exact ⟨hc.listen, fun _ => rfl⟩
    have hwatched : WatchedAs (c.openSSLClientSock fd ctx) true := fun e he => by
      rw [hevt] at he
      cases he
    refine ⟨?_, hserves.connectIp hk, fun hc => ?_, fun _ => ⟨hssl, hlast⟩, fun hc => ?_,
      fun hq => ⟨hpending, fun hw => ?_, fun hc => ?_⟩⟩
    · rcases EdSocket.connectIp_cases hk with ⟨-, hr⟩ | ⟨-, rfl⟩
      · exact hwatched.withSock hr (EdSocket.opened_mEvt _ _)
      · exact hwatched.withSock .refl rfl
    · exact absurd (hconn.symm.trans hc) Bool.false_ne_true
    · exact absurd (hssl.symm.trans hc) Bool.false_ne_true
    · exact absurd (hlast.symm.trans hw) hne
    · exact absurd (hssl.symm.trans hc) Bool.false_ne_true

lemma Inv.step (h : s.Inv) {x : SmartSSLAction} (ht : s.step x = some t) : t.Inv := by
  cases x with
  | call c =>
    obtain ⟨-, ht⟩ := Option.ite_none_right_eq_some.mp ht
    cases c with
    | sslAccept a => exact h.procSSLConnect ht
    | sendPacket buf a =>
      obtain ⟨⟨r, u⟩, hu, rfl⟩ := Option.map_eq_some_iff.mp ht
      exact h.sendPacket hu
    | recvPacket a => exact h.recvPacket ht
    | reserveWrite pevt => exact h.reserveWrite ht
    | close =>
      cases ht
      exact h.close
  | otherSocket n =>
    obtain ⟨-, ht⟩ := Option.ite_none_right_eq_some.mp ht
    cases ht
    exact h.of_sock_eq rfl rfl rfl
  | report read hangup write => exact inv_keeps.report h ht
  | next a => exact inv_keeps.next h ht

lemma Inv.reachable (h : sslSession.Reachable s) : s.Inv :=
  h.invariant (I := Inv) (fun _ h0 => Inv.opened h0) (fun _ _ _ _ hI _ hs => hI.step hs)

end SmartSSL

end EdNio.Net
