import EdNio.Net.SmartSSL

/-!
# Reading after the handshake

What the handshake of a smart socket watched for last is left to the session. When that was
`EVT_WRITE`, the write handler finds `mSSLWantEvent` still set and does not go back to reading.
-/

namespace EdNio.Net.SmartSSL
open Transition SocketObj

variable {s : SmartSSL}

/-- The handshake has succeeded, an event has come since and has been handled, and the user has
called neither `sendPacket` nor `recvPacket`. -/
structure Settled (s : SmartSSL) : Prop where
  idle : s.stack = []
  connected : s.own.mSessionConencted = true
  handshakeOnly : s.own.handshakeOnly = true
  handled : s.own.handled = true
  registered : s.sock.mEvt.isSome = true

instance (s : SmartSSL) : Decidable s.Settled :=
  decidable_of_iff (s.stack = [] ∧ s.own.mSessionConencted = true ∧ s.own.handshakeOnly = true ∧
      s.own.handled = true ∧ s.sock.mEvt.isSome = true)
    ⟨fun ⟨h1, h2, h3, h4, h5⟩ => ⟨h1, h2, h3, h4, h5⟩,
      fun ⟨h1, h2, h3, h4, h5⟩ => ⟨h1, h2, h3, h4, h5⟩⟩

/-- `EVT_READ` is watched for, and raises `NETEV_READABLE`. -/
def CanRead (s : SmartSSL) : Prop :=
  ∃ e, s.sock.mEvt = some e ∧ e.interest.evtRead = true ∧
    ∀ a, ∃ t, overrides.OnEventRead s a = some t ∧
      t.stack = [.listener .NETEV_READABLE, .OnRead]

lemma OnEventRead_connected (hinv : s.Inv) (hconn : s.own.mSessionConencted = true)
    (a : Answers) : overrides.OnEventRead s a =
      some ((atEvent (s.push .OnRead)).push (.listener .NETEV_READABLE)) := by
  have hread : procSSLRead (atEvent (s.push .OnRead)) a =
      some ((atEvent (s.push .OnRead)).push (.listener .NETEV_READABLE)) := by
    apply if_neg
    change ¬ s.own.mSessionConencted = false
    rw [hconn]
    decide
  unfold Overrides.OnEventRead
  rw [if_neg (by simp [hinv.serves.listen])]
  exact hread

lemma Settled.reads_iff (hs : s.Settled) (hinv : s.Inv) :
    s.CanRead ↔ s.own.lastWant ≠ some .SSL_ERROR_WANT_WRITE := by
  obtain ⟨e, he⟩ := Option.isSome_iff_exists.mp hs.registered
  have hflags := (hinv.reading hs.handshakeOnly).flags (hinv.session hs.connected)
  rw [← hinv.watched e he] at hflags
  rw [← hflags]
  constructor
  · rintro ⟨e', he', hread, -⟩
    obtain rfl := Option.some.inj (he.symm.trans he')
    exact hread
  · intro hread
    refine ⟨e, he, hread, fun a => ⟨_, OnEventRead_connected hinv hs.connected a, ?_⟩⟩
    change .listener .NETEV_READABLE :: .OnRead :: s.stack = _
    rw [hs.idle]

/-- In every state of every session in which an event has been handled after the handshake, and
the user has called neither `sendPacket` nor `recvPacket`, incoming data raises `NETEV_READABLE`
if and only if the handshake did not ask to wait for writing last, or `reserveWrite` was called
since. -/
theorem canRead_iff (h : sslSession.Reachable s) (hs : s.Settled) :
    s.CanRead ↔ s.own.lastWant ≠ some .SSL_ERROR_WANT_WRITE :=
  hs.reads_iff (Inv.reachable h)

/-- The session of a descriptor from `accept`. -/
def child : SmartSSL where
  sock := ⟨some 7, some ⟨1, 7, ⟨true, false, true⟩⟩, true, true, .SOCK_STATUS_CONNECTED,
    .SOCK_TYPE_TCP, false, false⟩
  own := { SmartSSL.new.own with mSSL := true, mSSLCtx := true }
  lastSockErrorNo := 0
  stack := []
  setBy := .opened

lemma opened_child : Opened child := by
  have hclosed : Closed .new := by constructor <;> rfl
  have hopen : openSSLChildSock .new 7 true (some 1) = some child := rfl
  exact .child hclosed hopen

/-- The answer of OpenSSL in the next step. -/
def answer (ret : Int) (err : SSLError) : SmartSSLAction :=
  .next ⟨⟨ret, err⟩, 0, none⟩

/-- A call returns. -/
def ret : SmartSSLAction :=
  answer 1 .SSL_ERROR_NONE

lemma exists_settled {l : List SmartSSLAction} {w : Option SSLError}
    (h : (sslSession.exec child l).map (fun s => (decide s.Settled, s.own.lastWant)) =
      some (true, w)) :
    ∃ s, sslSession.Reachable s ∧ s.Settled ∧ s.own.lastWant = w := by
  obtain ⟨s, hs, hobs⟩ := System.exists_of_exec (M := sslSession) opened_child h
  obtain ⟨hset, hlast⟩ := Prod.mk.inj hobs
  exact ⟨s, hs, of_decide_eq_true hset, hlast⟩

/-- The accept waits for reading once, and then succeeds; more data comes. -/
theorem canRead_iff_wantRead : ∃ s, sslSession.Reachable s ∧ s.Settled ∧ s.CanRead := by
  obtain ⟨s, hs, hset, hlast⟩ := exists_settled (w := some .SSL_ERROR_WANT_READ)
    (l := [.report true false false, answer (-1) .SSL_ERROR_WANT_READ, ret, ret,
      .report true false false, ret, ret, ret, ret,
      .report true false false, ret, ret, ret, ret]) (by decide +kernel)
  refine ⟨s, hs, hset, (canRead_iff hs hset).mpr ?_⟩
  rw [hlast]
  decide

/-- The accept waits for writing before it succeeds; the next event is a write event, and
leaves the socket watched for writing only. -/
theorem not_canRead : ¬ ∀ s, sslSession.Reachable s → s.Settled → s.CanRead := by
  intro h
  obtain ⟨s, hs, hset, hlast⟩ := exists_settled (w := some .SSL_ERROR_WANT_WRITE)
    (l := [.report true false false, answer (-1) .SSL_ERROR_WANT_WRITE, ret, ret,
      .report false false true, ret, ret, .report false false true, ret, ret])
    (by decide +kernel)
  exact (hset.reads_iff (Inv.reachable hs)).mp (h s hs hset) hlast

end EdNio.Net.SmartSSL
