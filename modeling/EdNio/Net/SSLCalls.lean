import EdNio.Net.SmartSSL

/-!
# Calls of a session with SSL

Which calls leave a session as it is, and what its handshake does. A registration comes with a
descriptor, and once a socket has none no call of the session makes another.
-/

namespace EdNio.Net
open Transition SocketObj

/-- `SSL_connect` or `SSL_accept` fails. -/
def Answers.fails (a : Answers) : Prop :=
  a.ssl.ret ≠ 1 ∧ (a.ssl.ret = 0 ∨ a.ssl.err = .SSL_ERROR_SSL ∨
    a.ssl.err = .SSL_ERROR_ZERO_RETURN ∨ a.ssl.err = .SSL_ERROR_SYSCALL)

instance (a : Answers) : Decidable a.fails :=
  inferInstanceAs (Decidable (_ ∧ _))

namespace EdSocket

variable {s t : EdSocket} {flags : Interest} {pevt : Option Nat}

/-- A registration comes with a descriptor, and where there is none no call makes one. -/
structure Tied (s : EdSocket) : Prop where
  registered : s.mEvt ≠ none → s.mIsReg = true ∧ s.mFd ≠ none
  unregistered : s.mEvt = none → s.mIsReg = true ∨ s.mTask = false

lemma Tied.changeEvent (h : s.Tied) (ht : s.changeEvent flags pevt = some t) :
    t.Tied ∧ (t.mEvt = none ↔ s.mEvt = none) := by
  unfold EdSocket.changeEvent at ht
  split at ht
  · rename_i e he
    cases ht
    have hreg := h.registered (he ▸ Option.some_ne_none e)
    refine ⟨⟨fun _ => hreg, fun hnone => ?_⟩, iff_of_false ?_ (he ▸ Option.some_ne_none e)⟩
    · cases hnone
    · exact Option.some_ne_none _
  · rename_i he
    have hreg : s.mIsReg = true ∨ s.mTask = false := h.unregistered he
    unfold registerEvent at ht
    split at ht
    · cases ht
      exact ⟨h, Iff.rfl⟩
    · rename_i hnot
      rw [if_neg (by simpa using hreg.resolve_left hnot)] at ht
      cases ht

lemma Tied.completeConnection (h : s.Tied) (ht : s.completeConnection pevt = some t) :
    t.Tied ∧ (t.mEvt = none ↔ s.mEvt = none) := by
  have hconnected : Tied { s with mStatus := .SOCK_STATUS_CONNECTED } :=
    ⟨h.registered, h.unregistered⟩
  exact hconnected.changeEvent ht

lemma tied_registerEvent (hreg : s.mIsReg = false) (hevt : s.mEvt = none)
    (ht : s.registerEvent flags pevt = some t) : t.Tied := by
  unfold registerEvent at ht
  rw [if_neg (by simp [hreg]), if_pos hevt] at ht
  split at ht
  · cases ht
    refine ⟨fun hne => ⟨rfl, fun hfd => hne ?_⟩, fun _ => .inl rfl⟩
    change s.mFd = none at hfd
    change s.mFd.bind _ = none
    rw [hfd]
    rfl
  · cases ht

lemma tied_openChildSock {fd : Nat} (hreg : s.mIsReg = false) (hevt : s.mEvt = none)
    (ht : s.openChildSock fd pevt = some t) : t.Tied := by
  unfold openChildSock at ht
  exact tied_registerEvent (by exact hreg) (by exact hevt) ht

lemma tied_connectIp {fd : Option Nat} (hreg : s.mIsReg = false) (hevt : s.mEvt = none)
    (hstatus : s.mStatus = .SOCK_STATUS_DISCONNECTED) (htype : s.mType = .SOCK_TYPE_TCP)
    (ht : s.connectIp fd pevt = some t) : t.Tied := by
  have hopened : (s.opened fd).mType = .SOCK_TYPE_TCP ∧ (s.opened fd).mIsReg = false ∧
      (s.opened fd).mEvt = none := by
    unfold opened
    split
    · exact ⟨rfl, hreg, hevt⟩
    · exact ⟨htype, hreg, hevt⟩
  unfold connectIp at ht
  rw [if_neg (fun hne => hne hstatus)] at ht
  change (if (s.opened fd).mType = .SOCK_TYPE_TCP then
    ((s.opened fd).registerEvent _ pevt).map _ else some (s.opened fd)) = some t at ht
  rw [if_pos hopened.1] at ht
  obtain ⟨u, hu, rfl⟩ := Option.map_eq_some_iff.mp ht
  have htied := tied_registerEvent hopened.2.1 hopened.2.2 hu
  exact ⟨htied.registered, htied.unregistered⟩

lemma Tied.close (h : s.Tied) : s.close.Tied ∧ s.close.mEvt = none := by
  unfold EdSocket.close
  cases hfd : s.mFd with
  | none =>
    have hevt : s.mEvt = none := Decidable.of_not_not (fun hne => (h.registered hne).2 hfd)
    exact ⟨⟨fun hne => absurd hevt hne, fun _ => h.unregistered hevt⟩, hevt⟩
  | some fd =>
    unfold deregisterEvent
    cases hreg : s.mIsReg with
    | false =>
      have hevt : s.mEvt = none := by
        refine Decidable.of_not_not (fun hne => ?_)
        exact absurd ((h.registered hne).1.symm.trans hreg) (by decide)
      refine ⟨⟨fun hne => absurd hevt hne, fun _ => ?_⟩, hevt⟩
      exact .inr ((h.unregistered hevt).resolve_left (by simp [hreg]))
    | true => exact ⟨⟨fun hne => absurd rfl hne, fun _ => .inr rfl⟩, rfl⟩

end EdSocket

namespace SmartSSL

variable {s t u : SmartSSL} {a : Answers}

/-- The session and the calls of the task are left as they are. -/
structure Same (s t : SmartSSL) : Prop where
  ssl : t.own.mSSL = s.own.mSSL
  session : t.own.mSessionConencted = s.own.mSessionConencted
  stack : t.stack = s.stack
  evt : t.sock.mEvt = none ↔ s.sock.mEvt = none
  tied : s.sock.Tied → t.sock.Tied

lemma Same.of_eq (hssl : t.own.mSSL = s.own.mSSL)
    (hsession : t.own.mSessionConencted = s.own.mSessionConencted) (hstack : t.stack = s.stack)
    (hsock : t.sock = s.sock) : Same s t :=
  ⟨hssl, hsession, hstack, by rw [hsock], fun h => hsock ▸ h⟩

lemma same_changeEvent (htied : s.sock.Tied) {own : SmartSSLFields} {flags : Interest}
    {w : Watch} {pevt : Option Nat}
    (ht : changeEvent { s with own := own } flags w pevt = some t)
    (hssl : own.mSSL = s.own.mSSL) (hsession : own.mSessionConencted = s.own.mSessionConencted) :
    Same s t := by
  obtain ⟨k, hk, rfl⟩ := changeEvent_cases ht
  exact ⟨hssl, hsession, rfl, (htied.changeEvent hk).2, fun _ => (htied.changeEvent hk).1⟩

lemma same_changeSSLSockEvent (htied : s.sock.Tied) {err : SSLError} {pevt : Option Nat}
    (ht : s.changeSSLSockEvent err pevt = some t) : Same s t := by
  unfold changeSSLSockEvent at ht
  split at ht
  · exact same_changeEvent htied ht rfl rfl
  · exact same_changeEvent htied ht rfl rfl
  · cases ht
    exact .of_eq rfl rfl rfl rfl
  · cases ht
    exact .of_eq rfl rfl rfl rfl

/-- What `procSSLConnect` does. -/
inductive Handshakes (s : SmartSSL) (a : Answers) (t : SmartSSL) : Prop
  | waits (hret : a.ssl.ret ≠ 1) (hok : ¬ a.fails) (h : Same s t)
  | succeeds (hret : a.ssl.ret = 1)
      (ht : t = push { s with
        own := { s.own with mSessionConencted := true }
        lastSockErrorNo := 0 } (.listener .NETEV_CONNECTED))
  | fails (hfail : a.fails) {u : SmartSSL} (h : Same s u)
      (ht : t = (u.push .procSSLErrCloseNeedEnd).push (.listener .NETEV_DISCONNECTED))

lemma handshakes_fails (hfail : a.fails) (h : Same s u)
    (ht : sslClass.closeNeedEnd u = some t) : Handshakes s a t := by
  have heq := procSSLErrCloseNeedEnd_cases ht
  refine .fails hfail
    (u := { u with
      own := { u.own with handshakeOnly := false }
      lastSockErrorNo := EINPROGRESS }) ?_ heq
  exact { h with }

lemma procSSLConnect_handshakes (htied : s.sock.Tied) (ht : s.procSSLConnect a = some t) :
    s.own.mSSL = true ∧ Handshakes s a t := by
  obtain ⟨hssl, ht⟩ := Option.ite_none_right_eq_some.mp ht
  refine ⟨hssl, ?_⟩
  unfold SSLClass.procSSLConnect at ht
  split at ht
  · rename_i hret
    obtain ⟨v, hv, rfl⟩ := Option.map_eq_some_iff.mp ht
    exact .succeeds hret (by rw [setError_cases hv])
  rename_i hret
  split at ht
  · rename_i hzero
    exact handshakes_fails ⟨hret, .inl hzero⟩ (.of_eq rfl rfl rfl rfl) ht
  rename_i hzero
  split at ht
  · rename_i herr
    exact handshakes_fails ⟨hret, .inr (.inl herr)⟩ (.of_eq rfl rfl rfl rfl) ht
  rename_i herr
  obtain ⟨v, hv, ht⟩ := Option.bind_eq_some_iff.mp ht
  have hsame := same_changeSSLSockEvent htied hv
  split at ht
  · rename_i hclose
    exact handshakes_fails ⟨hret, .inr (.inr hclose)⟩ hsame ht
  · rename_i hclose
    refine .waits hret (fun hf => ?_) ?_
    · rcases hf.2 with h | h | h
      · exact hzero h
      · exact herr h
      · exact hclose h
    · rw [setError_cases ht]
      exact { hsame with }

/-- The write handler of a connected session. -/
lemma procSSLOnWrite_same (htied : s.sock.Tied) (hconn : s.own.mSessionConencted = true)
    (ht : s.procSSLOnWrite a = some t) :
    ∃ u, Same s u ∧ (t = u ∨ t = u.push (.listener .NETEV_WRITABLE)) := by
  unfold procSSLOnWrite at ht
  rw [if_neg (by simp [hconn])] at ht
  split at ht
  · obtain ⟨hssl, ht⟩ := Option.ite_none_right_eq_some.mp ht
    dsimp only at ht
    split at ht
    · split at ht
      · obtain ⟨u, hu, rfl⟩ := Option.map_eq_some_iff.mp ht
        have hsame := same_changeEvent htied hu rfl rfl
        exact ⟨u.freePending, { hsame with }, .inr rfl⟩
      · cases ht
        refine ⟨_, ?_, .inl rfl⟩
        exact .of_eq rfl rfl rfl rfl
    · have hsame := same_changeSSLSockEvent (by exact htied) ht
      exact ⟨t, { hsame with }, .inl rfl⟩
  · obtain ⟨u, hu, rfl⟩ := Option.map_eq_some_iff.mp ht
    refine ⟨u, ?_, .inr rfl⟩
    split at hu
    · exact same_changeEvent htied hu rfl rfl
    · cases hu
      exact .of_eq rfl rfl rfl rfl

lemma same_sendPacket (htied : s.sock.Tied) {buf : List UInt8} {r : SendResult}
    (ht : s.sendPacket buf a = some (r, t)) : Same s t := by
  unfold sendPacket at ht
  dsimp only at ht
  split at ht
  · cases ht
    exact .of_eq rfl rfl rfl rfl
  obtain ⟨-, ht⟩ := Option.ite_none_right_eq_some.mp ht
  split at ht
  · cases ht
    exact .of_eq rfl rfl rfl rfl
  split at ht
  · obtain ⟨u, hu, heq⟩ := Option.map_eq_some_iff.mp ht
    cases heq
    have hsame := same_changeSSLSockEvent (by exact htied) hu
    exact { hsame with }
  · cases ht
    exact .of_eq rfl rfl rfl rfl

lemma same_recvPacket (htied : s.sock.Tied) (ht : s.recvPacket a = some t) : Same s t := by
  unfold recvPacket at ht
  obtain ⟨-, ht⟩ := Option.ite_none_right_eq_some.mp ht
  refine SSLClass.recv_keeps (I := Same s) (fun hu => ?_) (fun hs => ?_) ?_ ht
  · have hsame := same_changeSSLSockEvent (by exact htied) hu
    exact { hsame with }
  · exact { hs with }
  · exact .of_eq rfl rfl rfl rfl

/-- A session begins registered, and not connected. -/
lemma opened_tied (h : Opened s) : s.sock.Tied ∧ s.own.mSessionConencted = false := by
  cases h with
  | @child c s fd ctx pevt hc h =>
    obtain ⟨k, hk, h⟩ := Option.bind_eq_some_iff.mp h
    obtain ⟨-, h⟩ := Option.ite_none_right_eq_some.mp h
    cases h
    exact ⟨EdSocket.tied_openChildSock hc.reg hc.evt hk, hc.unconnected⟩
  | @client c s fd fd' ctx pevt hc h =>
    obtain ⟨k, hk, rfl⟩ := Option.map_eq_some_iff.mp h
    have hopen : (c.openSSLClientSock fd ctx).sock = c.sock.openSock .SOCK_TYPE_TCP fd ∧
        (c.openSSLClientSock fd ctx).own.mSessionConencted = false := by
      unfold openSSLClientSock
      dsimp only
      split <;> exact ⟨rfl, hc.unconnected⟩
    rw [hopen.1] at hk
    refine ⟨EdSocket.tied_connectIp ?_ ?_ ?_ ?_ hk, hopen.2⟩
    · exact hc.reg
    · exact hc.evt
    · exact hc.status
    · rfl

end SmartSSL

end EdNio.Net
