import EdNio.Net.SmartSession

/-!
# Connections kept apart

Which connection the packets written and the packets in the way of others belong to.
-/

namespace EdNio.Net
open Transition

/-- `bytes` of a packet accepted on `packet` are written on `conn`; a packet is refused on
`conn` while one accepted on `packet` is pending. -/
inductive SessionEvent
  | wrote (conn packet : Nat) (bytes : List UInt8)
  | refused (conn packet : Nat)
deriving DecidableEq, Repr

namespace SmartSession

variable (s : SmartSession)

/-- What a write event tries to write. -/
def unsent : List UInt8 :=
  match s.smart.mPendingBuf with
  | none => []
  | some b => (b.drop s.smart.mPendingWriteCnt).take (s.smart.mPendingSize - s.smart.mPendingWriteCnt)

def record : SessionAction → Option SessionEvent
  | .sendPacket buf _ _ r _ =>
    some (if s.pending then .refused s.conn s.packetConn
      else .wrote s.conn s.conn (write buf r).2)
  | .OnEventWrite _ r _ =>
    if s.mSock.mStatus ≠ .SOCK_STATUS_CONNECTING ∧ s.pending then
      some (.wrote s.conn s.packetConn (write s.unsent r).2)
    else none
  | _ => none

/-- The user opens a descriptor only with no packet pending. -/
def startsClean : SessionAction → Bool
  | .openClient _ => !s.pending
  | .openChild _ _ => !s.pending
  | .openUnixSocket _ _ _ _ => !s.pending
  | .connectIp _ _ => s.mSock.mFd.isSome || !s.pending
  | .connectAddr _ _ _ => s.mSock.mFd.isSome || !s.pending
  | _ => true

end SmartSession

def sessionHistory : System (Recorded SmartSession SessionEvent) SessionAction :=
  smartSession.recorded SmartSession.record

/-- Bytes go to the connection that their packet was accepted on, and a packet is not refused
for one of another connection. -/
def Apart (_ : List SessionEvent) : SessionEvent → Prop
  | .wrote conn packet bytes => bytes = [] ∨ conn = packet
  | .refused conn packet => conn = packet

namespace SmartSession

variable {s t : SmartSession} {a : SessionAction}

/-- A pending packet is one of this connection. -/
def Current (s : SmartSession) : Prop :=
  s.pending = true → s.packetConn = s.conn

lemma Current.withSock (h : s.Current) {k : EdSocket}
    (hk : k.mFd = s.mSock.mFd ∨ k.mFd = none) : (s.withSock k).Current := by
  intro hp
  rw [withSock_conn hk]
  exact h hp

lemma current_of_idle (h : s.pending = false) : s.Current := by
  intro hp
  rw [h] at hp
  cases hp

lemma Current.sendPacket (h : s.Current) {buf : List UInt8} {takebuffer mem : Bool}
    {r : WriteResult} {pevt : Option Nat} {ret : SendResult}
    (hs : s.sendPacket buf takebuffer mem r pevt = some (ret, t)) : t.Current := by
  have hspec := s.smart.sendPacket_spec buf takebuffer mem r
  unfold SmartSession.sendPacket at hs
  dsimp only at hs hspec
  split at hs
  · obtain ⟨k, hk, heq⟩ := Option.map_eq_some_iff.mp hs
    cases heq
    intro _
    exact (withSock_conn (.inl (EdSocket.changeEvent_mFd hk))).symm
  · rename_i hne
    cases hs
    intro hp
    rw [pending, hspec.2 hne] at hp
    exact h hp

lemma Current.procNormalOnWrite (h : s.Current) {r : WriteResult} {pevt : Option Nat}
    (hs : s.procNormalOnWrite r pevt = some t) : t.Current := by
  unfold SmartSession.procNormalOnWrite at hs
  dsimp only at hs
  split at hs
  · rename_i hnone
    obtain ⟨k, -, rfl⟩ := Option.map_eq_some_iff.mp hs
    refine current_of_idle ?_
    rw [pending, hnone]
    rfl
  · rename_i hsome
    cases hs
    intro hp
    rcases s.smart.procNormalOnWrite_pending r with hnone | hsame
    · exact absurd hnone hsome
    · rw [pending, hsame] at hp
      exact h hp

lemma Current.OnEventWrite (h : s.Current) {sockerr : Int} {r : WriteResult}
    {pevt : Option Nat} (hs : s.OnEventWrite sockerr r pevt = some t) : t.Current := by
  unfold SmartSession.OnEventWrite at hs
  split at hs
  · split at hs
    · cases hs
      exact h.withSock (.inr (EdSocket.close_mFd _))
    · obtain ⟨k, hk, rfl⟩ := Option.map_eq_some_iff.mp hs
      exact h.withSock (.inl (EdSocket.completeConnection_mFd hk))
  · exact h.procNormalOnWrite hs

lemma Current.openUnixSocket (h : s.Current) {type : SockType} {fd pevt : Option Nat}
    {bound : Bool} (hidle : s.pending = false)
    (hs : s.openUnixSocket type fd bound pevt = some t) : t.Current := by
  unfold SmartSession.openUnixSocket at hs
  split at hs
  · split at hs
    · obtain ⟨k, -, rfl⟩ := Option.map_eq_some_iff.mp hs
      exact current_of_idle hidle
    · cases hs
      exact current_of_idle hidle
  · cases hs
    exact h

lemma Current.step (h : s.Current) (hok : s.startsClean a = true) (hs : s.step a = some t) :
    t.Current := by
  cases step_effect hs with
  | openClient _ | openChild _ _ =>
    have hidle : s.pending = false := by simpa [startsClean] using hok
    exact current_of_idle hidle
  | openUnixSocket _ hunix => exact h.openUnixSocket (by simpa [startsClean] using hok) hunix
  | connectIp _ hk =>
    simp only [startsClean, Bool.or_eq_true, Bool.not_eq_true'] at hok
    rcases hok with hfd | hidle
    · exact h.withSock (.inl (EdSocket.connectIp_mFd hk hfd))
    · exact current_of_idle hidle
  | connectAddr _ hk =>
    simp only [startsClean, Bool.or_eq_true, Bool.not_eq_true'] at hok
    rcases hok with hfd | hidle
    · exact h.withSock (.inl (EdSocket.connectAddr_mFd hk hfd))
    · exact current_of_idle hidle
  | sendPacket hsent => exact h.sendPacket hsent
  | reserveWrite hk => exact h.withSock (.inl (EdSocket.changeEvent_mFd hk))
  | close => exact current_of_idle rfl
  | handler _ hpending hconn hpacket =>
    intro hp
    rw [hpending] at hp
    rw [hpacket, hconn]
    exact h hp
  | OnEventWrite hwrote => exact h.OnEventWrite hwrote

end SmartSession

variable {x : Recorded SmartSession SessionEvent}

/-- In a run that opens descriptors only with no packet pending, connections are kept apart. -/
theorem connections_apart
    (h : sessionHistory.Reaches (fun x a => x.state.startsClean a = true) x) :
    Always Apart x.log := by
  refine recorded_always ?_ h
  intro x a t e hr hok hs he
  have hcur : x.state.Current := by
    apply hr.invariant
    · rintro x ⟨h0, -⟩
      rw [h0]
      exact SmartSession.current_of_idle rfl
    · intro x a y _ hI hok hs
      exact hI.step hok (recorded_step hs).1
  cases a with
  | sendPacket buf takebuffer mem r pevt =>
    cases he
    cases hp : x.state.pending with
    | true => exact (hcur hp).symm
    | false => exact .inr rfl
  | OnEventWrite sockerr r pevt =>
    simp only [SmartSession.record, Option.ite_none_right_eq_some, Option.some.injEq] at he
    obtain ⟨⟨-, hp⟩, rfl⟩ := he
    exact .inr (hcur hp).symm
  | _ => cases he

/-- A packet is left pending when the peer hangs up. -/
def hungUp : List SessionAction :=
  [.openClient (some 3), .connectIp none (some 0), .OnEventWrite 0 .again none,
    .sendPacket [1, 2, 3] false true (.took 0) none, .OnEventHangup]

/-- The user closes the socket before it connects again. -/
theorem connections_apart_hungUp :
    ∃ x, sessionHistory.Reaches (fun x a => x.state.startsClean a = true) x ∧
      x.log = [.wrote 1 1 [1], .wrote 2 2 [7]] ∧ Always Apart x.log := by
  obtain ⟨x, hr, hx⟩ := System.exists_of_exec_restrict (M := sessionHistory)
    (T := fun x a => x.state.startsClean a) (s := ⟨.new, []⟩) ⟨rfl, rfl⟩
    (show ((sessionHistory.restrict (fun x a => x.state.startsClean a)).exec ⟨.new, []⟩
      (hungUp ++ [.close, .connectIp (some 3) (some 1), .OnEventWrite 0 .again none,
        .sendPacket [7] false true (.took 0) none])).map (fun x => x.log) =
      some [.wrote 1 1 [1], .wrote 2 2 [7]] by decide +kernel)
  exact ⟨x, hr, hx, connections_apart hr⟩

/-- The user connects again at once: the next packet is refused, and the rest of the old one is
written. -/
theorem not_connections_apart : ¬ ∀ x, sessionHistory.Reachable x → Always Apart x.log := by
  intro h
  obtain ⟨x, hr, hx⟩ := System.exists_of_exec (M := sessionHistory) (s := ⟨.new, []⟩) ⟨rfl, rfl⟩
    (show (sessionHistory.exec ⟨.new, []⟩ (hungUp ++ [.connectIp (some 3) (some 1),
        .OnEventWrite 0 .again none, .sendPacket [7] false true (.took 0) none,
        .reserveWrite none, .OnEventWrite 0 (.took 1) none])).map (fun x => x.log) =
      some ([.wrote 1 1 [1], .refused 2 1] ++ .wrote 2 1 [2, 3] :: []) by decide +kernel)
  rcases h x hr _ _ _ hx with hnil | heq
  · cases hnil
  · cases heq

end EdNio.Net
