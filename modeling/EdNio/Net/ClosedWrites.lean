import EdNio.Library.History
import EdNio.Net.ChannelChunks
import EdNio.Net.SmartSession
import EdNio.Net.TaskPointer

/-!
# Writing to a closed socket

`sendPacket` and `reserveWrite` against what has happened to the socket before. The library closes
it on a hang-up, when a connection fails and at the end of the stream; the user may open it again.
-/

namespace EdNio.Net
open Transition

/-- What an action does to the task of the socket. -/
def ChannelTask.link (s : ChannelTask) : ChannelAction → Option Link
  | .openSock _ _ => some .opened
  | .openChildSock _ _ => some .opened
  | .bindSock _ _ _ => s.chan.sock.opens
  | .listenSock _ _ _ _ => s.chan.sock.listens
  | .connectIp _ _ => s.chan.sock.connectsIp
  | .connectAddr _ _ _ => s.chan.sock.connectsAddr
  | .close => s.chan.sock.closes
  | .closeChannel => s.chan.sock.closes
  | .disconnectReturn true => s.chan.sock.closes
  | .OnEventWrite sockerr _ =>
    if s.chan.sock.mStatus = .SOCK_STATUS_CONNECTING ∧ sockerr ≠ 0 then s.chan.sock.closes
    else none
  | .OnEventHangup => s.chan.sock.closes
  | _ => none

/-- A unix socket that cannot be bound is closed again. -/
def SmartSession.link (s : SmartSession) : SessionAction → Option Link
  | .openClient _ => some .opened
  | .openChild _ _ => some .opened
  | .openUnixSocket type fd bound _ =>
    if type = .SOCK_TYPE_UNIXDGRAM ∨ type = .SOCK_TYPE_UNIXSTREAM then
      if fd.isSome ∧ bound = false ∧ s.mSock.mIsReg then some .closed else some .opened
    else none
  | .connectIp _ _ => s.mSock.connectsIp
  | .connectAddr _ _ _ => s.mSock.connectsAddr
  | .close => s.mSock.closes
  | .disconnectReturn true => s.mSock.closes
  | .OnEventWrite sockerr _ _ =>
    if s.mSock.mStatus = .SOCK_STATUS_CONNECTING ∧ sockerr ≠ 0 then s.mSock.closes else none
  | .OnEventHangup => s.mSock.closes
  | _ => none

/-- The last thing that happened to the task of the socket is that it was opened. -/
def LastOpened (log : List Link) : Prop := log.getLast? = some .opened

/-- What is known of a socket with the history `log`. -/
def EdSocket.Follows (s : EdSocket) (log : List Link) : Prop :=
  s.Tasked ∧ (s.mTask = true ↔ LastOpened log)

lemma EdSocket.Follows.new : EdSocket.new.Follows [] :=
  ⟨.new, iff_of_false (by decide) (by simp [LastOpened])⟩

lemma EdSocket.Follows.moves {s t : EdSocket} {log : List Link} {l : Option Link}
    (h : s.Follows log) (hm : s.Moves l t) : t.Follows (log ++ l.toList) := by
  refine ⟨hm.1, ?_⟩
  rw [hm.2]
  cases l with
  | none => simpa [Link.after] using h.2
  | some l => simp [Link.after, LastOpened]

namespace EdSocketChannel

variable {s t : EdSocketChannel} {r : WriteResult}

/-- With no task a packet is safe behind an outstanding one, and when there is no chunk for it. -/
lemma sendPacket_returns (h : s.sock.Tasked) (hw : (s.sock.mFd.isSome || r = .error) = true)
    (buf : List UInt8) (user : Nat) (takebuf : Bool) (pevt : Option Nat) :
    (s.sendPacket buf user takebuf r pevt).isSome = true ↔
      s.sock.mTask = true ∨ s.mCurChk.isSome = true ∨ s.mFreeChks = [] := by
  unfold sendPacket
  cases hfree : s.mFreeChks with
  | nil => simp
  | cons chk free =>
    cases hcur : s.mCurChk with
    | some cur => simp
    | none =>
      simp only [Option.isSome_none, Bool.false_eq_true, if_false, List.cons_ne_nil, or_false]
      obtain ⟨⟨ret, taken, u⟩, htx⟩ := Option.isSome_iff_exists.mp (tx_isSome { s with
        mFreeChks := free
        mem := Function.update s.mem chk ⟨buf, buf.length, user, 0, !takebuf⟩
        mCurChk := some chk } r)
      have hsock := (tx_sock htx).2
      cases htask : s.sock.mTask with
      | true =>
        rw [htx, Option.bind_some]
        dsimp only
        split
        · simp
        · rw [Option.isSome_map, hsock, h.changeEvent_isSome, htask]
      | false =>
        -- the write fails on the closed descriptor, so the socket is to be watched
        have hr : r = .error := by
          cases hfd : s.sock.mFd.isSome with
          | true =>
            have ht := h.mFd hfd
            rw [htask] at ht
            cases ht
          | false => simpa [hfd] using hw
        rw [hr, tx_error rfl, Option.bind_some]
        dsimp only
        rw [if_neg (by decide), Option.isSome_map, h.changeEvent_isSome, htask]

lemma sendPacket_moves {buf taken : List UInt8} {user : Nat} {takebuf : Bool}
    {pevt : Option Nat} {ret : SendRet} (h : s.sock.Tasked)
    (hs : s.sendPacket buf user takebuf r pevt = some (ret, taken, t)) :
    s.sock.Moves none t.sock := by
  unfold sendPacket at hs
  split at hs
  · cases hs
    exact h.moves
  rename_i chk free hfree
  dsimp only at hs
  split at hs
  · cases hs
    exact h.moves
  obtain ⟨⟨ret', taken', u⟩, hu, hs⟩ := Option.bind_eq_some_iff.mp hs
  have hsock := (tx_sock hu).2
  dsimp only at hs
  split at hs
  · cases hs
    rw [EdSocket.Moves, hsock]
    exact h.moves
  · obtain ⟨k, hk, heq⟩ := Option.map_eq_some_iff.mp hs
    cases heq
    rw [hsock] at hk
    exact h.changeEvent hk

lemma recycle_moves {chk : Nat} {pevt next : Option Nat} (h : s.sock.Tasked)
    (hs : s.recycle chk pevt = some (next, t)) : s.sock.Moves none t.sock := by
  by_cases hfd : s.sock.mFd.isSome = true
  · obtain ⟨k, rfl, -, hk⟩ := recycle_eq hfd hs
    rcases hk with rfl | hk
    · exact h.moves
    · exact h.changeEvent hk
  · rw [recycle, if_neg hfd] at hs
    cases hs
    exact h.moves

end EdSocketChannel

namespace ChannelTask

variable {s t : ChannelTask} {a : ChannelAction}

lemma txRound_moves {r : WriteResult} {pevt : Option Nat} {taken : List UInt8}
    (h : s.chan.sock.Tasked) (hs : s.txRound r pevt = some (taken, t)) :
    s.chan.sock.Moves none t.chan.sock := by
  unfold txRound at hs
  split at hs
  · obtain ⟨⟨ret, bytes, u⟩, hu, hs⟩ := Option.bind_eq_some_iff.mp hs
    have hsock := (EdSocketChannel.tx_sock hu).2
    dsimp only at hs
    split at hs
    · obtain ⟨⟨next, v⟩, hv, heq⟩ := Option.map_eq_some_iff.mp hs
      cases heq
      have hm := EdSocketChannel.recycle_moves (by rwa [hsock]) hv
      rwa [hsock] at hm
    · cases hs
      rw [EdSocket.Moves, hsock]
      exact h.moves
  · cases hs

lemma step_moves (h : s.chan.sock.Tasked) (hs : s.step a = some t) :
    s.chan.sock.Moves (s.link a) t.chan.sock := by
  cases a with
  | init maxchk =>
    simp only [step, Option.ite_none_right_eq_some, Option.some.injEq] at hs
    obtain ⟨-, rfl⟩ := hs
    exact h.moves
  | openSock type fd =>
    simp only [step, Option.ite_none_right_eq_some, Option.some.injEq] at hs
    obtain ⟨-, rfl⟩ := hs
    exact h.openSock type fd
  | openChildSock fd pevt =>
    simp only [step, Option.ite_none_right_eq_some] at hs
    obtain ⟨k, hk, rfl⟩ := Option.map_eq_some_iff.mp hs.2
    exact h.openChildSock hk
  | bindSock fd bound pevt =>
    simp only [step, Option.ite_none_right_eq_some] at hs
    obtain ⟨k, hk, rfl⟩ := Option.map_eq_some_iff.mp hs.2
    exact h.bindSock hk
  | listenSock fd bound listened pevt =>
    simp only [step, Option.ite_none_right_eq_some] at hs
    obtain ⟨k, hk, rfl⟩ := Option.map_eq_some_iff.mp hs.2
    exact h.listenSock hk
  | connectIp fd pevt =>
    simp only [step, Option.ite_none_right_eq_some] at hs
    obtain ⟨k, hk, rfl⟩ := Option.map_eq_some_iff.mp hs.2
    exact h.connectIp hk
  | connectAddr fd cnn pevt =>
    simp only [step, Option.ite_none_right_eq_some] at hs
    obtain ⟨k, hk, rfl⟩ := Option.map_eq_some_iff.mp hs.2
    exact h.connectAddr hk
  | close | closeChannel | OnEventHangup =>
    simp only [step, Option.ite_none_right_eq_some, Option.some.injEq] at hs
    obtain ⟨-, rfl⟩ := hs
    exact h.close
  | sendPacket buf user takebuf r pevt =>
    simp only [step, Option.ite_none_right_eq_some] at hs
    obtain ⟨⟨ret, taken, u⟩, hu, rfl⟩ := Option.map_eq_some_iff.mp hs.2
    exact EdSocketChannel.sendPacket_moves h hu
  | OnEventRead =>
    simp only [step, Option.ite_none_right_eq_some, Option.some.injEq] at hs
    obtain ⟨-, rfl⟩ := hs
    split <;> exact h.moves
  | readReturn error =>
    simp only [step, Option.ite_none_right_eq_some, Option.some.injEq] at hs
    obtain ⟨-, rfl⟩ := hs
    exact h.moves
  | disconnectReturn error =>
    simp only [step, Option.ite_none_right_eq_some, Option.some.injEq] at hs
    obtain ⟨-, rfl⟩ := hs
    cases error with
    | false => exact h.moves
    | true => exact h.close
  | OnEventWrite sockerr pevt =>
    simp only [step, Option.ite_none_right_eq_some] at hs
    obtain ⟨-, hs⟩ := hs
    rw [link]
    split at hs
    · rename_i hstatus
      split at hs
      · rename_i herr
        cases hs
        rw [if_pos ⟨hstatus, herr⟩]
        exact h.close
      · rename_i herr
        obtain ⟨k, hk, rfl⟩ := Option.map_eq_some_iff.mp hs
        rw [if_neg (fun hc => herr hc.2)]
        exact h.completeConnection hk
    · rename_i hstatus
      cases hs
      rw [if_neg (fun hc => hstatus hc.1)]
      exact h.moves
  | tx r pevt =>
    simp only [step, Option.ite_none_right_eq_some] at hs
    obtain ⟨⟨taken, u⟩, hu, rfl⟩ := Option.map_eq_some_iff.mp hs.2
    exact txRound_moves h hu
  | loopEnd =>
    simp only [step, Option.ite_none_right_eq_some, Option.some.injEq] at hs
    obtain ⟨-, rfl⟩ := hs
    exact h.moves
  | OnTxComplete | callbackReturn =>
    simp only [step] at hs
    split at hs
    · cases hs
      exact h.moves
    · cases hs

/-- The task of the socket follows the history in every run. -/
lemma follows_reachable {c : Recorded ChannelTask Link}
    (h : (channelTask.recorded link).Reachable c) : c.state.chan.sock.Follows c.log := by
  refine h.invariant (I := fun c => c.state.chan.sock.Follows c.log) ?_
    (fun c a d _ hI _ hs => ?_)
  · rintro ⟨s, log⟩ ⟨h0, hlog⟩
    have h0' : s = .new := h0
    subst h0' hlog
    exact .new
  · obtain ⟨hstep, hlog⟩ := recorded_step hs
    rw [hlog]
    exact hI.moves (step_moves hI.1 hstep)

end ChannelTask

namespace SmartSession

variable {s t : SmartSession} {a : SessionAction} {r : WriteResult} {pevt : Option Nat}

/-- With no descriptor a write fails for good, and nothing becomes pending. -/
lemma sendPacket_error (s : SmartSession) (buf : List UInt8) (takebuffer mem : Bool) :
    (s.smart.sendPacket buf takebuffer mem .error).1 ≠ .SEND_PENDING := by
  have hlen : (write buf .error).1 ≠ buf.length := by
    simp only [write]
    omega
  have hfail : ¬ ((write buf .error).1 > 0 ∨ WriteResult.error = .again) := by simp [write]
  unfold EdSmartSocket.sendPacket
  dsimp only
  by_cases hpending : s.smart.mPendingBuf.isSome = true
  · rw [if_pos hpending]
    simp
  · rw [if_neg hpending, if_neg hlen, if_neg hfail]
    simp

lemma sendPacket_returns (h : s.mSock.Tasked) (hw : s.writes r = true) (buf : List UInt8)
    (takebuffer mem : Bool) (pevt : Option Nat) :
    (s.sendPacket buf takebuffer mem r pevt).isSome = true := by
  unfold sendPacket
  dsimp only
  split
  · rename_i hpending
    have hfd : s.mSock.mFd.isSome = true := by
      by_contra hnone
      have hr : r = .error := by simpa [writes, hnone] using hw
      rw [hr] at hpending
      exact s.sendPacket_error buf takebuffer mem hpending
    rw [Option.isSome_map, h.changeEvent_isSome]
    exact h.mFd hfd
  · rfl

lemma reserveWrite_returns (h : s.mSock.Tasked) (pevt : Option Nat) :
    (s.reserveWrite pevt).isSome = s.mSock.mTask := by
  rw [reserveWrite, Option.isSome_map, h.changeEvent_isSome]

lemma openUnixSocket_moves {type : SockType} {fd : Option Nat} {bound : Bool}
    (h : s.mSock.Tasked) (hs : s.openUnixSocket type fd bound pevt = some t) :
    s.mSock.Moves (s.link (.openUnixSocket type fd bound pevt)) t.mSock := by
  unfold openUnixSocket at hs
  rw [link]
  split at hs
  · rename_i htype
    rw [if_pos htype]
    obtain ⟨hopen, -⟩ := h.openSock type fd
    dsimp only at hs
    split at hs
    · rename_i hfd
      obtain ⟨k, hk, rfl⟩ := Option.map_eq_some_iff.mp hs
      obtain ⟨hbind, htask⟩ := hopen.bindSock hk
      have hopens : (s.mSock.openSock type fd).opens = none :=
        if_neg (fun hn => by rw [show fd = none from hn] at hfd; cases hfd)
      rw [hopens] at htask
      cases bound with
      | true =>
        rw [if_neg (fun hc => by cases hc.2.1)]
        exact ⟨hbind, htask⟩
      | false =>
        -- the descriptor is closed again, with the registration of an earlier one
        have hk' : s.mSock.openSock type fd = k := by
          have hne : (s.mSock.openSock type fd).mFd ≠ none := Option.isSome_iff_ne_none.mp hfd
          simpa [EdSocket.bindSock, hne, withSock] using hk
        obtain ⟨hclose, hlink⟩ := hbind.close
        refine ⟨hclose, hlink.trans ?_⟩
        rw [htask, ← hk']
        by_cases hreg : s.mSock.mIsReg = true
        · rw [if_pos ⟨hfd, rfl, hreg⟩, EdSocket.closes, if_pos ⟨hfd, hreg⟩]
          rfl
        · rw [if_neg (fun hc => hreg hc.2.2), EdSocket.closes, if_neg (fun hc => hreg hc.2)]
          rfl
    · rename_i hfd
      cases hs
      rw [if_neg (fun hc => hfd hc.1)]
      exact h.openSock type fd
  · rename_i htype
    cases hs
    rw [if_neg htype]
    exact h.moves

lemma procNormalOnWrite_moves (h : s.mSock.Tasked)
    (hs : s.procNormalOnWrite r pevt = some t) : s.mSock.Moves none t.mSock := by
  unfold procNormalOnWrite at hs
  dsimp only at hs
  split at hs
  · obtain ⟨k, hk, rfl⟩ := Option.map_eq_some_iff.mp hs
    exact h.changeEvent hk
  · cases hs
    exact h.moves

lemma sendPacket_moves {buf : List UInt8} {takebuffer mem : Bool} {ret : SendResult}
    (h : s.mSock.Tasked) (hs : s.sendPacket buf takebuffer mem r pevt = some (ret, t)) :
    s.mSock.Moves none t.mSock := by
  unfold sendPacket at hs
  dsimp only at hs
  split at hs
  · obtain ⟨k, hk, heq⟩ := Option.map_eq_some_iff.mp hs
    cases heq
    exact h.changeEvent hk
  · cases hs
    exact h.moves

lemma OnEventWrite_moves {sockerr : Int} (h : s.mSock.Tasked)
    (hs : s.OnEventWrite sockerr r pevt = some t) :
    s.mSock.Moves (s.link (.OnEventWrite sockerr r pevt)) t.mSock := by
  unfold OnEventWrite at hs
  rw [link]
  split at hs
  · rename_i hstatus
    split at hs
    · rename_i herr
      cases hs
      rw [if_pos ⟨hstatus, herr⟩]
      exact h.close
    · rename_i herr
      obtain ⟨k, hk, rfl⟩ := Option.map_eq_some_iff.mp hs
      rw [if_neg (fun hc => herr hc.2)]
      exact h.completeConnection hk
  · rename_i hstatus
    rw [if_neg (fun hc => hstatus hc.1)]
    exact procNormalOnWrite_moves h hs

lemma step_moves (h : s.mSock.Tasked) (hs : s.step a = some t) :
    s.mSock.Moves (s.link a) t.mSock := by
  cases a with
  | openClient fd =>
    simp only [step, Option.ite_none_right_eq_some, Option.some.injEq] at hs
    obtain ⟨-, rfl⟩ := hs
    exact h.openSock _ fd
  | openChild fd pevt =>
    simp only [step, Option.ite_none_right_eq_some] at hs
    obtain ⟨k, hk, rfl⟩ := Option.map_eq_some_iff.mp hs.2
    exact h.openChildSock hk
  | openUnixSocket type fd bound pevt =>
    simp only [step, Option.ite_none_right_eq_some] at hs
    exact openUnixSocket_moves h hs.2
  | connectIp fd pevt =>
    simp only [step, Option.ite_none_right_eq_some] at hs
    obtain ⟨k, hk, rfl⟩ := Option.map_eq_some_iff.mp hs.2
    exact h.connectIp hk
  | connectAddr fd cnn pevt =>
    simp only [step, Option.ite_none_right_eq_some] at hs
    obtain ⟨k, hk, rfl⟩ := Option.map_eq_some_iff.mp hs.2
    exact h.connectAddr hk
  | sendPacket buf takebuffer mem r pevt =>
    simp only [step, Option.ite_none_right_eq_some] at hs
    obtain ⟨⟨ret, u⟩, hu, rfl⟩ := Option.map_eq_some_iff.mp hs.2
    exact sendPacket_moves h hu
  | reserveWrite pevt =>
    obtain ⟨k, hk, rfl⟩ := Option.map_eq_some_iff.mp hs
    exact h.changeEvent hk
  | close =>
    cases hs
    exact h.close
  | OnEventRead =>
    simp only [step, Option.ite_none_right_eq_some, Option.some.injEq] at hs
    obtain ⟨-, rfl⟩ := hs
    exact h.moves
  | readReturn error =>
    simp only [step, Option.ite_none_right_eq_some, Option.some.injEq] at hs
    obtain ⟨-, rfl⟩ := hs
    cases error <;> exact h.moves
  | disconnectReturn error =>
    simp only [step, Option.ite_none_right_eq_some, Option.some.injEq] at hs
    obtain ⟨-, rfl⟩ := hs
    cases error with
    | false => exact h.moves
    | true => exact h.close
  | OnEventWrite sockerr r pevt =>
    simp only [step, Option.ite_none_right_eq_some] at hs
    exact OnEventWrite_moves h hs.2
  | OnEventHangup =>
    simp only [step, Option.ite_none_right_eq_some, Option.some.injEq] at hs
    obtain ⟨-, rfl⟩ := hs
    exact h.close

lemma follows_reachable {s : Recorded SmartSession Link}
    (h : (smartSession.recorded link).Reachable s) : s.state.mSock.Follows s.log := by
  refine h.invariant (I := fun s => s.state.mSock.Follows s.log) ?_ (fun s a t _ hI _ hs => ?_)
  · rintro ⟨s, log⟩ ⟨h0, hlog⟩
    have h0' : s = .new := h0
    subst h0' hlog
    exact .new
  · obtain ⟨hstep, hlog⟩ := recorded_step hs
    rw [hlog]
    exact hI.moves (step_moves hI.1 hstep)

end SmartSession

/-- A call of `EdSocketChannel::sendPacket` returns exactly if the socket was opened last, a packet
is outstanding or no chunk is free, and one of `reserveWrite` exactly if it was opened last.
`EdSmartSocket::sendPacket` always returns. -/
theorem closedWrites_iff {c : Recorded ChannelTask Link} {s : Recorded SmartSession Link}
    (hc : (channelTask.recorded ChannelTask.link).Reachable c)
    (hs : (smartSession.recorded SmartSession.link).Reachable s) :
    (∀ buf user takebuf r pevt, c.state.writes r = true →
      ((c.state.chan.sendPacket buf user takebuf r pevt).isSome = true ↔
        LastOpened c.log ∨ c.state.chan.mCurChk.isSome = true ∨ c.state.chan.mFreeChks = [])) ∧
    (∀ buf takebuffer mem r pevt, s.state.writes r = true →
      (s.state.sendPacket buf takebuffer mem r pevt).isSome = true) ∧
    ∀ pevt, (s.state.reserveWrite pevt).isSome = true ↔ LastOpened s.log := by
  obtain ⟨hchan, hopened⟩ := ChannelTask.follows_reachable hc
  obtain ⟨hsmart, hopened'⟩ := SmartSession.follows_reachable hs
  rw [← hopened, ← hopened']
  refine ⟨fun buf user takebuf r pevt hw => ?_, fun buf takebuffer mem r pevt hw => ?_,
    fun pevt => ?_⟩
  · exact EdSocketChannel.sendPacket_returns hchan hw buf user takebuf pevt
  · exact SmartSession.sendPacket_returns hsmart hw buf takebuffer mem pevt
  · rw [SmartSession.reserveWrite_returns hsmart]

/-- A hang-up with a packet outstanding. -/
def hungUpPending : List ChannelAction :=
  [.init 2, .openSock .SOCK_TYPE_TCP (some 3), .connectIp none (some 0), .OnEventWrite 0 none,
    .sendPacket [1, 2] 7 false .again none, .OnEventHangup]

/-- The next packet waits behind the one that is outstanding. -/
theorem closedWrites_hungUp : ∃ c, (channelTask.recorded ChannelTask.link).Reachable c ∧
    c.log = [.opened, .closed] ∧ ∀ buf user takebuf r pevt, c.state.writes r = true →
      (c.state.chan.sendPacket buf user takebuf r pevt).isSome = true := by
  obtain ⟨c, hr, hc⟩ := System.exists_of_exec (M := channelTask.recorded ChannelTask.link)
    (s := ⟨.new, []⟩) (l := hungUpPending) (f := fun c => (c.log, c.state.chan.mCurChk.isSome))
    ⟨rfl, rfl⟩ (b := ([.opened, .closed], true)) (by decide +kernel)
  rw [Prod.mk.injEq] at hc
  refine ⟨c, hr, hc.1, fun buf user takebuf r pevt hw => ?_⟩
  have hsmart : (smartSession.recorded SmartSession.link).Reachable ⟨.new, []⟩ := .init ⟨rfl, rfl⟩
  exact ((closedWrites_iff hr hsmart).1 buf user takebuf r pevt hw).mpr (.inr (.inl hc.2))

/-- A connected channel hangs up with nothing pending, and is then given a packet. -/
theorem not_closedWrites : ¬ ∀ c d, channelTask.Reachable c → c.step .OnEventHangup = some d →
    ∀ buf user takebuf r pevt, d.writes r = true →
      (d.chan.sendPacket buf user takebuf r pevt).isSome = true := by
  intro hall
  obtain ⟨c, hr, hc⟩ := System.exists_of_exec (M := channelTask) (s := .new)
    (l := [.init 1, .openSock .SOCK_TYPE_TCP (some 3), .connectIp none (some 0),
      .OnEventWrite 0 none])
    (f := fun c => (c.step .OnEventHangup).map (fun d =>
      (d.chan.sendPacket [1, 2] 7 false .error none).isSome)) rfl
    (b := some false) (by decide +kernel)
  obtain ⟨d, hd, hnone⟩ := Option.map_eq_some_iff.mp hc
  have hsome := hall c d hr hd [1, 2] 7 false .error none (by simp [ChannelTask.writes])
  rw [hnone] at hsome
  cases hsome

end EdNio.Net
