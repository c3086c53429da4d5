import EdNio.Net.SmartSession
import EdNio.Net.SocketChannel

/-!
# Pending output is watched

The interest of a socket that has output pending, in the smart socket and in the channel.
-/

namespace EdNio.Net
open Transition

/-- A registration of the descriptor in use has `EVT_WRITE`. -/
def EdSocket.WatchesWrite (s : EdSocket) : Prop :=
  ∀ e, s.mEvt = some e → s.mFd = some e.fd → e.interest.evtWrite = true

namespace SmartSession

variable (s : SmartSession)

def Watched : Prop := s.pending = true → s.mSock.WatchesWrite

/-- With a packet pending no connection is completed, and nothing is registered without
`EVT_WRITE`. -/
def keepsWatch : SessionAction → Bool
  | .openChild _ _ => s.mSock.mEvt.isSome || !s.pending
  | .openUnixSocket _ _ _ _ => s.mSock.mEvt.isSome || !s.pending
  | .connectAddr _ _ _ =>
    s.mSock.mType = .SOCK_TYPE_TCP || s.mSock.mType = .SOCK_TYPE_UDP || s.mSock.mEvt.isSome ||
      !s.pending
  | .OnEventWrite sockerr _ _ =>
    s.mSock.mStatus ≠ .SOCK_STATUS_CONNECTING || sockerr ≠ 0 || !s.pending
  | _ => true

end SmartSession

namespace ChannelTask

variable (s : ChannelTask)

def pending : Bool := s.chan.mCurChk.isSome

def Watched : Prop := s.pending = true → s.chan.sock.WatchesWrite

/-- With a chunk pending no connection is completed, and nothing is registered without
`EVT_WRITE`. -/
def keepsWatch : ChannelAction → Bool
  | .openChildSock _ _ => s.chan.sock.mEvt.isSome || !s.pending
  | .bindSock _ _ _ => s.chan.sock.mEvt.isSome || !s.pending
  | .listenSock _ _ _ _ => s.chan.sock.mEvt.isSome || !s.pending
  | .connectAddr _ _ _ =>
    s.chan.sock.mType = .SOCK_TYPE_TCP || s.chan.sock.mType = .SOCK_TYPE_UDP ||
      s.chan.sock.mEvt.isSome || !s.pending
  | .OnEventWrite sockerr _ =>
    s.chan.sock.mStatus ≠ .SOCK_STATUS_CONNECTING || sockerr ≠ 0 || !s.pending
  | _ => true

end ChannelTask

namespace EdSocket

variable {s t : EdSocket} {flags : Interest} {pevt : Option Nat}

/-- Nothing new is registered, or it has `EVT_WRITE`. -/
lemma WatchesWrite.registerEvent (h : s.WatchesWrite)
    (hok : flags.evtWrite = true ∨ s.mEvt.isSome = true)
    (hs : s.registerEvent flags pevt = some t) : t.WatchesWrite := by
  unfold EdSocket.registerEvent at hs
  split at hs
  · cases hs
    exact h
  · split at hs
    · rename_i hnone
      split at hs
      · cases hs
        intro e he _
        obtain ⟨fd, -, he⟩ := Option.bind_eq_some_iff.mp he
        obtain ⟨id, -, rfl⟩ := Option.map_eq_some_iff.mp he
        rcases hok with hw | hsome
        · exact hw
        · rw [hnone] at hsome
          cases hsome
      · cases hs
    · cases hs
      exact h

lemma watchesWrite_of_changeEvent (hw : flags.evtWrite = true)
    (hs : s.changeEvent flags pevt = some t) : t.WatchesWrite := by
  unfold EdSocket.changeEvent at hs
  split at hs
  · cases hs
    rintro e he -
    cases he
    exact hw
  · rename_i hnone
    refine WatchesWrite.registerEvent (fun e he => ?_) (.inl hw) hs
    rw [hnone] at he
    cases he

lemma close_watchesWrite (s : EdSocket) : s.close.WatchesWrite := by
  intro e _ hfd
  rw [close_mFd] at hfd
  cases hfd

/-- The descriptor is not the one of the registration. -/
def NotRegistered (s : EdSocket) (fd : Option Nat) : Prop :=
  ∀ e, s.mEvt = some e → fd ≠ some e.fd

/-- The registration stays, and the descriptor does or is `fd`. -/
def Keeps (s t : EdSocket) (fd : Option Nat) : Prop :=
  t.mEvt = s.mEvt ∧ (t.mFd = s.mFd ∨ t.mFd = fd)

lemma WatchesWrite.of_keeps (hw : s.WatchesWrite) {fd : Option Nat} (h : s.NotRegistered fd)
    (hk : s.Keeps t fd) : t.WatchesWrite := by
  intro e he hfd
  rw [hk.1] at he
  rcases hk.2 with hs | hnew
  · exact hw e he (hs ▸ hfd)
  · exact absurd (hnew ▸ hfd) (h e he)

lemma openSock_watchesWrite {fd : Option Nat} (h : s.NotRegistered fd) (type : SockType) :
    (s.openSock type fd).WatchesWrite := by
  intro e he hfd
  exact absurd hfd (h e he)

lemma registerEvent_of_isSome (h : s.mEvt.isSome = true) :
    s.registerEvent flags pevt = some s := by
  have hne : s.mEvt ≠ none := Option.isSome_iff_ne_none.mp h
  rw [registerEvent, if_neg hne]
  exact ite_self _

lemma Registers.keeps {u : EdSocket} {fd : Option Nat} (hr : u.Registers flags t)
    (hk : s.Keeps u fd) (h : s.mEvt.isSome = true) : s.Keeps t fd := by
  induction hr with
  | refl => exact hk
  | mark _ hfd hevt _ _ ih => exact ⟨hevt.trans ih.1, by rw [hfd]; exact ih.2⟩
  | register _ hs ih =>
    rw [registerEvent_of_isSome (by rw [ih.1]; exact h)] at hs
    cases hs
    exact ih

lemma WatchesWrite.registers (hw : s.WatchesWrite) (hok : flags.evtWrite = true)
    (hr : s.Registers flags t) : t.WatchesWrite := by
  induction hr with
  | refl => exact hw
  | mark _ hfd hevt _ _ ih =>
    intro e he hfd'
    rw [hevt] at he
    rw [hfd] at hfd'
    exact ih e he hfd'
  | register _ hs ih => exact ih.registerEvent (.inl hok) hs

lemma opened_keeps (s : EdSocket) (fd : Option Nat) : s.Keeps (s.opened fd) fd := by
  unfold opened
  split
  · exact ⟨rfl, .inr rfl⟩
  · exact ⟨rfl, .inl rfl⟩

lemma openChildSock_keeps (h : s.mEvt.isSome = true) {fd : Nat}
    (hs : s.openChildSock fd pevt = some t) : s.Keeps t (some fd) :=
  (openChildSock_registers hs).keeps ⟨rfl, .inr rfl⟩ h

lemma bindSock_keeps (h : s.mEvt.isSome = true) {fd : Option Nat} {bound : Bool}
    (hs : s.bindSock fd bound pevt = some t) : s.Keeps t fd :=
  (bindSock_registers hs).keeps (s.opened_keeps fd) h

lemma listenSock_keeps (h : s.mEvt.isSome = true) {fd : Option Nat} {bound listened : Bool}
    (hs : s.listenSock fd bound listened pevt = some t) : s.Keeps t fd := by
  rcases listenSock_cases hs with ⟨-, hr⟩ | ⟨-, hr⟩
  · exact hr.keeps (s.opened_keeps fd) h
  · exact hr.keeps ⟨rfl, .inl rfl⟩ h

lemma connectIp_watchesWrite (hw : s.WatchesWrite) {fd : Option Nat} (h : s.NotRegistered fd)
    (hs : s.connectIp fd pevt = some t) : t.WatchesWrite := by
  rcases connectIp_cases hs with ⟨-, hr⟩ | ⟨-, rfl⟩
  · exact (hw.of_keeps h (s.opened_keeps fd)).registers rfl hr
  · exact hw

lemma WatchesWrite.connectAddr (hw : s.WatchesWrite) {fd : Option Nat}
    (h : s.NotRegistered fd) {cnn : CnnResult}
    (hok : (s.mType = .SOCK_TYPE_TCP ∨ s.mType = .SOCK_TYPE_UDP) ∨ s.mEvt.isSome = true)
    (hs : s.connectAddr fd cnn pevt = some t) : t.WatchesWrite := by
  rcases connectAddr_cases hs with ⟨-, hs⟩ | ⟨hunix, hr⟩
  · exact connectIp_watchesWrite hw h hs
  · have hnone : s.NotRegistered none := by
      intro e _ hn
      cases hn
    exact hw.of_keeps hnone (hr.keeps ⟨rfl, .inl rfl⟩ (hok.resolve_left hunix))

lemma notRegistered_of_fresh {fd : Option Nat}
    (h : fd.all (fun fd => s.mFd ≠ some fd && s.mEvt.all (fun e => e.fd ≠ fd)) = true) :
    s.NotRegistered fd := by
  rintro e he rfl
  simp [he] at h

end EdSocket

namespace SmartSession

variable {s t : SmartSession} {a : SessionAction}

lemma Watched.withSock (h : s.Watched) {k : EdSocket}
    (hk : s.pending = true → s.mSock.WatchesWrite → k.WatchesWrite) : (s.withSock k).Watched :=
  fun hp => hk hp (h hp)

lemma Watched.openUnixSocket (h : s.Watched) {type : SockType} {fd pevt : Option Nat}
    {bound : Bool} (hfresh : s.mSock.NotRegistered fd)
    (hok : s.pending = true → s.mSock.mEvt.isSome = true)
    (hs : s.openUnixSocket type fd bound pevt = some t) : t.Watched := by
  unfold SmartSession.openUnixSocket at hs
  split at hs
  · have hopen := EdSocket.openSock_watchesWrite hfresh type
    split at hs
    · obtain ⟨k, hk, rfl⟩ := Option.map_eq_some_iff.mp hs
      intro hp
      cases bound with
      | true =>
        have hsome : (s.mSock.openSock type fd).mEvt.isSome = true := hok hp
        have hnone : (s.mSock.openSock type fd).NotRegistered none := by
          intro e _ hn
          cases hn
        exact hopen.of_keeps hnone (EdSocket.bindSock_keeps hsome hk)
      | false => exact EdSocket.close_watchesWrite k
    · cases hs
      exact fun _ => hopen
  · cases hs
    exact h

lemma Watched.sendPacket (h : s.Watched) {buf : List UInt8} {takebuffer mem : Bool}
    {r : WriteResult} {pevt : Option Nat} {ret : SendResult}
    (hs : s.sendPacket buf takebuffer mem r pevt = some (ret, t)) : t.Watched := by
  have hspec := s.smart.sendPacket_spec buf takebuffer mem r
  unfold SmartSession.sendPacket at hs
  dsimp only at hs hspec
  split at hs
  · rename_i hpending
    obtain ⟨k, hk, heq⟩ := Option.map_eq_some_iff.mp hs
    cases heq
    rw [hspec.1 hpending] at hk
    exact fun _ => EdSocket.watchesWrite_of_changeEvent rfl hk
  · rename_i hne
    cases hs
    intro hp
    rw [pending, hspec.2 hne] at hp
    exact h hp

lemma Watched.OnEventWrite (h : s.Watched) {sockerr : Int} {r : WriteResult}
    {pevt : Option Nat}
    (hok : s.mSock.mStatus ≠ .SOCK_STATUS_CONNECTING ∨ sockerr ≠ 0 ∨ s.pending = false)
    (hs : s.OnEventWrite sockerr r pevt = some t) : t.Watched := by
  unfold SmartSession.OnEventWrite at hs
  split at hs
  · rename_i hconnecting
    split at hs
    · cases hs
      exact fun _ => EdSocket.close_watchesWrite _
    · rename_i hzero
      obtain ⟨k, hk, rfl⟩ := Option.map_eq_some_iff.mp hs
      intro hp
      have hidle := (hok.resolve_left (absurd hconnecting)).resolve_left hzero
      rw [show s.pending = true from hp] at hidle
      cases hidle
  · unfold SmartSession.procNormalOnWrite at hs
    dsimp only at hs
    split at hs
    · rename_i hnone
      obtain ⟨k, -, rfl⟩ := Option.map_eq_some_iff.mp hs
      intro hp
      rw [pending, hnone] at hp
      cases hp
    · rename_i hsome
      cases hs
      intro hp
      rcases s.smart.procNormalOnWrite_pending r with hnone | hsame
      · exact absurd hnone hsome
      · rw [pending, hsame] at hp
        exact h hp

lemma Watched.step (h : s.Watched) (hok : s.keepsWatch a = true) (hs : s.step a = some t) :
    t.Watched := by
  cases step_effect hs with
  | openClient hfresh =>
    exact fun _ => EdSocket.openSock_watchesWrite (EdSocket.notRegistered_of_fresh hfresh) _
  | openChild hfresh hk =>
    refine h.withSock (fun hp hw => ?_)
    have hsome : s.mSock.mEvt.isSome = true := by simpa [keepsWatch, hp] using hok
    exact hw.of_keeps (EdSocket.notRegistered_of_fresh hfresh)
      (EdSocket.openChildSock_keeps hsome hk)
  | openUnixSocket hfresh hunix =>
    exact h.openUnixSocket (EdSocket.notRegistered_of_fresh hfresh)
      (fun hp => by simpa [keepsWatch, hp] using hok) hunix
  | connectIp hfresh hk =>
    exact h.withSock (fun _ hw =>
      EdSocket.connectIp_watchesWrite hw (EdSocket.notRegistered_of_fresh hfresh) hk)
  | connectAddr hfresh hk =>
    refine h.withSock (fun hp hw => ?_)
    exact hw.connectAddr (EdSocket.notRegistered_of_fresh hfresh)
      (by simpa [keepsWatch, hp] using hok) hk
  | sendPacket hsent => exact h.sendPacket hsent
  | reserveWrite hk => exact fun _ => EdSocket.watchesWrite_of_changeEvent rfl hk
  | close => exact fun _ => EdSocket.close_watchesWrite _
  | handler hsock hpending _ _ =>
    intro hp
    rw [hpending] at hp
    rcases hsock with hsock | hsock
    · rw [hsock]
      exact h hp
    · rw [hsock]
      exact EdSocket.close_watchesWrite _
  | OnEventWrite hwrote => exact h.OnEventWrite (by simpa [keepsWatch, or_assoc] using hok) hwrote

end SmartSession

namespace ChannelTask

variable {s t : ChannelTask} {a : ChannelAction}

lemma Watched.withSock (h : s.Watched) {k : EdSocket}
    (hk : s.pending = true → s.chan.sock.WatchesWrite → k.WatchesWrite) :
    (s.withSock k).Watched :=
  fun hp => hk hp (h hp)

/-- With a chunk pending the registration is kept. -/
lemma Watched.withKept (h : s.Watched) {fd : Option Nat} {k : EdSocket}
    (hfresh : s.fresh fd = true) (hok : (s.chan.sock.mEvt.isSome || !s.pending) = true)
    (hk : s.chan.sock.mEvt.isSome = true → s.chan.sock.Keeps k fd) : (s.withSock k).Watched := by
  refine h.withSock (fun hp hw => ?_)
  have hsome : s.chan.sock.mEvt.isSome = true := by simpa [hp] using hok
  exact hw.of_keeps (EdSocket.notRegistered_of_fresh hfresh) (hk hsome)

lemma Watched.sendPacket (h : s.Watched) {buf taken : List UInt8} {user : Nat}
    {takebuf : Bool} {r : WriteResult} {pevt : Option Nat} {ret : SendRet} {c : EdSocketChannel}
    (hs : s.chan.sendPacket buf user takebuf r pevt = some (ret, taken, c)) :
    Watched { s with chan := c } := by
  unfold EdSocketChannel.sendPacket at hs
  split at hs
  · cases hs
    exact h
  · dsimp only at hs
    split at hs
    · cases hs
      exact h
    · obtain ⟨⟨ret', taken', u⟩, -, hs⟩ := Option.bind_eq_some_iff.mp hs
      dsimp only at hs
      split at hs
      · cases hs
        intro hp
        cases hp
      · obtain ⟨k, hk, heq⟩ := Option.map_eq_some_iff.mp hs
        cases heq
        exact fun _ => EdSocket.watchesWrite_of_changeEvent rfl hk

/-- The chunk that comes next is watched as the one before it was. -/
lemma recycle_watchesWrite {s t : EdSocketChannel} (h : s.sock.WatchesWrite) {chk : Nat}
    {pevt next : Option Nat} (hs : s.recycle chk pevt = some (next, t)) :
    t.mCurChk.isSome = true → t.sock.WatchesWrite := by
  unfold EdSocketChannel.recycle at hs
  split at hs
  · dsimp only at hs
    split at hs
    · cases hs
      exact fun _ => h
    · obtain ⟨k, -, heq⟩ := Option.map_eq_some_iff.mp hs
      cases heq
      intro hp
      cases hp
  · cases hs
    exact fun _ => h

lemma Watched.txRound (h : s.Watched) {r : WriteResult} {pevt : Option Nat}
    {taken : List UInt8} (hs : s.txRound r pevt = some (taken, t)) : t.Watched := by
  unfold ChannelTask.txRound at hs
  split at hs
  · obtain ⟨⟨ret, bytes, u⟩, hu, hs⟩ := Option.bind_eq_some_iff.mp hs
    obtain ⟨hcur, hsock⟩ := EdSocketChannel.tx_sock hu
    have hwatch : u.sock.WatchesWrite := by
      rw [hsock]
      exact h hcur
    dsimp only at hs
    split at hs
    · obtain ⟨⟨next, v⟩, hv, heq⟩ := Option.map_eq_some_iff.mp hs
      cases heq
      exact recycle_watchesWrite hwatch hv
    · cases hs
      exact fun _ => hwatch
  · cases hs

lemma Watched.step (h : s.Watched) (hok : s.keepsWatch a = true) (hs : s.step a = some t) :
    t.Watched := by
  cases a with
  | init maxchk =>
    simp only [ChannelTask.step, Option.ite_none_right_eq_some, Option.some.injEq] at hs
    obtain ⟨-, rfl⟩ := hs
    exact h
  | openSock type fd =>
    simp only [ChannelTask.step, Option.ite_none_right_eq_some, Option.some.injEq] at hs
    obtain ⟨⟨-, hfresh⟩, rfl⟩ := hs
    exact fun _ => EdSocket.openSock_watchesWrite (EdSocket.notRegistered_of_fresh hfresh) _
  | openChildSock fd pevt =>
    simp only [ChannelTask.step, Option.ite_none_right_eq_some] at hs
    obtain ⟨⟨-, hfresh⟩, hs⟩ := hs
    obtain ⟨k, hk, rfl⟩ := Option.map_eq_some_iff.mp hs
    exact h.withKept hfresh hok (fun hsome => EdSocket.openChildSock_keeps hsome hk)
  | bindSock fd bound pevt =>
    simp only [ChannelTask.step, Option.ite_none_right_eq_some] at hs
    obtain ⟨⟨-, hfresh⟩, hs⟩ := hs
    obtain ⟨k, hk, rfl⟩ := Option.map_eq_some_iff.mp hs
    exact h.withKept hfresh hok (fun hsome => EdSocket.bindSock_keeps hsome hk)
  | listenSock fd bound listened pevt =>
    simp only [ChannelTask.step, Option.ite_none_right_eq_some] at hs
    obtain ⟨⟨-, hfresh⟩, hs⟩ := hs
    obtain ⟨k, hk, rfl⟩ := Option.map_eq_some_iff.mp hs
    exact h.withKept hfresh hok (fun hsome => EdSocket.listenSock_keeps hsome hk)
  | connectIp fd pevt =>
    simp only [ChannelTask.step, Option.ite_none_right_eq_some] at hs
    obtain ⟨⟨-, hfresh⟩, hs⟩ := hs
    obtain ⟨k, hk, rfl⟩ := Option.map_eq_some_iff.mp hs
    exact h.withSock (fun _ hw =>
      EdSocket.connectIp_watchesWrite hw (EdSocket.notRegistered_of_fresh hfresh) hk)
  | connectAddr fd cnn pevt =>
    simp only [ChannelTask.step, Option.ite_none_right_eq_some] at hs
    obtain ⟨⟨-, hfresh⟩, hs⟩ := hs
    obtain ⟨k, hk, rfl⟩ := Option.map_eq_some_iff.mp hs
    refine h.withSock (fun hp hw => ?_)
    exact hw.connectAddr (EdSocket.notRegistered_of_fresh hfresh)
      (by simpa [keepsWatch, hp] using hok) hk
  | close =>
    simp only [ChannelTask.step, Option.ite_none_right_eq_some, Option.some.injEq] at hs
    obtain ⟨-, rfl⟩ := hs
    exact fun _ => EdSocket.close_watchesWrite _
  | closeChannel =>
    simp only [ChannelTask.step, Option.ite_none_right_eq_some, Option.some.injEq] at hs
    obtain ⟨-, rfl⟩ := hs
    exact fun _ => EdSocket.close_watchesWrite _
  | sendPacket buf user takebuf r pevt =>
    simp only [ChannelTask.step, Option.ite_none_right_eq_some] at hs
    obtain ⟨⟨ret, taken, u⟩, hu, rfl⟩ := Option.map_eq_some_iff.mp hs.2
    exact h.sendPacket hu
  | OnEventRead =>
    simp only [ChannelTask.step, Option.ite_none_right_eq_some, Option.some.injEq] at hs
    obtain ⟨-, rfl⟩ := hs
    split <;> exact h
  | OnEventWrite sockerr pevt =>
    simp only [ChannelTask.step, Option.ite_none_right_eq_some] at hs
    obtain ⟨-, hs⟩ := hs
    split at hs
    · rename_i hconnecting
      split at hs
      · cases hs
        exact fun _ => EdSocket.close_watchesWrite _
      · rename_i hzero
        obtain ⟨k, -, rfl⟩ := Option.map_eq_some_iff.mp hs
        intro hp
        have hidle : s.pending = false := by simpa [keepsWatch, hconnecting, hzero] using hok
        rw [show s.pending = true from hp] at hidle
        cases hidle
    · cases hs
      exact h
  | tx r pevt =>
    simp only [ChannelTask.step, Option.ite_none_right_eq_some] at hs
    obtain ⟨⟨taken, u⟩, hu, rfl⟩ := Option.map_eq_some_iff.mp hs.2
    exact h.txRound hu
  | disconnectReturn error =>
    simp only [ChannelTask.step, Option.ite_none_right_eq_some, Option.some.injEq] at hs
    obtain ⟨-, rfl⟩ := hs
    cases error with
    | false => exact h
    | true => exact fun _ => EdSocket.close_watchesWrite _
  | readReturn _ | loopEnd =>
    simp only [ChannelTask.step, Option.ite_none_right_eq_some, Option.some.injEq] at hs
    obtain ⟨-, rfl⟩ := hs
    exact h
  | OnTxComplete | callbackReturn =>
    simp only [ChannelTask.step] at hs
    split at hs
    · cases hs
      exact h
    · cases hs
  | OnEventHangup =>
    simp only [ChannelTask.step, Option.ite_none_right_eq_some, Option.some.injEq] at hs
    obtain ⟨-, rfl⟩ := hs
    exact fun _ => EdSocket.close_watchesWrite _

end ChannelTask

/-- In runs that complete no connection and register nothing without `EVT_WRITE` while output
is pending, pending output is watched. -/
theorem pending_watched {s : SmartSession} {c : ChannelTask}
    (hs : smartSession.Reaches (fun s a => s.keepsWatch a = true) s)
    (hc : channelTask.Reaches (fun c a => c.keepsWatch a = true) c) : s.Watched ∧ c.Watched := by
  constructor
  · apply hs.invariant
    · rintro s rfl hp
      cases hp
    · intro s a t _ hI hok hst
      exact hI.step hok hst
  · apply hc.invariant
    · rintro c rfl hp
      cases hp
    · intro c a d _ hI hok hst
      exact hI.step hok hst

/-- The packet is sent once the connection is there. -/
theorem pending_watched_connected :
    ∃ (s : SmartSession) (c : ChannelTask), s.pending = true ∧ c.pending = true ∧
      s.Watched ∧ c.Watched := by
  obtain ⟨s, hs, hps⟩ := System.exists_of_exec_restrict (M := smartSession)
    (T := fun s a => s.keepsWatch a) (s := .new) rfl
    (show ((smartSession.restrict (fun s a => s.keepsWatch a)).exec .new
      [.openClient (some 3), .connectIp none (some 0), .OnEventWrite 0 .again none,
        .sendPacket [1] false true .again none]).map (fun s => s.pending) = some true by
      decide +kernel)
  obtain ⟨c, hc, hpc⟩ := System.exists_of_exec_restrict (M := channelTask)
    (T := fun c a => c.keepsWatch a) (s := .new) rfl
    (show ((channelTask.restrict (fun c a => c.keepsWatch a)).exec .new
      [.init 1, .openSock .SOCK_TYPE_TCP (some 3), .connectIp none (some 0),
        .OnEventWrite 0 none, .sendPacket [1] 0 false .again none]).map (fun c => c.pending) =
      some true by decide +kernel)
  exact ⟨s, c, hps, hpc, pending_watched hs hc⟩

/-- A packet sent before the connection is there is not watched when it is. -/
theorem not_pending_watched :
    (¬ ∀ s, smartSession.Reachable s → s.Watched) ∧
      ¬ ∀ c, channelTask.Reachable c → c.Watched := by
  constructor
  · intro h
    obtain ⟨s, hs, heq⟩ := System.exists_of_exec (M := smartSession) (s := .new) rfl
      (show (smartSession.exec .new [.openClient (some 3), .connectIp none (some 0),
          .sendPacket [1] false true .again none, .OnEventWrite 0 .again none]).map
        (fun s => (s.pending, s.mSock.mFd, s.mSock.mEvt)) =
        some (true, some 3, some ⟨0, 3, ⟨true, false, true⟩⟩) by decide +kernel)
    simp only [Prod.mk.injEq] at heq
    have hw := h s hs heq.1 _ heq.2.2 heq.2.1
    cases hw
  · intro h
    obtain ⟨c, hc, heq⟩ := System.exists_of_exec (M := channelTask) (s := .new) rfl
      (show (channelTask.exec .new [.init 1, .openSock .SOCK_TYPE_TCP (some 3),
          .connectIp none (some 0), .sendPacket [1] 0 false .again none,
          .OnEventWrite 0 none]).map
        (fun c => (c.pending, c.chan.sock.mFd, c.chan.sock.mEvt)) =
        some (true, some 3, some ⟨0, 3, ⟨true, false, true⟩⟩) by decide +kernel)
    simp only [Prod.mk.injEq] at heq
    have hw := h c hc heq.1 _ heq.2.2 heq.2.1
    cases hw

end EdNio.Net
