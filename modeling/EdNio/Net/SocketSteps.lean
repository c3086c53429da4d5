import EdNio.Net.TaskSockets

/-!
# What a step does to the sockets

A step of the task changes at most one socket: by the call of the user, or by what the
handlers of `EdSocket` do on their own.
-/

namespace EdNio.Net
open Transition Event
open Receive (SockEvent)

/-- The socket of a call. -/
def SockAction.sock : SockAction → Option Nat
  | .openSock i _ _ => some i
  | .openChildSock i _ _ => some i
  | .bindSock i _ _ _ => some i
  | .listenSock i _ _ _ _ => some i
  | .connectIp i _ _ => some i
  | .connectAddr i _ _ _ => some i
  | .changeEvent i _ _ => some i
  | .recv i _ => some i
  | .close i => some i
  | _ => none

/-- The socket of a call that changes more than the descriptor, and what it becomes. -/
def SockAction.call (a : SockAction) (s : TaskSockets) : Option (Nat × EdSocket) :=
  match a with
  | .openSock i type fd => some (i, (s.socks i).openSock type fd)
  | .openChildSock i fd added => ((s.socks i).openChildSock fd (s.pevt added)).map (i, ·)
  | .bindSock i fd bound added => ((s.socks i).bindSock fd bound (s.pevt added)).map (i, ·)
  | .listenSock i fd bound listened added =>
    ((s.socks i).listenSock fd bound listened (s.pevt added)).map (i, ·)
  | .connectIp i fd added => ((s.socks i).connectIp fd (s.pevt added)).map (i, ·)
  | .connectAddr i fd cnn added => ((s.socks i).connectAddr fd cnn (s.pevt added)).map (i, ·)
  | .changeEvent i flags added => ((s.socks i).changeEvent flags (s.pevt added)).map (i, ·)
  | _ => none

/-- The calls by their operations. -/
inductive Called (s : TaskSockets) : SockAction → Nat → EdSocket → Prop
  | openSock {i : Nat} {type : SockType} {fd : Option Nat} :
      Called s (.openSock i type fd) i ((s.socks i).openSock type fd)
  | openChildSock {i fd : Nat} {added : Bool} {k : EdSocket} :
      (s.socks i).openChildSock fd (s.pevt added) = some k →
        Called s (.openChildSock i fd added) i k
  | bindSock {i : Nat} {fd : Option Nat} {bound added : Bool} {k : EdSocket} :
      (s.socks i).bindSock fd bound (s.pevt added) = some k →
        Called s (.bindSock i fd bound added) i k
  | listenSock {i : Nat} {fd : Option Nat} {bound listened added : Bool} {k : EdSocket} :
      (s.socks i).listenSock fd bound listened (s.pevt added) = some k →
        Called s (.listenSock i fd bound listened added) i k
  | connectIp {i : Nat} {fd : Option Nat} {added : Bool} {k : EdSocket} :
      (s.socks i).connectIp fd (s.pevt added) = some k → Called s (.connectIp i fd added) i k
  | connectAddr {i : Nat} {fd : Option Nat} {cnn : CnnResult} {added : Bool} {k : EdSocket} :
      (s.socks i).connectAddr fd cnn (s.pevt added) = some k →
        Called s (.connectAddr i fd cnn added) i k
  | changeEvent {i : Nat} {flags : Interest} {added : Bool} {k : EdSocket} :
      (s.socks i).changeEvent flags (s.pevt added) = some k →
        Called s (.changeEvent i flags added) i k

lemma SockAction.call_cases {a : SockAction} {s : TaskSockets} {i : Nat} {k : EdSocket}
    (hk : a.call s = some (i, k)) : Called s a i k := by
  have hmap : ∀ {j : Nat} {o : Option EdSocket}, o.map (j, ·) = some (i, k) →
      j = i ∧ o = some k := by
    intro j o ho
    obtain ⟨k, rfl, heq⟩ := Option.map_eq_some_iff.mp ho
    cases heq
    exact ⟨rfl, rfl⟩
  cases a with
  | epoll_wait es | esMain sockerr | listenerReturn | recv i ret | close i => cases hk
  | openSock i type fd =>
    cases hk
    exact .openSock
  | openChildSock i fd added =>
    obtain ⟨rfl, hsock⟩ := hmap hk
    exact .openChildSock hsock
  | bindSock i fd bound added =>
    obtain ⟨rfl, hsock⟩ := hmap hk
    exact .bindSock hsock
  | listenSock i fd bound listened added =>
    obtain ⟨rfl, hsock⟩ := hmap hk
    exact .listenSock hsock
  | connectIp i fd added =>
    obtain ⟨rfl, hsock⟩ := hmap hk
    exact .connectIp hsock
  | connectAddr i fd cnn added =>
    obtain ⟨rfl, hsock⟩ := hmap hk
    exact .connectAddr hsock
  | changeEvent i flags added =>
    obtain ⟨rfl, hsock⟩ := hmap hk
    exact .changeEvent hsock

lemma SockAction.call_sock {a : SockAction} {s : TaskSockets} {i : Nat} {k : EdSocket}
    (hk : a.call s = some (i, k)) : a.sock = some i := by
  cases SockAction.call_cases hk <;> rfl

inductive SocksStep (s : TaskSockets) (a : SockAction) : (Nat → EdSocket) → Prop
  | same : SocksStep s a s.socks
  | closed (i : Nat) : SocksStep s a (Function.update s.socks i (s.socks i).close)
  | completed (i : Nat) (k : EdSocket) : (s.socks i).mEvt ≠ none →
      (s.socks i).completeConnection none = some k →
      SocksStep s a (Function.update s.socks i k)
  | called (i : Nat) (k : EdSocket) : a.call s = some (i, k) →
      SocksStep s a (Function.update s.socks i k)

namespace TaskSockets

variable {s t : TaskSockets} {a : SockAction} {ev : Option (Nat × SockEvent)}

lemma esMain_socks {sockerr : Int} (hs : s.esMain sockerr = some (t, ev)) :
    SocksStep s a t.socks := by
  unfold TaskSockets.esMain at hs
  split at hs
  case h_4 st e rest hpc =>
    split at hs
    · cases hs
      exact .same
    rename_i hreg
    have hevt : (s.socks e.sock).mEvt ≠ none := by
      intro hnone
      exact hreg (by simp [isReg, hnone])
    split at hs
    · cases st with
      | EVT_READ =>
        simp only [evtcb, OnEventRead, Option.some.injEq] at hs
        split at hs <;> cases hs <;> exact .same
      | EVT_HANGUP =>
        cases hs
        exact .closed e.sock
      | EVT_WRITE =>
        simp only [evtcb, OnEventWrite] at hs
        split at hs
        · split at hs
          · cases hs
            exact .closed e.sock
          · obtain ⟨k, hk, heq⟩ := Option.map_eq_some_iff.mp hs
            cases heq
            exact .completed e.sock k hevt hk
        · cases hs
          exact .same
      | release => cases hs
    · cases hs
      exact .same
  all_goals
    cases hs
    try exact .same

lemma listenerReturn_socks (hs : s.listenerReturn = some (t, ev)) : SocksStep s a t.socks := by
  unfold TaskSockets.listenerReturn at hs
  split at hs
  case h_1 =>
    split at hs <;> cases hs <;> exact .same
  case h_2 cb e rest hpc =>
    have hclose : SocksStep s a (if s.lastSockErrorNo ≠ 0 then s.close cb.sock else s).socks := by
      split
      · exact .closed cb.sock
      · exact .same
    cases hs
    exact hclose
  all_goals
    cases hs
    try exact .same

theorem run_socks (hs : s.run a = some (t, ev)) : SocksStep s a t.socks := by
  cases a with
  | epoll_wait es =>
    simp only [TaskSockets.run, Option.ite_none_right_eq_some, Option.some.injEq] at hs
    obtain ⟨-, heq⟩ := hs
    cases heq
    exact .same
  | esMain sockerr => exact esMain_socks hs
  | listenerReturn => exact listenerReturn_socks hs
  | openSock i type fd =>
    cases (user_some hs).2.1
    exact .called i _ rfl
  | recv i ret =>
    have hrecv := (user_some hs).2.1
    unfold TaskSockets.recv at hrecv
    split at hrecv
    · split at hrecv
      · cases hrecv
        exact .same
      · cases hrecv
    · cases hrecv
      exact .same
  | close i =>
    cases (user_some hs).2.1
    unfold TaskSockets.userClose
    split <;> exact .closed i
  | connectIp i fd added | connectAddr i fd cnn added =>
    obtain ⟨k, hk, rfl⟩ := Option.map_eq_some_iff.mp (user_some hs).2.1
    unfold TaskSockets.connected
    split <;> exact .called i k (by simp only [SockAction.call, hk, Option.map_some])
  | openChildSock i _ _ | bindSock i _ _ _ | listenSock i _ _ _ _ | changeEvent i _ _ =>
    obtain ⟨k, hk, rfl⟩ := Option.map_eq_some_iff.mp (user_some hs).2.1
    exact .called i k (by simp only [SockAction.call, hk, Option.map_some])

/-- A property of each socket that the functions of `EdSocket` keep. -/
lemma socks_keep {P : EdSocket → Prop} (h : ∀ i, P (s.socks i)) (hs : s.run a = some (t, ev))
    (hclose : ∀ k, P k → P k.close)
    (hcomplete : ∀ k k', P k → k.completeConnection none = some k' → P k')
    (hcall : ∀ i k, a.call s = some (i, k) → P k) : ∀ i, P (t.socks i) := by
  have hupdate : ∀ {i k}, P k → ∀ j, P (Function.update s.socks i k j) := by
    intro i k hk j
    by_cases hj : j = i
    · rw [hj, Function.update_self]
      exact hk
    · rw [Function.update_of_ne hj]
      exact h j
  generalize ht : t.socks = socks
  have hstep := run_socks hs
  rw [ht] at hstep
  cases hstep with
  | same => exact h
  | closed i => exact hupdate (hclose _ (h i))
  | completed i k _ hk => exact hupdate (hcomplete _ k (h i) hk)
  | called i k hk => exact hupdate (hcall i k hk)

end TaskSockets

/-- The calls of the user in a callback of the task. -/
def userRun (calls : List SockAction) : List SockAction :=
  .epoll_wait [.other] :: .esMain 0 :: calls

end EdNio.Net
