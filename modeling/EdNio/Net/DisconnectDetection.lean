import EdNio.Net.TaskSockets

/-!
# Detection of a disconnect

`OnEventRead` takes the disconnect of its socket from `lastSockErrorNo`, which the listeners
set and clear through any socket.
-/

namespace EdNio.Net
open Transition
open Receive (SockEvent EBADFD)

/-- The return of the listener for `SOCK_EVENT_READ`, and whether `SOCK_EVENT_DISCONNECTED` is
raised at it; the return of the one for `SOCK_EVENT_DISCONNECTED`, whether it leaves the
socket open, and whether the socket is closed when `OnEventRead` returns. -/
inductive Detection
  | read (cb : Callback) (raised : Bool)
  | disconnected (cb : Callback) (leftOpen closed : Bool)
deriving DecidableEq, Repr

def TaskSockets.detection (s : TaskSockets) : SockAction → Option Detection
  | .listenerReturn =>
    match s.pc with
    | .OnRead cb _ _ => s.listenerReturn.map (fun (_, ev) =>
        .read cb (ev = some (cb.sock, .SOCK_EVENT_DISCONNECTED)))
    | .OnDisconnected cb _ _ => s.listenerReturn.map (fun (t, _) =>
        .disconnected cb (!cb.closed && (s.socks cb.sock).mFd.isSome)
          (t.socks cb.sock).mFd.isNone)
    | _ => none
  | _ => none

def detectionHistory : System (Recorded TaskSockets Detection) SockAction :=
  taskSockets.recorded TaskSockets.detection

/-- A disconnect is raised exactly after an end of file on the socket itself, if it was not
closed, and a socket left open is closed. -/
def Detects : Detection → Prop
  | .read cb raised => raised = true ↔ cb.eof = true ∧ cb.closed = false
  | .disconnected _ leftOpen closed => leftOpen = true → closed = true

/-- What the listener left in `lastSockErrorNo` is of another connection: an error from before
the listener, the end of file of another socket or of the socket after it was closed, or the
close of another socket after the end of file of this one. -/
def Misled : Detection → Prop
  | .read cb _ =>
    match cb.last with
    | none => cb.error = true
    | some (.recv true) => cb.closed = true
    | some (.recv false) => cb.eof = false ∨ cb.closed = true
    | some (.close true) => False
    | some (.close false) => cb.eof = true ∧ cb.closed = false
  | .disconnected cb leftOpen _ => leftOpen = true ∧ cb.last = some (.close false)

/-- The `lastSockErrorNo` in a listener comes from what it did last. -/
structure Callback.Inv (cb : Callback) (lastSockErrorNo : Int) : Prop where
  none : cb.last = none → (lastSockErrorNo ≠ 0 ↔ cb.error = true) ∧ cb.eof = false
  recv : ∀ own, cb.last = some (.recv own) →
    lastSockErrorNo ≠ 0 ∧ (own = true → cb.eof = true)
  close : ∀ own, cb.last = some (.close own) →
    lastSockErrorNo = 0 ∧ (own = true → cb.closed = true)

namespace TaskSockets

variable {s t : TaskSockets}

/-- The callback of the listener that `OnEventRead` has called. -/
def NoteInv (s : TaskSockets) : Prop :=
  match s.pc with
  | .OnRead cb _ _ => cb.Inv s.lastSockErrorNo
  | .OnDisconnected cb _ _ => cb.Inv s.lastSockErrorNo ∧ cb.error = true
  | _ => True

lemma NoteInv.of_same (h : s.NoteInv) (hpc : t.pc = s.pc)
    (herr : t.lastSockErrorNo = s.lastSockErrorNo) : t.NoteInv := by
  unfold NoteInv
  rw [hpc, herr]
  exact h

lemma noteInv_nextStage (s : TaskSockets) {st : Event.Stage} {e : SockEntry}
    {rest : List BatchEntry} : NoteInv { s with pc := nextStage st e rest } := by
  cases st <;> exact trivial

lemma connected_same (s : TaskSockets) (i : Nat) (k : EdSocket) :
    (s.connected i k).pc = s.pc ∧ (s.connected i k).lastSockErrorNo = s.lastSockErrorNo := by
  unfold connected
  split <;> exact ⟨rfl, rfl⟩

/-- What a listener does is noted in its callback. -/
lemma NoteInv.note (h : s.NoteInv) {f : Callback → Callback} {err : Int}
    (hpc : t.pc = (s.note f).pc) (herr : t.lastSockErrorNo = err)
    (hf : ∀ cb, cb.Inv s.lastSockErrorNo → (f cb).Inv err ∧ (f cb).error = cb.error) :
    t.NoteInv := by
  unfold NoteInv at h ⊢
  rw [hpc, herr]
  unfold TaskSockets.note
  cases hs : s.pc with
  | OnRead cb e rest =>
    rw [hs] at h
    exact (hf cb h).1
  | OnDisconnected cb e rest =>
    rw [hs] at h
    exact ⟨(hf cb h.1).1, (hf cb h.1).2.trans h.2⟩
  | _ => exact trivial

lemma NoteInv.recv (h : s.NoteInv) {i : Nat} {ret : Int} (hs : s.recv i ret = some t) :
    t.NoteInv := by
  unfold TaskSockets.recv at hs
  split at hs
  · split at hs
    · cases hs
      refine h.note rfl rfl (fun cb _ => ⟨⟨?_, fun own hlast => ?_, ?_⟩, rfl⟩)
      · rintro ⟨⟩
      · cases hlast
        refine ⟨(by decide : EBADFD ≠ 0), fun hown => ?_⟩
        simp [hown]
      · rintro own ⟨⟩
    · cases hs
  · cases hs
    exact h

lemma NoteInv.userClose (h : s.NoteInv) (i : Nat) : (s.userClose i).NoteInv := by
  unfold TaskSockets.userClose
  split
  · rename_i hfd
    by_cases htask : (s.socks i).mTask = true
    · have herr : (s.close i).lastSockErrorNo = 0 := if_pos ⟨hfd, htask⟩
      refine h.note rfl herr (fun cb _ => ⟨⟨?_, ?_, fun own hlast => ?_⟩, rfl⟩)
      · simp [htask]
      · simp [htask]
      · simp only [htask, if_true, Option.some.injEq, Touch.close.injEq] at hlast
        refine ⟨rfl, fun hown => ?_⟩
        simp [hlast, hown]
    · have herr : (s.close i).lastSockErrorNo = s.lastSockErrorNo := if_neg (fun hc => htask hc.2)
      refine h.note rfl herr (fun cb hcb => ⟨⟨?_, ?_, fun own hlast => ?_⟩, rfl⟩)
      · simpa [htask] using hcb.none
      · simpa [htask] using hcb.recv
      · simp only [htask] at hlast
        obtain ⟨h0, hown⟩ := hcb.close own hlast
        refine ⟨h0, fun ho => ?_⟩
        simp [hown ho]
  · rename_i hfd
    exact h.of_same rfl (if_neg (fun hc => hfd hc.1))

lemma noteInv_of_evtcb {st : Event.Stage} {sockerr : Int} {e : SockEntry}
    {rest : List BatchEntry} {ev : Option (Nat × SockEvent)}
    (hs : s.evtcb st sockerr e rest = some (t, ev)) : t.NoteInv := by
  cases st with
  | EVT_READ =>
    simp only [evtcb, OnEventRead, Option.some.injEq] at hs
    split at hs
    · cases hs
      refine ⟨fun _ => ⟨?_, rfl⟩, ?_, ?_⟩
      · simp [Callback.start]
      · rintro own ⟨⟩
      · rintro own ⟨⟩
    · cases hs
      exact trivial
  | EVT_HANGUP =>
    cases hs
    exact trivial
  | EVT_WRITE =>
    simp only [evtcb, OnEventWrite] at hs
    split at hs
    · split at hs
      · cases hs
        exact trivial
      · obtain ⟨k, -, heq⟩ := Option.map_eq_some_iff.mp hs
        cases heq
        exact trivial
    · cases hs
      exact trivial
  | release => cases hs

lemma noteInv_of_esMain {sockerr : Int} {ev : Option (Nat × SockEvent)}
    (hs : s.esMain sockerr = some (t, ev)) : t.NoteInv := by
  unfold TaskSockets.esMain at hs
  split at hs
  · cases hs
    exact trivial
  · cases hs
    exact trivial
  · cases hs
    exact trivial
  · split at hs
    · cases hs
      exact trivial
    · split at hs
      · exact noteInv_of_evtcb hs
      · cases hs
        exact noteInv_nextStage s
  · cases hs

lemma noteInv_of_listenerReturn {ev : Option (Nat × SockEvent)}
    (hs : s.listenerReturn = some (t, ev)) : t.NoteInv := by
  unfold TaskSockets.listenerReturn at hs
  split at hs
  · split at hs
    · rename_i herr
      cases hs
      refine ⟨⟨fun _ => ⟨iff_of_true herr rfl, rfl⟩, ?_, ?_⟩, rfl⟩
      · rintro own ⟨⟩
      · rintro own ⟨⟩
    · cases hs
      exact noteInv_nextStage s
  · cases hs
    exact noteInv_nextStage _
  · cases hs
    exact noteInv_nextStage s
  · cases hs
    exact trivial
  · cases hs

lemma NoteInv.run (h : s.NoteInv) {a : SockAction} {ev : Option (Nat × SockEvent)}
    (hs : s.run a = some (t, ev)) : t.NoteInv := by
  cases a with
  | epoll_wait es =>
    simp only [TaskSockets.run, Option.ite_none_right_eq_some, Option.some.injEq] at hs
    obtain ⟨-, heq⟩ := hs
    cases heq
    exact trivial
  | esMain sockerr => exact noteInv_of_esMain hs
  | listenerReturn => exact noteInv_of_listenerReturn hs
  | recv i ret => exact h.recv (user_some hs).2.1
  | close i =>
    cases (user_some hs).2.1
    exact h.userClose i
  | openSock i type fd =>
    cases (user_some hs).2.1
    exact h.of_same rfl rfl
  | connectIp i fd added | connectAddr i fd cnn added =>
    obtain ⟨k, -, rfl⟩ := Option.map_eq_some_iff.mp (user_some hs).2.1
    exact h.of_same (s.connected_same i k).1 (s.connected_same i k).2
  | openChildSock _ _ _ | bindSock _ _ _ _ | listenSock _ _ _ _ _ | changeEvent _ _ _ =>
    obtain ⟨k, -, rfl⟩ := Option.map_eq_some_iff.mp (user_some hs).2.1
    exact h.of_same rfl rfl

lemma reachable_noteInv (h : taskSockets.Reachable s) : s.NoteInv := by
  apply h.invariant
  · rintro s rfl
    exact trivial
  · intro s a t _ hI _ hs
    obtain ⟨ev, hrun⟩ := step_run hs
    exact hI.run hrun

/-- The read listener: what it did last decides what is raised. -/
lemma read_detects {cb : Callback} {err : Int} (h : cb.Inv err) :
    Detects (.read cb (err ≠ 0)) ↔ ¬ Misled (.read cb (err ≠ 0)) := by
  simp only [Detects, Misled, decide_eq_true_eq]
  cases hlast : cb.last with
  | none =>
    obtain ⟨herr, heof⟩ := h.none hlast
    rw [herr, heof]
    simp
  | some touch =>
    cases touch with
    | recv own =>
      obtain ⟨herr, hown⟩ := h.recv own hlast
      cases own with
      | true => simp [herr, hown rfl]
      | false => simp [herr]
    | close own =>
      obtain ⟨herr, hown⟩ := h.close own hlast
      cases own with
      | true => simp [herr, hown rfl]
      | false => simp [herr]

lemma close_mFd (s : TaskSockets) (i : Nat) : ((s.close i).socks i).mFd = none := by
  show (Function.update s.socks i (s.socks i).close i).mFd = none
  rw [Function.update_self]
  exact EdSocket.close_mFd _

/-- The disconnect listener: a socket left open is closed unless the error was cleared. -/
lemma disconnected_detects {cb : Callback} (h : cb.Inv s.lastSockErrorNo)
    (herror : cb.error = true) (fd : Option Nat) (hfd : fd = (s.socks cb.sock).mFd) :
    let t := if s.lastSockErrorNo ≠ 0 then s.close cb.sock else s
    let d := Detection.disconnected cb (!cb.closed && fd.isSome) (t.socks cb.sock).mFd.isNone
    Detects d ↔ ¬ Misled d := by
  simp only [Detects, Misled, Bool.and_eq_true, Bool.not_eq_true']
  by_cases herr : s.lastSockErrorNo = 0
  · rw [if_neg (not_not.mpr herr), ← hfd]
    have hlast : cb.closed = true ∨ cb.last = some (.close false) := by
      cases hl : cb.last with
      | none => exact absurd herr ((h.none hl).1.mpr herror)
      | some touch =>
        cases touch with
        | recv own => exact absurd herr (h.recv own hl).1
        | close own =>
          cases own with
          | true => exact .inl ((h.close true hl).2 rfl)
          | false => exact .inr rfl
    rcases hlast with hc | hl
    · simp [hc]
    · rw [hl]
      cases fd <;> simp
  · rw [if_pos herr, close_mFd]
    refine iff_of_true (fun _ => rfl) (fun hm => ?_)
    exact herr (h.close false hm.2).1

end TaskSockets

variable {x : Recorded TaskSockets Detection}

/-- In every run, each callback detects the disconnect of its socket if and only if it is not
misled by another connection. -/
theorem detects_iff (h : detectionHistory.Reachable x) :
    Always (fun _ d => Detects d ↔ ¬ Misled d) x.log := by
  refine recorded_always ?_ h
  intro x a t d hr _ _ hd
  have hinv := TaskSockets.reachable_noteInv hr.of_recorded
  cases a with
  | listenerReturn =>
    unfold TaskSockets.NoteInv at hinv
    simp only [TaskSockets.detection, TaskSockets.listenerReturn] at hd
    cases hpc : x.state.pc with
    | OnRead cb e rest =>
      simp only [hpc] at hd hinv
      have hraised : d = .read cb (x.state.lastSockErrorNo ≠ 0) := by
        split at hd
        · rename_i herr
          cases hd
          simp [herr]
        · rename_i herr
          cases hd
          simp [herr]
      rw [hraised]
      exact TaskSockets.read_detects hinv
    | OnDisconnected cb e rest =>
      simp only [hpc, Option.map_some, Option.some.injEq] at hd hinv
      rw [← hd]
      exact TaskSockets.disconnected_detects hinv.1 hinv.2 _ rfl
    | _ => simp [hpc] at hd
  | _ => cases hd

/-- Two children are opened, and the first becomes readable. -/
def childReads : List SockAction :=
  [.epoll_wait [.other], .esMain 0, .openChildSock 0 3 true, .openChildSock 1 4 true,
    .listenerReturn, .esMain 0, .epoll_wait [.sock ⟨0, 0, ⟨true, false, false, false, false⟩⟩],
    .esMain 0, .esMain 0]

/-- The peer has closed its connection, and the user leaves the socket open. -/
theorem detects_iff_eof :
    ∃ x, detectionHistory.Reachable x ∧
      x.log = [.read ⟨0, false, true, false, some (.recv true)⟩ true,
        .disconnected ⟨0, true, false, false, none⟩ true true] ∧
      Always (fun _ d => Detects d ↔ ¬ Misled d) x.log := by
  obtain ⟨x, hr, hx⟩ := System.exists_of_exec (M := detectionHistory) (s := ⟨.new, []⟩)
    ⟨rfl, rfl⟩
    (show (detectionHistory.exec ⟨.new, []⟩
      (childReads ++ [.recv 0 0, .listenerReturn, .listenerReturn])).map (fun x => x.log) =
      some [.read ⟨0, false, true, false, some (.recv true)⟩ true,
        .disconnected ⟨0, true, false, false, none⟩ true true] by decide +kernel)
  exact ⟨x, hr, hx, detects_iff hr⟩

/-- The end of file of the second child is taken for a disconnect of the first. -/
theorem not_detects : ¬ ∀ x, detectionHistory.Reachable x → Always (fun _ d => Detects d) x.log := by
  intro h
  obtain ⟨x, hr, hx⟩ := System.exists_of_exec (M := detectionHistory) (s := ⟨.new, []⟩)
    ⟨rfl, rfl⟩
    (show (detectionHistory.exec ⟨.new, []⟩ (childReads ++ [.recv 1 0, .listenerReturn])).map
      (fun x => x.log) =
      some ([] ++ .read ⟨0, false, false, false, some (.recv false)⟩ true :: []) by decide +kernel)
  have hd := (h x hr _ _ _ hx).mp rfl
  cases hd.1

end EdNio.Net
