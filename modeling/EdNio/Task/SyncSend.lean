import EdNio.Task.Filled

/-!
# Synchronous sends

`sendEdMsg` locks its own `mtx` before it appends its message and releases it in
`cv.wait`, so the task thread can notify it only when it waits. This holds in the runs
without spurious wake-ups in which no call is before its eventfd write when `closeMsg`
begins.
-/

namespace EdNio.Task
open Transition

/-- `cv.wait` returns only when it was notified. -/
def calm : Action → Bool
  | .spuriousWake _ => false
  | _ => true

/-- No call of `sendEdMsg` is between its push and its write when `closeMsg` begins. -/
def quietClose (s : State) : Action → Bool
  | .closeMsg => s.calls.all (fun k => k.pc ≠ .pushed)
  | _ => true

abbrev SyncRun (N : Int) (s : State) : Prop :=
  (queue N).Reaches (fun s a => calm a && quietClose s a) s

/-- The slot in hand, while its sender has not been notified. -/
def TaskPc.pending : TaskPc → List Slot
  | .hand slot _ .popped => [slot]
  | .hand slot _ (.found _) => [slot]
  | .hand slot _ (.running _) => [slot]
  | .hand slot _ .handled => [slot]
  | .hand slot _ .locking => [slot]
  | .hand slot _ .locked => [slot]
  | .drain slot .locking => [slot]
  | .drain slot .locked => [slot]
  | _ => []

def TaskPc.locked : TaskPc → List Slot
  | .hand slot _ .locked => [slot]
  | .drain slot .locked => [slot]
  | _ => []

def TaskPc.notified : TaskPc → List Slot
  | .hand slot _ .notified => [slot]
  | .drain slot .notified => [slot]
  | _ => []

namespace State

variable (s : State) (c : CallId)

/-- The message of `c` is queued or in hand, and its sender has not been notified. -/
def Unsettled : Prop := c ∈ (s.pc.pending ++ s.mQuedMsgs).map s.owner

/-- The task thread has locked the mutex of `c` and not notified it. -/
def Locked : Prop := c ∈ s.pc.locked.map s.owner

/-- The task thread has notified `c` and still holds its mutex. -/
def Notified : Prop := c ∈ s.pc.notified.map s.owner

/-- The value a handler stored last for `c`, or 0. -/
def lastStored : Int := (s.stored.lookup c).getD 0

/-- What `c` is to return. -/
def reply : Int := if c ∈ s.drained then -1000 else s.lastStored c

/-- What is known of a call from its program counter. -/
def Phase (k : Call) : Prop :=
  match k.pc with
  | .called => k.mtx = none
  | .pushed => k.args.api = .sendEdMsg ∧ k.mtx = some .caller ∧ s.Unsettled c ∧ ¬ s.Locked c ∧
      k.result = s.lastStored c ∧ 0 ≤ s.mMsgFd
  | .written => k.args.api = .sendEdMsg ∧ k.mtx = some .caller ∧ s.Unsettled c ∧ ¬ s.Locked c ∧
      k.result = s.lastStored c
  | .waiting => k.args.api = .sendEdMsg ∧ s.Unsettled c ∧ k.result = s.lastStored c ∧
      (s.Locked c ∧ k.mtx = some .task ∨ ¬ s.Locked c ∧ k.mtx = none)
  | .woken => k.args.api = .sendEdMsg ∧ ¬ s.Unsettled c ∧ (c ∈ s.finished ∨ c ∈ s.drained) ∧
      k.result = s.reply c ∧ (s.Notified c ∧ k.mtx = some .task ∨ ¬ s.Notified c ∧ k.mtx = none)
  | .returned (.replied v) => k.args.api = .sendEdMsg ∧ ¬ s.Unsettled c ∧ ¬ s.Notified c ∧
      (c ∈ s.finished ∨ c ∈ s.drained) ∧ v = s.reply c ∧ k.mtx = none
  | .returned .sendError => False
  | .returned (.posted _) => k.args.api = .postEdMsg ∧ k.mtx = none
  | .returned .refused => k.mtx = none
  | .returned .queueFull => k.mtx = none

end State

structure SyncInv (s : State) : Prop where
  phase : ∀ c k, s.calls[c]? = some k → s.Phase c k
  drain : ∀ slot stage, s.pc = .drain slot stage → s.owner slot ∈ s.drained
  stored : ∀ p ∈ s.stored, p.1 ∈ s.accepted

/-- What the phase of call `c` depends on is the same in `s` and `s'`. -/
structure Alike (s s' : State) (c : CallId) : Prop where
  unsettled : s'.Unsettled c ↔ s.Unsettled c
  locked : s'.Locked c ↔ s.Locked c
  notified : s'.Notified c ↔ s.Notified c
  finished : c ∈ s.finished → c ∈ s'.finished
  drained : c ∈ s'.drained ↔ c ∈ s.drained
  stored : s'.lastStored c = s.lastStored c
  mMsgFd : 0 ≤ s.mMsgFd → 0 ≤ s'.mMsgFd

lemma Alike.reply {s s' : State} {c : CallId} (h : Alike s s' c) : s'.reply c = s.reply c := by
  simp only [State.reply, h.drained, h.stored]

lemma Alike.phase {s s' : State} {c : CallId} {k : Call} (h : Alike s s' c) (hp : s.Phase c k) :
    s'.Phase c k := by
  have hr := h.reply
  obtain ⟨hu, hl, hn, hf, hd, hs, hfd⟩ := h
  unfold State.Phase at hp ⊢
  split at hp <;> simp_all
  · rcases hp.2.2.1 with hc | hc
    · exact .inl (hf hc)
    · exact .inr hc
  · rcases hp.2.2.2.1 with hc | hc
    · exact .inl (hf hc)
    · exact .inr hc

/-- The phase of a posting call says nothing about the queue. -/
lemma phase_post {s s' : State} {c : CallId} {k : Call} (ha : k.args.api = .postEdMsg)
    (hp : s.Phase c k) : s'.Phase c k := by
  unfold State.Phase at hp ⊢
  split at hp <;> simp_all

/-- The phase of a sender that has not been notified depends on its message only. -/
lemma phase_blocked {s s' : State} {c : CallId} {k : Call}
    (hpc : k.pc = .pushed ∨ k.pc = .written ∨ k.pc = .waiting)
    (hu : s'.Unsettled c ↔ s.Unsettled c) (hl : s'.Locked c ↔ s.Locked c)
    (hst : s'.stored = s.stored) (hfd : s'.mMsgFd = s.mMsgFd) (hp : s.Phase c k) :
    s'.Phase c k := by
  rcases hpc with hpc | hpc | hpc <;>
    simpa only [State.Phase, hpc, hu, hl, State.lastStored, hst, hfd] using hp

lemma HistoryInv.hand_not_queued {s : State} (hH : HistoryInv s) {slot : Slot}
    (hs : slot ∈ s.pc.inHand) : s.owner slot ∉ s.mQuedMsgs.map s.owner := by
  have hn := hH.nodup
  rw [hH.order, List.nodup_append'] at hn
  exact fun hq => hn.2.2 (List.mem_of_getLast? (hH.last slot hs)) hq

lemma HistoryInv.owner_accepted {s : State} (hH : HistoryInv s) {slot : Slot}
    (hs : slot ∈ s.pc.inHand ++ s.mQuedMsgs) : s.owner slot ∈ s.accepted := by
  rw [hH.order]
  rcases List.mem_append.mp hs with hs | hs
  · exact List.mem_append_left _ (List.mem_of_getLast? (hH.last slot hs))
  · exact List.mem_append_right _ (List.mem_map_of_mem hs)

lemma TaskPc.pending_subset {pc : TaskPc} {slot : Slot} (h : slot ∈ pc.pending) :
    slot ∈ pc.inHand := by
  unfold TaskPc.pending at h
  split at h <;> simp_all [TaskPc.inHand]

lemma TaskPc.locked_subset {pc : TaskPc} {slot : Slot} (h : slot ∈ pc.locked) :
    slot ∈ pc.inHand := by
  unfold TaskPc.locked at h
  split at h <;> simp_all [TaskPc.inHand]

lemma TaskPc.notified_subset {pc : TaskPc} {slot : Slot} (h : slot ∈ pc.notified) :
    slot ∈ pc.inHand := by
  unfold TaskPc.notified at h
  split at h <;> simp_all [TaskPc.inHand]

section Cases

variable {N : Int} {s s' : State} {a : Action}

lemma SyncInv.modify (hI : SyncInv s) {d : CallId} {f : Call → Call}
    (hcalls : s'.calls = s.calls.modify d f) (ho : ∀ c, c ≠ d → Alike s s' c)
    (hd : ∀ k, s.calls[d]? = some k → s.Phase d k → s'.Phase d (f k))
    (hdrain : ∀ slot stage, s'.pc = .drain slot stage → s'.owner slot ∈ s'.drained)
    (hst : ∀ p ∈ s'.stored, p.1 ∈ s'.accepted) : SyncInv s' := by
  refine ⟨fun c k hk => ?_, hdrain, hst⟩
  rw [hcalls] at hk
  rcases call_of_modify hk with ⟨rfl, k', hk', rfl⟩ | ⟨hc, hk⟩
  · exact hd k' hk' (hI.phase c k' hk')
  · exact (ho c hc).phase (hI.phase c k hk)

lemma SyncInv.move (hI : SyncInv s) (d : CallId) (hcalls : s'.calls = s.calls)
    (ho : ∀ c, c ≠ d → Alike s s' c)
    (hd : ∀ k, s.calls[d]? = some k → s.Phase d k → s'.Phase d k)
    (hdrain : ∀ slot stage, s'.pc = .drain slot stage → s'.owner slot ∈ s'.drained)
    (hst : ∀ p ∈ s'.stored, p.1 ∈ s'.accepted) : SyncInv s' := by
  refine ⟨fun c k hk => ?_, hdrain, hst⟩
  rw [hcalls] at hk
  by_cases hc : c = d
  · subst hc
    exact hd k hk (hI.phase c k hk)
  · exact (ho c hc).phase (hI.phase c k hk)

lemma SyncInv.frame (hI : SyncInv s) (hcalls : s'.calls = s.calls) (ho : ∀ c, Alike s s' c)
    (hdrain : ∀ slot stage, s'.pc = .drain slot stage → s'.owner slot ∈ s'.drained)
    (hst : ∀ p ∈ s'.stored, p.1 ∈ s'.accepted) : SyncInv s' := by
  refine ⟨fun c k hk => ?_, hdrain, hst⟩
  rw [hcalls] at hk
  exact (ho c).phase (hI.phase c k hk)

lemma Alike.accept {c d : CallId} {slot fresh : Slot} {m : EdMsg} {empty : List Slot}
    (hS : SlotsInv s) (hal : Alloc N s slot m empty fresh) (hne : d ≠ c)
    (hown : s'.owner = Function.update s.owner slot c)
    (hq : s'.mQuedMsgs = s.mQuedMsgs ++ [slot]) (heq : s'.pc = s.pc ∧ s'.finished = s.finished ∧
      s'.drained = s.drained ∧ s'.stored = s.stored ∧ s'.mMsgFd = s.mMsgFd) : Alike s s' d := by
  obtain ⟨hhand, hqueue⟩ := hal.not_busy hS
  obtain ⟨h1, h2, h3, h4, h5⟩ := heq
  have hmap : ∀ l : List Slot, slot ∉ l → l.map s'.owner = l.map s.owner := by
    intro l hl
    refine List.map_congr_left (fun x hx => ?_)
    rw [hown, Function.update_of_ne (fun he : x = slot => hl (he ▸ hx))]
  have hp := hmap s.pc.pending (fun h => hhand (TaskPc.pending_subset h))
  have hl := hmap s.pc.locked (fun h => hhand (TaskPc.locked_subset h))
  have hn := hmap s.pc.notified (fun h => hhand (TaskPc.notified_subset h))
  have hqm := hmap s.mQuedMsgs hqueue
  constructor
  · rw [State.Unsettled, State.Unsettled, h1, hq, ← List.append_assoc, List.map_append,
      List.map_append, List.map_append, hp, hqm]
    simp [hown, hne]
  · rw [State.Locked, State.Locked, h1, hl]
  · rw [State.Notified, State.Notified, h1, hn]
  · rw [h2]
    exact fun h => h
  · rw [h3]
  · rw [State.lastStored, State.lastStored, h4]
  · rw [h5]
    exact fun h => h

lemma SyncInv.accepted_phase (hI : SyncInv s) {c : CallId} {k : Call}
    (hk : s.calls[c]? = some k) (ha : k.args.api = .sendEdMsg) (hac : k.pc.accepted = true) :
    (s.Unsettled c ∧ (k.pc = .pushed ∨ k.pc = .written ∨ k.pc = .waiting)) ∨
    (¬ s.Unsettled c ∧ k.pc = .woken ∧
      (s.Notified c ∧ k.mtx = some .task ∨ ¬ s.Notified c ∧ k.mtx = none)) ∨
    (¬ s.Unsettled c ∧ ¬ s.Notified c ∧ ∃ v, k.pc = .returned (.replied v)) := by
  have hp := hI.phase c k hk
  unfold State.Phase at hp
  split at hp <;> simp_all [CallPc.accepted]

lemma SyncInv.blocked (hI : SyncInv s) (hA : AcceptedInv s) {c : CallId} (hu : s.Unsettled c)
    (hs : ∃ b, s.callArgs c = some b ∧ b.api = .sendEdMsg) (hacc : c ∈ s.accepted) :
    ∃ k, s.calls[c]? = some k ∧ (k.pc = .pushed ∨ k.pc = .written ∨ k.pc = .waiting) := by
  obtain ⟨b, hb, ha⟩ := hs
  obtain ⟨k, hk, hac⟩ := (hA c).mp hacc
  have hka : k.args.api = .sendEdMsg := by
    rw [callArgs_eq hk hb]
    exact ha
  rcases hI.accepted_phase hk hka hac with ⟨-, hpc⟩ | ⟨hn, -⟩ | ⟨hn, -⟩
  · exact ⟨k, hk, hpc⟩
  · exact absurd hu hn
  · exact absurd hu hn

lemma SyncInv.poster (hL : LinkInv s) {slot : Slot} (hact : slot ∈ s.pc.inHand ++ s.mQuedMsgs)
    (hs : (s.msg slot).sync = 0) {k : Call} (hk : s.calls[s.owner slot]? = some k) :
    k.args.api = .postEdMsg := by
  obtain ⟨b, hb, hlink⟩ := hL.linked slot hact
  rcases hlink with ⟨-, ha⟩ | ⟨hne, -⟩
  · rw [callArgs_eq hk hb]
    exact ha
  · exact absurd hs hne

lemma SyncInv.sender (hI : SyncInv s) (hA : AcceptedInv s) (hH : HistoryInv s) (hL : LinkInv s)
    {slot : Slot} (hslot : slot ∈ s.pc.pending ++ s.mQuedMsgs) (hs : (s.msg slot).sync ≠ 0) :
    (s.msg slot).psend_result = some (s.owner slot) ∧ (s.msg slot).pcv = some (s.owner slot) ∧
      (s.msg slot).pmtx = some (s.owner slot) ∧ s.Unsettled (s.owner slot) ∧
      ∃ k, s.calls[s.owner slot]? = some k ∧
        (k.pc = .pushed ∨ k.pc = .written ∨ k.pc = .waiting) := by
  have hact : slot ∈ s.pc.inHand ++ s.mQuedMsgs := by
    rcases List.mem_append.mp hslot with h | h
    · exact List.mem_append_left _ (TaskPc.pending_subset h)
    · exact List.mem_append_right _ h
  obtain ⟨b, hb, hlink⟩ := hL.linked slot hact
  have hu : s.Unsettled (s.owner slot) := List.mem_map_of_mem hslot
  rcases hlink with ⟨h0, -⟩ | ⟨-, ha, h1, h2, h3⟩
  · exact absurd h0 hs
  · exact ⟨h1, h2, h3, hu, hI.blocked hA hu ⟨b, hb, ha⟩ (hH.owner_accepted hact)⟩

/-- A step of the task thread between two waits for other threads. -/
lemma Alike.of_pc {c : CallId} (hu : s'.Unsettled c ↔ s.Unsettled c)
    (hpc : s'.pc.locked.map s'.owner = s.pc.locked.map s.owner ∧
      s'.pc.notified.map s'.owner = s.pc.notified.map s.owner)
    (hf : s.finished ⊆ s'.finished) (hd : s'.drained = s.drained) (hst : s'.stored = s.stored)
    (hfd : s'.mMsgFd = s.mMsgFd) : Alike s s' c := by
  obtain ⟨hl, hn⟩ := hpc
  refine ⟨hu, ?_, ?_, fun h => hf h, by rw [hd], ?_, fun h => hfd ▸ h⟩
  · rw [State.Locked, State.Locked, hl]
  · rw [State.Notified, State.Notified, hn]
  · rw [State.lastStored, State.lastStored, hst]

/-- The fields that the steps on the mutex of a sender leave alone. -/
def SameMsgs (s s' : State) : Prop :=
  s'.owner = s.owner ∧ s'.mQuedMsgs = s.mQuedMsgs ∧ s'.finished = s.finished ∧
    s'.drained = s.drained ∧ s'.stored = s.stored ∧ s'.mMsgFd = s.mMsgFd ∧ s'.accepted = s.accepted

lemma SameMsgs.alike {c : CallId} (h : SameMsgs s s')
    (hu : c ∈ s'.pc.pending.map s.owner ↔ c ∈ s.pc.pending.map s.owner)
    (hl : c ∈ s'.pc.locked.map s.owner ↔ c ∈ s.pc.locked.map s.owner)
    (hn : c ∈ s'.pc.notified.map s.owner ↔ c ∈ s.pc.notified.map s.owner) : Alike s s' c := by
  obtain ⟨h1, h2, h3, h4, h5, h6, -⟩ := h
  refine ⟨?_, ?_, ?_, fun h => h3 ▸ h, by rw [h4], ?_, fun h => h6 ▸ h⟩
  · simp only [State.Unsettled, h1, h2, List.map_append, List.mem_append, hu]
  · rw [State.Locked, State.Locked, h1, hl]
  · rw [State.Notified, State.Notified, h1, hn]
  · rw [State.lastStored, State.lastStored, h5]

lemma SyncInv.lock (hI : SyncInv s) (hA : AcceptedInv s) (hH : HistoryInv s) (hL : LinkInv s)
    {slot : Slot} {c : CallId} (hs : (s.msg slot).sync ≠ 0) (hc : (s.msg slot).pmtx = some c)
    (hm : s.callMtx c = some none)
    (hpc : s.pc.pending = [slot] ∧ s.pc.locked = [] ∧ s.pc.notified = [])
    (hpc' : s'.pc.pending = [slot] ∧ s'.pc.locked = [slot] ∧ s'.pc.notified = [])
    (hcalls : s'.calls = s.calls.modify c (fun k => { k with mtx := some .task }))
    (hsame : SameMsgs s s')
    (hdrain : ∀ slot stage, s'.pc = .drain slot stage → s'.owner slot ∈ s'.drained) :
    SyncInv s' := by
  obtain ⟨-, -, hmtx, hu, k', hk', hb⟩ := hI.sender hA hH hL (by simp [hpc.1]) hs
  have hcs : c = s.owner slot := Option.some.inj (hc.symm.trans hmtx)
  subst hcs
  have hmk : k'.mtx = none := by simpa [State.callMtx, hk'] using hm
  refine hI.modify hcalls (fun d hd => hsame.alike ?_ ?_ ?_) (fun k hk hp => ?_) hdrain ?_
  · rw [hpc.1, hpc'.1]
  · simp [hpc.2.1, hpc'.2.1, hd]
  · rw [hpc.2.2, hpc'.2.2]
  · rw [hk, Option.some.injEq] at hk'
    subst hk'
    obtain ⟨h1, h2, -, -, h5, -, -⟩ := hsame
    -- the sender holds its own mutex unless it waits
    have hw : k.pc = .waiting := by
      rcases hb with hb | hb | hb
      · simp [State.Phase, hb, hmk] at hp
      · simp [State.Phase, hb, hmk] at hp
      · exact hb
    simp only [State.Phase, hw] at hp ⊢
    refine ⟨hp.1, ?_, ?_, .inl ⟨?_, trivial⟩⟩
    · simp [State.Unsettled, hpc'.1, h1]
    · rw [hp.2.2.1, State.lastStored, State.lastStored, h5]
    · simp [State.Locked, hpc'.2.1, h1]
  · obtain ⟨-, -, -, -, h5, -, h7⟩ := hsame
    rw [h5, h7]
    exact hI.stored

/-- The task thread notifies the sender in hand, which holds by `f`. -/
lemma SyncInv.wake (hI : SyncInv s) (hA : AcceptedInv s) (hH : HistoryInv s) (hL : LinkInv s)
    {slot : Slot} {f : Call → Call} (hs : (s.msg slot).sync ≠ 0)
    (hpc : s.pc.pending = [slot] ∧ s.pc.locked = [slot] ∧ s.pc.notified = [])
    (hpc' : s'.pc.pending = [] ∧ s'.pc.locked = [] ∧ s'.pc.notified = [slot])
    (hcalls : s'.calls = s.calls.modify (s.owner slot) f) (hsame : SameMsgs s s')
    (hf : ∀ k, k.pc = .waiting → k.result = s.lastStored (s.owner slot) →
      (f k).pc = .woken ∧ (f k).args = k.args ∧ (f k).mtx = k.mtx ∧
      (f k).result = s.reply (s.owner slot))
    (hset : s.owner slot ∈ s.finished ∨ s.owner slot ∈ s.drained)
    (hdrain : ∀ slot stage, s'.pc = .drain slot stage → s'.owner slot ∈ s'.drained) :
    SyncInv s' := by
  obtain ⟨-, -, -, hu, k', hk', hb⟩ := hI.sender hA hH hL (by simp [hpc.1]) hs
  have hl : s.Locked (s.owner slot) := by simp [State.Locked, hpc.2.1]
  refine hI.modify hcalls (fun d hd => hsame.alike ?_ ?_ ?_) (fun k hk hp => ?_) hdrain ?_
  · simp [hpc.1, hpc'.1, hd]
  · simp [hpc.2.1, hpc'.2.1, hd]
  · simp [hpc.2.2, hpc'.2.2, hd]
  · rw [hk, Option.some.injEq] at hk'
    subst hk'
    obtain ⟨h1, h2, h3, h4, h5, -, -⟩ := hsame
    -- the task thread could lock the mutex, so the sender waits
    have hw : k.pc = .waiting := by
      rcases hb with hb | hb | hb
      · simp [State.Phase, hb, hl] at hp
      · simp [State.Phase, hb, hl] at hp
      · exact hb
    simp only [State.Phase, hw, hl, true_and, not_true_eq_false, false_and, or_false] at hp
    obtain ⟨f1, f2, f3, f4⟩ := hf k hw hp.2.2.1
    simp only [State.Phase, f1]
    refine ⟨by rw [f2]; exact hp.1, ?_, ?_, ?_, .inl ⟨?_, by rw [f3]; exact hp.2.2.2⟩⟩
    · rw [State.Unsettled, hpc'.1, h1, h2]
      refine hH.hand_not_queued (TaskPc.pending_subset ?_)
      rw [hpc.1]
      exact List.mem_singleton_self _
    · rw [h3, h4]
      exact hset
    · rw [f4]
      simp only [State.reply, State.lastStored, h4, h5]
    · simp [State.Notified, hpc'.2.2, h1]
  · obtain ⟨-, -, -, -, h5, -, h7⟩ := hsame
    rw [h5, h7]
    exact hI.stored

/-- The task thread unlocks the mutex of the sender it has notified. -/
lemma SyncInv.unlock (hI : SyncInv s) (hA : AcceptedInv s) (hH : HistoryInv s) (hL : LinkInv s)
    {slot : Slot} {c : CallId} (hs : (s.msg slot).sync ≠ 0) (hc : (s.msg slot).pmtx = some c)
    (hpc : s.pc.pending = [] ∧ s.pc.locked = [] ∧ s.pc.notified = [slot])
    (hpc' : s'.pc.pending = [] ∧ s'.pc.locked = [] ∧ s'.pc.notified = [])
    (hcalls : s'.calls = s.calls.modify c (fun k => { k with mtx := none }))
    (hsame : SameMsgs s s')
    (hdrain : ∀ slot stage, s'.pc = .drain slot stage → s'.owner slot ∈ s'.drained) :
    SyncInv s' := by
  have hhand : slot ∈ s.pc.inHand := TaskPc.notified_subset (by simp [hpc.2.2])
  obtain ⟨b, hb, hlink⟩ := hL.linked slot (List.mem_append_left _ hhand)
  have hacc := hH.owner_accepted (List.mem_append_left _ hhand)
  have hnq := hH.hand_not_queued hhand
  rcases hlink with ⟨h0, -⟩ | ⟨-, ha, -, -, hmtx⟩
  · exact absurd h0 hs
  have hcs : c = s.owner slot := Option.some.inj (hc.symm.trans hmtx)
  subst hcs
  have hn : s.Notified (s.owner slot) := by simp [State.Notified, hpc.2.2]
  have hu : ¬ s.Unsettled (s.owner slot) := by simpa [State.Unsettled, hpc.1] using hnq
  refine hI.modify hcalls (fun d hd => hsame.alike ?_ ?_ ?_) (fun k hk hp => ?_) hdrain ?_
  · rw [hpc.1, hpc'.1]
  · rw [hpc.2.1, hpc'.2.1]
  · simp [hpc.2.2, hpc'.2.2, hd]
  · have hka : k.args.api = .sendEdMsg := by
      rw [callArgs_eq hk hb]
      exact ha
    have hw : k.pc = .woken := by
      rcases hI.accepted_phase hk hka (hA.pc hk hacc) with ⟨hu', -⟩ | ⟨-, hw, -⟩ | ⟨-, hn', -⟩
      · exact absurd hu' hu
      · exact hw
      · exact absurd hn hn'
    obtain ⟨h1, h2, h3, h4, h5, -, -⟩ := hsame
    simp only [State.Phase, hw] at hp ⊢
    refine ⟨hp.1, ?_, ?_, ?_, .inr ⟨?_, trivial⟩⟩
    · rw [State.Unsettled, hpc'.1, h1, h2]
      exact hnq
    · rw [h3, h4]
      exact hp.2.2.1
    · rw [hp.2.2.2.1]
      simp only [State.reply, State.lastStored, h4, h5]
    · simp [State.Notified, hpc'.2.2]
  · obtain ⟨-, -, -, -, h5, -, h7⟩ := hsame
    rw [h5, h7]
    exact hI.stored

/-- A step of a call that leaves the messages and the task thread alone. -/
lemma SyncInv.own (hI : SyncInv s) {c : CallId} {k : Call} {f : Call → Call}
    (hk : s.calls[c]? = some k) (hcalls : s'.calls = s.calls.modify c f) (hpc : s'.pc = s.pc)
    (hsame : SameMsgs s s') (hphase : s.Phase c k → s'.Phase c (f k)) : SyncInv s' := by
  refine hI.modify hcalls (fun d _ => hsame.alike ?_ ?_ ?_) (fun k' hk' hp => ?_) ?_ ?_
  · rw [hpc]
  · rw [hpc]
  · rw [hpc]
  · rw [hk, Option.some.injEq] at hk'
    subst hk'
    exact hphase hp
  · rw [hpc, hsame.1, hsame.2.2.2.1]
    exact hI.drain
  · obtain ⟨-, -, -, -, h5, -, h7⟩ := hsame
    rw [h5, h7]
    exact hI.stored

/-- No handler has stored a value for a call before it is accepted. -/
lemma SyncInv.lastStored_eq_zero (hI : SyncInv s) {c : CallId} (hc : c ∉ s.accepted) :
    s.lastStored c = 0 := by
  rw [State.lastStored, List.lookup_eq_none_iff.mpr, Option.getD_none]
  intro p hp
  have hne : c ≠ p.1 := fun he => hc (by rw [he]; exact hI.stored p hp)
  exact bne_iff_ne.mpr hne

lemma SyncInv.drain_accept (hI : SyncInv s) (hS : SlotsInv s) {c : CallId} {slot fresh : Slot}
    {m : EdMsg} {empty : List Slot} (hal : Alloc N s slot m empty fresh) (slot' : Slot)
    (stage : DrainStage) (hpc : s.pc = .drain slot' stage) :
    Function.update s.owner slot c slot' ∈ s.drained := by
  have hne : slot' ≠ slot := by
    rintro rfl
    exact (hal.not_busy hS).1 (by simp [hpc, TaskPc.inHand])
  rw [Function.update_of_ne hne]
  exact hI.drain slot' stage hpc

/-- The task thread has not locked the mutex of a call that is accepted now. -/
lemma SyncInv.not_locked_accept (hH : HistoryInv s) (hS : SlotsInv s) {c : CallId}
    {slot fresh : Slot} {m : EdMsg} {empty : List Slot} (hal : Alloc N s slot m empty fresh)
    (hc : c ∉ s.accepted) : c ∉ s.pc.locked.map (Function.update s.owner slot c) := by
  simp only [List.mem_map, not_exists, not_and]
  intro x hx he
  have hxh := TaskPc.locked_subset hx
  have hne : x ≠ slot := fun hxs => (hal.not_busy hS).1 (hxs ▸ hxh)
  rw [Function.update_of_ne hne] at he
  exact hc (he ▸ hH.owner_accepted (List.mem_append_left _ hxh))

/-- `setSendMsgResult` of the handler of the message in hand. -/
lemma SyncInv.setSendMsgResult (hI : SyncInv s) (hA : AcceptedInv s) (hH : HistoryInv s)
    (hL : LinkInv s) {slot : Slot} (hpend : slot ∈ s.pc.pending) (code : Int) :
    SyncInv ({ s with stored := (s.owner slot, code) :: s.stored }.setSendMsgResult slot code) := by
  have hact : slot ∈ s.pc.inHand ++ s.mQuedMsgs :=
    List.mem_append_left _ (TaskPc.pending_subset hpend)
  have hst : ∀ p ∈ (s.owner slot, code) :: s.stored, p.1 ∈ s.accepted := by
    intro p hp
    rcases List.mem_cons.mp hp with rfl | hp
    · exact hH.owner_accepted hact
    · exact hI.stored p hp
  have ho : ∀ c, c ≠ s.owner slot → Alike s
      ({ s with stored := (s.owner slot, code) :: s.stored }.setSendMsgResult slot code) c := by
    intro c hc
    refine ⟨Iff.rfl, Iff.rfl, Iff.rfl, id, Iff.rfl, ?_, id⟩
    simp [State.lastStored, State.setSendMsgResult, List.lookup_cons, beq_eq_false_iff_ne.mpr hc]
  by_cases hs : (s.msg slot).sync = 0
  · exact hI.move (s.owner slot) (by simp [State.setSendMsgResult, hs]) ho
      (fun k hk hp => phase_post (SyncInv.poster hL hact hs hk) hp) hI.drain hst
  · obtain ⟨hres, -, -, hu, k', hk', hb⟩ :=
      hI.sender hA hH hL (List.mem_append_left _ hpend) hs
    refine hI.modify (d := s.owner slot) (f := fun k => { k with result := code })
      (by simp [State.setSendMsgResult, hs, hres]) ho (fun k hk hp => ?_) hI.drain hst
    rw [hk, Option.some.injEq] at hk'
    subst hk'
    have hlast : ({ s with stored := (s.owner slot, code) :: s.stored }.setSendMsgResult slot
        code).lastStored (s.owner slot) = code := by
      simp [State.lastStored, State.setSendMsgResult]
    rcases hb with hb | hb | hb <;> simp only [State.Phase, hb, hlast] at hp ⊢
    · exact ⟨hp.1, hp.2.1, hp.2.2.1, hp.2.2.2.1, trivial, hp.2.2.2.2.2⟩
    · exact ⟨hp.1, hp.2.1, hp.2.2.1, hp.2.2.2.1, trivial⟩
    · exact ⟨hp.1, hp.2.1, trivial, hp.2.2.2⟩

/-- `closeMsg` closes the descriptor when no call is before its write. -/
lemma SyncInv.closeFd (hI : SyncInv s) (hpc : s.pc = .exited)
    (hquiet : ∀ k ∈ s.calls, k.pc ≠ .pushed) : SyncInv s.closeFd := by
  refine ⟨fun c k hk => ?_, by simp [State.closeFd], hI.stored⟩
  have hp := hI.phase c k hk
  have hnp : k.pc ≠ .pushed := hquiet k (List.mem_of_getElem? hk)
  have hu : s.closeFd.Unsettled c ↔ s.Unsettled c := by
    simp [State.Unsettled, State.closeFd, TaskPc.pending, hpc]
  have hl : s.closeFd.Locked c ↔ s.Locked c := by
    simp [State.Locked, State.closeFd, TaskPc.locked, hpc]
  have hn : s.closeFd.Notified c ↔ s.Notified c := by
    simp [State.Notified, State.closeFd, TaskPc.notified, hpc]
  have hr : s.closeFd.reply c = s.reply c := rfl
  have hst : s.closeFd.lastStored c = s.lastStored c := rfl
  have hf : s.closeFd.finished = s.finished := rfl
  have hd : s.closeFd.drained = s.drained := rfl
  cases hkpc : k.pc with
  | pushed => exact absurd hkpc hnp
  | called | written | waiting | woken =>
    simpa only [State.Phase, hkpc, hu, hl, hn, hr, hst, hf, hd] using hp
  | returned o =>
    cases o with
    | sendError => simp only [State.Phase, hkpc] at hp
    | replied _ | posted _ | refused | queueFull =>
      simpa only [State.Phase, hkpc, hu, hl, hn, hr, hst, hf, hd] using hp

lemma SyncInv.freeEmpty (hI : SyncInv s) (hpc : s.pc = .draining) : SyncInv s.freeEmpty := by
  refine hI.frame rfl (fun c => .of_pc ?_ ?_ (List.Subset.refl _) rfl rfl rfl)
    (by simp [State.freeEmpty]) hI.stored
  · simp [State.freeEmpty, State.Unsettled, TaskPc.pending, hpc]
  · simp [State.freeEmpty, TaskPc.locked, TaskPc.notified, hpc]

/-- `closeMsg` takes the first message out of the queue and is to notify its sender. -/
lemma SyncInv.drainSync (hI : SyncInv s) (hA : AcceptedInv s) (hH : HistoryInv s) (hL : LinkInv s)
    {slot : Slot} {rest : List Slot} (hpc : s.pc = .draining) (hq : s.mQuedMsgs = slot :: rest)
    (hs : (s.msg slot).sync ≠ 0) :
    SyncInv { s with
      mQuedMsgs := rest
      drained := s.drained ++ [s.owner slot]
      pc := .drain slot .locking } := by
  obtain ⟨-, -, -, -, k', hk', hb⟩ := hI.sender hA hH hL (by simp [hq]) hs
  refine hI.move (s.owner slot) rfl (fun c hc => ⟨?_, ?_, ?_, id, ?_, rfl, id⟩)
    (fun k hk hp => ?_) ?_ hI.stored
  · simp [State.Unsettled, TaskPc.pending, hpc, hq]
  · simp [State.Locked, TaskPc.locked, hpc]
  · simp [State.Notified, TaskPc.notified, hpc]
  · simp [hc]
  · rw [hk, Option.some.injEq] at hk'
    subst hk'
    refine phase_blocked (s := s) hb ?_ ?_ rfl rfl hp
    · simp [State.Unsettled, TaskPc.pending, hpc, hq]
    · simp [State.Locked, TaskPc.locked, hpc]
  · rintro slot' stage hpc'
    simp only [TaskPc.drain.injEq] at hpc'
    simp [← hpc'.1]

lemma SyncInv.call (hI : SyncInv s) (a : CallArgs) :
    SyncInv { s with calls := s.calls ++ [⟨a, .called, 0, none⟩] } := by
  refine ⟨fun c k hk => ?_, hI.drain, hI.stored⟩
  rcases call_of_append hk with hk | rfl
  · exact hI.phase c k hk
  · simp [State.Phase]

end Cases

theorem SyncInv.step {N : Int} {s s' : State} {a : Action} (hS : SlotsInv s) (hH : HistoryInv s)
    (hA : AcceptedInv s) (hHd : HandlingInv s) (hL : LinkInv s) (hI : SyncInv s)
    (hok : (calm a && quietClose s a) = true) (h : Step N s a s') : SyncInv s' := by
  cases h with
  | posted c k slot m empty fresh hk hpc hm hfd ha hal =>
    refine hI.modify rfl (fun d hd => .accept hS hal hd rfl rfl ⟨rfl, rfl, rfl, rfl, rfl⟩)
      (fun k' hk' hp => ?_) (hI.drain_accept hS hal)
      (fun p hp => List.mem_append_left _ (hI.stored p hp))
    rw [hk, Option.some.injEq] at hk'
    subst hk'
    simp only [State.Phase, hpc] at hp
    simp [State.Phase, Call.leave, ha, hp]
  | pushed c k slot m empty fresh hk hpc hm hfd ha hal =>
    have hnew : c ∉ s.accepted := by
      rw [hA c]
      simp [hk, hpc, CallPc.accepted]
    refine hI.modify rfl (fun d hd => .accept hS hal hd rfl rfl ⟨rfl, rfl, rfl, rfl, rfl⟩)
      (fun k' hk' hp => ?_) (hI.drain_accept hS hal)
      (fun p hp => List.mem_append_left _ (hI.stored p hp))
    rw [hk, Option.some.injEq] at hk'
    subst hk'
    exact ⟨ha, rfl, by simp [State.Unsettled], SyncInv.not_locked_accept hH hS hal hnew,
      (hI.lastStored_eq_zero hnew).symm, hfd⟩
  | refused c k hk hpc | queueFull c k hk hpc =>
    refine hI.own hk rfl rfl ⟨rfl, rfl, rfl, rfl, rfl, rfl, rfl⟩ (fun hp => ?_)
    simp only [State.Phase, hpc] at hp
    simp [State.Phase, Call.leave, hp]
  | call a => exact hI.call a
  | write c hpc hfd =>
    obtain ⟨k, hk, hkpc⟩ := callPc_eq hpc
    refine hI.own hk rfl rfl ⟨rfl, rfl, rfl, rfl, rfl, rfl, rfl⟩ (fun hp => ?_)
    simp only [State.Phase, hkpc] at hp
    exact ⟨hp.1, hp.2.1, hp.2.2.1, hp.2.2.2.1, hp.2.2.2.2.1⟩
  | writeFails c hpc hfd =>
    obtain ⟨k, hk, hp'⟩ := callPc_eq hpc
    have hp := hI.phase c k hk
    simp only [State.Phase, hp'] at hp
    exact absurd hfd (Int.not_lt.mpr hp.2.2.2.2.2)
  | wait c hpc =>
    obtain ⟨k, hk, hkpc⟩ := callPc_eq hpc
    refine hI.own hk rfl rfl ⟨rfl, rfl, rfl, rfl, rfl, rfl, rfl⟩ (fun hp => ?_)
    simp only [State.Phase, hkpc] at hp
    exact ⟨hp.1, hp.2.2.1, hp.2.2.2.2, .inr ⟨hp.2.2.2.1, rfl⟩⟩
  | spuriousWake c hpc => simp [calm] at hok
  | resume c hpc hm =>
    obtain ⟨k, hk, hkpc⟩ := callPc_eq hpc
    have hmk : k.mtx = none := by simpa [State.callMtx, hk] using hm
    refine hI.own hk rfl rfl ⟨rfl, rfl, rfl, rfl, rfl, rfl, rfl⟩ (fun hp => ?_)
    simp only [State.Phase, hkpc, hmk, reduceCtorEq, and_false, and_true, false_or] at hp
    exact ⟨hp.1, hp.2.1, hp.2.2.2.2, hp.2.2.1, hp.2.2.2.1, hmk⟩
  | initMsg fd hpc hfd =>
    refine hI.frame rfl (fun c => ⟨?_, ?_, ?_, id, Iff.rfl, rfl, fun _ => Int.le_of_lt hfd⟩)
      (by simp) hI.stored
    · simp [State.Unsettled, TaskPc.pending, hpc]
    · simp [State.Locked, TaskPc.locked, hpc]
    · simp [State.Notified, TaskPc.notified, hpc]
  | closeMsg hpc hm =>
    have hall : ∀ k ∈ s.calls, k.pc ≠ .pushed := by simpa [calm, quietClose] using hok
    exact hI.closeFd hpc hall
  | closeEmpty hpc hm hq =>
    have hall : ∀ k ∈ s.calls, k.pc ≠ .pushed := by simpa [calm, quietClose] using hok
    exact (hI.closeFd hpc hall).freeEmpty rfl
  | notSync slot left hpc hs =>
    refine hI.move (s.owner slot) rfl (fun c hc => .of_pc ?_ ?_ (List.Subset.refl _) rfl rfl rfl)
      (fun k hk hp => phase_post (SyncInv.poster hL (by simp [hpc, TaskPc.inHand]) hs hk) hp)
      (by simp) hI.stored
    · simp [State.Unsettled, TaskPc.pending, hpc, hc]
    · simp [TaskPc.locked, TaskPc.notified, hpc]
  | drainPost slot rest hpc hq hs =>
    refine hI.move (s.owner slot) rfl (fun c hc => ⟨?_, Iff.rfl, Iff.rfl, id, ?_, rfl, id⟩)
      (fun k hk hp => phase_post (SyncInv.poster hL (by simp [hq]) hs hk) hp)
      (by simp [hpc]) hI.stored
    · simp [State.Unsettled, TaskPc.pending, hpc, hq, hc]
    · simp [hc]
  | drainSync slot rest hpc hq hs => exact hI.drainSync hA hH hL hpc hq hs
  | drainEnd hpc hq => exact hI.freeEmpty hpc
  | setSendMsgResult slot left t code hpc =>
    exact hI.setSendMsgResult hA hH hL (by simp [hpc, TaskPc.pending]) code
  | lockMtx slot left c hpc hc hm =>
    exact hI.lock hA hH hL (hL.sync slot (by simp [hpc, TaskPc.signalling])) hc hm
      (by simp [hpc, TaskPc.pending, TaskPc.locked, TaskPc.notified])
      (by simp [TaskPc.pending, TaskPc.locked, TaskPc.notified]) rfl
      ⟨rfl, rfl, rfl, rfl, rfl, rfl, rfl⟩ (by simp)
  | drainLock slot c hpc hc hm =>
    exact hI.lock hA hH hL (hL.sync slot (by simp [hpc, TaskPc.signalling])) hc hm
      (by simp [hpc, TaskPc.pending, TaskPc.locked, TaskPc.notified])
      (by simp [TaskPc.pending, TaskPc.locked, TaskPc.notified]) rfl
      ⟨rfl, rfl, rfl, rfl, rfl, rfl, rfl⟩ (by simpa using hI.drain slot _ hpc)
  | unlockMtx slot left c hpc hc =>
    exact hI.unlock hA hH hL (hL.sync slot (by simp [hpc, TaskPc.signalling])) hc
      (by simp [hpc, TaskPc.pending, TaskPc.locked, TaskPc.notified])
      (by simp [TaskPc.pending, TaskPc.locked, TaskPc.notified]) rfl
      ⟨rfl, rfl, rfl, rfl, rfl, rfl, rfl⟩ (by simp)
  | drainUnlock slot c hpc hc =>
    exact hI.unlock hA hH hL (hL.sync slot (by simp [hpc, TaskPc.signalling])) hc
      (by simp [hpc, TaskPc.pending, TaskPc.locked, TaskPc.notified])
      (by simp [TaskPc.pending, TaskPc.locked, TaskPc.notified]) rfl
      ⟨rfl, rfl, rfl, rfl, rfl, rfl, rfl⟩ (by simp)
  | notify slot left c hpc hc =>
    have hs := hL.sync slot (by simp [hpc, TaskPc.signalling])
    obtain ⟨-, hcv, -⟩ := hI.sender hA hH hL (by simp [hpc, TaskPc.pending]) hs
    have hcs : c = s.owner slot := Option.some.inj (hc.symm.trans hcv)
    have hdr : s.drained = [] := hH.undrained (by simp [hpc, TaskPc.closing])
    refine hI.wake hA hH hL hs (by simp [hpc, TaskPc.pending, TaskPc.locked, TaskPc.notified])
      (by simp [TaskPc.pending, TaskPc.locked, TaskPc.notified]) (by rw [hcs])
      ⟨rfl, rfl, rfl, rfl, rfl, rfl, rfl⟩ (fun k hk hr => ?_) (.inl ?_) (by simp)
    · simp [Call.wake, hk, hr, State.reply, hdr]
    · have hlast := hH.last slot (by simp [hpc, TaskPc.inHand])
      rw [hdr, List.append_nil, hHd.finished, hpc] at hlast
      exact List.mem_of_getLast? (by simpa [TaskPc.inHandler] using hlast)
  | drainNotify slot c d hpc hc hd =>
    have hs := hL.sync slot (by simp [hpc, TaskPc.signalling])
    obtain ⟨hres, hcv, -⟩ := hI.sender hA hH hL (by simp [hpc, TaskPc.pending]) hs
    have hcs : c = s.owner slot := Option.some.inj (hc.symm.trans hres)
    have hds : d = s.owner slot := Option.some.inj (hd.symm.trans hcv)
    have hdr := hI.drain slot _ hpc
    refine hI.wake hA hH hL (f := Call.wake ∘ fun k => { k with result := -1000 }) hs
      (by simp [hpc, TaskPc.pending, TaskPc.locked, TaskPc.notified])
      (by simp [TaskPc.pending, TaskPc.locked, TaskPc.notified])
      (by rw [hcs, hds]; exact List.modify_modify_eq _ _ _ _)
      ⟨rfl, rfl, rfl, rfl, rfl, rfl, rfl⟩ (fun k hk hr => ?_) (.inr hdr) (by simpa using hdr)
    simp [Call.wake, hk, State.reply, hdr]
  | _ =>
    refine hI.frame rfl (fun c => .of_pc ?_ ?_ ?_ rfl rfl rfl) ?_ hI.stored
    · simp [State.Unsettled, TaskPc.pending, State.deliver, State.finish, State.createTaskMsgQue,
        State.destroyTaskMsgQue, *]
    · simp [TaskPc.locked, TaskPc.notified, State.deliver, State.finish, State.createTaskMsgQue,
        State.destroyTaskMsgQue, *]
    · simp [State.deliver, State.finish, State.createTaskMsgQue, State.destroyTaskMsgQue]
    · first
        | exact hI.drain
        | simp [State.deliver, State.finish]

lemma SyncInv.init : SyncInv State.init := by
  constructor <;> simp [State.init]

theorem sync_inv {N : Int} {s : State} (h : SyncRun N s) : SyncInv s :=
  h.invariant (fun _ h0 => h0 ▸ SyncInv.init)
    (fun _ _ _ hr hI hok hs => hI.step (reachable_slots hr.reachable)
      (reachable_history hr.reachable) (reachable_accepted hr.reachable)
      (reachable_handling hr.reachable) (reachable_link hr.reachable) hok (step_cases hs))

end EdNio.Task
