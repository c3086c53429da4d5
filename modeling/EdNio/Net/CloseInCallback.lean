import EdNio.Library.Rounds
import EdNio.Net.ChannelChunks

/-!
# Closing a channel in its callback

`EdSocketChannel::OnWrite` with what the kernel and the callback do in each round of its loop.
The loop goes on with the chunk that it has found before it calls the callback.
-/

namespace EdNio.Net
open Transition

/-- A call of `sendPacket` in the callback. -/
structure Send where
  buf : List UInt8
  user : Nat
  takebuf : Bool
  r : WriteResult
  pevt : Option Nat

/-- What the callback does. -/
inductive Completion
  | sends (calls : List Send)
  | closeChannel

/-- A round: the answer to the write, the registration that `changeEvent` makes if there is
none, and the callback. -/
structure Turn where
  r : WriteResult
  pevt : Option Nat
  callback : Completion

/-- `going s chk` is at the head of the loop with `chk`. The others are its end, a call of `tx`
without a current chunk, and a call through a task of NULL. -/
inductive WriteLoop
  | going (s : EdSocketChannel) (chk : Option Nat)
  | ended (s : EdSocketChannel)
  | nullTx
  | nullTask

namespace EdSocketChannel

variable (s : EdSocketChannel)

/-- A write on a descriptor of -1 fails. -/
def answer (r : WriteResult) : WriteResult := if s.sock.mFd.isSome then r else .error

def sends (s : EdSocketChannel) : List Send → Option EdSocketChannel
  | [] => some s
  | p :: calls =>
    (s.sendPacket p.buf p.user p.takebuf (s.answer p.r) p.pevt).bind (fun (_, _, t) =>
      sends t calls)

def OnTxComplete : Completion → Option EdSocketChannel
  | .sends calls => s.sends calls
  | .closeChannel => some s.closeChannel

/-- A round of the loop of `OnWrite`. -/
def turn (chk : Option Nat) (t : Turn) : WriteLoop :=
  match chk with
  | none => .ended s
  | some chk =>
    match s.tx (s.answer t.r) with
    | none => .nullTx
    | some (ret, _, u) =>
      if ret = .SR_COMPLETE then
        match u.recycle chk t.pevt with
        | none => .nullTask
        | some (next, v) =>
          match v.OnTxComplete t.callback with
          | none => .nullTask
          | some w => .going w next
      else .ended u

end EdSocketChannel

def WriteLoop.turn : WriteLoop → Turn → WriteLoop
  | .going s chk, t => s.turn chk t
  | x, _ => x

/-- Where `OnWrite` is after `n` rounds. -/
def EdSocketChannel.OnWrite (s : EdSocketChannel) (turns : Nat → Turn) (n : Nat) : WriteLoop :=
  Rounds.after WriteLoop.turn (.going s s.mCurChk) turns n

/-- `OnWrite` comes to its end, and the chunk that it has in hand is always the current one. -/
structure Survives (s : EdSocketChannel) (turns : Nat → Turn) : Prop where
  ends : ∃ n t, s.OnWrite turns n = .ended t
  current : ∀ n t chk, s.OnWrite turns n = .going t (some chk) → t.mCurChk = some chk

/-- The packets that are outstanding, and the number of free chunks. -/
structure Backlog where
  packets : List (List UInt8)
  free : Nat

namespace Backlog

variable (b : Backlog)

/-- The first packet is gone, and the callback has sent others while there were chunks. -/
def turn (t : Turn) : Backlog :=
  match t.callback with
  | .sends calls =>
    ⟨b.packets.tail ++ (calls.take (b.free + 1)).map Send.buf, b.free + 1 - calls.length⟩
  | .closeChannel => ⟨[], 0⟩

def after (turns : Nat → Turn) (n : Nat) : Backlog := Rounds.after turn b turns n

/-- The write takes the first packet to its end; on a descriptor of -1 it does not. -/
def Taken (fd : Bool) (t : Turn) : Prop :=
  fd = true ∧ ∀ p ∈ b.packets.head?, (write p t.r).1 = p.length

/-- The write does not take its packet to the end, or there is no other packet. -/
def Last (fd : Bool) (t : Turn) : Prop := b.Taken fd t → b.packets.length ≤ 1

end Backlog

namespace EdSocketChannel

def backlog (s : EdSocketChannel) : Backlog :=
  ⟨s.outstanding.map Prod.fst, s.mFreeChks.length⟩

variable {s t : EdSocketChannel} {cur : Nat} {r : WriteResult}

/-- A call of `tx` is complete when the write takes all that is left of the chunk. -/
lemma tx_ret {ret : SendRet} {taken : List UInt8} (hcur : s.mCurChk = some cur)
    (hwhole : (s.mem cur).Whole) (htx : s.tx r = some (ret, taken, t)) :
    ret = .SR_COMPLETE ↔ (write (s.mem cur).unsent r).1 = (s.mem cur).unsent.length := by
  have hlen : (s.mem cur).unsent.length = (s.mem cur).size - (s.mem cur).curCnt := by
    rw [ChunkInfo.unsent_eq hwhole.1, List.length_drop, hwhole.1]
  rw [tx, hcur, Option.map_some] at htx
  dsimp only at htx
  rw [hlen]
  split at htx
  · rename_i hall
    cases htx
    exact iff_of_true rfl hall
  · rename_i hpart
    split at htx
    · cases htx
      exact iff_of_false (by decide) hpart
    · cases htx
      exact iff_of_false (by decide) hpart

/-- Behind a current chunk a packet takes a free chunk, if there is one. -/
lemma Sound.queue_packet (h : s.Sound) (hcur : s.mCurChk = some cur) (p : Send) :
    ∃ ret taken t, s.sendPacket p.buf p.user p.takebuf r p.pevt = some (ret, taken, t) ∧
      t.mCurChk = some cur ∧ t.sock = s.sock ∧
      t.backlog = ⟨s.backlog.packets ++ ([p].take s.backlog.free).map Send.buf,
        s.backlog.free - 1⟩ := by
  unfold EdSocketChannel.sendPacket
  cases hfree : s.mFreeChks with
  | nil =>
    refine ⟨_, _, s, rfl, hcur, rfl, ?_⟩
    simp [backlog, hfree]
  | cons chk free =>
    have hnodup := h.nodup
    rw [listed, hfree, List.cons_append, List.nodup_cons] at hnodup
    have hnot : chk ∉ s.mCurChk.toList ++ s.mChks := fun hm =>
      hnodup.1 (List.mem_append_right _ hm)
    simp only [hcur, Option.isSome_some, if_true]
    refine ⟨_, _, _, rfl, rfl, rfl, ?_⟩
    have hout := outstanding_update (s := s) ⟨p.buf, p.buf.length, p.user, 0, !p.takebuf⟩ hnot
    have hunsent : (ChunkInfo.mk p.buf p.buf.length p.user 0 (!p.takebuf)).unsent = p.buf :=
      ChunkInfo.unsent_eq rfl
    rw [hcur] at hout
    simp only [backlog, outstanding, hfree, ← List.append_assoc, List.map_append, hout]
    simp [hunsent, hcur]

lemma Sound.queue_packets (calls : List Send) (h : s.Sound) (hcur : s.mCurChk = some cur) :
    ∃ t, s.sends calls = some t ∧ t.Sound ∧ t.mCurChk = some cur ∧ t.sock = s.sock ∧
      t.backlog = ⟨s.backlog.packets ++ (calls.take s.backlog.free).map Send.buf,
        s.backlog.free - calls.length⟩ := by
  induction calls generalizing s with
  | nil => exact ⟨s, rfl, h, hcur, rfl, by simp [backlog]⟩
  | cons p calls ih =>
    obtain ⟨ret, taken, t, ht, hcur', hsock, hlog⟩ := h.queue_packet hcur p (r := s.answer p.r)
    obtain ⟨u, hu, hsound, hcuru, hsocku, hlogu⟩ := ih (h.sendPacket ht).1 hcur'
    refine ⟨u, by rw [sends, ht]; exact hu, hsound, hcuru, hsocku.trans hsock, ?_⟩
    rw [hlogu, hlog]
    cases hf : s.backlog.free with
    | zero => simp
    | succ n => simp

/-- With a registration no call of `sendPacket` goes through the task pointer for a new one. -/
lemma sendPacket_isSome (hevt : s.sock.mEvt.isSome = true) (p : Send) (r : WriteResult) :
    ∃ ret taken t, s.sendPacket p.buf p.user p.takebuf r p.pevt = some (ret, taken, t) ∧
      t.sock.mEvt.isSome = true := by
  obtain ⟨e, he⟩ := Option.isSome_iff_exists.mp hevt
  unfold sendPacket
  cases s.mFreeChks with
  | nil => exact ⟨_, _, _, rfl, hevt⟩
  | cons chk free =>
    cases hcur : s.mCurChk with
    | some cur => exact ⟨_, _, _, rfl, hevt⟩
    | none =>
      obtain ⟨ret, taken, c, htx, -, -⟩ := tx_spec (s := { s with
        mFreeChks := free
        mem := Function.update s.mem chk ⟨p.buf, p.buf.length, p.user, 0, !p.takebuf⟩
        mCurChk := some chk }) rfl (by simp [ChunkInfo.Whole]) r
      simp only [Option.isSome_none, Bool.false_eq_true, if_false]
      rw [htx, Option.bind_some]
      dsimp only
      split
      · exact ⟨_, _, _, rfl, hevt⟩
      · simp only [EdSocket.changeEvent, he, Option.map_some]
        exact ⟨_, _, _, rfl, rfl⟩

lemma sends_isSome (calls : List Send) (hevt : s.sock.mEvt.isSome = true) :
    ∃ t, s.sends calls = some t := by
  induction calls generalizing s with
  | nil => exact ⟨s, rfl⟩
  | cons p calls ih =>
    obtain ⟨ret, taken, t, ht, hevt'⟩ := s.sendPacket_isSome hevt p (s.answer p.r)
    obtain ⟨u, hu⟩ := ih hevt'
    exact ⟨u, by rw [sends, ht]; exact hu⟩

lemma OnTxComplete_isSome (c : Completion) (hevt : s.sock.mEvt.isSome = true) :
    ∃ t, s.OnTxComplete c = some t := by
  cases c with
  | sends calls => exact sends_isSome calls hevt
  | closeChannel => exact ⟨_, rfl⟩

/-- The channel is registered, and has `b` to send. -/
structure Tracks (fd : Bool) (s : EdSocketChannel) (b : Backlog) : Prop where
  sound : s.Sound
  mEvt : s.sock.mEvt.isSome = true
  mFd : s.sock.mFd.isSome = fd
  backlog : s.backlog = b

variable {fd : Bool} {b : Backlog} {x : Turn}

lemma Tracks.packets (h : Tracks fd s b) (hcur : s.mCurChk = some cur) :
    b.packets = (s.mem cur).unsent :: s.mChks.map (fun a => (s.mem a).unsent) := by
  rw [← h.backlog, EdSocketChannel.backlog, outstanding, hcur]
  simp

lemma Tracks.turn_part (h : Tracks fd s b) (hcur : s.mCurChk = some cur) (hx : ¬ b.Taken fd x) :
    ∃ t, s.turn s.mCurChk x = .ended t := by
  have hwhole := h.sound.data cur (by simp [hcur])
  obtain ⟨ret, taken, c, htx, -, -⟩ := tx_spec hcur hwhole (s.answer x.r)
  have hret := tx_ret hcur hwhole htx
  have hne : ret ≠ .SR_COMPLETE := by
    intro heq
    have hall := hret.mp heq
    cases hfd : s.sock.mFd.isSome with
    | false =>
      rw [answer, hfd, if_neg (by decide)] at hall
      simp only [write] at hall
      omega
    | true =>
      refine hx ⟨by rw [← h.mFd, hfd], ?_⟩
      rw [h.packets hcur, List.head?_cons]
      intro p hp
      obtain rfl := Option.some.inj hp
      rwa [answer, hfd, if_pos rfl] at hall
  have hturn : s.turn (some cur) x = .ended { s with mem := Function.update s.mem cur c } := by
    rw [turn, htx]
    exact if_neg hne
  rw [hcur]
  exact ⟨_, hturn⟩

/-- A packet that is taken to its end makes room for the next one before the callback. -/
lemma Tracks.turn_taken (h : Tracks fd s b) (hcur : s.mCurChk = some cur) (hx : b.Taken fd x) :
    ∃ u, Tracks fd u ⟨b.packets.tail, b.free + 1⟩ ∧ u.mCurChk = s.mChks.head? ∧
      ∀ w, u.OnTxComplete x.callback = some w → s.turn s.mCurChk x = .going w u.mCurChk := by
  have hwhole := h.sound.data cur (by simp [hcur])
  obtain ⟨ret, taken, c, htx, -, -⟩ := tx_spec hcur hwhole (s.answer x.r)
  have hfd : s.sock.mFd.isSome = true := h.mFd.trans hx.1
  have hret : ret = .SR_COMPLETE := by
    refine (tx_ret hcur hwhole htx).mpr ?_
    rw [answer, hfd, if_pos rfl]
    refine hx.2 _ ?_
    rw [h.packets hcur]
    rfl
  have hnodup := h.sound.nodup
  rw [listed, hcur, Option.toList_some, List.singleton_append, List.nodup_middle,
    List.nodup_cons] at hnodup
  obtain ⟨next, u, hu⟩ : ∃ next u,
      recycle { s with mem := Function.update s.mem cur c } cur x.pevt = some (next, u) := by
    obtain ⟨e, he⟩ := Option.isSome_iff_exists.mp h.mEvt
    unfold recycle
    rw [if_pos (by exact hfd)]
    dsimp only
    cases s.mChks with
    | cons a chks => exact ⟨_, _, rfl⟩
    | nil =>
      simp only [EdSocket.changeEvent, he, Option.map_some]
      exact ⟨_, _, rfl⟩
  obtain ⟨k, rfl, rfl, hk⟩ := recycle_eq (s := { s with mem := Function.update s.mem cur c }) hfd hu
  have hkevt : k.mEvt.isSome = true ∧ k.mFd = s.sock.mFd := by
    rcases hk with rfl | hk
    · exact ⟨h.mEvt, rfl⟩
    · obtain ⟨e, he⟩ := Option.isSome_iff_exists.mp h.mEvt
      refine ⟨?_, EdSocket.changeEvent_mFd hk⟩
      simp only [EdSocket.changeEvent, he, Option.some.injEq] at hk
      rw [← hk]
      rfl
  have htail : s.mChks.head?.toList ++ s.mChks.tail = s.mChks := by
    cases s.mChks <;> rfl
  have hsound := h.sound.recycle hcur c hnodup.1
    (h.sound.bound cur (by simp [listed, hcur])) k
  refine ⟨_, ⟨hsound, hkevt.1, ?_, ?_⟩, rfl, fun w hw => ?_⟩
  · show k.mFd.isSome = fd
    rw [hkevt.2, h.mFd]
  · have hchks : s.mChks.map (fun a => (Function.update s.mem cur c a).unsent) =
        s.mChks.map (fun a => (s.mem a).unsent) := by
      refine List.map_congr_left (fun a ha => ?_)
      have hne : a ≠ cur := by
        rintro rfl
        exact hnodup.1 (List.mem_append_right _ ha)
      rw [Function.update_of_ne hne]
    have hfree : b.free = s.mFreeChks.length := by
      rw [← h.backlog]
      rfl
    simp only [EdSocketChannel.backlog, outstanding, htail, h.packets hcur, List.tail_cons,
      List.map_map, Function.comp_def, hchks, hfree, List.length_append, List.length_singleton]
  · rw [hcur, turn, htx]
    dsimp only
    rw [if_pos hret, hu]
    dsimp only
    rw [hw]

/-- With another packet behind the first, the loop has that one in hand after the callback. -/
lemma Tracks.turn_next (h : Tracks fd s b) (hl : ¬ b.Last fd x) :
    ∃ u chk, Tracks fd u ⟨b.packets.tail, b.free + 1⟩ ∧ u.mCurChk = some chk ∧
      ∀ w, u.OnTxComplete x.callback = some w → s.turn s.mCurChk x = .going w (some chk) := by
  obtain ⟨htaken, hlen⟩ := Classical.not_imp.mp hl
  cases hcur : s.mCurChk with
  | none =>
    have hnil : b.packets = [] := by
      rw [← h.backlog, EdSocketChannel.backlog, outstanding, hcur, h.sound.queue hcur]
      rfl
    simp [hnil] at hlen
  | some cur =>
    obtain ⟨u, hu, hnext, hturn⟩ := h.turn_taken hcur htaken
    rw [h.packets hcur, List.length_cons, List.length_map] at hlen
    obtain ⟨c, chks, hchks⟩ := List.exists_cons_of_ne_nil
      (List.ne_nil_of_length_pos (l := s.mChks) (by omega))
    rw [hchks, List.head?_cons] at hnext
    exact ⟨u, c, hu, hnext, fun w hw => by rw [← hcur, hturn w hw, hnext]⟩

lemma Tracks.turn_goes (h : Tracks fd s b) (hl : ¬ b.Last fd x)
    (hc : x.callback ≠ .closeChannel) :
    ∃ t, s.turn s.mCurChk x = .going t t.mCurChk ∧ Tracks fd t (b.turn x) := by
  obtain ⟨u, chk, hu, hcur, hturn⟩ := h.turn_next hl
  cases hcb : x.callback with
  | closeChannel => exact absurd hcb hc
  | sends calls =>
    obtain ⟨t, ht, hsound, hcurt, hsock, hlog⟩ := hu.sound.queue_packets calls hcur
    refine ⟨t, ?_, hsound, by rw [hsock, hu.mEvt], by rw [hsock, hu.mFd], ?_⟩
    · rw [hturn t (by rw [hcb]; exact ht), hcurt]
    · rw [hlog, hu.backlog, Backlog.turn, hcb]

lemma Tracks.turn_last (h : Tracks fd s b) (hl : b.Last fd x) :
    (∃ t, s.turn s.mCurChk x = .ended t) ∨ ∃ t, s.turn s.mCurChk x = .going t none := by
  cases hcur : s.mCurChk with
  | none => exact .inl ⟨s, rfl⟩
  | some cur =>
    rw [← hcur]
    by_cases htaken : b.Taken fd x
    · obtain ⟨u, hu, hnext, hturn⟩ := h.turn_taken hcur htaken
      have hlen := hl htaken
      rw [h.packets hcur, List.length_cons, List.length_map] at hlen
      have hchks : s.mChks = [] := List.length_eq_zero_iff.mp (by omega)
      rw [hchks, List.head?_nil] at hnext
      obtain ⟨w, hw⟩ := OnTxComplete_isSome x.callback hu.mEvt
      exact .inr ⟨w, by rw [hturn w hw, hnext]⟩
    · exact .inl (h.turn_part hcur htaken)

lemma Tracks.turn_closed (h : Tracks fd s b) (hl : ¬ b.Last fd x)
    (hc : x.callback = .closeChannel) :
    ∃ t chk, s.turn s.mCurChk x = .going t (some chk) ∧ t.mCurChk = none := by
  obtain ⟨u, chk, -, -, hturn⟩ := h.turn_next hl
  exact ⟨u.closeChannel, chk, hturn _ (by rw [hc]; rfl), rfl⟩

end EdSocketChannel

open EdSocketChannel

variable {s : EdSocketChannel} {b : Backlog} {fd : Bool} {turns : Nat → Turn}

lemma OnWrite_succ (n : Nat) : s.OnWrite turns (n + 1) = (s.OnWrite turns n).turn (turns n) :=
  rfl

lemma OnWrite_ended {n m : Nat} {u : EdSocketChannel} (h : s.OnWrite turns n = .ended u)
    (hm : n ≤ m) : s.OnWrite turns m = .ended u := by
  rw [← h]
  refine Rounds.after_stays (fun a => ?_) hm
  rw [show Rounds.after _ _ _ _ = _ from h]
  rfl

/-- While no round is the last and no callback closes the channel, the loop goes on. -/
lemma OnWrite_going (h : Tracks fd s b) {n : Nat}
    (hgo : ∀ i < n, (turns i).callback ≠ .closeChannel ∧ ¬ (b.after turns i).Last fd (turns i)) :
    ∃ t, s.OnWrite turns n = .going t t.mCurChk ∧ Tracks fd t (b.after turns n) := by
  refine Rounds.after_invariant
    (P := fun n (y : WriteLoop) => ∃ t, y = .going t t.mCurChk ∧ Tracks fd t (b.after turns n))
    ⟨s, rfl, h⟩ ?_ hgo
  rintro n y ⟨t, rfl, ht⟩ ⟨hc, hl⟩
  exact ht.turn_goes hl hc

lemma OnWrite_last (h : Tracks fd s b) {n : Nat}
    (hgo : ∀ i < n, (turns i).callback ≠ .closeChannel ∧ ¬ (b.after turns i).Last fd (turns i))
    (hl : (b.after turns n).Last fd (turns n)) : Survives s turns := by
  obtain ⟨t, ht, htr⟩ := OnWrite_going h hgo
  have hnext : s.OnWrite turns (n + 1) = t.turn t.mCurChk (turns n) := by
    rw [OnWrite_succ, ht]
    rfl
  obtain ⟨u, hu⟩ : ∃ u, s.OnWrite turns (n + 2) = .ended u := by
    rw [OnWrite_succ, hnext]
    rcases htr.turn_last hl with ⟨u, hu⟩ | ⟨u, hu⟩
    · exact ⟨u, by rw [hu]; rfl⟩
    · exact ⟨u, by rw [hu]; rfl⟩
  refine ⟨⟨n + 2, u, hu⟩, fun m v chk hv => ?_⟩
  rcases Nat.lt_trichotomy m (n + 1) with hm | rfl | hm
  · obtain ⟨w, hw, -⟩ := OnWrite_going h (n := m) (fun i hi => hgo i (by omega))
    rw [hw, WriteLoop.going.injEq] at hv
    obtain ⟨rfl, hcur⟩ := hv
    exact hcur
  · rw [hnext] at hv
    rcases htr.turn_last hl with ⟨w, hw⟩ | ⟨w, hw⟩
    · rw [hw] at hv
      cases hv
    · rw [hw] at hv
      cases hv
  · rw [OnWrite_ended hu (by omega)] at hv
    cases hv

/-- Closing the channel before the last round leaves the loop with a chunk that is deleted. -/
lemma OnWrite_closed (h : Tracks fd s b) {n : Nat}
    (hgo : ∀ i < n, (turns i).callback ≠ .closeChannel ∧ ¬ (b.after turns i).Last fd (turns i))
    (hl : ¬ (b.after turns n).Last fd (turns n)) (hc : (turns n).callback = .closeChannel) :
    ¬ Survives s turns := by
  intro hsurv
  obtain ⟨t, ht, htr⟩ := OnWrite_going h hgo
  obtain ⟨u, chk, hu, hnone⟩ := htr.turn_closed hl hc
  have hcur := hsurv.current (n + 1) u chk (by rw [OnWrite_succ, ht]; exact hu)
  rw [hnone] at hcur
  cases hcur

/-- `OnWrite` survives exactly if there is a round whose write does not take its packet to the end
or that finds no other packet, and no callback before it closes the channel. -/
theorem survives_iff {c : ChannelTask} (hr : channelTask.Reachable c) (hw : c.watched = true)
    (turns : Nat → Turn) : Survives c.chan turns ↔
      ∃ n, (c.chan.backlog.after turns n).Last c.chan.sock.mFd.isSome (turns n) ∧
        ∀ i < n, (turns i).callback ≠ .closeChannel := by
  have hevt : c.chan.sock.mEvt.isSome = true := by
    rw [ChannelTask.watched, Bool.and_eq_true] at hw
    exact hw.2
  have h : Tracks c.chan.sock.mFd.isSome c.chan c.chan.backlog :=
    ⟨(ChannelTask.sound_reachable hr).chan, hevt, rfl, rfl⟩
  apply Rounds.ends_iff
  · exact fun n hgo hl => OnWrite_last h hgo hl
  · exact fun n hgo hl hc => OnWrite_closed h hgo hl (not_not.mp hc)
  · intro hall hsurv
    obtain ⟨n, t, ht⟩ := hsurv.ends
    obtain ⟨u, hu, -⟩ := OnWrite_going h (n := n) (fun i _ => hall i)
    rw [hu] at ht
    cases ht

/-- A connected channel with two packets that wait for `OnWrite`. -/
def twoWaiting : List ChannelAction :=
  [.init 2, .openSock .SOCK_TYPE_TCP (some 3), .connectIp none (some 0), .OnEventWrite 0 none,
    .sendPacket [1, 2] 7 false .again none, .sendPacket [3] 8 false .again none]

/-- Both packets are taken, and the channel is closed in the second callback. -/
theorem survives_twoWaiting : ∃ c, channelTask.Reachable c ∧
    c.chan.backlog = ⟨[[1, 2], [3]], 0⟩ ∧
    Survives c.chan (fun i => ⟨.took 9, none, if i = 0 then .sends [] else .closeChannel⟩) := by
  obtain ⟨c, hr, hc⟩ := System.exists_of_exec (M := channelTask) (s := .new) (l := twoWaiting)
    (f := fun c => (c.watched, c.chan.backlog.packets, c.chan.backlog.free)) rfl
    (b := (true, [[1, 2], [3]], 0)) (by decide +kernel)
  simp only [Prod.mk.injEq] at hc
  obtain ⟨hw, hp, hf⟩ := hc
  have hb : c.chan.backlog = ⟨[[1, 2], [3]], 0⟩ := by
    rw [← hp, ← hf]
  refine ⟨c, hr, hb, (survives_iff hr hw _).mpr ⟨1, fun _ => ?_, by simp⟩⟩
  rw [hb]
  simp [Backlog.after, Rounds.after, Backlog.turn]

/-- What `OnWrite` has in hand and the current chunk. -/
def WriteLoop.chunks : WriteLoop → Option (Option Nat × Option Nat)
  | .going s chk => some (chk, s.mCurChk)
  | _ => none

/-- The channel is closed in the first callback. -/
theorem not_survives : ¬ ∀ c, channelTask.Reachable c → c.watched = true → ∀ turns,
    Survives c.chan turns := by
  intro hall
  obtain ⟨c, hr, hc⟩ := System.exists_of_exec (M := channelTask) (s := .new) (l := twoWaiting)
    (f := fun c => (c.watched,
      (c.chan.OnWrite (fun _ => ⟨.took 9, none, .closeChannel⟩) 1).chunks)) rfl
    (b := (true, some (some 1, none))) (by decide +kernel)
  simp only [Prod.mk.injEq] at hc
  obtain ⟨hw, hchunks⟩ := hc
  have hsurv := hall c hr hw (fun _ => ⟨.took 9, none, .closeChannel⟩)
  cases hx : c.chan.OnWrite (fun _ => ⟨.took 9, none, .closeChannel⟩) 1 with
  | going t chk =>
    rw [hx] at hchunks
    simp only [WriteLoop.chunks, Option.some.injEq, Prod.mk.injEq] at hchunks
    obtain ⟨rfl, hnone⟩ := hchunks
    exact absurd (hsurv.current 1 t 1 hx) (by simp [hnone])
  | ended | nullTx | nullTask =>
    rw [hx] at hchunks
    cases hchunks

end EdNio.Net
