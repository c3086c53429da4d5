import EdNio.Net.ChannelHistory
import Mathlib.Data.List.Nodup

/-!
# The stream of a channel

The bytes that the kernel takes from a channel and the completions it reports, against the
packets it has accepted.
-/

namespace EdNio.Net
open Transition

lemma ChunkInfo.unsent_eq {c : ChunkInfo} (h : c.data.length = c.size) :
    c.unsent = c.data.drop c.curCnt :=
  List.take_of_length_le (Nat.le_of_eq (by rw [List.length_drop, h]))

/-- A chunk that has its data, with a byte left unless its packet is empty. -/
def ChunkInfo.Whole (c : ChunkInfo) : Prop :=
  c.data.length = c.size ∧ (c.curCnt = 0 ∨ c.curCnt < c.size)

lemma ChunkInfo.Whole.size_eq_zero {c : ChunkInfo} (h : c.Whole) (hu : c.unsent = []) :
    c.size = 0 := by
  have hlen := congrArg List.length hu
  rw [unsent_eq h.1, List.length_drop, h.1, List.length_nil] at hlen
  rcases h.2 with h0 | hlt <;> omega

namespace EdSocketChannel

variable {s t : EdSocketChannel} {n : Nat}

/-- The chunks are distinct and all there, none waits behind an empty slot, and an outstanding
chunk has its data. -/
structure Inv (s : EdSocketChannel) (n : Nat) : Prop where
  nodup : (s.mFreeChks ++ (s.mCurChk.toList ++ s.mChks)).Nodup
  count : s.mFreeChks.length + (s.mCurChk.toList ++ s.mChks).length = n
  queue : s.mCurChk = none → s.mChks = []
  data : ∀ a ∈ s.mCurChk.toList ++ s.mChks, (s.mem a).Whole
  fd : s.sock.mFd.isSome = true
  status : s.sock.mStatus = .SOCK_STATUS_CONNECTED

/-- A call of `tx` ends the current chunk, or takes a part of it. -/
lemma tx_spec {cur : Nat} (hcur : s.mCurChk = some cur) (hwhole : (s.mem cur).Whole)
    (r : WriteResult) :
    ∃ ret taken c, s.tx r = some (ret, taken, { s with mem := Function.update s.mem cur c }) ∧
      c.user = (s.mem cur).user ∧
      ((ret = .SR_COMPLETE ∧ taken = (s.mem cur).unsent) ∨
        (ret = .SR_CONTINUE ∧ c.Whole ∧ taken ++ c.unsent = (s.mem cur).unsent)) := by
  obtain ⟨hdata, hcnt⟩ := hwhole
  have hunsent := ChunkInfo.unsent_eq hdata
  have hlen : (s.mem cur).unsent.length = (s.mem cur).size - (s.mem cur).curCnt := by
    rw [hunsent, List.length_drop, hdata]
  obtain ⟨htaken, hle⟩ := write_snd (s.mem cur).unsent r
  have htx : s.tx r = some (
      if (write (s.mem cur).unsent r).1 = ((s.mem cur).size - (s.mem cur).curCnt : Nat) then
        let c := { s.mem cur with
          curCnt := (s.mem cur).curCnt + ((s.mem cur).size - (s.mem cur).curCnt) }
        let c := if c.allocated then { c with data := [], allocated := false } else c
        (.SR_COMPLETE, (write (s.mem cur).unsent r).2,
          { s with mem := Function.update s.mem cur c })
      else if (write (s.mem cur).unsent r).1 > 0 then
        let c := { s.mem cur with
          curCnt := (s.mem cur).curCnt + (write (s.mem cur).unsent r).1.toNat }
        (.SR_CONTINUE, (write (s.mem cur).unsent r).2,
          { s with mem := Function.update s.mem cur c })
      else (.SR_CONTINUE, (write (s.mem cur).unsent r).2, s)) := by
    rw [tx, hcur]
    rfl
  rw [htx]
  split
  · rename_i hall
    refine ⟨_, _, _, rfl, ?_, .inl ⟨rfl, write_fst _ _ (by rw [hall, hlen])⟩⟩
    dsimp only
    split <;> rfl
  · split
    · have hwhole : ChunkInfo.Whole { s.mem cur with
          curCnt := (s.mem cur).curCnt + (write (s.mem cur).unsent r).1.toNat } := by
        refine ⟨hdata, ?_⟩
        show (s.mem cur).curCnt + _ = 0 ∨ (s.mem cur).curCnt + _ < (s.mem cur).size
        rw [hlen] at hle
        omega
      refine ⟨_, _, _, rfl, rfl, .inr ⟨rfl, hwhole, ?_⟩⟩
      rw [htaken, ChunkInfo.unsent_eq hwhole.1, ← List.drop_drop, ← hunsent]
      exact List.take_append_drop _ _
    · rename_i hneg
      refine ⟨_, _, s.mem cur, by rw [Function.update_eq_self], rfl,
        .inr ⟨rfl, ⟨hdata, hcnt⟩, ?_⟩⟩
      have hzero : (write (s.mem cur).unsent r).1.toNat = 0 := by omega
      rw [htaken, hzero]
      rfl

lemma outstanding_update {a : Nat} (c : ChunkInfo) (h : a ∉ s.mCurChk.toList ++ s.mChks) :
    (s.mCurChk.toList ++ s.mChks).map
      (fun b => ((Function.update s.mem a c b).unsent, (Function.update s.mem a c b).user)) =
      s.outstanding := by
  apply List.map_congr_left
  intro b hb
  have hne : b ≠ a := fun heq => h (heq ▸ hb)
  rw [Function.update_of_ne hne]

lemma Inv.moved (h : s.Inv n)
    (hperm : (t.mFreeChks ++ (t.mCurChk.toList ++ t.mChks)).Perm
      (s.mFreeChks ++ (s.mCurChk.toList ++ s.mChks)))
    (hqueue : t.mCurChk = none → t.mChks = [])
    (hdata : ∀ a ∈ t.mCurChk.toList ++ t.mChks, (t.mem a).Whole)
    (hfd : t.sock.mFd = s.sock.mFd) (hstatus : t.sock.mStatus = s.sock.mStatus) : t.Inv n where
  nodup := hperm.nodup_iff.mpr h.nodup
  count := by
    have hlen := hperm.length_eq
    have hcount := h.count
    simp only [List.length_append] at hlen hcount ⊢
    omega
  queue := hqueue
  data := hdata
  fd := by
    rw [hfd]
    exact h.fd
  status := hstatus.trans h.status

lemma Inv.withSock (h : s.Inv n) {flags : Interest} {pevt : Option Nat} {k : EdSocket}
    (hk : s.sock.changeEvent flags pevt = some k) : Inv { s with sock := k } n :=
  h.moved (.refl _) h.queue h.data (EdSocket.changeEvent_mFd hk) (EdSocket.changeEvent_mStatus hk)

lemma Inv.not_outstanding (h : s.Inv n) {chk : Nat} {free : List Nat}
    (hfree : s.mFreeChks = chk :: free) : chk ∉ s.mCurChk.toList ++ s.mChks := by
  have hnodup := h.nodup
  rw [hfree, List.cons_append, List.nodup_cons] at hnodup
  exact fun hm => hnodup.1 (List.mem_append_right _ hm)

/-- A free chunk is filled and waits behind the current one. -/
lemma Inv.enqueue (h : s.Inv n) {chk : Nat} {free : List Nat} (hfree : s.mFreeChks = chk :: free)
    (hcur : s.mCurChk ≠ none) {c : ChunkInfo} (hwhole : c.Whole) :
    let u := { s with
      mFreeChks := free
      mem := Function.update s.mem chk c
      mChks := s.mChks ++ [chk] }
    u.Inv n ∧ u.outstanding = s.outstanding ++ [(c.unsent, c.user)] := by
  have hnot := h.not_outstanding hfree
  have hassoc : s.mCurChk.toList ++ (s.mChks ++ [chk]) = s.mCurChk.toList ++ s.mChks ++ [chk] :=
    (List.append_assoc _ _ _).symm
  constructor
  · refine h.moved ?_ (fun hn => absurd hn hcur) ?_ rfl rfl
    · show (free ++ (s.mCurChk.toList ++ (s.mChks ++ [chk]))).Perm _
      rw [hfree, hassoc, ← List.append_assoc]
      exact List.perm_append_singleton _ _
    · show ∀ a ∈ s.mCurChk.toList ++ (s.mChks ++ [chk]), (Function.update s.mem chk c a).Whole
      rw [hassoc]
      intro a ha
      by_cases hac : a = chk
      · rw [hac, Function.update_self]
        exact hwhole
      · rw [Function.update_of_ne hac]
        refine h.data a ?_
        simpa [hac] using ha
  · show (s.mCurChk.toList ++ (s.mChks ++ [chk])).map (fun b =>
      ((Function.update s.mem chk c b).unsent, (Function.update s.mem chk c b).user)) = _
    rw [hassoc, List.map_append, outstanding_update _ hnot, List.map_singleton,
      Function.update_self]

lemma Inv.load (h : s.Inv n) {chk : Nat} {free : List Nat} (hfree : s.mFreeChks = chk :: free)
    (hcur : s.mCurChk = none) {c : ChunkInfo} (hwhole : c.Whole) :
    Inv { s with
      mFreeChks := free
      mem := Function.update s.mem chk c
      mCurChk := some chk } n := by
  have hchks := h.queue hcur
  refine h.moved ?_ (fun hn => by cases hn) ?_ rfl rfl
  · show (free ++ ([chk] ++ s.mChks)).Perm _
    rw [hfree, hcur, hchks, Option.toList_none, List.append_nil, List.append_nil, List.append_nil]
    exact List.perm_append_singleton _ _
  · show ∀ a ∈ [chk] ++ s.mChks, (Function.update s.mem chk c a).Whole
    rw [hchks]
    intro a ha
    rw [List.mem_singleton.mp ha, Function.update_self]
    exact hwhole

/-- The current chunk goes back to the free ones, with none behind it. -/
lemma Inv.release (h : s.Inv n) {chk : Nat} (hcur : s.mCurChk = some chk) (hchks : s.mChks = [])
    (mem : Nat → ChunkInfo) {k : EdSocket} (hfd : k.mFd = s.sock.mFd)
    (hstatus : k.mStatus = s.sock.mStatus) :
    Inv { s with
      sock := k
      mem := mem
      mFreeChks := s.mFreeChks ++ [chk]
      mCurChk := none } n := by
  refine h.moved ?_ (fun _ => hchks) (fun a ha => ?_) hfd hstatus
  · show (s.mFreeChks ++ [chk] ++ ([] ++ s.mChks)).Perm _
    rw [hcur, hchks, List.append_assoc]
    exact .refl _
  · rw [hchks] at ha
    cases ha

lemma Inv.not_mem_chks (h : s.Inv n) {chk : Nat} (hcur : s.mCurChk = some chk) :
    chk ∉ s.mChks := by
  have hnodup := h.nodup.of_append_right
  rw [hcur] at hnodup
  exact (List.nodup_cons.mp hnodup).1

/-- The chunks in the queue do not see what is written to the current one. -/
lemma Inv.update_chks (h : s.Inv n) {chk : Nat} (hcur : s.mCurChk = some chk) (c : ChunkInfo) :
    ∀ a ∈ s.mChks, Function.update s.mem chk c a = s.mem a := by
  intro a ha
  exact Function.update_of_ne (ne_of_mem_of_not_mem ha (h.not_mem_chks hcur)) _ _

lemma Inv.update (h : s.Inv n) {chk : Nat} (hcur : s.mCurChk = some chk) {c : ChunkInfo}
    (hwhole : c.Whole) :
    Inv { s with mem := Function.update s.mem chk c } n ∧
      outstanding { s with mem := Function.update s.mem chk c } =
        (c.unsent, c.user) :: s.mChks.map (fun a => ((s.mem a).unsent, (s.mem a).user)) := by
  have hmem := h.update_chks hcur c
  have hsame : Function.update s.mem chk c chk = c := Function.update_self _ _ _
  generalize Function.update s.mem chk c = mem at hmem hsame
  subst hsame
  refine ⟨⟨h.nodup, h.count, h.queue, ?_, h.fd, h.status⟩, ?_⟩
  · show ∀ a ∈ s.mCurChk.toList ++ s.mChks, (mem a).Whole
    rw [hcur, Option.toList_some, List.singleton_append, List.forall_mem_cons]
    refine ⟨hwhole, fun a ha => ?_⟩
    rw [hmem a ha]
    exact h.data a (List.mem_append_right _ ha)
  · show (s.mCurChk.toList ++ s.mChks).map (fun a => ((mem a).unsent, (mem a).user)) = _
    rw [hcur, Option.toList_some, List.singleton_append, List.map_cons]
    exact congrArg _ (List.map_congr_left (fun a ha => by rw [hmem a ha]))

lemma Inv.sendPacket {calling : List Nat} {log : List ChannelEvent} (h : s.Inv n)
    (ha : Accounts s.outstanding calling log) {buf taken : List UInt8} {user : Nat}
    {takebuf : Bool} {r : WriteResult} {pevt : Option Nat} {ret : SendRet}
    (hs : s.sendPacket buf user takebuf r pevt = some (ret, taken, t)) :
    t.Inv n ∧ Accounts t.outstanding calling (log ++ [.sent buf user ret taken]) ∧
      ∀ a, s.mCurChk = some a → t.mCurChk = some a := by
  unfold EdSocketChannel.sendPacket at hs
  split at hs
  · cases hs
    exact ⟨h, ha.full buf user, fun _ => id⟩
  · rename_i chk free hfree
    have hunsent : (ChunkInfo.mk buf buf.length user 0 (!takebuf)).unsent = buf :=
      ChunkInfo.unsent_eq rfl
    dsimp only at hs
    cases hcur : s.mCurChk with
    | some cur =>
      simp only [hcur, Option.isSome_some, if_true, Option.some.injEq] at hs
      cases hs
      rw [← hcur]
      obtain ⟨hinv, hout⟩ := h.enqueue hfree (by rw [hcur]; rintro ⟨⟩)
        (c := ⟨buf, buf.length, user, 0, !takebuf⟩) ⟨rfl, .inl rfl⟩
      rw [hunsent] at hout
      rw [hout]
      exact ⟨hinv, ha.continue_ user (List.nil_append buf) (.inl rfl), fun _ => id⟩
    | none =>
      have hchks := h.queue hcur
      have hidle : s.outstanding = [] := by
        rw [outstanding, hcur, hchks]
        rfl
      rw [hidle] at ha
      have hload := h.load hfree hcur (c := ⟨buf, buf.length, user, 0, !takebuf⟩)
        ⟨rfl, .inl rfl⟩
      simp only [hcur, Option.isSome_none, Bool.false_eq_true, if_false] at hs
      obtain ⟨ret', taken', c, htx, huser, hcase⟩ := tx_spec (s := { s with
        mFreeChks := free
        mem := Function.update s.mem chk ⟨buf, buf.length, user, 0, !takebuf⟩
        mCurChk := some chk }) rfl (by simp [ChunkInfo.Whole]) r
      simp only [Function.update_self, hunsent] at huser hcase
      rw [htx, Option.bind_some] at hs
      dsimp only at hs
      rcases hcase with ⟨rfl, rfl⟩ | ⟨rfl, hwhole, hrest⟩
      · rw [if_pos rfl] at hs
        cases hs
        refine ⟨hload.release rfl hchks _ rfl rfl, ?_, (fun a hn => by cases hn)⟩
        show Accounts (([] ++ s.mChks).map _) calling _
        rw [hchks]
        exact ha.complete _ user
      · rw [if_neg (by decide)] at hs
        obtain ⟨k, hk, heq⟩ := Option.map_eq_some_iff.mp hs
        cases heq
        obtain ⟨hinv, hout⟩ := hload.update rfl hwhole
        have hacc := ha.continue_ user hrest (.inr rfl)
        rw [List.nil_append, show [(c.unsent, user)] = _ from
          (hout.trans (by rw [huser, hchks]; rfl)).symm] at hacc
        exact ⟨hinv.withSock hk, hacc, (fun a hn => by cases hn)⟩

/-- A chunk that is written to its end goes back to the free ones, and the next one takes its
place. -/
lemma Inv.recycle (h : s.Inv n) {chk : Nat} (hcur : s.mCurChk = some chk) {c : ChunkInfo}
    {pevt next : Option Nat}
    (hs : EdSocketChannel.recycle { s with mem := Function.update s.mem chk c } chk pevt =
      some (next, t)) :
    t.Inv n ∧ t.outstanding = s.mChks.map (fun a => ((s.mem a).unsent, (s.mem a).user)) ∧
      t.mCurChk = next := by
  have hmem := h.update_chks hcur c
  generalize Function.update s.mem chk c = mem at hmem hs
  have hout : s.mChks.map (fun a => ((mem a).unsent, (mem a).user)) =
      s.mChks.map (fun a => ((s.mem a).unsent, (s.mem a).user)) :=
    List.map_congr_left (fun a ha => by rw [hmem a ha])
  unfold EdSocketChannel.recycle at hs
  dsimp only at hs
  rw [if_pos h.fd] at hs
  rw [← hout]
  cases hchks : s.mChks with
  | cons b chks =>
    simp only [hchks, Option.some.injEq] at hs
    cases hs
    refine ⟨h.moved ?_ (fun hn => by cases hn) (fun a ha => ?_) rfl rfl, rfl, rfl⟩
    · show (s.mFreeChks ++ [chk] ++ (b :: chks)).Perm _
      rw [hcur, hchks, List.append_assoc]
      exact .refl _
    · have ha : a ∈ s.mChks := by
        rw [hchks]
        exact ha
      show (mem a).Whole
      rw [hmem a ha]
      exact h.data a (List.mem_append_right _ ha)
  | nil =>
    simp only [hchks] at hs
    obtain ⟨k, hk, heq⟩ := Option.map_eq_some_iff.mp hs
    cases heq
    have hinv := h.release hcur hchks mem (EdSocket.changeEvent_mFd hk)
      (EdSocket.changeEvent_mStatus hk)
    rw [hchks] at hinv
    exact ⟨hinv, rfl, rfl⟩

end EdSocketChannel

/-- The chunk that `OnWrite` goes on with. -/
def ChannelPc.next : ChannelPc → Option Nat
  | .writing chk => chk
  | .completing _ _ chk => chk
  | .callback chk => chk
  | _ => none

namespace ChannelTask

variable {s t : ChannelTask} {n : Nat} {log : List ChannelEvent}

structure Inv (s : ChannelTask) (n : Nat) (log : List ChannelEvent) : Prop where
  chan : s.chan.Inv n
  accounts : Accounts s.chan.outstanding s.pc.calling log
  current : ∀ a, s.pc.next = some a → s.chan.mCurChk = some a

lemma Inv.txRound (h : s.Inv n log) {r : WriteResult} {pevt : Option Nat} {taken : List UInt8}
    (hs : s.txRound r pevt = some (taken, t)) : t.Inv n (log ++ [.wrote taken]) := by
  unfold ChannelTask.txRound at hs
  split at hs
  · rename_i chk hpc
    have hcur : s.chan.mCurChk = some chk := h.current chk (by rw [hpc]; rfl)
    have hacc := h.accounts
    have hout : s.chan.outstanding = ((s.chan.mem chk).unsent, (s.chan.mem chk).user) ::
        s.chan.mChks.map (fun a => ((s.chan.mem a).unsent, (s.chan.mem a).user)) := by
      rw [EdSocketChannel.outstanding, hcur]
      rfl
    rw [hout, hpc] at hacc
    have hin : chk ∈ s.chan.mCurChk.toList ++ s.chan.mChks := by simp [hcur]
    obtain ⟨ret, bytes, c, htx, huser, hcase⟩ :=
      EdSocketChannel.tx_spec hcur (h.chan.data chk hin) r
    rw [htx, Option.bind_some] at hs
    dsimp only at hs
    rcases hcase with ⟨rfl, rfl⟩ | ⟨rfl, hwhole, hrest⟩
    · rw [if_pos rfl] at hs
      obtain ⟨⟨next, u⟩, hu, heq⟩ := Option.map_eq_some_iff.mp hs
      cases heq
      obtain ⟨hinv, hrest, hnext⟩ := h.chan.recycle hcur hu
      refine ⟨hinv, ?_, fun a ha => hnext.trans ha⟩
      show Accounts u.outstanding [(Function.update s.chan.mem chk c chk).user] _
      rw [hrest, Function.update_self, huser]
      exact (hacc.wrote (List.append_nil _)).finish
    · rw [if_neg (by decide)] at hs
      cases hs
      obtain ⟨hinv, hout'⟩ := h.chan.update hcur hwhole
      refine ⟨hinv, ?_, fun a ha => by cases ha⟩
      rw [huser] at hout'
      show Accounts (EdSocketChannel.outstanding _) [] _
      rw [hout']
      exact hacc.wrote hrest
  · cases hs

/-- The task goes on, and nothing is written or completed. -/
lemma Inv.goTo (h : s.Inv n log) {pc pc' : ChannelPc} (hpc : s.pc = pc)
    (hcall : pc.calling = pc'.calling)
    (hnext : ∀ a, pc'.next = some a → s.chan.mCurChk = some a) :
    Inv { s with pc := pc' } n (log ++ []) := by
  have hacc := h.accounts
  rw [hpc, hcall] at hacc
  rw [List.append_nil]
  exact ⟨h.chan, hacc, hnext⟩

lemma Inv.step (h : s.Inv n log) {a : ChannelAction} (hok : streaming a = true)
    (hs : s.step a = some t) : t.Inv n (log ++ (s.record a).toList) := by
  cases a with
  | sendPacket buf user takebuf r pevt =>
    simp only [ChannelTask.step, Option.ite_none_right_eq_some] at hs
    obtain ⟨⟨ret, taken, u⟩, hu, rfl⟩ := Option.map_eq_some_iff.mp hs.2
    obtain ⟨hinv, hacc, hcur⟩ := h.chan.sendPacket h.accounts hu
    rw [record, hu]
    exact ⟨hinv, hacc, fun a ha => hcur a (h.current a ha)⟩
  | OnEventRead =>
    simp only [ChannelTask.step, Option.ite_none_right_eq_some, Option.some.injEq, watched,
      Bool.and_eq_true, decide_eq_true_eq] at hs
    obtain ⟨⟨hpc, -⟩, rfl⟩ := hs
    split
    · show s.Inv n (log ++ [])
      rw [List.append_nil]
      exact h
    · exact h.goTo hpc rfl (fun a ha => by cases ha)
  | readReturn error =>
    cases error with
    | true => cases hok
    | false =>
      simp only [ChannelTask.step, Option.ite_none_right_eq_some, Option.some.injEq] at hs
      obtain ⟨hpc, rfl⟩ := hs
      exact h.goTo hpc rfl (fun a ha => by cases ha)
  | OnEventWrite sockerr pevt =>
    have hne : s.chan.sock.mStatus ≠ .SOCK_STATUS_CONNECTING := by
      rw [h.chan.status]
      decide
    simp only [ChannelTask.step, Option.ite_none_right_eq_some, if_neg hne, Option.some.injEq,
      watched, Bool.and_eq_true, decide_eq_true_eq] at hs
    obtain ⟨⟨hpc, -⟩, rfl⟩ := hs
    exact h.goTo hpc rfl (fun a => id)
  | tx r pevt =>
    simp only [ChannelTask.step, Option.ite_none_right_eq_some] at hs
    obtain ⟨⟨taken, u⟩, hu, rfl⟩ := Option.map_eq_some_iff.mp hs.2
    rw [record, hu]
    exact h.txRound hu
  | loopEnd =>
    simp only [ChannelTask.step, Option.ite_none_right_eq_some, Option.some.injEq] at hs
    obtain ⟨hpc, rfl⟩ := hs
    exact h.goTo hpc rfl (fun a ha => by cases ha)
  | OnTxComplete =>
    simp only [ChannelTask.step] at hs
    split at hs
    · rename_i data user chk hpc
      cases hs
      have hacc := h.accounts
      rw [hpc] at hacc
      simp only [record, hpc]
      exact ⟨h.chan, hacc.completed.2, fun a ha => h.current a (by rw [hpc]; exact ha)⟩
    · cases hs
  | callbackReturn =>
    simp only [ChannelTask.step] at hs
    split at hs
    · rename_i chk hpc
      cases hs
      exact h.goTo hpc rfl (fun a ha => h.current a (by rw [hpc]; exact ha))
    · cases hs
  | _ => cases hok

end ChannelTask

variable {n : Nat} {x : Recorded ChannelTask ChannelEvent}

lemma connectedChannel_inv {s : ChannelTask} (h : (connectedChannel n).init s) : s.Inv n [] := by
  obtain ⟨hpc, hfd, hstatus, hchan⟩ := h
  have hidle : s.chan.mCurChk = none ∧ s.chan.mChks = [] := by
    rw [hchan]
    exact ⟨rfl, rfl⟩
  obtain ⟨hcur, hchks⟩ := hidle
  have hfree : s.chan.mFreeChks = (List.range n).map (0 + ·) := by
    rw [hchan]
    rfl
  have hout : s.chan.outstanding = [] := by
    rw [EdSocketChannel.outstanding, hcur, hchks]
    rfl
  refine ⟨⟨?_, ?_, fun _ => hchks, fun a ha => ?_, hfd, hstatus⟩, ?_, fun a ha => ?_⟩
  · rw [hcur, hchks, hfree, Option.toList_none, List.append_nil, List.append_nil]
    exact List.nodup_range.map (fun a b heq => by omega)
  · rw [hcur, hchks, hfree]
    simp
  · rw [hcur, hchks] at ha
    cases ha
  · rw [hout, hpc]
    exact .nil
  · rw [hpc] at ha
    cases ha

lemma channelHistory_inv (h : (channelHistory n).Reaches (fun _ a => streaming a = true) x) :
    x.state.Inv n x.log := by
  apply h.invariant
  · rintro x ⟨h0, hlog⟩
    rw [hlog]
    exact connectedChannel_inv h0
  · intro x a y _ hI hok hs
    obtain ⟨hstep, hlog⟩ := recorded_step hs
    rw [hlog]
    exact hI.step hok hstep

/-- The channel keeps its packets in order, completes each that it kept, and keeps its chunks. -/
theorem channel_stream (h : (channelHistory n).Reaches (fun _ a => streaming a = true) x) :
    Streams n x := by
  obtain ⟨hchan, hacc, -⟩ := channelHistory_inv h
  obtain ⟨done, hdone, -, hcont⟩ := hacc.order
  refine ⟨hacc.stream, recorded_always ?_ h, ?_, fun a ha => (hchan.data a ha).size_eq_zero, ?_,
    hchan.queue⟩
  · intro y a t e hr _ hs he
    have hacc := (channelHistory_inv hr).accounts
    cases e with
    | completed user =>
      cases a with
      | OnTxComplete =>
        simp only [ChannelTask.record] at he
        split at he
        · rename_i hpc
          cases he
          rw [hpc] at hacc
          exact hacc.completed.1
        · cases he
      | sendPacket buf user takebuf r pevt => simp [ChannelTask.record] at he
      | tx r pevt => simp [ChannelTask.record] at he
      | _ => cases he
    | _ => trivial
  · rw [hcont, List.map_append, hdone, ends_users]
  · have hcount := hchan.count
    rw [List.length_append] at hcount
    rw [← hcount]
    cases x.state.chan.mCurChk with
    | none => simp
    | some cur =>
      simp
      omega

/-- A channel with two chunks: a packet is written in two parts, one waits behind it, one is
turned away, and another is sent when the first is completed. -/
theorem channel_stream_resend :
    ∃ x, (channelHistory 2).Reaches (fun _ a => streaming a = true) x ∧
      x.log = [.sent [1, 2] 10 .SR_CONTINUE [1], .sent [3] 11 .SR_CONTINUE [],
        .sent [4] 12 .SR_BUFFULL [], .wrote [2], .completed 10, .sent [5] 13 .SR_CONTINUE [],
        .wrote [3], .completed 11, .wrote []] ∧ Streams 2 x := by
  let sock : EdSocket := { EdSocket.new with
    mFd := some 3
    mEvt := some ⟨0, 3, ⟨true, false, true⟩⟩
    mIsReg := true
    mTask := true
    mStatus := .SOCK_STATUS_CONNECTED }
  let init : Recorded ChannelTask ChannelEvent :=
    ⟨⟨{ EdSocketChannel.new.init 2 with sock := sock }, .elsewhere⟩, []⟩
  obtain ⟨x, hr, hx⟩ := System.exists_of_exec_restrict (M := channelHistory 2)
    (T := fun _ a => streaming a) (s := init) ⟨⟨rfl, rfl, rfl, rfl⟩, rfl⟩
    (show (((channelHistory 2).restrict (fun _ a => streaming a)).exec init
      [.sendPacket [1, 2] 10 false (.took 0) none, .sendPacket [3] 11 true .again none,
        .sendPacket [4] 12 false .again none, .OnEventWrite 0 none, .tx (.took 5) none,
        .OnTxComplete, .sendPacket [5] 13 false .again none, .callbackReturn, .tx (.took 0) none,
        .OnTxComplete, .callbackReturn, .tx .again none]).map (fun x => x.log) =
      some [.sent [1, 2] 10 .SR_CONTINUE [1], .sent [3] 11 .SR_CONTINUE [],
        .sent [4] 12 .SR_BUFFULL [], .wrote [2], .completed 10, .sent [5] 13 .SR_CONTINUE [],
        .wrote [3], .completed 11, .wrote []] by decide +kernel)
  exact ⟨x, hr, hx, channel_stream hr⟩

end EdNio.Net
