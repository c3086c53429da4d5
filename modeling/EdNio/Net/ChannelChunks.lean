import EdNio.Net.ChannelStream

/-!
# The chunks of a channel

What a step of a channel can do, and what holds of its chunks in every run, whatever the user
closes and opens.
-/

namespace EdNio.Net
open Transition

namespace ChannelTask

/-- What a step does. The handlers of `handler` leave the chunks alone, and the base socket but
for its `close`. -/
inductive Effect (s : ChannelTask) : ChannelAction → ChannelTask → Prop
  | init {maxchk} : s.Effect (.init maxchk) { s with chan := s.chan.init maxchk }
  | openSock {type fd} : s.Effect (.openSock type fd) (s.withSock (s.chan.sock.openSock type fd))
  | openChildSock {fd pevt k} (sock : s.chan.sock.openChildSock fd pevt = some k) :
    s.Effect (.openChildSock fd pevt) (s.withSock k)
  | bindSock {fd bound pevt k} (sock : s.chan.sock.bindSock fd bound pevt = some k) :
    s.Effect (.bindSock fd bound pevt) (s.withSock k)
  | listenSock {fd bound listened pevt k}
    (sock : s.chan.sock.listenSock fd bound listened pevt = some k) :
    s.Effect (.listenSock fd bound listened pevt) (s.withSock k)
  | connectIp {fd pevt k} (sock : s.chan.sock.connectIp fd pevt = some k) :
    s.Effect (.connectIp fd pevt) (s.withSock k)
  | connectAddr {fd cnn pevt k} (sock : s.chan.sock.connectAddr fd cnn pevt = some k) :
    s.Effect (.connectAddr fd cnn pevt) (s.withSock k)
  | completeConnection {sockerr pevt k} (sock : s.chan.sock.completeConnection pevt = some k) :
    s.Effect (.OnEventWrite sockerr pevt) (s.withSock k)
  | closeChannel : s.Effect .closeChannel { s with chan := s.chan.closeChannel }
  | sendPacket {buf user takebuf r pevt ret taken c} (writes : s.writes r = true)
    (sent : s.chan.sendPacket buf user takebuf r pevt = some (ret, taken, c)) :
    s.Effect (.sendPacket buf user takebuf r pevt) { s with chan := c }
  | tx {r pevt taken t} (writes : s.writes r = true) (round : s.txRound r pevt = some (taken, t)) :
    s.Effect (.tx r pevt) t
  | handler {a t}
    (chan : t.chan = s.chan ∨ t.chan = { s.chan with sock := s.chan.sock.close })
    (next : t.pc.next = none ∨ t.pc.next = s.pc.next ∨ t.pc.next = s.chan.mCurChk) :
    s.Effect a t

variable {s t : ChannelTask} {a : ChannelAction}

lemma step_effect (hs : s.step a = some t) : s.Effect a t := by
  cases a with
  | init maxchk =>
    simp only [step, Option.ite_none_right_eq_some, Option.some.injEq] at hs
    obtain ⟨-, rfl⟩ := hs
    exact .init
  | openSock type fd =>
    simp only [step, Option.ite_none_right_eq_some, Option.some.injEq] at hs
    obtain ⟨-, rfl⟩ := hs
    exact .openSock
  | openChildSock fd pevt =>
    simp only [step, Option.ite_none_right_eq_some] at hs
    obtain ⟨k, hk, rfl⟩ := Option.map_eq_some_iff.mp hs.2
    exact .openChildSock hk
  | bindSock fd bound pevt =>
    simp only [step, Option.ite_none_right_eq_some] at hs
    obtain ⟨k, hk, rfl⟩ := Option.map_eq_some_iff.mp hs.2
    exact .bindSock hk
  | listenSock fd bound listened pevt =>
    simp only [step, Option.ite_none_right_eq_some] at hs
    obtain ⟨k, hk, rfl⟩ := Option.map_eq_some_iff.mp hs.2
    exact .listenSock hk
  | connectIp fd pevt =>
    simp only [step, Option.ite_none_right_eq_some] at hs
    obtain ⟨k, hk, rfl⟩ := Option.map_eq_some_iff.mp hs.2
    exact .connectIp hk
  | connectAddr fd cnn pevt =>
    simp only [step, Option.ite_none_right_eq_some] at hs
    obtain ⟨k, hk, rfl⟩ := Option.map_eq_some_iff.mp hs.2
    exact .connectAddr hk
  | close =>
    simp only [step, Option.ite_none_right_eq_some, Option.some.injEq] at hs
    obtain ⟨-, rfl⟩ := hs
    exact .handler (.inr rfl) (.inr (.inl rfl))
  | closeChannel =>
    simp only [step, Option.ite_none_right_eq_some, Option.some.injEq] at hs
    obtain ⟨-, rfl⟩ := hs
    exact .closeChannel
  | sendPacket buf user takebuf r pevt =>
    simp only [step, Option.ite_none_right_eq_some] at hs
    obtain ⟨⟨ret, taken, u⟩, hu, rfl⟩ := Option.map_eq_some_iff.mp hs.2
    exact .sendPacket hs.1.2 hu
  | OnEventRead =>
    simp only [step, Option.ite_none_right_eq_some, Option.some.injEq] at hs
    obtain ⟨-, rfl⟩ := hs
    split
    · exact .handler (.inl rfl) (.inr (.inl rfl))
    · exact .handler (.inl rfl) (.inl rfl)
  | readReturn error =>
    simp only [step, Option.ite_none_right_eq_some, Option.some.injEq] at hs
    obtain ⟨-, rfl⟩ := hs
    cases error <;> exact .handler (.inl rfl) (.inl rfl)
  | disconnectReturn error =>
    simp only [step, Option.ite_none_right_eq_some, Option.some.injEq] at hs
    obtain ⟨-, rfl⟩ := hs
    cases error with
    | false => exact .handler (.inl rfl) (.inl rfl)
    | true => exact .handler (.inr rfl) (.inl rfl)
  | OnEventWrite sockerr pevt =>
    simp only [step, Option.ite_none_right_eq_some] at hs
    obtain ⟨-, hs⟩ := hs
    split at hs
    · split at hs
      · cases hs
        exact .handler (.inr rfl) (.inr (.inl rfl))
      · obtain ⟨k, hk, rfl⟩ := Option.map_eq_some_iff.mp hs
        exact .completeConnection hk
    · cases hs
      exact .handler (.inl rfl) (.inr (.inr rfl))
  | tx r pevt =>
    simp only [step, Option.ite_none_right_eq_some] at hs
    obtain ⟨⟨taken, u⟩, hu, rfl⟩ := Option.map_eq_some_iff.mp hs.2
    exact .tx hs.1 hu
  | loopEnd =>
    simp only [step, Option.ite_none_right_eq_some, Option.some.injEq] at hs
    obtain ⟨-, rfl⟩ := hs
    exact .handler (.inl rfl) (.inl rfl)
  | OnTxComplete | callbackReturn =>
    simp only [step] at hs
    split at hs
    · rename_i hpc
      cases hs
      exact .handler (.inl rfl) (.inr (.inl (by rw [hpc]; rfl)))
    · cases hs
  | OnEventHangup =>
    simp only [step, Option.ite_none_right_eq_some, Option.some.injEq] at hs
    obtain ⟨-, rfl⟩ := hs
    exact .handler (.inr rfl) (.inr (.inl rfl))

end ChannelTask

namespace EdSocketChannel

/-- The chunks on the lists of the channel. -/
def listed (s : EdSocketChannel) : List Nat :=
  s.mFreeChks ++ (s.mCurChk.toList ++ s.mChks)

/-- The listed chunks are distinct, none waits behind an empty slot, and those that are
outstanding have their data. -/
structure Sound (s : EdSocketChannel) : Prop where
  nodup : s.listed.Nodup
  bound : ∀ a ∈ s.listed, a < s.chunks
  queue : s.mCurChk = none → s.mChks = []
  data : ∀ a ∈ s.mCurChk.toList ++ s.mChks, (s.mem a).Whole

variable {s t : EdSocketChannel} {chk cur : Nat}

lemma Sound.of_perm (h : s.Sound) (hperm : t.listed.Perm s.listed) (hchunks : t.chunks = s.chunks)
    (hqueue : t.mCurChk = none → t.mChks = [])
    (hdata : ∀ a ∈ t.mCurChk.toList ++ t.mChks, (t.mem a).Whole) : t.Sound where
  nodup := hperm.nodup_iff.mpr h.nodup
  bound a ha := by
    rw [hchunks]
    exact h.bound a (hperm.mem_iff.mp ha)
  queue := hqueue
  data := hdata

lemma Sound.withSock (h : s.Sound) (k : EdSocket) : Sound { s with sock := k } :=
  ⟨h.nodup, h.bound, h.queue, h.data⟩

lemma Sound.init (h : s.Sound) (maxchk : Nat) : (s.init maxchk).Sound := by
  have hperm : (s.init maxchk).listed.Perm
      (s.listed ++ (List.range maxchk).map (s.chunks + ·)) := by
    show (s.mFreeChks ++ _ ++ _).Perm (s.mFreeChks ++ _ ++ _)
    rw [List.append_assoc, List.append_assoc]
    exact List.perm_append_comm.append_left _
  have hlt : ∀ a ∈ s.listed, ¬ (s.chunks ≤ a ∧ a < s.chunks + maxchk) := fun a ha hc =>
    Nat.lt_irrefl _ (Nat.lt_of_lt_of_le (h.bound a ha) hc.1)
  refine ⟨hperm.nodup_iff.mpr ?_, fun a ha => ?_, h.queue, fun a ha => ?_⟩
  · rw [List.nodup_append']
    refine ⟨h.nodup, (List.nodup_range).map (fun _ _ => Nat.add_left_cancel), ?_⟩
    intro a ha hnew
    obtain ⟨i, hi, rfl⟩ := List.mem_map.mp hnew
    exact hlt _ ha ⟨Nat.le_add_right _ _, Nat.add_lt_add_left (List.mem_range.mp hi) _⟩
  · show a < s.chunks + maxchk
    rcases List.mem_append.mp (hperm.mem_iff.mp ha) with ha | ha
    · exact Nat.lt_add_right _ (h.bound a ha)
    · obtain ⟨i, hi, rfl⟩ := List.mem_map.mp ha
      exact Nat.add_lt_add_left (List.mem_range.mp hi) _
  · show ChunkInfo.Whole (if _ then _ else _)
    rw [if_neg (hlt a (List.mem_append_right _ ha))]
    exact h.data a ha

lemma Sound.closeChannel (s : EdSocketChannel) : s.closeChannel.Sound := by
  constructor <;> simp [EdSocketChannel.closeChannel, listed]

/-- A write that fails takes nothing. -/
lemma tx_error (hcur : s.mCurChk = some cur) : s.tx .error = some (.SR_CONTINUE, [], s) := by
  rw [tx, hcur, Option.map_some]
  dsimp only [write]
  rw [if_neg (by omega), if_neg (by decide)]

/-- A packet moves a chunk between the lists at most, and leaves the current one where it is. -/
lemma Sound.sendPacket (h : s.Sound) {buf taken : List UInt8} {user : Nat} {takebuf : Bool}
    {r : WriteResult} {pevt : Option Nat} {ret : SendRet}
    (hs : s.sendPacket buf user takebuf r pevt = some (ret, taken, t)) :
    t.Sound ∧ t.listed.Perm s.listed ∧ t.chunks = s.chunks ∧
      ∀ a, s.mCurChk = some a → t.mCurChk = some a := by
  unfold EdSocketChannel.sendPacket at hs
  split at hs
  · cases hs
    exact ⟨h, .refl _, rfl, fun _ => id⟩
  · rename_i chk free hfree
    dsimp only at hs
    cases hcur : s.mCurChk with
    | some cur =>
      simp only [hcur, Option.isSome_some, if_true, Option.some.injEq] at hs
      cases hs
      have hperm : (free ++ (s.mCurChk.toList ++ (s.mChks ++ [chk]))).Perm s.listed := by
        rw [listed, hfree, ← List.append_assoc, ← List.append_assoc, List.append_assoc free]
        exact List.perm_append_singleton _ _
      rw [← hcur]
      refine ⟨h.of_perm hperm rfl (fun hn => by simp [hcur] at hn) (fun a ha => ?_), hperm, rfl,
        fun _ => id⟩
      show (Function.update s.mem chk _ a).Whole
      by_cases hac : a = chk
      · rw [hac, Function.update_self]
        exact ⟨rfl, .inl rfl⟩
      · rw [Function.update_of_ne hac]
        refine h.data a ?_
        simpa [hac, hcur, or_assoc] using ha
    | none =>
      have hchks := h.queue hcur
      simp only [hcur, Option.isSome_none, Bool.false_eq_true, if_false] at hs
      obtain ⟨ret', taken', c, htx, -, hcase⟩ := tx_spec (s := { s with
        mFreeChks := free
        mem := Function.update s.mem chk ⟨buf, buf.length, user, 0, !takebuf⟩
        mCurChk := some chk }) rfl (by simp [ChunkInfo.Whole]) r
      rw [htx, Option.bind_some] at hs
      dsimp only at hs
      rcases hcase with ⟨rfl, -⟩ | ⟨rfl, hwhole, -⟩
      · rw [if_pos rfl] at hs
        cases hs
        have hperm : (free ++ [chk] ++ ([] ++ s.mChks)).Perm s.listed := by
          rw [listed, hfree, hcur, hchks, Option.toList_none, List.append_nil, List.append_nil,
            List.append_nil]
          exact List.perm_append_singleton _ _
        refine ⟨h.of_perm hperm rfl (fun _ => hchks) (fun a ha => ?_), hperm, rfl,
          fun a ha => by cases ha⟩
        rw [hchks] at ha
        cases ha
      · rw [if_neg (by decide)] at hs
        obtain ⟨k, -, heq⟩ := Option.map_eq_some_iff.mp hs
        cases heq
        have hperm : (free ++ ([chk] ++ s.mChks)).Perm s.listed := by
          rw [listed, hfree, hcur, hchks, Option.toList_none, List.append_nil, List.append_nil,
            List.append_nil]
          exact List.perm_append_singleton _ _
        refine ⟨h.of_perm hperm rfl (fun hn => by cases hn) (fun a ha => ?_), hperm, rfl,
          fun a ha => by cases ha⟩
        have hac : a = chk := by simpa [hchks] using ha
        show ChunkInfo.Whole (Function.update (Function.update s.mem chk _) chk c a)
        rw [hac, Function.update_self]
        exact hwhole

/-- A chunk goes back to the free ones, and the next one takes the place of the current one. -/
lemma recycle_eq (hfd : s.sock.mFd.isSome = true) {pevt next : Option Nat}
    (hs : s.recycle chk pevt = some (next, t)) :
    ∃ k, t = { s with
        sock := k
        mFreeChks := s.mFreeChks ++ [chk]
        mCurChk := s.mChks.head?
        mChks := s.mChks.tail } ∧ next = s.mChks.head? ∧
      (k = s.sock ∨ s.sock.changeEvent ⟨true, false, false⟩ pevt = some k) := by
  unfold EdSocketChannel.recycle at hs
  rw [if_pos hfd] at hs
  dsimp only at hs
  cases hchks : s.mChks with
  | cons c chks =>
    simp only [hchks, Option.some.injEq] at hs
    cases hs
    exact ⟨_, rfl, rfl, .inl rfl⟩
  | nil =>
    simp only [hchks] at hs
    obtain ⟨k, hk, heq⟩ := Option.map_eq_some_iff.mp hs
    cases heq
    exact ⟨k, rfl, rfl, .inr hk⟩

/-- The chunk is the current one or not listed. -/
lemma Sound.recycle (h : s.Sound) (hcur : s.mCurChk = some cur) (c : ChunkInfo)
    (hchk : chk ∉ s.mFreeChks ++ s.mChks) (hlt : chk < s.chunks) (k : EdSocket) :
    Sound { s with
      sock := k
      mem := Function.update s.mem cur c
      mFreeChks := s.mFreeChks ++ [chk]
      mCurChk := s.mChks.head?
      mChks := s.mChks.tail } := by
  have hnodup := h.nodup
  rw [listed, hcur, Option.toList_some, List.singleton_append, List.nodup_middle,
    List.nodup_cons] at hnodup
  have htail : s.mChks.head?.toList ++ s.mChks.tail = s.mChks := by
    cases s.mChks <;> rfl
  have hperm : (s.mFreeChks ++ [chk] ++ (s.mChks.head?.toList ++ s.mChks.tail)).Perm
      (chk :: (s.mFreeChks ++ s.mChks)) := by
    rw [htail, List.append_assoc]
    exact List.perm_middle
  constructor
  · exact hperm.nodup_iff.mpr (List.nodup_cons.mpr ⟨hchk, hnodup.2⟩)
  · intro a ha
    rcases List.mem_cons.mp (hperm.mem_iff.mp ha) with rfl | ha
    · exact hlt
    · refine h.bound a ?_
      rw [listed, hcur, Option.toList_some, List.singleton_append]
      exact (List.perm_middle.mem_iff).mpr (List.mem_cons_of_mem _ ha)
  · intro hn
    rw [List.head?_eq_none_iff] at hn
    show s.mChks.tail = []
    rw [hn]
    rfl
  · intro a ha
    have ha' : a ∈ s.mChks := by rwa [htail] at ha
    have hne : a ≠ cur := by
      rintro rfl
      exact hnodup.1 (List.mem_append_right _ ha')
    show (Function.update s.mem cur c a).Whole
    rw [Function.update_of_ne hne]
    exact h.data a (List.mem_append_right _ ha')

end EdSocketChannel

namespace ChannelTask

/-- The chunk that `OnWrite` goes on with is the current one, or one that `closeChannel` has
deleted. -/
structure Sound (s : ChannelTask) : Prop where
  chan : s.chan.Sound
  next : ∀ a, s.pc.next = some a →
    s.chan.mCurChk = some a ∨ a ∉ s.chan.listed ∧ a < s.chan.chunks

variable {s t : ChannelTask} {a : ChannelAction}

lemma Sound.withSock (h : s.Sound) (k : EdSocket) : (s.withSock k).Sound :=
  ⟨h.chan.withSock k, h.next⟩

lemma Sound.init (h : s.Sound) (maxchk : Nat) :
    Sound { s with chan := s.chan.init maxchk } := by
  refine ⟨h.chan.init maxchk, fun a ha => ?_⟩
  rcases h.next a ha with hcur | ⟨hnot, hlt⟩
  · exact .inl hcur
  · refine .inr ⟨fun hm => ?_, Nat.lt_add_right _ hlt⟩
    simp only [EdSocketChannel.init, EdSocketChannel.listed, List.append_assoc, List.mem_append,
      List.mem_map] at hm hnot
    rcases hm with hm | ⟨i, -, rfl⟩ | hm
    · exact hnot (.inl hm)
    · omega
    · exact hnot (.inr hm)

lemma Sound.closeChannel (h : s.Sound) : Sound { s with chan := s.chan.closeChannel } := by
  refine ⟨.closeChannel _, fun a ha => .inr ⟨by simp [EdSocketChannel.closeChannel,
    EdSocketChannel.listed], ?_⟩⟩
  rcases h.next a ha with hcur | ⟨-, hlt⟩
  · exact h.chan.bound a (by simp [EdSocketChannel.listed, hcur])
  · exact hlt

lemma Sound.sendPacket (h : s.Sound) {buf taken : List UInt8} {user : Nat} {takebuf : Bool}
    {r : WriteResult} {pevt : Option Nat} {ret : SendRet} {c : EdSocketChannel}
    (hs : s.chan.sendPacket buf user takebuf r pevt = some (ret, taken, c)) :
    Sound { s with chan := c } := by
  obtain ⟨hc, hperm, hchunks, hcur⟩ := h.chan.sendPacket hs
  refine ⟨hc, fun a ha => ?_⟩
  rcases h.next a ha with hnext | ⟨hnot, hlt⟩
  · exact .inl (hcur a hnext)
  · exact .inr ⟨fun hm => hnot (hperm.mem_iff.mp hm), hchunks ▸ hlt⟩

lemma Sound.txRound (h : s.Sound) {r : WriteResult} {pevt : Option Nat} {taken : List UInt8}
    (hw : s.writes r = true) (hs : s.txRound r pevt = some (taken, t)) : t.Sound := by
  unfold ChannelTask.txRound at hs
  split at hs
  · rename_i chk hpc
    cases hcur : s.chan.mCurChk with
    | none => simp [EdSocketChannel.tx, hcur] at hs
    | some cur =>
      have hin : cur ∈ s.chan.mCurChk.toList ++ s.chan.mChks := by simp [hcur]
      obtain ⟨ret, bytes, c, htx, -, hcase⟩ :=
        EdSocketChannel.tx_spec hcur (h.chan.data cur hin) r
      rw [htx, Option.bind_some] at hs
      dsimp only at hs
      rcases hcase with ⟨rfl, -⟩ | ⟨rfl, hwhole, -⟩
      · rw [if_pos rfl] at hs
        obtain ⟨⟨next, u⟩, hu, heq⟩ := Option.map_eq_some_iff.mp hs
        cases heq
        have hfd : s.chan.sock.mFd.isSome = true := by
          by_contra hnone
          have hr : r = .error := by simpa [writes, hnone] using hw
          rw [hr, EdSocketChannel.tx_error hcur] at htx
          cases htx
        obtain ⟨k, rfl, rfl, -⟩ := EdSocketChannel.recycle_eq
          (s := { s.chan with mem := Function.update s.chan.mem cur c }) hfd hu
        obtain ⟨hchk, hlt⟩ : chk ∉ s.chan.mFreeChks ++ s.chan.mChks ∧ chk < s.chan.chunks := by
          rcases h.next chk (by rw [hpc]; rfl) with hnext | ⟨hnot, hlt⟩
          · have hnodup := h.chan.nodup
            rw [EdSocketChannel.listed, hnext, Option.toList_some, List.singleton_append,
              List.nodup_middle, List.nodup_cons] at hnodup
            exact ⟨hnodup.1, h.chan.bound chk (by simp [EdSocketChannel.listed, hnext])⟩
          · refine ⟨fun hm => hnot ?_, hlt⟩
            rcases List.mem_append.mp hm with hm | hm
            · exact List.mem_append_left _ hm
            · exact List.mem_append_right _ (List.mem_append_right _ hm)
        exact ⟨h.chan.recycle hcur c hchk hlt k, fun a ha => .inl ha⟩
      · rw [if_neg (by decide)] at hs
        cases hs
        refine ⟨⟨h.chan.nodup, h.chan.bound, h.chan.queue, fun a ha => ?_⟩,
          fun a ha => by cases ha⟩
        show (Function.update s.chan.mem cur c a).Whole
        by_cases hac : a = cur
        · rw [hac, Function.update_self]
          exact hwhole
        · rw [Function.update_of_ne hac]
          exact h.chan.data a ha
  · cases hs

lemma Sound.step (h : s.Sound) (hs : s.step a = some t) : t.Sound := by
  cases step_effect hs with
  | init => exact h.init _
  | openSock => exact h.withSock _
  | openChildSock | bindSock | listenSock | connectIp | connectAddr | completeConnection =>
    exact h.withSock _
  | closeChannel => exact h.closeChannel
  | sendPacket _ sent => exact h.sendPacket sent
  | tx writes round => exact h.txRound writes round
  | handler chan next =>
    obtain ⟨hc, hcur, hlisted, hchunks⟩ : t.chan.Sound ∧ t.chan.mCurChk = s.chan.mCurChk ∧
        t.chan.listed = s.chan.listed ∧ t.chan.chunks = s.chan.chunks := by
      rcases chan with hchan | hchan
      · rw [hchan]
        exact ⟨h.chan, rfl, rfl, rfl⟩
      · rw [hchan]
        exact ⟨h.chan.withSock _, rfl, rfl, rfl⟩
    refine ⟨hc, fun a ha => ?_⟩
    rw [hcur, hlisted, hchunks]
    rcases next with hnext | hnext | hnext
    · rw [hnext] at ha
      cases ha
    · exact h.next a (hnext ▸ ha)
    · exact .inl (hnext.symm.trans ha)

/-- The chunks are in order in every run. -/
theorem sound_reachable (h : channelTask.Reachable s) : s.Sound := by
  refine h.invariant (I := Sound) ?_ (fun _ _ _ _ hI _ hs => hI.step hs)
  rintro s rfl
  constructor
  · constructor <;> simp [new, EdSocketChannel.new, EdSocketChannel.listed]
  · intro a ha
    cases ha

end ChannelTask

end EdNio.Net
