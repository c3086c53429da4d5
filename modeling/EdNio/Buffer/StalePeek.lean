import EdNio.Buffer.RingQue
import EdNio.Library.Transition

/-!
# Peeking on after bytes were taken

`get` does not touch the position at which `peekNext` goes on. Once more bytes have been
taken than the walk has passed, that position lies behind the queue: `peekNext` returns bytes
that were taken already, or what `put` has written over them.
-/

namespace EdNio.Buffer
open MachineInt Memory Transition

/-- A call with any size. -/
inductive RingCall
  | put (buf : List UInt8)
  | get (buf : Bool) (size : Int)
  | peek (buf : Bool) (size : Int)
  | peekNext (buf : Bool) (size : Int)
deriving DecidableEq, Repr

/-- The queue with all bytes it has accepted, the number of those that `get` has taken, and
how many of them the walk of the last `peek` has come past. -/
structure WalkedQue where
  que : EdRingQue
  accepted : List UInt8
  taken : Nat
  walked : Nat

namespace WalkedQue

variable (t : WalkedQue)

def step : RingCall → Option WalkedQue
  | .put buf =>
    (t.que.put buf).map (fun (ret, que) =>
      { t with que := que, accepted := t.accepted ++ buf.take ret.toNat })
  | .get buf size =>
    (t.que.get buf size).map (fun ((ret, _), que) =>
      { t with que := que, taken := t.taken + ret.toNat })
  | .peek buf size =>
    (t.que.peek buf size).map (fun ((ret, _), que) =>
      { t with que := que, walked := t.taken + ret.toNat })
  | .peekNext buf size =>
    (t.que.peekNext buf size).map (fun ((ret, _), que) =>
      { t with que := que, walked := t.walked + ret.toNat })

/-- The size of the call is not negative, and the index it computes is an `int`. -/
def InRange : RingCall → Prop
  | .put _ => True
  | .get _ size | .peek _ size =>
    0 ≤ size ∧ t.que.mReadPos + min size t.que.mDataSize < 2 ^ 31
  | .peekNext _ size =>
    0 ≤ size ∧ t.que.mLastPeekPos + min size t.que.mLastPeekDataSize < 2 ^ 31

instance (c : RingCall) : Decidable (t.InRange c) :=
  match c with
  | .put _ => .isTrue trivial
  | .get _ _ | .peek _ _ | .peekNext _ _ => inferInstanceAs (Decidable (_ ∧ _))

/-- `peekNext` returns bytes that are unread, from the position of the walk on. -/
def NextUnread (buf : Bool) (size : Int) : Prop :=
  ∃ ret out que, t.que.peekNext buf size = some ((ret, out), que) ∧
    ∀ j b, out[j]? = some b → t.taken ≤ t.walked + j ∧ t.accepted[t.walked + j]? = some b

/-- `get` has not taken more than the walk has passed, or no byte is asked for or left. -/
def NotOvertaken (buf : Bool) (size : Int) : Prop :=
  buf = false ∨
    0 ≤ size ∧ (size = 0 ∨ t.que.mLastPeekDataSize = 0 ∨ t.taken ≤ t.walked)

end WalkedQue

/-- All runs on a new queue of `bufsize` bytes. -/
def walkedQue (bufsize : Int) (junk : Nat → UInt8) : System WalkedQue RingCall where
  init t := t = ⟨.new bufsize junk, [], 0, 0⟩
  step := WalkedQue.step

namespace WalkedQue

variable {cap : Nat} {t u : WalkedQue} {s : BoundedFifo UInt8 cap} {k : Nat}

/-- The positions of the queue are those of the bytes in the stream, modulo its size. -/
structure Tracks (t : WalkedQue) (s : BoundedFifo UInt8 cap) (k : Nat) : Prop where
  holds : t.que.Holds s (t.taken % cap) (t.walked % cap) k
  items : s.items = t.accepted.drop t.taken
  taken : t.taken ≤ t.accepted.length
  walked : t.walked + k ≤ t.accepted.length

lemma Tracks.length (h : t.Tracks s k) : t.taken + s.items.length = t.accepted.length := by
  rw [h.items, List.length_drop, Nat.add_sub_cancel' h.taken]

lemma Tracks.new (junk : Nat → UInt8) (h : 0 < cap) :
    (⟨.new cap junk, [], 0, 0⟩ : WalkedQue).Tracks (BoundedFifo.empty : BoundedFifo UInt8 cap) 0 :=
  ⟨by simpa using EdRingQue.Holds.new junk h, rfl, Nat.le_refl _, Nat.le_refl _⟩

lemma Tracks.put (h : t.Tracks s k) (hcap : cap < 2 ^ 31) {buf : List UInt8}
    (hu : t.step (.put buf) = some u) : ∃ s' : BoundedFifo UInt8 cap, u.Tracks s' k := by
  obtain ⟨q, hq, hh⟩ := h.holds.put hcap buf
  simp only [step, hq, Option.map_some, Option.some.injEq, Int.toNat_natCast] at hu
  subst hu
  have htake : buf.take s.free = buf.take (min buf.length s.free) := by
    rw [Nat.min_comm, ← List.take_eq_take_min]
  have hw := h.walked
  refine ⟨s.put buf, hh, ?_, ?_, ?_⟩
  · rw [BoundedFifo.items_put, h.items, htake, List.drop_append_of_le_length h.taken]
  · exact Nat.le_trans h.taken (by simp)
  · simp only [List.length_append]
    omega

lemma Tracks.get (h : t.Tracks s k) (hcap : cap < 2 ^ 31) {buf : Bool} {size : Nat}
    (hok : t.InRange (.get buf size)) (hu : t.step (.get buf size) = some u) :
    ∃ s' : BoundedFifo UInt8 cap, u.Tracks s' k := by
  have hfit : t.taken % cap + min size s.items.length < 2 ^ 31 := by
    have hsum := hok.2
    rw [h.holds.readPos, h.holds.dataSize] at hsum
    omega
  obtain ⟨q, hq, hh⟩ := h.holds.get hcap buf hfit
  simp only [step, hq, Option.map_some, Option.some.injEq, Int.toNat_natCast] at hu
  subst hu
  rw [Nat.mod_add_mod] at hh
  have hlen := h.length
  have hdrop : (t.accepted.drop t.taken).drop size =
      t.accepted.drop (t.taken + min size s.items.length) := by
    rw [List.drop_drop]
    rcases Nat.le_total size s.items.length with hle | hle
    · rw [Nat.min_eq_left hle]
    · rw [Nat.min_eq_right hle, hlen, List.drop_length, List.drop_of_length_le (by omega)]
  refine ⟨s.get size, hh, ?_, ?_, h.walked⟩
  · rw [BoundedFifo.items_get, ← hdrop, h.items]
  · simp only
    omega

lemma Tracks.peek (h : t.Tracks s k) (hcap : cap < 2 ^ 31) {buf : Bool} {size : Nat}
    (hok : t.InRange (.peek buf size)) (hu : t.step (.peek buf size) = some u) :
    ∃ (s' : BoundedFifo UInt8 cap) (k' : Nat), u.Tracks s' k' := by
  have hfit : t.taken % cap + min size s.items.length < 2 ^ 31 := by
    have hsum := hok.2
    rw [h.holds.readPos, h.holds.dataSize] at hsum
    omega
  obtain ⟨q, hq, hh⟩ := h.holds.peek hcap buf hfit
  simp only [step, hq, Option.map_some, Option.some.injEq, Int.toNat_natCast] at hu
  subst hu
  rw [Nat.mod_add_mod] at hh
  have hlen := h.length
  refine ⟨s.peek size, s.items.length - size, hh, h.items, h.taken, ?_⟩
  simp only
  omega

lemma Tracks.peekNext (h : t.Tracks s k) (hcap : cap < 2 ^ 31) {buf : Bool} {size : Nat}
    (hok : t.InRange (.peekNext buf size)) (hu : t.step (.peekNext buf size) = some u) :
    ∃ (s' : BoundedFifo UInt8 cap) (k' : Nat), u.Tracks s' k' := by
  have hfit : t.walked % cap + min size k < 2 ^ 31 := by
    have hsum := hok.2
    rw [h.holds.lastPeekPos, h.holds.lastPeekDataSize] at hsum
    omega
  obtain ⟨q, hq, hh⟩ := h.holds.peekNext hcap buf hfit
  simp only [step, hq, Option.map_some, Option.some.injEq, Int.toNat_natCast] at hu
  subst hu
  rw [Nat.mod_add_mod] at hh
  have hw := h.walked
  refine ⟨s.peekNext size, k - size, hh, h.items, h.taken, ?_⟩
  simp only
  omega

lemma Tracks.step (h : t.Tracks s k) (hcap : cap < 2 ^ 31) {c : RingCall} (hok : t.InRange c)
    (hu : t.step c = some u) : ∃ (s' : BoundedFifo UInt8 cap) (k' : Nat), u.Tracks s' k' := by
  cases c with
  | put buf =>
    obtain ⟨s', h'⟩ := h.put hcap hu
    exact ⟨s', k, h'⟩
  | get buf size =>
    obtain ⟨size, rfl⟩ := Int.eq_ofNat_of_zero_le hok.1
    obtain ⟨s', h'⟩ := h.get hcap hok hu
    exact ⟨s', k, h'⟩
  | peek buf size =>
    obtain ⟨size, rfl⟩ := Int.eq_ofNat_of_zero_le hok.1
    exact h.peek hcap hok hu
  | peekNext buf size =>
    obtain ⟨size, rfl⟩ := Int.eq_ofNat_of_zero_le hok.1
    exact h.peekNext hcap hok hu

lemma Tracks.reaches {junk : Nat → UInt8} (hcap : 1 ≤ cap) (hcap' : cap < 2 ^ 31)
    (ht : (walkedQue cap junk).Reaches InRange t) :
    ∃ (s : BoundedFifo UInt8 cap) (k : Nat), t.Tracks s k := by
  refine ht.invariant (I := fun t => ∃ (s : BoundedFifo UInt8 cap) (k : Nat), t.Tracks s k) ?_ ?_
  · rintro t rfl
    exact ⟨BoundedFifo.empty, 0, Tracks.new junk hcap⟩
  · rintro t c u - ⟨s, k, h⟩ hok hu
    exact h.step hcap' hok hu

end WalkedQue

namespace EdRingQue

variable {cap : Nat} {q : EdRingQue} {s : BoundedFifo UInt8 cap} {r p k : Nat}

/-- Without a buffer `peekNext` returns no bytes, whatever the size. -/
lemma Holds.peekNext_null (h : q.Holds s r p k) (size : Int) :
    ∃ ret q', q.peekNext false size = some ((ret, []), q') := by
  have hne : ¬ cap = 0 := Nat.ne_of_gt (Nat.zero_lt_of_lt h.r_lt)
  simp [EdRingQue.peekNext, EdRingQue.readPos, copyOut, wrap, h.bufSize, hne]

lemma Holds.peekNext_neg (h : q.Holds s r p k) {size : Int} (hneg : size < 0) :
    q.peekNext true size = none := by
  have hlt : size < q.mLastPeekDataSize := by
    rw [h.lastPeekDataSize]
    omega
  have hc : ESMIN size (toI32 (q.mBufSize - q.mLastPeekPos)) < 0 := by
    unfold ESMIN
    split <;> omega
  have hmin : ESMIN size q.mLastPeekDataSize = size := if_pos hlt
  have hcopy : q.copyOut true q.mLastPeekPos
      (ESMIN size (toI32 (q.mBufSize - q.mLastPeekPos))) = none := by
    rw [copyOut, if_pos rfl, Block.load, if_neg (by omega)]
  simp only [EdRingQue.peekNext, EdRingQue.readPos, hmin, hcopy, Option.bind_none]

lemma Holds.peekNext_out (h : q.Holds s r p k) (hcap : cap < 2 ^ 31) (size : Nat) :
    ∃ q', q.peekNext true size = some ((((min size k : Nat) : Int),
      Circular.window cap q.mBuf.byte p (min size k)), q') := by
  have hne : ¬ cap = 0 := Nat.ne_of_gt (Nat.zero_lt_of_lt h.r_lt)
  unfold EdRingQue.peekNext
  rw [h.lastPeekPos, h.lastPeekDataSize, readPos_eq hcap h.bufSize h.block h.p_lt h.k_le]
  simp [wrap, h.bufSize, hne]

end EdRingQue

namespace WalkedQue

variable {cap : Nat} {t : WalkedQue} {s : BoundedFifo UInt8 cap} {k : Nat}

/-- The bytes from the position of the walk on, when none of them has been taken. -/
lemma Tracks.window (h : t.Tracks s k) (hle : t.taken ≤ t.walked) {n : Nat} (hn : n ≤ k) :
    Circular.window cap t.que.mBuf.byte (t.walked % cap) n = (t.accepted.drop t.walked).take n := by
  have hw := h.walked
  have hlen := h.length
  obtain ⟨d, hd⟩ := Nat.exists_eq_add_of_le hle
  have hfront : Circular.window cap t.que.mBuf.byte (t.walked % cap) (s.items.length - d) =
      t.accepted.drop t.walked := by
    rw [Circular.window_mod, hd, ← List.drop_drop, ← h.items, ← h.holds.items,
      Circular.drop_window _ (by omega), h.holds.items]
    rw [← Circular.window_mod, ← Nat.mod_add_mod, Circular.window_mod]
  rw [← hfront, Circular.take_window, Nat.min_eq_left (by omega)]

lemma Tracks.nextUnread_iff (h : t.Tracks s k) (hcap : cap < 2 ^ 31) (size : Nat) :
    t.NextUnread true size ↔ size = 0 ∨ k = 0 ∨ t.taken ≤ t.walked := by
  obtain ⟨q', hq⟩ := h.holds.peekNext_out hcap size
  constructor
  · rintro ⟨ret, out, que, hnext, hunread⟩
    rw [hq] at hnext
    obtain ⟨⟨-, rfl⟩, -⟩ := Prod.ext_iff.mp (Option.some.inj hnext)
    by_cases hzero : size = 0 ∨ k = 0
    · exact hzero.imp_right .inl
    · obtain ⟨n, hn⟩ := Nat.exists_eq_add_of_lt (show 0 < min size k by omega)
      rw [hn, Nat.zero_add, Nat.add_comm n, Circular.window_add] at hunread
      exact .inr (.inr (hunread 0 _ rfl).1)
  · intro hc
    refine ⟨_, _, q', hq, fun j b hb => ?_⟩
    -- a byte is returned, so the walk has not been overtaken
    obtain ⟨hj, -⟩ := List.getElem?_eq_some_iff.mp hb
    rw [Circular.length_window] at hj
    have hle : t.taken ≤ t.walked := by omega
    refine ⟨by omega, ?_⟩
    rw [h.window hle (Nat.min_le_right _ _), List.getElem?_take_of_lt hj, List.getElem?_drop] at hb
    exact hb

lemma Tracks.nextUnread_null (h : t.Tracks s k) (size : Int) : t.NextUnread false size := by
  obtain ⟨ret, q', hq⟩ := h.holds.peekNext_null size
  refine ⟨ret, [], q', hq, fun j b hb => ?_⟩
  rw [List.getElem?_nil] at hb
  cases hb

lemma Tracks.not_nextUnread_neg (h : t.Tracks s k) {size : Int} (hneg : size < 0) :
    ¬ t.NextUnread true size := by
  rintro ⟨ret, out, que, hnext, -⟩
  rw [h.holds.peekNext_neg hneg] at hnext
  cases hnext

lemma Tracks.nextUnread_iff_notOvertaken (h : t.Tracks s k) (hcap : cap < 2 ^ 31) (buf : Bool)
    (size : Int) : t.NextUnread buf size ↔ t.NotOvertaken buf size := by
  cases buf with
  | false => exact ⟨fun _ => .inl rfl, fun _ => h.nextUnread_null size⟩
  | true =>
    have hsub : t.NotOvertaken true size ↔
        0 ≤ size ∧ (size = 0 ∨ t.que.mLastPeekDataSize = 0 ∨ t.taken ≤ t.walked) := by
      simp [NotOvertaken]
    rw [hsub, h.holds.lastPeekDataSize]
    by_cases hsize : 0 ≤ size
    · obtain ⟨size, rfl⟩ := Int.eq_ofNat_of_zero_le hsize
      rw [h.nextUnread_iff hcap]
      omega
    · exact ⟨fun hn => absurd hn (h.not_nextUnread_neg (by omega)), fun hc => absurd hc.1 hsize⟩

/-- In a buffer of at most 2^30 bytes every size that is not negative is in range. -/
lemma Tracks.inRange (h : t.Tracks s k) (hcap : cap ≤ 2 ^ 30) (buf : Bool) {size : Int}
    (hsize : 0 ≤ size) : t.InRange (.get buf size) ∧ t.InRange (.peek buf size) ∧
      t.InRange (.peekNext buf size) := by
  have hb := s.bounded
  have hr := h.holds.r_lt
  have hp := h.holds.p_lt
  have hk := h.holds.k_le
  simp only [InRange, h.holds.readPos, h.holds.dataSize, h.holds.lastPeekPos,
    h.holds.lastPeekDataSize]
  omega

/-- After every run in which no size is negative and no index leaves the range of `int`,
`peekNext` returns only unread bytes from the position of the walk on if and only if the walk
has not been overtaken, or there are no bytes to return. -/
theorem peekNext_unread_iff {B : Nat} (hB : 1 ≤ B) (hB' : B < 2 ^ 31) (junk : Nat → UInt8)
    {t : WalkedQue} (ht : (walkedQue B junk).Reaches InRange t) (buf : Bool) (size : Int) :
    t.NextUnread buf size ↔ t.NotOvertaken buf size := by
  obtain ⟨s, k, h⟩ := Tracks.reaches hB hB' ht
  exact h.nextUnread_iff_notOvertaken hB' buf size

lemma exists_reaches {β : Type} {B : Nat} {j : Nat → UInt8} {l : List RingCall}
    {f : WalkedQue → β} {b : β}
    (h : (((walkedQue B j).restrict (fun t c => decide (t.InRange c))).exec
      ⟨.new B j, [], 0, 0⟩ l).map f = some b) :
    ∃ t, (walkedQue B j).Reaches InRange t ∧ f t = b := by
  obtain ⟨t, ht, hb⟩ := System.exists_of_exec_restrict (M := walkedQue B j) rfl h
  exact ⟨t, ht.mono (fun _ _ hok => of_decide_eq_true hok), hb⟩

/-- The walk goes on from the first byte that was not taken. -/
theorem peekNext_unread_iff_caughtUp : ∃ t,
    (walkedQue 4 (fun _ => 0)).Reaches InRange t ∧ t.taken = 1 ∧ t.NextUnread true 2 := by
  obtain ⟨t, ht, hobs⟩ := exists_reaches (B := 4) (j := fun _ => 0)
    (l := [.put [1, 2, 3], .peek true 1, .get true 1]) (f := fun t => (t.taken, t.walked))
    (b := (1, 1)) (by decide +kernel)
  obtain ⟨htaken, hwalked⟩ := Prod.mk.inj hobs
  refine ⟨t, ht, htaken, ?_⟩
  apply (peekNext_unread_iff (B := 4) (by decide) (by decide) (fun _ => 0) ht true 2).mpr
  exact .inr ⟨by decide, .inr (.inr (by omega))⟩

/-- Two bytes are taken after one was peeked: `peekNext` returns the second of them again. -/
theorem not_peekNext_unread : ¬ ∀ (B : Nat) (t : WalkedQue),
    (walkedQue B (fun _ => 0)).Reaches InRange t → ∀ size : Nat, t.NextUnread true size := by
  intro h
  obtain ⟨t, ht, hobs⟩ := exists_reaches (B := 4) (j := fun _ => 0)
    (l := [.put [1, 2, 3], .peek true 1, .get true 2])
    (f := fun t => (t.taken, t.walked, (t.que.peekNext true 2).map Prod.fst))
    (b := (2, 1, some (2, [2, 3]))) (by decide +kernel)
  obtain ⟨htaken, hobs⟩ := Prod.mk.inj hobs
  obtain ⟨hwalked, hout⟩ := Prod.mk.inj hobs
  obtain ⟨ret, out, que, hnext, hunread⟩ := h 4 t ht 2
  have hnext' : t.que.peekNext true 2 = some ((ret, out), que) := hnext
  rw [hnext', Option.map_some, Option.some.injEq, Prod.mk.injEq] at hout
  have hfirst := (hunread 0 2 (by rw [hout.2]; rfl)).1
  omega

end WalkedQue

end EdNio.Buffer
