import EdNio.Net.SmartSSL

/-!
# What a session with SSL writes

The packet of a smart socket in `SOCKET_SSL` mode, and what each step of a session does to it:
`sendPacket` makes the first call of `SSL_write` for it, and the write handler all others.
-/

namespace EdNio.Net
open SocketObj

namespace SmartSSL

variable {s t u : SmartSSL} {a : Answers}

/-- What a session has to write, what it has written, and the pointers it needs for it. -/
structure Outgoing where
  writes : List (List UInt8)
  mPendingBuf : Option (List UInt8)
  mPendingSize : Nat
  mPendingWriteCnt : Nat
  mSSL : Bool
  mSSLCtx : Bool

namespace Outgoing

variable (o : Outgoing)

/-- What the write handler gives to `SSL_write`. -/
def rest : List UInt8 :=
  ((o.mPendingBuf.getD []).drop o.mPendingWriteCnt).take (o.mPendingSize - o.mPendingWriteCnt)

def free : Outgoing :=
  { o with mPendingBuf := none, mPendingSize := 0, mPendingWriteCnt := 0 }

/-- The first call for the packet `buf`. -/
def send (buf : List UInt8) (r : Int) : Outgoing :=
  let o : Outgoing := { o with
    writes := o.writes ++ [buf]
    mPendingBuf := some buf
    mPendingSize := buf.length
    mPendingWriteCnt := 0 }
  if r = buf.length then o.free else o

/-- A call of the write handler. -/
def retry (r : Int) : Outgoing :=
  let o : Outgoing := { o with
    writes := o.writes ++ [o.rest]
    mPendingWriteCnt := o.mPendingWriteCnt + r.toNat }
  if 0 < r ∧ o.mPendingWriteCnt = o.mPendingSize then o.free else o

variable {o} {r : Int}

lemma writes_send (o : Outgoing) (buf : List UInt8) (r : Int) :
    (o.send buf r).writes = o.writes ++ [buf] := by
  unfold send
  dsimp only
  split <;> rfl

lemma writes_retry (o : Outgoing) (r : Int) : (o.retry r).writes = o.writes ++ [o.rest] := by
  unfold retry
  dsimp only
  split <;> rfl

lemma mSSL_send (o : Outgoing) (buf : List UInt8) (r : Int) : (o.send buf r).mSSL = o.mSSL := by
  unfold send
  dsimp only
  split <;> rfl

lemma mSSL_retry (o : Outgoing) (r : Int) : (o.retry r).mSSL = o.mSSL := by
  unfold retry
  dsimp only
  split <;> rfl

/-- `mPendingSize` is the size of the packet. -/
def Sized (o : Outgoing) : Prop :=
  ∀ p, o.mPendingBuf = some p → o.mPendingSize = p.length

lemma sized_send (o : Outgoing) (buf : List UInt8) (r : Int) : (o.send buf r).Sized := by
  intro p hp
  unfold send at hp ⊢
  dsimp only at hp ⊢
  split at hp
  · cases hp
  · rename_i hall
    rw [if_neg hall]
    cases hp
    rfl

lemma Sized.retry (h : o.Sized) (r : Int) : (o.retry r).Sized := by
  intro p hp
  unfold Outgoing.retry at hp ⊢
  dsimp only at hp ⊢
  split at hp
  · cases hp
  · rename_i hall
    rw [if_neg hall]
    exact h p hp

/-- A packet of which nothing was written stays. -/
lemma isSome_retry (h : o.mPendingBuf.isSome = true) (hr : r ≤ 0) :
    (o.retry r).mPendingBuf.isSome = true := by
  unfold retry
  dsimp only
  rw [if_neg (fun hall => by omega)]
  exact h

lemma isSome_send (o : Outgoing) {buf : List UInt8} (hr : r ≠ buf.length) :
    (o.send buf r).mPendingBuf.isSome = true := by
  unfold send
  dsimp only
  rw [if_neg hr]
  rfl

lemma rest_of_none (h : o.mPendingBuf = none) : o.rest = [] := by
  simp [rest, h]

lemma rest_free (o : Outgoing) : o.free.rest = [] :=
  rest_of_none rfl

lemma rest_send (o : Outgoing) (buf : List UInt8) (r : Int) :
    (o.send buf r).rest = if r = buf.length then [] else buf := by
  unfold send
  dsimp only
  split
  · exact rest_free _
  · simp [rest]

/-- The write handler goes on behind what has been taken. -/
lemma Sized.rest_retry (h : o.Sized) (hsome : o.mPendingBuf.isSome = true) (r : Int) :
    (o.retry r).rest = o.rest.drop r.toNat := by
  obtain ⟨p, hp⟩ := Option.isSome_iff_exists.mp hsome
  unfold Outgoing.retry
  dsimp only
  split
  · rename_i hall
    refine (rest_free _).trans (List.drop_eq_nil_of_le ?_).symm
    have hlength : o.rest.length = o.mPendingSize - o.mPendingWriteCnt := by
      simp [rest, hp, h p hp]
    omega
  · simp only [rest, List.drop_take, List.drop_drop, Nat.sub_sub]

end Outgoing

def outgoing (s : SmartSSL) : Outgoing :=
  ⟨s.own.writes, s.own.mPendingBuf, s.own.mPendingSize, s.own.mPendingWriteCnt, s.own.mSSL,
    s.own.mSSLCtx⟩

lemma changeEvent_outgoing {flags : Interest} {w : Watch} {pevt : Option Nat}
    (h : s.changeEvent flags w pevt = some t) : t.outgoing = s.outgoing := by
  obtain ⟨k, -, rfl⟩ := changeEvent_cases h
  rfl

lemma changeSSLSockEvent_outgoing {err : SSLError} {pevt : Option Nat}
    (h : s.changeSSLSockEvent err pevt = some t) : t.outgoing = s.outgoing := by
  unfold changeSSLSockEvent at h
  split at h
  · exact (changeEvent_outgoing h).trans rfl
  · exact (changeEvent_outgoing h).trans rfl
  · cases h
    rfl
  · cases h
    rfl

lemma procSSLConnect_outgoing (h : s.procSSLConnect a = some t) : t.outgoing = s.outgoing := by
  obtain ⟨-, h⟩ := Option.ite_none_right_eq_some.mp h
  refine SSLClass.procSSLConnect_keeps (I := fun t : SmartSSL => t.outgoing = s.outgoing) ?_ ?_
    changeSSLSockEvent_outgoing id rfl h
  · intro t ht
    obtain ⟨u, hu, rfl⟩ := Option.map_eq_some_iff.mp ht
    rw [setError_cases hu]
    rfl
  · intro u t hu ht
    rw [procSSLErrCloseNeedEnd_cases ht]
    exact hu

lemma fireRead_outgoing (h : s.fireRead a = some t) : t.outgoing = s.outgoing := by
  unfold fireRead procSSLRead at h
  split at h
  · exact (procSSLConnect_outgoing h).trans rfl
  · cases h
    rfl

lemma fireDisconnected_outgoing (s : SmartSSL) : s.fireDisconnected.outgoing = s.outgoing := by
  unfold fireDisconnected
  split <;> rfl

lemma recvPacket_outgoing (h : s.recvPacket a = some t) : t.outgoing = s.outgoing := by
  obtain ⟨-, h⟩ := Option.ite_none_right_eq_some.mp h
  refine SSLClass.recv_keeps (I := fun t : SmartSSL => t.outgoing = s.outgoing) ?_ id ?_ h
  · intro t ht
    exact (changeSSLSockEvent_outgoing ht).trans rfl
  · rfl

/-- From `s` to `t` nothing is written. The packet is kept unless the session ends, and a session
that has ended does not begin again. -/
structure Calm (s t : SmartSSL) : Prop where
  writes : t.own.writes = s.own.writes
  size : t.own.mPendingSize = s.own.mPendingSize
  count : t.own.mPendingWriteCnt = s.own.mPendingWriteCnt
  pending : t.own.mPendingBuf = s.own.mPendingBuf ∨ t.own.mPendingBuf = none
  kept : s.own.mSSL = true → t.own.mSSL = true → t.own.mPendingBuf = s.own.mPendingBuf
  begins : t.own.mSSL = true → s.own.mSSL = true ∨ s.own.mSSLCtx = true
  unborn : t.own.mSSL = false → t.own.mSSLCtx = true →
    s.own.mSSL = false ∧ s.own.mSSLCtx = true

lemma Calm.refl (s : SmartSSL) : Calm s s :=
  ⟨rfl, rfl, rfl, .inl rfl, fun _ _ => rfl, .inl, .intro⟩

lemma Calm.of_outgoing (h : Calm s t) (hu : u.outgoing = t.outgoing) : Calm s u := by
  simp only [outgoing, Outgoing.mk.injEq] at hu
  obtain ⟨h1, h2, h3, h4, h5, h6⟩ := hu
  refine ⟨h1.trans h.writes, h3.trans h.size, h4.trans h.count, ?_, ?_, ?_, ?_⟩
  · rw [h2]
    exact h.pending
  · rw [h2, h5]
    exact h.kept
  · rw [h5]
    exact h.begins
  · rw [h5, h6]
    exact h.unborn

lemma Calm.close (h : Calm s t) : Calm s t.close := by
  have hwrites : t.close.own = { (if t.own.mSSL then { t.own with
      mSSL := false, mSSLCtx := false, mSessionConencted := false } else t.own) with
      mPendingBuf := none } := by
    unfold EdNio.Net.SmartSSL.close
    dsimp only
    split <;> rfl
  cases hssl : t.own.mSSL with
  | true =>
    rw [hssl, if_pos rfl] at hwrites
    constructor <;> rw [hwrites]
    · exact h.writes
    · exact h.size
    · exact h.count
    · exact .inr rfl
    · exact fun _ hf => absurd hf Bool.false_ne_true
    · exact fun hf => absurd hf Bool.false_ne_true
    · exact fun _ hf => absurd hf Bool.false_ne_true
  | false =>
    rw [hssl, if_neg Bool.false_ne_true] at hwrites
    constructor <;> rw [hwrites]
    · exact h.writes
    · exact h.size
    · exact h.count
    · exact .inr rfl
    · exact fun _ hf => absurd (hssl.symm.trans hf) Bool.false_ne_true
    · exact h.begins
    · exact h.unborn

/-- The handshake begins a session where there was only its context. -/
lemma Calm.startHandshake (h : Calm s t) {k : EdSocket} {w : Watch}
    (hu : startHandshake { t with sock := k, setBy := w } a = some u) : Calm s u := by
  unfold EdNio.Net.SmartSSL.startHandshake at hu
  split at hu
  · rename_i hnew
    obtain ⟨hctx, hu⟩ := Option.ite_none_right_eq_some.mp hu
    have hnone := h.unborn hnew.1 hctx
    refine Calm.of_outgoing ?_ (procSSLConnect_outgoing hu)
    refine ⟨h.writes, h.size, h.count, h.pending, fun hs => ?_, fun _ => .inr hnone.2, fun hf => ?_⟩
    · exact absurd (hnone.1.symm.trans hs) Bool.false_ne_true
    · exact absurd hf.symm Bool.false_ne_true
  · cases hu
    exact h.of_outgoing rfl

/-- The functions of the class, but for the write handler. -/
def quietOverrides : Overrides SmartSSLFields NetEvent :=
  { overrides with OnWrite := fun s _ => some s }

lemma calm_keeps (s : SmartSSL) : quietOverrides.Keeps (Calm s) where
  stack _ h := h.of_outgoing rfl
  read h ht := h.of_outgoing (fireRead_outgoing ht)
  write h ht := Option.some.inj ht ▸ h
  connect h _ _ ht := h.startHandshake ht
  disconnect h := h.of_outgoing (fireDisconnected_outgoing _)
  closeSock h := h.of_outgoing rfl
  close h := h.close

/-- The task goes on without the write handler, or with it. -/
lemma next_cases (h : overrides.next s a = some t) :
    quietOverrides.next s a = some t ∨
      ∃ k : List (Frame NetEvent), fireWrite { s with stack := k } a = some t := by
  unfold Overrides.next at h ⊢
  cases hstack : s.stack with
  | nil =>
    rw [hstack] at h
    cases h
  | cons f k =>
    rw [hstack] at h
    dsimp only at h ⊢
    cases f with
    | listener e => exact .inl h
    | procSSLErrCloseNeedEnd => exact .inl h
    | OnRead => exact .inl h
    | OnDisconnected => exact .inl h
    | esMain id read hangup write =>
      rw [Overrides.resume] at h ⊢
      split at h
      · rename_i hid
        exact .inl ((if_pos hid).trans h)
      rename_i hid
      rw [if_neg hid]
      split at h
      · rename_i hread
        exact .inl ((if_pos hread).trans h)
      rename_i hread
      rw [if_neg hread]
      split at h
      · rename_i hhangup
        exact .inl ((if_pos hhangup).trans h)
      rename_i hhangup
      rw [if_neg hhangup]
      split at h
      · rename_i hwrite
        rw [if_pos hwrite]
        unfold Overrides.OnEventWrite at h ⊢
        split at h
        · rename_i hstatus
          exact .inl ((if_pos hstatus).trans h)
        · exact .inr ⟨k, h⟩
      · rename_i hwrite
        exact .inl ((if_neg hwrite).trans h)

lemma fireWrite_cases (h : s.fireWrite a = some t) : t.outgoing = s.outgoing ∨
    (s.own.mPendingBuf.isSome = true ∧ s.own.mSSL = true ∧
      t.outgoing = s.outgoing.retry a.ssl.ret) := by
  unfold fireWrite procSSLOnWrite at h
  split at h
  · exact .inl ((procSSLConnect_outgoing h).trans rfl)
  split at h
  · rename_i b hb
    obtain ⟨hssl, h⟩ := Option.ite_none_right_eq_some.mp h
    have hsome : s.own.mPendingBuf.isSome = true := Option.isSome_of_mem hb
    refine .inr ⟨hsome, hssl, ?_⟩
    dsimp only at h
    unfold Outgoing.retry
    dsimp only
    split at h
    · rename_i hret
      split at h
      · rename_i hall
        obtain ⟨u, hu, rfl⟩ := Option.map_eq_some_iff.mp h
        obtain ⟨k, -, rfl⟩ := changeEvent_cases hu
        rw [if_pos ⟨hret, hall⟩]
        rfl
      · rename_i hall
        cases h
        rw [if_neg (fun hr => hall hr.2)]
        rfl
    · rename_i hret
      have hzero : a.ssl.ret.toNat = 0 := by omega
      rw [if_neg (fun hr => hret hr.1), hzero]
      exact (changeSSLSockEvent_outgoing h).trans rfl
  · obtain ⟨u, hu, rfl⟩ := Option.map_eq_some_iff.mp h
    left
    split at hu
    · exact (changeEvent_outgoing hu).trans rfl
    · cases hu
      rfl

lemma sendPacket_cases {buf : List UInt8} {r : SendResult} (h : s.sendPacket buf a = some (r, t)) :
    (s.own.mPendingBuf.isSome = true ∧ t.outgoing = s.outgoing) ∨
      (s.own.mPendingBuf = none ∧ s.own.mSSL = true ∧
        t.outgoing = s.outgoing.send buf a.ssl.ret) := by
  unfold sendPacket at h
  dsimp only at h
  split at h
  · rename_i hsome
    cases h
    exact .inl ⟨hsome, rfl⟩
  rename_i hnone
  have hnone : s.own.mPendingBuf = none := by simpa [byUser] using hnone
  obtain ⟨hssl, h⟩ := Option.ite_none_right_eq_some.mp h
  refine .inr ⟨hnone, hssl, ?_⟩
  unfold Outgoing.send
  dsimp only
  split at h
  · rename_i hall
    cases h
    rw [if_pos hall]
    rfl
  rename_i hall
  rw [if_neg hall]
  split at h
  · obtain ⟨u, hu, heq⟩ := Option.map_eq_some_iff.mp h
    cases heq
    exact (changeSSLSockEvent_outgoing hu).trans rfl
  · cases h
    rfl

end SmartSSL

end EdNio.Net
