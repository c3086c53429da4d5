import EdNio.Net.SSLOutgoing
import EdNio.Net.SSLReading
import Mathlib.Algebra.Order.Ring.Nat
import Mathlib.Data.List.Chain

/-!
# The bytes of a session with SSL

Every call of `SSL_write` over a session, with the bytes it is given and what it answers.
`sendPacket` makes the first call for a packet, and the write handler all others. An answer that
writes nothing has the same bytes given again. What OpenSSL has taken is what was accepted,
except that a packet taken in part by its first call is given again from its beginning:
`mPendingWriteCnt` counts the write handler's calls only.
-/

namespace EdNio.Net
open Transition SocketObj

/-- A call of `SSL_write`; `first` says that it is the one of `sendPacket`. -/
structure SSLWrite where
  bytes : List UInt8
  ret : Int
  first : Bool
deriving DecidableEq, Repr

namespace SSLWrite

variable (c : SSLWrite)

/-- What OpenSSL has taken. -/
def taken : List UInt8 :=
  c.bytes.take c.ret.toNat

/-- Nothing was written, and it is to be called again. -/
def Failed : Prop :=
  c.ret ≤ 0 ∧ c.ret ≠ c.bytes.length

/-- `SSL_write` never writes more than it is given. -/
def Fits : Prop :=
  c.ret ≤ c.bytes.length

/-- After a call that has failed the same bytes are given again, by the write handler. -/
def Again (d : SSLWrite) : Prop :=
  c.Failed → d.bytes = c.bytes ∧ d.first = false

/-- The bytes of a packet that its first call wrote, when it did not write all. -/
def ahead : Nat :=
  if c.first ∧ c.ret ≠ c.bytes.length then c.ret.toNat else 0

/-- `sendPacket` has written a part of its packet. -/
def Partly : Prop :=
  c.first = true ∧ 0 < c.ret ∧ c.ret ≠ c.bytes.length

instance : Decidable c.Fits :=
  inferInstanceAs (Decidable (_ ≤ _))

variable {c} in
lemma ahead_eq_zero_iff : c.ahead = 0 ↔ ¬ c.Partly := by
  unfold ahead Partly
  split
  · rename_i hc
    rw [Int.toNat_eq_zero]
    constructor
    · intro hr hp
      exact absurd hp.2.1 (by omega)
    · intro hp
      by_contra hr
      exact hp ⟨hc.1, by omega, hc.2⟩
  · rename_i hc
    exact iff_of_true rfl (fun hp => hc ⟨hp.1, hp.2.2⟩)

end SSLWrite

/-- A session, with its calls of `SSL_write` and the bytes that `sendPacket` has accepted. -/
structure SSLStream where
  sock : SmartSSL
  calls : List SSLWrite
  accepted : List UInt8

namespace SmartSSLAction

/-- What `SSL_write` answers if the step calls it. -/
def ret : SmartSSLAction → Int
  | .call (.sendPacket _ a) | .next a => a.ssl.ret
  | _ => 0

def isSend : SmartSSLAction → Bool
  | .call (.sendPacket _ _) => true
  | _ => false

end SmartSSLAction

namespace SmartSSL

variable (s : SmartSSL)

/-- The packet, unless `sendPacket` gives `SEND_FAIL`. -/
def accepts : SmartSSLAction → List UInt8
  | .call (.sendPacket buf _) => if s.own.mPendingBuf.isSome then [] else buf
  | _ => []

end SmartSSL

namespace SSLStream

variable (x : SSLStream)

def step (a : SmartSSLAction) : Option SSLStream :=
  (x.sock.step a).map (fun t => {
    sock := t
    calls := x.calls ++ (t.own.writes.drop x.sock.own.writes.length).map (fun b =>
      ⟨b, a.ret, a.isSend⟩)
    accepted := x.accepted ++ x.sock.accepts a })

/-- What OpenSSL has taken so far. -/
def taken : List UInt8 :=
  x.calls.flatMap SSLWrite.taken

def ahead : Nat :=
  (x.calls.map SSLWrite.ahead).sum

end SSLStream

/-- All runs of a session, with its stream. -/
def sslStream : System SSLStream SmartSSLAction where
  init x := SmartSSL.Opened x.sock ∧ x.calls = [] ∧ x.accepted = []
  step := SSLStream.step

namespace SSLStream
open SmartSSL

variable {x y : SSLStream}

/-- What a step does to the stream. -/
inductive Moves (x y : SSLStream) : Prop
  | calm (h : Calm x.sock y.sock) (hcalls : y.calls = x.calls)
    (haccepted : y.accepted = x.accepted)
  | send (buf : List UInt8) (r : Int) (hnone : x.sock.own.mPendingBuf = none)
    (hssl : x.sock.own.mSSL = true) (ho : y.sock.outgoing = x.sock.outgoing.send buf r)
    (hcalls : y.calls = x.calls ++ [⟨buf, r, true⟩]) (haccepted : y.accepted = x.accepted ++ buf)
  | retry (r : Int) (hsome : x.sock.own.mPendingBuf.isSome = true)
    (hssl : x.sock.own.mSSL = true) (ho : y.sock.outgoing = x.sock.outgoing.retry r)
    (hcalls : y.calls = x.calls ++ [⟨x.sock.outgoing.rest, r, false⟩])
    (haccepted : y.accepted = x.accepted)

lemma moves_calm {a : SmartSSLAction} {t : SmartSSL} (h : Calm x.sock t)
    (ha : x.sock.accepts a = []) : Moves x ⟨t,
      x.calls ++ (t.own.writes.drop x.sock.own.writes.length).map (fun b => ⟨b, a.ret, a.isSend⟩),
      x.accepted ++ x.sock.accepts a⟩ := by
  refine .calm h ?_ ?_
  · rw [h.writes, List.drop_length]
    exact List.append_nil _
  · rw [ha]
    exact List.append_nil _

lemma writes_append {t : SmartSSL} {w : List (List UInt8)} {b : List UInt8}
    (f : List UInt8 → SSLWrite) (h : t.own.writes = w ++ [b]) :
    (t.own.writes.drop w.length).map f = [f b] := by
  rw [h, List.drop_left]
  rfl

lemma moves_of_step {a : SmartSSLAction} (h : x.step a = some y) : Moves x y := by
  obtain ⟨t, ht, rfl⟩ := Option.map_eq_some_iff.mp h
  cases a with
  | call c =>
    obtain ⟨-, ht⟩ := Option.ite_none_right_eq_some.mp ht
    cases c with
    | sendPacket buf b =>
      obtain ⟨⟨r, u⟩, hu, rfl⟩ := Option.map_eq_some_iff.mp ht
      obtain ⟨hsome, ho⟩ | ⟨hnone, hssl, ho⟩ := sendPacket_cases hu
      · exact moves_calm (Calm.of_outgoing (.refl _) ho) (if_pos hsome)
      · have hw : u.own.writes = x.sock.own.writes ++ [buf] :=
          (congrArg Outgoing.writes ho).trans (Outgoing.writes_send _ _ _)
        refine .send buf b.ssl.ret hnone hssl ho ?_ ?_
        · exact congrArg (x.calls ++ ·) (writes_append _ hw)
        · exact congrArg (x.accepted ++ ·) (if_neg (by simp [hnone]))
    | sslAccept b => exact moves_calm (Calm.of_outgoing (.refl _) (procSSLConnect_outgoing ht)) rfl
    | recvPacket b => exact moves_calm (Calm.of_outgoing (.refl _) (recvPacket_outgoing ht)) rfl
    | reserveWrite pevt =>
      refine moves_calm (Calm.of_outgoing (.refl _) ?_) rfl
      exact (changeEvent_outgoing ht).trans rfl
    | close =>
      cases ht
      exact moves_calm (Calm.close (.refl _)) rfl
  | otherSocket n =>
    obtain ⟨-, ht⟩ := Option.ite_none_right_eq_some.mp ht
    cases ht
    exact moves_calm (Calm.of_outgoing (.refl _) rfl) rfl
  | report read hangup write => exact moves_calm ((calm_keeps _).report (.refl _) ht) rfl
  | next b =>
    obtain hq | ⟨k, hk⟩ := next_cases ht
    · exact moves_calm ((calm_keeps _).next (.refl _) hq) rfl
    obtain ho | ⟨hsome, hssl, ho⟩ := fireWrite_cases hk
    · exact moves_calm (Calm.of_outgoing (.refl _) ho) rfl
    · have hw : t.own.writes = x.sock.own.writes ++ [x.sock.outgoing.rest] :=
        (congrArg Outgoing.writes ho).trans (Outgoing.writes_retry _ _)
      refine .retry b.ssl.ret hsome hssl ho ?_ (List.append_nil _)
      exact congrArg (x.calls ++ ·) (writes_append _ hw)

/-- What has not begun has written nothing. -/
structure Inv (x : SSLStream) : Prop where
  unborn : x.sock.own.mSSL = false → x.sock.own.mSSLCtx = true →
    x.calls = [] ∧ x.accepted = [] ∧ x.sock.own.mPendingBuf = none
  size : x.sock.outgoing.Sized

/-- The last call has been repeated, or the write handler is to repeat it. -/
structure Retried (x : SSLStream) : Prop where
  last : x.sock.own.mSSL = true → ∀ c, x.calls.getLast? = some c → c.Failed →
    x.sock.own.mPendingBuf.isSome = true ∧ x.sock.outgoing.rest = c.bytes
  chain : x.calls.IsChain SSLWrite.Again

/-- What was taken and what is still to be written make up what was accepted, and the bytes that
are written twice. -/
structure Accounts (x : SSLStream) : Prop where
  sum : x.sock.own.mSSL = true →
    x.taken.length + x.sock.outgoing.rest.length = x.accepted.length + x.ahead
  exact : x.sock.own.mSSL = true → x.ahead = 0 → x.taken ++ x.sock.outgoing.rest = x.accepted
  sofar : x.ahead = 0 → x.taken <+: x.accepted

lemma mSSL_of_send {t s : SmartSSL} {buf : List UInt8} {r : Int}
    (ho : t.outgoing = s.outgoing.send buf r) : t.own.mSSL = s.own.mSSL :=
  (congrArg Outgoing.mSSL ho).trans (Outgoing.mSSL_send _ _ _)

lemma mSSL_of_retry {t s : SmartSSL} {r : Int} (ho : t.outgoing = s.outgoing.retry r) :
    t.own.mSSL = s.own.mSSL :=
  (congrArg Outgoing.mSSL ho).trans (Outgoing.mSSL_retry _ _)

lemma Inv.moves (h : x.Inv) (hm : Moves x y) : y.Inv := by
  cases hm with
  | calm hc hcalls haccepted =>
    refine ⟨fun hssl hctx => ?_, fun p hp => ?_⟩
    · obtain ⟨hssl, hctx⟩ := hc.unborn hssl hctx
      obtain ⟨h1, h2, h3⟩ := h.unborn hssl hctx
      refine ⟨hcalls.trans h1, haccepted.trans h2, ?_⟩
      rcases hc.pending with heq | hnone
      · exact heq.trans h3
      · exact hnone
    · rcases hc.pending with heq | hnone
      · exact hc.size.trans (h.size p (heq.symm.trans hp))
      · exact absurd (hnone.symm.trans hp) (by simp)
  | send buf r hnone hssl ho hcalls haccepted =>
    refine ⟨fun hf => ?_, ho ▸ Outgoing.sized_send _ _ _⟩
    exact absurd (hf.symm.trans ((mSSL_of_send ho).trans hssl)) Bool.false_ne_true
  | retry r hsome hssl ho hcalls haccepted =>
    refine ⟨fun hf => ?_, ho ▸ h.size.retry r⟩
    exact absurd (hf.symm.trans ((mSSL_of_retry ho).trans hssl)) Bool.false_ne_true

lemma isChain_concat {l : List SSLWrite} {d : SSLWrite} (h : l.IsChain SSLWrite.Again)
    (hd : ∀ c, l.getLast? = some c → c.Again d) : (l ++ [d]).IsChain SSLWrite.Again := by
  refine List.isChain_append.mpr ⟨h, List.isChain_singleton d, fun c hc e he => ?_⟩
  obtain rfl := Option.some.inj he
  exact hd c hc

/-- While the session lasts, a step without a call of `SSL_write` keeps the packet; before it
began there was none. -/
lemma Inv.rest_calm (h : x.Inv) (hc : Calm x.sock y.sock) (hssl : y.sock.own.mSSL = true) :
    (x.sock.own.mSSL = true ∧ y.sock.own.mPendingBuf = x.sock.own.mPendingBuf ∧
      y.sock.outgoing.rest = x.sock.outgoing.rest) ∨
    (x.calls = [] ∧ x.accepted = [] ∧ y.sock.outgoing.rest = []) := by
  cases hx : x.sock.own.mSSL with
  | true =>
    have hp := hc.kept hx hssl
    refine .inl ⟨rfl, hp, ?_⟩
    simp only [Outgoing.rest, outgoing, hp, hc.size, hc.count]
  | false =>
    have hctx := (hc.begins hssl).resolve_left (by simp [hx])
    obtain ⟨h1, h2, h3⟩ := h.unborn hx hctx
    refine .inr ⟨h1, h2, Outgoing.rest_of_none ?_⟩
    rcases hc.pending with heq | hnone
    · exact heq.trans h3
    · exact hnone

lemma Retried.moves (h : x.Retried) (hinv : x.Inv) (hm : Moves x y) : y.Retried := by
  cases hm with
  | calm hc hcalls haccepted =>
    refine ⟨fun hssl c hlast hfail => ?_, hcalls ▸ h.chain⟩
    rw [hcalls] at hlast
    obtain ⟨hx, hp, hrest⟩ | ⟨hnil, -, -⟩ := hinv.rest_calm hc hssl
    · rw [hp, hrest]
      exact h.last hx c hlast hfail
    · rw [hnil] at hlast
      cases hlast
  | send buf r hnone hssl ho hcalls haccepted =>
    constructor
    · intro _ c hlast hfail
      rw [hcalls, List.getLast?_concat] at hlast
      cases hlast
      have hp := congrArg Outgoing.mPendingBuf ho
      change y.sock.own.mPendingBuf = _ at hp
      rw [hp, ho, Outgoing.rest_send, if_neg hfail.2]
      exact ⟨Outgoing.isSome_send _ hfail.2, rfl⟩
    · rw [hcalls]
      refine isChain_concat h.chain (fun c hlast hfail => ?_)
      have hsome := (h.last hssl c hlast hfail).1
      rw [hnone] at hsome
      cases hsome
  | retry r hsome hssl ho hcalls haccepted =>
    constructor
    · intro _ c hlast hfail
      rw [hcalls, List.getLast?_concat] at hlast
      cases hlast
      have hp := congrArg Outgoing.mPendingBuf ho
      change y.sock.own.mPendingBuf = _ at hp
      rw [hp, ho, hinv.size.rest_retry hsome, Int.toNat_of_nonpos hfail.1]
      exact ⟨Outgoing.isSome_retry hsome hfail.1, rfl⟩
    · rw [hcalls]
      exact isChain_concat h.chain (fun c hlast hfail => ⟨(h.last hssl c hlast hfail).2, rfl⟩)

lemma taken_concat {c : SSLWrite} (h : y.calls = x.calls ++ [c]) :
    y.taken = x.taken ++ c.taken := by
  simp [taken, h]

lemma ahead_concat {c : SSLWrite} (h : y.calls = x.calls ++ [c]) :
    y.ahead = x.ahead + c.ahead := by
  simp [ahead, h]

/-- A call of `sendPacket`: all is taken, or the packet is to be given again from its
beginning. -/
lemma Accounts.send (h : x.Accounts) {buf : List UInt8} {r : Int}
    (hfit : r ≤ buf.length) (hnone : x.sock.own.mPendingBuf = none)
    (hssl : x.sock.own.mSSL = true) (ho : y.sock.outgoing = x.sock.outgoing.send buf r)
    (hcalls : y.calls = x.calls ++ [⟨buf, r, true⟩])
    (haccepted : y.accepted = x.accepted ++ buf) : y.Accounts := by
  have hrest : x.sock.outgoing.rest = [] := Outgoing.rest_of_none hnone
  have hsum := h.sum hssl
  have hexact := h.exact hssl
  rw [hrest] at hsum hexact
  rw [List.length_nil, Nat.add_zero] at hsum
  rw [List.append_nil] at hexact
  have htaken : y.taken = x.taken ++ buf.take r.toNat := taken_concat hcalls
  have hahead := ahead_concat hcalls
  have hyrest : y.sock.outgoing.rest = if r = buf.length then [] else buf :=
    ho ▸ Outgoing.rest_send _ _ _
  by_cases hall : r = buf.length
  · have hzero : y.ahead = x.ahead := by
      rw [hahead, SSLWrite.ahead, if_neg (fun hc => hc.2 hall), Nat.add_zero]
    have hfull : y.taken = x.taken ++ buf := by
      rw [htaken, List.take_of_length_le (by omega)]
    rw [if_pos hall] at hyrest
    have heq : y.ahead = 0 → y.taken ++ y.sock.outgoing.rest = y.accepted := by
      intro ha
      rw [hfull, hyrest, haccepted, hexact (hzero ▸ ha), List.append_nil]
    refine ⟨fun _ => ?_, fun _ => heq, fun ha => ⟨_, heq ha⟩⟩
    rw [hfull, hyrest, haccepted, hzero, List.length_append, List.length_append, List.length_nil]
    omega
  · have hmore : y.ahead = x.ahead + r.toNat := by
      rw [hahead, SSLWrite.ahead, if_pos ⟨rfl, hall⟩]
    rw [if_neg hall] at hyrest
    have heq : y.ahead = 0 → y.taken ++ y.sock.outgoing.rest = y.accepted := by
      intro ha
      have hr : r.toNat = 0 := by omega
      rw [htaken, hyrest, haccepted, hexact (by omega), hr, List.take_zero, List.append_nil]
    refine ⟨fun _ => ?_, fun _ => heq, fun ha => ⟨_, heq ha⟩⟩
    rw [htaken, hyrest, haccepted, hmore, List.length_append, List.length_append,
      List.length_take]
    omega

lemma Accounts.retry (h : x.Accounts) (hinv : x.Inv) {r : Int}
    (hsome : x.sock.own.mPendingBuf.isSome = true) (hssl : x.sock.own.mSSL = true)
    (ho : y.sock.outgoing = x.sock.outgoing.retry r)
    (hcalls : y.calls = x.calls ++ [⟨x.sock.outgoing.rest, r, false⟩])
    (haccepted : y.accepted = x.accepted) : y.Accounts := by
  have hahead : y.ahead = x.ahead := by
    rw [ahead_concat hcalls, SSLWrite.ahead, if_neg (fun hc => Bool.false_ne_true hc.1),
      Nat.add_zero]
  have hall : y.taken ++ y.sock.outgoing.rest = x.taken ++ x.sock.outgoing.rest := by
    rw [taken_concat hcalls, ho, hinv.size.rest_retry hsome, List.append_assoc]
    exact congrArg (x.taken ++ ·) (List.take_append_drop _ _)
  have heq : y.ahead = 0 → y.taken ++ y.sock.outgoing.rest = y.accepted := by
    intro ha
    rw [hall, haccepted]
    exact h.exact hssl (hahead ▸ ha)
  refine ⟨fun _ => ?_, fun _ => heq, fun ha => ⟨_, heq ha⟩⟩
  rw [← List.length_append, hall, List.length_append, haccepted, hahead]
  exact h.sum hssl

lemma Accounts.calm (h : x.Accounts) (hinv : x.Inv) (hc : Calm x.sock y.sock)
    (hcalls : y.calls = x.calls) (haccepted : y.accepted = x.accepted) : y.Accounts := by
  have htaken : y.taken = x.taken := congrArg (List.flatMap SSLWrite.taken) hcalls
  have hahead : y.ahead = x.ahead := congrArg (fun l => (l.map SSLWrite.ahead).sum) hcalls
  refine ⟨fun hssl => ?_, fun hssl ha => ?_, fun ha => ?_⟩
  · rw [htaken, hahead, haccepted]
    obtain ⟨hx, -, hrest⟩ | ⟨hnil, haccepted, hrest⟩ := hinv.rest_calm hc hssl
    · rw [hrest]
      exact h.sum hx
    · rw [hrest, haccepted]
      simp [taken, ahead, hnil]
  · rw [htaken, haccepted]
    obtain ⟨hx, -, hrest⟩ | ⟨hnil, haccepted, hrest⟩ := hinv.rest_calm hc hssl
    · rw [hrest]
      exact h.exact hx (hahead ▸ ha)
    · rw [hrest, haccepted]
      simp [taken, hnil]
  · rw [htaken, haccepted]
    exact h.sofar (hahead ▸ ha)

lemma Accounts.moves (h : x.Accounts) (hinv : x.Inv) (hfit : ∀ c ∈ y.calls, c.Fits)
    (hm : Moves x y) : y.Accounts := by
  cases hm with
  | calm hc hcalls haccepted => exact h.calm hinv hc hcalls haccepted
  | send buf r hnone hssl ho hcalls haccepted =>
    have hlast : (⟨buf, r, true⟩ : SSLWrite) ∈ y.calls := by
      rw [hcalls]
      exact List.mem_concat_self
    exact h.send (hfit _ hlast) hnone hssl ho hcalls haccepted
  | retry r hsome hssl ho hcalls haccepted =>
    exact h.retry hinv hsome hssl ho hcalls haccepted

lemma Moves.calls_grow (hm : Moves x y) : x.calls <+: y.calls := by
  cases hm with
  | calm _ hcalls _ => exact hcalls ▸ List.prefix_rfl
  | send _ _ _ _ _ hcalls _ => exact hcalls ▸ List.prefix_append _ _
  | retry _ _ _ _ hcalls _ => exact hcalls ▸ List.prefix_append _ _

lemma opened_pending {s : SmartSSL} (h : Opened s) : s.own.mPendingBuf = none := by
  cases h with
  | @child c s fd ctx pevt hc h =>
    obtain ⟨k, -, h⟩ := Option.bind_eq_some_iff.mp h
    obtain ⟨-, h⟩ := Option.ite_none_right_eq_some.mp h
    cases h
    exact hc.pending
  | @client c s fd fd' ctx pevt hc h =>
    obtain ⟨k, -, rfl⟩ := Option.map_eq_some_iff.mp h
    change (c.openSSLClientSock fd ctx).own.mPendingBuf = none
    unfold openSSLClientSock
    dsimp only
    split <;> exact hc.pending

lemma inv_reachable (h : sslStream.Reachable x) : x.Inv := by
  refine h.invariant (fun x h0 => ?_) (fun x a y _ hI _ hs => hI.moves (moves_of_step hs))
  have hnone := opened_pending h0.1
  exact ⟨fun _ _ => ⟨h0.2.1, h0.2.2, hnone⟩, fun p hp => absurd (hnone.symm.trans hp) (by simp)⟩

lemma retried_reachable (h : sslStream.Reachable x) : x.Retried := by
  refine h.invariant (fun x h0 => ?_)
    (fun x a y hr hI _ hs => hI.moves (inv_reachable hr) (moves_of_step hs))
  refine ⟨fun _ c hlast => ?_, ?_⟩
  · rw [h0.2.1] at hlast
    cases hlast
  · rw [h0.2.1]
    exact .nil

lemma accounts_reachable (h : sslStream.Reachable x) (hfit : ∀ c ∈ x.calls, c.Fits) :
    x.Accounts := by
  revert hfit
  refine h.invariant (I := fun x => (∀ c ∈ x.calls, c.Fits) → x.Accounts) (fun x h0 _ => ?_)
    (fun x a y hr hI _ hs hfit => ?_)
  · have hrest : x.sock.outgoing.rest = [] := Outgoing.rest_of_none (opened_pending h0.1)
    have htaken : x.taken = [] := congrArg (List.flatMap SSLWrite.taken) h0.2.1
    have hahead : x.ahead = 0 := congrArg (fun l => (l.map SSLWrite.ahead).sum) h0.2.1
    refine ⟨fun _ => ?_, fun _ _ => ?_, fun _ => ?_⟩ <;> simp [hrest, htaken, hahead, h0.2.2]
  · have hm := moves_of_step hs
    exact (hI (fun c hc => hfit c (hm.calls_grow.subset hc))).moves (inv_reachable hr) hfit hm

lemma ahead_eq_zero_iff : x.ahead = 0 ↔ ∀ c ∈ x.calls, ¬ c.Partly := by
  simp [ahead, List.sum_eq_zero_iff_forall_eq_nat, SSLWrite.ahead_eq_zero_iff]

/-- In every run of every session, whatever OpenSSL answers, the call of `SSL_write` after one
that wrote nothing is given the same bytes again, and it is the write handler that makes it:
there is no new packet in between. -/
theorem retried_same (h : sslStream.Reachable x) : x.calls.IsChain SSLWrite.Again :=
  (retried_reachable h).chain

/-- In every run in which `SSL_write` writes no more than it is given, and as long as the session
lasts, what OpenSSL has taken and the packet that is pending are what `sendPacket` has accepted,
if and only if no call of `sendPacket` wrote a part of its packet. After the end of the session
they are a prefix of it. -/
theorem taken_iff (h : sslStream.Reachable x) (hfit : ∀ c ∈ x.calls, c.Fits) :
    (x.sock.own.mSSL = true → (x.taken ++ x.sock.pendingBytes = x.accepted ↔
      ∀ c ∈ x.calls, ¬ c.Partly)) ∧
    ((∀ c ∈ x.calls, ¬ c.Partly) → x.taken <+: x.accepted) := by
  have hI := accounts_reachable h hfit
  rw [← ahead_eq_zero_iff]
  refine ⟨fun hssl => ⟨fun heq => ?_, hI.exact hssl⟩, hI.sofar⟩
  have hsum := hI.sum hssl
  have hlength := congrArg List.length heq
  rw [List.length_append] at hlength
  change _ + x.sock.outgoing.rest.length = _ at hlength
  omega

/-- A session of a descriptor from `accept`, with nothing written. -/
def start : SSLStream :=
  ⟨child, [], []⟩

lemma init_start : sslStream.init start :=
  ⟨opened_child, rfl, rfl⟩

/-- A packet of three bytes on a connected session: `SSL_write` wants to write, then it takes two
bytes, and is to be called once more. -/
def threeBytes : List SmartSSLAction :=
  [.report true false false, ret, ret, ret, ret,
    .call (.sendPacket [1, 2, 3] ⟨⟨-1, .SSL_ERROR_WANT_WRITE⟩, 0, none⟩),
    .report false false true, answer 2 .SSL_ERROR_NONE]

theorem retried_same_threeBytes : ∃ x, sslStream.Reachable x ∧
    x.calls = [⟨[1, 2, 3], -1, true⟩, ⟨[1, 2, 3], 2, false⟩] ∧
    x.calls.IsChain SSLWrite.Again := by
  obtain ⟨x, hx, hcalls⟩ := System.exists_of_exec (M := sslStream) (l := threeBytes)
    (f := SSLStream.calls) (b := [⟨[1, 2, 3], -1, true⟩, ⟨[1, 2, 3], 2, false⟩]) init_start
    (by decide +kernel)
  exact ⟨x, hx, hcalls, retried_same hx⟩

/-- One byte of the packet is left. -/
theorem taken_iff_threeBytes : ∃ x, sslStream.Reachable x ∧ (∀ c ∈ x.calls, c.Fits) ∧
    x.taken = [1, 2] ∧ x.sock.pendingBytes = [3] ∧
    (x.taken ++ x.sock.pendingBytes = x.accepted ↔ ∀ c ∈ x.calls, ¬ c.Partly) := by
  obtain ⟨x, hx, hobs⟩ := System.exists_of_exec (M := sslStream) (l := threeBytes)
    (f := fun x => (decide (∀ c ∈ x.calls, c.Fits), x.sock.own.mSSL, x.taken,
      x.sock.pendingBytes))
    (b := (true, true, [1, 2], [3])) init_start (by decide +kernel)
  simp only [Prod.mk.injEq, decide_eq_true_eq] at hobs
  obtain ⟨hfit, hssl, htaken, hpending⟩ := hobs
  exact ⟨x, hx, hfit, htaken, hpending, (taken_iff hx hfit).1 hssl⟩

end SSLStream

end EdNio.Net
