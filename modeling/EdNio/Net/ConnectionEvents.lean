import EdNio.Net.TaskSockets
import EdNio.Net.TcpSocket

/-!
# The events of a connection

The events raised for the last connection of each socket, and what the user can do to it
between them. Some sockets of the task, the `servers`, are bound or listening and have no
connection.
-/

namespace EdNio.Net
open Transition Event
open Receive (SockEvent EBADFD)

/-- An event raised for the last connection opened on a socket. -/
structure Raised where
  sock : Nat
  conn : Nat
  child : Bool
  event : SockEvent
deriving DecidableEq, Repr

/-- The event given to a listener in a step, if it is one of a client or child socket. -/
def TaskSockets.raises (servers : Nat → Bool) (s : TaskSockets) (ev : Option (Nat × SockEvent)) :
    Option Raised :=
  ev.bind (fun (i, event) => if servers i then none else some ⟨i, s.conn i, s.child i, event⟩)

def SockPc.entries : SockPc → List BatchEntry
  | .epoll_wait => []
  | .batch rest => rest
  | .other rest => rest
  | .check _ e rest => .sock e :: rest
  | .OnRead _ e rest => .sock e :: rest
  | .OnDisconnected _ e rest => .sock e :: rest
  | .listener _ e rest => .sock e :: rest

/-- In the listener for `SOCK_EVENT_READ`. -/
def SockPc.Reads (i : Nat) : SockPc → Prop
  | .OnRead cb _ _ => cb.sock = i
  | _ => False

/-- In the listener for a disconnect found by `OnEventRead`, with the socket not closed yet. -/
def SockPc.Ends (i : Nat) : SockPc → Prop
  | .OnDisconnected cb _ _ => cb.sock = i ∧ cb.closed = false
  | _ => False

namespace TaskSockets

variable {servers : Nat → Bool} {s t : TaskSockets} {log : List Raised} {i : Nat}

lemma raises_client {event : SockEvent} (hcl : servers i = false) :
    s.raises servers (some (i, event)) = some ⟨i, s.conn i, s.child i, event⟩ := by
  simp [raises, hcl]

lemma raises_server {event : SockEvent} (hserv : servers i = true) :
    s.raises servers (some (i, event)) = none := by
  simp [raises, hserv]

/-- The events raised so far for the last connection of each client or child socket, and where
these sockets and the handlers stand. -/
structure ProtocolInv (servers : Nat → Bool) (s : TaskSockets) (log : List Raised) : Prop where
  tcp : ∀ i, servers i = false → (s.socks i).TcpInv s.regs
  entries : ∀ e, .sock e ∈ s.pc.entries → servers e.sock = false → e.evt < s.regs ∧
    (e.events.EPOLLIN = true → s.isReg e = true →
      (s.socks e.sock).mStatus ≠ .SOCK_STATUS_CONNECTING)
  clients : ∀ f ∈ log, servers f.sock = false
  past : ∀ f ∈ log, f.conn ≤ s.conn f.sock
  ended : ∀ f ∈ log, f.conn = s.conn f.sock → f.event = .SOCK_EVENT_DISCONNECTED →
    (s.socks f.sock).mEvt = none ∨ s.pc.Ends f.sock
  connecting : ∀ f ∈ log, f.conn = s.conn f.sock →
    f.event = .SOCK_EVENT_CONNECTED ∨ f.event = .SOCK_EVENT_READ →
    (s.socks f.sock).mStatus ≠ .SOCK_STATUS_CONNECTING
  client : ∀ i, servers i = false → (s.socks i).mStatus = .SOCK_STATUS_CONNECTED →
    s.child i = false →
    ∃ f ∈ log, f.sock = i ∧ f.conn = s.conn i ∧ f.event = .SOCK_EVENT_CONNECTED
  reading : ∀ f ∈ log, f.conn = s.conn f.sock → s.pc.Reads f.sock →
    f.event ≠ .SOCK_EVENT_DISCONNECTED

/-- What an operation on socket `i` does. On a client or child socket this is another connection,
or nothing for the events of the one it has. -/
structure Operates (servers : Nat → Bool) (s t : TaskSockets) (i : Nat) : Prop where
  other : ∀ j, j ≠ i → t.socks j = s.socks j ∧ t.conn j = s.conn j ∧ t.child j = s.child j
  regs : s.regs ≤ t.regs
  tcp : servers i = false → (t.socks i).TcpInv t.regs
  entries : ∀ e ∈ t.pc.entries, e ∈ s.pc.entries
  reads : ∀ j, servers j = false → t.pc.Reads j → s.pc.Reads j
  ends : ∀ j, servers j = false → s.pc.Ends j → t.pc.Ends j ∨ (t.socks j).mEvt = none
  change : servers i = false → (t.conn i = s.conn i ∧ t.child i = s.child i ∧
      (∀ r, (t.socks i).mEvt = some r → ∃ r', (s.socks i).mEvt = some r' ∧ r'.id = r.id) ∧
      ((t.socks i).mStatus = (s.socks i).mStatus ∨
        (t.socks i).mStatus = .SOCK_STATUS_DISCONNECTED)) ∨
    (t.conn i = s.conn i + 1 ∧
      (∀ r, (t.socks i).mEvt = some r → r.id = s.regs ∨
        (t.socks i).mStatus = .SOCK_STATUS_CONNECTED) ∧
      ((t.socks i).mStatus = .SOCK_STATUS_CONNECTED → t.child i = true))

lemma isReg_iff {e : SockEntry} :
    s.isReg e = true ↔ ∃ r, (s.socks e.sock).mEvt = some r ∧ r.id = e.evt := by
  unfold isReg
  cases (s.socks e.sock).mEvt <;> simp

/-- What happens to any client or child socket. -/
lemma Operates.cases (ho : Operates servers s t i) (j : Nat) (hj' : servers j = false) :
    (t.conn j = s.conn j ∧ t.child j = s.child j ∧
      (∀ r, (t.socks j).mEvt = some r → ∃ r', (s.socks j).mEvt = some r' ∧ r'.id = r.id) ∧
      ((t.socks j).mStatus = (s.socks j).mStatus ∨
        (t.socks j).mStatus = .SOCK_STATUS_DISCONNECTED)) ∨
    (t.conn j = s.conn j + 1 ∧
      (∀ r, (t.socks j).mEvt = some r → r.id = s.regs ∨
        (t.socks j).mStatus = .SOCK_STATUS_CONNECTED) ∧
      ((t.socks j).mStatus = .SOCK_STATUS_CONNECTED → t.child j = true)) := by
  by_cases hj : j = i
  · rw [hj] at hj' ⊢
    exact ho.change hj'
  · obtain ⟨hsock, hconn, hchild⟩ := ho.other j hj
    rw [hsock]
    exact .inl ⟨hconn, hchild, fun r hr => ⟨r, hr, rfl⟩, .inl rfl⟩

lemma ProtocolInv.operates (h : ProtocolInv servers s log) (ho : Operates servers s t i) :
    ProtocolInv servers t log where
  tcp j hj' := by
    by_cases hj : j = i
    · rw [hj] at hj' ⊢
      exact ho.tcp hj'
    · rw [(ho.other j hj).1]
      exact (h.tcp j hj').mono ho.regs
  entries e he hcl := by
    obtain ⟨hlt, hstatus⟩ := h.entries e (ho.entries _ he) hcl
    refine ⟨Nat.lt_of_lt_of_le hlt ho.regs, fun hin hreg => ?_⟩
    obtain ⟨r, hr, hid⟩ := isReg_iff.mp hreg
    rcases ho.cases e.sock hcl with ⟨-, -, hevt, hst⟩ | ⟨-, hnew, -⟩
    · obtain ⟨r', hr', hid'⟩ := hevt r hr
      rcases hst with hst | hst
      · rw [hst]
        exact hstatus hin (isReg_iff.mpr ⟨r', hr', hid'.trans hid⟩)
      · rw [hst]
        rintro ⟨⟩
    · rcases hnew r hr with hid' | hst
      · omega
      · rw [hst]
        rintro ⟨⟩
  clients := h.clients
  past f hf := by
    have hle := h.past f hf
    rcases ho.cases f.sock (h.clients f hf) with ⟨hconn, -⟩ | ⟨hconn, -⟩ <;> omega
  ended f hf hconn hev := by
    have hle := h.past f hf
    rcases ho.cases f.sock (h.clients f hf) with ⟨hconn', -, hevt, -⟩ | ⟨hconn', -⟩
    · rcases h.ended f hf (hconn.trans hconn') hev with hnone | hends
      · left
        cases hr : (t.socks f.sock).mEvt with
        | none => rfl
        | some r =>
          obtain ⟨r', hr', -⟩ := hevt r hr
          rw [hnone] at hr'
          cases hr'
      · exact (ho.ends _ (h.clients f hf) hends).symm
    · omega
  connecting f hf hconn hev := by
    have hle := h.past f hf
    rcases ho.cases f.sock (h.clients f hf) with ⟨hconn', -, -, hst⟩ | ⟨hconn', -⟩
    · rcases hst with hst | hst
      · rw [hst]
        exact h.connecting f hf (hconn.trans hconn') hev
      · rw [hst]
        rintro ⟨⟩
    · omega
  client j hj hst hchild := by
    rcases ho.cases j hj with ⟨hconn, hchild', -, hst'⟩ | ⟨-, -, hnew⟩
    · rcases hst' with hst' | hst'
      · rw [hst'] at hst
        rw [hchild'] at hchild
        rw [hconn]
        exact h.client j hj hst hchild
      · rw [hst'] at hst
        cases hst
    · rw [hnew hst] at hchild
      cases hchild
  reading f hf hconn hreads := by
    have hle := h.past f hf
    refine h.reading f hf ?_ (ho.reads _ (h.clients f hf) hreads)
    rcases ho.cases f.sock (h.clients f hf) with ⟨hconn', -⟩ | ⟨hconn', -⟩ <;> omega

/-- A socket that has the registration it had or none. -/
lemma operates_setSock {k : EdSocket} {n : Nat} {err : Int} (hn : s.regs ≤ n)
    (htcp : servers i = false → k.TcpInv n)
    (hevt : servers i = false →
      ∀ r, k.mEvt = some r → ∃ r', (s.socks i).mEvt = some r' ∧ r'.id = r.id)
    (hst : servers i = false →
      k.mStatus = (s.socks i).mStatus ∨ k.mStatus = .SOCK_STATUS_DISCONNECTED) :
    Operates servers s { s.setSock i k with regs := n, lastSockErrorNo := err } i where
  other j hj := ⟨s.setSock_other k hj, rfl, rfl⟩
  regs := hn
  tcp hi := by
    show ((s.setSock i k).socks i).TcpInv n
    rw [setSock_self]
    exact htcp hi
  entries _ := id
  reads _ _ := id
  ends _ _ := .inl
  change hi := by
    left
    show _ ∧ _ ∧ (∀ r, ((s.setSock i k).socks i).mEvt = some r → _) ∧
      (((s.setSock i k).socks i).mStatus = _ ∨ _)
    rw [setSock_self]
    exact ⟨rfl, rfl, hevt hi, hst hi⟩

/-- A server socket may be changed in any way. -/
lemma operates_server {k : EdSocket} (hserv : servers i = true) :
    Operates servers s (s.registers.setSock i k) i := by
  have hcl : servers i ≠ false := by
    rw [hserv]
    decide
  exact operates_setSock (Nat.le_succ _) (fun hc => absurd hc hcl) (fun hc => absurd hc hcl)
    (fun hc => absurd hc hcl)

lemma operates_opened {child : Bool} {k : EdSocket}
    (htcp : servers i = false → k.TcpInv (s.regs + 1))
    (hnew : servers i = false →
      (∀ r, k.mEvt = some r → r.id = s.regs ∨ k.mStatus = .SOCK_STATUS_CONNECTED) ∧
      (k.mStatus = .SOCK_STATUS_CONNECTED → child = true)) :
    Operates servers s (s.registers.opened i child k) i where
  other j hj :=
    ⟨s.setSock_other k hj, Function.update_of_ne hj _ _, Function.update_of_ne hj _ _⟩
  regs := Nat.le_succ _
  tcp hi := by
    show ((s.setSock i k).socks i).TcpInv (s.regs + 1)
    rw [setSock_self]
    exact htcp hi
  entries _ := id
  reads _ _ := id
  ends _ _ := .inl
  change hi := by
    right
    show Function.update s.conn i (s.conn i + 1) i = _ ∧
      (∀ r, ((s.setSock i k).socks i).mEvt = some r → r.id = s.regs ∨
        ((s.setSock i k).socks i).mStatus = _) ∧
      (((s.setSock i k).socks i).mStatus = _ → Function.update s.child i child i = true)
    rw [setSock_self, Function.update_self, Function.update_self]
    exact ⟨rfl, hnew hi⟩

lemma pevt_eq (s : TaskSockets) (added : Bool) : ∀ id, s.pevt added = some id → id = s.regs := by
  intro id hid
  cases added <;> cases hid
  rfl

lemma operates_connected {k : EdSocket}
    (hk : ((s.socks i).mStatus ≠ .SOCK_STATUS_DISCONNECTED ∧ k = s.socks i) ∨
      ((s.socks i).mStatus = .SOCK_STATUS_DISCONNECTED ∧ k.mStatus = .SOCK_STATUS_CONNECTING ∧
        k.TcpInv (s.regs + 1) ∧ ∀ r, k.mEvt = some r → r.id = s.regs))
    (htcp : (s.socks i).TcpInv s.regs) : Operates servers s (s.connected i k) i := by
  unfold connected
  rcases hk with ⟨hst, rfl⟩ | ⟨hst, hst', htcp', hnew⟩
  · rw [if_neg (fun hc => hst hc.1)]
    exact operates_setSock (Nat.le_succ _) (fun _ => htcp.mono (Nat.le_succ _))
      (fun _ r hr => ⟨r, hr, rfl⟩) (fun _ => .inl rfl)
  · rw [if_pos ⟨hst, by rw [hst']; rintro ⟨⟩⟩]
    refine operates_opened (fun _ => htcp') (fun _ => ⟨fun r hr => .inl (hnew r hr), fun hc => ?_⟩)
    rw [hst'] at hc
    cases hc

lemma operates_connected_server {k : EdSocket} (hserv : servers i = true) :
    Operates servers s (s.connected i k) i := by
  have hcl : servers i ≠ false := by
    rw [hserv]
    decide
  unfold connected
  split
  · exact operates_opened (fun hc => absurd hc hcl) (fun hc => absurd hc hcl)
  · exact operates_server hserv

lemma operates_close (htcp : servers i = false → (s.socks i).TcpInv s.regs) :
    Operates servers s (s.close i) i := by
  refine operates_setSock (Nat.le_refl _) (fun hi => (htcp hi).close.1) (fun hi r hr => ?_)
    (fun hi => (htcp hi).close.2.2)
  rw [(htcp hi).close.2.1] at hr
  cases hr

lemma close_mEvt (htcp : (s.socks i).TcpInv s.regs) : ((s.close i).socks i).mEvt = none := by
  show ((s.setSock i _).socks i).mEvt = none
  rw [setSock_self]
  exact htcp.close.2.1

/-- A listener notes what it does. -/
lemma Operates.note (h : Operates servers s t i) {f : Callback → Callback}
    (hf : ∀ cb, (f cb).sock = cb.sock)
    (hends : ∀ cb, servers cb.sock = false → cb.closed = false →
      (f cb).closed = false ∨ (t.socks cb.sock).mEvt = none) :
    Operates servers s (t.note f) i where
  other := h.other
  regs := h.regs
  tcp := h.tcp
  entries e he := by
    refine h.entries e ?_
    unfold TaskSockets.note at he
    cases hpc : t.pc <;> rw [hpc] at he <;> exact he
  reads j hserv hj := by
    refine h.reads j hserv ?_
    unfold TaskSockets.note at hj
    cases hpc : t.pc with
    | OnRead cb e rest =>
      rw [hpc] at hj
      exact (hf cb).symm.trans hj
    | _ =>
      rw [hpc] at hj
      exact hj.elim
  ends j hserv hj := by
    rcases h.ends j hserv hj with hj' | hj'
    · unfold TaskSockets.note
      cases hpc : t.pc with
      | OnDisconnected cb e rest =>
        rw [hpc] at hj'
        obtain ⟨rfl, hclosed⟩ := hj'
        rcases hends cb hserv hclosed with hc | hnone
        · exact .inl ⟨hf cb, hc⟩
        · exact .inr hnone
      | _ =>
        rw [hpc] at hj'
        exact hj'.elim
    · exact .inr hj'
  change := h.change

lemma operates_refl (htcp : servers i = false → (s.socks i).TcpInv s.regs) {err : Int} :
    Operates servers s { s with lastSockErrorNo := err } i where
  other _ _ := ⟨rfl, rfl, rfl⟩
  regs := Nat.le_refl _
  tcp := htcp
  entries _ := id
  reads _ _ := id
  ends _ _ := .inl
  change _ := .inl ⟨rfl, rfl, fun r hr => ⟨r, hr, rfl⟩, .inl rfl⟩

lemma operates_recv (htcp : servers i = false → (s.socks i).TcpInv s.regs) {ret : Int}
    (hs : s.recv i ret = some t) : Operates servers s t i := by
  unfold TaskSockets.recv at hs
  split at hs
  · split at hs
    · cases hs
      exact (operates_refl htcp).note (fun _ => rfl) (fun _ _ => .inl)
    · cases hs
  · cases hs
    exact operates_refl htcp

lemma operates_userClose (htcp : servers i = false → (s.socks i).TcpInv s.regs) :
    Operates servers s (s.userClose i) i := by
  unfold userClose
  split
  · refine (operates_close htcp).note (fun _ => rfl) (fun cb hserv hcb => ?_)
    by_cases hown : cb.sock = i
    · right
      rw [hown] at hserv ⊢
      exact close_mEvt (htcp hserv)
    · left
      simp [hcb, hown]
  · exact operates_close htcp

/-- The task goes on, from a disconnect listener of a client or child only with its socket
closed. -/
lemma ProtocolInv.goTo (h : ProtocolInv servers s log) {pc : SockPc}
    (hends : ∀ i, servers i = false → s.pc.Ends i → (s.socks i).mEvt = none)
    (hentries : ∀ e ∈ pc.entries, e ∈ s.pc.entries)
    (hreads : ∀ f ∈ log, f.conn = s.conn f.sock → pc.Reads f.sock →
      f.event ≠ .SOCK_EVENT_DISCONNECTED) :
    ProtocolInv servers { s with pc := pc } log where
  tcp := h.tcp
  entries e he := h.entries e (hentries _ he)
  clients := h.clients
  past := h.past
  ended f hf hconn hev :=
    .inl ((h.ended f hf hconn hev).elim id (hends f.sock (h.clients f hf)))
  connecting := h.connecting
  client := h.client
  reading := hreads

lemma ProtocolInv.raise (h : ProtocolInv servers s log) {child : Bool} {event : SockEvent}
    (hi : servers i = false)
    (hended : event = .SOCK_EVENT_DISCONNECTED → (s.socks i).mEvt = none ∨ s.pc.Ends i)
    (hconnecting : event = .SOCK_EVENT_CONNECTED ∨ event = .SOCK_EVENT_READ →
      (s.socks i).mStatus ≠ .SOCK_STATUS_CONNECTING)
    (hreading : s.pc.Reads i → event ≠ .SOCK_EVENT_DISCONNECTED) :
    ProtocolInv servers s (log ++ [⟨i, s.conn i, child, event⟩]) where
  tcp := h.tcp
  entries := h.entries
  clients f hf := by
    rcases List.mem_append.mp hf with hf | hf
    · exact h.clients f hf
    · cases List.mem_singleton.mp hf
      exact hi
  past f hf := by
    rcases List.mem_append.mp hf with hf | hf
    · exact h.past f hf
    · cases List.mem_singleton.mp hf
      exact Nat.le_refl _
  ended f hf hconn hev := by
    rcases List.mem_append.mp hf with hf | hf
    · exact h.ended f hf hconn hev
    · rw [List.mem_singleton.mp hf] at hev ⊢
      exact hended hev
  connecting f hf hconn hev := by
    rcases List.mem_append.mp hf with hf | hf
    · exact h.connecting f hf hconn hev
    · rw [List.mem_singleton.mp hf] at hev ⊢
      exact hconnecting hev
  client j hj hst hchild := by
    obtain ⟨f, hf, hsame⟩ := h.client j hj hst hchild
    exact ⟨f, List.mem_append_left _ hf, hsame⟩
  reading f hf hconn hreads := by
    rcases List.mem_append.mp hf with hf | hf
    · exact h.reading f hf hconn hreads
    · rw [List.mem_singleton.mp hf] at hreads ⊢
      exact hreading hreads

/-- No disconnect has been raised for a registered socket outside its listener. -/
lemma ProtocolInv.not_disconnected (h : ProtocolInv servers s log) (hevt : (s.socks i).mEvt ≠ none)
    (hpc : ¬ s.pc.Ends i) : ∀ f ∈ log, f.sock = i → f.conn = s.conn i →
      f.event ≠ .SOCK_EVENT_DISCONNECTED := by
  rintro f hf rfl hconn hev
  exact (h.ended f hf hconn hev).elim hevt hpc

lemma mem_nextStage {st : Stage} {e : SockEntry} {rest : List BatchEntry} :
    ∀ b ∈ (nextStage st e rest).entries, b ∈ .sock e :: rest := by
  intro b hb
  cases st with
  | release => exact List.mem_cons_of_mem _ hb
  | _ => exact hb

lemma nextStage_reads {st : Stage} {e : SockEntry} {rest : List BatchEntry} :
    ¬ (nextStage st e rest).Reads i := by
  cases st <;> exact id

end TaskSockets

end EdNio.Net
