import EdNio.Net.ConnectionEvents
import EdNio.Net.DisconnectDetection

/-!
# The event protocol of connections

What the handlers raise from the opening of a connection to its end.
-/

namespace EdNio.Net
open Transition Event
open Receive (SockEvent EBADFD)

def TaskSockets.raised (servers : Nat → Bool) (s : TaskSockets) (a : SockAction) :
    Option Raised :=
  (s.run a).bind (fun (_, ev) => s.raises servers ev)

def eventHistory (servers : Nat → Bool) : System (Recorded TaskSockets Raised) SockAction :=
  taskSockets.recorded (TaskSockets.raised servers)

def Raised.SameConn (f e : Raised) : Prop := f.sock = e.sock ∧ f.conn = e.conn

/-- Nothing is raised after a disconnect of the connection, and on a client's one connect,
which comes before what is read. -/
structure Protocol (before : List Raised) (e : Raised) : Prop where
  disconnected : e.event = .SOCK_EVENT_DISCONNECTED ∨ e.event = .SOCK_EVENT_READ ∨
    e.event = .SOCK_EVENT_WRITE →
    ∀ f ∈ before, f.SameConn e → f.event ≠ .SOCK_EVENT_DISCONNECTED
  connected : e.child = false → e.event = .SOCK_EVENT_CONNECTED →
    ∀ f ∈ before, f.SameConn e →
      f.event ≠ .SOCK_EVENT_CONNECTED ∧ f.event ≠ .SOCK_EVENT_READ
  read : e.child = false → e.event = .SOCK_EVENT_READ →
    ∃ f ∈ before, f.SameConn e ∧ f.event = .SOCK_EVENT_CONNECTED

/-- The other sockets are client and child TCP sockets. -/
def tcpOnly (servers : Nat → Bool) : SockAction → Bool
  | .openSock i type _ => servers i || type = .SOCK_TYPE_TCP
  | .bindSock i _ _ _ => servers i
  | .listenSock i _ _ _ _ => servers i
  | _ => true

/-- Of a client or child socket. When the listener for the disconnect found by `OnEventRead`
returns, the socket has been closed or `lastSockErrorNo` is still set; no `socket` that fails
takes the place of a descriptor; `changeEvent` is called on a registered socket, without
`EVT_READ` while it connects. -/
def TaskSockets.ends (servers : Nat → Bool) (s : TaskSockets) : SockAction → Bool
  | .listenerReturn =>
    match s.pc with
    | .OnDisconnected cb _ _ =>
      servers cb.sock || cb.closed || (s.socks cb.sock).mFd.isNone || s.lastSockErrorNo ≠ 0
    | _ => true
  | .openSock i _ fd => servers i || fd.isSome || (s.socks i).mFd.isNone
  | .changeEvent i flags _ =>
    servers i || ((s.socks i).mIsReg &&
      ((s.socks i).mStatus ≠ .SOCK_STATUS_CONNECTING || !flags.evtRead))
  | _ => true

namespace TaskSockets

variable {servers : Nat → Bool} {s t : TaskSockets} {log : List Raised} {i : Nat}

/-- A handler is called for a registered socket, for which no disconnect has been raised. -/
lemma ProtocolInv.check (h : ProtocolInv servers s log) {st : Stage} {e : SockEntry}
    {rest : List BatchEntry} (hpc : s.pc = .check st e rest) (hreg : s.isReg e = true) :
    (∀ j, ¬ s.pc.Ends j) ∧ (s.socks e.sock).mEvt ≠ none ∧
      ∀ f ∈ log, f.sock = e.sock → f.conn = s.conn e.sock →
        f.event ≠ .SOCK_EVENT_DISCONNECTED := by
  have hends : ∀ j, ¬ s.pc.Ends j := by
    intro j
    rw [hpc]
    exact id
  obtain ⟨r, hr, -⟩ := isReg_iff.mp hreg
  have hsome : (s.socks e.sock).mEvt ≠ none := by
    rw [hr]
    rintro ⟨⟩
  exact ⟨hends, hsome, h.not_disconnected hsome (hends _)⟩

lemma ProtocolInv.OnEventRead (h : ProtocolInv servers s log) {e : SockEntry}
    {rest : List BatchEntry} (hpc : s.pc = .check .EVT_READ e rest) (hreg : s.isReg e = true)
    (hcl : servers e.sock = false) (hin : e.events.EPOLLIN = true) {ev : SockEvent}
    (hs : s.OnEventRead e rest = (t, some (i, ev))) :
    Protocol log ⟨i, s.conn i, s.child i, ev⟩ ∧
      ProtocolInv servers t (log ++ [⟨i, s.conn i, s.child i, ev⟩]) := by
  have hmem : .sock e ∈ s.pc.entries := by
    rw [hpc]
    exact List.mem_cons_self
  obtain ⟨hends, hsome, hquiet⟩ := h.check hpc hreg
  have hstatus := (h.entries e hmem hcl).2 hin hreg
  unfold TaskSockets.OnEventRead at hs
  split at hs
  · cases hs
    have hconnected : (s.socks e.sock).mStatus = .SOCK_STATUS_CONNECTED := by
      cases hst : (s.socks e.sock).mStatus with
      | SOCK_STATUS_DISCONNECTED => exact absurd ((h.tcp _ hcl).idle hst) hsome
      | SOCK_STATUS_CONNECTING => exact absurd hst hstatus
      | SOCK_STATUS_CONNECTED => rfl
      | SOCK_STATUS_LISTENING => exact absurd hst (h.tcp _ hcl).status
    constructor
    · refine ⟨fun _ f hf hsame => hquiet f hf hsame.1 hsame.2, fun _ => ?_, fun hchild _ => ?_⟩
      · rintro ⟨⟩
      · obtain ⟨f, hf, hsock, hconn, hev⟩ := h.client e.sock hcl hconnected hchild
        exact ⟨f, hf, ⟨hsock, hconn⟩, hev⟩
    · refine (h.goTo (fun j _ hj => absurd hj (hends j)) ?_ ?_).raise hcl ?_ ?_ ?_
      · rw [hpc]
        exact fun _ => id
      · exact fun f hf hconn hreads => hquiet f hf hreads.symm (by rw [hconn, ← hreads]; rfl)
      · rintro ⟨⟩
      · exact fun _ => hstatus
      · rintro _ ⟨⟩
  · cases hs
    constructor
    · refine ⟨?_, fun _ => ?_, fun _ => ?_⟩
      · rintro (⟨⟨⟩⟩ | ⟨⟨⟩⟩ | ⟨⟨⟩⟩)
      · rintro ⟨⟩
      · rintro ⟨⟩
    · refine (h.goTo (fun j _ hj => absurd hj (hends j)) ?_ ?_).raise hcl ?_ ?_ ?_
      · rw [hpc]
        exact fun _ => id
      · exact fun f hf hconn hreads => hreads.elim
      · rintro ⟨⟩
      · rintro (⟨⟨⟩⟩ | ⟨⟨⟩⟩)
      · rintro ⟨⟩

/-- A handler closes its socket and raises the disconnect. -/
lemma ProtocolInv.disconnect (h : ProtocolInv servers s log) {st st' : Stage} {e : SockEntry}
    {rest : List BatchEntry} (hpc : s.pc = .check st e rest) (hreg : s.isReg e = true)
    (hcl : servers e.sock = false) :
    Protocol log ⟨e.sock, s.conn e.sock, s.child e.sock, .SOCK_EVENT_DISCONNECTED⟩ ∧
      ProtocolInv servers { s.close e.sock with pc := .listener st' e rest }
        (log ++ [⟨e.sock, s.conn e.sock, s.child e.sock, .SOCK_EVENT_DISCONNECTED⟩]) := by
  obtain ⟨hends, -, hquiet⟩ := h.check hpc hreg
  constructor
  · refine ⟨fun _ f hf hsame => hquiet f hf hsame.1 hsame.2, fun _ => ?_, fun _ => ?_⟩
    · rintro ⟨⟩
    · rintro ⟨⟩
  · refine ((h.operates (operates_close (h.tcp e.sock))).goTo
      (fun j _ hj => absurd hj (hends j)) ?_ ?_).raise hcl ?_ ?_ ?_
    · show ∀ b ∈ SockPc.entries (.listener st' e rest), b ∈ s.pc.entries
      rw [hpc]
      exact fun _ => id
    · exact fun f hf hconn hreads => hreads.elim
    · exact fun _ => .inl (close_mEvt (h.tcp e.sock hcl))
    · rintro (⟨⟨⟩⟩ | ⟨⟨⟩⟩)
    · exact fun hreads => hreads.elim

/-- The connection is established. -/
lemma ProtocolInv.connect (h : ProtocolInv servers s log) {st : Stage} {e : SockEntry}
    {rest : List BatchEntry} (hpc : s.pc = .check st e rest) (hreg : s.isReg e = true)
    (hcl : servers e.sock = false) (hst : (s.socks e.sock).mStatus = .SOCK_STATUS_CONNECTING)
    {k : EdSocket} (hk : (s.socks e.sock).completeConnection none = some k) :
    Protocol log ⟨e.sock, s.conn e.sock, s.child e.sock, .SOCK_EVENT_CONNECTED⟩ ∧
      ProtocolInv servers { s.setSock e.sock k with pc := .listener .EVT_WRITE e rest }
        (log ++ [⟨e.sock, s.conn e.sock, s.child e.sock, .SOCK_EVENT_CONNECTED⟩]) := by
  obtain ⟨hends, -, hquiet⟩ := h.check hpc hreg
  obtain ⟨r, hr, -⟩ := isReg_iff.mp hreg
  obtain ⟨hst', htcp, -⟩ := (h.tcp e.sock hcl).completeConnection hr hk
  have hself : (s.setSock e.sock k).socks e.sock = k := s.setSock_self _ _
  have hnew : ((s.setSock e.sock k).socks e.sock).mStatus ≠ .SOCK_STATUS_CONNECTING := by
    rw [hself, hst']
    rintro ⟨⟩
  constructor
  · refine ⟨?_, fun _ _ f hf hsame => ?_, fun _ => ?_⟩
    · rintro (⟨⟨⟩⟩ | ⟨⟨⟩⟩ | ⟨⟨⟩⟩)
    · obtain ⟨hsock, hconn⟩ := hsame
      have hold : f.event = .SOCK_EVENT_CONNECTED ∨ f.event = .SOCK_EVENT_READ → False :=
        fun hev => h.connecting f hf (by rw [hconn, hsock]) hev (by rw [hsock]; exact hst)
      exact ⟨fun hev => hold (.inl hev), fun hev => hold (.inr hev)⟩
    · rintro ⟨⟩
  · have hlog : ∀ f ∈ log ++ [⟨e.sock, s.conn e.sock, s.child e.sock, .SOCK_EVENT_CONNECTED⟩],
        f.sock ≠ e.sock → f ∈ log := by
      intro f hf hne
      rcases List.mem_append.mp hf with hf | hf
      · exact hf
      · cases List.mem_singleton.mp hf
        exact absurd rfl hne
    refine ⟨fun j hj' => ?_, fun e' he' hcl' => ?_, fun f hf => ?_, fun f hf => ?_,
      fun f hf hconn hev => ?_, fun f hf hconn hev => ?_, fun j hj' hst hchild => ?_,
      fun f hf hconn hreads => hreads.elim⟩
    · by_cases hj : j = e.sock
      · rw [hj]
        show ((s.setSock e.sock k).socks e.sock).TcpInv s.regs
        rw [hself]
        exact htcp
      · show ((s.setSock e.sock k).socks j).TcpInv s.regs
        rw [s.setSock_other k hj]
        exact h.tcp j hj'
    · obtain ⟨hlt, hold⟩ := h.entries e' (by rw [hpc]; exact he') hcl'
      refine ⟨hlt, fun hin hreg' => ?_⟩
      by_cases hj : e'.sock = e.sock
      · rw [hj]
        exact hnew
      · show ((s.setSock e.sock k).socks e'.sock).mStatus ≠ _
        have hreg'' : (s.setSock e.sock k).isReg e' = true := hreg'
        unfold isReg at hreg''
        rw [s.setSock_other k hj] at hreg'' ⊢
        exact hold hin hreg''
    · rcases List.mem_append.mp hf with hf | hf
      · exact h.clients f hf
      · cases List.mem_singleton.mp hf
        exact hcl
    · rcases List.mem_append.mp hf with hf | hf
      · exact h.past f hf
      · cases List.mem_singleton.mp hf
        exact Nat.le_refl _
    · by_cases hj : f.sock = e.sock
      · rcases List.mem_append.mp hf with hf | hf
        · exact absurd hev (hquiet f hf hj (by rw [← hj]; exact hconn))
        · cases List.mem_singleton.mp hf
          cases hev
      · left
        show ((s.setSock e.sock k).socks f.sock).mEvt = none
        rw [s.setSock_other k hj]
        exact (h.ended f (hlog f hf hj) hconn hev).resolve_right (hends _)
    · by_cases hj : f.sock = e.sock
      · rw [hj]
        exact hnew
      · show ((s.setSock e.sock k).socks f.sock).mStatus ≠ _
        rw [s.setSock_other k hj]
        exact h.connecting f (hlog f hf hj) hconn hev
    · by_cases hj : j = e.sock
      · rw [hj]
        exact ⟨_, List.mem_append_right _ (List.mem_singleton_self _), rfl, rfl, rfl⟩
      · have hst'' : ((s.setSock e.sock k).socks j).mStatus = .SOCK_STATUS_CONNECTED := hst
        rw [s.setSock_other k hj] at hst''
        obtain ⟨f, hf, hsame⟩ := h.client j hj' hst'' hchild
        exact ⟨f, List.mem_append_left _ hf, hsame⟩

/-- A step raises what the protocol allows, and keeps the invariant. -/
structure Follows (servers : Nat → Bool) (s t : TaskSockets) (ev : Option (Nat × SockEvent))
    (log : List Raised) : Prop where
  protocol : ∀ f, s.raises servers ev = some f → Protocol log f
  inv : ProtocolInv servers t (log ++ (s.raises servers ev).toList)

lemma Follows.silent (h : ProtocolInv servers t log) : Follows servers s t none log where
  protocol _ hf := by cases hf
  inv := by
    show ProtocolInv servers t (log ++ [])
    rw [List.append_nil]
    exact h

lemma Follows.event {ev : SockEvent} (hcl : servers i = false)
    (h : Protocol log ⟨i, s.conn i, s.child i, ev⟩ ∧
      ProtocolInv servers t (log ++ [⟨i, s.conn i, s.child i, ev⟩])) :
    Follows servers s t (some (i, ev)) log where
  protocol f hf := by
    rw [raises_client hcl] at hf
    cases hf
    exact h.1
  inv := by
    rw [raises_client hcl]
    exact h.2

lemma Follows.server {ev : SockEvent} (hserv : servers i = true)
    (h : ProtocolInv servers t log) : Follows servers s t (some (i, ev)) log where
  protocol f hf := by
    rw [raises_server hserv] at hf
    cases hf
  inv := by
    rw [raises_server hserv]
    exact (Follows.silent (s := s) h).inv

/-- The task goes on outside the listeners of `OnEventRead`. -/
lemma ProtocolInv.goOn (h : ProtocolInv servers s log) {pc : SockPc} (hends : ∀ i, ¬ s.pc.Ends i)
    (hentries : ∀ e ∈ pc.entries, e ∈ s.pc.entries) (hreads : ∀ i, ¬ pc.Reads i) :
    ProtocolInv servers { s with pc := pc } log :=
  h.goTo (fun i _ hi => absurd hi (hends i)) hentries (fun _ _ _ hr => absurd hr (hreads _))

lemma ProtocolInv.OnEventWrite (h : ProtocolInv servers s log) {sockerr : Int} {st : Stage}
    {e : SockEntry} {rest : List BatchEntry} (hpc : s.pc = .check st e rest)
    (hreg : s.isReg e = true) (hcl : servers e.sock = false) {ev : Option (Nat × SockEvent)}
    (hs : s.OnEventWrite sockerr e rest = some (t, ev)) : Follows servers s t ev log := by
  unfold TaskSockets.OnEventWrite at hs
  split at hs
  · rename_i hst
    split at hs
    · cases hs
      exact .event hcl (h.disconnect hpc hreg hcl)
    · obtain ⟨k, hk, heq⟩ := Option.map_eq_some_iff.mp hs
      cases heq
      exact .event hcl (h.connect hpc hreg hcl hst hk)
  · cases hs
    obtain ⟨hends, -, hquiet⟩ := h.check hpc hreg
    refine .event hcl ⟨⟨fun _ f hf hsame => hquiet f hf hsame.1 hsame.2, fun _ => ?_, fun _ => ?_⟩,
      (h.goOn hends ?_ (fun j => id)).raise hcl ?_ ?_ ?_⟩
    · rintro ⟨⟩
    · rintro ⟨⟩
    · rw [hpc]
      exact fun _ => id
    · rintro ⟨⟩
    · rintro (⟨⟨⟩⟩ | ⟨⟨⟩⟩)
    · exact fun hreads => hreads.elim

/-- The handlers of a socket that is bound or listening. -/
lemma ProtocolInv.evtcb_server (h : ProtocolInv servers s log) {sockerr : Int} {st : Stage}
    {e : SockEntry} {rest : List BatchEntry} (hpc : s.pc = .check st e rest)
    (hserv : servers e.sock = true) {ev : Option (Nat × SockEvent)}
    (hs : s.evtcb st sockerr e rest = some (t, ev)) : Follows servers s t ev log := by
  have hends : ∀ i, ¬ s.pc.Ends i := by
    rw [hpc]
    exact fun _ => id
  have hcl : servers e.sock ≠ false := by
    rw [hserv]
    decide
  have hentries : ∀ b ∈ BatchEntry.sock e :: rest, b ∈ s.pc.entries := by
    rw [hpc]
    exact fun _ => id
  have hclose : ∀ st', ProtocolInv servers { s.close e.sock with pc := .listener st' e rest } log :=
    fun st' => (h.operates (operates_close (h.tcp e.sock))).goOn hends hentries (fun _ => id)
  cases st with
  | EVT_READ =>
    simp only [evtcb, TaskSockets.OnEventRead, Option.some.injEq] at hs
    split at hs
    · cases hs
      refine .server hserv (h.goTo (fun i _ hi => absurd hi (hends i)) hentries ?_)
      intro f hf _ hreads
      have hown : e.sock = f.sock := hreads
      rw [hown] at hcl
      exact absurd (h.clients f hf) hcl
    · cases hs
      exact .server hserv (h.goOn hends hentries (fun _ => id))
  | EVT_HANGUP =>
    cases hs
    exact .server hserv (hclose _)
  | EVT_WRITE =>
    simp only [evtcb, TaskSockets.OnEventWrite] at hs
    split at hs
    · split at hs
      · cases hs
        exact .server hserv (hclose _)
      · obtain ⟨k, -, heq⟩ := Option.map_eq_some_iff.mp hs
        cases heq
        exact .server hserv ((h.operates (operates_setSock (Nat.le_refl _)
          (fun hc => absurd hc hcl) (fun hc => absurd hc hcl) (fun hc => absurd hc hcl))).goOn
            hends hentries (fun _ => id))
    · cases hs
      exact .server hserv (h.goOn hends hentries (fun _ => id))
  | release => cases hs

lemma ProtocolInv.evtcb (h : ProtocolInv servers s log) {sockerr : Int} {st : Stage}
    {e : SockEntry} {rest : List BatchEntry} (hpc : s.pc = .check st e rest)
    (hreg : s.isReg e = true) (hcl : servers e.sock = false) (hcalls : e.events.calls st = true)
    {ev : Option (Nat × SockEvent)} (hs : s.evtcb st sockerr e rest = some (t, ev)) :
    Follows servers s t ev log := by
  cases st with
  | EVT_READ =>
    have hev : ∃ i event, ev = some (i, event) := by
      unfold TaskSockets.evtcb TaskSockets.OnEventRead at hs
      dsimp only at hs
      split at hs <;> cases hs <;> exact ⟨_, _, rfl⟩
    obtain ⟨i, event, rfl⟩ := hev
    have hown : i = e.sock := by
      unfold TaskSockets.evtcb TaskSockets.OnEventRead at hs
      dsimp only at hs
      split at hs <;> cases hs <;> rfl
    refine .event ?_ (h.OnEventRead hpc hreg hcl hcalls (Option.some.inj hs))
    rw [hown]
    exact hcl
  | EVT_HANGUP =>
    cases hs
    exact .event hcl (h.disconnect hpc hreg hcl)
  | EVT_WRITE => exact h.OnEventWrite hpc hreg hcl hs
  | release => cases hs

lemma ProtocolInv.esMain (h : ProtocolInv servers s log) {sockerr : Int}
    {ev : Option (Nat × SockEvent)} (hs : s.esMain sockerr = some (t, ev)) :
    Follows servers s t ev log := by
  unfold TaskSockets.esMain at hs
  split at hs
  · rename_i hpc
    cases hs
    exact .silent (h.goOn (by rw [hpc]; exact fun _ => id) (fun e he => by cases he)
      (fun _ => id))
  · rename_i rest hpc
    cases hs
    refine .silent (h.goOn (by rw [hpc]; exact fun _ => id) (fun e he => ?_) (fun _ => id))
    rw [hpc]
    exact List.mem_cons_of_mem _ he
  · rename_i e rest hpc
    cases hs
    refine .silent (h.goOn (by rw [hpc]; exact fun _ => id) (fun e he => ?_) (fun _ => id))
    rw [hpc]
    exact he
  · rename_i st e rest hpc
    have hends : ∀ i, ¬ s.pc.Ends i := by
      rw [hpc]
      exact fun _ => id
    split at hs
    · cases hs
      refine .silent (h.goOn hends (fun e he => ?_) (fun _ => id))
      rw [hpc]
      exact List.mem_cons_of_mem _ he
    · rename_i hreg
      have hreg : s.isReg e = true := by simpa using hreg
      split at hs
      · rename_i hcalls
        cases hcl : servers e.sock with
        | true => exact h.evtcb_server hpc hcl hs
        | false => exact h.evtcb hpc hreg hcl hcalls hs
      · cases hs
        refine .silent (h.goOn hends (fun e he => ?_) (fun _ => nextStage_reads))
        rw [hpc]
        exact mem_nextStage e he
  · cases hs

/-- `OnEventRead` raises the disconnect after its first listener. -/
lemma ProtocolInv.disconnectRead (h : ProtocolInv servers s log) {cb : Callback} {e : SockEntry}
    {rest : List BatchEntry} (hpc : s.pc = .OnRead cb e rest) :
    Protocol log ⟨cb.sock, s.conn cb.sock, s.child cb.sock, .SOCK_EVENT_DISCONNECTED⟩ where
  disconnected _ f hf hsame := by
    refine h.reading f hf ?_ ?_
    · rw [hsame.1]
      exact hsame.2
    · rw [hpc]
      exact hsame.1.symm
  connected _ := by rintro ⟨⟩
  read _ := by rintro ⟨⟩

lemma ProtocolInv.listenerReturn (h : ProtocolInv servers s log)
    (hok : s.ends servers .listenerReturn = true) {ev : Option (Nat × SockEvent)}
    (hs : s.listenerReturn = some (t, ev)) : Follows servers s t ev log := by
  unfold TaskSockets.listenerReturn at hs
  split at hs
  · rename_i cb e rest hpc
    have hends : ∀ i, ¬ s.pc.Ends i := by
      rw [hpc]
      exact fun _ => id
    split at hs
    · cases hs
      have hentries : ∀ b ∈ BatchEntry.sock e :: rest, b ∈ s.pc.entries := by
        rw [hpc]
        exact fun _ => id
      have hgo : ProtocolInv servers
          { s with pc := .OnDisconnected (.start cb.sock true) e rest } log :=
        h.goOn hends hentries (fun _ => id)
      cases hcl : servers cb.sock with
      | true => exact .server hcl hgo
      | false => exact .event hcl ⟨h.disconnectRead hpc, hgo.raise hcl (fun _ => .inr ⟨rfl, rfl⟩)
          (fun hev => by rcases hev with ⟨⟨⟩⟩ | ⟨⟨⟩⟩) (fun hreads => hreads.elim)⟩
    · cases hs
      refine .silent (h.goOn hends (fun e he => ?_) (fun _ => nextStage_reads))
      rw [hpc]
      exact mem_nextStage e he
  · rename_i cb e rest hpc
    cases hs
    simp only [ends, hpc, Bool.or_eq_true, decide_eq_true_eq, Option.isNone_iff_eq_none] at hok
    have hentries : ∀ b ∈ (nextStage .EVT_READ e rest).entries, b ∈ s.pc.entries := by
      rw [hpc]
      exact mem_nextStage
    split
    · refine .silent ((h.operates (operates_close (h.tcp cb.sock))).goTo (fun i hi' hi => ?_)
        hentries (fun _ _ _ hr => absurd hr nextStage_reads))
      have hi : s.pc.Ends i := hi
      rw [hpc] at hi
      rw [← hi.1] at hi' ⊢
      exact close_mEvt (h.tcp cb.sock hi')
    · rename_i herr
      refine .silent (h.goTo (fun i hi' hi => ?_) hentries
        (fun _ _ _ hr => absurd hr nextStage_reads))
      rw [hpc] at hi
      obtain ⟨rfl, hopen⟩ := hi
      rcases hok with ((hserv | hclosed) | hfd) | hne
      · rw [hserv] at hi'
        cases hi'
      · rw [hopen] at hclosed
        cases hclosed
      · exact (h.tcp cb.sock hi').mEvt_of_mFd hfd
      · exact absurd hne herr
  · rename_i st e rest hpc
    cases hs
    refine .silent (h.goOn (by rw [hpc]; exact fun _ => id) (fun e he => ?_)
      (fun _ => nextStage_reads))
    rw [hpc]
    exact mem_nextStage e he
  · rename_i rest hpc
    cases hs
    refine .silent (h.goOn (by rw [hpc]; exact fun _ => id) (fun e he => ?_) (fun _ => id))
    rw [hpc]
    exact he
  · cases hs

lemma ProtocolInv.run (h : ProtocolInv servers s log) {a : SockAction}
    (htcp : tcpOnly servers a = true) (hok : s.ends servers a = true)
    {ev : Option (Nat × SockEvent)} (hs : s.run a = some (t, ev)) : Follows servers s t ev log := by
  cases a with
  | epoll_wait es =>
    simp only [TaskSockets.run, Option.ite_none_right_eq_some, Option.some.injEq] at hs
    obtain ⟨⟨hpc, hreports⟩, heq⟩ := hs
    cases heq
    refine .silent ⟨h.tcp, fun e he hcl => ?_, h.clients, h.past, fun f hf hconn hev => ?_,
      h.connecting, h.client, fun _ _ _ hr => hr.elim⟩
    · have hrep := List.all_eq_true.mp hreports _ he
      simp only [reports, Option.any_eq_true, Bool.and_eq_true, Bool.or_eq_true,
        Bool.not_eq_true', decide_eq_true_eq] at hrep
      obtain ⟨r, hr, ⟨⟨hid, hread⟩, -⟩, -⟩ := hrep
      have hlt := ((h.tcp e.sock hcl).evt r hr).2.2
      refine ⟨by rw [← hid]; exact hlt, fun hin _ hst => ?_⟩
      have hno := (h.tcp e.sock hcl).connecting hst r hr
      rw [hin, hno] at hread
      rcases hread with hread | hread <;> cases hread
    · left
      refine (h.ended f hf hconn hev).resolve_right ?_
      rw [hpc]
      exact id
  | esMain sockerr => exact h.esMain hs
  | listenerReturn => exact h.listenerReturn hok hs
  | openSock i type fd =>
    obtain ⟨-, ht, rfl⟩ := user_some hs
    cases ht
    refine .silent (h.operates (operates_setSock (Nat.le_refl _) (fun hcl => ?_)
      (fun _ r hr => ⟨r, hr, rfl⟩) (fun _ => .inl rfl)))
    simp only [tcpOnly, hcl, Bool.false_or, decide_eq_true_eq] at htcp
    simp only [ends, hcl, Bool.false_or, Bool.or_eq_true, Option.isNone_iff_eq_none] at hok
    subst htcp
    exact (h.tcp i hcl).openSock hok
  | bindSock i fd bound added =>
    obtain ⟨-, ht, rfl⟩ := user_some hs
    obtain ⟨k, hk, rfl⟩ := Option.map_eq_some_iff.mp ht
    exact .silent (h.operates (operates_server htcp))
  | listenSock i fd bound listened added =>
    obtain ⟨-, ht, rfl⟩ := user_some hs
    obtain ⟨k, hk, rfl⟩ := Option.map_eq_some_iff.mp ht
    exact .silent (h.operates (operates_server htcp))
  | openChildSock i fd added =>
    obtain ⟨-, ht, rfl⟩ := user_some hs
    obtain ⟨k, hk, rfl⟩ := Option.map_eq_some_iff.mp ht
    refine .silent (h.operates (operates_opened (fun hcl => ?_) (fun hcl => ?_)))
    · exact ((h.tcp i hcl).openChildSock (s.pevt_eq added) hk).2.1
    · exact ⟨fun _ _ => .inr ((h.tcp i hcl).openChildSock (s.pevt_eq added) hk).1, fun _ => rfl⟩
  | connectIp i fd added =>
    obtain ⟨-, ht, rfl⟩ := user_some hs
    obtain ⟨k, hk, rfl⟩ := Option.map_eq_some_iff.mp ht
    cases hcl : servers i with
    | true => exact .silent (h.operates (operates_connected_server hcl))
    | false =>
      exact .silent (h.operates
        (operates_connected ((h.tcp i hcl).connectIp (s.pevt_eq added) hk) (h.tcp i hcl)))
  | connectAddr i fd cnn added =>
    obtain ⟨-, ht, rfl⟩ := user_some hs
    obtain ⟨k, hk, rfl⟩ := Option.map_eq_some_iff.mp ht
    cases hcl : servers i with
    | true => exact .silent (h.operates (operates_connected_server hcl))
    | false =>
      unfold EdSocket.connectAddr at hk
      rw [if_pos (.inl (h.tcp i hcl).type)] at hk
      exact .silent (h.operates
        (operates_connected ((h.tcp i hcl).connectIp (s.pevt_eq added) hk) (h.tcp i hcl)))
  | changeEvent i flags added =>
    obtain ⟨-, ht, rfl⟩ := user_some hs
    obtain ⟨k, hk, rfl⟩ := Option.map_eq_some_iff.mp ht
    cases hcl : servers i with
    | true => exact .silent (h.operates (operates_server hcl))
    | false =>
      simp only [ends, hcl, Bool.false_or, Bool.and_eq_true, Bool.or_eq_true, Bool.not_eq_true',
        decide_eq_true_eq] at hok
      obtain ⟨hreg, hflags⟩ := hok
      obtain ⟨hinv, hst, hevt⟩ := (h.tcp i hcl).changeEvent hreg
        (fun hc => hflags.resolve_left (fun hne => hne hc)) hk
      exact .silent (h.operates (operates_setSock (Nat.le_succ _)
        (fun _ => hinv.mono (Nat.le_succ _)) (fun _ => hevt) (fun _ => .inl hst)))
  | recv i ret =>
    obtain ⟨-, ht, rfl⟩ := user_some hs
    exact .silent (h.operates (operates_recv (h.tcp i) ht))
  | close i =>
    obtain ⟨-, ht, rfl⟩ := user_some hs
    cases ht
    exact .silent (h.operates (operates_userClose (h.tcp i)))

end TaskSockets

variable {x : Recorded TaskSockets Raised}

lemma new_protocolInv {servers : Nat → Bool} : TaskSockets.ProtocolInv servers .new [] where
  tcp i _ := by
    refine ⟨rfl, ?_, fun _ => rfl, ?_, ?_⟩
    · rintro r ⟨⟩
    · rintro ⟨⟩
    · rintro ⟨⟩
  entries e he := by cases he
  clients f hf := by cases hf
  past f hf := by cases hf
  ended f hf := by cases hf
  connecting f hf := by cases hf
  client i _ hst := by cases hst
  reading f hf := by cases hf

/-- In runs in which a socket is closed after a disconnect found by `OnEventRead`, connections
keep to the protocol. -/
theorem event_protocol (servers : Nat → Bool) (h : (eventHistory servers).Reaches
    (fun x a => (tcpOnly servers a && x.state.ends servers a) = true) x) :
    Always Protocol x.log := by
  have hinv : ∀ y, (eventHistory servers).Reaches
      (fun x a => (tcpOnly servers a && x.state.ends servers a) = true) y →
      y.state.ProtocolInv servers y.log := by
    intro y hy
    apply hy.invariant
    · rintro y ⟨h0, hlog⟩
      rw [h0, hlog]
      exact new_protocolInv
    · intro y a z _ hI hok hs
      obtain ⟨hstep, hlog⟩ := recorded_step hs
      obtain ⟨ev, hrun⟩ := TaskSockets.step_run hstep
      rw [Bool.and_eq_true] at hok
      rw [hlog, TaskSockets.raised, hrun]
      exact (hI.run hok.1 hok.2 hrun).inv
  refine recorded_always ?_ h
  intro x a t e hr hok hs he
  obtain ⟨ev, hrun⟩ := TaskSockets.step_run hs
  rw [Bool.and_eq_true] at hok
  rw [TaskSockets.raised, hrun] at he
  exact ((hinv x hr).run hok.1 hok.2 hrun).protocol e he

/-- Socket 0 listens. A client connects, asks for `EVT_WRITE`, reads to the end of file and
leaves its socket open. -/
theorem event_protocol_client :
    ∃ x, (eventHistory (fun i => i = 0)).Reaches
        (fun x a => (tcpOnly (fun i => i = 0) a && x.state.ends (fun i => i = 0) a) = true) x ∧
      x.log = [⟨2, 1, false, .SOCK_EVENT_CONNECTED⟩, ⟨2, 1, false, .SOCK_EVENT_READ⟩,
        ⟨2, 1, false, .SOCK_EVENT_WRITE⟩, ⟨2, 1, false, .SOCK_EVENT_READ⟩,
        ⟨2, 1, false, .SOCK_EVENT_DISCONNECTED⟩] ∧ Always Protocol x.log := by
  obtain ⟨x, hr, hx⟩ := System.exists_of_exec_restrict (M := eventHistory (fun i => i = 0))
    (T := fun x a => tcpOnly (fun i => i = 0) a && x.state.ends (fun i => i = 0) a)
    (s := ⟨.new, []⟩) ⟨rfl, rfl⟩
    (show (((eventHistory (fun i => i = 0)).restrict
        (fun x a => tcpOnly (fun i => i = 0) a && x.state.ends (fun i => i = 0) a)).exec ⟨.new, []⟩
      [.epoll_wait [.other], .esMain 0, .listenSock 0 (some 4) true true true,
        .connectIp 2 (some 5) true, .listenerReturn, .esMain 0,
        .epoll_wait [.sock ⟨0, 0, ⟨true, false, false, false, false⟩⟩,
          .sock ⟨2, 1, ⟨false, false, false, false, true⟩⟩],
        .esMain 0, .esMain 0, .listenerReturn, .esMain 0, .esMain 0, .esMain 0,
        .esMain 0, .esMain 0, .esMain 0, .esMain 0, .changeEvent 2 ⟨true, true, true⟩ true,
        .listenerReturn, .esMain 0, .esMain 0,
        .epoll_wait [.sock ⟨2, 1, ⟨true, false, false, false, true⟩⟩], .esMain 0, .esMain 0,
        .recv 2 1, .listenerReturn, .esMain 0, .esMain 0, .listenerReturn, .esMain 0, .esMain 0,
        .epoll_wait [.sock ⟨2, 1, ⟨true, false, false, false, false⟩⟩], .esMain 0, .esMain 0,
        .recv 2 0, .listenerReturn, .listenerReturn]).map (fun x => x.log) =
      some [⟨2, 1, false, .SOCK_EVENT_CONNECTED⟩, ⟨2, 1, false, .SOCK_EVENT_READ⟩,
        ⟨2, 1, false, .SOCK_EVENT_WRITE⟩, ⟨2, 1, false, .SOCK_EVENT_READ⟩,
        ⟨2, 1, false, .SOCK_EVENT_DISCONNECTED⟩] by decide +kernel)
  exact ⟨x, hr, hx, event_protocol _ hr⟩

/-- The listener of a disconnect closes another socket: its own stays open, and is read again. -/
theorem not_event_protocol : ¬ ∀ servers x, (eventHistory servers).Reaches
    (fun _ a => tcpOnly servers a = true) x → Always Protocol x.log := by
  intro h
  obtain ⟨x, hr, hx⟩ := System.exists_of_exec_restrict (M := eventHistory (fun _ => false))
    (T := fun _ a => tcpOnly (fun _ => false) a) (s := ⟨.new, []⟩) ⟨rfl, rfl⟩
    (show (((eventHistory (fun _ => false)).restrict
        (fun _ a => tcpOnly (fun _ => false) a)).exec ⟨.new, []⟩
      (childReads ++ [.recv 0 0, .listenerReturn, .close 1, .listenerReturn, .esMain 0, .esMain 0,
        .esMain 0, .esMain 0, .epoll_wait [.sock ⟨0, 0, ⟨true, false, false, false, false⟩⟩],
        .esMain 0, .esMain 0])).map (fun x => x.log) =
      some ([⟨0, 1, true, .SOCK_EVENT_READ⟩, ⟨0, 1, true, .SOCK_EVENT_DISCONNECTED⟩] ++
        ⟨0, 1, true, .SOCK_EVENT_READ⟩ :: []) by decide +kernel)
  exact (h _ x hr _ _ _ hx).disconnected (.inr (.inl rfl)) _
    (List.mem_cons_of_mem _ List.mem_cons_self) ⟨rfl, rfl⟩ rfl

end EdNio.Net
