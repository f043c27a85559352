import Letmein.Lib.History
import Letmein.UdpAccounting

/-!
# Delivery of datagrams

A history of the dispatcher records every call with what it returned. A lifetime of a peer's entry is a part of a
history that starts where the peer has no entry and throughout which it has one. `delivery_step` says what one call
does to the peer's queue: what the call returns of it, followed by what it leaves there, is what there was, followed by
what the socket reported from the peer.
-/

namespace Letmein

/-- What a call of the dispatcher returned. -/
inductive UdpReturn (msgSize : Nat) where
  | accept (peerAddr : Option SocketAddr)
  | recvFrom (r : Except String (Option (Datagram msgSize)))
  | disconnect

variable {msgSize qSize : Nat}

/-- The datagram, if it has the size of a message and comes from the peer. -/
def SockRecv.sentBy (peer : SocketAddr) : SockRecv msgSize → List (Datagram msgSize)
  | .datagram n peerAddr buf => if n = msgSize ∧ peerAddr = peer then [buf] else []
  | .wouldBlock | .error _ => []

/-- What the socket reports in the call with the size of a message and from the peer. -/
def UdpCall.reported (peer : SocketAddr) : UdpCall msgSize → List (Datagram msgSize)
  | .tryAccept socket _ => socket.sentBy peer
  | .tryRecvFrom socket _ => socket.sentBy peer
  | .disconnect _ => []

/-- What `try_recv_from` returned for the peer. -/
def UdpCall.returnedTo (peer : SocketAddr) : UdpCall msgSize → UdpReturn msgSize → List (Datagram msgSize)
  | .tryRecvFrom _ peerAddr, .recvFrom (.ok (some buf)) => if peerAddr = peer then [buf] else []
  | _, _ => []

/-- `try_accept` returned the peer. -/
def UdpReturn.accepts (peer : SocketAddr) : UdpReturn msgSize → Bool
  | .accept (some peerAddr) => peerAddr = peer
  | _ => false

namespace UdpDispatcherRx

/-- A call, with what it returns. -/
def perform (s : UdpDispatcherRx msgSize qSize) :
    UdpCall msgSize → Except Panic (UdpReturn msgSize × UdpDispatcherRx msgSize qSize)
  | .tryAccept socket it => (fun r => (.accept r.val, r.rx)) <$> s.tryAccept socket it
  | .tryRecvFrom socket peerAddr => (fun r => (.recvFrom r.val, r.rx)) <$> s.tryRecvFrom socket peerAddr
  | .disconnect peerAddr => (fun rx => (.disconnect, rx)) <$> s.disconnect peerAddr

variable {s s' : UdpDispatcherRx msgSize qSize} {socket : SockRecv msgSize} {peer : SocketAddr}
  {call : UdpCall msgSize} {ret : UdpReturn msgSize}

theorem exec_of_perform (h : s.perform call = .ok (ret, s')) : s.exec call = .ok s' := by
  rcases call with ⟨socket, it⟩ | ⟨socket, peer⟩ | peer
  · obtain ⟨r, hr, heq⟩ := Except.of_map_ok h
    cases heq
    show (·.rx) <$> s.tryAccept socket it = _
    rw [hr]
    rfl
  · obtain ⟨r, hr, heq⟩ := Except.of_map_ok h
    cases heq
    show (·.rx) <$> s.tryRecvFrom socket peer = _
    rw [hr]
    rfl
  · obtain ⟨rx, hr, heq⟩ := Except.of_map_ok h
    cases heq
    exact hr

/-! ### One call -/

theorem entry_congr (h : s'.conn.lookup peer = s.conn.lookup peer) : s'.entry peer = s.entry peer := by
  rw [entry, entry, h]

theorem mem_congr (h : s'.conn.lookup peer = s.conn.lookup peer) : peer ∈ s'.conn ↔ peer ∈ s.conn := by
  rw [Finmap.mem_iff, Finmap.mem_iff, h]

theorem lookup_drop_of_ne {k : SocketAddr} (h : peer ≠ k) : (s.drop k).conn.lookup peer = s.conn.lookup peer :=
  Finmap.lookup_erase_ne h

theorem lookup_push_of_ne {k : SocketAddr} (h : peer ≠ k) (buf : Datagram msgSize) :
    (s.push k buf).conn.lookup peer = s.conn.lookup peer :=
  Finmap.lookup_insert_of_ne _ h

theorem entry_push_self (s : UdpDispatcherRx msgSize qSize) (peer : SocketAddr) (buf : Datagram msgSize) :
    (s.push peer buf).entry peer = { s.entry peer with rxQueue := (s.entry peer).rxQueue ++ [buf] } :=
  entry_of_lookup (s := s.push peer buf) (Finmap.lookup_insert s.conn)

theorem notMem_drop (s : UdpDispatcherRx msgSize qSize) (peer : SocketAddr) : peer ∉ (s.drop peer).conn :=
  Finmap.notMem_erase_self

@[simp] theorem sentBy_of_ne {n : Nat} {a b : SocketAddr} {buf : Datagram msgSize} (h : a ≠ b) :
    (SockRecv.datagram n b buf).sentBy a = [] :=
  if_neg fun hb => h hb.2.symm

/-- Pulling a datagram appends it to the queue of the peer that sent it, as long as the peer keeps its entry. -/
theorem Received.queue {r : UdpRet msgSize qSize (Except String Unit)} (hr : Received s socket r)
    (hmem : peer ∈ r.rx.conn) : (r.rx.entry peer).rxQueue = (s.entry peer).rxQueue ++ socket.sentBy peer ∧
      (r.rx.entry peer).accepted = (s.entry peer).accepted := by
  cases hr with
  | idle => simp [SockRecv.sentBy]
  | sockError e => simp [SockRecv.sentBy]
  | @badSize n sender buf hn => simp [SockRecv.sentBy, hn]
  | @overflow sender buf hfull =>
    have hne : peer ≠ sender := by
      rintro rfl
      exact notMem_drop s peer hmem
    have hsame := entry_congr (lookup_drop_of_ne (s := s) hne)
    simp [hne, hsame]
  | @tooMany sender buf hnew hfull =>
    have hne : peer ≠ sender := by
      rintro rfl
      exact hnew hmem
    simp [hne]
  | @queued sender buf hlt hroom hnr husize =>
    by_cases hne : peer = sender
    · subst hne
      simp [entry_push_self, SockRecv.sentBy]
    · have hsame := entry_congr (lookup_push_of_ne (s := s) hne buf)
      simp [hne, hsame]

/-- Pulling a datagram removes no entry but that of the peer that sent it. -/
theorem Received.removed {r : UdpRet msgSize qSize (Except String Unit)} (hr : Received s socket r)
    (hmem : peer ∈ s.conn) (hnot : peer ∉ r.rx.conn) : socket.sentBy peer ≠ [] := by
  cases hr with
  | @overflow sender buf hfull =>
    by_cases hne : peer = sender
    · simp [SockRecv.sentBy, hne]
    · exact absurd ((mem_congr (lookup_drop_of_ne hne)).mpr hmem) hnot
  | @queued sender buf hlt hroom hnr husize =>
    exact absurd (Finmap.mem_insert.mpr (.inr hmem)) hnot
  | _ => exact absurd hmem hnot

theorem mem_put {k : SocketAddr} {c : UdpConn msgSize} {nr : Nat} : peer ∈ (s.put k c nr).conn ↔ peer = k ∨ peer ∈ s.conn :=
  Finmap.mem_insert

theorem entry_put_self (s : UdpDispatcherRx msgSize qSize) (k : SocketAddr) (c : UdpConn msgSize) (nr : Nat) :
    (s.put k c nr).entry k = c :=
  entry_of_lookup (Finmap.lookup_insert s.conn)

theorem entry_put_of_ne {k : SocketAddr} (h : peer ≠ k) (c : UdpConn msgSize) (nr : Nat) :
    (s.put k c nr).entry peer = s.entry peer :=
  entry_congr (Finmap.lookup_insert_of_ne _ h)

/-- The same when the entry of another peer is changed after that. -/
theorem Received.queue_put {r : UdpRet msgSize qSize (Except String Unit)} (hr : Received s socket r) {k : SocketAddr}
    {c : UdpConn msgSize} {nr : Nat} (hne : peer ≠ k) (hmem : peer ∈ (r.rx.put k c nr).conn) :
    ((r.rx.put k c nr).entry peer).rxQueue = (s.entry peer).rxQueue ++ socket.sentBy peer ∧
      ((r.rx.put k c nr).entry peer).accepted = (s.entry peer).accepted := by
  rw [entry_put_of_ne hne]
  exact hr.queue ((mem_put.mp hmem).resolve_left hne)

theorem returnedTo_nothing {a : SocketAddr} {r : Except String (Option (Datagram msgSize))}
    (h : ∀ buf, r ≠ .ok (some buf)) : UdpCall.returnedTo peer (.tryRecvFrom socket a) (.recvFrom r) = [] := by
  unfold UdpCall.returnedTo
  split
  next heq =>
    rw [UdpReturn.recvFrom.injEq] at heq
    exact absurd heq (h _)
  next => rfl

/-- What a call does for a peer that has an entry after it. -/
structure Serves (peer : SocketAddr) (s s' : UdpDispatcherRx msgSize qSize) (call : UdpCall msgSize)
    (ret : UdpReturn msgSize) : Prop where
  queue : call.returnedTo peer ret ++ (s'.entry peer).rxQueue = (s.entry peer).rxQueue ++ call.reported peer
  accepted : (ret.accepts peer).toNat + (s.entry peer).accepted.toNat = (s'.entry peer).accepted.toNat

theorem tryAccept_serves {it : IterOrder SocketAddr} {r : UdpRet msgSize qSize (Option SocketAddr)} (h : s.Wf)
    (hr : s.tryAccept socket it = .ok r) (hmem : peer ∈ r.rx.conn) :
    Serves peer s r.rx (.tryAccept socket it) (.accept r.val) := by
  obtain ⟨r₀, h₀, ⟨hval, hrx⟩ | ⟨k, c, -, hk, hacc, hval, hrx⟩⟩ := tryAccept_ok hr
  · rw [hrx] at hmem
    obtain ⟨hqueue, haccepted⟩ := h₀.queue hmem
    refine ⟨?_, ?_⟩
    · rw [hrx, hqueue]
      rfl
    · rw [hrx, haccepted, hval]
      exact Nat.zero_add _
  · have hpeer : c.peerAddr = k := (h₀.wf h).peer k c hk
    have hentry := entry_of_lookup hk
    by_cases hne : peer = k
    · subst hne
      obtain ⟨hqueue, haccepted⟩ := h₀.queue (Finmap.mem_of_lookup_eq_some hk)
      rw [hentry] at hqueue haccepted
      refine ⟨?_, ?_⟩
      · rw [hrx, entry_put_self]
        exact hqueue
      · rw [hrx, entry_put_self, ← haccepted, hacc, hval]
        simp [UdpReturn.accepts, hpeer]
    · rw [hrx] at hmem ⊢
      obtain ⟨hqueue, haccepted⟩ := h₀.queue_put hne hmem
      refine ⟨hqueue, ?_⟩
      rw [haccepted, hval]
      simp [UdpReturn.accepts, hpeer, Ne.symm hne]

theorem tryRecvFrom_serves {a : SocketAddr} {r : UdpRet msgSize qSize (Except String (Option (Datagram msgSize)))}
    (hr : s.tryRecvFrom socket a = .ok r) (hmem : peer ∈ r.rx.conn) :
    Serves peer s r.rx (.tryRecvFrom socket a) (.recvFrom r.val) := by
  obtain ⟨r₀, h₀, ⟨hrx, hval⟩ | ⟨c, buf, rest, hk, hq, -, hval, hrx⟩⟩ := tryRecvFrom_ok hr
  · rw [hrx] at hmem
    obtain ⟨hqueue, haccepted⟩ := h₀.queue hmem
    refine ⟨?_, ?_⟩
    · rw [returnedTo_nothing hval, hrx, hqueue]
      rfl
    · rw [hrx, haccepted]
      exact Nat.zero_add _
  · have hentry := entry_of_lookup hk
    by_cases hne : peer = a
    · subst hne
      obtain ⟨hqueue, haccepted⟩ := h₀.queue (Finmap.mem_of_lookup_eq_some hk)
      rw [hentry] at hqueue haccepted
      refine ⟨?_, ?_⟩
      · rw [hrx, entry_put_self, hval, UdpCall.returnedTo, if_pos rfl, List.singleton_append, ← hq]
        exact hqueue
      · rw [hrx, entry_put_self, ← haccepted]
        exact Nat.zero_add _
    · rw [hrx] at hmem ⊢
      obtain ⟨hqueue, haccepted⟩ := h₀.queue_put hne hmem
      refine ⟨?_, ?_⟩
      · rw [hval, UdpCall.returnedTo, if_neg (Ne.symm hne)]
        exact hqueue
      · rw [haccepted]
        exact Nat.zero_add _

theorem forget_serves {a : SocketAddr} (hmem : peer ∈ (s.forget a).conn) :
    Serves peer s (s.forget a) (.disconnect a) .disconnect := by
  have hne : peer ≠ a := by
    rintro rfl
    exact notMem_drop s peer hmem
  have hsame : (s.forget a).entry peer = s.entry peer := entry_congr (lookup_drop_of_ne hne)
  refine ⟨?_, ?_⟩
  · rw [hsame]
    exact (List.append_nil _).symm
  · rw [hsame]
    exact Nat.zero_add _

/-- A peer that has an entry after a call is served by it. -/
theorem perform_serves (h : s.Wf) (hstep : s.perform call = .ok (ret, s')) (hmem : peer ∈ s'.conn) :
    Serves peer s s' call ret := by
  rcases call with ⟨socket, it⟩ | ⟨socket, a⟩ | a
  · obtain ⟨r, hr, heq⟩ := Except.of_map_ok hstep
    cases heq
    exact tryAccept_serves h hr hmem
  · obtain ⟨r, hr, heq⟩ := Except.of_map_ok hstep
    cases heq
    exact tryRecvFrom_serves hr hmem
  · obtain ⟨rx, hr, heq⟩ := Except.of_map_ok hstep
    cases heq
    rw [disconnect_ok hr] at hmem ⊢
    exact forget_serves hmem

/-- A call after which a peer has lost its entry returns nothing to it, and it is a call of `disconnect` or one in which
the socket reported a datagram of the peer. -/
theorem perform_removes (hstep : s.perform call = .ok (ret, s')) (hmem : peer ∈ s.conn) (hnot : peer ∉ s'.conn) :
    call.returnedTo peer ret = [] ∧ (call = .disconnect peer ∨ call.reported peer ≠ []) := by
  rcases call with ⟨socket, it⟩ | ⟨socket, a⟩ | a
  · obtain ⟨r, hr, heq⟩ := Except.of_map_ok hstep
    cases heq
    obtain ⟨r₀, h₀, ⟨-, hrx⟩ | ⟨k, c, -, hk, -, -, hrx⟩⟩ := tryAccept_ok hr
    · rw [hrx] at hnot
      exact ⟨rfl, .inr (h₀.removed hmem hnot)⟩
    · rw [hrx, mem_put, not_or] at hnot
      exact ⟨rfl, .inr (h₀.removed hmem hnot.2)⟩
  · obtain ⟨r, hr, heq⟩ := Except.of_map_ok hstep
    cases heq
    obtain ⟨r₀, h₀, ⟨hrx, hval⟩ | ⟨c, buf, rest, hk, -, -, hval, hrx⟩⟩ := tryRecvFrom_ok hr
    · rw [hrx] at hnot
      exact ⟨returnedTo_nothing hval, .inr (h₀.removed hmem hnot)⟩
    · rw [hrx, mem_put, not_or] at hnot
      refine ⟨?_, .inr (h₀.removed hmem hnot.2)⟩
      rw [hval, UdpCall.returnedTo, if_neg (Ne.symm hnot.1)]
  · obtain ⟨rx, hr, heq⟩ := Except.of_map_ok hstep
    cases heq
    refine ⟨rfl, .inl ?_⟩
    by_contra hne
    have hne : peer ≠ a := fun h => hne (by rw [h])
    rw [disconnect_ok hr] at hnot
    exact hnot ((mem_congr (lookup_drop_of_ne hne : (s.forget a).conn.lookup peer = _)).mpr hmem)

/-! ### Lifetimes -/

/-- One call of a history. -/
abbrev Served (msgSize qSize : Nat) := Record (UdpDispatcherRx msgSize qSize) (UdpCall msgSize) (UdpReturn msgSize)

def reportedBy (peer : SocketAddr) (hist : List (Served msgSize qSize)) : List (Datagram msgSize) :=
  hist.flatMap fun e => e.input.reported peer

def returnedBy (peer : SocketAddr) (hist : List (Served msgSize qSize)) : List (Datagram msgSize) :=
  hist.flatMap fun e => e.input.returnedTo peer e.output

/-- How many times `try_accept` returned the peer. -/
def acceptedBy (peer : SocketAddr) (hist : List (Served msgSize qSize)) : Nat :=
  hist.countP fun e => e.output.accepts peer

theorem perform_wf (h : s.Wf) (hstep : s.perform call = .ok (ret, s')) : s'.Wf :=
  exec_wf h (exec_of_perform hstep)

/-- While a peer keeps its entry, what is returned to it and what is still queued is what was queued at first and what
the socket has reported since. -/
theorem chained_serves {life : List (Served msgSize qSize)} (h : s.Wf) (hlife : Chained perform s life)
    (hmem : ∀ e ∈ life, peer ∈ e.state.conn) :
    returnedBy peer life ++ ((endState s life).entry peer).rxQueue =
      (s.entry peer).rxQueue ++ reportedBy peer life ∧
    acceptedBy peer life + (s.entry peer).accepted.toNat = ((endState s life).entry peer).accepted.toNat := by
  induction life generalizing s with
  | nil => exact ⟨(List.append_nil _).symm, Nat.zero_add _⟩
  | cons e life ih =>
    obtain ⟨hstep, hlife⟩ := hlife
    obtain ⟨hqueue, haccepted⟩ := perform_serves h hstep (hmem e List.mem_cons_self)
    obtain ⟨hqueues, haccepts⟩ := ih (perform_wf h hstep) hlife fun x hx => hmem x (List.mem_cons_of_mem _ hx)
    constructor
    · show (e.input.returnedTo peer e.output ++ returnedBy peer life) ++ ((endState e.state life).entry peer).rxQueue =
        (s.entry peer).rxQueue ++ (e.input.reported peer ++ reportedBy peer life)
      rw [List.append_assoc, hqueues, ← List.append_assoc, hqueue, List.append_assoc]
    · have hcount : acceptedBy peer (e :: life) = acceptedBy peer life + (e.output.accepts peer).toNat := by
        rw [acceptedBy, List.countP_cons]
        cases e.output.accepts peer <;> rfl
      rw [hcount]
      show _ = ((endState e.state life).entry peer).accepted.toNat
      omega

theorem perform_maxNrConn (hstep : s.perform call = .ok (ret, s')) : s'.maxNrConn = s.maxNrConn := by
  have hreceived : ∀ {socket : SockRecv msgSize} {r : UdpRet msgSize qSize (Except String Unit)},
      Received s socket r → r.rx.maxNrConn = s.maxNrConn := by
    intro socket r hr
    cases hr <;> rfl
  rcases call with ⟨socket, it⟩ | ⟨socket, a⟩ | a
  · obtain ⟨r, hr, heq⟩ := Except.of_map_ok hstep
    cases heq
    obtain ⟨r₀, h₀, ⟨-, hrx⟩ | ⟨k, c, -, -, -, -, hrx⟩⟩ := tryAccept_ok hr
    · rw [hrx, hreceived h₀]
    · rw [hrx]
      exact hreceived h₀
  · obtain ⟨r, hr, heq⟩ := Except.of_map_ok hstep
    cases heq
    obtain ⟨r₀, h₀, ⟨hrx, -⟩ | ⟨c, buf, rest, -, -, -, -, hrx⟩⟩ := tryRecvFrom_ok hr
    · rw [hrx, hreceived h₀]
    · rw [hrx]
      exact hreceived h₀
  · obtain ⟨rx, hr, heq⟩ := Except.of_map_ok hstep
    cases heq
    rw [disconnect_ok hr]
    rfl

/-- In every history: the limits hold after every call. In every lifetime of a peer's entry, the datagrams returned to
the peer, followed by those in its queue, are those that the socket reported from it, and the peer is accepted at most
once. The call that ends a lifetime returns nothing to the peer; it is `disconnect` or receives one more datagram. -/
theorem udp_delivery_fifo (maxNrConn : Nat) (calls : List (UdpCall msgSize)) (hist : List (Served msgSize qSize))
    (hrun : traceAll perform (new maxNrConn) calls = .ok hist) :
    (∀ e ∈ hist, e.state.conn.size ≤ maxNrConn ∧
      ∀ peer c, e.state.conn.lookup peer = some c → c.rxQueue.length ≤ qSize) ∧
    ∀ (peer : SocketAddr) (before life after : List (Served msgSize qSize)), hist = before ++ life ++ after →
      peer ∉ (endState (new maxNrConn) before).conn → (∀ e ∈ life, peer ∈ e.state.conn) →
      (∀ c, (endState (new maxNrConn) (before ++ life)).conn.lookup peer = some c →
        returnedBy peer life ++ c.rxQueue = reportedBy peer life) ∧
      acceptedBy peer life ≤ 1 ∧
      ∀ e rest, after = e :: rest → life ≠ [] → peer ∉ e.state.conn →
        e.input.returnedTo peer e.output = [] ∧ (e.input = .disconnect peer ∨ e.input.reported peer ≠ []) := by
  have hchain := Chained.of_traceAll hrun
  have hinv : ∀ (s : UdpDispatcherRx msgSize qSize) (i : UdpCall msgSize) o s',
      (s.Wf ∧ s.maxNrConn = maxNrConn) → s.perform i = .ok (o, s') → s'.Wf ∧ s'.maxNrConn = maxNrConn := by
    rintro s i o s' ⟨hwf, hmax⟩ hstep
    exact ⟨perform_wf hwf hstep, (perform_maxNrConn hstep).trans hmax⟩
  constructor
  · intro e he
    obtain ⟨hwf, hmax⟩ := (hchain.inv hinv ⟨.new maxNrConn, rfl⟩).2 e he
    exact ⟨by rw [← hmax]; exact hwf.size_le, hwf.queue_le⟩
  · rintro peer before life after rfl hnot hmem
    rw [List.append_assoc, Chained.append_iff, Chained.append_iff] at hchain
    obtain ⟨hbefore, hlife, hafter⟩ := hchain
    obtain ⟨hwf, -⟩ := (hbefore.inv hinv ⟨.new maxNrConn, rfl⟩).1
    obtain ⟨hqueues, haccepts⟩ := chained_serves hwf hlife hmem
    rw [entry_of_notMem hnot] at hqueues haccepts
    refine ⟨?_, ?_, ?_⟩
    · intro c hc
      rw [endState_append] at hc
      rw [entry_of_lookup hc] at hqueues
      exact hqueues
    · have hle := Bool.toNat_le ((endState (endState (new maxNrConn) before) life).entry peer).accepted
      simp only [Bool.toNat_false] at haccepts
      omega
    · rintro e rest rfl hne hgone
      have hlast : peer ∈ (endState (endState (new maxNrConn) before) life).conn :=
        endState_of_forall (P := fun s : UdpDispatcherRx msgSize qSize => peer ∈ s.conn) hne hmem
      exact perform_removes hafter.1 hlast hgone

/-- A datagram of one peer arrives while another one receives, and is then fetched. -/
def sampleDelivery : List (UdpCall 56) :=
  [.tryRecvFrom (.zeros 56 (.v4 ⟨203, 0, 113, 7⟩ 4242)) (.v4 ⟨198, 51, 100, 1⟩ 1000),
    .tryRecvFrom .wouldBlock (.v4 ⟨203, 0, 113, 7⟩ 4242)]

theorem udp_delivery_fifo_sample :
    ∃ hist : List (Served 56 4), traceAll perform (new 8) sampleDelivery = .ok hist ∧
      returnedBy (.v4 ⟨203, 0, 113, 7⟩ 4242) hist = [List.Vector.replicate 56 0] ∧
      (∀ c, (endState (new 8) hist).conn.lookup (.v4 ⟨203, 0, 113, 7⟩ 4242) = some c →
        returnedBy (.v4 ⟨203, 0, 113, 7⟩ 4242) hist ++ c.rxQueue = reportedBy (.v4 ⟨203, 0, 113, 7⟩ 4242) hist) ∧
      acceptedBy (.v4 ⟨203, 0, 113, 7⟩ 4242) hist ≤ 1 := by
  refine ⟨_, rfl, rfl, ?_⟩
  obtain ⟨-, hlife⟩ := @udp_delivery_fifo 56 4 8 sampleDelivery _ rfl
  obtain ⟨hqueue, haccepted, -⟩ := hlife (.v4 ⟨203, 0, 113, 7⟩ 4242) [] _ [] (List.append_nil _).symm (by decide)
    (by decide)
  exact ⟨hqueue, haccepted⟩

end UdpDispatcherRx

end Letmein
