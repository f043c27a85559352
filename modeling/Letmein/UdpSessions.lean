import Letmein.Lib.List
import Letmein.UdpAccounting

/-!
# UDP sessions and their connection entries

A session (`NetSocketUdp`) is what the server makes of a peer address that `accept` returned. It
lives until it is closed; its connection entry lives in the dispatcher. As long as no datagram
overflows the queue of an accepted connection, the two live together: every session that is not
closed owns the accepted entry of its peer, and no other session does.
-/

namespace Letmein

/-- The closed-flag of a session. `close` sets the flag first (`closing`) and then waits for the
dispatcher's lock to call `disconnect`. -/
inductive SessionState where
  | live
  | closing
  | closed
deriving DecidableEq, Repr

structure NetSocketUdp where
  peerAddr : SocketAddr
  state : SessionState
deriving DecidableEq, Repr

/-- The dispatcher and all sessions made from it, oldest first. -/
structure UdpServer (msgSize qSize : Nat) where
  rx : UdpDispatcherRx msgSize qSize
  sessions : List NetSocketUdp

/-- What can happen next: one pass of the loop of `accept`, one pass of the loop of `recv_from` for
a session, `close` of a session, and the `disconnect` that follows it. -/
inductive UdpEvent (msgSize : Nat) where
  | accept (socket : SockRecv msgSize) (it : IterOrder SocketAddr)
  | recv (i : Nat) (socket : SockRecv msgSize)
  | close (i : Nat)
  | disconnect (i : Nat)

namespace UdpServer

variable {msgSize qSize : Nat} {s s' : UdpServer msgSize qSize} {e : UdpEvent msgSize}

def new (maxNrConn : Nat) : UdpServer msgSize qSize := ⟨.new maxNrConn, []⟩

def step (s : UdpServer msgSize qSize) : UdpEvent msgSize → Except Panic (UdpServer msgSize qSize)
  | .accept socket it => do
    let r ← s.rx.tryAccept socket it
    match r.val with
    | some peerAddr => return ⟨r.rx, s.sessions ++ [⟨peerAddr, .live⟩]⟩
    | none => return { s with rx := r.rx }
  | .recv i socket =>
    match s.sessions[i]? with
    | some ⟨peerAddr, .live⟩ => (fun r => { s with rx := r.rx }) <$> s.rx.tryRecvFrom socket peerAddr
    | _ => return s
  | .close i =>
    match s.sessions[i]? with
    | some ⟨peerAddr, .live⟩ => return { s with sessions := s.sessions.set i ⟨peerAddr, .closing⟩ }
    | _ => return s
  | .disconnect i =>
    match s.sessions[i]? with
    | some ⟨peerAddr, .closing⟩ =>
      (⟨·, s.sessions.set i ⟨peerAddr, .closed⟩⟩) <$> s.rx.disconnect peerAddr
    | _ => return s

end UdpServer

namespace UdpDispatcherRx

variable {msgSize qSize : Nat} {s s' : UdpDispatcherRx msgSize qSize} {socket : SockRecv msgSize}
  {k peer : SocketAddr}

/-- `k` has an entry and it has been accepted. -/
def Accepted (s : UdpDispatcherRx msgSize qSize) (k : SocketAddr) : Prop :=
  ∃ c, s.conn.lookup k = some c ∧ c.accepted = true

/-- The datagram comes from a peer whose connection has been accepted and whose queue is full. -/
def SockDrops (s : UdpDispatcherRx msgSize qSize) : SockRecv msgSize → Prop
  | .datagram n peer _ => n = msgSize ∧ s.Accepted peer ∧ (s.entry peer).rxQueue.length = qSize
  | _ => False

theorem Accepted.push {buf : Datagram msgSize} (h : s.Accepted k) : (s.push peer buf).Accepted k := by
  obtain ⟨c, hc, hacc⟩ := h
  by_cases hk : k = peer
  · subst hk
    refine ⟨_, Finmap.lookup_insert _, ?_⟩
    rw [entry_of_lookup hc]; exact hacc
  · exact ⟨c, (Finmap.lookup_insert_of_ne _ hk).trans hc, hacc⟩

theorem Accepted.put {c : UdpConn msgSize} {nr : Nat} (h : s.Accepted k)
    (hc : peer = k → c.accepted = true) : (s.put peer c nr).Accepted k := by
  by_cases hk : k = peer
  · subst hk; exact ⟨c, Finmap.lookup_insert _, hc rfl⟩
  · obtain ⟨d, hd, hacc⟩ := h
    exact ⟨d, (Finmap.lookup_insert_of_ne _ hk).trans hd, hacc⟩

theorem Accepted.drop (h : s.Accepted k) (hne : k ≠ peer) : (s.drop peer).Accepted k := by
  obtain ⟨c, hc, hacc⟩ := h
  exact ⟨c, (Finmap.lookup_erase_ne hne).trans hc, hacc⟩

theorem Received.accepted {r : UdpRet msgSize qSize (Except String Unit)} (hr : Received s socket r)
    (hno : ¬ s.SockDrops socket) (h : s.Accepted k) : r.rx.Accepted k := by
  cases hr with
  | @overflow peer _ hfull =>
    refine h.drop fun hk => ?_
    exact hno ⟨rfl, hk ▸ h, hfull⟩
  | queued => exact h.push
  | _ => exact h

theorem Received.not_sockDrops {r : UdpRet msgSize qSize (Except String Unit)}
    (hr : Received s socket r) (hval : r.val = .ok ()) : ¬ s.SockDrops socket := by
  cases hr with
  | idle => exact id
  | queued hlt => exact fun h => absurd h.2.2 (Nat.ne_of_lt hlt)
  | _ => cases hval

theorem tryAccept_fresh {it : IterOrder SocketAddr} {r : UdpRet msgSize qSize (Option SocketAddr)}
    (h : s.Wf) (hr : s.tryAccept socket it = .ok r) (hval : r.val = some peer) :
    ¬ s.Accepted peer ∧ r.rx.Accepted peer := by
  obtain ⟨r₀, h₀, ⟨hnone, -⟩ | ⟨k, c, hok, hk, hacc, hsome, hrx⟩⟩ := tryAccept_ok hr
  · rw [hnone] at hval; cases hval
  have hpeer : k = peer := by
    rw [hsome] at hval
    cases hval
    exact ((h₀.wf h).peer k c hk).symm
  subst hpeer
  constructor
  · intro hs
    obtain ⟨d, hd, hdacc⟩ := h₀.accepted (h₀.not_sockDrops hok) hs
    rw [hk] at hd
    cases hd
    rw [hacc] at hdacc
    cases hdacc
  · rw [hrx]
    exact ⟨_, Finmap.lookup_insert _, rfl⟩

theorem tryAccept_accepted {it : IterOrder SocketAddr} {r : UdpRet msgSize qSize (Option SocketAddr)}
    (hr : s.tryAccept socket it = .ok r) (hno : ¬ s.SockDrops socket) (h : s.Accepted k) :
    r.rx.Accepted k := by
  obtain ⟨r₀, h₀, ⟨-, hrx⟩ | ⟨j, c, -, -, -, -, hrx⟩⟩ := tryAccept_ok hr
  · rw [hrx]; exact h₀.accepted hno h
  · rw [hrx]; exact (h₀.accepted hno h).put fun _ => rfl

theorem tryRecvFrom_accepted {r : UdpRet msgSize qSize (Except String (Option (Datagram msgSize)))}
    (hr : s.tryRecvFrom socket peer = .ok r) (hno : ¬ s.SockDrops socket) (h : s.Accepted k) :
    r.rx.Accepted k := by
  obtain ⟨r₀, h₀, ⟨hrx, -⟩ | ⟨c, buf, rest, hc, -, -, -, hrx⟩⟩ := tryRecvFrom_ok hr
  · rw [hrx]; exact h₀.accepted hno h
  · rw [hrx]
    refine (h₀.accepted hno h).put fun hk => ?_
    obtain ⟨d, hd, hacc⟩ := h₀.accepted hno h
    rw [← hk, hc] at hd
    cases hd
    exact hacc

end UdpDispatcherRx

namespace UdpServer

variable {msgSize qSize : Nat} {s s' : UdpServer msgSize qSize} {e : UdpEvent msgSize}

/-- The event makes the dispatcher drop an accepted connection. -/
def DropsAccepted (s : UdpServer msgSize qSize) : UdpEvent msgSize → Prop
  | .accept socket _ => s.rx.SockDrops socket
  | .recv i socket => (∃ peerAddr, s.sessions[i]? = some ⟨peerAddr, .live⟩) ∧ s.rx.SockDrops socket
  | .close _ => False
  | .disconnect _ => False

/-- Every session that is not closed owns the accepted entry of its peer. -/
structure Owned (s : UdpServer msgSize qSize) : Prop where
  wf : s.rx.Wf
  accepted : ∀ (i : Nat) (c : NetSocketUdp), s.sessions[i]? = some c → c.state ≠ .closed → s.rx.Accepted c.peerAddr
  unique : ∀ (i j : Nat) (c d : NetSocketUdp), s.sessions[i]? = some c → s.sessions[j]? = some d →
    c.state ≠ .closed → d.state ≠ .closed → c.peerAddr = d.peerAddr → i = j

namespace Owned

theorem new (maxNrConn : Nat) : (new maxNrConn : UdpServer msgSize qSize).Owned where
  wf := .new maxNrConn
  accepted i c h := by simp [UdpServer.new] at h
  unique i j c d h := by simp [UdpServer.new] at h

theorem with_rx (h : s.Owned) {rx : UdpDispatcherRx msgSize qSize} (hwf : rx.Wf)
    (hacc : ∀ k, s.rx.Accepted k → rx.Accepted k) : ({ s with rx := rx } : UdpServer msgSize qSize).Owned where
  wf := hwf
  accepted i c hi hc := hacc _ (h.accepted i c hi hc)
  unique := h.unique

theorem add (h : s.Owned) {peer : SocketAddr} (hfree : ∀ (i : Nat) (c : NetSocketUdp),
      s.sessions[i]? = some c → c.state ≠ .closed → c.peerAddr ≠ peer) (hacc : s.rx.Accepted peer) :
    (⟨s.rx, s.sessions ++ [⟨peer, .live⟩]⟩ : UdpServer msgSize qSize).Owned where
  wf := h.wf
  accepted i c hi hc := by
    rcases List.getElem?_concat_cases hi with hi | ⟨-, rfl⟩
    · exact h.accepted i c hi hc
    · exact hacc
  unique i j c d hi hj hc hd hcd := by
    rcases List.getElem?_concat_cases hi with hi | ⟨rfl, rfl⟩
    · rcases List.getElem?_concat_cases hj with hj | ⟨-, rfl⟩
      · exact h.unique i j c d hi hj hc hd hcd
      · exact absurd hcd (hfree i c hi hc)
    · rcases List.getElem?_concat_cases hj with hj | ⟨rfl, -⟩
      · exact absurd hcd.symm (hfree j d hj hd)
      · rfl

theorem advance (h : s.Owned) {rx : UdpDispatcherRx msgSize qSize} {i : Nat} {peer : SocketAddr}
    {st st' : SessionState} (hi : s.sessions[i]? = some ⟨peer, st⟩) (hst : st ≠ .closed) (hwf : rx.Wf)
    (hacc : ∀ k, s.rx.Accepted k → k ≠ peer ∨ st' ≠ .closed → rx.Accepted k) :
    (⟨rx, s.sessions.set i ⟨peer, st'⟩⟩ : UdpServer msgSize qSize).Owned where
  wf := hwf
  accepted j c hj hc := by
    rcases List.getElem?_set_cases hj with ⟨rfl, rfl⟩ | ⟨hne, hj⟩
    · exact hacc peer (h.accepted j _ hi hst) (.inr hc)
    · refine hacc _ (h.accepted j c hj hc) (.inl fun hp => ?_)
      exact hne (h.unique j i c _ hj hi hc hst hp)
  unique j k c d hj hk hc hd hcd := by
    rcases List.getElem?_set_cases hj with ⟨rfl, rfl⟩ | ⟨-, hj'⟩
    · rcases List.getElem?_set_cases hk with ⟨rfl, rfl⟩ | ⟨-, hk'⟩
      · rfl
      · exact h.unique j k _ d hi hk' hst hd hcd
    · rcases List.getElem?_set_cases hk with ⟨rfl, rfl⟩ | ⟨-, hk'⟩
      · exact h.unique j k c _ hj' hi hc hst hcd
      · exact h.unique j k c d hj' hk' hc hd hcd

theorem accept_fresh (h : s.Owned) {socket : SockRecv msgSize} {it : IterOrder SocketAddr}
    {r : UdpRet msgSize qSize (Option SocketAddr)} {peer : SocketAddr}
    (hr : s.rx.tryAccept socket it = .ok r) (hval : r.val = some peer) {i : Nat} {c : NetSocketUdp}
    (hi : s.sessions[i]? = some c) (hc : c.state ≠ .closed) : c.peerAddr ≠ peer := by
  intro hp
  have := h.accepted i c hi hc
  rw [hp] at this
  exact (UdpDispatcherRx.tryAccept_fresh h.wf hr hval).1 this

theorem step (h : s.Owned) (hno : ¬ s.DropsAccepted e) (hs : s.step e = .ok s') : s'.Owned := by
  cases e with
  | accept socket it =>
    obtain ⟨r, hr, hs⟩ := Except.bind_ok hs
    have hwf := UdpDispatcherRx.tryAccept_wf h.wf hr
    have hrx := h.with_rx hwf fun k => UdpDispatcherRx.tryAccept_accepted hr hno
    split at hs
    · rename_i peer hval
      cases hs
      exact hrx.add (fun i c hi hc => h.accept_fresh hr hval hi hc)
        (UdpDispatcherRx.tryAccept_fresh h.wf hr hval).2
    · cases hs; exact hrx
  | recv i socket =>
    simp only [UdpServer.step] at hs
    split at hs
    · rename_i peer hi
      obtain ⟨r, hr, rfl⟩ := Except.of_map_ok hs
      exact h.with_rx (UdpDispatcherRx.tryRecvFrom_wf h.wf hr) fun k =>
        UdpDispatcherRx.tryRecvFrom_accepted hr fun hd => hno ⟨⟨peer, hi⟩, hd⟩
    · cases hs; exact h
  | close i =>
    simp only [UdpServer.step] at hs
    split at hs
    · rename_i peer hi
      cases hs
      exact h.advance hi (by decide) h.wf fun k hk _ => hk
    · cases hs; exact h
  | disconnect i =>
    simp only [UdpServer.step] at hs
    split at hs
    · rename_i peer hi
      obtain ⟨rx, hrx, rfl⟩ := Except.of_map_ok hs
      rw [UdpDispatcherRx.disconnect_ok hrx]
      refine h.advance hi (by decide) (h.wf.forget peer) fun k hk hne => ?_
      exact hk.drop (hne.resolve_right fun hst => hst rfl)
    · cases hs; exact h

end Owned

/-- In every run in which no datagram overflows the queue of an accepted connection: `accept` never
returns the peer of a session that has not been closed, sessions that have not been closed have
different peers, and closing one of them keeps the connection entry of every other one. -/
theorem one_session_per_peer (maxNrConn : Nat) (events : List (UdpEvent msgSize))
    (hno : AllSteps step (fun s e => ¬ s.DropsAccepted e) (new maxNrConn : UdpServer msgSize qSize) events)
    (hrun : runAll step (new maxNrConn) events = .ok s) :
    (∀ socket it r peer (i : Nat) (c : NetSocketUdp), s.rx.tryAccept socket it = .ok r → r.val = some peer →
      s.sessions[i]? = some c → c.state ≠ .closed → c.peerAddr ≠ peer) ∧
    (∀ (i j : Nat) (c d : NetSocketUdp), i ≠ j → s.sessions[i]? = some c → s.sessions[j]? = some d → c.state ≠ .closed →
      d.state ≠ .closed → c.peerAddr ≠ d.peerAddr ∧
        ∀ rx, s.rx.disconnect c.peerAddr = .ok rx →
          rx.conn.lookup d.peerAddr = s.rx.conn.lookup d.peerAddr) := by
  have h : s.Owned := runAll_inv (fun _ _ _ h hG hs => h.step hG hs) (.new maxNrConn) hno hrun
  refine ⟨fun socket it r peer i c hr hval hi hc => h.accept_fresh hr hval hi hc, ?_⟩
  intro i j c d hij hi hj hc hd
  have hne : c.peerAddr ≠ d.peerAddr := fun hp => hij (h.unique i j c d hi hj hc hd hp)
  refine ⟨hne, fun rx hrx => ?_⟩
  rw [UdpDispatcherRx.disconnect_ok hrx]
  exact Finmap.lookup_erase_ne (Ne.symm hne)

/-- Datagrams of one peer that arrive while the server accepts, `n` of them. -/
noncomputable def knocks (n : Nat) : List (UdpEvent 56) :=
  List.replicate n (.accept (.zeros 56 (.v4 ⟨203, 0, 113, 7⟩ 4242))
    (.ofKeys [.v4 ⟨203, 0, 113, 7⟩ 4242] (by decide)))

theorem one_session_per_peer_two_knocks :
    ∃ s : UdpServer 56 4, runAll step (new 8) (knocks 2) = .ok s ∧
      s.sessions[0]? = some ⟨.v4 ⟨203, 0, 113, 7⟩ 4242, .live⟩ ∧
      ∀ socket it r, s.rx.tryAccept socket it = .ok r → r.val ≠ some (.v4 ⟨203, 0, 113, 7⟩ 4242) := by
  refine ⟨_, rfl, rfl, fun socket it r hr hval => ?_⟩
  refine (one_session_per_peer 8 (knocks 2) ?_ rfl).1 socket it r _ 0 _ hr hval rfl (by decide) rfl
  refine ⟨fun h => absurd h.2.2 (by decide), fun s hs => ?_⟩
  obtain rfl := Except.ok.inj hs
  exact ⟨fun h => absurd h.2.2 (by decide), fun _ _ => trivial⟩

/-- Five datagrams of one peer, its session open: the fifth removes the entry of the session, so the
sixth makes `accept` return the same peer again. -/
theorem two_sessions_per_peer_after_overflow :
    ∃ s r, runAll step (new 8 : UdpServer 56 4) (knocks 5) = .ok s ∧
      s.rx.tryAccept (.zeros 56 (.v4 ⟨203, 0, 113, 7⟩ 4242))
        (.ofKeys [.v4 ⟨203, 0, 113, 7⟩ 4242] (by decide)) = .ok r ∧
      r.val = some (.v4 ⟨203, 0, 113, 7⟩ 4242) ∧
      s.sessions[0]? = some ⟨.v4 ⟨203, 0, 113, 7⟩ 4242, .live⟩ :=
  ⟨_, _, rfl, rfl, rfl, rfl⟩

end UdpServer
end Letmein
