import Letmein.UdpInv

/-!
# Datagram accounting over whole runs

`nr_queued_dgrams` is kept by hand: `tryRecv` adds one for a datagram it files, `tryRecvFrom` takes
one for a datagram it returns and `disconnect` takes a whole queue. The removal of a connection on
queue overflow takes nothing, so from then on the counter is too high, and the dispatcher panics as
soon as the last connection is closed.
-/

namespace Letmein
namespace UdpDispatcherRx

variable {msgSize qSize : Nat} {s s' : UdpDispatcherRx msgSize qSize} {call : UdpCall msgSize}

theorem tryAccept_wf {socket : SockRecv msgSize} {it : IterOrder SocketAddr}
    {r : UdpRet msgSize qSize (Option SocketAddr)} (h : s.Wf) (hr : s.tryAccept socket it = .ok r) :
    r.rx.Wf := by
  obtain ⟨r₀, h₀, ⟨-, hrx⟩ | ⟨k, c, -, hk, -, -, hrx⟩⟩ := tryAccept_ok hr
  · rw [hrx]; exact h₀.wf h
  · rw [hrx]; exact (h₀.wf h).put hk (Nat.le_refl _) rfl rfl

theorem tryRecvFrom_wf {socket : SockRecv msgSize} {peer : SocketAddr}
    {r : UdpRet msgSize qSize (Except String (Option (Datagram msgSize)))} (h : s.Wf)
    (hr : s.tryRecvFrom socket peer = .ok r) : r.rx.Wf := by
  obtain ⟨r₀, h₀, ⟨hrx, -⟩ | ⟨c, buf, rest, hk, hq, hnr, -, hrx⟩⟩ := tryRecvFrom_ok hr
  · rw [hrx]; exact h₀.wf h
  · rw [hrx]
    refine (h₀.wf h).put hk ?_ rfl ?_ <;> simp only [hq, List.length_cons] <;> omega

theorem exec_wf (h : s.Wf) (he : s.exec call = .ok s') : s'.Wf := by
  cases call with
  | tryAccept socket it =>
    obtain ⟨r, hr, rfl⟩ := Except.of_map_ok he
    exact tryAccept_wf h hr
  | tryRecvFrom socket peer =>
    obtain ⟨r, hr, rfl⟩ := Except.of_map_ok he
    exact tryRecvFrom_wf h hr
  | disconnect peer =>
    rw [disconnect_ok he]
    exact h.forget peer

theorem exec_exact (h : s.Exact) (hno : ¬ s.Overflows call) (he : s.exec call = .ok s') : s'.Exact := by
  cases call with
  | tryAccept socket it =>
    obtain ⟨r, hr, rfl⟩ := Except.of_map_ok he
    obtain ⟨r₀, h₀, ⟨-, hrx⟩ | ⟨k, c, -, hk, -, -, hrx⟩⟩ := tryAccept_ok hr
    · rw [hrx]; exact h₀.exact h hno
    · rw [hrx]; exact (h₀.exact h hno).put hk rfl
  | tryRecvFrom socket peer =>
    obtain ⟨r, hr, rfl⟩ := Except.of_map_ok he
    obtain ⟨r₀, h₀, ⟨hrx, -⟩ | ⟨c, buf, rest, hk, hq, hnr, -, hrx⟩⟩ := tryRecvFrom_ok hr
    · rw [hrx]; exact h₀.exact h hno
    · rw [hrx]
      refine (h₀.exact h hno).put hk ?_
      simp only [hq, List.length_cons]; omega
  | disconnect peer =>
    rw [disconnect_ok he]
    exact h.forget peer

/-- What `tryRecv` may panic with when the accounting is exact: the bound it asserts is met, since
no queue is longer than `qSize` and there are at most `maxNrConn` of them. -/
theorem tryRecv_panic_exact {socket : SockRecv msgSize} {p : Panic} (h : s.Wf) (hx : s.Exact)
    (he : s.tryRecv socket = .error p) : p = .arithOverflow := by
  obtain ⟨peer, buf, rfl, hlt, hroom, ⟨rfl, -⟩ | ⟨rfl, hmax⟩⟩ :=
    tryRecv_panic h.size_le h.entry_le he
  · rfl
  · exfalso
    have hpush := h.push hlt hroom
    have hle := Finmap.sumBy_le_size_mul (f := fun c : UdpConn msgSize => c.rxQueue.length) hpush.queue_le
    have hmul : (s.push peer buf).conn.size * qSize ≤ s.maxNrConn * qSize := Nat.mul_le_mul_right _ hroom
    have hqd : (s.push peer buf).queued = s.nrQueuedDgrams + 1 := by rw [queued_push, hx]
    rw [queued] at hqd
    omega

theorem exec_panic {p : Panic} (h : s.Wf) (hx : s.Exact) (he : s.exec call = .error p) :
    p = .arithOverflow := by
  cases call with
  | tryAccept socket it =>
    rcases Except.bind_error (Except.of_map_error he) with he | ⟨r₀, h₀, he⟩
    · exact tryRecv_panic_exact h hx he
    · split at he
      · cases he
      · split at he <;> cases he
  | tryRecvFrom socket peer =>
    rcases Except.bind_error (Except.of_map_error he) with he | ⟨r₀, h₀, he⟩
    · exact tryRecv_panic_exact h hx he
    · split at he
      · cases he
      · split at he
        · rename_i buf rest addr acc hk
          have hwf := (tryRecv_ok h₀).wf h
          have h1 := hwf.queued_le
          rw [queued_eq_entry_add _ peer, entry_of_lookup hk] at h1
          simp only [List.length_cons] at h1
          rw [checkedSub, if_pos (by omega)] at he
          cases he
        · cases he
  | disconnect peer =>
    simp only [exec, disconnect_eq] at he
    have h1 := queued_eq_entry_add s peer
    have h2 : s.nrQueuedDgrams = s.queued := hx
    rw [if_pos (by omega)] at he
    split at he
    · rename_i hne
      refine absurd ?_ hne.2
      have h3 : (s.forget peer).nrQueuedDgrams = (s.forget peer).queued := hx.forget peer
      rw [h3, queued, Finmap.size_eq_zero.1 hne.1]; rfl
    · cases he

theorem exec_overflow (hq : 0 < qSize) (h : s.Wf) (hx : s.Exact) (ho : s.Overflows call) :
    ∃ s', s.exec call = .ok s' ∧ ¬ s'.Exact := by
  -- an overflow is reported as an error, so neither caller goes on to touch a queue
  have hrecv : ∀ socket, s.SockOverflows socket →
      ∃ r e, s.tryRecv socket = .ok r ∧ r.val = .error e ∧ ¬ r.rx.Exact := by
    intro socket ho
    cases hr : s.tryRecv socket with
    | error p =>
      obtain ⟨peer, buf, rfl, hlt, -⟩ := tryRecv_panic h.size_le h.entry_le hr
      exact absurd ho.2 (Nat.ne_of_lt hlt)
    | ok r =>
      obtain ⟨hne, e, he⟩ := (tryRecv_ok hr).not_exact hq hx ho
      exact ⟨r, e, rfl, he, hne⟩
  cases call with
  | tryAccept socket it =>
    obtain ⟨r, e, hr, he, hne⟩ := hrecv socket ho
    refine ⟨r.rx, ?_, hne⟩
    simp only [exec, tryAccept, hr, bind, Except.bind, he]; rfl
  | tryRecvFrom socket peer =>
    obtain ⟨r, e, hr, he, hne⟩ := hrecv socket ho
    refine ⟨r.rx, ?_, hne⟩
    simp only [exec, tryRecvFrom, hr, bind, Except.bind, he]; rfl
  | disconnect peer => exact ho.elim

/-- The accounting is right where a run got to: the counter is the number of queued datagrams, or
the run was ended by something else than an assertion or a subtraction below zero. -/
def Accounted : Except Panic (UdpDispatcherRx msgSize qSize) → Prop
  | .ok s => s.nrQueuedDgrams = s.queued
  | .error p => p ≠ .connLen ∧ p ≠ .queueLen ∧ p ≠ .totalLen ∧ p ≠ .notDrained ∧ p ≠ .subOverflow

/-- From an exact state: the accounting is right after every prefix of the calls iff none of them
overflows a queue. -/
theorem accounted_iff_allSteps (hq : 0 < qSize) (h : s.Wf) (hx : s.Exact)
    (calls : List (UdpCall msgSize)) :
    (∀ pre, pre <+: calls → Accounted (runAll exec s pre)) ↔
      AllSteps exec (fun s call => ¬ s.Overflows call) s calls := by
  induction calls generalizing s with
  | nil =>
    refine ⟨fun _ => trivial, fun _ pre hpre => ?_⟩
    obtain rfl := List.prefix_nil.1 hpre
    exact hx
  | cons call calls ih =>
    constructor
    · intro hacc
      have hno : ¬ s.Overflows call := fun ho => by
        obtain ⟨s', hs', hne⟩ := exec_overflow hq h hx ho
        have := hacc [call] ⟨calls, rfl⟩
        rw [runAll_cons_ok hs'] at this
        exact hne this
      refine ⟨hno, fun s' hs' => ?_⟩
      refine (ih (exec_wf h hs') (exec_exact hx hno hs')).1 fun pre hpre => ?_
      have := hacc (call :: pre) (List.cons_prefix_cons.2 ⟨rfl, hpre⟩)
      rwa [runAll_cons_ok hs'] at this
    · rintro ⟨hno, hrest⟩ pre hpre
      cases pre with
      | nil => exact hx
      | cons c pre =>
        obtain ⟨rfl, htail⟩ := List.cons_prefix_cons.1 hpre
        cases hs' : s.exec c with
        | ok s' =>
          rw [runAll_cons_ok hs']
          exact (ih (exec_wf h hs') (exec_exact hx hno hs')).2 (hrest s' hs') pre htail
        | error p =>
          have hp := exec_panic h hx hs'
          rw [runAll, hs', hp]
          exact ⟨by decide, by decide, by decide, by decide, by decide⟩

/-- The accounting of a run is right at every point iff no call receives a datagram from a peer
whose queue is already full. -/
theorem accounting_iff_no_overflow (hq : 0 < qSize) (maxNrConn : Nat) (calls : List (UdpCall msgSize)) :
    (∀ pre, pre <+: calls →
      Accounted (runAll exec (new maxNrConn : UdpDispatcherRx msgSize qSize) pre)) ↔
      AllSteps exec (fun s call => ¬ s.Overflows call)
        (new maxNrConn : UdpDispatcherRx msgSize qSize) calls :=
  accounted_iff_allSteps hq (Wf.new maxNrConn) (Exact.new maxNrConn) calls

theorem accounting_iff_no_overflow_one :
    Accounted (runAll exec (new 8 : UdpDispatcherRx 56 4)
      [.tryRecvFrom (.zeros 56 (.v4 ⟨203, 0, 113, 7⟩ 4242)) (.v4 ⟨203, 0, 113, 9⟩ 53),
        .disconnect (.v4 ⟨203, 0, 113, 7⟩ 4242)]) := by
  refine (accounting_iff_no_overflow (by decide) 8 _).2 ?_ _ List.prefix_rfl
  exact ⟨fun h => absurd h.2 (by decide), fun s _ => ⟨id, fun s _ => trivial⟩⟩

/-- Five datagrams of one peer, none of them collected, and then its connection is closed. -/
def overflowCalls : List (UdpCall 56) :=
  List.replicate 5 (.tryRecvFrom (.zeros 56 (.v4 ⟨203, 0, 113, 7⟩ 4242)) (.v4 ⟨203, 0, 113, 9⟩ 53)) ++
    [.disconnect (.v4 ⟨203, 0, 113, 7⟩ 4242)]

/-- With the real message and queue sizes the fifth datagram finds the queue full. Its connection is
dropped with the counter left at 4, and closing the last connection then panics. -/
theorem accounting_broken_by_overflow :
    runAll exec (new 8 : UdpDispatcherRx 56 4) overflowCalls = .error .notDrained ∧
      ¬ Accounted (runAll exec (new 8 : UdpDispatcherRx 56 4) overflowCalls) :=
  ⟨rfl, fun h => h.2.2.2.1 rfl⟩

end UdpDispatcherRx
end Letmein
