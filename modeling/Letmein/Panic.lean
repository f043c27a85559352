import Mathlib.Algebra.Group.Nat.Defs

/-!
# Aborts

The release build aborts on a failed assertion and checks integer arithmetic for overflow, so a call
either returns or panics.
-/

namespace Letmein

inductive Panic where
  -- `assert!(self.conn.len() <= self.max_nr_conn)`
  | connLen
  -- `assert!(conn.rx_queue.len() <= Q_SIZE)`
  | queueLen
  -- `assert!(self.nr_queued_dgrams <= self.max_nr_conn * Q_SIZE)`
  | totalLen
  -- `assert_eq!(self.nr_queued_dgrams, 0)`
  | notDrained
  -- `-=` below zero.
  | subOverflow
  -- `+=` or `*` beyond `usize`.
  | arithOverflow
  -- `assert!(!self.shutdown)`
  | isShutdown
  -- The `assert_ne!` of `Lease::new`: a lease for the control port.
  | controlPort
  -- An assertion on the operation of a message.
  | operation
  -- `assert_eq!(self.auth_state, AuthState::ChallengeResponseAuth)`
  | authState
  -- `unreachable!()`
  | unreachable
  -- `assert!(rxcount <= FWMSG_SIZE)` and `assert!(count <= MSG_SIZE)`
  | rxCount
  -- `assert!(txcount <= txbuf.len())` and `assert!(count <= buf.len())`
  | txCount
  -- `assert_eq!(shared_key.len(), KEY_SIZE)` and `assert_eq!(challenge.len(), AUTH_SIZE)`
  | tokenLen
  -- The assertions of `Client::new`: the control port is either TCP or UDP.
  | clientPort
  -- The assertions of `secure_random`: a size below 8 bytes, or bytes that are all the same.
  | random
  -- `assert!(!allow.is_empty())`
  | noAllow
  -- `assert_eq!(value & 0xFFFF_FFFF_0000_0000, 0)`
  | condValue
  -- `panic!` of `seccomp_cond` for a bit width that is not 32 or 64.
  | bitWidth
  -- A slice that leaves its string or that starts or ends inside of a character.
  | slice
  -- `assert_eq!(s.len(), 1)`
  | hexdigitLen
deriving DecidableEq, Repr

def check (p : Prop) [Decidable p] (why : Panic) : Except Panic Unit := if p then .ok () else .error why

theorem check_ok {p : Prop} [Decidable p] {why : Panic} {u : Unit} (h : check p why = .ok u) : p := by
  unfold check at h
  split at h
  · assumption
  · cases h

/-- `usize` addition and multiplication, which panic on overflow. -/
def checkedUsize (n : Nat) : Except Panic Nat := if n < 2 ^ 64 then .ok n else .error .arithOverflow

/-- `usize` subtraction, which panics on overflow. -/
def checkedSub (a b : Nat) : Except Panic Nat := if b ≤ a then .ok (a - b) else .error .subOverflow

end Letmein
