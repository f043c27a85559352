import Letmein.Conf
import Letmein.Lib.Bytes
import Letmein.Panic

/-!
# Wire messages (`letmein-proto/src/lib.rs`)

A message carries an authentication token or a challenge. The tokens are a parameter (`AuthToken`):
byte arrays with HMAC-SHA3-256 in the program, and any other type with a function of a key and of bytes
in their place where more is assumed of the function. `secure_random` is the environment's, so a
message is made from the salt that it gave.
-/

namespace Letmein

inductive Operation where
  | knock
  | challenge
  | response
  | comeIn
  | goAway
  | close
deriving DecidableEq, Repr

/-- `operation as u32` -/
def Operation.toU32 : Operation → UInt32
  | .knock => 0
  | .challenge => 1
  | .response => 2
  | .comeIn => 3
  | .goAway => 4
  | .close => 5

/-- The name, as `{:?}` shows it. -/
def Operation.text : Operation → String
  | .knock => "Knock"
  | .challenge => "Challenge"
  | .response => "Response"
  | .comeIn => "ComeIn"
  | .goAway => "GoAway"
  | .close => "Close"

/-- An identification number, as `{:08X}` shows it. -/
def idText (id : UInt32) : String :=
  let digits := (Nat.toDigits 16 id.toNat).map Char.toUpper
  String.ofList (List.replicate (8 - digits.length) '0' ++ digits)

/-- The message salt, `SALT_SIZE` bytes. -/
abbrev Salt := List.Vector UInt8 8

/-- Tokens: their bytes, the invalid all-zero token, and the function that makes one from a key and a
byte string. -/
class AuthToken (Auth : Type) where
  bytes : Auth → List UInt8
  zeroAuth : Auth
  hmac : Key → List UInt8 → Auth

export AuthToken (zeroAuth hmac)

def MAGIC : UInt32 := 0x3B1BB719

structure Message (Auth : Type) where
  magic : UInt32
  operation : Operation
  user : UserId
  resource : ResourceId
  salt : Salt
  auth : Auth
deriving DecidableEq

namespace Message
variable {Auth : Type} [AuthToken Auth]

/-- Create a message, with the salt that `secure_random` gave. -/
def new (operation : Operation) (user : UserId) (resource : ResourceId) (salt : Salt) : Message Auth where
  magic := MAGIC
  operation := operation
  user := user
  resource := resource
  salt := salt
  auth := zeroAuth

/-- What is authenticated before the challenge. -/
def header (msg : Message Auth) : List UInt8 :=
  beBytes 4 msg.operation.toU32.toNat ++ (beBytes 4 msg.user.id.toNat ++
    (beBytes 4 msg.resource.id.toNat ++ msg.salt.toList))

def authenticate (msg : Message Auth) (sharedKey : Key) (challenge : Auth) : Auth :=
  hmac sharedKey (msg.header ++ AuthToken.bytes challenge)

def authenticateNoChallenge (msg : Message Auth) (sharedKey : Key) : Auth :=
  msg.authenticate sharedKey zeroAuth

variable [DecidableEq Auth]

def checkAuthOk (msg : Message Auth) (sharedKey : Key) (challenge : Message Auth) : Except Panic Bool := do
  check (challenge.operation = .challenge) .operation
  check (msg.operation = .response) .operation
  return msg.auth = msg.authenticate sharedKey challenge.auth

def checkAuthOkNoChallenge (msg : Message Auth) (sharedKey : Key) : Except Panic Bool := do
  check (msg.operation = .knock ∨ msg.operation = .close) .operation
  return msg.auth = msg.authenticateNoChallenge sharedKey

/-- Store the token for the challenge in the message. -/
def generateAuth (msg : Message Auth) (sharedKey : Key) (challenge : Message Auth) :
    Except Panic (Message Auth) := do
  check (challenge.operation = .challenge) .operation
  check (msg.operation = .response) .operation
  return { msg with auth := msg.authenticate sharedKey challenge.auth }

def generateAuthNoChallenge (msg : Message Auth) (sharedKey : Key) : Except Panic (Message Auth) := do
  check (msg.operation = .knock ∨ msg.operation = .close) .operation
  return { msg with auth := msg.authenticateNoChallenge sharedKey }

/-- Store the nonce that `secure_random` gave in the message. -/
def generateChallenge (msg : Message Auth) (nonce : Auth) : Except Panic (Message Auth) := do
  check (msg.operation = .challenge) .operation
  return { msg with auth := nonce }

end Message

/-! ### What the header says -/

theorem Operation.toU32_injective : ∀ {a b : Operation}, a.toU32 = b.toU32 → a = b := by
  intro a b h
  cases a <;> cases b <;> first | rfl | cases h

/-- The header determines what it is made of, also when more bytes follow. -/
theorem Message.header_append_inj {Auth : Type} [AuthToken Auth] {a b : Message Auth} {x y : List UInt8}
    (h : a.header ++ x = b.header ++ y) :
    a.operation = b.operation ∧ a.user = b.user ∧ a.resource = b.resource ∧ a.salt = b.salt ∧ x = y := by
  have hbe : ∀ {m n : UInt32}, beBytes 4 m.toNat = beBytes 4 n.toNat → m = n := fun {m n} he =>
    UInt32.toNat_inj.1 (beBytes_injective (by simpa using m.toNat_lt) (by simpa using n.toNat_lt) he)
  unfold header at h
  simp only [List.append_assoc] at h
  obtain ⟨hop, h⟩ := List.append_inj h (by simp)
  obtain ⟨huser, h⟩ := List.append_inj h (by simp)
  obtain ⟨hres, h⟩ := List.append_inj h (by simp)
  obtain ⟨hsalt, h⟩ := List.append_inj h (by simp)
  refine ⟨Operation.toU32_injective (hbe hop), ?_, ?_, List.Vector.toList_injective hsalt, h⟩
  · rcases a with ⟨_, _, ⟨_⟩, _, _, _⟩; rcases b with ⟨_, _, ⟨_⟩, _, _, _⟩
    exact congrArg UserId.mk (hbe huser)
  · rcases a with ⟨_, _, _, ⟨_⟩, _, _⟩; rcases b with ⟨_, _, _, ⟨_⟩, _, _⟩
    exact congrArg ResourceId.mk (hbe hres)

/-! ### HMAC as a free function -/

/-- Different keys and byte strings have different tokens, tokens have different bytes, and a random or
constant token is none that the function makes. -/
class FreeHmac (Auth : Type) [AuthToken Auth] : Prop where
  hmac_inj : ∀ {k k' : Key} {x x' : List UInt8}, (hmac k x : Auth) = hmac k' x' → k = k' ∧ x = x'
  bytes_inj : ∀ {a b : Auth}, AuthToken.bytes a = AuthToken.bytes b → a = b
  hmac_ne_zeroAuth : ∀ (k : Key) (x : List UInt8), (hmac k x : Auth) ≠ zeroAuth

inductive SymAuth where
  | raw (bytes : List UInt8)
  | mac (key : Key) (input : List UInt8)
deriving DecidableEq

instance : AuthToken SymAuth where
  bytes
    | .raw b => 0 :: b
    | .mac k x => 1 :: (k.toList ++ x)
  zeroAuth := .raw (List.replicate 32 0)
  hmac := .mac

instance : FreeHmac SymAuth where
  hmac_inj h := by
    cases h
    exact ⟨rfl, rfl⟩
  bytes_inj {a b} h := by
    rcases a with x | ⟨k, x⟩ <;> rcases b with y | ⟨k', y⟩
    · rw [(List.cons.inj h).2]
    · exact absurd (List.cons.inj h).1 (by decide)
    · exact absurd (List.cons.inj h).1 (by decide)
    · obtain ⟨hk, rfl⟩ := List.append_inj (List.cons.inj h).2 (by simp)
      rw [List.Vector.toList_injective hk]
  hmac_ne_zeroAuth k x h := by cases h

end Letmein
