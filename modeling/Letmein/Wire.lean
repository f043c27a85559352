import Letmein.Endpoint
import Letmein.Lib.Run

/-!
# Messages as bytes (`letmein-proto/src/lib.rs`)

A message is 56 bytes, of which 32 are its token. HMAC-SHA3-256 is a parameter (`HmacSha3`).
-/

namespace Letmein

abbrev SALT_SIZE : Nat := 8

abbrev AUTH_SIZE : Nat := 32

abbrev KEY_SIZE : Nat := 32

abbrev MSG_SIZE : Nat := 4 + 4 + 4 + 4 + SALT_SIZE + AUTH_SIZE

/-- The type `Auth` of tokens as byte arrays. -/
abbrev AuthBytes := List.Vector UInt8 32

class HmacSha3 where
  mac : Key → List UInt8 → AuthBytes

instance authTokenBytes [HmacSha3] : AuthToken AuthBytes where
  bytes := List.Vector.toList
  zeroAuth := .replicate 32 0
  hmac := HmacSha3.mac

def Operation.tryFrom (value : UInt32) : Except String Operation :=
  if value = Operation.knock.toU32 then .ok .knock
  else if value = Operation.challenge.toU32 then .ok .challenge
  else if value = Operation.response.toU32 then .ok .response
  else if value = Operation.comeIn.toU32 then .ok .comeIn
  else if value = Operation.goAway.toU32 then .ok .goAway
  else if value = Operation.close.toU32 then .ok .close
  else .error "Invalid Message/Operation value"

theorem Operation.tryFrom_toU32 (operation : Operation) : Operation.tryFrom operation.toU32 = .ok operation := by
  cases operation <;> rfl

/-- A value is decoded to the operation that it encodes. -/
theorem Operation.toU32_of_tryFrom {value : UInt32} {operation : Operation}
    (h : Operation.tryFrom value = .ok operation) : operation.toU32 = value := by
  unfold Operation.tryFrom at h
  repeat' split at h
  all_goals cases h
  all_goals exact Eq.symm ‹_›

theorem Operation.tryFrom_isOk_iff (value : UInt32) :
    (∃ operation, Operation.tryFrom value = .ok operation) ↔ value.toNat ≤ 5 := by
  constructor
  · rintro ⟨operation, h⟩
    rw [← Operation.toU32_of_tryFrom h]
    cases operation <;> decide
  · intro h
    have hcases : value.toNat = 0 ∨ value.toNat = 1 ∨ value.toNat = 2 ∨ value.toNat = 3 ∨ value.toNat = 4 ∨
      value.toNat = 5 := by omega
    rw [← UInt32.ofNat_toNat (x := value)]
    rcases hcases with h | h | h | h | h | h <;> rw [h] <;> exact ⟨_, rfl⟩

namespace Message

/-- `authenticate` as it is called, with slices for the key and the challenge. -/
def authenticateSlices [HmacSha3] (msg : Message AuthBytes) (sharedKey challenge : List UInt8) :
    Except Panic AuthBytes :=
  if hkey : sharedKey.length = KEY_SIZE then
    if challenge.length = AUTH_SIZE then .ok (HmacSha3.mac ⟨sharedKey, hkey⟩ (msg.header ++ challenge))
    else .error .tokenLen
  else .error .tokenLen

/-- Keys and tokens have the lengths that are asserted. -/
theorem authenticateSlices_eq [HmacSha3] (msg : Message AuthBytes) (sharedKey : Key) (challenge : AuthBytes) :
    msg.authenticateSlices sharedKey.toList challenge.toList = .ok (msg.authenticate sharedKey challenge) := by
  rw [authenticateSlices, dif_pos sharedKey.toList_length, if_pos challenge.toList_length]
  rfl

def serializeU32 (value : UInt32) : List UInt8 := beBytes 4 value.toNat

def msgSerialize (msg : Message AuthBytes) : List UInt8 :=
  serializeU32 msg.magic ++ serializeU32 msg.operation.toU32 ++ serializeU32 msg.user.id ++
    serializeU32 msg.resource.id ++ msg.salt.toList ++ msg.auth.toList

def deserializeU32 (buf : List UInt8) : UInt32 := UInt32.ofNat (ofBeBytes (buf.take 4))

def tryMsgDeserialize (buf : List UInt8) : Except String (Message AuthBytes) :=
  if h : buf.length = MSG_SIZE then
    let magic := deserializeU32 (buf.drop 0)
    let operation := deserializeU32 (buf.drop 4)
    let user := deserializeU32 (buf.drop 8)
    let resource := deserializeU32 (buf.drop 12)
    let salt : Salt := ⟨(buf.drop 16).take SALT_SIZE, by rw [List.length_take, List.length_drop, h]; rfl⟩
    let auth : AuthBytes := ⟨(buf.drop 24).take AUTH_SIZE, by rw [List.length_take, List.length_drop, h]; rfl⟩
    if magic ≠ MAGIC then .error "Deserialize: Invalid magic code."
    else do
      let operation ← Operation.tryFrom operation
      return ⟨magic, operation, ⟨user⟩, ⟨resource⟩, salt, auth⟩
  else .error "Deserialize: Raw message size mismatch."

/-- `Message::recv`, from what came out of the socket. -/
def recv : Timed (Option (List UInt8)) → Timed (Option (Message AuthBytes))
  | .timeout => .timeout
  | .done (.error e) => .done (.error e)
  | .done (.ok none) => .done (.ok none)
  | .done (.ok (some buf)) => .done (some <$> tryMsgDeserialize buf)

/-! ## Round trip -/

theorem deserializeU32_serializeU32 (value : UInt32) (rest : List UInt8) :
    deserializeU32 (serializeU32 value ++ rest) = value := by
  have hlen : (serializeU32 value).length = 4 := length_beBytes 4 _
  have hlt : value.toNat < 256 ^ 4 := by simpa using value.toNat_lt
  rw [deserializeU32, ← hlen, List.take_left, serializeU32, ofBeBytes_beBytes hlt, UInt32.ofNat_toNat]

theorem length_msgSerialize (msg : Message AuthBytes) : msg.msgSerialize.length = MSG_SIZE := by
  simp [msgSerialize, serializeU32, MSG_SIZE, SALT_SIZE, AUTH_SIZE]

theorem msgSerialize_fields (msg : Message AuthBytes) :
    deserializeU32 (msg.msgSerialize.drop 0) = msg.magic ∧
    deserializeU32 (msg.msgSerialize.drop 4) = msg.operation.toU32 ∧
    deserializeU32 (msg.msgSerialize.drop 8) = msg.user.id ∧
    deserializeU32 (msg.msgSerialize.drop 12) = msg.resource.id ∧
    (msg.msgSerialize.drop 16).take SALT_SIZE = msg.salt.toList ∧
    (msg.msgSerialize.drop 24).take AUTH_SIZE = msg.auth.toList := by
  have hlen : ∀ value : UInt32, (serializeU32 value).length = 4 := fun value => length_beBytes 4 _
  have hdrop : ∀ (value : UInt32) (n : Nat) (rest : List UInt8),
      (serializeU32 value ++ rest).drop (n + 4) = rest.drop n := by
    intro value n rest
    rw [List.drop_append, hlen, Nat.add_sub_cancel, List.drop_eq_nil_of_le (by rw [hlen]; omega), List.nil_append]
  have hauth : ∀ rest : List UInt8, (msg.salt.toList ++ rest).drop 8 = rest := fun rest =>
    List.drop_left' msg.salt.toList_length
  simp only [msgSerialize, List.append_assoc]
  refine ⟨deserializeU32_serializeU32 _ _, ?_, ?_, ?_, ?_, ?_⟩
  · rw [hdrop _ 0]
    exact deserializeU32_serializeU32 _ _
  · rw [hdrop _ 4, hdrop _ 0]
    exact deserializeU32_serializeU32 _ _
  · rw [hdrop _ 8, hdrop _ 4, hdrop _ 0]
    exact deserializeU32_serializeU32 _ _
  · rw [hdrop _ 12, hdrop _ 8, hdrop _ 4, hdrop _ 0]
    exact List.take_left' msg.salt.toList_length
  · rw [hdrop _ 20, hdrop _ 16, hdrop _ 12, hdrop _ 8, hauth]
    exact List.take_of_length_le (Nat.le_of_eq msg.auth.toList_length)

theorem tryMsgDeserialize_msgSerialize {msg : Message AuthBytes} (h : msg.magic = MAGIC) :
    tryMsgDeserialize msg.msgSerialize = .ok msg := by
  obtain ⟨hmagic, hop, huser, hres, hsalt, hauth⟩ := msgSerialize_fields msg
  rw [tryMsgDeserialize, dif_pos (length_msgSerialize msg)]
  simp only [hmagic, hop, huser, hres, hsalt, hauth, h, Operation.tryFrom_toU32]
  cases msg
  cases h
  rfl

/-- A message arrives as it was sent. -/
theorem recv_msgSerialize {msg : Message AuthBytes} (h : msg.magic = MAGIC) :
    recv (.done (.ok (some msg.msgSerialize))) = .done (.ok (some msg)) := by
  rw [recv, tryMsgDeserialize_msgSerialize h]
  rfl

/-! ## What is accepted -/

theorem toNat_deserializeU32 (buf : List UInt8) : (deserializeU32 buf).toNat = ofBeBytes (buf.take 4) := by
  have hlt := ofBeBytes_lt (buf.take 4)
  have hle : 256 ^ (buf.take 4).length ≤ 256 ^ 4 := Nat.pow_le_pow_right (by decide) (List.length_take_le 4 buf)
  exact UInt32.toNat_ofNat_of_lt' (Nat.lt_of_lt_of_le hlt (by simpa using hle))

theorem serializeU32_deserializeU32 {buf : List UInt8} (h : 4 ≤ buf.length) :
    serializeU32 (deserializeU32 buf) = buf.take 4 := by
  have hlen : (buf.take 4).length = 4 := List.length_take_of_le h
  have hbytes := beBytes_ofBeBytes (buf.take 4)
  rw [hlen] at hbytes
  rw [serializeU32, toNat_deserializeU32, hbytes]

theorem deserializeU32_eq_magic {buf : List UInt8} (h : 4 ≤ buf.length) :
    deserializeU32 buf = MAGIC ↔ buf.take 4 = [0x3B, 0x1B, 0xB7, 0x19] := by
  have hmagic : serializeU32 MAGIC = [0x3B, 0x1B, 0xB7, 0x19] := by decide
  constructor
  · intro heq
    rw [← serializeU32_deserializeU32 h, heq, hmagic]
  · intro heq
    have hsplit := List.take_append_drop 4 buf
    rw [heq, ← hmagic] at hsplit
    rw [← hsplit, deserializeU32_serializeU32]

/-- What a buffer is decoded to is the message of its fields. -/
theorem tryMsgDeserialize_ok {buf : List UInt8} {msg : Message AuthBytes} (h : tryMsgDeserialize buf = .ok msg) :
    buf.length = MSG_SIZE ∧ deserializeU32 (buf.drop 0) = MAGIC ∧ msg.magic = MAGIC ∧
      Operation.tryFrom (deserializeU32 (buf.drop 4)) = .ok msg.operation ∧
      msg.user.id = deserializeU32 (buf.drop 8) ∧ msg.resource.id = deserializeU32 (buf.drop 12) ∧
      msg.salt.toList = (buf.drop 16).take SALT_SIZE ∧ msg.auth.toList = (buf.drop 24).take AUTH_SIZE := by
  rw [tryMsgDeserialize] at h
  split at h
  next hlen =>
    simp only at h
    split at h
    · cases h
    next hmagic =>
      have hmagic := Decidable.of_not_not hmagic
      obtain ⟨operation, hop, h⟩ := Except.bind_ok h
      cases h
      exact ⟨hlen, hmagic, hmagic, hop, rfl, rfl, rfl, rfl⟩
  next => cases h

theorem tryMsgDeserialize_isOk_iff (buf : List UInt8) :
    (∃ msg, tryMsgDeserialize buf = .ok msg) ↔
      buf.length = 56 ∧ buf.take 4 = [0x3B, 0x1B, 0xB7, 0x19] ∧ ofBeBytes ((buf.drop 4).take 4) ≤ 5 := by
  have hzero : buf.drop 0 = buf := rfl
  constructor
  · rintro ⟨msg, h⟩
    obtain ⟨hlen, hmagic, -, hop, -⟩ := tryMsgDeserialize_ok h
    have hle := (Operation.tryFrom_isOk_iff _).mp ⟨_, hop⟩
    rw [toNat_deserializeU32] at hle
    have h4 : 4 ≤ buf.length := by rw [hlen]; decide
    exact ⟨hlen, (deserializeU32_eq_magic h4).mp hmagic, hle⟩
  · rintro ⟨hlen, hmagic, hop⟩
    rw [← toNat_deserializeU32] at hop
    obtain ⟨operation, hop⟩ := (Operation.tryFrom_isOk_iff _).mpr hop
    have hmagic : deserializeU32 (buf.drop 0) = MAGIC := (deserializeU32_eq_magic (by rw [hzero]; omega)).mpr hmagic
    have hlen : buf.length = MSG_SIZE := hlen
    simp only [tryMsgDeserialize, dif_pos hlen, hmagic, hop]
    exact ⟨_, rfl⟩

theorem msgSerialize_of_tryMsgDeserialize {buf : List UInt8} {msg : Message AuthBytes}
    (h : tryMsgDeserialize buf = .ok msg) : msg.msgSerialize = buf := by
  obtain ⟨hlen, hmagic, hmsg, hop, huser, hres, hsalt, hauth⟩ := tryMsgDeserialize_ok h
  have hlen : buf.length = 56 := hlen
  have hfield : ∀ n ≤ 52, serializeU32 (deserializeU32 (buf.drop n)) = (buf.drop n).take 4 := by
    intro n hn
    exact serializeU32_deserializeU32 (by rw [List.length_drop]; omega)
  rw [msgSerialize, hmsg, ← hmagic, Operation.toU32_of_tryFrom hop, huser, hres, hsalt, hauth,
    hfield 0 (by omega), hfield 4 (by omega), hfield 8 (by omega), hfield 12 (by omega), List.drop_zero]
  -- The fields are adjacent, so that they make up a longer and longer part of the buffer.
  rw [← List.take_add, ← List.take_add, ← List.take_add, ← List.take_add,
    show 4 + 4 + 4 + 4 + SALT_SIZE = 24 from rfl, ← List.take_add]
  exact List.take_of_length_le (Nat.le_of_eq hlen)

/-- Valid messages are in bijection with the buffers that are accepted. -/
theorem msg_codec_bijective :
    (∀ msg : Message AuthBytes, msg.magic = 0x3B1BB719 → tryMsgDeserialize msg.msgSerialize = .ok msg) ∧
    (∀ buf : List UInt8, (∃ msg, tryMsgDeserialize buf = .ok msg) ↔
      buf.length = 56 ∧ buf.take 4 = [0x3B, 0x1B, 0xB7, 0x19] ∧ ofBeBytes ((buf.drop 4).take 4) ≤ 5) ∧
    (∀ (buf : List UInt8) (msg : Message AuthBytes), tryMsgDeserialize buf = .ok msg →
      msg.magic = 0x3B1BB719 ∧ msg.msgSerialize = buf) ∧
    (∀ msg msg' : Message AuthBytes, msg.magic = 0x3B1BB719 → msg'.magic = 0x3B1BB719 →
      msg.msgSerialize = msg'.msgSerialize → msg = msg') ∧
    (∀ (buf buf' : List UInt8) (msg : Message AuthBytes), tryMsgDeserialize buf = .ok msg →
      tryMsgDeserialize buf' = .ok msg → buf = buf') := by
  refine ⟨?_, tryMsgDeserialize_isOk_iff, ?_, ?_, ?_⟩
  · intro msg h
    exact tryMsgDeserialize_msgSerialize h
  · intro buf msg h
    obtain ⟨-, -, hmagic, -⟩ := tryMsgDeserialize_ok h
    exact ⟨hmagic, msgSerialize_of_tryMsgDeserialize h⟩
  · intro msg msg' h h' heq
    have hok := tryMsgDeserialize_msgSerialize h
    rw [heq, tryMsgDeserialize_msgSerialize h'] at hok
    exact (Except.ok.inj hok).symm
  · intro buf buf' msg h h'
    rw [← msgSerialize_of_tryMsgDeserialize h, msgSerialize_of_tryMsgDeserialize h']

end Message

end Letmein
