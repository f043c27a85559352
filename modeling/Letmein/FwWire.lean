import Letmein.FwProto
import Letmein.Lib.Run
import Letmein.Panic

/-!
# Firewall messages as bytes (`letmein-fwproto/src/lib.rs`)

A message is 24 bytes. `recv` reads them from the socket in whatever pieces they come; the socket's answers are
inputs of it.
-/

namespace Letmein

def FirewallOperation.toU16 : FirewallOperation → UInt16
  | .nack => 0
  | .ack => 1
  | .openPort => 2
  | .closePort => 3

def FirewallOperation.tryFrom (value : UInt16) : Except String FirewallOperation :=
  if value = 2 then .ok .openPort
  else if value = 1 then .ok .ack
  else if value = 0 then .ok .nack
  else if value = 3 then .ok .closePort
  else .error "Invalid FirewallMessage/Operation value"

def PortType.toU16 : PortType → UInt16
  | .tcp => 0
  | .udp => 1
  | .tcpUdp => 2

def PortType.tryFrom (value : UInt16) : Except String PortType :=
  if value = 0 then .ok .tcp
  else if value = 1 then .ok .udp
  else if value = 2 then .ok .tcpUdp
  else .error "Invalid FirewallMessage/PortType value"

def AddrType.toU16 : AddrType → UInt16
  | .ipv6 => 0
  | .ipv4 => 1

def AddrType.tryFrom (value : UInt16) : Except String AddrType :=
  if value = 0 then .ok .ipv6
  else if value = 1 then .ok .ipv4
  else .error "Invalid FirewallMessage/AddrType value"

theorem FirewallOperation.tryFrom_ok_iff (value : UInt16) (x : FirewallOperation) : FirewallOperation.tryFrom value = .ok x ↔ x.toU16 = value := by
  constructor
  · intro h
    unfold FirewallOperation.tryFrom at h
    repeat' split at h
    all_goals cases h
    all_goals exact Eq.symm ‹_›
  · rintro rfl
    cases x <;> rfl

theorem FirewallOperation.exists_toU16_iff (value : UInt16) : (∃ x : FirewallOperation, x.toU16 = value) ↔ value.toNat ≤ 3 := by
  constructor
  · rintro ⟨x, rfl⟩
    cases x <;> decide
  · intro h
    have hcases : value.toNat = 0 ∨ value.toNat = 1 ∨ value.toNat = 2 ∨ value.toNat = 3 := by omega
    rw [← UInt16.ofNat_toNat (x := value)]
    rcases hcases with h | h | h | h <;> rw [h]
    exacts [⟨.nack, rfl⟩, ⟨.ack, rfl⟩, ⟨.openPort, rfl⟩, ⟨.closePort, rfl⟩]

theorem PortType.tryFrom_ok_iff (value : UInt16) (x : PortType) : PortType.tryFrom value = .ok x ↔ x.toU16 = value := by
  constructor
  · intro h
    unfold PortType.tryFrom at h
    repeat' split at h
    all_goals cases h
    all_goals exact Eq.symm ‹_›
  · rintro rfl
    cases x <;> rfl

theorem PortType.exists_toU16_iff (value : UInt16) : (∃ x : PortType, x.toU16 = value) ↔ value.toNat ≤ 2 := by
  constructor
  · rintro ⟨x, rfl⟩
    cases x <;> decide
  · intro h
    have hcases : value.toNat = 0 ∨ value.toNat = 1 ∨ value.toNat = 2 := by omega
    rw [← UInt16.ofNat_toNat (x := value)]
    rcases hcases with h | h | h <;> rw [h]
    exacts [⟨.tcp, rfl⟩, ⟨.udp, rfl⟩, ⟨.tcpUdp, rfl⟩]

theorem AddrType.tryFrom_ok_iff (value : UInt16) (x : AddrType) : AddrType.tryFrom value = .ok x ↔ x.toU16 = value := by
  constructor
  · intro h
    unfold AddrType.tryFrom at h
    repeat' split at h
    all_goals cases h
    all_goals exact Eq.symm ‹_›
  · rintro rfl
    cases x <;> rfl

theorem AddrType.exists_toU16_iff (value : UInt16) : (∃ x : AddrType, x.toU16 = value) ↔ value.toNat ≤ 1 := by
  constructor
  · rintro ⟨x, rfl⟩
    cases x <;> decide
  · intro h
    have hcases : value.toNat = 0 ∨ value.toNat = 1 := by omega
    rw [← UInt16.ofNat_toNat (x := value)]
    rcases hcases with h | h <;> rw [h]
    exacts [⟨.ipv6, rfl⟩, ⟨.ipv4, rfl⟩]

/-- The size of a message in bytes. -/
def FWMSG_SIZE : Nat := 2 + 2 + 2 + 2 + 16

/-- What polling the socket and reading from it came to. A piece of the stream that has no bytes is its end. -/
inductive SocketRead where
  | pollError
  | data (bytes : List UInt8)
  | wouldBlock
  | error (e : String)
deriving DecidableEq

namespace FirewallMessage

def serializeU16 (value : UInt16) : List UInt8 := beBytes 2 value.toNat

def msgSerialize (msg : FirewallMessage) : List UInt8 :=
  serializeU16 msg.operation.toU16 ++ serializeU16 msg.portType.toU16 ++ serializeU16 msg.port ++
    serializeU16 msg.addrType.toU16 ++ msg.addr.toList

def deserializeU16 (buf : List UInt8) : UInt16 := UInt16.ofNat (ofBeBytes (buf.take 2))

def tryMsgDeserialize (buf : List UInt8) : Except String FirewallMessage :=
  if h : buf.length = FWMSG_SIZE then do
    let operation ← FirewallOperation.tryFrom (deserializeU16 (buf.drop 0))
    let portType ← PortType.tryFrom (deserializeU16 (buf.drop 2))
    let port := deserializeU16 (buf.drop 4)
    let addrType ← AddrType.tryFrom (deserializeU16 (buf.drop 6))
    let addr := ⟨(buf.drop 8).take 16, by rw [List.length_take, List.length_drop, h]; rfl⟩
    return ⟨operation, portType, port, addrType, addr⟩
  else .error "Deserialize: Raw message size mismatch."

/-- The rest of `recv` after the bytes `rxbuf` were read. A read fills at most the rest of the buffer. There is
no result as long as the socket has not answered often enough. -/
def recvFrom (rxbuf : List UInt8) : List SocketRead → Except Panic (Option (Except String (Option FirewallMessage)))
  | [] => .ok none
  | .pollError :: _ => .ok (some (.error "Socket polling (rx)"))
  | .wouldBlock :: reads => recvFrom rxbuf reads
  | .error e :: _ => .ok (some (.error s!"Socket read: {e}"))
  | .data bytes :: reads =>
    let got := bytes.take (FWMSG_SIZE - rxbuf.length)
    if got.isEmpty then .ok (some (.ok none))
    else do
      let rxbuf := rxbuf ++ got
      check (rxbuf.length ≤ FWMSG_SIZE) .rxCount
      if rxbuf.length = FWMSG_SIZE then return some (some <$> tryMsgDeserialize rxbuf)
      else recvFrom rxbuf reads

def recv (reads : List SocketRead) : Except Panic (Option (Except String (Option FirewallMessage))) :=
  recvFrom [] reads

/-- The byte count never exceeds the buffer. -/
theorem recvFrom_returns {rxbuf : List UInt8} (h : rxbuf.length ≤ FWMSG_SIZE) (reads : List SocketRead) :
    ∃ r, recvFrom rxbuf reads = .ok r := by
  induction reads generalizing rxbuf with
  | nil => exact ⟨none, rfl⟩
  | cons read reads ih =>
    rcases read with _ | bytes | _ | e
    · exact ⟨_, rfl⟩
    · simp only [recvFrom]
      have hlen : (rxbuf ++ bytes.take (FWMSG_SIZE - rxbuf.length)).length ≤ FWMSG_SIZE := by
        rw [List.length_append, List.length_take]
        omega
      split
      · exact ⟨_, rfl⟩
      · simp only [check, hlen, if_true, bind, Except.bind]
        split
        · exact ⟨_, rfl⟩
        · exact ih hlen
    · exact ih h
    · exact ⟨_, rfl⟩

theorem recv_returns (reads : List SocketRead) : ∃ r, recv reads = .ok r :=
  recvFrom_returns (Nat.zero_le _) reads

/-! ## Round trip -/

theorem deserializeU16_serializeU16 (value : UInt16) (rest : List UInt8) :
    deserializeU16 (serializeU16 value ++ rest) = value := by
  have hlen : (serializeU16 value).length = 2 := length_beBytes 2 _
  rw [deserializeU16, ← hlen, List.take_left]
  exact ofBeBytes_uint16 value

theorem length_msgSerialize (msg : FirewallMessage) : msg.msgSerialize.length = FWMSG_SIZE := by
  simp [msgSerialize, serializeU16, FWMSG_SIZE]

theorem msgSerialize_fields (msg : FirewallMessage) :
    deserializeU16 (msg.msgSerialize.drop 0) = msg.operation.toU16 ∧
    deserializeU16 (msg.msgSerialize.drop 2) = msg.portType.toU16 ∧
    deserializeU16 (msg.msgSerialize.drop 4) = msg.port ∧
    deserializeU16 (msg.msgSerialize.drop 6) = msg.addrType.toU16 ∧
    (msg.msgSerialize.drop 8).take 16 = msg.addr.toList := by
  have hlen : ∀ value : UInt16, (serializeU16 value).length = 2 := fun value => length_beBytes 2 _
  have hdrop : ∀ (value : UInt16) (n : Nat) (rest : List UInt8),
      (serializeU16 value ++ rest).drop (n + 2) = rest.drop n := by
    intro value n rest
    rw [List.drop_append, hlen, Nat.add_sub_cancel, List.drop_eq_nil_of_le (by rw [hlen]; omega), List.nil_append]
  simp only [msgSerialize, List.append_assoc]
  refine ⟨deserializeU16_serializeU16 _ _, ?_, ?_, ?_, ?_⟩
  · rw [hdrop _ 0]
    exact deserializeU16_serializeU16 _ _
  · rw [hdrop _ 2, hdrop _ 0]
    exact deserializeU16_serializeU16 _ _
  · rw [hdrop _ 4, hdrop _ 2, hdrop _ 0]
    exact deserializeU16_serializeU16 _ _
  · rw [hdrop _ 6, hdrop _ 4, hdrop _ 2, hdrop _ 0]
    exact List.take_of_length_le (Nat.le_of_eq msg.addr.toList_length)

theorem tryMsgDeserialize_msgSerialize (msg : FirewallMessage) : tryMsgDeserialize msg.msgSerialize = .ok msg := by
  obtain ⟨hop, htype, hport, haddrType, haddr⟩ := msgSerialize_fields msg
  have hop' := (FirewallOperation.tryFrom_ok_iff _ _).mpr hop.symm
  have htype' := (PortType.tryFrom_ok_iff _ _).mpr htype.symm
  have haddrType' := (AddrType.tryFrom_ok_iff _ _).mpr haddrType.symm
  rw [tryMsgDeserialize, dif_pos (length_msgSerialize msg)]
  simp only [hop', htype', hport, haddrType', haddr]
  rfl

/-! ## What is accepted -/

theorem toNat_deserializeU16 (buf : List UInt8) : (deserializeU16 buf).toNat = ofBeBytes (buf.take 2) := by
  have hlt := ofBeBytes_lt (buf.take 2)
  have hle : 256 ^ (buf.take 2).length ≤ 256 ^ 2 := Nat.pow_le_pow_right (by decide) (List.length_take_le 2 buf)
  exact UInt16.toNat_ofNat_of_lt' (Nat.lt_of_lt_of_le hlt (by simpa using hle))

theorem serializeU16_deserializeU16 {buf : List UInt8} (h : 2 ≤ buf.length) :
    serializeU16 (deserializeU16 buf) = buf.take 2 := by
  have hlen : (buf.take 2).length = 2 := List.length_take_of_le h
  have hbytes := beBytes_ofBeBytes (buf.take 2)
  rw [hlen] at hbytes
  rw [serializeU16, toNat_deserializeU16, hbytes]

/-- What a buffer is decoded to is the message of its fields. -/
theorem tryMsgDeserialize_ok_iff (buf : List UInt8) (msg : FirewallMessage) :
    tryMsgDeserialize buf = .ok msg ↔ buf.length = FWMSG_SIZE ∧
      msg.operation.toU16 = deserializeU16 (buf.drop 0) ∧ msg.portType.toU16 = deserializeU16 (buf.drop 2) ∧
      msg.port = deserializeU16 (buf.drop 4) ∧ msg.addrType.toU16 = deserializeU16 (buf.drop 6) ∧
      msg.addr.toList = (buf.drop 8).take 16 := by
  constructor
  · intro h
    rw [tryMsgDeserialize] at h
    split at h
    next hlen =>
      obtain ⟨operation, hop, h⟩ := Except.bind_ok h
      obtain ⟨portType, htype, h⟩ := Except.bind_ok h
      obtain ⟨addrType, haddrType, h⟩ := Except.bind_ok h
      cases h
      exact ⟨hlen, (FirewallOperation.tryFrom_ok_iff _ _).mp hop, (PortType.tryFrom_ok_iff _ _).mp htype, rfl,
        (AddrType.tryFrom_ok_iff _ _).mp haddrType, rfl⟩
    next => cases h
  · rintro ⟨hlen, hop, htype, hport, haddrType, haddr⟩
    have hop := (FirewallOperation.tryFrom_ok_iff _ _).mpr hop
    have htype := (PortType.tryFrom_ok_iff _ _).mpr htype
    have haddrType := (AddrType.tryFrom_ok_iff _ _).mpr haddrType
    rw [tryMsgDeserialize, dif_pos hlen]
    simp only [hop, htype, haddrType, ← hport, ← haddr]
    rfl

theorem tryMsgDeserialize_isOk_iff (buf : List UInt8) :
    (∃ msg, tryMsgDeserialize buf = .ok msg) ↔ buf.length = 24 ∧ ofBeBytes (buf.take 2) ≤ 3 ∧
      ofBeBytes ((buf.drop 2).take 2) ≤ 2 ∧ ofBeBytes ((buf.drop 6).take 2) ≤ 1 := by
  rw [← toNat_deserializeU16, ← toNat_deserializeU16, ← toNat_deserializeU16, ← FirewallOperation.exists_toU16_iff,
    ← PortType.exists_toU16_iff, ← AddrType.exists_toU16_iff]
  constructor
  · rintro ⟨msg, h⟩
    obtain ⟨hlen, hop, htype, -, haddrType, -⟩ := (tryMsgDeserialize_ok_iff _ _).mp h
    exact ⟨hlen, ⟨_, hop⟩, ⟨_, htype⟩, ⟨_, haddrType⟩⟩
  · rintro ⟨hlen, ⟨operation, hop⟩, ⟨portType, htype⟩, addrType, haddrType⟩
    have haddr : ((buf.drop 8).take 16).length = 16 := by rw [List.length_take, List.length_drop, hlen]; rfl
    exact ⟨⟨operation, portType, deserializeU16 (buf.drop 4), addrType, ⟨_, haddr⟩⟩,
      (tryMsgDeserialize_ok_iff _ _).mpr ⟨hlen, hop, htype, rfl, haddrType, rfl⟩⟩

theorem msgSerialize_of_tryMsgDeserialize {buf : List UInt8} {msg : FirewallMessage}
    (h : tryMsgDeserialize buf = .ok msg) : msg.msgSerialize = buf := by
  obtain ⟨hlen, hop, htype, hport, haddrType, haddr⟩ := (tryMsgDeserialize_ok_iff _ _).mp h
  have hlen : buf.length = 24 := hlen
  have hfield : ∀ n ≤ 22, serializeU16 (deserializeU16 (buf.drop n)) = (buf.drop n).take 2 := by
    intro n hn
    exact serializeU16_deserializeU16 (by rw [List.length_drop]; omega)
  rw [msgSerialize, hop, htype, hport, haddrType, haddr, hfield 0 (by omega), hfield 2 (by omega),
    hfield 4 (by omega), hfield 6 (by omega), List.drop_zero]
  rw [← List.take_add, ← List.take_add, ← List.take_add, ← List.take_add]
  exact List.take_of_length_le (Nat.le_of_eq hlen)

/-- A request arrives with the operation, the address and the port that it was made for. -/
theorem fwmsg_codec_preserves :
    (∀ (addr : IpAddr) (portType : PortType) (port : UInt16),
      (∃ msg, tryMsgDeserialize (newOpen addr portType port).msgSerialize = .ok msg ∧
        msg.operation = .openPort ∧ msg.addr? = some addr ∧ msg.port? = some (portType, port)) ∧
      (∃ msg, tryMsgDeserialize (newClose addr portType port).msgSerialize = .ok msg ∧
        msg.operation = .closePort ∧ msg.addr? = some addr ∧ msg.port? = some (portType, port))) ∧
    (∀ msg : FirewallMessage, tryMsgDeserialize msg.msgSerialize = .ok msg) ∧
    (∀ buf : List UInt8, (∃ msg, tryMsgDeserialize buf = .ok msg) ↔ buf.length = 24 ∧
      ofBeBytes (buf.take 2) ≤ 3 ∧ ofBeBytes ((buf.drop 2).take 2) ≤ 2 ∧ ofBeBytes ((buf.drop 6).take 2) ≤ 1) ∧
    (∀ (buf : List UInt8) (msg : FirewallMessage), tryMsgDeserialize buf = .ok msg → msg.msgSerialize = buf) := by
  refine ⟨?_, tryMsgDeserialize_msgSerialize, tryMsgDeserialize_isOk_iff, ?_⟩
  · intro addr portType port
    exact ⟨⟨_, tryMsgDeserialize_msgSerialize _, rfl, addr?_newOpen _ _ _, rfl⟩,
      ⟨_, tryMsgDeserialize_msgSerialize _, rfl, addr?_newClose _ _ _, rfl⟩⟩
  · intro buf msg h
    exact msgSerialize_of_tryMsgDeserialize h

end FirewallMessage

end Letmein
