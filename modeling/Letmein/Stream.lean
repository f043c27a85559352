import Letmein.FwWire
import Letmein.Wire

/-!
# Messages on a byte stream (`letmein-fwproto/src/lib.rs`, `letmein-proto/src/socket.rs`)

A message is written by a loop over partial writes and read by a loop over partial reads, in the firewall protocol as
in the TCP branch of `NetSocket`. The socket's answers are inputs of the loops, and what a loop leaves of them is there
for the next call. `Pieces reads bytes` says that the reads yield a stream of bytes, cut up in some way.
`Framed` collects what the loops guarantee: whatever the two ways are in which the stream is cut up at its ends, the
messages that come out are those that went in.
-/

namespace Letmein

/-- What polling the socket and writing to it came to. -/
inductive SocketWrite where
  | pollError
  | wrote (n : Nat)
  | wouldBlock
  | error (e : String)
deriving DecidableEq

/-- Of a call that sends: what it returned, if it did, the bytes that it wrote, and the answers that it left. -/
structure SendRet where
  val : Option (Except String Unit)
  written : List UInt8
  rest : List SocketWrite

/-- Of a call that receives: what it returned, if it did, and the answers that it left. -/
structure RecvRet (α : Type) where
  val : Option (Except String (Option α))
  rest : List SocketRead

/-- The loop of `send` from `txcount` on. A write takes at most what it is given. -/
def sendFrom (txbuf : List UInt8) (txcount : Nat) : List SocketWrite → Except Panic SendRet
  | [] => .ok ⟨none, [], []⟩
  | .pollError :: writes => .ok ⟨some (.error "Socket polling (tx)"), [], writes⟩
  | .wouldBlock :: writes => sendFrom txbuf txcount writes
  | .error e :: writes => .ok ⟨some (.error s!"Socket write: {e}"), [], writes⟩
  | .wrote n :: writes => do
    let n := min n (txbuf.drop txcount).length
    let bytes := (txbuf.drop txcount).take n
    let txcount := txcount + n
    check (txcount ≤ txbuf.length) .txCount
    if txcount = txbuf.length then return ⟨some (.ok ()), bytes, writes⟩
    else
      let r ← sendFrom txbuf txcount writes
      return { r with written := bytes ++ r.written }

/-- What is left to read of a piece after `n` bytes of it. -/
def leave (n : Nat) (bytes : List UInt8) (reads : List SocketRead) : List SocketRead :=
  if bytes.length ≤ n then reads else .data (bytes.drop n) :: reads

/-- The loop of `recv` into a buffer of `size` bytes, after the bytes `buf` were read. -/
def readFrom (size : Nat) (buf : List UInt8) : List SocketRead → Except Panic (RecvRet (List UInt8))
  | [] => .ok ⟨none, []⟩
  | .pollError :: reads => .ok ⟨some (.error "Socket polling (rx)"), reads⟩
  | .wouldBlock :: reads => readFrom size buf reads
  | .error e :: reads => .ok ⟨some (.error s!"Socket read: {e}"), reads⟩
  | .data bytes :: reads =>
    let got := bytes.take (size - buf.length)
    if got.isEmpty then .ok ⟨some (.ok none), reads⟩
    else do
      let count := (buf ++ got).length
      check (count ≤ size) .rxCount
      if count = size then return ⟨some (.ok (some (buf ++ got))), leave (size - buf.length) bytes reads⟩
      else readFrom size (buf ++ got) reads

/-- Deserialize what was received. -/
def RecvRet.decoded {α : Type} (decode : List UInt8 → Except String α) (r : RecvRet (List UInt8)) : RecvRet α where
  val := r.val.map fun r => do
    match ← r with
    | none => return none
    | some buf => some <$> decode buf
  rest := r.rest

namespace FirewallMessage

def send (msg : FirewallMessage) (writes : List SocketWrite) : Except Panic SendRet :=
  sendFrom msg.msgSerialize 0 writes

/-- `recv`, with what it leaves of the stream. -/
def recvStream (reads : List SocketRead) : Except Panic (RecvRet FirewallMessage) :=
  RecvRet.decoded tryMsgDeserialize <$> readFrom FWMSG_SIZE [] reads

end FirewallMessage

structure NetSocketTcp where
  closed : Bool

namespace NetSocketTcp

/-- The TCP branch of `NetSocket::send`. -/
def send (sock : NetSocketTcp) (buf : List UInt8) (writes : List SocketWrite) : Except Panic SendRet :=
  if sock.closed then .ok ⟨some (.error "Socket is closed."), [], writes⟩
  else sendFrom buf 0 writes

/-- The TCP branch of `NetSocket::recv`. -/
def recv (sock : NetSocketTcp) (reads : List SocketRead) : Except Panic (RecvRet (List UInt8)) :=
  if sock.closed then .ok ⟨some (.error "Socket is closed."), reads⟩
  else readFrom MSG_SIZE [] reads

end NetSocketTcp

namespace Message

/-- `Message::send` over TCP. -/
def sendTcp (sock : NetSocketTcp) (msg : Message AuthBytes) (writes : List SocketWrite) : Except Panic SendRet :=
  sock.send msg.msgSerialize writes

/-- `Message::recv` over TCP. -/
def recvTcp (sock : NetSocketTcp) (reads : List SocketRead) : Except Panic (RecvRet (Message AuthBytes)) :=
  RecvRet.decoded tryMsgDeserialize <$> sock.recv reads

end Message

/-! ## Writing -/

/-- Some bytes were written, or none because the socket would have blocked. -/
def SocketWrite.Progress : SocketWrite → Prop
  | .wrote n => 1 ≤ n
  | .wouldBlock => True
  | .pollError | .error _ => False

section
variable {txbuf : List UInt8} {txcount : Nat}

/-- A write that the socket takes `n` bytes of. -/
theorem sendFrom_wrote (h : txcount ≤ txbuf.length) (n : Nat) (writes : List SocketWrite) :
    ∃ k, k ≤ n ∧ (n ≤ k ∨ txcount + k = txbuf.length) ∧ txcount + k ≤ txbuf.length ∧
      sendFrom txbuf txcount (.wrote n :: writes) =
        if txcount + k = txbuf.length then .ok ⟨some (.ok ()), (txbuf.drop txcount).take k, writes⟩
        else (fun r : SendRet => { r with written := (txbuf.drop txcount).take k ++ r.written }) <$>
          sendFrom txbuf (txcount + k) writes := by
  have hlen : (txbuf.drop txcount).length = txbuf.length - txcount := List.length_drop
  have hle : txcount + min n (txbuf.drop txcount).length ≤ txbuf.length := by omega
  refine ⟨min n (txbuf.drop txcount).length, by omega, by omega, hle, ?_⟩
  simp only [sendFrom, check, if_pos hle, bind, Except.bind]
  split
  · rfl
  · cases sendFrom txbuf (txcount + min n (txbuf.drop txcount).length) writes <;> rfl

/-- What the loop wrote is a part of what there is to write, and all of it if the loop returned without an error. -/
theorem sendFrom_spec (h : txcount ≤ txbuf.length) (writes : List SocketWrite) :
    ∃ r, sendFrom txbuf txcount writes = .ok r ∧ r.written <+: txbuf.drop txcount ∧
      (r.val = some (.ok ()) → r.written = txbuf.drop txcount) := by
  induction writes generalizing txcount with
  | nil => exact ⟨_, rfl, List.nil_prefix, by intro hval; cases hval⟩
  | cons write writes ih =>
    rcases write with _ | n | _ | e
    · exact ⟨_, rfl, List.nil_prefix, by intro hval; cases hval⟩
    · obtain ⟨k, -, -, hle, heq⟩ := sendFrom_wrote h n writes
      rw [heq]
      split
      next hend =>
        have hall : (txbuf.drop txcount).take k = txbuf.drop txcount :=
          List.take_of_length_le (by rw [List.length_drop]; omega)
        exact ⟨_, rfl, List.take_prefix _ _, fun _ => hall⟩
      next =>
        obtain ⟨r, hr, hpre, hall⟩ := ih hle
        have hsplit : (txbuf.drop txcount).take k ++ txbuf.drop (txcount + k) = txbuf.drop txcount := by
          rw [← List.drop_drop, List.take_append_drop]
        refine ⟨{ r with written := (txbuf.drop txcount).take k ++ r.written }, by rw [hr]; rfl, ?_, ?_⟩
        · have hpre := (List.prefix_append_right_inj ((txbuf.drop txcount).take k)).mpr hpre
          rwa [hsplit] at hpre
        · intro hval
          show (txbuf.drop txcount).take k ++ r.written = txbuf.drop txcount
          rw [hall hval, hsplit]
    · exact ih h
    · exact ⟨_, rfl, List.nil_prefix, by intro hval; cases hval⟩

/-- Every write makes progress, so as many of them as there are bytes are enough. -/
theorem sendFrom_completes (h : txcount < txbuf.length) {writes : List SocketWrite}
    (hprog : ∀ write ∈ writes, write.Progress)
    (hmany : txbuf.length - txcount ≤ (writes.filter (· ≠ .wouldBlock)).length) :
    ∃ r, sendFrom txbuf txcount writes = .ok r ∧ r.val = some (.ok ()) := by
  induction writes generalizing txcount with
  | nil =>
    simp only [List.filter_nil, List.length_nil] at hmany
    omega
  | cons write writes ih =>
    have hrest : ∀ write ∈ writes, write.Progress := fun w hw => hprog w (List.mem_cons_of_mem _ hw)
    have hhead := hprog write List.mem_cons_self
    rcases write with _ | n | _ | e
    · exact hhead.elim
    · have hn : 1 ≤ n := hhead
      obtain ⟨k, -, hk, hle, heq⟩ := sendFrom_wrote (Nat.le_of_lt h) n writes
      rw [heq]
      split
      next => exact ⟨_, rfl, rfl⟩
      next hmore =>
        have hmany : txbuf.length - (txcount + k) ≤ (writes.filter (· ≠ .wouldBlock)).length := by
          simp at hmany ⊢
          omega
        obtain ⟨r, hr, hval⟩ := ih (by omega) hrest hmany
        exact ⟨{ r with written := (txbuf.drop txcount).take k ++ r.written }, by rw [hr]; rfl, hval⟩
    · exact ih h hrest (by simpa using hmany)
    · exact hhead.elim

end

/-! ## Reading -/

/-- The reads yield the bytes, in pieces, with any number of reads in between that would have blocked. -/
inductive Pieces : List SocketRead → List UInt8 → Prop where
  | nil : Pieces [] []
  | wouldBlock {reads : List SocketRead} {bytes : List UInt8} :
      Pieces reads bytes → Pieces (.wouldBlock :: reads) bytes
  | data {reads : List SocketRead} {bytes piece : List UInt8} :
      piece ≠ [] → Pieces reads bytes → Pieces (.data piece :: reads) (piece ++ bytes)

section
variable {size : Nat} {buf bytes piece : List UInt8} {reads : List SocketRead}

theorem readFrom_returns (h : buf.length ≤ size) (reads : List SocketRead) : ∃ r, readFrom size buf reads = .ok r := by
  induction reads generalizing buf with
  | nil => exact ⟨_, rfl⟩
  | cons read reads ih =>
    rcases read with _ | piece | _ | e
    · exact ⟨_, rfl⟩
    · have hle : (buf ++ piece.take (size - buf.length)).length ≤ size := by
        rw [List.length_append, List.length_take]
        omega
      simp only [readFrom, check, if_pos hle, bind, Except.bind]
      split
      · exact ⟨_, rfl⟩
      · split
        · exact ⟨_, rfl⟩
        · exact ih hle
    · exact ih h
    · exact ⟨_, rfl⟩

/-- A piece that does not fill the buffer is read as a whole. -/
theorem readFrom_short_piece (hne : piece ≠ []) (h : buf.length + piece.length < size) :
    readFrom size buf (.data piece :: reads) = readFrom size (buf ++ piece) reads := by
  have htake : piece.take (size - buf.length) = piece := List.take_of_length_le (by omega)
  have hlt : (buf ++ piece).length < size := by rw [List.length_append]; exact h
  have hempty : piece.isEmpty = false := by simp [hne]
  simp only [readFrom, htake, hempty, check, if_pos (Nat.le_of_lt hlt), if_neg (Nat.ne_of_lt hlt), bind, Except.bind]
  rfl

/-- A piece that fills the buffer is read up to that. -/
theorem readFrom_long_piece (hlt : buf.length < size) (h : size ≤ buf.length + piece.length) :
    readFrom size buf (.data piece :: reads) =
      .ok ⟨some (.ok (some (buf ++ piece.take (size - buf.length)))), leave (size - buf.length) piece reads⟩ := by
  have hlen : (buf ++ piece.take (size - buf.length)).length = size := by
    rw [List.length_append, List.length_take]
    omega
  have hempty : (piece.take (size - buf.length)).isEmpty = false := by
    rw [List.isEmpty_eq_false_iff_exists_mem]
    have hpos : 0 < (piece.take (size - buf.length)).length := by rw [List.length_take]; omega
    exact ⟨_, List.getElem_mem hpos⟩
  simp only [readFrom, hempty, check, hlen, Nat.le_refl, if_true, bind, Except.bind]
  rfl

/-- A stream that is too short for the buffer is taken in and more is waited for. -/
theorem Pieces.readFrom_short (hp : Pieces reads bytes) (h : buf.length + bytes.length < size)
    (after : List SocketRead) : readFrom size buf (reads ++ after) = readFrom size (buf ++ bytes) after := by
  induction hp generalizing buf with
  | nil => rw [List.nil_append, List.append_nil]
  | wouldBlock _ ih => exact ih h
  | @data reads bytes piece hne _ ih =>
    rw [List.length_append] at h
    rw [List.cons_append, readFrom_short_piece hne (by omega), ih (by rw [List.length_append]; omega),
      List.append_assoc]

theorem Pieces.leave (hp : Pieces reads bytes) {n : Nat} (h : n ≤ piece.length) :
    Pieces (leave n piece reads) ((piece ++ bytes).drop n) := by
  unfold Letmein.leave
  split
  next hle =>
    have hn : n = piece.length := by omega
    rw [hn, List.drop_left]
    exact hp
  next hgt =>
    rw [List.drop_append_of_le_length h]
    refine .data ?_ hp
    intro hnil
    have hlen := congrArg List.length hnil
    rw [List.length_drop, List.length_nil] at hlen
    omega

/-- A stream that is long enough fills the buffer, and the rest of it is left. -/
theorem Pieces.readFrom_full (hp : Pieces reads bytes) (hlt : buf.length < size)
    (h : size ≤ buf.length + bytes.length) (after : List SocketRead) :
    ∃ rest, Pieces rest (bytes.drop (size - buf.length)) ∧ readFrom size buf (reads ++ after) =
      .ok ⟨some (.ok (some (buf ++ bytes.take (size - buf.length)))), rest ++ after⟩ := by
  induction hp generalizing buf with
  | nil =>
    rw [List.length_nil] at h
    omega
  | wouldBlock _ ih => exact ih hlt h
  | @data reads bytes piece hne hp ih =>
    rw [List.length_append] at h
    by_cases hlong : size ≤ buf.length + piece.length
    · refine ⟨Letmein.leave (size - buf.length) piece reads, hp.leave (by omega), ?_⟩
      rw [List.cons_append, readFrom_long_piece hlt hlong, List.take_append_of_le_length (by omega)]
      congr 2
      unfold Letmein.leave
      split <;> rfl
    · -- The rest of the piece's stream fills what is then left of the buffer.
      obtain ⟨rest, hrest, heq⟩ := @ih (buf ++ piece) (by rw [List.length_append]; omega)
        (by rw [List.length_append]; omega)
      have hleft : size - (buf ++ piece).length = size - buf.length - piece.length := by
        rw [List.length_append]
        omega
      have hge : piece.length ≤ size - buf.length := by omega
      rw [hleft] at hrest heq
      refine ⟨rest, ?_, ?_⟩
      · rw [List.drop_append, List.drop_eq_nil_of_le hge, List.nil_append]
        exact hrest
      · rw [List.cons_append, readFrom_short_piece hne (by omega), heq, List.take_append,
          List.take_of_length_le hge, List.append_assoc]

end

/-! ## Messages one after the other -/

section
variable {M : Type}

/-- Send messages until one is not sent. -/
def sendAll (send : M → List SocketWrite → Except Panic SendRet) : List M → List SocketWrite → Except Panic SendRet
  | [], writes => .ok ⟨some (.ok ()), [], writes⟩
  | msg :: msgs, writes => do
    let r ← send msg writes
    match r.val with
    | some (.ok ()) =>
      let r' ← sendAll send msgs r.rest
      return { r' with written := r.written ++ r'.written }
    | _ => return r

/-- The messages that come in on up to `n` calls, and what is left to read. -/
def recvAll (recv : List SocketRead → Except Panic (RecvRet M)) :
    Nat → List SocketRead → Except Panic (List M × List SocketRead)
  | 0, reads => .ok ([], reads)
  | n + 1, reads => do
    let r ← recv reads
    match r.val with
    | some (.ok (some msg)) =>
      let (msgs, rest) ← recvAll recv n r.rest
      return (msg :: msgs, rest)
    | _ => return ([], r.rest)

/-- What a pair of send and receive loops guarantees for messages that take `size` bytes each. -/
structure Framed (size : Nat) (encode : M → List UInt8) (Valid : M → Prop)
    (send : M → List SocketWrite → Except Panic SendRet) (recv : List SocketRead → Except Panic (RecvRet M)) : Prop where
  /-- No assertion fails, and what is written is a part of the message, all of it if the loop returns `Ok`. -/
  sends : ∀ msg writes, ∃ r, send msg writes = .ok r ∧ r.written <+: encode msg ∧
    (r.val = some (.ok ()) → r.written = encode msg)
  completes : ∀ (msg : M) (writes : List SocketWrite), (∀ write ∈ writes, write.Progress) →
    size ≤ (writes.filter (· ≠ .wouldBlock)).length → ∃ r, send msg writes = .ok r ∧ r.val = some (.ok ())
  receives : ∀ reads, ∃ r, recv reads = .ok r
  /-- The first message of a stream is received, and what follows it is left. -/
  received : ∀ (msg : M) (bytes : List UInt8) (reads after : List SocketRead), Valid msg →
    Pieces reads (encode msg ++ bytes) → ∃ rest, Pieces rest bytes ∧
      recv (reads ++ after) = .ok ⟨some (.ok (some msg)), rest ++ after⟩
  /-- A stream that is too short makes the receiver wait, and ends without a message. -/
  truncated : ∀ (bytes : List UInt8) (reads after : List SocketRead), Pieces reads bytes → bytes.length < size →
    recv reads = .ok ⟨none, []⟩ ∧ recv (reads ++ .data [] :: after) = .ok ⟨some (.ok none), after⟩

namespace Framed
variable {size : Nat} {encode : M → List UInt8} {Valid : M → Prop}
  {send : M → List SocketWrite → Except Panic SendRet} {recv : List SocketRead → Except Panic (RecvRet M)}

/-- The loops over the encoding and the decoding of a message. -/
theorem of_codec {decode : List UInt8 → Except String M} (hpos : 0 < size)
    (hlen : ∀ msg, (encode msg).length = size) (hdecode : ∀ msg, Valid msg → decode (encode msg) = .ok msg) :
    Framed size encode Valid (fun msg => sendFrom (encode msg) 0)
      (fun reads => RecvRet.decoded decode <$> readFrom size [] reads) where
  sends msg writes := by
    obtain ⟨r, hr, hpre, hall⟩ := sendFrom_spec (Nat.zero_le (encode msg).length) writes
    exact ⟨r, hr, hpre, hall⟩
  completes msg writes hprog hmany := by
    refine sendFrom_completes (by rw [hlen msg]; exact hpos) hprog ?_
    rw [hlen msg]
    exact hmany
  receives reads := by
    obtain ⟨r, hr⟩ : ∃ r, readFrom size [] reads = .ok r := readFrom_returns (Nat.zero_le size) reads
    exact ⟨r.decoded decode, by rw [hr]; rfl⟩
  received msg bytes reads after hvalid hp := by
    have hlt : ([] : List UInt8).length < size := hpos
    have hlong : size ≤ ([] : List UInt8).length + (encode msg ++ bytes).length := by
      rw [List.length_append, hlen msg, List.length_nil]
      omega
    obtain ⟨rest, hrest, heq⟩ := hp.readFrom_full hlt hlong after
    rw [List.length_nil, Nat.sub_zero, ← hlen msg, List.drop_left] at hrest
    rw [List.length_nil, Nat.sub_zero, List.nil_append] at heq
    refine ⟨rest, hrest, ?_⟩
    rw [heq, ← hlen msg, List.take_left]
    simp [RecvRet.decoded, hdecode msg hvalid, Functor.map, Except.map, bind, Except.bind, pure, Except.pure]
  truncated bytes reads after hp hshort := by
    have hshort' : ([] : List UInt8).length + bytes.length < size := by simpa using hshort
    constructor
    · have heq := hp.readFrom_short hshort' []
      rw [List.append_nil] at heq
      rw [heq]
      rfl
    · rw [hp.readFrom_short hshort' (.data [] :: after)]
      simp [readFrom, RecvRet.decoded, Functor.map, Except.map, bind, Except.bind, pure, Except.pure]

/-- What is written for messages that were all sent is their encodings, one after the other. -/
theorem sendAll_written (h : Framed size encode Valid send recv) {msgs : List M} {writes : List SocketWrite}
    {r : SendRet} (hr : sendAll send msgs writes = .ok r) (hval : r.val = some (.ok ())) :
    r.written = msgs.flatMap encode := by
  induction msgs generalizing writes r with
  | nil =>
    cases hr
    rfl
  | cons msg msgs ih =>
    obtain ⟨r₁, hr₁, hr⟩ := Except.bind_ok hr
    obtain ⟨r₁', hr₁', -, hall⟩ := h.sends msg writes
    rw [hr₁] at hr₁'
    cases hr₁'
    split at hr
    next hval₁ =>
      obtain ⟨r₂, hr₂, hr⟩ := Except.bind_ok hr
      cases hr
      show r₁.written ++ r₂.written = _
      rw [hall hval₁, ih hr₂ hval, List.flatMap_cons]
    next hno =>
      cases hr
      exact absurd hval (by simpa using hno)

/-- The messages of a stream come out one after the other. -/
theorem recvAll_pieces (h : Framed size encode Valid send recv) {msgs : List M} (hvalid : ∀ msg ∈ msgs, Valid msg)
    {bytes : List UInt8} {reads : List SocketRead} (hp : Pieces reads (msgs.flatMap encode ++ bytes))
    (after : List SocketRead) :
    ∃ rest, Pieces rest bytes ∧ recvAll recv msgs.length (reads ++ after) = .ok (msgs, rest ++ after) := by
  induction msgs generalizing reads with
  | nil => exact ⟨reads, hp, rfl⟩
  | cons msg msgs ih =>
    rw [List.flatMap_cons, List.append_assoc] at hp
    obtain ⟨rest₁, hp₁, hrecv⟩ := h.received msg _ reads after (hvalid msg List.mem_cons_self) hp
    obtain ⟨rest, hrest, hall⟩ := ih (fun m hm => hvalid m (List.mem_cons_of_mem _ hm)) hp₁
    refine ⟨rest, hrest, ?_⟩
    simp only [List.length_cons, recvAll, hrecv, hall, bind, Except.bind]
    rfl

/-- Messages that were all sent are received, whatever the pieces in which they went in and came out. -/
theorem delivered (h : Framed size encode Valid send recv) {msgs : List M} (hvalid : ∀ msg ∈ msgs, Valid msg)
    {writes : List SocketWrite} {r : SendRet} (hr : sendAll send msgs writes = .ok r) (hval : r.val = some (.ok ()))
    {reads : List SocketRead} (hp : Pieces reads r.written) (after : List SocketRead) :
    ∃ rest, Pieces rest [] ∧ recvAll recv msgs.length (reads ++ after) = .ok (msgs, rest ++ after) := by
  rw [h.sendAll_written hr hval, ← List.append_nil (msgs.flatMap encode)] at hp
  exact h.recvAll_pieces hvalid hp after

end Framed

end

theorem FirewallMessage.framed :
    Framed FWMSG_SIZE msgSerialize (fun _ => True) FirewallMessage.send FirewallMessage.recvStream :=
  Framed.of_codec (by decide) length_msgSerialize fun msg _ => tryMsgDeserialize_msgSerialize msg

theorem Message.framed :
    Framed MSG_SIZE msgSerialize (·.magic = MAGIC) (sendTcp ⟨false⟩) (recvTcp ⟨false⟩) :=
  Framed.of_codec (by decide) length_msgSerialize fun _ hmagic => tryMsgDeserialize_msgSerialize hmagic

/-- The loop that letmeinfwd runs is the one that leaves the rest of the stream. -/
theorem FirewallMessage.recvFrom_eq (rxbuf : List UInt8) (reads : List SocketRead) :
    recvFrom rxbuf reads =
      (fun r => (r.decoded tryMsgDeserialize).val) <$> readFrom FWMSG_SIZE rxbuf reads := by
  induction reads generalizing rxbuf with
  | nil => rfl
  | cons read reads ih =>
    rcases read with _ | bytes | _ | e
    · rfl
    · simp only [recvFrom, readFrom]
      split
      · rfl
      · by_cases hle : (rxbuf ++ bytes.take (FWMSG_SIZE - rxbuf.length)).length ≤ FWMSG_SIZE
        · simp only [check, if_pos hle, bind, Except.bind]
          split
          · rfl
          · exact ih _
        · simp only [check, if_neg hle, bind, Except.bind]
          rfl
    · exact ih rxbuf
    · rfl

/-- Whatever the pieces in which messages are written and read, what is received is what was sent. -/
theorem framing_independent_of_chunking :
    (Framed FWMSG_SIZE FirewallMessage.msgSerialize (fun _ => True) FirewallMessage.send FirewallMessage.recvStream ∧
      (∀ reads, FirewallMessage.recv reads = RecvRet.val <$> FirewallMessage.recvStream reads) ∧
      ∀ (msgs : List FirewallMessage) (writes : List SocketWrite) (r : SendRet) (reads after : List SocketRead),
        sendAll FirewallMessage.send msgs writes = .ok r → r.val = some (.ok ()) → Pieces reads r.written →
        r.written = msgs.flatMap FirewallMessage.msgSerialize ∧ ∃ rest, Pieces rest [] ∧
          recvAll FirewallMessage.recvStream msgs.length (reads ++ after) = .ok (msgs, rest ++ after)) ∧
    (Framed MSG_SIZE Message.msgSerialize (·.magic = MAGIC) (Message.sendTcp ⟨false⟩) (Message.recvTcp ⟨false⟩) ∧
      ∀ (msgs : List (Message AuthBytes)) (writes : List SocketWrite) (r : SendRet) (reads after : List SocketRead),
        (∀ msg ∈ msgs, msg.magic = MAGIC) →
        sendAll (Message.sendTcp ⟨false⟩) msgs writes = .ok r → r.val = some (.ok ()) → Pieces reads r.written →
        r.written = msgs.flatMap Message.msgSerialize ∧ ∃ rest, Pieces rest [] ∧
          recvAll (Message.recvTcp ⟨false⟩) msgs.length (reads ++ after) = .ok (msgs, rest ++ after)) := by
  refine ⟨⟨FirewallMessage.framed, ?_, ?_⟩, Message.framed, ?_⟩
  · intro reads
    rw [FirewallMessage.recv, FirewallMessage.recvFrom_eq, FirewallMessage.recvStream]
    cases readFrom FWMSG_SIZE [] reads <;> rfl
  · intro msgs writes r reads after hr hval hp
    exact ⟨FirewallMessage.framed.sendAll_written hr hval,
      FirewallMessage.framed.delivered (fun _ _ => trivial) hr hval hp after⟩
  · intro msgs writes r reads after hmagic hr hval hp
    exact ⟨Message.framed.sendAll_written hr hval, Message.framed.delivered hmagic hr hval hp after⟩

end Letmein
