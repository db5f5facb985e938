import TiabloServer.Network.Framing

/-!
# Reads of a parser

`canRead` allows reads up to the length and eight bytes more, whatever headers stand in front of the
payload. Only a packet that is encrypted and has a checksum starts its payload at the eighth byte,
so that this is the end of the payload. A parser of every other packet can read old bytes behind it.

## Main definitions

* `Network.Read` — what a parser reads.
* `Network.ReadsInside` — all reads of a parser lie in a stretch of the buffer.

## Main results

* `Network.readsInside_iff` — the packets whose parsers read in the payload only.
-/

namespace TiabloServer.Network

open Memory

/-! ## Runs of a parser -/

/-- A call of a parser: `getByte`, `get<T>` for a `T` of some size, `getString` and
`getPosition`. -/
inductive Read
  | getByte
  | get (size : ℕ)
  | getString (stringLen : UInt16)
  | getPosition

/-- The message after a call. -/
def Read.run (msg : NetworkMessage) : Read → NetworkMessage
  | .getByte => (msg.get 1).2
  | .get size => (msg.get size).2
  | .getString stringLen => (msg.getString stringLen.toNat).2
  | .getPosition => msg.getPosition.2

/-- All reads of a parser that is given a message lie between two addresses. -/
def ReadsInside (msg : NetworkMessage) (start stop : ℕ) : Prop :=
  ∀ reads : List Read, ∀ a ∈ (reads.foldl Read.run { msg with accesses := [] }).accesses,
    start ≤ a.1 ∧ a.1 + a.2 ≤ stop

/-- What stays while a parser reads a message whose readable end is `stop`. -/
structure ParserState (start stop : ℕ) (msg : NetworkMessage) : Prop where
  start_le : start ≤ msg.position
  length_eq : msg.length + 8 = stop
  accesses_inside : ∀ a ∈ msg.accesses, start ≤ a.1 ∧ a.1 + a.2 ≤ stop

namespace ParserState

variable {start stop : ℕ} {msg : NetworkMessage}

theorem readBytes (h : ParserState start stop msg) (hstop : stop < 65536) (size : ℕ) :
    ParserState start stop (msg.readBytes size).2 := by
  rw [NetworkMessage.readBytes]
  split_ifs with hread
  · have hend : msg.position + size ≤ stop := by
      rw [NetworkMessage.CanRead] at hread
      have := h.length_eq
      omega
    have hposition : msgSize ((msg.position : ℤ) + size) = msg.position + size :=
      msgSize_add (by omega)
    refine ⟨?_, h.length_eq, fun a ha => ?_⟩
    · simp only [hposition]
      exact Nat.le_add_right_of_le h.start_le
    · rcases List.mem_append.1 ha with ha | ha
      · exact h.accesses_inside a ha
      · rw [List.mem_singleton.1 ha]
        exact ⟨h.start_le, hend⟩
  · exact ⟨h.start_le, h.length_eq, h.accesses_inside⟩

theorem get (h : ParserState start stop msg) (hstop : stop < 65536) (size : ℕ) :
    ParserState start stop (msg.get size).2 := h.readBytes hstop size

/-- **A step of a parser**. -/
theorem run (h : ParserState start stop msg) (hstop : stop < 65536) (read : Read) :
    ParserState start stop (read.run msg) := by
  cases read with
  | getByte => exact h.get hstop 1
  | get size => exact h.get hstop size
  | getString stringLen =>
    rw [Read.run, NetworkMessage.getString]
    split_ifs with hzero
    · exact (h.get hstop 2).readBytes hstop _
    · exact h.readBytes hstop _
  | getPosition =>
    simp only [Read.run, NetworkMessage.getPosition]
    exact ((h.get hstop 2).get hstop 2).get hstop 1

/-- **A run of a parser**. -/
theorem foldl (h : ParserState start stop msg) (hstop : stop < 65536) (reads : List Read) :
    ParserState start stop (reads.foldl Read.run msg) := by
  induction reads generalizing msg with
  | nil => exact h
  | cons read reads ih => exact ih (h.run hstop read)

end ParserState

/-- Where the readable end is the end of the payload, a parser stays inside. -/
theorem readsInside_of_length {msg : NetworkMessage} {start stop : ℕ} (hstart : start ≤ msg.position)
    (hlength : msg.length + 8 = stop) (hstop : stop < 65536) : ReadsInside msg start stop :=
  fun reads => (show ParserState start stop { msg with accesses := [] } from
    ⟨hstart, hlength, fun _ ha => (nomatch ha)⟩).foldl hstop reads |>.accesses_inside

/-- Where more can be read, one string that ends behind the payload is read. -/
theorem not_readsInside_of_length {msg : NetworkMessage} {start stop : ℕ}
    (hposition : msg.position < msg.length + 8) (hstop : stop < msg.length + 8)
    (hlength : msg.length + 8 < NETWORKMESSAGE_MAXSIZE) : ¬ ReadsInside msg start stop := by
  intro hinside
  rw [NETWORKMESSAGE_MAXSIZE] at hlength
  have hlt : stop - msg.position + 1 < 65536 := by omega
  have hlen : (UInt16.ofNat (stop - msg.position + 1)).toNat = stop - msg.position + 1 :=
    UInt16.toNat_ofNat_of_lt' hlt
  have hread : ({ msg with accesses := [] } : NetworkMessage).CanRead (stop - msg.position + 1) := by
    rw [NetworkMessage.CanRead, NETWORKMESSAGE_MAXSIZE]
    simp only
    omega
  have haccess := hinside [.getString (UInt16.ofNat (stop - msg.position + 1))]
    (msg.position, stop - msg.position + 1) (by
      rw [List.foldl_cons, List.foldl_nil, Read.run, hlen,
        NetworkMessage.getString_of_canRead _ (Nat.succ_ne_zero _) hread]
      exact List.mem_append_right _ (List.mem_singleton.2 rfl))
  omega

/-! ## Accepted packets -/

/-- Where the payload of an accepted packet of `size` bytes ends: an encrypted packet has an inner
length, a first message and a packet without encryption go on to the end of the packet. -/
def payloadEnd (encrypted : Prop) [Decidable encrypted] (size : ℕ) (msg : NetworkMessage) : ℕ :=
  if encrypted then msg.position + msg.length else size + HEADER_LENGTH

variable {old msg : NetworkMessage} {body : List UInt8}

theorem onRecvMessage_eq_some {p : Protocol} {packet : NetworkMessage} (h : (p.onRecvMessage packet).1 = some msg) :
    p.sendRecvMessageCallback (beforeDecryption p.checksumMethod packet) = some msg := by
  rw [Protocol.onRecvMessage] at h
  cases hmethod : p.checksumMethod with
  | none =>
    rw [hmethod] at h
    exact h
  | adler32 =>
    rw [hmethod] at h
    simp only at h
    split_ifs at h with hchecksum
    rw [beforeDecryption, if_neg (by decide)]
    exact h
  | sequence =>
    rw [hmethod] at h
    simp only at h
    split_ifs at h with hping hchecksum
    simpa only [Protocol.sendRecvMessageCallback, hmethod, beforeDecryption, reduceCtorEq,
      if_false] using h

/-- `parseHeader` accepts the sizes from 1 to `INPUTMESSAGE_MAXSIZE`. -/
theorem parseHeader_eq (old : NetworkMessage) (hsize : body.length < 65536) :
    Connection.parseHeader old (Wire.leBytes 2 body.length ++ body) =
      if 0 < body.length ∧ body.length ≤ INPUTMESSAGE_MAXSIZE then some (received old body)
      else none := by
  have htake : (Wire.leBytes 2 body.length ++ body).take HEADER_LENGTH =
      Wire.leBytes 2 body.length := List.take_left' (Wire.length_leBytes 2 _)
  have hheader : Wire.ofLE (Wire.leBytes 2 body.length) = body.length := by
    rw [Wire.ofLE_leBytes, Nat.mod_eq_of_lt (by omega)]
  rw [Connection.parseHeader, htake, hheader]
  by_cases haccepted : 0 < body.length ∧ body.length ≤ INPUTMESSAGE_MAXSIZE
  · rw [if_pos haccepted, if_neg (by omega), received]
  · rw [if_neg haccepted, if_pos (by omega)]

/-- A packet of a connection without encryption goes on to its end. -/
theorem plain_of_onRecvMessage {p : Protocol} (hencryption : p.encryptionEnabled = false)
    (hle : body.length ≤ INPUTMESSAGE_MAXSIZE) (h : (p.onRecvMessage (received old body)).1 = some msg) :
    msg.position ≤ 6 ∧ msg.length = body.length + 2 := by
  rw [INPUTMESSAGE_MAXSIZE] at hle
  obtain ⟨hlength, hposition, -⟩ := beforeDecryption_received p.checksumMethod old
    body (by omega)
  have hcallback := onRecvMessage_eq_some h
  rw [Protocol.sendRecvMessageCallback, if_neg (by simp [hencryption])] at hcallback
  rw [← Option.some.inj hcallback]
  have hcases := checksumLength_le p.checksumMethod
  exact ⟨by omega, hlength⟩

/-- A first message goes on to its end. -/
theorem plain_of_parseFirst {hasProtocol : Bool} {isService : Bool → ℕ → Bool}
    (hle : body.length ≤ INPUTMESSAGE_MAXSIZE)
    (h : Connection.parseFirst hasProtocol isService (received old body) = some msg) :
    msg.position ≤ 7 ∧ msg.length = body.length + 2 := by
  rw [INPUTMESSAGE_MAXSIZE] at hle
  have hchecksum : (received old body).CanRead 4 := by
    rw [received_eq _ (by omega), NetworkMessage.CanRead, NETWORKMESSAGE_MAXSIZE]
    simp only
    omega
  rw [Connection.parseFirst, NetworkMessage.get_of_canRead _ hchecksum,
    received_eq _ (by omega)] at h
  split_ifs at h with hprotocol
  · rw [← Option.some.inj h]
    exact ⟨le_of_eq rfl, rfl⟩
  · simp only at h
    split_ifs at h with hchecksummed hservice hservice <;> rw [← Option.some.inj h]
    · exact ⟨NetworkMessage.position_get_le _ 1, NetworkMessage.length_get _ 1⟩
    · -- the checksum is stepped back over
      exact ⟨(NetworkMessage.position_get_le _ 1).trans (show 2 + 1 ≤ 7 by decide),
        NetworkMessage.length_get _ 1⟩

/-- A packet that has been decrypted: the position is behind the inner length, which leaves room for
itself in the packet. -/
theorem decrypted_of_onRecvMessage {p : Protocol} (hencryption : p.encryptionEnabled = true)
    (hle : body.length ≤ INPUTMESSAGE_MAXSIZE) (h : (p.onRecvMessage (received old body)).1 = some msg) :
    msg.position = 4 + checksumLength p.checksumMethod ∧ msg.position + msg.length ≤
      body.length + HEADER_LENGTH := by
  rw [INPUTMESSAGE_MAXSIZE] at hle
  obtain ⟨hlength, hposition, -⟩ := beforeDecryption_received p.checksumMethod old
    body (by omega)
  have hcallback := onRecvMessage_eq_some h
  generalize beforeDecryption p.checksumMethod (received old body) = packet at *
  rw [Protocol.sendRecvMessageCallback, if_pos hencryption] at hcallback
  simp only at hcallback
  split_ifs at hcallback with hok
  have hmsg := Option.some.inj hcallback
  by_cases hmultiple : msgSize ((packet.length : ℤ) -
      if p.checksumMethod = .none then 2 else 6) % 8 = 0
  · rw [hlength] at hmultiple
    obtain ⟨n, hn⟩ := exists_blocks (by omega) hmultiple
    have hpacket : packet.length = n * 8 + checksumLength p.checksumMethod + 2 := by omega
    have hinner := length_of_XTEA_decrypt p.key (by omega) hpacket hposition hok
    have hposition' := position_XTEA_decrypt p.key (by omega) hpacket hposition
    rw [hmsg] at hinner hposition'
    rw [HEADER_LENGTH]
    omega
  · rw [Protocol.XTEA_decrypt, if_pos hmultiple] at hok
    cases hok

/-- **Reads of a parser.** A parser of an accepted packet reads in its payload only, whatever it
calls, exactly if the packet is encrypted and has a checksum. -/
theorem readsInside_iff (receivedFirst hasProtocol : Bool) (isService : Bool → ℕ → Bool) (p : Protocol)
    (old packet msg : NetworkMessage) (body : List UInt8) (hsize : body.length < 65536)
    (hheader : Connection.parseHeader old (Wire.leBytes 2 body.length ++ body) = some packet)
    (hpacket : Connection.parsePacket receivedFirst hasProtocol isService p packet = some msg) :
    ReadsInside msg msg.position
        (payloadEnd (receivedFirst = true ∧ p.encryptionEnabled = true) body.length msg) ↔
      receivedFirst = true ∧ p.encryptionEnabled = true ∧ p.checksumMethod ≠ .none := by
  rw [parseHeader_eq old hsize] at hheader
  split_ifs at hheader with haccepted
  obtain ⟨hpos, hle⟩ := haccepted
  obtain rfl := Option.some.inj hheader
  have hle' : body.length ≤ 4096 := hle
  by_cases hencrypted : receivedFirst = true ∧ p.encryptionEnabled = true
  · rw [payloadEnd, if_pos hencrypted]
    rw [Connection.parsePacket, if_pos hencrypted.1] at hpacket
    obtain ⟨hposition, hend⟩ := decrypted_of_onRecvMessage hencrypted.2 hle hpacket
    rw [HEADER_LENGTH] at hend
    rw [checksumLength] at hposition
    by_cases hnone : p.checksumMethod = .none
    · rw [if_pos hnone] at hposition
      refine iff_of_false (not_readsInside_of_length (by omega) (by omega) ?_)
        fun hchecksum => hchecksum.2.2 hnone
      rw [NETWORKMESSAGE_MAXSIZE]
      omega
    · rw [if_neg hnone, CHECKSUM_LENGTH] at hposition
      exact iff_of_true (readsInside_of_length le_rfl (by omega) (by omega))
        ⟨hencrypted.1, hencrypted.2, hnone⟩
  · rw [payloadEnd, if_neg hencrypted]
    have hplain : msg.position ≤ 7 ∧ msg.length = body.length + 2 := by
      rw [Connection.parsePacket] at hpacket
      split_ifs at hpacket with hfirst
      · have hencryption : p.encryptionEnabled = false :=
          Bool.eq_false_iff.2 fun henabled => hencrypted ⟨hfirst, henabled⟩
        obtain ⟨hposition, hlength⟩ := plain_of_onRecvMessage hencryption hle hpacket
        exact ⟨by omega, hlength⟩
      · exact plain_of_parseFirst hle hpacket
    refine iff_of_false (not_readsInside_of_length (by omega) ?_ ?_)
      fun hchecksum => hencrypted ⟨hchecksum.1, hchecksum.2.1⟩
    · rw [HEADER_LENGTH]
      omega
    · rw [NETWORKMESSAGE_MAXSIZE]
      omega

/-- A packet with the key 1, 2, 3, 4 and a sequence number, of a payload of three bytes. -/
theorem readsInside_iff_sequence : ∃ msg,
    Connection.parsePacket true false (fun _ _ => false)
      ⟨false, true, .sequence, ![1, 2, 3, 4], 0, 0⟩
      (received ⟨0, 8, false, fun _ => 77, []⟩
        [1, 0, 0, 0, 250, 215, 146, 188, 243, 63, 228, 103]) = some msg ∧
    ReadsInside msg msg.position (msg.position + msg.length) := by
  have hsome : (Connection.parsePacket true false (fun _ _ => false)
      ⟨false, true, .sequence, ![1, 2, 3, 4], 0, 0⟩
      (received ⟨0, 8, false, fun _ => 77, []⟩
        [1, 0, 0, 0, 250, 215, 146, 188, 243, 63, 228, 103])).isSome := by decide +kernel
  obtain ⟨msg, hmsg⟩ := Option.isSome_iff_exists.1 hsome
  exact ⟨msg, hmsg, (readsInside_iff true false (fun _ _ => false)
    ⟨false, true, .sequence, ![1, 2, 3, 4], 0, 0⟩ ⟨0, 8, false, fun _ => 77, []⟩ _ msg
    [1, 0, 0, 0, 250, 215, 146, 188, 243, 63, 228, 103] (by decide)
    ((parseHeader_eq _ (by decide)).trans (if_pos (by decide))) hmsg).2
      ⟨rfl, rfl, by decide⟩⟩

/-- The first message of a connection that has its protocol: a byte is read behind a packet of one
byte, and it is what an old message has left there. -/
theorem not_readsInside_first :
    ¬ ∀ (receivedFirst hasProtocol : Bool) (isService : Bool → ℕ → Bool) (p : Protocol)
      (old packet msg : NetworkMessage) (body : List UInt8), body.length < 65536 →
      Connection.parseHeader old (Wire.leBytes 2 body.length ++ body) = some packet →
      Connection.parsePacket receivedFirst hasProtocol isService p packet = some msg →
        ReadsInside msg msg.position
          (payloadEnd (receivedFirst = true ∧ p.encryptionEnabled = true) body.length msg) := by
  intro h
  have hinside := h false true (fun _ _ => false) ⟨false, false, .none, ![0, 0, 0, 0], 0, 0⟩
    ⟨0, 8, false, fun _ => 77, []⟩ (received ⟨0, 8, false, fun _ => 77, []⟩ [10]) _ [10] (by decide)
    ((parseHeader_eq _ (by decide)).trans (if_pos (by decide))) rfl [.getByte] (7, 1) (by decide)
  have hle : 7 + 1 ≤ 3 := hinside.2
  omega

end TiabloServer.Network
