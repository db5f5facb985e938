import TiabloServer.Network.Protocol

/-!
# Framing and encryption of messages

What is sent is a length, a checksum if there is one, and the encrypted blocks of the length of the
payload, the payload and padding. A receiver gets the payload back. A packet of a size that leaves
no block behind the checksum is not refused before its length is read, which then lies behind the
packet.

## Main definitions

* `Network.DecryptsTo` — a message is decrypted to a payload.
* `Network.StaysInside` — decryption stays inside the packet.

## Main results

* `Network.bytes_onSendMessage` — the layout of what is sent.
* `Network.framing_iff` — the round trip, and which packets are decrypted inside the packet.
-/

namespace TiabloServer.Network

open Memory

/-! ## What is sent -/

/-- A payload fits in one output message. -/
def Fits (payload : List UInt8) : Prop :=
  payload.length + INITIAL_BUFFER_POSITION < MAX_BODY_LENGTH

instance (payload : List UInt8) : Decidable (Fits payload) := inferInstanceAs (Decidable (_ < _))

/-- The message with a payload, before it is sent. -/
def OutputMessage.ofPayload (memory : ℕ → UInt8) (payload : List UInt8) : OutputMessage :=
  { OutputMessage.new memory with
    toNetworkMessage := (OutputMessage.new memory).addBytes payload }

/-- The blocks of a message with `n` bytes and their length. -/
def blockCount (n : ℕ) : ℕ := (n + 2 + 7) / 8

/-- The bytes that are added to fill the last block. -/
def padding (n : ℕ) : List UInt8 := List.replicate (blockCount n * 8 - (n + 2)) 0x33

/-- What is encrypted for a payload. -/
def plainText (payload : List UInt8) : List UInt8 :=
  Wire.leBytes 2 payload.length ++ (payload ++ padding payload.length)

/-- What is sent for a payload, behind the headers. -/
def cipherText (key : Key) (payload : List UInt8) : List UInt8 :=
  blocks 8 (xteaEncryptBlock key) (blockCount payload.length) (plainText payload)

/-- The bytes of the checksum in front of the blocks. -/
def checksumLength (checksumMethod : ChecksumMethod) : ℕ :=
  if checksumMethod = .none then 0 else CHECKSUM_LENGTH

theorem length_plainText (payload : List UInt8) : (plainText payload).length = blockCount payload.length * 8 := by
  simp only [plainText, padding, blockCount, List.length_append, Wire.length_leBytes,
    List.length_replicate]
  omega

theorem length_cipherText (key : Key) (payload : List UInt8) :
    (cipherText key payload).length = blockCount payload.length * 8 :=
  length_blocks (fun _ _ => length_xteaEncryptBlock key _) (length_plainText payload)

variable {memory : ℕ → UInt8} {payload : List UInt8}

theorem blockCount_le (h : Fits payload) : blockCount payload.length * 8 ≤ 65480 := by
  simp only [Fits, INITIAL_BUFFER_POSITION, MAX_BODY_LENGTH, NETWORKMESSAGE_MAXSIZE, HEADER_LENGTH,
    CHECKSUM_LENGTH, XTEA_MULTIPLE] at h
  rw [blockCount]
  omega

theorem ofPayload_eq (h : Fits payload) : OutputMessage.ofPayload memory payload =
      ⟨⟨payload.length, 8 + payload.length, false, store memory 8 payload, []⟩, 8⟩ := by
  have hlt : payload.length < 65478 := by
    simp only [Fits, INITIAL_BUFFER_POSITION, MAX_BODY_LENGTH, NETWORKMESSAGE_MAXSIZE,
      HEADER_LENGTH, CHECKSUM_LENGTH, XTEA_MULTIPLE] at h
    omega
  have hmax : ¬ payload.length > NETWORKMESSAGE_MAXSIZE := by
    rw [NETWORKMESSAGE_MAXSIZE]
    omega
  have hposition : msgSize ((INITIAL_BUFFER_POSITION : ℕ) + payload.length) = 8 + payload.length :=
    msgSize_add (by rw [INITIAL_BUFFER_POSITION]; omega)
  have hlength : msgSize ((0 : ℕ) + payload.length) = 0 + payload.length := msgSize_add (by omega)
  have hroom : ¬ ¬ payload.length + (OutputMessage.new memory).position < MAX_BODY_LENGTH :=
    not_not_intro h
  rw [OutputMessage.ofPayload, NetworkMessage.addBytes, if_neg hroom, if_neg hmax]
  rw [OutputMessage.new, hposition, hlength, Nat.zero_add]
  rfl

theorem writeMessageLength_ofPayload (h : Fits payload) :
    (OutputMessage.ofPayload memory payload).writeMessageLength = ⟨⟨payload.length + 2, 8 + payload.length, false,
        store (store memory 8 payload) 6 (Wire.leBytes 2 payload.length), []⟩, 6⟩ := by
  have hlt : payload.length + 2 < 65536 := by
    have := blockCount_le h
    rw [blockCount] at this
    omega
  rw [ofPayload_eq h]
  have hsize : msgSize ((payload.length : ℤ) + (2 : ℕ)) = payload.length + 2 := msgSize_add hlt
  simp only [OutputMessage.writeMessageLength, OutputMessage.addHeader, Nat.reduceLT, if_false,
    hsize, Nat.reduceSub]

/-- The buffer of a message before it is encrypted. -/
def plainBuffer (memory : ℕ → UInt8) (payload : List UInt8) : ℕ → UInt8 :=
  store (store (store memory 8 payload) 6 (Wire.leBytes 2 payload.length)) (8 + payload.length)
    (padding payload.length)

theorem slice_plainBuffer (memory : ℕ → UInt8) (payload : List UInt8) :
    slice (plainBuffer memory payload) 6 (blockCount payload.length * 8) = plainText payload := by
  have hsplit : blockCount payload.length * 8 =
      2 + (payload.length + (padding payload.length).length) := by
    rw [padding, List.length_replicate, blockCount]
    omega
  have hlength : slice (plainBuffer memory payload) 6 2 = Wire.leBytes 2 payload.length := by
    rw [plainBuffer, slice_store_of_disjoint _ (by omega)]
    exact slice_store_self _ 6 (Wire.leBytes 2 payload.length)
  have hpayload : slice (plainBuffer memory payload) 8 payload.length = payload := by
    rw [plainBuffer, slice_store_of_disjoint _ (by omega),
      slice_store_of_disjoint _ (by simp), slice_store_self]
  have hpadding : slice (plainBuffer memory payload) (8 + payload.length)
      (padding payload.length).length = padding payload.length := slice_store_self _ _ _
  rw [hsplit, slice_add, slice_add, hlength, hpayload, hpadding]
  rfl

/-- A message is filled to whole blocks and encrypted in place. -/
theorem XTEA_encrypt_ofPayload (key : Key) (h : Fits payload) :
    Protocol.XTEA_encrypt key (OutputMessage.ofPayload memory payload).writeMessageLength =
      ⟨⟨blockCount payload.length * 8, 8 + payload.length, false,
        mapBlocks 8 (xteaEncryptBlock key) (blockCount payload.length) 6 (plainBuffer memory payload), []⟩, 6⟩ := by
  have hle := blockCount_le h
  rw [writeMessageLength_ofPayload h, Protocol.XTEA_encrypt, plainBuffer, padding]
  rw [blockCount] at hle ⊢
  by_cases hfull : (payload.length + 2) % 8 = 0
  · have hcount : (payload.length + 2 + 7) / 8 * 8 = payload.length + 2 := by omega
    simp only [hfull, ne_eq, not_true_eq_false, if_false, hcount, Nat.sub_self,
      List.replicate_zero, store_nil]
  · have hroom : ¬ ¬ 8 - (payload.length + 2) % 8 + (8 + payload.length) <
        NETWORKMESSAGE_MAXSIZE := by
      rw [NETWORKMESSAGE_MAXSIZE]
      omega
    have hcount : (payload.length + 2 + 7) / 8 * 8 - (payload.length + 2) =
        8 - (payload.length + 2) % 8 := by omega
    have hlength : msgSize ((payload.length + 2 : ℕ) + (8 - (payload.length + 2) % 8 : ℕ)) =
        (payload.length + 2 + 7) / 8 * 8 := by
      have hsum : payload.length + 2 + (8 - (payload.length + 2) % 8) =
          (payload.length + 2 + 7) / 8 * 8 := by omega
      rw [msgSize_add (by rw [hsum]; omega), hsum]
    have hblocks : ((payload.length + 2 + 7) / 8 * 8 + 7) / 8 = (payload.length + 2 + 7) / 8 := by
      omega
    simp only [ne_eq, hfull, not_false_eq_true, if_true, NetworkMessage.addPaddingBytes, hroom,
      if_false, hlength, hblocks, hcount]

theorem bytes_XTEA_encrypt (key : Key) (h : Fits payload) : (Protocol.XTEA_encrypt key
      (OutputMessage.ofPayload memory payload).writeMessageLength).bytes = cipherText key payload := by
  rw [XTEA_encrypt_ofPayload key h, OutputMessage.bytes,
    slice_mapBlocks _ (fun _ _ => length_xteaEncryptBlock key _), slice_plainBuffer]
  rfl

variable (memory) in
/-- **What is sent** for a payload: the length, the checksum if there is one, and the blocks. -/
theorem bytes_onSendMessage {p : Protocol} (hraw : p.rawMessages = false)
    (hencryption : p.encryptionEnabled = true) (h : Fits payload) :
    ∃ checksum : List UInt8, checksum.length = checksumLength p.checksumMethod ∧
      (p.onSendMessage (OutputMessage.ofPayload memory payload)).1.bytes =
        Wire.leBytes 2 (checksum ++ cipherText p.key payload).length ++ (checksum ++ cipherText p.key payload) := by
  have hle := blockCount_le h
  have hbytes : ∀ msg : OutputMessage, msg = Protocol.XTEA_encrypt p.key
      (OutputMessage.ofPayload memory payload).writeMessageLength →
      msg.bytes = cipherText p.key payload ∧ msg.outputBufferStart = 6 ∧
        msg.length = blockCount payload.length * 8 := by
    rintro msg rfl
    refine ⟨bytes_XTEA_encrypt p.key h, ?_, ?_⟩ <;> rw [XTEA_encrypt_ofPayload p.key h]
  simp only [Protocol.onSendMessage, hraw, hencryption, Bool.false_eq_true, if_false,
    not_true_eq_false]
  generalize hmsg : Protocol.XTEA_encrypt p.key
    (OutputMessage.ofPayload memory payload).writeMessageLength = msg
  obtain ⟨hcipher, hstart, hlength⟩ := hbytes msg hmsg.symm
  have hsum := fun checksum =>
    msg.bytes_addCryptoHeader_true checksum (by omega) (by omega)
  rw [← hcipher]
  cases p.checksumMethod with
  | none =>
    have hplain := msg.bytes_writeMessageLength (by omega) (by omega)
    exact ⟨[], rfl, hplain⟩
  | adler32 => exact ⟨_, Wire.length_leBytes 4 _, hsum _⟩
  | sequence => exact ⟨_, Wire.length_leBytes 4 _, hsum _⟩

/-! ## What is received -/

/-- The message that is given to `XTEA_decrypt`: the checksum has been read, if there is one. -/
def beforeDecryption (checksumMethod : ChecksumMethod) (msg : NetworkMessage) : NetworkMessage :=
  if checksumMethod = .none then msg else (msg.get 4).2

/-- The packet that a receiver with an old message gets. -/
def received (msg : NetworkMessage) (body : List UInt8) : NetworkMessage :=
  Connection.readPacket msg (Wire.leBytes 2 body.length ++ body)

theorem checksumLength_le (checksumMethod : ChecksumMethod) :
    checksumLength checksumMethod = 0 ∨ checksumLength checksumMethod = 4 := by
  cases checksumMethod <;> decide

theorem received_eq (msg : NetworkMessage) {body : List UInt8} (h : body.length + 2 < 65536) :
    received msg body =
      { msg with
        length := body.length + 2
        position := 2
        buffer := store (store msg.buffer 0 (Wire.leBytes 2 body.length)) 2 body } := by
  have htake : (Wire.leBytes 2 body.length ++ body).take HEADER_LENGTH =
      Wire.leBytes 2 body.length := List.take_left' (Wire.length_leBytes 2 _)
  have hdrop : (Wire.leBytes 2 body.length ++ body).drop HEADER_LENGTH = body :=
    List.drop_left' (Wire.length_leBytes 2 _)
  have hheader : slice (store msg.buffer 0 (Wire.leBytes 2 body.length)) 0 2 =
      Wire.leBytes 2 body.length := by
    have hself := slice_store_self msg.buffer 0 (Wire.leBytes 2 body.length)
    rwa [Wire.length_leBytes] at hself
  have hsize : Wire.ofLE (Wire.leBytes 2 body.length) = body.length := by
    rw [Wire.ofLE_leBytes, Nat.mod_eq_of_lt (by omega)]
  have hlength : msgSize ((body.length : ℤ) + (HEADER_LENGTH : ℕ)) = body.length + 2 :=
    msgSize_add h
  rw [received, Connection.readPacket, htake, hdrop]
  simp only [NetworkMessage.getLengthHeader, hheader, hsize, hlength, List.take_length]
  rfl

/-- The checksum is skipped, whatever the packet is. -/
theorem beforeDecryption_received (checksumMethod : ChecksumMethod) (msg : NetworkMessage)
    (body : List UInt8) (h : body.length + 2 < 65536) :
    (beforeDecryption checksumMethod (received msg body)).length = body.length + 2 ∧
      (beforeDecryption checksumMethod (received msg body)).position = 2 + checksumLength checksumMethod ∧
      (beforeDecryption checksumMethod (received msg body)).buffer = (received msg body).buffer := by
  rw [beforeDecryption, received_eq msg h]
  by_cases hnone : checksumMethod = .none
  · simp [hnone, checksumLength]
  · rw [if_neg hnone, NetworkMessage.get_of_canRead _ (by
      rw [NetworkMessage.CanRead, NETWORKMESSAGE_MAXSIZE]; simp only; omega), checksumLength,
      if_neg hnone]
    exact ⟨rfl, rfl, rfl⟩

/-- A message is decrypted to a payload: decryption succeeds, the length is that of the payload, and
the payload is what is read next. -/
def DecryptsTo (checksumMethod : ChecksumMethod) (key : Key) (msg : NetworkMessage)
    (payload : List UInt8) : Prop :=
  let result := Protocol.XTEA_decrypt checksumMethod key msg
  result.1 = true ∧ result.2.length = payload.length ∧
    slice result.2.buffer result.2.position result.2.length = payload

/-- Decryption touches a packet only, and accepts only a length for which there are bytes. -/
def StaysInside (checksumMethod : ChecksumMethod) (key : Key) (msg : NetworkMessage)
    (packetEnd : ℕ) : Prop :=
  let result := Protocol.XTEA_decrypt checksumMethod key { msg with accesses := [] }
  (∀ a ∈ result.2.accesses, a.1 + a.2 ≤ packetEnd) ∧
    (result.1 = true → result.2.position + result.2.length ≤ packetEnd)

/-- Decryption of a message with a whole number of blocks behind the position. -/
theorem XTEA_decrypt_eq {checksumMethod : ChecksumMethod} {msg : NetworkMessage} (key : Key)
    {n : ℕ} (hn : n * 8 < 65530) (hlength : msg.length = n * 8 + checksumLength checksumMethod + 2)
    (hposition : msg.position = 2 + checksumLength checksumMethod) :
    Protocol.XTEA_decrypt checksumMethod key msg =
      let plain := mapBlocks 8 (xteaDecryptBlock key) n msg.position msg.buffer
      let innerLength := Wire.ofLE (slice plain msg.position 2)
      let msg' : NetworkMessage := { msg with
        position := msg.position + 2
        buffer := plain
        accesses := msg.accesses ++ Protocol.blockAccesses msg.position n ++ [(msg.position, 2)] }
      if (innerLength : ℤ) > (n * 8 : ℕ) - 2 then (false, msg')
      else (true, { msg' with length := innerLength }) := by
  have hmsgLength : msgSize ((msg.length : ℤ) - if checksumMethod = .none then 2 else 6) =
      n * 8 := by
    rw [hlength, checksumLength, msgSize, CHECKSUM_LENGTH]
    split_ifs <;> omega
  have hblocks : (n * 8 + 7) / 8 = n := by omega
  have hchecksum := checksumLength_le checksumMethod
  simp only [Protocol.XTEA_decrypt, hmsgLength, Nat.mul_mod_left, ne_eq, not_true_eq_false,
    if_false, hblocks]
  rw [NetworkMessage.get_of_canRead _ (by
    rw [NetworkMessage.CanRead, NETWORKMESSAGE_MAXSIZE]; simp only; omega)]
  have hposition' : msgSize ((msg.position : ℤ) + (2 : ℕ)) = msg.position + 2 :=
    msgSize_add (by omega)
  simp only [NetworkMessage.touch, hposition']

/-- A size behind the checksum that is a multiple of 8 as a `uint16_t` is one. -/
theorem exists_blocks {checksumMethod : ChecksumMethod} {n : ℕ} (hn : n ≤ 4096)
    (h : msgSize (((n + 2 : ℕ) : ℤ) - if checksumMethod = .none then 2 else 6) % 8 = 0) :
    ∃ k, n = k * 8 + checksumLength checksumMethod := by
  have hcases := checksumLength_le checksumMethod
  have hsub : (if checksumMethod = .none then (2 : ℤ) else 6) =
      checksumLength checksumMethod + 2 := by
    rw [checksumLength, CHECKSUM_LENGTH]
    split_ifs <;> rfl
  rw [hsub, msgSize] at h
  rcases Nat.lt_or_ge n (checksumLength checksumMethod) with hlt | hge
  · omega
  · exact ⟨(n - checksumLength checksumMethod) / 8, by omega⟩

section Decrypted

variable {checksumMethod : ChecksumMethod} {msg : NetworkMessage} (key : Key) {n : ℕ}
  (hn : n * 8 < 65530) (hlength : msg.length = n * 8 + checksumLength checksumMethod + 2)
  (hposition : msg.position = 2 + checksumLength checksumMethod)

include hn hlength hposition

theorem accesses_XTEA_decrypt : (Protocol.XTEA_decrypt checksumMethod key msg).2.accesses =
      msg.accesses ++ Protocol.blockAccesses msg.position n ++ [(msg.position, 2)] := by
  rw [XTEA_decrypt_eq key hn hlength hposition]
  simp only
  split_ifs <;> rfl

theorem position_XTEA_decrypt : (Protocol.XTEA_decrypt checksumMethod key msg).2.position = msg.position + 2 := by
  rw [XTEA_decrypt_eq key hn hlength hposition]
  simp only
  split_ifs <;> rfl

/-- An inner length that is accepted leaves room for itself. -/
theorem length_of_XTEA_decrypt (hok : (Protocol.XTEA_decrypt checksumMethod key msg).1 = true) :
    (Protocol.XTEA_decrypt checksumMethod key msg).2.length + 2 ≤ n * 8 := by
  rw [XTEA_decrypt_eq key hn hlength hposition] at hok ⊢
  simp only at hok ⊢
  split_ifs at hok ⊢ with hgt
  simp only
  omega

end Decrypted

/-- A message whose blocks are those of a payload is decrypted to it. -/
theorem decryptsTo_of_cipherText {checksumMethod : ChecksumMethod} {msg : NetworkMessage} {key : Key}
    (h : Fits payload) (hlength : msg.length = blockCount payload.length * 8 + checksumLength checksumMethod + 2)
    (hposition : msg.position = 2 + checksumLength checksumMethod)
    (hcipher : slice msg.buffer msg.position (blockCount payload.length * 8) = cipherText key payload) :
    DecryptsTo checksumMethod key msg payload := by
  have hle := blockCount_le h
  have hplain : slice (mapBlocks 8 (xteaDecryptBlock key) (blockCount payload.length) msg.position
      msg.buffer) msg.position (blockCount payload.length * 8) = plainText payload := by
    rw [slice_mapBlocks _ (fun _ _ => length_xteaDecryptBlock key _), hcipher, cipherText,
      blocks_blocks (fun _ _ => length_xteaEncryptBlock key _)
        (fun _ => xteaDecryptBlock_xteaEncryptBlock key) (length_plainText payload)]
  have hsplit : blockCount payload.length * 8 =
      2 + (payload.length + (padding payload.length).length) := by
    rw [padding, List.length_replicate, blockCount]
    omega
  rw [hsplit, slice_add, slice_add, plainText] at hplain
  obtain ⟨hheader, hrest⟩ := List.append_inj hplain (by simp)
  obtain ⟨hpayload, -⟩ := List.append_inj hrest (by simp)
  have hinner : Wire.ofLE (Wire.leBytes 2 payload.length) = payload.length := by
    rw [Wire.ofLE_leBytes, Nat.mod_eq_of_lt (by omega)]
  rw [DecryptsTo, XTEA_decrypt_eq key (by omega) hlength hposition]
  simp only [hheader, hinner]
  rw [if_neg (by omega)]
  exact ⟨rfl, rfl, hpayload⟩

/-- **The round trip**: what is sent for a payload is decrypted to it. -/
theorem decryptsTo_received {p : Protocol} (hraw : p.rawMessages = false)
    (hencryption : p.encryptionEnabled = true) (h : Fits payload) (old : NetworkMessage) :
    DecryptsTo p.checksumMethod p.key (beforeDecryption p.checksumMethod (Connection.readPacket old
      (p.onSendMessage (OutputMessage.ofPayload memory payload)).1.bytes)) payload := by
  obtain ⟨checksum, hchecksum, hbytes⟩ := bytes_onSendMessage memory hraw hencryption h
  have hle := blockCount_le h
  have hcases := checksumLength_le p.checksumMethod
  have hbody : (checksum ++ cipherText p.key payload).length =
      checksumLength p.checksumMethod + blockCount payload.length * 8 := by
    rw [List.length_append, hchecksum, length_cipherText]
  obtain ⟨hlength, hposition, hbuffer⟩ := beforeDecryption_received p.checksumMethod old
    (checksum ++ cipherText p.key payload) (by omega)
  rw [hbytes]
  refine decryptsTo_of_cipherText h (by rw [received] at hlength; omega) hposition ?_
  have hslice : slice (received old (checksum ++ cipherText p.key payload)).buffer 2
      (checksumLength p.checksumMethod + blockCount payload.length * 8) =
        checksum ++ cipherText p.key payload := by
    rw [received_eq _ (by omega), ← hbody]
    exact slice_store_self _ 2 _
  rw [slice_add] at hslice
  have hcipher := (List.append_inj hslice (by simp [hchecksum])).2
  rw [← hbuffer, ← hposition] at hcipher
  exact hcipher

/-- **Where decryption stays**: it leaves the packet exactly if the packet is a checksum without a
block. Its length of zero blocks is not refused, and the inner length is read behind it. -/
theorem staysInside_received_iff (checksumMethod : ChecksumMethod) (key : Key) (old : NetworkMessage)
    {body : List UInt8} (hpos : 0 < body.length) (hle : body.length ≤ INPUTMESSAGE_MAXSIZE) :
    StaysInside checksumMethod key (beforeDecryption checksumMethod (received old body))
        (body.length + HEADER_LENGTH) ↔ ¬ (checksumMethod ≠ .none ∧ body.length = CHECKSUM_LENGTH) := by
  rw [INPUTMESSAGE_MAXSIZE] at hle
  obtain ⟨hlength, hposition, -⟩ := beforeDecryption_received checksumMethod old
    body (by omega)
  have hnone : checksumLength checksumMethod = 0 ↔ checksumMethod = .none := by
    cases checksumMethod <;> decide
  have hcases := checksumLength_le checksumMethod
  generalize beforeDecryption checksumMethod (received old body) = msg at hlength hposition ⊢
  by_cases hwhole : ∃ n, body.length = n * 8 + checksumLength checksumMethod
  · obtain ⟨n, hn⟩ := hwhole
    have hlength' : ({ msg with accesses := [] } : NetworkMessage).length =
        n * 8 + checksumLength checksumMethod + 2 := by
      simp only
      omega
    have haccesses : (Protocol.XTEA_decrypt checksumMethod key
        { msg with accesses := [] }).2.accesses =
          [] ++ Protocol.blockAccesses msg.position n ++ [(msg.position, 2)] :=
      accesses_XTEA_decrypt key (by omega) hlength' hposition
    rcases Nat.eq_zero_or_pos n with rfl | hn'
    · -- no block: the inner length is read behind the checksum
      refine iff_of_false (fun hinside => ?_) (fun hnot => hnot ⟨fun h => ?_, ?_⟩)
      · have hread := hinside.1 (msg.position, 2) (by rw [haccesses]; simp)
        rw [HEADER_LENGTH] at hread
        omega
      · have := hnone.2 h
        omega
      · rw [CHECKSUM_LENGTH]
        omega
    · refine iff_of_true ⟨fun a ha => ?_, fun hok => ?_⟩ (fun hfour => ?_)
      · rw [haccesses, List.nil_append, List.mem_append, List.mem_singleton] at ha
        rw [HEADER_LENGTH]
        rcases ha with hblock | rfl
        · obtain ⟨i, hi, rfl⟩ := List.mem_map.1 hblock
          have hlt := List.mem_range.1 hi
          simp only
          omega
        · simp only
          omega
      · have hinner := length_of_XTEA_decrypt key (by omega) hlength' hposition hok
        rw [position_XTEA_decrypt key (by omega) hlength' hposition, HEADER_LENGTH]
        simp only
        omega
      · have := hfour.2
        rw [CHECKSUM_LENGTH] at this
        omega
  · have hmultiple : msgSize ((msg.length : ℤ) - if checksumMethod = .none then 2 else 6) % 8 ≠ 0 :=
      fun hzero => hwhole (exists_blocks (by omega) (by rw [hlength] at hzero; exact hzero))
    rw [StaysInside, Protocol.XTEA_decrypt, if_pos hmultiple]
    refine iff_of_true ⟨fun a ha => (nomatch ha), fun hok => (nomatch hok)⟩ (fun hfour => ?_)
    have hlen := hfour.2
    have hfour' := mt hnone.1 hfour.1
    rw [CHECKSUM_LENGTH] at hlen
    exact hwhole ⟨0, by omega⟩

/-- **Framing and encryption.** Every payload that fits in a message is received as it was sent, for
every key and checksum. A received packet is decrypted inside the packet exactly if it is not a
checksum alone. -/
theorem framing_iff (p : Protocol) (old : NetworkMessage) :
    (∀ (memory : ℕ → UInt8) (payload : List UInt8),
      p.rawMessages = false → p.encryptionEnabled = true → Fits payload →
        DecryptsTo p.checksumMethod p.key
          (beforeDecryption p.checksumMethod (Connection.readPacket old
            (p.onSendMessage (OutputMessage.ofPayload memory payload)).1.bytes)) payload) ∧
    ∀ body : List UInt8, 0 < body.length → body.length ≤ INPUTMESSAGE_MAXSIZE →
      (StaysInside p.checksumMethod p.key (beforeDecryption p.checksumMethod (received old body))
          (body.length + HEADER_LENGTH) ↔
        ¬ (p.checksumMethod ≠ .none ∧ body.length = CHECKSUM_LENGTH)) :=
  ⟨fun _ _ hraw hencryption h => decryptsTo_received hraw hencryption h old,
    fun _ hpos hle => staysInside_received_iff p.checksumMethod p.key old hpos hle⟩

/-- A payload of three bytes and a packet of eight. -/
theorem framing_iff_short :
    DecryptsTo .adler32 ![1, 2, 3, 4]
      (beforeDecryption .adler32 (Connection.readPacket ⟨0, 8, false, fun _ => 77, []⟩
        ((⟨false, true, .adler32, ![1, 2, 3, 4], 0, 0⟩ : Protocol).onSendMessage
          (OutputMessage.ofPayload (fun _ => 9) [10, 20, 30])).1.bytes)) [10, 20, 30] ∧
    StaysInside .none ![1, 2, 3, 4]
      (beforeDecryption .none
        (received ⟨0, 8, false, fun _ => 77, []⟩ [1, 2, 3, 4, 5, 6, 7, 8])) 10 :=
  ⟨(framing_iff ⟨false, true, .adler32, ![1, 2, 3, 4], 0, 0⟩ ⟨0, 8, false, fun _ => 77, []⟩).1
      (fun _ => 9) [10, 20, 30] rfl rfl (by decide),
    ((framing_iff ⟨false, true, .none, ![1, 2, 3, 4], 0, 0⟩ ⟨0, 8, false, fun _ => 77, []⟩).2
      [1, 2, 3, 4, 5, 6, 7, 8] (by decide) (by decide)).2 (by decide)⟩

/-- A packet that is a checksum alone: its inner length is read behind it. -/
theorem not_staysInside_checksum :
    ¬ ∀ (checksumMethod : ChecksumMethod) (key : Key) (old : NetworkMessage) (body : List UInt8),
      0 < body.length → body.length ≤ INPUTMESSAGE_MAXSIZE →
        StaysInside checksumMethod key (beforeDecryption checksumMethod (received old body))
          (body.length + HEADER_LENGTH) := by
  intro h
  have hinside := h .sequence ![0, 0, 0, 0] ⟨0, 8, false, fun _ => 77, []⟩ [1, 0, 0, 0]
    (by decide) (by decide)
  have hread : (6, 2) ∈ (Protocol.XTEA_decrypt .sequence ![0, 0, 0, 0]
      { beforeDecryption .sequence (received ⟨0, 8, false, fun _ => 77, []⟩ [1, 0, 0, 0]) with
        accesses := [] }).2.accesses := by decide
  have hle : 8 ≤ 6 := hinside.1 (6, 2) hread
  omega

end TiabloServer.Network
