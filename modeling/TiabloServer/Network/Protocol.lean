import TiabloServer.Lib.Feistel
import TiabloServer.Network.Message

/-!
# Protocols and connections

How a message is framed and encrypted before it is sent, and how a packet is received, checked and
decrypted (`Protocol::onSendMessage`, `Protocol::onRecvMessage`, `Connection::parseHeader`,
`Connection::parsePacket`). Messages are not compressed.

## Main definitions

* `Network.Protocol` — `onSendMessage`, `XTEA_encrypt`, `XTEA_decrypt` and `onRecvMessage`.
* `Network.Connection.parseHeader`, `Network.Connection.parsePacket` — the receiving side.

## Main results

* `Network.xteaDecryptBlock_xteaEncryptBlock` — a block is decrypted to what was encrypted.
-/

namespace TiabloServer.Network

open Memory (slice store mapBlocks)

/-! ## XTEA -/

/-- The keys of a protocol. -/
abbrev Key := Fin 4 → UInt32

def delta : UInt32 := 0x61C88647

/-- `sum + newKey[sum & 3]`. -/
def controlSum (key : Key) (sum : UInt32) : UInt32 := sum + key ⟨sum.toNat % 4, Nat.mod_lt _ (by decide)⟩

/-- `sum + newKey[(sum >> 11) & 3]`. -/
def shiftedControlSum (key : Key) (sum : UInt32) : UInt32 :=
  sum + key ⟨(sum >>> 11).toNat % 4, Nat.mod_lt _ (by decide)⟩

/-- What a round adds to one word, from the other word and the control sum. -/
def mix (controlSum v : UInt32) : UInt32 := ((v <<< 4 ^^^ v >>> 5) + v) ^^^ controlSum

/-- The two words of a block. -/
def words (block : List UInt8) : UInt32 × UInt32 :=
  (UInt32.ofNat (Wire.ofLE (block.take 4)), UInt32.ofNat (Wire.ofLE (block.drop 4)))

/-- The block with these words. -/
def unwords (vData : UInt32 × UInt32) : List UInt8 :=
  Wire.leBytes 4 vData.1.toNat ++ Wire.leBytes 4 vData.2.toNat

/-- The 32 rounds of `XTEA_encrypt`. -/
def xteaEncryptBlock (key : Key) (block : List UInt8) : List UInt8 :=
  unwords (Feistel.encrypt mix
    (Feistel.keysDown (controlSum key) (shiftedControlSum key) delta 32 0) (words block))

/-- The 32 rounds of `XTEA_decrypt`. -/
def xteaDecryptBlock (key : Key) (block : List UInt8) : List UInt8 :=
  unwords (Feistel.decrypt mix
    (Feistel.keysUp (controlSum key) (shiftedControlSum key) delta 32 0xC6EF3720) (words block))

@[simp]
theorem length_unwords (vData : UInt32 × UInt32) : (unwords vData).length = 8 := by
  simp [unwords]

theorem length_xteaEncryptBlock (key : Key) (block : List UInt8) :
    (xteaEncryptBlock key block).length = 8 := length_unwords _

theorem length_xteaDecryptBlock (key : Key) (block : List UInt8) :
    (xteaDecryptBlock key block).length = 8 := length_unwords _

theorem words_unwords (vData : UInt32 × UInt32) : words (unwords vData) = vData := by
  have hword : ∀ w : UInt32, UInt32.ofNat (Wire.ofLE (Wire.leBytes 4 w.toNat)) = w := by
    intro w
    have hlt : w.toNat < 256 ^ 4 := w.toNat_lt
    rw [Wire.ofLE_leBytes, Nat.mod_eq_of_lt hlt]
    exact UInt32.ofNat_toNat
  rw [words, unwords, List.take_left' (by simp), List.drop_left' (by simp), hword, hword]

theorem unwords_words {block : List UInt8} (h : block.length = 8) : unwords (words block) = block := by
  have hword : ∀ l : List UInt8, l.length = 4 →
      Wire.leBytes 4 (UInt32.ofNat (Wire.ofLE l)).toNat = l := by
    intro l hl
    have hlt : Wire.ofLE l < 2 ^ 32 := by
      have := Wire.ofLE_lt l
      rwa [hl] at this
    rw [UInt32.toNat_ofNat_of_lt' hlt, Wire.leBytes_ofLE hl]
  rw [words, unwords, hword _ (by simp [h]), hword _ (by simp [h]), List.take_append_drop]

/-- **The cipher**: decryption undoes encryption, for every key. The sum of decryption starts where
that of encryption ends. -/
theorem xteaDecryptBlock_xteaEncryptBlock (key : Key) {block : List UInt8} (h : block.length = 8) :
    xteaDecryptBlock key (xteaEncryptBlock key block) = block := by
  have hsum : (0xC6EF3720 : UInt32) = 0 - 32 • delta := by decide +kernel
  rw [xteaDecryptBlock, xteaEncryptBlock, words_unwords, hsum, Feistel.keysUp_eq,
    Feistel.decrypt_encrypt, unwords_words h]

/-! ## Checksums -/

/-- `adlerChecksum` on at most `fuel` pieces. -/
def adlerPieces : ℕ → List UInt8 → UInt32 × UInt32 → UInt32 × UInt32
  | 0, _, sums => sums
  | fuel + 1, data, sums =>
    if data = [] then sums
    else
      let (a, b) := (data.take 5552).foldl
        (fun (sums : UInt32 × UInt32) byte =>
          (sums.1 + byte.toUInt32, sums.2 + (sums.1 + byte.toUInt32))) sums
      adlerPieces fuel (data.drop 5552) (a % 65521, b % 65521)

def adlerChecksum (data : List UInt8) : UInt32 :=
  if data.length > NETWORKMESSAGE_MAXSIZE then 0
  else
    let (a, b) := adlerPieces data.length data (1, 0)
    (b <<< 16) ||| a

/-- `ChecksumMethods_t`. -/
inductive ChecksumMethod
  | none
  | adler32
  | sequence
  deriving DecidableEq

/-! ## `Protocol` -/

/-- The fields of `Protocol` that framing reads. -/
structure Protocol where
  rawMessages : Bool
  encryptionEnabled : Bool
  checksumMethod : ChecksumMethod
  key : Key
  serverSequenceNumber : UInt32
  clientSequenceNumber : UInt32

namespace Protocol

/-- A sequence number after it has been counted up. -/
def countSequence (n : UInt32) : UInt32 := if n + 1 ≥ 0x7FFFFFFF then 0 else n + 1

def XTEA_encrypt (key : Key) (msg : OutputMessage) : OutputMessage :=
  let paddingBytes := msg.length % 8
  let msg : OutputMessage :=
    if paddingBytes ≠ 0 then { msg with toNetworkMessage := msg.addPaddingBytes (8 - paddingBytes) }
    else msg
  { msg with
    buffer := mapBlocks 8 (xteaEncryptBlock key) ((msg.length + 7) / 8) msg.outputBufferStart
      msg.buffer }

/-- The stretches of memory that the cipher reads and writes. -/
def blockAccesses (p n : ℕ) : List (ℕ × ℕ) := (List.range n).map fun i => (p + 8 * i, 8)

def XTEA_decrypt (checksumMethod : ChecksumMethod) (key : Key) (msg : NetworkMessage) :
    Bool × NetworkMessage :=
  let msgLength := msgSize ((msg.length : ℤ) - if checksumMethod = .none then 2 else 6)
  if msgLength % 8 ≠ 0 then (false, msg)
  else
    let msg := { msg with
      buffer := mapBlocks 8 (xteaDecryptBlock key) ((msgLength + 7) / 8) msg.position msg.buffer
      accesses := msg.accesses ++ blockAccesses msg.position ((msgLength + 7) / 8) }
    let (innerLength, msg) := msg.get 2
    if (innerLength : ℤ) > (msgLength : ℤ) - 2 then (false, msg)
    else (true, { msg with length := innerLength })

variable (p : Protocol)

/-- `onSendMessage`, of a message that is not compressed. -/
def onSendMessage (msg : OutputMessage) : OutputMessage × Protocol :=
  if p.rawMessages then (msg, p)
  else
    let msg := msg.writeMessageLength
    if ¬ p.encryptionEnabled then (msg, p)
    else
      let msg := XTEA_encrypt p.key msg
      match p.checksumMethod with
      | .none => (msg.addCryptoHeader false 0, p)
      | .adler32 => (msg.addCryptoHeader true (adlerChecksum msg.bytes), p)
      | .sequence =>
        (msg.addCryptoHeader true (p.serverSequenceNumber + 1),
          { p with serverSequenceNumber := countSequence p.serverSequenceNumber })

/-- `sendRecvMessageCallback`: the message that a parser is given, or `none`. -/
def sendRecvMessageCallback (msg : NetworkMessage) : Option NetworkMessage :=
  if p.encryptionEnabled then
    let (ok, msg) := XTEA_decrypt p.checksumMethod p.key msg
    if ok then some msg else none
  else some msg

/-- The `int32_t` length of what follows a position, and `adlerChecksum` of it. -/
def restChecksum (msg : NetworkMessage) (position : ℕ) : UInt32 :=
  let len : ℤ := (msg.length : ℤ) - position
  if len > 0 then adlerChecksum (slice msg.buffer position len.toNat) else 0

/-- `onRecvMessage`: the message that a parser is given, or `none`. -/
def onRecvMessage (msg : NetworkMessage) : Option NetworkMessage × Protocol :=
  match p.checksumMethod with
  | .none => (p.sendRecvMessageCallback msg, p)
  | .sequence =>
    let (recvChecksum, msg) := msg.get 4
    if recvChecksum = 0 then (none, p)
    else
      let p' := { p with clientSequenceNumber := countSequence p.clientSequenceNumber }
      if recvChecksum ≠ (p.clientSequenceNumber + 1).toNat then (none, p')
      else (p'.sendRecvMessageCallback msg, p')
  | .adler32 =>
    let (recvChecksum, msg) := msg.get 4
    if recvChecksum ≠ (restChecksum msg msg.position).toNat then (none, p)
    else (p.sendRecvMessageCallback msg, p)

end Protocol

/-! ## `Connection` -/

namespace Connection

/-- What `parseHeader` sets before the body of a packet is read, and the packet that is then in the
buffer: the header in front, and as many bytes as it says behind it. -/
def readPacket (msg : NetworkMessage) (stream : List UInt8) : NetworkMessage :=
  let msg := { msg with buffer := store msg.buffer 0 (stream.take HEADER_LENGTH) }
  let size := msg.getLengthHeader
  { msg with
    length := msgSize (size + HEADER_LENGTH)
    position := 2
    buffer := store msg.buffer HEADER_LENGTH ((stream.drop HEADER_LENGTH).take size) }

/-- `parseHeader`, and the reading of the body: the packet, unless its size is refused. -/
def parseHeader (msg : NetworkMessage) (stream : List UInt8) : Option NetworkMessage :=
  let size := Wire.ofLE (stream.take HEADER_LENGTH)
  if size = 0 ∨ size > INPUTMESSAGE_MAXSIZE then none else some (readPacket msg stream)

/-- The first message of a connection in `parsePacket`. A connection either has its protocol from
the start, or a protocol is made by `make_protocol`, which reads a byte and may find no service. -/
def parseFirst (hasProtocol : Bool) (isService : Bool → ℕ → Bool) (msg : NetworkMessage) :
    Option NetworkMessage :=
  if hasProtocol then some ((msg.get 4).2.skipBytes 1)
  else
    let checksum := Protocol.restChecksum msg (msg.position + CHECKSUM_LENGTH)
    let (recvChecksum, msg) := msg.get 4
    let checksummed := recvChecksum = checksum.toNat
    let msg := if checksummed then msg else msg.skipBytes (-4)
    let (protocolID, msg) := msg.get 1
    if isService checksummed protocolID then some msg else none

/-- `parsePacket`: the message that a parser is given, or `none`. -/
def parsePacket (receivedFirst hasProtocol : Bool) (isService : Bool → ℕ → Bool) (p : Protocol)
    (msg : NetworkMessage) : Option NetworkMessage :=
  if receivedFirst then (p.onRecvMessage msg).1 else parseFirst hasProtocol isService msg

end Connection

end TiabloServer.Network
