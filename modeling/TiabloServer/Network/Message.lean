import TiabloServer.Lib.Memory
import TiabloServer.Lib.Wire

/-!
# Network messages

`NetworkMessage` and `OutputMessage` (`server/network/message/`): a buffer with a position, a length
and headers that are put in front. `MsgSize_t` is `uint16_t`. The stretches of the buffer that reads
and the cipher touch are recorded in `accesses`, which is no field of the source.

## Main definitions

* `Network.NetworkMessage` — a message, with `canRead`, `get`, `getString` and `addBytes`.
* `Network.OutputMessage` — a message with room for headers.
-/

namespace TiabloServer.Network

open Memory (slice store)

/-! ## Sizes -/

def NETWORKMESSAGE_MAXSIZE : ℕ := 65500
def INPUTMESSAGE_MAXSIZE : ℕ := 4096
def HEADER_LENGTH : ℕ := 2
def CHECKSUM_LENGTH : ℕ := 4
def XTEA_MULTIPLE : ℕ := 8
def MAX_BODY_LENGTH : ℕ := NETWORKMESSAGE_MAXSIZE - HEADER_LENGTH - CHECKSUM_LENGTH - XTEA_MULTIPLE
def INITIAL_BUFFER_POSITION : ℕ := 8

/-- A number as a `MsgSize_t`. -/
def msgSize (n : ℤ) : ℕ := (n % 65536).toNat

theorem msgSize_add {m n : ℕ} (h : m + n < 65536) : msgSize ((m : ℤ) + n) = m + n := by
  rw [msgSize]
  omega

/-! ## `NetworkMessage` -/

/-- `NetworkMessage`, with the stretches of the buffer, address and length, that have been
touched. -/
structure NetworkMessage where
  length : ℕ
  position : ℕ
  overrun : Bool
  buffer : ℕ → UInt8
  accesses : List (ℕ × ℕ)

namespace NetworkMessage

variable (msg : NetworkMessage)

/-- Records that a stretch of the buffer is touched. -/
def touch (p n : ℕ) : NetworkMessage := { msg with accesses := msg.accesses ++ [(p, n)] }

/-- Whether `canRead` is true. -/
def CanRead (size : ℕ) : Prop :=
  ¬ (msg.position + size > msg.length + 8 ∨
    (size : ℤ) ≥ (NETWORKMESSAGE_MAXSIZE : ℤ) - msg.position)

instance (size : ℕ) : Decidable (msg.CanRead size) := inferInstanceAs (Decidable (¬ _))

/-- The bytes of a read that `canRead` allows, at the position, which moves behind them; none, and
the overrun flag set, if it does not. -/
def readBytes (size : ℕ) : Option (List UInt8) × NetworkMessage :=
  if msg.CanRead size then
    (some (slice msg.buffer msg.position size),
      { msg.touch msg.position size with position := msgSize (msg.position + size) })
  else (none, { msg with overrun := true })

/-- `get<T>` for a number of `size` bytes, and `getByte` for one byte. -/
def get (size : ℕ) : ℕ × NetworkMessage :=
  let (bytes, msg) := msg.readBytes size
  ((bytes.map Wire.ofLE).getD 0, msg)

theorem get_of_canRead {size : ℕ} (h : msg.CanRead size) :
    msg.get size = (Wire.ofLE (slice msg.buffer msg.position size),
      { msg.touch msg.position size with position := msgSize (msg.position + size) }) := by
  rw [get, readBytes, if_pos h]
  rfl

@[simp]
theorem length_get (size : ℕ) : (msg.get size).2.length = msg.length := by
  simp only [get, readBytes]
  split_ifs <;> rfl

theorem position_get_le (size : ℕ) : (msg.get size).2.position ≤ msg.position + size := by
  simp only [get, readBytes]
  split_ifs
  · simp only [msgSize]
    omega
  · exact Nat.le_add_right _ _

def getString (stringLen : ℕ) : List UInt8 × NetworkMessage :=
  let (stringLen, msg) := if stringLen = 0 then msg.get 2 else (stringLen, msg)
  let (bytes, msg) := msg.readBytes stringLen
  (bytes.getD [], msg)

theorem getString_of_canRead {stringLen : ℕ} (hpos : stringLen ≠ 0) (h : msg.CanRead stringLen) :
    msg.getString stringLen = (slice msg.buffer msg.position stringLen,
      { msg.touch msg.position stringLen with position := msgSize (msg.position + stringLen) }) := by
  simp only [getString, if_neg hpos, readBytes, if_pos h, Option.getD_some]

def getPosition : (ℕ × ℕ × ℕ) × NetworkMessage :=
  let (x, msg) := msg.get 2
  let (y, msg) := msg.get 2
  let (z, msg) := msg.get 1
  ((x, y, z), msg)

def skipBytes (count : ℤ) : NetworkMessage :=
  { msg with position := msgSize (msg.position + count) }

def getLengthHeader : ℕ := Wire.ofLE (slice msg.buffer 0 2)

/-- `addBytes`, and `canAdd`. -/
def addBytes (bytes : List UInt8) : NetworkMessage :=
  if ¬ bytes.length + msg.position < MAX_BODY_LENGTH then msg
  else if bytes.length > NETWORKMESSAGE_MAXSIZE then msg
  else
    { msg with
      buffer := store msg.buffer msg.position bytes
      position := msgSize (msg.position + bytes.length)
      length := msgSize (msg.length + bytes.length) }

def addPaddingBytes (n : ℕ) : NetworkMessage :=
  if ¬ n + msg.position < NETWORKMESSAGE_MAXSIZE then msg
  else
    { msg with
      buffer := store msg.buffer msg.position (List.replicate n 0x33)
      length := msgSize (msg.length + n) }

end NetworkMessage

/-! ## `OutputMessage` -/

structure OutputMessage extends NetworkMessage where
  outputBufferStart : ℕ

namespace OutputMessage

/-- A new message, in memory with any content. -/
def new (memory : ℕ → UInt8) : OutputMessage :=
  ⟨⟨0, INITIAL_BUFFER_POSITION, false, memory, []⟩, INITIAL_BUFFER_POSITION⟩

variable (msg : OutputMessage)

/-- `add_header` for a number of `size` bytes. -/
def addHeader (size addHeader : ℕ) : OutputMessage :=
  if msg.outputBufferStart < size then msg
  else
    { msg with
      outputBufferStart := msg.outputBufferStart - size
      buffer := store msg.buffer (msg.outputBufferStart - size) (Wire.leBytes size addHeader)
      length := msgSize (msg.length + size) }

def writeMessageLength : OutputMessage := msg.addHeader 2 msg.length

def addCryptoHeader (addChecksum : Bool) (checksum : UInt32) : OutputMessage :=
  (if addChecksum then msg.addHeader 4 checksum.toNat else msg).writeMessageLength

/-- The bytes that are sent: `getLength` bytes from `getOutputBuffer` on. -/
def bytes : List UInt8 := slice msg.buffer msg.outputBufferStart msg.length

@[simp]
theorem length_bytes : msg.bytes.length = msg.length := Memory.length_slice _ _ _

theorem addHeader_eq {size : ℕ} (x : ℕ) (hstart : size ≤ msg.outputBufferStart)
    (hlength : msg.length + size < 65536) :
    (msg.addHeader size x).outputBufferStart = msg.outputBufferStart - size ∧
      (msg.addHeader size x).length = msg.length + size := by
  rw [addHeader, if_neg (by omega)]
  exact ⟨rfl, msgSize_add hlength⟩

/-- **A header** is put in front of what is sent. -/
theorem bytes_addHeader {size : ℕ} (x : ℕ) (hstart : size ≤ msg.outputBufferStart)
    (hlength : msg.length + size < 65536) : (msg.addHeader size x).bytes = Wire.leBytes size x ++ msg.bytes := by
  have hsize : msgSize ((msg.length : ℤ) + size) = size + msg.length := by
    rw [msgSize_add hlength, Nat.add_comm]
  have hheader : slice (store msg.buffer (msg.outputBufferStart - size) (Wire.leBytes size x))
      (msg.outputBufferStart - size) size = Wire.leBytes size x := by
    have hself := Memory.slice_store_self msg.buffer (msg.outputBufferStart - size)
      (Wire.leBytes size x)
    rwa [Wire.length_leBytes] at hself
  rw [bytes, bytes, addHeader, if_neg (by omega)]
  simp only [hsize, Memory.slice_add, hheader]
  rw [Nat.sub_add_cancel hstart, Memory.slice_store_of_disjoint _ (by simp; omega)]

theorem bytes_writeMessageLength (hstart : 2 ≤ msg.outputBufferStart) (hlength : msg.length + 2 < 65536) :
    msg.writeMessageLength.bytes = Wire.leBytes 2 msg.bytes.length ++ msg.bytes := by
  rw [writeMessageLength, bytes_addHeader _ _ hstart hlength, length_bytes]

/-- The length counts the checksum in front of it. -/
theorem bytes_addCryptoHeader_true (checksum : UInt32) (hstart : 6 ≤ msg.outputBufferStart)
    (hlength : msg.length + 6 < 65536) : (msg.addCryptoHeader true checksum).bytes =
      Wire.leBytes 2 (Wire.leBytes 4 checksum.toNat ++ msg.bytes).length ++
        (Wire.leBytes 4 checksum.toNat ++ msg.bytes) := by
  obtain ⟨hstart', hlength'⟩ := addHeader_eq msg checksum.toNat 
    (show 4 ≤ msg.outputBufferStart by omega) (by omega)
  rw [addCryptoHeader, if_pos rfl, bytes_writeMessageLength _ (by omega) (by omega),
    bytes_addHeader _ _ (by omega) (by omega)]

end OutputMessage

end TiabloServer.Network
