import TiabloServer.Lib.Wire
import TiabloServer.Otb.Encoding

/-!
# Two readers of properties

`FileStream` (`io/filestream.cpp`) reads the raw bytes of a node and takes the escapes out as it
goes; `PropStream` (`io/fileloader.hpp`) reads the output of `Loader::getProps`. The positions of a
`FileStream` are `uint32_t`: its `size` throws for files of 2^32 bytes and more.

## Main definitions

* `OTB.FileStream` — the reader of raw bytes.
* `OTB.streamReads`, `OTB.propReads` — a sequence of reads from either stream.
-/

namespace TiabloServer.OTB

/-! ## `FileStream` -/

/-- What a read can end in: the exception of the source, or a read past the end of the data. -/
inductive StreamError where
  | failure
  | pastEnd

structure FileStream where
  m_nodes : ℕ
  m_pos : ℕ
  m_data : List UInt8

namespace FileStream

variable (s : FileStream)

/-- `m_data[m_pos]`. -/
def byte : Except StreamError UInt8 :=
  match s.m_data[s.m_pos]? with
  | none => .error .pastEnd
  | some b => .ok b

/-- `m_pos += n`. -/
def advance (n : ℕ) : FileStream := { s with m_pos := s.m_pos + n }

/-- One turn of the loop of `read`. -/
def next : Except StreamError (UInt8 × FileStream) := do
  let b ← s.byte
  let s := if b = ESCAPE then s.advance 1 else s
  let v ← s.byte
  pure (v, s.advance 1)

/-- The loop of `read`. -/
def readEscaped : ℕ → FileStream → Except StreamError (List UInt8 × FileStream)
  | 0, s => pure ([], s)
  | n + 1, s => do
    let (b, s) ← s.next
    let (bs, s) ← readEscaped n s
    pure (b :: bs, s)

/-- `FileStream::read`. -/
def read (size : ℕ) (escape : Bool) : Except StreamError (List UInt8 × FileStream) :=
  if s.m_pos + size > s.m_data.length then .error .failure
  else if escape then readEscaped size s
  else pure ((s.m_data.drop s.m_pos).take size, s.advance size)

/-- `FileStream::getU8`. -/
def getU8 : Except StreamError (ℕ × FileStream) :=
  if s.m_pos + 1 > s.m_data.length then .error .failure
  else do
    let b ← s.byte
    let s := if 0 < s.m_nodes ∧ b = ESCAPE then s.advance 1 else s
    let v ← s.byte
    pure (v.toNat, s.advance 1)

/-- `FileStream::getU16`, `getU32` and `getU64`, by the size of the number. -/
def getNumber (size : ℕ) : Except StreamError (ℕ × FileStream) := do
  let (bytes, s) ← s.read size (0 < s.m_nodes)
  pure (Wire.ofLE bytes, s)

/-- `FileStream::getString`. -/
def getString : Except StreamError (List UInt8 × FileStream) := do
  let (len, s) ← s.getNumber 2
  if 0 < len ∧ len < 8192 then
    if s.m_pos + len > s.m_data.length then .error .failure
    else pure ((s.m_data.drop s.m_pos).take len, s.advance len)
  else if len ≠ 0 then .error .failure
  else pure ([], s)

end FileStream

/-! ## `PropStream` -/

namespace PropStream

/-- `PropStream::read`. -/
def read (size : ℕ) (p : List UInt8) : Option (ℕ × List UInt8) :=
  if p.length < size then none else some (Wire.ofLE (p.take size), p.drop size)

/-- `PropStream::readString`. -/
def readString (p : List UInt8) : Option (List UInt8 × List UInt8) := do
  let (strLen, p) ← read 2 p
  if p.length < strLen then none else pure (p.take strLen, p.drop strLen)

end PropStream

/-! ## Sequences of reads -/

/-- The typed reads. -/
inductive Read where
  | u8
  | u16
  | u32
  | u64
  | string
deriving DecidableEq

/-- What a read returns. -/
inductive Value where
  | number (n : ℕ)
  | string (s : List UInt8)
deriving DecidableEq

/-- A read from a `FileStream`. -/
def FileStream.get (s : FileStream) : Read → Except StreamError (Value × FileStream)
  | .u8 => do let (n, s) ← s.getU8; pure (.number n, s)
  | .u16 => do let (n, s) ← s.getNumber 2; pure (.number n, s)
  | .u32 => do let (n, s) ← s.getNumber 4; pure (.number n, s)
  | .u64 => do let (n, s) ← s.getNumber 8; pure (.number n, s)
  | .string => do let (bytes, s) ← s.getString; pure (.string bytes, s)

/-- A read from a `PropStream`. -/
def PropStream.get (p : List UInt8) : Read → Option (Value × List UInt8)
  | .u8 => do let (n, p) ← read 1 p; pure (.number n, p)
  | .u16 => do let (n, p) ← read 2 p; pure (.number n, p)
  | .u32 => do let (n, p) ← read 4 p; pure (.number n, p)
  | .u64 => do let (n, p) ← read 8 p; pure (.number n, p)
  | .string => do let (bytes, p) ← readString p; pure (.string bytes, p)

/-- The values of a sequence of reads from a `FileStream`. -/
def streamReads : List Read → FileStream → Except StreamError (List Value)
  | [], _ => pure []
  | r :: rs, s => do
    let (v, s) ← s.get r
    let vs ← streamReads rs s
    pure (v :: vs)

/-- The values of a sequence of reads from a `PropStream`; none if a read returns `false`. -/
def propReads : List Read → List UInt8 → Option (List Value)
  | [], _ => some []
  | r :: rs, p => do
    let (v, p) ← PropStream.get p r
    let vs ← propReads rs p
    pure (v :: vs)

end TiabloServer.OTB
