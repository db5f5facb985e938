import TiabloServer.Lib.Wire

/-!
# Values of a fixed size

A codec writes the values of a type in a fixed number of bytes and reads them back. Codecs of
records are put together from those of their fields.

## Main definitions

* `Codec.pair`, `Codec.map` — codecs of records.
* `Codec.read` — a value from the front of a stream.

## Main results

* `Codec.read_encode` — what is written is read back, and the rest of the stream is left.
-/

/-- The bytes of the values of a type. -/
structure Codec (α : Type) where
  size : ℕ
  encode : α → List UInt8
  decode : List UInt8 → α
  length_encode : ∀ a, (encode a).length = size
  decode_encode : ∀ a, decode (encode a) = a

namespace Codec

variable {α β : Type}

/-- A value from the front of a stream, if there are enough bytes. -/
def read (C : Codec α) (s : List UInt8) : Option (α × List UInt8) :=
  if s.length < C.size then none else some (C.decode (s.take C.size), s.drop C.size)

/-- **What is written is read back**, and the rest of the stream is left. -/
theorem read_encode (C : Codec α) (a : α) (rest : List UInt8) : C.read (C.encode a ++ rest) = some (a, rest) := by
  have hlength := C.length_encode a
  rw [read, if_neg (by rw [List.length_append]; omega), ← hlength, List.take_left, List.drop_left,
    C.decode_encode]

/-- The codec of a record of two fields. -/
def pair (A : Codec α) (B : Codec β) : Codec (α × β) where
  size := A.size + B.size
  encode p := A.encode p.1 ++ B.encode p.2
  decode l := (A.decode (l.take A.size), B.decode (l.drop A.size))
  length_encode p := by rw [List.length_append, A.length_encode, B.length_encode]
  decode_encode p := by
    rw [← A.length_encode p.1, List.take_left, List.drop_left, A.decode_encode, B.decode_encode]

/-- The codec of a type whose values are those of another. -/
def map (A : Codec α) (e : α ≃ β) : Codec β where
  size := A.size
  encode b := A.encode (e.symm b)
  decode l := e (A.decode l)
  length_encode b := A.length_encode _
  decode_encode b := by rw [A.decode_encode, e.apply_symm_apply]

/-- The codec of a type whose values are numbers of `n` bytes. -/
def ofNat (n : ℕ) (toNat : α → ℕ) (ofNat : ℕ → α) (hlt : ∀ a, toNat a < 256 ^ n)
    (hinv : ∀ a, ofNat (toNat a) = a) : Codec α where
  size := n
  encode a := Wire.leBytes n (toNat a)
  decode l := ofNat (Wire.ofLE l)
  length_encode a := Wire.length_leBytes n (toNat a)
  decode_encode a := by rw [Wire.ofLE_leBytes, Nat.mod_eq_of_lt (hlt a), hinv]

/-- A byte that is written and not looked at. -/
def padding : Codec Unit where
  size := 1
  encode _ := [0]
  decode _ := ()
  length_encode _ := rfl
  decode_encode _ := rfl

/-- Unsigned numbers of one byte. -/
def uint8 : Codec UInt8 :=
  ofNat 1 UInt8.toNat UInt8.ofNat (fun a => a.toNat_lt) fun _ => UInt8.ofNat_toNat

/-- Unsigned numbers of two bytes. -/
def uint16 : Codec UInt16 :=
  ofNat 2 UInt16.toNat UInt16.ofNat (fun a => a.toNat_lt) fun _ => UInt16.ofNat_toNat

/-- Unsigned numbers of four bytes. -/
def uint32 : Codec UInt32 :=
  ofNat 4 UInt32.toNat UInt32.ofNat (fun a => a.toNat_lt) fun _ => UInt32.ofNat_toNat

/-- Signed numbers of one byte. -/
def int8 : Codec Int8 :=
  uint8.map ⟨UInt8.toInt8, Int8.toUInt8, fun _ => rfl, fun _ => rfl⟩

/-- Signed numbers of four bytes. -/
def int32 : Codec Int32 :=
  uint32.map ⟨UInt32.toInt32, Int32.toUInt32, fun _ => rfl, fun _ => rfl⟩

end Codec
