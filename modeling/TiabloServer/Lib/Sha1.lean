import Mathlib

/-!
# SHA-1 and one-time passwords

The hash of a message is computed over the 64-byte blocks of the padded message. The code of a
counter under a key is cut out of a keyed hash of it.

## Main definitions

* `Sha1.sha1` — the hash of a message: `Sha1.pad`, then `Sha1.compress` over the blocks.
* `Sha1.hmac`, `Sha1.hotp` — the keyed hash of a text and the code of a counter.

## Main results

* `Blocks.foldl_push` — the blocks that arrive are those of the list.
-/

namespace Blocks

variable {α σ : Type*} {n : ℕ}

/-- The blocks of `n` elements of a list. -/
def blocks (n : ℕ) (l : List α) : List (List α) :=
  (List.range (l.length / n)).map fun i => (l.drop (n * i)).take n

/-- One element more: a block that is full is processed. -/
def push (process : σ → List α → σ) (n : ℕ) (s : List α × σ) (a : α) : List α × σ :=
  if s.1.length + 1 = n then ([], process s.2 (s.1 ++ [a])) else (s.1 ++ [a], s.2)

theorem blocks_of_lt {l : List α} (h : l.length < n) : blocks n l = [] := by
  rw [blocks, Nat.div_eq_of_lt h, List.range_zero, List.map_nil]

theorem blocks_append (hn : 0 < n) {b : List α} (hb : b.length = n) (l : List α) :
    blocks n (b ++ l) = b :: blocks n l := by
  have hdiv : (b ++ l).length / n = l.length / n + 1 := by
    rw [List.length_append, hb, Nat.add_div_left _ hn]
  rw [blocks, hdiv, List.range_succ_eq_map, List.map_cons, List.map_map, Nat.mul_zero, List.drop_zero,
    List.take_left' hb, blocks]
  refine congrArg (b :: ·) (List.map_congr_left fun i _ => ?_)
  rw [Function.comp_apply, Nat.mul_succ, Nat.add_comm, ← List.drop_drop, List.drop_left' hb]

/-- The elements that have arrived in a block are processed with the others of the block. -/
theorem foldl_push (process : σ → List α → σ) (l : List α) {p : List α} (s : σ) (hp : p.length < n) :
    l.foldl (push process n) (p, s) =
      ((p ++ l).drop (n * ((p ++ l).length / n)), (blocks n (p ++ l)).foldl process s) := by
  induction l generalizing p s with
  | nil => simp [blocks_of_lt hp, Nat.div_eq_of_lt hp]
  | cons a l ih =>
    rw [List.foldl_cons, push, List.append_cons p a l]
    by_cases hfull : p.length + 1 = n
    · have hlength : (p ++ [a]).length = n := by rw [List.length_append, List.length_singleton, hfull]
      have hdiv : (p ++ [a] ++ l).length / n = l.length / n + 1 := by
        rw [List.length_append, hlength, Nat.add_div_left _ (by omega)]
      rw [if_pos hfull, ih _ (by rw [List.length_nil]; omega), blocks_append (by omega) hlength, List.foldl_cons,
        hdiv, Nat.mul_succ, Nat.add_comm, ← List.drop_drop, List.drop_left' hlength, List.nil_append]
    · have hlength : (p ++ [a]).length < n := by rw [List.length_append, List.length_singleton]; omega
      rw [if_neg hfull, ih _ hlength]

end Blocks

namespace Sha1

/-! ## Bytes -/

/-- The bytes of a number, the highest first. -/
def toBytes (n x : ℕ) : List UInt8 :=
  (List.range n).map fun i => UInt8.ofNat (x / 256 ^ (n - 1 - i))

/-- The number of some bytes, the highest first. -/
def ofBytes (l : List UInt8) : ℕ :=
  l.foldl (fun x b => 256 * x + b.toNat) 0

/-- Bytes in hexadecimal. -/
def hex (l : List UInt8) : List Char :=
  l.flatMap fun b => [Nat.digitChar (b.toNat / 16), Nat.digitChar (b.toNat % 16)]

/-- The last `n` decimal digits of a number. -/
def decimal (n x : ℕ) : List Char :=
  (List.range n).map fun i => Nat.digitChar (x / 10 ^ (n - 1 - i) % 10)

@[simp] theorem length_toBytes (n x : ℕ) : (toBytes n x).length = n := by
  rw [toBytes, List.length_map, List.length_range]

/-! ## The hash -/

/-- A word rotated to the left. -/
def rotl (n : ℕ) (x : UInt32) : UInt32 := ⟨x.toBitVec.rotateLeft n⟩

/-- The function of a round. -/
def f (t : ℕ) (x y z : UInt32) : UInt32 :=
  if t < 20 then (x &&& y) ^^^ (~~~ x &&& z)
  else if t < 40 then x ^^^ y ^^^ z
  else if t < 60 then (x &&& y) ^^^ (x &&& z) ^^^ (y &&& z)
  else x ^^^ y ^^^ z

/-- The constant of a round. -/
def K (t : ℕ) : UInt32 :=
  if t < 20 then 0x5a827999
  else if t < 40 then 0x6ed9eba1
  else if t < 60 then 0x8f1bbcdc
  else 0xca62c1d6

/-- The words of the rounds, of those of the block. -/
def schedule (M : ℕ → UInt32) (t : ℕ) : UInt32 :=
  if t < 16 then M t
  else rotl 1 (schedule M (t - 3) ^^^ schedule M (t - 8) ^^^ schedule M (t - 14) ^^^ schedule M (t - 16))

/-- The five words of a hash. -/
structure Words where
  a : UInt32
  b : UInt32
  c : UInt32
  d : UInt32
  e : UInt32

/-- A round. -/
def round (W : ℕ → UInt32) (v : Words) (t : ℕ) : Words where
  a := rotl 5 v.a + f t v.b v.c v.d + v.e + K t + W t
  b := v.a
  c := rotl 30 v.b
  d := v.c
  e := v.d

/-- A word of a block. -/
def word (block : List UInt8) (t : ℕ) : UInt32 :=
  UInt32.ofNat (ofBytes ((block.drop (4 * t)).take 4))

/-- The hash with one block more. -/
def compress (H : Words) (block : List UInt8) : Words :=
  let v := (List.range 80).foldl (round (schedule (word block))) H
  ⟨H.a + v.a, H.b + v.b, H.c + v.c, H.d + v.d, H.e + v.e⟩

/-- The hash of no blocks. -/
def init : Words := ⟨0x67452301, 0xefcdab89, 0x98badcfe, 0x10325476, 0xc3d2e1f0⟩

/-- The padding of a message: one bit, zeros up to 8 bytes before the end of a block, and the number
of bits of the message. It is defined for messages below 2 ^ 64 bits; for longer ones the high bits
of the number are cut. -/
def padding (length : ℕ) : List UInt8 :=
  0x80 :: (List.replicate ((119 - length % 64) % 64) 0 ++ toBytes 8 (8 * length))

/-- A message with its padding. -/
def pad (m : List UInt8) : List UInt8 := m ++ padding m.length

/-- The bytes of a hash. -/
def Words.bytes (H : Words) : List UInt8 :=
  [H.a, H.b, H.c, H.d, H.e].flatMap fun x => toBytes 4 x.toNat

/-- The SHA-1 hash of a message. -/
def sha1 (m : List UInt8) : List UInt8 :=
  ((Blocks.blocks 64 (pad m)).foldl compress init).bytes

@[simp] theorem length_sha1 (m : List UInt8) : (sha1 m).length = 20 := rfl

/-! ## The code of a counter -/

/-- A key of the length of a block. -/
def blockKey (key : List UInt8) : List UInt8 :=
  let k := if 64 < key.length then sha1 key else key
  k ++ List.replicate (64 - k.length) 0

/-- The keyed hash of a text. -/
def hmac (key text : List UInt8) : List UInt8 :=
  sha1 ((blockKey key).map (· ^^^ 0x5c) ++ sha1 ((blockKey key).map (· ^^^ 0x36) ++ text))

/-- The 31 bits of a hash that its last 4 bits point to. -/
def truncate (hash : List UInt8) : ℕ :=
  ofBytes ((hash.drop ((hash.getD 19 0).toNat % 16)).take 4) % 2 ^ 31

/-- The code of a counter, with 6 digits. -/
def hotp (key : List UInt8) (counter : ℕ) : List Char :=
  decimal 6 (truncate (hmac key (toBytes 8 counter)) % 10 ^ 6)

end Sha1
