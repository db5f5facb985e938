import TiabloServer.Lib.Sha1

/-!
# The SHA-1 hash of a string

`transformToSHA1` (`utils/tools.cpp`) takes the bytes of a string one by one into a block of 64,
counts their bits in two words and pads the last block in place: with one more block when the number
of bits does not fit.

## Main definitions

* `Tools.Hashing` — the local variables of `transformToSHA1`.
* `Tools.transformToSHA1` — the hash of a string in hexadecimal.

## Main results

* `Tools.digest_eq` — the blocks that are processed are those of the padded string.
* `Tools.transformToSHA1_eq` — the hash is SHA-1.
-/

namespace TiabloServer.Tools

/-! ## The functions of the source -/

def circularShift (bits value : UInt32) : UInt32 := (value <<< bits) ||| (value >>> (32 - bits))

/-- The variables of the rounds. -/
structure Registers where
  A : UInt32
  B : UInt32
  C : UInt32
  D : UInt32
  E : UInt32

/-- A word of the message block, the highest byte first. -/
def loadWord (messageBlock : List UInt8) (i : ℕ) : UInt32 :=
  let offset := i <<< 2
  (messageBlock.getD offset 0).toUInt32 <<< 24 ||| (messageBlock.getD (offset + 1) 0).toUInt32 <<< 16 |||
    (messageBlock.getD (offset + 2) 0).toUInt32 <<< 8 ||| (messageBlock.getD (offset + 3) 0).toUInt32

/-- The word `W[i]` for an index from 16 on. -/
def expandWord (W : List UInt32) (i : ℕ) : List UInt32 :=
  W ++ [circularShift 1 (W.getD (i - 3) 0 ^^^ W.getD (i - 8) 0 ^^^ W.getD (i - 14) 0 ^^^ W.getD (i - 16) 0)]

/-- A round of the four loops, which differ in a function and a constant. -/
def shaRound (mix : UInt32 → UInt32 → UInt32 → UInt32) (k : UInt32) (W : List UInt32) (r : Registers) (i : ℕ) :
    Registers where
  A := circularShift 5 r.A + mix r.B r.C r.D + r.E + W.getD i 0 + k
  B := r.A
  C := circularShift 30 r.B
  D := r.C
  E := r.D

/-- `processSHA1MessageBlock`. -/
def processSHA1MessageBlock (messageBlock : List UInt8) (H : Vector UInt32 5) : Vector UInt32 5 :=
  let W := (List.range 16).map (loadWord messageBlock)
  let W := (List.range' 16 64).foldl expandWord W
  let r : Registers := ⟨H[0], H[1], H[2], H[3], H[4]⟩
  let r := (List.range' 0 20).foldl (shaRound (fun B C D => (B &&& C) ||| (~~~ B &&& D)) 0x5A827999 W) r
  let r := (List.range' 20 20).foldl (shaRound (fun B C D => B ^^^ C ^^^ D) 0x6ED9EBA1 W) r
  let r := (List.range' 40 20).foldl
    (shaRound (fun B C D => (B &&& C) ||| (B &&& D) ||| (C &&& D)) 0x8F1BBCDC W) r
  let r := (List.range' 60 20).foldl (shaRound (fun B C D => B ^^^ C ^^^ D) 0xCA62C1D6 W) r
  #v[H[0] + r.A, H[1] + r.B, H[2] + r.C, H[3] + r.D, H[4] + r.E]

/-- The local variables of `transformToSHA1`, for any kind of hash. -/
structure Hashing (σ : Type*) where
  messageBlock : Vector UInt8 64
  index : ℕ
  length_low : UInt32
  length_high : UInt32
  H : σ

namespace Hashing

variable {σ : Type*} (process : List UInt8 → σ → σ) (s : Hashing σ)

/-- `messageBlock[index++] = b`. -/
def put (b : UInt8) : Hashing σ :=
  { s with messageBlock := s.messageBlock.setIfInBounds s.index b, index := s.index + 1 }

/-- A full block is processed. -/
def flush : Hashing σ :=
  { s with H := process s.messageBlock.toList s.H, index := 0 }

/-- The loop over the string, for one character. -/
def next (ch : UInt8) : Hashing σ :=
  let s := s.put ch
  let length_low := s.length_low + 8
  let length_high := if length_low = 0 then s.length_high + 1 else s.length_high
  let s := { s with length_low := length_low, length_high := length_high }
  if s.index = 64 then s.flush process else s

/-- The loops that fill the block with zeros up to an index. -/
def zeros (n : ℕ) : Hashing σ := (fun s => s.put 0)^[n - s.index] s

/-- The block with the number of bits at its end. -/
def lastBlock : Vector UInt8 64 :=
  (((((((s.messageBlock.setIfInBounds 56 (s.length_high >>> 24).toUInt8).setIfInBounds 57
    (s.length_high >>> 16).toUInt8).setIfInBounds 58 (s.length_high >>> 8).toUInt8).setIfInBounds 59
    s.length_high.toUInt8).setIfInBounds 60 (s.length_low >>> 24).toUInt8).setIfInBounds 61
    (s.length_low >>> 16).toUInt8).setIfInBounds 62 (s.length_low >>> 8).toUInt8).setIfInBounds 63
    s.length_low.toUInt8

/-- What comes after the loop over the string. -/
def finish : σ :=
  let s := s.put 0x80
  let s := if 56 < s.index then (s.zeros 64).flush process else s
  let s := s.zeros 56
  process s.lastBlock.toList s.H

end Hashing

/-- The blocks of a string are processed. The block holds anything before it is written to. -/
def digest {σ : Type*} (process : List UInt8 → σ → σ) (messageBlock : Vector UInt8 64) (H : σ)
    (input : List UInt8) : σ :=
  (input.foldl (Hashing.next process) ⟨messageBlock, 0, 0, 0, H⟩).finish process

/-- A byte of the hash. -/
def hashByte (H : Vector UInt32 5) (i : ℕ) : UInt8 :=
  (H.toList.getD (i / 4) 0 >>> UInt32.ofNat (((3 - (i : ℤ)) % 4).toNat * 8)).toUInt8

def hexDigits : List Char := "0123456789abcdef".toList

/-- The hash in hexadecimal, from its last byte to its first. -/
def hexstring (H : Vector UInt32 5) : List Char :=
  (List.range 20).reverse.foldl (fun hex i =>
    [hexDigits.getD (hashByte H i >>> 4).toNat '0', hexDigits.getD (hashByte H i &&& 15).toNat '0'] ++ hex) []

/-- `transformToSHA1`. -/
def transformToSHA1 (messageBlock : Vector UInt8 64) (input : List UInt8) : List Char :=
  hexstring (digest processSHA1MessageBlock messageBlock
    #v[0x67452301, 0xEFCDAB89, 0x98BADCFE, 0x10325476, 0xC3D2E1F0] input)

/-! ## The rounds of a block -/

theorem circularShift_one (x : UInt32) : circularShift 1 x = Sha1.rotl 1 x := by
  apply UInt32.toBitVec_inj.1
  simp [circularShift, Sha1.rotl, BitVec.rotateLeft, BitVec.rotateLeftAux]

theorem circularShift_five (x : UInt32) : circularShift 5 x = Sha1.rotl 5 x := by
  apply UInt32.toBitVec_inj.1
  simp [circularShift, Sha1.rotl, BitVec.rotateLeft, BitVec.rotateLeftAux]

theorem circularShift_thirty (x : UInt32) : circularShift 30 x = Sha1.rotl 30 x := by
  apply UInt32.toBitVec_inj.1
  simp [circularShift, Sha1.rotl, BitVec.rotateLeft, BitVec.rotateLeftAux]

/-- The bits that one word chooses of two others are never taken from both. -/
theorem choose_eq (x y z : UInt32) : (x &&& y) ||| (~~~ x &&& z) = (x &&& y) ^^^ (~~~ x &&& z) := by
  apply UInt32.toBitVec_inj.1
  ext i hi
  simp only [UInt32.toBitVec_or, UInt32.toBitVec_and, UInt32.toBitVec_not, UInt32.toBitVec_xor,
    BitVec.getElem_or, BitVec.getElem_and, BitVec.getElem_not, BitVec.getElem_xor]
  cases x.toBitVec[i] <;> simp

theorem majority_eq (x y z : UInt32) :
    (x &&& y) ||| (x &&& z) ||| (y &&& z) = (x &&& y) ^^^ (x &&& z) ^^^ (y &&& z) := by
  apply UInt32.toBitVec_inj.1
  ext i hi
  simp only [UInt32.toBitVec_or, UInt32.toBitVec_and, UInt32.toBitVec_xor, BitVec.getElem_or, BitVec.getElem_and,
    BitVec.getElem_xor]
  cases x.toBitVec[i] <;> cases y.toBitVec[i] <;> simp

/-- Bits below those of a multiple of a power of two are added to it. -/
theorem or_low {x y n : ℕ} (hy : y < 2 ^ n) : x * 2 ^ n ||| y = x * 2 ^ n + y := by
  rw [Nat.mul_comm, Nat.two_pow_add_eq_or_of_lt hy]

theorem word_of_bytes (a b c d : UInt8) :
    a.toUInt32 <<< 24 ||| b.toUInt32 <<< 16 ||| c.toUInt32 <<< 8 ||| d.toUInt32 =
      UInt32.ofNat (Sha1.ofBytes [a, b, c, d]) := by
  have ha := a.toNat_lt
  have hb := b.toNat_lt
  have hc := c.toNat_lt
  have hd := d.toNat_lt
  have hshift (x : UInt8) {n : ℕ} (hn : n ≤ 24) : x.toNat <<< n % 2 ^ 32 = x.toNat * 2 ^ n := by
    rw [Nat.shiftLeft_eq, Nat.mod_eq_of_lt]
    calc x.toNat * 2 ^ n ≤ 255 * 2 ^ 24 :=
          Nat.mul_le_mul (by have := x.toNat_lt; omega) (Nat.pow_le_pow_right (by decide) hn)
      _ < 2 ^ 32 := by decide
  have hab : a.toNat * 2 ^ 24 ||| b.toNat * 2 ^ 16 = (256 * a.toNat + b.toNat) * 2 ^ 16 := by
    rw [or_low (by omega)]
    ring
  have habc : (256 * a.toNat + b.toNat) * 2 ^ 16 ||| c.toNat * 2 ^ 8 =
      (256 * (256 * a.toNat + b.toNat) + c.toNat) * 2 ^ 8 := by
    rw [or_low (by omega)]
    ring
  apply UInt32.toNat_inj.1
  calc (a.toUInt32 <<< 24 ||| b.toUInt32 <<< 16 ||| c.toUInt32 <<< 8 ||| d.toUInt32).toNat
      = a.toNat <<< 24 % 2 ^ 32 ||| b.toNat <<< 16 % 2 ^ 32 ||| c.toNat <<< 8 % 2 ^ 32 ||| d.toNat := by simp
    _ = 256 * (256 * (256 * a.toNat + b.toNat) + c.toNat) + d.toNat := by
      rw [hshift a (by decide), hshift b (by decide), hshift c (by decide), hab, habc, or_low hd]
      ring
    _ = (UInt32.ofNat (Sha1.ofBytes [a, b, c, d])).toNat := by
      rw [UInt32.toNat_ofNat']
      simp only [Sha1.ofBytes, List.foldl_cons, List.foldl_nil]
      omega

theorem loadWord_eq {block : List UInt8} (hblock : block.length = 64) {t : ℕ} (ht : t < 16) :
    loadWord block t = Sha1.word block t := by
  have hoffset : t <<< 2 = 4 * t := by rw [Nat.shiftLeft_eq]; omega
  have htake : (block.drop (4 * t)).take 4 = [block.getD (4 * t) 0, block.getD (4 * t + 1) 0,
      block.getD (4 * t + 2) 0, block.getD (4 * t + 3) 0] := by
    rw [List.drop_eq_getElem_cons (by omega), List.drop_eq_getElem_cons (by omega),
      List.drop_eq_getElem_cons (by omega), List.drop_eq_getElem_cons (by omega)]
    simp only [List.take_succ_cons, List.take_zero]
    rw [List.getD_eq_getElem, List.getD_eq_getElem, List.getD_eq_getElem, List.getD_eq_getElem]
  rw [loadWord, hoffset, word_of_bytes, Sha1.word, htake]

theorem getD_range_map {α : Type*} (g : ℕ → α) (a : α) {i n : ℕ} (hi : i < n) :
    ((List.range n).map g).getD i a = g i := by
  rw [List.getD_eq_getElem _ _ (by simpa using hi), List.getElem_map, List.getElem_range]

/-- The words of the second loop are those of the schedule. -/
theorem foldl_expandWord (M : ℕ → UInt32) (n : ℕ) :
    (List.range' 16 n).foldl expandWord ((List.range 16).map (Sha1.schedule M)) =
      (List.range (16 + n)).map (Sha1.schedule M) := by
  induction n with
  | zero => rfl
  | succ n ih =>
    have hschedule : Sha1.schedule M (16 + n) = Sha1.rotl 1 (Sha1.schedule M (16 + n - 3) ^^^
        Sha1.schedule M (16 + n - 8) ^^^ Sha1.schedule M (16 + n - 14) ^^^ Sha1.schedule M (16 + n - 16)) := by
      rw [Sha1.schedule, if_neg (by omega)]
    rw [List.range'_concat, Nat.one_mul, List.foldl_append, ih, List.foldl_cons, List.foldl_nil, expandWord,
      getD_range_map _ _ (by omega), getD_range_map _ _ (by omega), getD_range_map _ _ (by omega),
      getD_range_map _ _ (by omega), circularShift_one, ← hschedule, ← Nat.add_assoc, List.range_succ,
      List.map_append, List.map_singleton]

/-- The registers as words of a hash. -/
def Registers.words (r : Registers) : Sha1.Words := ⟨r.A, r.B, r.C, r.D, r.E⟩

/-- One of the four loops, with the rounds of its indices. -/
theorem words_foldl_shaRound {mix : UInt32 → UInt32 → UInt32 → UInt32} {k : UInt32} {M : ℕ → UInt32} {i n : ℕ}
    (hi : i + n ≤ 80)
    (hmix : ∀ t, i ≤ t → t < i + n → (∀ x y z, mix x y z = Sha1.f t x y z) ∧ k = Sha1.K t) (r : Registers) :
    ((List.range' i n).foldl (shaRound mix k ((List.range 80).map (Sha1.schedule M))) r).words =
      (List.range' i n).foldl (Sha1.round (Sha1.schedule M)) r.words := by
  induction n with
  | zero => rfl
  | succ n ih =>
    have hn := ih (by omega) fun t h₁ h₂ => hmix t h₁ (by omega)
    obtain ⟨hf, hk⟩ := hmix (i + n) (by omega) (by omega)
    rw [List.range'_concat, Nat.one_mul, List.foldl_append, List.foldl_append, ← hn]
    simp only [List.foldl_cons, List.foldl_nil, shaRound, Sha1.round, Registers.words, hf, hk,
      getD_range_map _ _ (show i + n < 80 by omega), circularShift_five, circularShift_thirty]
    rw [UInt32.add_assoc, UInt32.add_comm (Sha1.schedule M (i + n)), ← UInt32.add_assoc]

/-- The hash as words. -/
def toWords (H : Vector UInt32 5) : Sha1.Words := ⟨H[0], H[1], H[2], H[3], H[4]⟩

theorem toWords_add (H : Vector UInt32 5) (r : Registers) :
    toWords #v[H[0] + r.A, H[1] + r.B, H[2] + r.C, H[3] + r.D, H[4] + r.E] =
      ⟨(toWords H).a + r.words.a, (toWords H).b + r.words.b, (toWords H).c + r.words.c,
        (toWords H).d + r.words.d, (toWords H).e + r.words.e⟩ := rfl

/-- The four loops over the words of a schedule are the 80 rounds. -/
theorem words_rounds (M : ℕ → UInt32) (r : Registers) :
    Registers.words ((List.range' 60 20).foldl (shaRound (fun B C D => B ^^^ C ^^^ D) 0xCA62C1D6
        ((List.range 80).map (Sha1.schedule M)))
      ((List.range' 40 20).foldl (shaRound (fun B C D => (B &&& C) ||| (B &&& D) ||| (C &&& D)) 0x8F1BBCDC
          ((List.range 80).map (Sha1.schedule M)))
        ((List.range' 20 20).foldl (shaRound (fun B C D => B ^^^ C ^^^ D) 0x6ED9EBA1
            ((List.range 80).map (Sha1.schedule M)))
          ((List.range' 0 20).foldl (shaRound (fun B C D => (B &&& C) ||| (~~~ B &&& D)) 0x5A827999
            ((List.range 80).map (Sha1.schedule M))) r)))) =
      (List.range 80).foldl (Sha1.round (Sha1.schedule M)) r.words := by
  have hrange : List.range 80 =
      List.range' 0 20 ++ List.range' 20 20 ++ List.range' 40 20 ++ List.range' 60 20 := rfl
  rw [words_foldl_shaRound (by decide), words_foldl_shaRound (by decide), words_foldl_shaRound (by decide),
    words_foldl_shaRound (by decide), hrange, List.foldl_append, List.foldl_append, List.foldl_append]
  · intro t h₁ h₂
    simp only [Sha1.f, Sha1.K, if_pos (show t < 20 by omega), choose_eq, implies_true, and_self]
  · intro t h₁ h₂
    simp only [Sha1.f, Sha1.K, if_neg (show ¬ t < 20 by omega), if_pos (show t < 40 by omega), implies_true,
      and_self]
  · intro t h₁ h₂
    simp only [Sha1.f, Sha1.K, if_neg (show ¬ t < 20 by omega), if_neg (show ¬ t < 40 by omega),
      if_pos (show t < 60 by omega), majority_eq, implies_true, and_self]
  · intro t h₁ h₂
    simp only [Sha1.f, Sha1.K, if_neg (show ¬ t < 20 by omega), if_neg (show ¬ t < 40 by omega),
      if_neg (show ¬ t < 60 by omega), implies_true, and_self]

/-- The words of the two loops over the index of `W`. -/
theorem words_loaded {block : List UInt8} (hblock : block.length = 64) :
    (List.range' 16 64).foldl expandWord ((List.range 16).map (loadWord block)) =
      (List.range 80).map (Sha1.schedule (Sha1.word block)) := by
  have hload : (List.range 16).map (loadWord block) = (List.range 16).map (Sha1.schedule (Sha1.word block)) := by
    refine List.map_congr_left fun t ht => ?_
    rw [loadWord_eq hblock (List.mem_range.1 ht), Sha1.schedule, if_pos (List.mem_range.1 ht)]
  rw [hload]
  exact foldl_expandWord _ 64

theorem toWords_processSHA1MessageBlock {block : List UInt8} (hblock : block.length = 64) (H : Vector UInt32 5) :
    toWords (processSHA1MessageBlock block H) = Sha1.compress (toWords H) block := by
  have hrounds := words_rounds (Sha1.word block) ⟨H[0], H[1], H[2], H[3], H[4]⟩
  rw [← words_loaded hblock] at hrounds
  rw [Sha1.compress, show toWords H = Registers.words ⟨H[0], H[1], H[2], H[3], H[4]⟩ from rfl, ← hrounds]
  exact toWords_add H _

/-! ## The blocks of a string -/

namespace Hashing

variable {σ : Type*} {process : List UInt8 → σ → σ} {s : Hashing σ}

/-- The bytes that are in the block. -/
structure Holds (s : Hashing σ) (p : List UInt8) : Prop where
  taken : s.messageBlock.toList.take s.index = p
  index_eq : s.index = p.length

/-- One byte more at the end of what is taken. -/
theorem take_setIfInBounds {v : Vector UInt8 64} {i : ℕ} {p : List UInt8} (hi : i < 64)
    (hv : v.toList.take i = p) (b : UInt8) : (v.setIfInBounds i b).toList.take (i + 1) = p ++ [b] := by
  have hlength : i < (v.toList.set i b).length := by simpa using hi
  rw [Vector.toList_setIfInBounds, List.take_succ_eq_append_getElem hlength, List.getElem_set_self, List.take_set,
    List.set_eq_of_length_le (by simp), hv]

theorem Holds.put {p : List UInt8} (h : s.Holds p) (hp : p.length < 64) (b : UInt8) : (s.put b).Holds (p ++ [b]) where
  taken := take_setIfInBounds (h.index_eq ▸ hp) h.taken b
  index_eq := by rw [List.length_append, List.length_singleton, ← h.index_eq]; rfl

theorem Holds.full {p : List UInt8} (h : s.Holds p) (hp : p.length = 64) : s.messageBlock.toList = p := by
  rw [← h.taken, h.index_eq, hp, List.take_of_length_le (by simp)]

/-- Zeros are put into the block, and nothing else changes. -/
theorem Holds.iterate_put {p : List UInt8} (h : s.Holds p) {k : ℕ} (hk : p.length + k ≤ 64) :
    ((fun s => s.put 0)^[k] s).Holds (p ++ List.replicate k 0) ∧ ((fun s => s.put 0)^[k] s).H = s.H ∧
      ((fun s => s.put 0)^[k] s).length_low = s.length_low ∧
      ((fun s => s.put 0)^[k] s).length_high = s.length_high := by
  induction k with
  | zero => exact ⟨by rwa [List.replicate_zero, List.append_nil], rfl, rfl, rfl⟩
  | succ k ih =>
    obtain ⟨hholds, hH, hlow, hhigh⟩ := ih (by omega)
    rw [Function.iterate_succ_apply', List.replicate_succ', ← List.append_assoc]
    exact ⟨hholds.put (by rw [List.length_append, List.length_replicate]; omega) 0, hH, hlow, hhigh⟩

/-- The number of bits that have been counted. -/
def Counts (s : Hashing σ) (n : ℕ) : Prop :=
  s.length_high.toNat * 2 ^ 32 + s.length_low.toNat = 8 * n % 2 ^ 64

/-- The variables agree with the blocks of the bytes so far. -/
structure Agrees (s : Hashing σ) (q : List UInt8 × σ) (n : ℕ) : Prop where
  holds : s.Holds q.1
  short : q.1.length < 64
  hash : s.H = q.2
  counts : s.Counts n

/-- The number of bits with one byte more: the low word is carried when it gets to zero. -/
theorem counts_carry {low high : UInt32} {n : ℕ} (h : high.toNat * 2 ^ 32 + low.toNat = 8 * n % 2 ^ 64) :
    (if low + 8 = 0 then high + 1 else high).toNat * 2 ^ 32 + (low + 8).toNat = 8 * (n + 1) % 2 ^ 64 := by
  have hlow := low.toNat_lt
  have hhigh := high.toNat_lt
  have hadd : (low + 8).toNat = (low.toNat + 8) % 2 ^ 32 := UInt32.toNat_add low 8
  have hone : (high + 1).toNat = (high.toNat + 1) % 2 ^ 32 := UInt32.toNat_add high 1
  by_cases hcarry : low + 8 = 0
  · have hzero : (low.toNat + 8) % 2 ^ 32 = 0 := by rw [← hadd, hcarry, UInt32.toNat_zero]
    have hlast : low.toNat = 2 ^ 32 - 8 := by omega
    rw [if_pos hcarry, hone, hadd, hzero, Nat.add_zero]
    calc (high.toNat + 1) % 2 ^ 32 * 2 ^ 32
        = (high.toNat + 1) * 2 ^ 32 % (2 ^ 32 * 2 ^ 32) := by rw [Nat.mul_mod_mul_right]
      _ = (8 * n % 2 ^ 64 + 8) % 2 ^ 64 := by
        rw [← h, hlast, Nat.add_mul, Nat.one_mul, ← pow_add, Nat.add_assoc _ (2 ^ 32 - 8),
          Nat.sub_add_cancel (by decide : 8 ≤ 2 ^ 32)]
      _ = 8 * (n + 1) % 2 ^ 64 := by rw [Nat.mod_add_mod, Nat.mul_succ]
  · have hzero : (low.toNat + 8) % 2 ^ 32 ≠ 0 := fun h => hcarry (UInt32.toNat_inj.1 (hadd.trans h))
    rw [if_neg hcarry, hadd]
    clear hadd hone hcarry
    omega

/-- The loop over the string, for one character. -/
theorem Agrees.next {q : List UInt8 × σ} {n : ℕ} (h : s.Agrees q n) (ch : UInt8) :
    (s.next process ch).Agrees (Blocks.push (fun H block => process block H) 64 q ch) (n + 1) := by
  have hput := h.holds.put h.short ch
  have hindex : (s.put ch).index = q.1.length + 1 := by
    rw [hput.index_eq, List.length_append, List.length_singleton]
  have hcounts := counts_carry h.counts
  simp only [Hashing.next, Blocks.push, hindex]
  by_cases hfull : q.1.length + 1 = 64
  · rw [if_pos hfull, if_pos hfull]
    refine ⟨⟨rfl, rfl⟩, Nat.succ_pos 63, ?_, hcounts⟩
    have hblock := hput.full (by rw [List.length_append, List.length_singleton, hfull])
    show process (s.put ch).messageBlock.toList s.H = process (q.1 ++ [ch]) q.2
    rw [hblock, h.hash]
  · rw [if_neg hfull, if_neg hfull]
    refine ⟨⟨?_, ?_⟩, ?_, h.hash, hcounts⟩
    · have htaken := hput.taken
      rwa [hindex] at htaken
    · rw [List.length_append, List.length_singleton]
    · have hshort := h.short
      rw [List.length_append, List.length_singleton]
      omega

/-- The loop over the string. -/
theorem Agrees.foldl (process : List UInt8 → σ → σ) {q : List UInt8 × σ} {n : ℕ} (h : s.Agrees q n)
    (input : List UInt8) : (input.foldl (Hashing.next process) s).Agrees
      (input.foldl (Blocks.push (fun H block => process block H) 64) q) (n + input.length) := by
  induction input generalizing s q n with
  | nil => exact h
  | cons ch input ih =>
    rw [List.foldl_cons, List.foldl_cons, List.length_cons, Nat.add_comm input.length, ← Nat.add_assoc]
    exact ih (h.next ch)

/-! ## The end of the string -/

/-- The bytes of a word. -/
theorem byte_of_word (w : UInt32) :
    (w >>> 24).toUInt8 = UInt8.ofNat (w.toNat / 2 ^ 24) ∧ (w >>> 16).toUInt8 = UInt8.ofNat (w.toNat / 2 ^ 16) ∧
      (w >>> 8).toUInt8 = UInt8.ofNat (w.toNat / 2 ^ 8) ∧ w.toUInt8 = UInt8.ofNat w.toNat := by
  refine ⟨?_, ?_, ?_, ?_⟩ <;> apply UInt8.toNat_inj.1 <;> simp [Nat.shiftRight_eq_div_pow]

theorem Holds.lastBlock {p : List UInt8} (h : s.Holds p) (hp : p.length = 56) {n : ℕ} (hn : s.Counts n) :
    s.lastBlock.toList = p ++ Sha1.toBytes 8 (8 * n) := by
  have htaken : s.messageBlock.toList.take 56 = p := by rw [← hp, ← h.index_eq, h.taken]
  have hset := take_setIfInBounds (by decide) (take_setIfInBounds (by decide) (take_setIfInBounds (by decide)
    (take_setIfInBounds (by decide) (take_setIfInBounds (by decide) (take_setIfInBounds (by decide)
      (take_setIfInBounds (by decide) (take_setIfInBounds (by decide) htaken (s.length_high >>> 24).toUInt8)
        (s.length_high >>> 16).toUInt8) (s.length_high >>> 8).toUInt8) s.length_high.toUInt8)
      (s.length_low >>> 24).toUInt8) (s.length_low >>> 16).toUInt8) (s.length_low >>> 8).toUInt8)
    s.length_low.toUInt8
  rw [List.take_of_length_le (by simp)] at hset
  obtain ⟨hh₁, hh₂, hh₃, hh₄⟩ := byte_of_word s.length_high
  obtain ⟨hl₁, hl₂, hl₃, hl₄⟩ := byte_of_word s.length_low
  have hlow := s.length_low.toNat_lt
  have hhigh := s.length_high.toNat_lt
  have hbyte {a b : ℕ} (hab : a % 2 ^ 8 = b % 2 ^ 8) : UInt8.ofNat a = UInt8.ofNat b := by
    apply UInt8.toNat_inj.1
    rw [UInt8.toNat_ofNat', UInt8.toNat_ofNat', hab]
  rw [Counts] at hn
  have hbytes : Sha1.toBytes 8 (8 * n) = [UInt8.ofNat (s.length_high.toNat / 2 ^ 24),
      UInt8.ofNat (s.length_high.toNat / 2 ^ 16), UInt8.ofNat (s.length_high.toNat / 2 ^ 8),
      UInt8.ofNat s.length_high.toNat, UInt8.ofNat (s.length_low.toNat / 2 ^ 24),
      UInt8.ofNat (s.length_low.toNat / 2 ^ 16), UInt8.ofNat (s.length_low.toNat / 2 ^ 8),
      UInt8.ofNat s.length_low.toNat] := by
    have hdef : Sha1.toBytes 8 (8 * n) = [UInt8.ofNat (8 * n / 256 ^ 7), UInt8.ofNat (8 * n / 256 ^ 6),
      UInt8.ofNat (8 * n / 256 ^ 5), UInt8.ofNat (8 * n / 256 ^ 4), UInt8.ofNat (8 * n / 256 ^ 3),
      UInt8.ofNat (8 * n / 256 ^ 2), UInt8.ofNat (8 * n / 256 ^ 1), UInt8.ofNat (8 * n / 256 ^ 0)] := rfl
    rw [hdef, hbyte (show 8 * n / 256 ^ 7 % 2 ^ 8 = s.length_high.toNat / 2 ^ 24 % 2 ^ 8 by omega),
      hbyte (show 8 * n / 256 ^ 6 % 2 ^ 8 = s.length_high.toNat / 2 ^ 16 % 2 ^ 8 by omega),
      hbyte (show 8 * n / 256 ^ 5 % 2 ^ 8 = s.length_high.toNat / 2 ^ 8 % 2 ^ 8 by omega),
      hbyte (show 8 * n / 256 ^ 4 % 2 ^ 8 = s.length_high.toNat % 2 ^ 8 by omega),
      hbyte (show 8 * n / 256 ^ 3 % 2 ^ 8 = s.length_low.toNat / 2 ^ 24 % 2 ^ 8 by omega),
      hbyte (show 8 * n / 256 ^ 2 % 2 ^ 8 = s.length_low.toNat / 2 ^ 16 % 2 ^ 8 by omega),
      hbyte (show 8 * n / 256 ^ 1 % 2 ^ 8 = s.length_low.toNat / 2 ^ 8 % 2 ^ 8 by omega),
      hbyte (show 8 * n / 256 ^ 0 % 2 ^ 8 = s.length_low.toNat % 2 ^ 8 by omega)]
  rw [Hashing.lastBlock, hset, hbytes, ← hh₁, ← hh₂, ← hh₃, ← hh₄, ← hl₁, ← hl₂, ← hl₃, ← hl₄]
  simp only [List.append_assoc, List.cons_append, List.nil_append]

/-- A block that has been filled up to its last 8 bytes is the last one. -/
theorem Holds.last (process : List UInt8 → σ → σ) {p : List UInt8} (h : s.Holds p) (hp : p.length ≤ 56) {n : ℕ}
    (hn : s.Counts n) : process (s.zeros 56).lastBlock.toList (s.zeros 56).H =
      (Blocks.blocks 64 (p ++ (List.replicate (56 - p.length) 0 ++ Sha1.toBytes 8 (8 * n)))).foldl
        (fun H block => process block H) s.H := by
  obtain ⟨hholds, hH, hlow, hhigh⟩ := h.iterate_put (k := 56 - p.length) (by omega)
  rw [← h.index_eq] at hholds hH hlow hhigh ⊢
  have hlength : (p ++ List.replicate (56 - s.index) 0).length = 56 := by
    rw [List.length_append, List.length_replicate, h.index_eq]
    omega
  have hcounts : (s.zeros 56).Counts n := by
    rw [Counts, Hashing.zeros, hlow, hhigh]
    exact hn
  have hblock : (p ++ (List.replicate (56 - s.index) 0 ++ Sha1.toBytes 8 (8 * n))).length = 64 := by
    rw [← List.append_assoc, List.length_append, hlength, Sha1.length_toBytes]
  have hblocks := Blocks.blocks_append (by decide) hblock ([] : List UInt8)
  rw [List.append_nil, Blocks.blocks_of_lt (l := ([] : List UInt8)) (by decide)] at hblocks
  rw [hblocks, List.foldl_cons, List.foldl_nil, ← List.append_assoc, ← hholds.lastBlock hlength hcounts]
  exact congrArg _ hH

/-- What comes after the loop processes the blocks of what is left of the string, with the
padding. -/
theorem Agrees.finish {q : List UInt8 × σ} {n : ℕ} (h : s.Agrees q n) (hq : q.1.length = n % 64) :
    s.finish process = (Blocks.blocks 64 (q.1 ++ Sha1.padding n)).foldl (fun H block => process block H) q.2 := by
  have hput := h.holds.put h.short 0x80
  have hcounts : (s.put 0x80).Counts n := h.counts
  have hlength : (q.1 ++ [0x80]).length = n % 64 + 1 := by rw [List.length_append, List.length_singleton, hq]
  have hindex : (s.put 0x80).index = n % 64 + 1 := by rw [hput.index_eq, hlength]
  have hlt : n % 64 < 64 := Nat.mod_lt _ (by decide)
  have happend : q.1 ++ Sha1.padding n = q.1 ++ [0x80] ++
      (List.replicate ((119 - n % 64) % 64) 0 ++ Sha1.toBytes 8 (8 * n)) := by
    rw [Sha1.padding, List.append_assoc, List.singleton_append]
  simp only [Hashing.finish, hindex]
  by_cases htwo : 56 < n % 64 + 1
  · -- The number of bits does not fit: the block is filled, and the next one starts with zeros.
    rw [if_pos htwo]
    obtain ⟨hholds, hH, hlow, hhigh⟩ := hput.iterate_put (k := 64 - (n % 64 + 1)) (by omega)
    rw [← hindex] at hholds hH hlow hhigh
    have hfull : (q.1 ++ [0x80] ++ List.replicate (64 - (s.put 0x80).index) 0).length = 64 := by
      rw [List.length_append, List.length_replicate, hlength, hindex]
      omega
    have hflush : (((s.put 0x80).zeros 64).flush process).Holds [] := ⟨rfl, rfl⟩
    have hflushcounts : (((s.put 0x80).zeros 64).flush process).Counts n := by
      show ((s.put 0x80).zeros 64).Counts n
      rw [Counts, Hashing.zeros, hlow, hhigh]
      exact hcounts
    have hzeros : (119 - n % 64) % 64 = (64 - (s.put 0x80).index) + 56 := by rw [hindex]; omega
    have hhash : (((s.put 0x80).zeros 64).flush process).H =
        process (q.1 ++ [0x80] ++ List.replicate (64 - (s.put 0x80).index) 0) q.2 := by
      show process ((s.put 0x80).zeros 64).messageBlock.toList ((s.put 0x80).zeros 64).H = _
      rw [Hashing.zeros, hholds.full hfull, hH]
      exact congrArg _ h.hash
    have hblocks : q.1 ++ Sha1.padding n = q.1 ++ [0x80] ++ List.replicate (64 - (s.put 0x80).index) 0 ++
        (List.replicate 56 0 ++ Sha1.toBytes 8 (8 * n)) := by
      rw [happend, hzeros, List.replicate_add]
      simp only [List.append_assoc]
    rw [hflush.last process (Nat.zero_le 56) hflushcounts, hhash, hblocks, Blocks.blocks_append (by decide) hfull]
    rfl
  · rw [if_neg htwo, hput.last process (by rw [hlength]; omega) hcounts, happend, hlength]
    rw [show 56 - (n % 64 + 1) = (119 - n % 64) % 64 by omega, show (s.put 0x80).H = q.2 from h.hash]

end Hashing

/-- The blocks that are processed are those of the padded string, whatever the block held before. -/
theorem digest_eq {σ : Type*} (process : List UInt8 → σ → σ) (messageBlock : Vector UInt8 64) (H : σ)
    (input : List UInt8) : digest process messageBlock H input =
      (Blocks.blocks 64 (Sha1.pad input)).foldl (fun H block => process block H) H := by
  have hstart : Hashing.Agrees ⟨messageBlock, 0, 0, 0, H⟩ (([] : List UInt8), H) 0 :=
    ⟨⟨rfl, rfl⟩, Nat.succ_pos 63, rfl, by simp [Hashing.Counts]⟩
  have hloop := hstart.foldl process input
  have hnil : ([] : List UInt8).length < 64 := by simp
  have hpush := Blocks.foldl_push (fun H block => process block H) input H hnil
  have hall := Blocks.foldl_push (fun H block => process block H) (Sha1.pad input) H hnil
  rw [Nat.zero_add] at hloop
  have hleft : (input.foldl (Blocks.push (fun H block => process block H) 64) ([], H)).1.length =
      input.length % 64 := by
    rw [hpush, List.nil_append, List.length_drop]
    omega
  rw [digest, hloop.finish hleft]
  calc (Blocks.blocks 64 ((input.foldl (Blocks.push (fun H block => process block H) 64) ([], H)).1 ++
          Sha1.padding input.length)).foldl (fun H block => process block H)
          (input.foldl (Blocks.push (fun H block => process block H) 64) ([], H)).2
      = ((Sha1.padding input.length).foldl (Blocks.push (fun H block => process block H) 64)
          (input.foldl (Blocks.push (fun H block => process block H) 64) ([], H))).2 := by
        rw [Blocks.foldl_push (fun H block => process block H) (Sha1.padding input.length) _ hloop.short]
    _ = ((Sha1.pad input).foldl (Blocks.push (fun H block => process block H) 64) ([], H)).2 := by
        rw [Sha1.pad, List.foldl_append]
    _ = (Blocks.blocks 64 (Sha1.pad input)).foldl (fun H block => process block H) H := by
        rw [hall, List.nil_append]

/-! ## The hash in hexadecimal -/

theorem hexDigits_getD {n : ℕ} (hn : n < 16) : hexDigits.getD n '0' = Nat.digitChar n := by
  interval_cases n <;> rfl

/-- The two digits of a byte. -/
theorem hex_byte (b : UInt8) :
    [hexDigits.getD (b >>> 4).toNat '0', hexDigits.getD (b &&& 15).toNat '0'] = Sha1.hex [b] := by
  have hb := b.toNat_lt
  have hhigh : (b >>> 4).toNat = b.toNat / 16 := by simp [Nat.shiftRight_eq_div_pow]
  have hlow : (b &&& 15).toNat = b.toNat % 16 := by
    rw [UInt8.toNat_and]
    exact Nat.and_two_pow_sub_one_eq_mod b.toNat 4
  rw [hhigh, hlow, hexDigits_getD (by omega), hexDigits_getD (by omega)]
  rfl

theorem foldl_hex (l : List UInt8) : l.foldr (fun b hex => Sha1.hex [b] ++ hex) [] = Sha1.hex l := by
  induction l with
  | nil => rfl
  | cons b l ih => rw [List.foldr_cons, ih]; rfl

/-- The bytes that are written in hexadecimal. -/
theorem hashBytes (H : Vector UInt32 5) : (List.range 20).map (hashByte H) = (toWords H).bytes := by
  have hword (w : UInt32) : Sha1.toBytes 4 w.toNat =
      [(w >>> 24).toUInt8, (w >>> 16).toUInt8, (w >>> 8).toUInt8, (w >>> 0).toUInt8] := by
    obtain ⟨h₁, h₂, h₃, h₄⟩ := Hashing.byte_of_word w
    rw [h₁, h₂, h₃, UInt32.shiftRight_zero, h₄]
    simp [Sha1.toBytes, List.range_succ]
  obtain ⟨a, b, c, d, e, rfl⟩ : ∃ a b c d e, H = #v[a, b, c, d, e] :=
    ⟨H[0], H[1], H[2], H[3], H[4], by ext i hi; interval_cases i <;> rfl⟩
  simp only [Sha1.Words.bytes, hword]
  rfl

theorem hexstring_eq (H : Vector UInt32 5) : hexstring H = Sha1.hex (toWords H).bytes := by
  rw [hexstring, List.foldl_reverse, ← hashBytes, ← foldl_hex, List.foldr_map]
  simp only [hex_byte]

/-! ## The hash of a string -/

/-- The blocks of a list have the length of blocks. -/
theorem length_of_mem_blocks {l b : List UInt8} (hb : b ∈ Blocks.blocks 64 l) : b.length = 64 := by
  obtain ⟨i, hi, rfl⟩ := List.mem_map.1 hb
  rw [List.mem_range] at hi
  rw [List.length_take, List.length_drop]
  omega

theorem toWords_foldl {l : List (List UInt8)} (hl : ∀ b ∈ l, b.length = 64) (H : Vector UInt32 5) :
    toWords (l.foldl (fun H block => processSHA1MessageBlock block H) H) = l.foldl Sha1.compress (toWords H) := by
  induction l generalizing H with
  | nil => rfl
  | cons b l ih =>
    rw [List.foldl_cons, List.foldl_cons, ih fun b hb => hl b (List.mem_cons_of_mem _ hb),
      toWords_processSHA1MessageBlock (hl b List.mem_cons_self)]

theorem transformToSHA1_eq_hex (messageBlock : Vector UInt8 64) (input : List UInt8) :
    transformToSHA1 messageBlock input = Sha1.hex (Sha1.sha1 input) := by
  rw [transformToSHA1, hexstring_eq, digest_eq, toWords_foldl fun _ hb => length_of_mem_blocks hb]
  rfl

/-- **The hash of a string is its SHA-1 in hexadecimal, over the blocks of the padded string.** The
first part is about all that can be done with blocks, also about collecting them. -/
theorem transformToSHA1_spec (messageBlock : Vector UInt8 64) (input : List UInt8) :
    (∀ (σ : Type) (process : List UInt8 → σ → σ) (H : σ), digest process messageBlock H input =
      (Blocks.blocks 64 (Sha1.pad input)).foldl (fun H block => process block H) H) ∧
    transformToSHA1 messageBlock input = Sha1.hex (Sha1.sha1 input) :=
  ⟨fun _ process H => digest_eq process messageBlock H input, transformToSHA1_eq_hex messageBlock input⟩

example : transformToSHA1 (Vector.replicate 64 0) [97, 98, 99] =
    "a9993e364706816aba3e25717850c26c9cd0d89d".toList := by decide +kernel

end TiabloServer.Tools
