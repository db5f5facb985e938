import TiabloServer.Lib.Loop
import TiabloServer.Utils.Sha1

/-!
# Authenticator tokens

`generateToken` (`utils/tools.cpp`) computes the code of a counter under a secret key. It combines
the key with two strings of 64 bytes in place, so that a longer key is not hashed first but written
past their ends.

## Main definitions

* `Tools.keyPads` — the loop over the key.
* `Tools.generateToken` — the token; `none` is an index out of range or an exception.

## Main results

* `Tools.generateToken_eq_hotp_iff` — the token is the code of the counter if and only if the key
  has at most 64 bytes.
-/

namespace TiabloServer.Tools

/-! ## The functions of the source -/

/-- `std::string::substr`: it throws for a position behind the end. -/
def substr {α : Type*} (s : List α) (pos n : ℕ) : Option (List α) :=
  if pos ≤ s.length then some ((s.drop pos).take n) else none

/-- The value of a hexadecimal digit. -/
def hexValue (c : Char) : Option ℕ :=
  if '0' ≤ c ∧ c ≤ '9' then some (c.toNat - '0'.toNat)
  else if 'a' ≤ c ∧ c ≤ 'f' then some (c.toNat - 'a'.toNat + 10)
  else if 'A' ≤ c ∧ c ≤ 'F' then some (c.toNat - 'A'.toNat + 10)
  else none

/-- The digits of `std::stol`, up to the first other character. -/
def stolDigits (n : ℕ) : List Char → ℕ
  | [] => n
  | c :: s =>
    match hexValue c with
    | none => n
    | some d => stolDigits (16 * n + d) s

/-- `std::stol` with base 16: it throws when the text begins with no digit. A hash has no spaces,
signs or prefixes, and its parts fit into a `long`. -/
def stol (s : List Char) : Option ℕ :=
  if ((s.head?).bind hexValue).isSome then some (stolDigits 0 s) else none

/-- The message: the loop goes from the index 7 down to 1. -/
def tokenMessage (ticks : UInt32) : List UInt8 :=
  ((List.range' 1 7).reverse.foldl (fun (s : List UInt8 × UInt32) i => (s.1.set i (s.2 &&& 0xFF).toUInt8, s.2 >>> 8))
    (List.replicate 8 0, ticks)).1

/-- `s[i] ^= b`. The code does not check the index. -/
def xorAt (s : List UInt8) (i : ℕ) (b : UInt8) : Option (List UInt8) :=
  if i < s.length then some (s.set i (s.getD i 0 ^^^ b)) else none

/-- The variables of the loop over the key. -/
structure Pads where
  i : UInt8
  iKeyPad : List UInt8
  oKeyPad : List UInt8

/-- The loop over the key, for one index of 8 bits. -/
def padRound (key : List UInt8) (s : Pads) : Loop.Round Pads (Option Pads) :=
  if s.i.toNat < key.length then
    match xorAt s.iKeyPad s.i.toNat (key.getD s.i.toNat 0), xorAt s.oKeyPad s.i.toNat (key.getD s.i.toNat 0) with
    | some iKeyPad, some oKeyPad => .next ⟨s.i + 1, iKeyPad, oKeyPad⟩
    | _, _ => .done none
  else .done (some s)

/-- The pads of a key. -/
def keyPads (fuel : ℕ) (key : List UInt8) : Option (Option Pads) :=
  Loop.run (padRound key) fuel ⟨0, List.replicate 64 0x36, List.replicate 64 0x5C⟩

/-- A hash in hexadecimal is appended to a pad. -/
def appendHash (oKeyPad : List UInt8) (message : List Char) : Option (List UInt8) :=
  (List.range ((message.length + 1) / 2)).foldlM (fun pad i => do
    let digits ← substr message (2 * i) 2
    let byte ← stol digits
    pure (pad ++ [UInt8.ofNat byte])) oKeyPad

def AUTHENTICATOR_DIGITS : ℕ := 6

/-- The token of the second hash. -/
def tokenOfHash (message : List Char) : Option (List Char) := do
  let last ← substr message 39 1
  let offset ← stol last
  let offset := offset &&& 0xF
  let digits ← substr message (2 * offset) 8
  let hash ← stol digits
  let truncHash := hash &&& 0x7FFFFFFF
  let message := Nat.toDigits 10 truncHash
  let hashLen := message.length
  let message ← substr message (hashLen - min hashLen AUTHENTICATOR_DIGITS) hashLen
  pure (List.replicate (AUTHENTICATOR_DIGITS - min hashLen AUTHENTICATOR_DIGITS) '0' ++ message)

/-- `generateToken`. The two hashes are computed in blocks that hold anything before. -/
def generateToken (block₁ block₂ : Vector UInt8 64) (fuel : ℕ) (key : List UInt8) (ticks : UInt32) :
    Option (Option (List Char)) :=
  (keyPads fuel key).map fun pads => do
    let pads ← pads
    let message := transformToSHA1 block₁ (pads.iKeyPad ++ tokenMessage ticks)
    let oKeyPad ← appendHash pads.oKeyPad message
    tokenOfHash (transformToSHA1 block₂ oKeyPad)

/-! ## The message -/

theorem lowByte (x : UInt32) : (x &&& 0xFF).toUInt8 = UInt8.ofNat x.toNat := by
  have hmask (n : ℕ) : n &&& 255 = n % 256 := Nat.and_two_pow_sub_one_eq_mod n 8
  apply UInt8.toNat_inj.1
  simp [hmask]

/-- The message is the counter in 64 bits. -/
theorem tokenMessage_eq (ticks : UInt32) : tokenMessage ticks = Sha1.toBytes 8 ticks.toNat := by
  have hlt := ticks.toNat_lt
  have hshift (x : UInt32) : (x >>> 8).toNat = x.toNat / 256 := by
    simp [Nat.shiftRight_eq_div_pow]
  have hmessage : tokenMessage ticks = ([0, (ticks >>> 8 >>> 8 >>> 8 >>> 8 >>> 8 >>> 8 &&& 0xFF).toUInt8,
      (ticks >>> 8 >>> 8 >>> 8 >>> 8 >>> 8 &&& 0xFF).toUInt8, (ticks >>> 8 >>> 8 >>> 8 >>> 8 &&& 0xFF).toUInt8,
      (ticks >>> 8 >>> 8 >>> 8 &&& 0xFF).toUInt8, (ticks >>> 8 >>> 8 &&& 0xFF).toUInt8,
      (ticks >>> 8 &&& 0xFF).toUInt8, (ticks &&& 0xFF).toUInt8] : List UInt8) := rfl
  have hzero : (0 : UInt8) = UInt8.ofNat (ticks.toNat / 256 ^ 7) := by
    rw [Nat.div_eq_of_lt (hlt.trans (by decide))]
    rfl
  rw [hmessage, hzero]
  simp only [lowByte, hshift, Nat.div_div_eq_div_mul]
  simp [Sha1.toBytes, List.range_succ]

/-! ## The pads of a key -/

/-- The pad with a number of bytes of the key in it. -/
def keyPad (key : List UInt8) (c : UInt8) (n : ℕ) : List UInt8 :=
  (List.range 64).map fun j => if j < n then key.getD j 0 ^^^ c else c

theorem xorAt_keyPad {key : List UInt8} {n : ℕ} (hn : n < 64) (c : UInt8) :
    xorAt (keyPad key c n) n (key.getD n 0) = some (keyPad key c (n + 1)) := by
  have hlength : n < (keyPad key c n).length := by simpa [keyPad] using hn
  rw [xorAt, if_pos hlength]
  refine congrArg some (List.ext_getElem (by simp [keyPad]) fun j h₁ h₂ => ?_)
  have hj : j < 64 := by simpa [keyPad] using h₂
  by_cases hjn : n = j
  · subst hjn
    simp [keyPad, hj, UInt8.xor_comm]
  · rw [List.getElem_set_ne hjn]
    simp only [keyPad, List.getElem_map, List.getElem_range]
    by_cases hlt : j < n
    · rw [if_pos hlt, if_pos (by omega)]
    · rw [if_neg hlt, if_neg (by omega)]

theorem xorAt_keyPad_of_le {key : List UInt8} {n : ℕ} (hn : 64 ≤ n) (c b : UInt8) :
    xorAt (keyPad key c n) n b = none := by
  rw [xorAt, if_neg]
  simpa [keyPad] using hn

/-- A short key is in its pad. -/
theorem keyPad_length {key : List UInt8} (hkey : key.length ≤ 64) (c : UInt8) :
    keyPad key c key.length = (Sha1.blockKey key).map (· ^^^ c) := by
  have hblock : Sha1.blockKey key = key ++ List.replicate (64 - key.length) 0 := by
    simp only [Sha1.blockKey, if_neg (show ¬ 64 < key.length by omega)]
  rw [hblock]
  refine List.ext_getElem (by simp [keyPad]; omega) fun j h₁ h₂ => ?_
  simp only [keyPad, List.getElem_map, List.getElem_range, List.getElem_append]
  by_cases hj : j < key.length
  · rw [if_pos hj, dif_pos hj, List.getD_eq_getElem _ _ hj]
  · rw [if_neg hj, dif_neg hj, List.getElem_replicate, UInt8.zero_xor]

/-- The loop over the key ends: with the pads of a key of at most 64 bytes, and out of range for a
longer one. -/
theorem keyPads_total (key : List UInt8) :
    ∃ r fuel, (∀ fuel', fuel ≤ fuel' → keyPads fuel' key = some r) ∧
      r.map (fun s => (s.iKeyPad, s.oKeyPad)) =
        if key.length ≤ 64 then some (keyPad key 0x36 key.length, keyPad key 0x5C key.length) else none := by
  refine Loop.total (fun s : Pads => 64 - s.i.toNat)
    (P := fun s => s.i.toNat ≤ key.length ∧ s.i.toNat ≤ 64 ∧ s.iKeyPad = keyPad key 0x36 s.i.toNat ∧
      s.oKeyPad = keyPad key 0x5C s.i.toNat) ?_ ?_ ⟨Nat.zero_le _, Nat.zero_le _, rfl, rfl⟩
  · rintro s s' ⟨hkey, hle, hi, ho⟩ hround
    rw [padRound] at hround
    by_cases hlt : s.i.toNat < key.length
    · rw [if_pos hlt, hi, ho] at hround
      by_cases h64 : s.i.toNat < 64
      · rw [xorAt_keyPad h64, xorAt_keyPad h64] at hround
        cases hround
        have hsucc : (s.i + 1).toNat = s.i.toNat + 1 := by
          rw [UInt8.toNat_add]
          exact Nat.mod_eq_of_lt (by show s.i.toNat + 1 < 2 ^ 8; omega)
        exact ⟨⟨by rw [hsucc]; exact hlt, by rw [hsucc]; exact h64, by rw [hsucc], by rw [hsucc]⟩,
          by rw [hsucc]; omega⟩
      · rw [xorAt_keyPad_of_le (by omega)] at hround
        cases hround
    · rw [if_neg hlt] at hround
      cases hround
  · rintro s r ⟨hkey, hle, hi, ho⟩ hround
    rw [padRound] at hround
    by_cases hlt : s.i.toNat < key.length
    · rw [if_pos hlt, hi, ho] at hround
      by_cases h64 : s.i.toNat < 64
      · rw [xorAt_keyPad h64, xorAt_keyPad h64] at hround
        cases hround
      · rw [xorAt_keyPad_of_le (by omega)] at hround
        cases hround
        rw [if_neg (by omega)]
        rfl
    · rw [if_neg hlt] at hround
      cases hround
      rw [if_pos (by omega), show key.length = s.i.toNat by omega, ← hi, ← ho]
      rfl

/-! ## Hashes in hexadecimal -/

theorem hex_append (l l' : List UInt8) : Sha1.hex (l ++ l') = Sha1.hex l ++ Sha1.hex l' := by
  rw [Sha1.hex, List.flatMap_append, ← Sha1.hex, ← Sha1.hex]

theorem length_hex (l : List UInt8) : (Sha1.hex l).length = 2 * l.length := by
  induction l with
  | nil => rfl
  | cons b l ih =>
    rw [← List.singleton_append, hex_append, List.length_append, ih, List.length_append, List.length_singleton]
    simp [Sha1.hex]
    omega

/-- A part of a hash, in hexadecimal. -/
theorem substr_hex {l : List UInt8} {i : ℕ} (n : ℕ) (hi : i ≤ l.length) :
    substr (Sha1.hex l) (2 * i) (2 * n) = some (Sha1.hex ((l.drop i).take n)) := by
  rw [substr, if_pos (by rw [length_hex]; omega)]
  congr 1
  have hdrop : (Sha1.hex l).drop (2 * i) = Sha1.hex (l.drop i) := by
    conv_lhs => rw [← List.take_append_drop i l, hex_append]
    exact List.drop_left' (by rw [length_hex, List.length_take]; omega)
  have htake (l : List UInt8) : (Sha1.hex l).take (2 * n) = Sha1.hex (l.take n) := by
    by_cases hn : n ≤ l.length
    · conv_lhs => rw [← List.take_append_drop n l, hex_append]
      exact List.take_left' (by rw [length_hex, List.length_take]; omega)
    · rw [List.take_of_length_le (by rw [length_hex]; omega), List.take_of_length_le (by omega)]
  rw [hdrop, htake]

theorem hexValue_digitChar {d : ℕ} (hd : d < 16) : hexValue (Nat.digitChar d) = some d := by
  interval_cases d <;> rfl

theorem stolDigits_hex (n : ℕ) (l : List UInt8) :
    stolDigits n (Sha1.hex l) = l.foldl (fun x b => 256 * x + b.toNat) n := by
  induction l generalizing n with
  | nil => rfl
  | cons b l ih =>
    have hb := b.toNat_lt
    have hcons : Sha1.hex (b :: l) = Nat.digitChar (b.toNat / 16) :: Nat.digitChar (b.toNat % 16) :: Sha1.hex l := rfl
    rw [hcons, stolDigits, hexValue_digitChar (by omega)]
    show stolDigits (16 * n + b.toNat / 16) (Nat.digitChar (b.toNat % 16) :: Sha1.hex l) = _
    rw [stolDigits, hexValue_digitChar (by omega)]
    show stolDigits (16 * (16 * n + b.toNat / 16) + b.toNat % 16) (Sha1.hex l) = _
    rw [ih, List.foldl_cons]
    congr 1
    omega

/-- The number of some bytes, read in hexadecimal. -/
theorem stol_hex {l : List UInt8} (hl : l ≠ []) : stol (Sha1.hex l) = some (Sha1.ofBytes l) := by
  obtain ⟨b, l, rfl⟩ := List.exists_cons_of_ne_nil hl
  have hb := b.toNat_lt
  have hhead : ((Sha1.hex (b :: l)).head?).bind hexValue = some (b.toNat / 16) :=
    hexValue_digitChar (by omega)
  rw [stol, hhead, if_pos Option.isSome_some, stolDigits_hex, Sha1.ofBytes]

theorem stol_digit {d : ℕ} (hd : d < 16) : stol [Nat.digitChar d] = some d := by
  simp [stol, stolDigits, hexValue_digitChar hd]

/-- The bytes of a hash are read back. -/
theorem appendHash_hex (pad l : List UInt8) : appendHash pad (Sha1.hex l) = some (pad ++ l) := by
  have hread (n : ℕ) (hn : n ≤ l.length) : (List.range n).foldlM (fun pad i => do
      let digits ← substr (Sha1.hex l) (2 * i) 2
      let byte ← stol digits
      pure (pad ++ [UInt8.ofNat byte])) pad = some (pad ++ l.take n) := by
    induction n with
    | zero => simp
    | succ n ih =>
      have hdigits : substr (Sha1.hex l) (2 * n) 2 = some (Sha1.hex [l[n]]) := by
        have hsubstr := substr_hex (l := l) (i := n) 1 (by omega)
        rwa [Nat.mul_one, List.drop_eq_getElem_cons (by omega), List.take_succ_cons, List.take_zero] at hsubstr
      have hbyte : stol (Sha1.hex [l[n]]) = some (l[n]).toNat := by
        rw [stol_hex (List.cons_ne_nil _ _)]
        simp [Sha1.ofBytes]
      rw [List.range_succ, List.foldlM_append, ih (by omega)]
      simp only [List.foldlM_cons, List.foldlM_nil, Option.bind_eq_bind, Option.bind_some, Option.pure_def, hdigits,
        hbyte, UInt8.ofNat_toNat]
      rw [List.take_succ_eq_append_getElem (show n < l.length by omega), List.append_assoc]
  have hhalf : ((Sha1.hex l).length + 1) / 2 = l.length := by rw [length_hex]; omega
  rw [appendHash, hhalf, hread l.length le_rfl, List.take_length]

/-! ## The digits of the token -/

theorem decimal_succ (n x : ℕ) : Sha1.decimal (n + 1) x = Sha1.decimal n (x / 10) ++ [Nat.digitChar (x % 10)] := by
  rw [Sha1.decimal, List.range_succ, List.map_append, List.map_singleton, Sha1.decimal]
  congr 1
  · refine List.map_congr_left fun i hi => ?_
    rw [List.mem_range] at hi
    rw [Nat.div_div_eq_div_mul, ← pow_succ', show n - 1 - i + 1 = n + 1 - 1 - i by omega]
  · rw [show n + 1 - 1 - n = 0 by omega, pow_zero, Nat.div_one]

/-- The last digits of a number, with zeros before a number of fewer digits. -/
theorem cut_toDigits (n x : ℕ) : List.replicate (n - (Nat.toDigits 10 x).length) '0' ++
      (Nat.toDigits 10 x).drop ((Nat.toDigits 10 x).length - n) = Sha1.decimal n x := by
  have hzero (n : ℕ) : Sha1.decimal n 0 = List.replicate n '0' := by
    rw [Sha1.decimal]
    refine List.eq_replicate_iff.2 ⟨by simp, fun c hc => ?_⟩
    obtain ⟨i, -, rfl⟩ := List.mem_map.1 hc
    rw [Nat.zero_div]
    rfl
  induction n generalizing x with
  | zero => simp [Sha1.decimal]
  | succ n ih =>
    rw [decimal_succ]
    by_cases hx : x < 10
    · rw [Nat.toDigits_of_lt_base hx, Nat.div_eq_of_lt hx, Nat.mod_eq_of_lt hx, hzero]
      simp
    · have hdigits := Nat.toDigits_of_base_le (b := 10) (by decide) (show 10 ≤ x by omega)
      rw [hdigits, ← ih, List.length_append, List.length_singleton, Nat.add_sub_add_right, Nat.add_sub_add_right,
        List.drop_append_of_le_length (Nat.sub_le _ _), List.append_assoc]

/-- The last digits of a number are not changed by what is before them. -/
theorem decimal_mod (x : ℕ) : Sha1.decimal 6 (x % 10 ^ 6) = Sha1.decimal 6 x := by
  refine List.map_congr_left fun i hi => ?_
  rw [List.mem_range] at hi
  congr 1
  interval_cases i <;> simp only [Nat.add_one_sub_one, Nat.sub_zero, Nat.reducePow, Nat.reduceSub] <;> omega

theorem tokenOfHash_hex {hash : List UInt8} (hhash : hash.length = 20) :
    tokenOfHash (Sha1.hex hash) = some (Sha1.decimal 6 (Sha1.truncate hash % 10 ^ 6)) := by
  have hlast : substr (Sha1.hex hash) 39 1 = some [Nat.digitChar ((hash.getD 19 0).toNat % 16)] := by
    have hsplit : hash = hash.take 19 ++ [hash.getD 19 0] := by
      rw [List.getD_eq_getElem _ _ (by omega), ← List.take_succ_eq_append_getElem (by omega),
        List.take_of_length_le (by omega)]
    have hfirst : (Sha1.hex (hash.take 19)).length = 38 := by rw [length_hex, List.length_take]; omega
    rw [substr, if_pos (by rw [length_hex]; omega)]
    conv_lhs => rw [hsplit, hex_append]
    rw [List.drop_append, hfirst, List.drop_of_length_le (by omega)]
    rfl
  have hoffset := stol_digit (Nat.mod_lt (hash.getD 19 0).toNat (by decide : 0 < 16))
  have hmask : (hash.getD 19 0).toNat % 16 &&& 0xF = (hash.getD 19 0).toNat % 16 := by
    rw [show (0xF : ℕ) = 2 ^ 4 - 1 from rfl, Nat.and_two_pow_sub_one_eq_mod]
    exact Nat.mod_mod _ _
  have hdigits := substr_hex (l := hash) (i := (hash.getD 19 0).toNat % 16) 4 (by omega)
  have hnumber : stol (Sha1.hex ((hash.drop ((hash.getD 19 0).toNat % 16)).take 4)) =
      some (Sha1.ofBytes ((hash.drop ((hash.getD 19 0).toNat % 16)).take 4)) := by
    refine stol_hex (List.ne_nil_of_length_pos ?_)
    rw [List.length_take, List.length_drop]
    omega
  have htrunc : Sha1.ofBytes ((hash.drop ((hash.getD 19 0).toNat % 16)).take 4) &&& 0x7FFFFFFF =
      Sha1.truncate hash := Nat.and_two_pow_sub_one_eq_mod _ 31
  have hcut (n : ℕ) : 6 - min n 6 = 6 - n ∧ n - min n 6 = n - 6 := by omega
  rw [decimal_mod, ← cut_toDigits, tokenOfHash, hlast]
  simp only [Option.bind_eq_bind, Option.bind_some, hoffset, hmask]
  rw [show (8 : ℕ) = 2 * 4 from rfl, hdigits]
  simp only [Option.bind_some, hnumber, htrunc, AUTHENTICATOR_DIGITS]
  rw [substr, if_pos (Nat.sub_le _ _)]
  simp only [Option.bind_some, Option.pure_def]
  rw [List.take_of_length_le (by rw [List.length_drop]; omega), (hcut _).1, (hcut _).2]

/-! ## The token of a key -/

/-- The token of a key that fits into the pads. -/
theorem generateToken_short (block₁ block₂ : Vector UInt8 64) {key : List UInt8} (hkey : key.length ≤ 64)
    (ticks : UInt32) : ∃ fuel, ∀ fuel', fuel ≤ fuel' →
      generateToken block₁ block₂ fuel' key ticks = some (some (Sha1.hotp key ticks.toNat)) := by
  obtain ⟨r, fuel, hrun, hr⟩ := keyPads_total key
  rw [if_pos hkey, Option.map_eq_some_iff] at hr
  obtain ⟨pads, rfl, hpads⟩ := hr
  obtain ⟨hi, ho⟩ := Prod.mk.inj hpads
  refine ⟨fuel, fun fuel' hle => ?_⟩
  rw [generateToken, hrun fuel' hle]
  simp only [Option.map_some, Option.bind_eq_bind, Option.bind_some, hi, ho, keyPad_length hkey, tokenMessage_eq,
    transformToSHA1_eq_hex, appendHash_hex, tokenOfHash_hex (Sha1.length_sha1 _)]
  rfl

/-- A longer key is written past the ends of the pads. -/
theorem generateToken_long (block₁ block₂ : Vector UInt8 64) {key : List UInt8} (hkey : 64 < key.length)
    (ticks : UInt32) : ∃ fuel, ∀ fuel', fuel ≤ fuel' → generateToken block₁ block₂ fuel' key ticks = some none := by
  obtain ⟨r, fuel, hrun, hr⟩ := keyPads_total key
  rw [if_neg (by omega), Option.map_eq_none_iff] at hr
  subst hr
  refine ⟨fuel, fun fuel' hle => ?_⟩
  rw [generateToken, hrun fuel' hle]
  rfl

/-- **The token is the code of the counter if and only if the key has at most 64 bytes.** -/
theorem generateToken_eq_hotp_iff (block₁ block₂ : Vector UInt8 64) (key : List UInt8) (ticks : UInt32) :
    (∃ fuel, ∀ fuel', fuel ≤ fuel' →
      generateToken block₁ block₂ fuel' key ticks = some (some (Sha1.hotp key ticks.toNat))) ↔
      key.length ≤ 64 := by
  refine ⟨?_, fun hkey => generateToken_short block₁ block₂ hkey ticks⟩
  rintro ⟨fuel, hrun⟩
  by_contra hkey
  obtain ⟨fuel', hlong⟩ := generateToken_long block₁ block₂ (not_le.1 hkey) ticks
  have h := (hrun (max fuel fuel') (le_max_left _ _)).symm.trans (hlong (max fuel fuel') (le_max_right _ _))
  cases h

/-- A key of 65 bytes is written past the ends of the pads. -/
theorem not_hotp_long :
    ¬ ∀ (block₁ block₂ : Vector UInt8 64) (key : List UInt8) (ticks : UInt32), ∃ fuel, ∀ fuel', fuel ≤ fuel' →
      generateToken block₁ block₂ fuel' key ticks = some (some (Sha1.hotp key ticks.toNat)) := by
  intro h
  obtain ⟨fuel, hrun⟩ := h (Vector.replicate 64 0) (Vector.replicate 64 0) (List.replicate 65 65) 1
  obtain ⟨fuel', hlong⟩ := generateToken_long (Vector.replicate 64 0) (Vector.replicate 64 0)
    (show 64 < (List.replicate 65 (65 : UInt8)).length by rw [List.length_replicate]; decide) 1
  have h := (hrun (max fuel fuel') (le_max_left _ _)).symm.trans (hlong (max fuel fuel') (le_max_right _ _))
  cases h

example : generateToken (Vector.replicate 64 0) (Vector.replicate 64 0) 65
    [49, 50, 51, 52, 53, 54, 55, 56, 57, 48, 49, 50, 51, 52, 53, 54, 55, 56, 57, 48] 1 =
      some (some "287082".toList) := by decide +kernel

end TiabloServer.Tools
