import Mathlib

/-!
# Reading base64

`RSA::base64Decrypt` (`security/rsa.cpp`) reads a string in groups of four characters. It may read
the character after the last one, which is NUL, and none beyond.

## Main definitions

* `Base64.base64Decrypt` — the function of the source, without a result where it reads beyond the
  string.
* `Base64.Encodes` — the padded texts of a string of bytes.

## Main results

* `Base64.decryptFrom_encodes` — the groups of a text give its bytes.
* `Base64.decryptFrom_isSome_iff` — the strings that are read without going beyond their end.
* `Base64.base64Decrypt_iff` — both, of whole strings.
-/

namespace TiabloServer.Base64

/-! ## The function of the source -/

/-- The lambda `posOfCharacter`. -/
def posOfCharacter (chr : UInt8) : ℕ :=
  let chr := chr.toNat
  if 'A'.toNat ≤ chr ∧ chr ≤ 'Z'.toNat then chr - 'A'.toNat
  else if 'a'.toNat ≤ chr ∧ chr ≤ 'z'.toNat then chr - 'a'.toNat + ('Z'.toNat - 'A'.toNat) + 1
  else if '0'.toNat ≤ chr ∧ chr ≤ '9'.toNat then
    chr - '0'.toNat + ('Z'.toNat - 'A'.toNat) + ('z'.toNat - 'a'.toNat) + 2
  else if chr = '+'.toNat ∨ chr = '-'.toNat then 62
  else if chr = '/'.toNat ∨ chr = '_'.toNat then 63
  else 0

def isPadding (chr : UInt8) : Prop := chr.toNat = '='.toNat ∨ chr.toNat = '.'.toNat

instance (chr : UInt8) : Decidable (isPadding chr) := inferInstanceAs (Decidable (_ ∨ _))

/-- `input[i]`: the character after the last is NUL, and there are none beyond. -/
def charAt (input : List UInt8) (i : ℕ) : Option UInt8 := (input ++ [0])[i]?

def firstByte (chr chr1 : UInt8) : UInt8 :=
  UInt8.ofNat ((posOfCharacter chr <<< 2) + ((posOfCharacter chr1 &&& 0x30) >>> 4))

def secondByte (chr1 chr2 : UInt8) : UInt8 :=
  UInt8.ofNat (((posOfCharacter chr1 &&& 0x0f) <<< 4) + ((posOfCharacter chr2 &&& 0x3c) >>> 2))

def thirdByte (chr2 chr3 : UInt8) : UInt8 :=
  UInt8.ofNat (((posOfCharacter chr2 &&& 0x03) <<< 6) + posOfCharacter chr3)

/-- The bytes of the group at `pos`. -/
def group (input : List UInt8) (pos : ℕ) : Option (List UInt8) := do
  let chr1 ← charAt input (pos + 1)
  let chr ← charAt input pos
  let chr2 ← charAt input (pos + 2)
  if isPadding chr2 then return [firstByte chr chr1]
  let chr3 ← charAt input (pos + 3)
  if isPadding chr3 then return [firstByte chr chr1, secondByte chr1 chr2]
  return [firstByte chr chr1, secondByte chr1 chr2, thirdByte chr2 chr3]

/-- The loop over the groups. -/
def decryptFrom (input : List UInt8) (pos : ℕ) (output : List UInt8) : Option (List UInt8) :=
  if pos < input.length then
    match group input pos with
    | none => none
    | some bytes => decryptFrom input (pos + 4) (output ++ bytes)
  else some output
termination_by input.length - pos

def base64Decrypt (input : List UInt8) : Option (List UInt8) :=
  if input.isEmpty then some [] else decryptFrom input 0 []

/-! ## Base64 -/

def lettersAndDigits : List Char :=
  ['A', 'B', 'C', 'D', 'E', 'F', 'G', 'H', 'I', 'J', 'K', 'L', 'M', 'N', 'O', 'P', 'Q', 'R', 'S', 'T', 'U',
   'V', 'W', 'X', 'Y', 'Z', 'a', 'b', 'c', 'd', 'e', 'f', 'g', 'h', 'i', 'j', 'k', 'l', 'm', 'n', 'o', 'p',
   'q', 'r', 's', 't', 'u', 'v', 'w', 'x', 'y', 'z', '0', '1', '2', '3', '4', '5', '6', '7', '8', '9']

def standardAlphabet : List Char := lettersAndDigits ++ ['+', '/']

def urlAlphabet : List Char := lettersAndDigits ++ ['-', '_']

/-- A character stands for six bits in one of the alphabets. -/
def Letter (chr : UInt8) (bits : ℕ) : Prop :=
  ∃ c, (standardAlphabet[bits]? = some c ∨ urlAlphabet[bits]? = some c) ∧ chr.toNat = c.toNat

/-- The padded texts of bytes, whose letters and paddings may be of either kind at each place. -/
inductive Encodes : List UInt8 → List UInt8 → Prop
  | nil : Encodes [] []
  | one {a : UInt8} {c₀ c₁ c₂ c₃ : UInt8} (h₀ : Letter c₀ (a.toNat / 4)) (h₁ : Letter c₁ (a.toNat % 4 * 16))
      (h₂ : isPadding c₂) (h₃ : isPadding c₃) : Encodes [a] [c₀, c₁, c₂, c₃]
  | two {a b : UInt8} {c₀ c₁ c₂ c₃ : UInt8} (h₀ : Letter c₀ (a.toNat / 4))
      (h₁ : Letter c₁ (a.toNat % 4 * 16 + b.toNat / 16)) (h₂ : Letter c₂ (b.toNat % 16 * 4))
      (h₃ : isPadding c₃) : Encodes [a, b] [c₀, c₁, c₂, c₃]
  | three {a b c : UInt8} {bytes text : List UInt8} {c₀ c₁ c₂ c₃ : UInt8} (h₀ : Letter c₀ (a.toNat / 4))
      (h₁ : Letter c₁ (a.toNat % 4 * 16 + b.toNat / 16)) (h₂ : Letter c₂ (b.toNat % 16 * 4 + c.toNat / 64))
      (h₃ : Letter c₃ (c.toNat % 64)) (h : Encodes bytes text) :
      Encodes (a :: b :: c :: bytes) (c₀ :: c₁ :: c₂ :: c₃ :: text)

/-- A character is the letter of a number, for the function of the source. -/
def readsAs (c : Char) (bits : ℕ) : Bool :=
  decide (posOfCharacter (UInt8.ofNat c.toNat) = bits) && decide (¬ isPadding (UInt8.ofNat c.toNat))

theorem readsAs_standard : standardAlphabet.zipIdx.all (fun p => readsAs p.1 p.2) = true := by decide

theorem readsAs_url : urlAlphabet.zipIdx.all (fun p => readsAs p.1 p.2) = true := by decide

theorem Letter.spec {chr : UInt8} {bits : ℕ} (h : Letter chr bits) :
    bits < 64 ∧ posOfCharacter chr = bits ∧ ¬ isPadding chr := by
  obtain ⟨c, hc, hchr⟩ := h
  have hspec : bits < 64 ∧ readsAs c bits = true := by
    rcases hc with hc | hc
    · have hlt : bits < standardAlphabet.length := (List.getElem?_eq_some_iff.1 hc).1
      exact ⟨hlt, List.all_eq_true.1 readsAs_standard (c, bits) (List.mem_zipIdx_iff_getElem?.2 hc)⟩
    · have hlt : bits < urlAlphabet.length := (List.getElem?_eq_some_iff.1 hc).1
      exact ⟨hlt, List.all_eq_true.1 readsAs_url (c, bits) (List.mem_zipIdx_iff_getElem?.2 hc)⟩
  have heq : UInt8.ofNat c.toNat = chr := by rw [← hchr, UInt8.ofNat_toNat]
  have hreads := hspec.2
  simp only [readsAs, heq, Bool.and_eq_true, decide_eq_true_eq] at hreads
  exact ⟨hspec.1, hreads.1, hreads.2⟩

/-! ## Groups -/

theorem high_bits : ∀ p < 64, (p &&& 0x30) >>> 4 = p / 16 := by decide

theorem low_bits : ∀ p < 64, (p &&& 0x0f) <<< 4 = p % 16 * 16 := by decide

theorem high_bits' : ∀ p < 64, (p &&& 0x3c) >>> 2 = p / 4 := by decide

theorem low_bits' : ∀ p < 64, (p &&& 0x03) <<< 6 = p % 4 * 64 := by decide

theorem ofNat_eq {a : UInt8} {n : ℕ} (h : n % 256 = a.toNat) : UInt8.ofNat n = a := by
  rw [← UInt8.toNat_inj, UInt8.toNat_ofNat', h]

theorem charAt_append (text : List UInt8) (before : List UInt8) (i : ℕ) :
    charAt (before ++ text) (before.length + i) = charAt text i := by
  rw [charAt, charAt, List.append_assoc, List.getElem?_append_right (Nat.le_add_right ..), Nat.add_sub_cancel_left]

theorem group_append (text : List UInt8) (before : List UInt8) :
    group (before ++ text) before.length = group text 0 := by
  have h0 := charAt_append text before 0
  rw [Nat.add_zero] at h0
  simp only [group, charAt_append, h0, Nat.zero_add]

/-- The first byte of a group. -/
theorem first_byte {a : UInt8} {c₀ c₁ : UInt8} (low : ℕ) (h₀ : Letter c₀ (a.toNat / 4))
    (h₁ : Letter c₁ (a.toNat % 4 * 16 + low)) (hlow : low < 16) : firstByte c₀ c₁ = a := by
  obtain ⟨hlt₁, hpos₁, -⟩ := h₁.spec
  obtain ⟨-, hpos₀, -⟩ := h₀.spec
  have ha := a.toNat_lt
  rw [firstByte, hpos₀, hpos₁, high_bits _ hlt₁, Nat.shiftLeft_eq]
  exact ofNat_eq (by omega)

/-- The second byte of a group. -/
theorem second_byte {b : UInt8} {c₁ c₂ : UInt8} {high : ℕ} (low : ℕ) (h₁ : Letter c₁ (high * 16 + b.toNat / 16))
    (h₂ : Letter c₂ (b.toNat % 16 * 4 + low)) (hlow : low < 4) : secondByte c₁ c₂ = b := by
  obtain ⟨hlt₁, hpos₁, -⟩ := h₁.spec
  obtain ⟨hlt₂, hpos₂, -⟩ := h₂.spec
  have hb := b.toNat_lt
  rw [secondByte, hpos₁, hpos₂, low_bits _ hlt₁, high_bits' _ hlt₂]
  exact ofNat_eq (by omega)

/-- The third byte of a group. -/
theorem third_byte {c : UInt8} {c₂ c₃ : UInt8} {high : ℕ} (h₂ : Letter c₂ (high * 4 + c.toNat / 64))
    (h₃ : Letter c₃ (c.toNat % 64)) : thirdByte c₂ c₃ = c := by
  obtain ⟨hlt₂, hpos₂, -⟩ := h₂.spec
  obtain ⟨-, hpos₃, -⟩ := h₃.spec
  have hc := c.toNat_lt
  rw [thirdByte, hpos₂, hpos₃, low_bits' _ hlt₂]
  exact ofNat_eq (by omega)

theorem group_one {a c₀ c₁ c₂ : UInt8} {text : List UInt8} (h₀ : Letter c₀ (a.toNat / 4))
    (h₁ : Letter c₁ (a.toNat % 4 * 16)) (h₂ : isPadding c₂) : group (c₀ :: c₁ :: c₂ :: text) 0 = some [a] := by
  have hfirst := first_byte 0 h₀ h₁ (by decide)
  simp [group, charAt, h₂, hfirst]

theorem group_two {a b c₀ c₁ c₂ c₃ : UInt8} {text : List UInt8} (h₀ : Letter c₀ (a.toNat / 4))
    (h₁ : Letter c₁ (a.toNat % 4 * 16 + b.toNat / 16)) (h₂ : Letter c₂ (b.toNat % 16 * 4)) (h₃ : isPadding c₃) :
    group (c₀ :: c₁ :: c₂ :: c₃ :: text) 0 = some [a, b] := by
  have hb := b.toNat_lt
  have hfirst := first_byte _ h₀ h₁ (by omega)
  have hsecond := second_byte 0 h₁ h₂ (by decide)
  simp [group, charAt, h₂.spec.2.2, h₃, hfirst, hsecond]

theorem group_three {a b c c₀ c₁ c₂ c₃ : UInt8} {text : List UInt8} (h₀ : Letter c₀ (a.toNat / 4))
    (h₁ : Letter c₁ (a.toNat % 4 * 16 + b.toNat / 16)) (h₂ : Letter c₂ (b.toNat % 16 * 4 + c.toNat / 64))
    (h₃ : Letter c₃ (c.toNat % 64)) : group (c₀ :: c₁ :: c₂ :: c₃ :: text) 0 = some [a, b, c] := by
  have hb := b.toNat_lt
  have hc := c.toNat_lt
  have hfirst := first_byte _ h₀ h₁ (by omega)
  have hsecond := second_byte _ h₁ h₂ (by omega)
  have hthird := third_byte h₂ h₃
  simp [group, charAt, h₂.spec.2.2, h₃.spec.2.2, hfirst, hsecond, hthird]

/-- A group can be read when three of its characters are there. -/
theorem group_isSome_iff {input : List UInt8} {pos : ℕ} (h : pos < input.length) :
    (group input pos).isSome = true ↔ pos + 3 ≤ input.length := by
  have hin {i : ℕ} (hi : i ≤ input.length) : ∃ c, charAt input i = some c := by
    refine ⟨_, List.getElem?_eq_getElem ?_⟩
    rw [List.length_append, List.length_singleton]
    omega
  have hout {i : ℕ} (hi : input.length < i) : charAt input i = none := by
    refine List.getElem?_eq_none ?_
    rw [List.length_append, List.length_singleton]
    omega
  obtain ⟨c₀, hc₀⟩ := hin h.le
  obtain ⟨c₁, hc₁⟩ := hin (i := pos + 1) (by omega)
  by_cases h2 : pos + 2 ≤ input.length
  · obtain ⟨c₂, hc₂⟩ := hin h2
    by_cases h3 : pos + 3 ≤ input.length
    · obtain ⟨c₃, hc₃⟩ := hin h3
      refine iff_of_true ?_ h3
      by_cases hpad : isPadding c₂
      · simp [group, hc₀, hc₁, hc₂, hpad]
      · by_cases hpad' : isPadding c₃
        · simp [group, hc₀, hc₁, hc₂, hc₃, hpad, hpad']
        · simp [group, hc₀, hc₁, hc₂, hc₃, hpad, hpad']
    · refine iff_of_false ?_ h3
      have hlast : charAt input (pos + 2) = some 0 := by
        have heq : pos + 2 = input.length := by omega
        rw [charAt, heq, List.getElem?_append_right le_rfl, Nat.sub_self]
        rfl
      have hnul : ¬ isPadding 0 := by decide
      simp [group, hc₀, hc₁, hlast, hnul, hout (i := pos + 3) (by omega)]
  · refine iff_of_false ?_ (by omega)
    simp [group, hc₀, hc₁, hout (i := pos + 2) (by omega)]

/-! ## The loop -/

theorem decryptFrom_of_group {input : List UInt8} {pos : ℕ} {bytes : List UInt8} (hpos : pos < input.length)
    (h : group input pos = some bytes) (output : List UInt8) :
    decryptFrom input pos output = decryptFrom input (pos + 4) (output ++ bytes) := by
  rw [decryptFrom, if_pos hpos, h]

theorem decryptFrom_end {input : List UInt8} {pos : ℕ} (hpos : ¬ pos < input.length) (output : List UInt8) :
    decryptFrom input pos output = some output := by
  rw [decryptFrom, if_neg hpos]

/-- **A padded text** is read back, wherever it stands. -/
theorem decryptFrom_encodes {bytes text : List UInt8} (h : Encodes bytes text) (before output : List UInt8) :
    decryptFrom (before ++ text) before.length output = some (output ++ bytes) := by
  induction h generalizing before output with
  | nil => rw [decryptFrom_end (by simp), List.append_nil]
  | one h₀ h₁ h₂ h₃ =>
    rw [decryptFrom_of_group (by simp) ((group_append ..).trans (group_one h₀ h₁ h₂)), decryptFrom_end (by simp)]
  | two h₀ h₁ h₂ h₃ =>
    rw [decryptFrom_of_group (by simp) ((group_append ..).trans (group_two h₀ h₁ h₂ h₃)), decryptFrom_end (by simp)]
  | @three a b c bytes text c₀ c₁ c₂ c₃ h₀ h₁ h₂ h₃ h ih =>
    rw [decryptFrom_of_group (by simp) ((group_append ..).trans (group_three h₀ h₁ h₂ h₃))]
    have hrest := ih (before ++ [c₀, c₁, c₂, c₃]) (output ++ [a, b, c])
    simpa using hrest

/-- **The strings that are read** without going beyond their end. -/
theorem decryptFrom_isSome_iff (input : List UInt8) (pos : ℕ) (output : List UInt8) (hpos : pos % 4 = 0) :
    (decryptFrom input pos output).isSome = true ↔
      input.length ≤ pos ∨ input.length % 4 = 0 ∨ input.length % 4 = 3 := by
  induction pos, output using decryptFrom.induct input with
  | case1 pos output hlt hnone =>
    have hshort : ¬ pos + 3 ≤ input.length := by
      rw [← group_isSome_iff hlt, hnone]
      simp
    rw [decryptFrom, if_pos hlt, hnone]
    refine iff_of_false (by simp) ?_
    omega
  | case2 pos output hlt bytes hsome ih =>
    have hlong : pos + 3 ≤ input.length := by
      rw [← group_isSome_iff hlt, hsome]
      rfl
    rw [decryptFrom_of_group hlt hsome, ih (by omega)]
    omega
  | case3 pos output hge =>
    rw [decryptFrom_end hge]
    exact iff_of_true rfl (.inl (not_lt.1 hge))

/-- **Base64 is read back**, and a string is read without going beyond its end exactly when its
length is not one or two more than a multiple of four. -/
theorem base64Decrypt_iff (input : List UInt8) :
    (∀ bytes, Encodes bytes input → base64Decrypt input = some bytes) ∧
      ((base64Decrypt input).isSome = true ↔ input.length % 4 ≠ 1 ∧ input.length % 4 ≠ 2) := by
  have hloop : base64Decrypt input = decryptFrom input 0 [] := by
    rw [base64Decrypt]
    split_ifs with hempty
    · rw [List.isEmpty_iff.1 hempty, decryptFrom_end (by simp)]
    · rfl
  constructor
  · intro bytes h
    rw [hloop]
    exact decryptFrom_encodes h [] []
  · rw [hloop, decryptFrom_isSome_iff input 0 [] rfl, Nat.le_zero]
    omega

/-- The letters `Ma` in base 64. -/
theorem base64Decrypt_iff_two : base64Decrypt [84, 87, 69, 61] = some [77, 97] :=
  (base64Decrypt_iff [84, 87, 69, 61]).1 [77, 97]
    (.two ⟨'T', by decide, rfl⟩ ⟨'W', by decide, rfl⟩ ⟨'E', by decide, rfl⟩ (by decide))

/-- Of a group of which only two letters are there, the character after the NUL is read. -/
theorem not_base64Decrypt_twoLetters : ¬ (base64Decrypt [65, 65]).isSome = true := by
  rw [base64Decrypt, if_neg (by decide), decryptFrom_isSome_iff [65, 65] 0 [] rfl]
  decide

end TiabloServer.Base64
