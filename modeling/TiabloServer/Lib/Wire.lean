import Mathlib

/-!
# Streams of bytes

Readers take a value from the front of a stream, or fail. This file has numbers in little-endian
bytes, repeated values, and loops that take one field after the other from a stream and change a
state with each.

## Main definitions

* `Wire.Reads` — a reader takes bytes from the front of every stream and returns a value.
* `Wire.Takes` — a loop takes bytes from the front of every stream and changes its state.

## Main results

* `Wire.ofLE_leBytes` — the bytes of a number are the number, up to the bytes there are.
* `Wire.Takes.append`, `Wire.Takes.ite` — how loops take what is written in parts.
-/

namespace Wire

/-! ## Numbers -/

/-- The lowest `n` bytes of a number, the lowest first. -/
def leBytes : ℕ → ℕ → List UInt8
  | 0, _ => []
  | n + 1, x => UInt8.ofNat x :: leBytes n (x / 256)

/-- The number with these bytes, the lowest first. -/
def ofLE : List UInt8 → ℕ
  | [] => 0
  | b :: bs => b.toNat + 256 * ofLE bs

@[simp]
theorem length_leBytes (n x : ℕ) : (leBytes n x).length = n := by
  induction n generalizing x with
  | zero => rfl
  | succ n ih => simp [leBytes, ih]

/-- **The bytes of a number** are the number, up to the bytes there are. -/
theorem ofLE_leBytes (n x : ℕ) : ofLE (leBytes n x) = x % 256 ^ n := by
  induction n generalizing x with
  | zero => simp [leBytes, ofLE, Nat.mod_one]
  | succ n ih =>
    have hbyte : (UInt8.ofNat x).toNat = x % 256 := UInt8.toNat_ofNat'
    rw [leBytes, ofLE, ih, hbyte, pow_succ', Nat.mod_mul]

/-- As many bytes with the same number are the same bytes. -/
theorem ofLE_injective {l l' : List UInt8} (hlength : l.length = l'.length) (h : ofLE l = ofLE l') : l = l' := by
  induction l generalizing l' with
  | nil => exact (List.length_eq_zero_iff.1 hlength.symm).symm
  | cons b bs ih =>
    cases l' with
    | nil => exact nomatch hlength
    | cons b' bs' =>
      rw [ofLE, ofLE] at h
      have hb : b.toNat < 256 := b.toNat_lt
      have hb' : b'.toNat < 256 := b'.toNat_lt
      have hbyte : b = b' := UInt8.toNat_inj.1 (by omega)
      rw [hbyte, ih (Nat.succ.inj hlength) (by omega)]

theorem ofLE_lt (l : List UInt8) : ofLE l < 256 ^ l.length := by
  induction l with
  | nil => simp [ofLE]
  | cons b bs ih =>
    have hb : b.toNat < 256 := b.toNat_lt
    rw [ofLE, List.length_cons, pow_succ]
    omega

/-- Bytes are the bytes of their number. -/
theorem leBytes_ofLE {n : ℕ} {l : List UInt8} (h : l.length = n) : leBytes n (ofLE l) = l := by
  subst h
  refine ofLE_injective (length_leBytes _ _) ?_
  rw [ofLE_leBytes, Nat.mod_eq_of_lt (ofLE_lt l)]

/-! ## Readers -/

section Readers

variable {α β : Type*}

/-- A reader takes `bytes` from the front of every stream and returns `a`. -/
def Reads (read : List UInt8 → Option α × List UInt8) (bytes : List UInt8) (a : α) : Prop :=
  ∀ rest, read (bytes ++ rest) = (some a, rest)

/-- Takes `n` bytes from the front of a stream. -/
def readBytes (n : ℕ) (s : List UInt8) : Option (List UInt8) × List UInt8 :=
  if s.length < n then (none, s) else (some (s.take n), s.drop n)

theorem reads_readBytes {n : ℕ} {bytes : List UInt8} (h : bytes.length = n) : Reads (readBytes n) bytes bytes := by
  intro rest
  subst h
  simp [readBytes]

end Readers

/-! ## Loops -/

section Loops

variable {σ ρ : Type*} {loop : ℕ → σ → List UInt8 → ρ} {bytes bytes' : List UInt8} {f g : σ → σ}

/-- A loop with enough fuel takes `bytes` from the front of every stream, changes its state by `f`
and goes on with the rest. -/
def Takes (loop : ℕ → σ → List UInt8 → ρ) (bytes : List UInt8) (f : σ → σ) : Prop :=
  ∀ fuel x rest, (bytes ++ rest).length ≤ fuel →
    ∃ fuel', rest.length ≤ fuel' ∧ loop fuel x (bytes ++ rest) = loop fuel' (f x) rest

theorem Takes.nil : Takes loop [] fun x => x :=
  fun fuel _ _ hfuel => ⟨fuel, hfuel, rfl⟩

/-- What is written in two parts is taken one after the other. -/
theorem Takes.append (h : Takes loop bytes f) (h' : Takes loop bytes' g) :
    Takes loop (bytes ++ bytes') (g ∘ f) := by
  intro fuel x rest hfuel
  rw [List.append_assoc] at hfuel ⊢
  obtain ⟨fuel₁, hle₁, heq₁⟩ := h fuel x (bytes' ++ rest) hfuel
  obtain ⟨fuel₂, hle₂, heq₂⟩ := h' fuel₁ (f x) rest hle₁
  exact ⟨fuel₂, hle₂, heq₁.trans heq₂⟩

/-- What is written on a condition changes the state on that condition. -/
theorem Takes.ite {c : Prop} [Decidable c] (h : c → Takes loop bytes f) :
    Takes loop (if c then bytes else []) fun x => if c then f x else x := by
  by_cases hc : c
  · simpa only [if_pos hc] using h hc
  · simpa only [if_neg hc] using Takes.nil

/-- A loop that takes all there is ends at the end of the stream. -/
theorem Takes.run (h : Takes loop bytes f) (x : σ) : ∃ fuel, loop bytes.length x bytes = loop fuel (f x) [] := by
  obtain ⟨fuel, -, heq⟩ := h bytes.length x [] (by simp)
  exact ⟨fuel, by simpa using heq⟩

end Loops

end Wire
