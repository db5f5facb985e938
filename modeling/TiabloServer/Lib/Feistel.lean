import Mathlib

/-!
# Feistel ciphers

Two halves of a block are changed in turn, each by a value of the other and of a round key. The
rounds are undone with the keys in reverse order, whatever the round function is. The round keys may
come from a sum that grows by a constant with each round; decryption then counts the sum down.

## Main definitions

* `Feistel.encrypt`, `Feistel.decrypt` — the rounds with a list of pairs of keys.
* `Feistel.keysDown`, `Feistel.keysUp` — the keys of a running sum.

## Main results

* `Feistel.decrypt_encrypt` — decryption with the reversed keys undoes encryption.
* `Feistel.keysUp_eq` — counting the sum up from where it ended gives the reversed keys.
-/

namespace Feistel

variable {α K : Type*} [AddCommGroup α] (F : K → α → α)

/-- One round: each half in turn. -/
def round (k : K × K) (v : α × α) : α × α :=
  let left := v.1 + F k.1 v.2
  (left, v.2 + F k.2 left)

/-- One round undone, with the key of the right half first. -/
def unround (k : K × K) (v : α × α) : α × α :=
  let right := v.2 - F k.1 v.1
  (v.1 - F k.2 right, right)

/-- All rounds. -/
def encrypt (ks : List (K × K)) (v : α × α) : α × α := ks.foldl (fun v k => round F k v) v

/-- All rounds undone. -/
def decrypt (ks : List (K × K)) (v : α × α) : α × α := ks.foldl (fun v k => unround F k v) v

theorem unround_round (k : K × K) (v : α × α) : unround F k.swap (round F k v) = v := by
  simp [unround, round]

/-- **Decryption undoes encryption.** -/
theorem decrypt_encrypt (ks : List (K × K)) (v : α × α) :
    decrypt F (ks.reverse.map Prod.swap) (encrypt F ks v) = v := by
  induction ks generalizing v with
  | nil => rfl
  | cons k ks ih =>
    have hlast : decrypt F ((k :: ks).reverse.map Prod.swap) (encrypt F (k :: ks) v) =
        unround F k.swap (decrypt F (ks.reverse.map Prod.swap) (encrypt F ks (round F k v))) := by
      simp [decrypt, encrypt]
    rw [hlast, ih, unround_round]

/-! ## Keys of a running sum -/

variable (a b : α → K) (δ : α)

/-- The keys of `n` rounds, as the sum goes down. -/
def keysDown : ℕ → α → List (K × K)
  | 0, _ => []
  | n + 1, sum => (a sum, b (sum - δ)) :: keysDown n (sum - δ)

/-- The keys of `n` rounds, as the sum goes up. -/
def keysUp : ℕ → α → List (K × K)
  | 0, _ => []
  | n + 1, sum => (b sum, a (sum + δ)) :: keysUp n (sum + δ)

theorem keysDown_succ (n : ℕ) (sum : α) : keysDown a b δ (n + 1) sum =
      keysDown a b δ n sum ++ [(a (sum - n • δ), b (sum - (n + 1) • δ))] := by
  induction n generalizing sum with
  | zero => simp [keysDown]
  | succ n ih =>
    have hshift : ∀ m : ℕ, sum - δ - m • δ = sum - (m + 1) • δ := by
      intro m
      rw [succ_nsmul']
      abel
    rw [keysDown, ih, hshift, hshift]
    rfl

/-- **Counting up** from where the sum ended gives the keys in reverse order. -/
theorem keysUp_eq (n : ℕ) (sum : α) :
    keysUp a b δ n (sum - n • δ) = (keysDown a b δ n sum).reverse.map Prod.swap := by
  induction n with
  | zero => rfl
  | succ n ih =>
    have hstep : sum - (n + 1) • δ + δ = sum - n • δ := by
      rw [succ_nsmul']
      abel
    rw [keysDown_succ, keysUp, hstep, ih, List.reverse_append, List.map_append]
    rfl

end Feistel
