import Mathlib.Data.List.Induction
import Mathlib.Algebra.Order.Ring.Nat
import Mathlib.Tactic.Ring

/-! Fixed-width big-endian byte strings. `encode n x` keeps the `n` low-order
bytes of `x`, most significant first; `decode` reads any byte string back.
The two are inverse on `x < 256 ^ n` and on strings of length `n`. -/

namespace Privana.BigEndian

abbrev Bytes := List UInt8

def encode : (n : ℕ) → ℕ → Bytes
  | 0, _ => []
  | n + 1, x => encode n (x / 256) ++ [UInt8.ofNat x]

def decode (bs : Bytes) : ℕ := bs.foldl (fun acc b => acc * 256 + b.toNat) 0

@[simp] theorem encode_length (n x : ℕ) : (encode n x).length = n := by
  induction n generalizing x with
  | zero => rfl
  | succ n ih => simp [encode, ih]

@[simp] theorem decode_nil : decode [] = 0 := rfl

theorem decode_concat (bs : Bytes) (b : UInt8) :
    decode (bs ++ [b]) = decode bs * 256 + b.toNat := by
  simp [decode, List.foldl_append]

theorem decode_append (as bs : Bytes) :
    decode (as ++ bs) = decode as * 256 ^ bs.length + decode bs := by
  induction bs using List.reverseRecOn with
  | nil => simp
  | append_singleton bs b ih =>
    rw [← List.append_assoc, decode_concat, decode_concat, ih, List.length_append,
      List.length_singleton, pow_succ]
    ring

theorem decode_lt (bs : Bytes) : decode bs < 256 ^ bs.length := by
  induction bs using List.reverseRecOn with
  | nil => simp
  | append_singleton bs b ih =>
    have hb := b.toNat_lt
    rw [decode_concat, List.length_append, List.length_singleton, pow_succ]
    omega

theorem decode_encode (n x : ℕ) : decode (encode n x) = x % 256 ^ n := by
  induction n generalizing x with
  | zero => simp [encode, Nat.mod_one]
  | succ n ih =>
    have hm : x % (256 * 256 ^ n) = x % 256 + 256 * (x / 256 % 256 ^ n) := Nat.mod_mul
    rw [encode, decode_concat, ih, UInt8.toNat_ofNat', pow_succ' 256 n, hm]
    omega

theorem decode_encode_of_lt {n x : ℕ} (h : x < 256 ^ n) : decode (encode n x) = x := by
  rw [decode_encode, Nat.mod_eq_of_lt h]

theorem encode_decode (bs : Bytes) : encode bs.length (decode bs) = bs := by
  induction bs using List.reverseRecOn with
  | nil => rfl
  | append_singleton bs b ih =>
    have hb := b.toNat_lt
    have hq : (decode bs * 256 + b.toNat) / 256 = decode bs := by omega
    have hr : UInt8.ofNat (decode bs * 256 + b.toNat) = b := by
      apply UInt8.toNat_inj.mp
      rw [UInt8.toNat_ofNat']
      omega
    rw [List.length_append, List.length_singleton, decode_concat, encode, hq, hr, ih]

theorem drop_encode (m n x : ℕ) : (encode (m + n) x).drop m = encode n x := by
  induction n generalizing x with
  | zero => exact List.drop_of_length_le (encode_length m x).le
  | succ n ih =>
    have le : m ≤ (encode (m + n) (x / 256)).length := by simp
    rw [← Nat.add_assoc, encode, List.drop_append_of_le_length le, ih, encode]

/-- The 32-byte word of a 256-bit value. -/
def word (x : BitVec 256) : Bytes := encode 32 x.toNat

/-- The 256-bit value a byte string denotes. -/
def ofBytes (bs : Bytes) : BitVec 256 := BitVec.ofNat 256 (decode bs)

@[simp] theorem word_length (x : BitVec 256) : (word x).length = 32 := encode_length _ _

theorem word_width : (256 : ℕ) ^ 32 = 2 ^ 256 := by norm_num

@[simp] theorem ofBytes_word (x : BitVec 256) : ofBytes (word x) = x := by
  have hx : x.toNat < 256 ^ 32 := by rw [word_width]; exact x.isLt
  rw [ofBytes, word, decode_encode_of_lt hx, BitVec.ofNat_toNat, BitVec.setWidth_eq]

theorem word_injective {x y : BitVec 256} (h : word x = word y) : x = y := by
  rw [← ofBytes_word x, ← ofBytes_word y, h]

theorem word_ofBytes {bs : Bytes} (h : bs.length = 32) : word (ofBytes bs) = bs := by
  have hlt : decode bs < 2 ^ 256 := by rw [← word_width, ← h]; exact decode_lt bs
  rw [word, ofBytes, BitVec.toNat_ofNat, Nat.mod_eq_of_lt hlt, ← h, encode_decode]

/-- Equal-length first parts: a concatenation of words is read back word by word. -/
theorem word_append_inj {x y : BitVec 256} {as bs : Bytes}
    (h : word x ++ as = word y ++ bs) : x = y ∧ as = bs := by
  have hs := List.append_inj h (by simp)
  exact ⟨word_injective hs.1, hs.2⟩

end Privana.BigEndian
