import Privana.HexText

/-! Base64 for URLs, without padding. The reader drops surplus bits and then compares with what
the writer writes, so every byte string has one text. -/

namespace Privana
open BigEndian

def base64Alphabet : Text :=
  text "ABCDEFGHIJKLMNOPQRSTUVWXYZabcdefghijklmnopqrstuvwxyz0123456789-_"

def base64Digit (n : ℕ) : Char := base64Alphabet.getD (n % 64) 'A'

/-- `urlsafe_b64encode` without its padding. -/
def base64Url : Bytes → Text
  | [] => []
  | [a] => [base64Digit (a.toNat / 4), base64Digit (a.toNat * 16)]
  | [a, b] =>
    [base64Digit (a.toNat / 4), base64Digit (a.toNat * 16 + b.toNat / 16),
      base64Digit (b.toNat * 4)]
  | a :: b :: c :: rest =>
    base64Digit (a.toNat / 4) :: base64Digit (a.toNat * 16 + b.toNat / 16) ::
      base64Digit (b.toNat * 4 + c.toNat / 64) :: base64Digit c.toNat :: base64Url rest

/-- The groups of six bits, the last one filled up with zeros. -/
def sextets : Bytes → List ℕ
  | [] => []
  | [a] => [a.toNat / 4, a.toNat % 4 * 16]
  | [a, b] => [a.toNat / 4, a.toNat % 4 * 16 + b.toNat / 16, b.toNat % 16 * 4]
  | a :: b :: c :: rest =>
    a.toNat / 4 :: (a.toNat % 4 * 16 + b.toNat / 16) :: (b.toNat % 16 * 4 + c.toNat / 64) ::
      c.toNat % 64 :: sextets rest

def ofSextets : List ℕ → Option Bytes
  | [] => some []
  | [_] => none
  | [x, y] => some [UInt8.ofNat (x * 4 + y / 16)]
  | [x, y, z] => some [UInt8.ofNat (x * 4 + y / 16), UInt8.ofNat (y % 16 * 16 + z / 4)]
  | x :: y :: z :: w :: rest =>
    (ofSextets rest).map fun bs => UInt8.ofNat (x * 4 + y / 16) ::
      UInt8.ofNat (y % 16 * 16 + z / 4) :: UInt8.ofNat (z % 4 * 64 + w) :: bs

/-- The text is not empty, has only digits, and is what the writer writes of its bytes. -/
def base64UrlDecode (value : Text) : Option Bytes :=
  if value ≠ [] ∧ value.all (base64Alphabet.contains ·) then
    (ofSextets (value.map fun c => base64Alphabet.idxOf c)).bind fun decoded =>
      if base64Url decoded = value then some decoded else none
  else none

theorem sextets_lt (bs : Bytes) : ∀ n ∈ sextets bs, n < 64 := by
  have byte (b : UInt8) : b.toNat < 256 := b.toNat_lt
  fun_induction sextets bs with
  | case1 => simp
  | case2 a => have := byte a; simp; omega
  | case3 a b => have := byte a; have := byte b; simp; omega
  | case4 a b c rest ih =>
    have := byte a
    have := byte b
    have := byte c
    simp only [List.mem_cons]
    rintro n (rfl | rfl | rfl | rfl | hn)
    · omega
    · omega
    · omega
    · omega
    · exact ih n hn

theorem base64Url_eq (bs : Bytes) : base64Url bs = (sextets bs).map base64Digit := by
  have wraps {m n : ℕ} (h : m % 64 = n % 64) : base64Digit m = base64Digit n := by
    rw [base64Digit, h, base64Digit]
  fun_induction base64Url bs with
  | case1 => rfl
  | case2 a =>
    simp only [sextets, List.map_cons, List.map_nil, List.cons.injEq, and_true, true_and]
    exact wraps (by omega)
  | case3 a b =>
    simp only [sextets, List.map_cons, List.map_nil, List.cons.injEq, and_true, true_and]
    exact ⟨wraps (by omega), wraps (by omega)⟩
  | case4 a b c rest ih =>
    simp only [sextets, List.map_cons, List.cons.injEq, true_and, ih, and_true]
    exact ⟨wraps (by omega), wraps (by omega), wraps (by omega)⟩

theorem ofNat_toNat_of_eq {b : UInt8} {n : ℕ} (h : n = b.toNat) : UInt8.ofNat n = b := by
  rw [h, UInt8.ofNat_toNat]

theorem ofSextets_sextets (bs : Bytes) : ofSextets (sextets bs) = some bs := by
  have byte (b : UInt8) : b.toNat < 256 := b.toNat_lt
  fun_induction sextets bs with
  | case1 => rfl
  | case2 a =>
    have first : UInt8.ofNat (a.toNat / 4 * 4 + a.toNat % 4 * 16 / 16) = a :=
      ofNat_toNat_of_eq (by omega)
    rw [ofSextets, first]
  | case3 a b =>
    have := byte b
    have first : UInt8.ofNat (a.toNat / 4 * 4 + (a.toNat % 4 * 16 + b.toNat / 16) / 16) = a :=
      ofNat_toNat_of_eq (by omega)
    have second : UInt8.ofNat ((a.toNat % 4 * 16 + b.toNat / 16) % 16 * 16 +
        b.toNat % 16 * 4 / 4) = b := ofNat_toNat_of_eq (by omega)
    rw [ofSextets, first, second]
  | case4 a b c rest ih =>
    have := byte b
    have := byte c
    have first : UInt8.ofNat (a.toNat / 4 * 4 + (a.toNat % 4 * 16 + b.toNat / 16) / 16) = a :=
      ofNat_toNat_of_eq (by omega)
    have second : UInt8.ofNat ((a.toNat % 4 * 16 + b.toNat / 16) % 16 * 16 +
        (b.toNat % 16 * 4 + c.toNat / 64) / 4) = b := ofNat_toNat_of_eq (by omega)
    have third : UInt8.ofNat ((b.toNat % 16 * 4 + c.toNat / 64) % 4 * 64 + c.toNat % 64) = c :=
      ofNat_toNat_of_eq (by omega)
    rw [ofSextets, ih, first, second, third]
    rfl

theorem base64Digit_spec : ∀ n < 64, base64Alphabet.contains (base64Digit n) = true ∧
    base64Alphabet.idxOf (base64Digit n) = n := by
  decide +kernel

theorem base64UrlDecode_eq_some {value : Text} {bs : Bytes} (h : base64UrlDecode value = some bs) :
    base64Url bs = value := by
  unfold base64UrlDecode at h
  split at h
  · obtain ⟨decoded, -, same⟩ := Option.bind_eq_some_iff.mp h
    split at same
    · next encoded => exact (Option.some.inj same) ▸ encoded
    · cases same
  · cases h

theorem base64UrlDecode_encode {bs : Bytes} (nonempty : bs ≠ []) :
    base64UrlDecode (base64Url bs) = some bs := by
  have bounds := sextets_lt bs
  have some_ : base64Url bs ≠ [] := by
    rw [base64Url_eq, ne_eq, List.map_eq_nil_iff]
    intro none
    have decoded := ofSextets_sextets bs
    rw [none, ofSextets] at decoded
    exact nonempty (Option.some.inj decoded).symm
  have digits : (base64Url bs).all (base64Alphabet.contains ·) = true := by
    rw [base64Url_eq, List.all_map, List.all_eq_true]
    exact fun n hn => (base64Digit_spec n (bounds n hn)).1
  have values : (base64Url bs).map (fun c => base64Alphabet.idxOf c) = sextets bs := by
    rw [base64Url_eq, List.map_map]
    exact (List.map_congr_left fun n hn => (base64Digit_spec n (bounds n hn)).2).trans
      (List.map_id _)
  rw [base64UrlDecode, if_pos ⟨some_, digits⟩, values, ofSextets_sextets, Option.bind_some, if_pos rfl]

theorem base64Url_injective {as bs : Bytes} (h : base64Url as = base64Url bs) :
    as = bs := by
  by_cases ha : as = []
  · by_cases hb : bs = []
    · rw [ha, hb]
    · have decoded := base64UrlDecode_encode hb
      rw [← h, ha] at decoded
      cases decoded
  · have decoded := base64UrlDecode_encode ha
    rw [h] at decoded
    by_cases hb : bs = []
    · rw [hb] at decoded
      cases decoded
    · rw [base64UrlDecode_encode hb] at decoded
      exact (Option.some.inj decoded).symm

theorem length_sextets (bs : Bytes) : (sextets bs).length = (4 * bs.length + 2) / 3 := by
  fun_induction sextets bs with
  | case1 => rfl
  | case2 | case3 => simp only [List.length_cons, List.length_nil]
  | case4 a b c rest ih => simp only [List.length_cons, ih]; omega

theorem length_base64Url (bs : Bytes) : (base64Url bs).length = (4 * bs.length + 2) / 3 := by
  rw [base64Url_eq, List.length_map, length_sextets]

/-- The writer's digits are letters, numbers, the hyphen and the underscore. -/
theorem base64Url_mem {bs : Bytes} : ∀ c ∈ base64Url bs, c ∈ base64Alphabet := by
  intro c hc
  rw [base64Url_eq] at hc
  obtain ⟨n, hn, rfl⟩ := List.mem_map.mp hc
  simpa using (base64Digit_spec n (sextets_lt bs n hn)).1

end Privana
