import Privana.IntentRoundTrip

/-! The hexadecimal fields of an intent. The library's reader of hexadecimal text skips white space
between bytes, so a field of the right length may hold some; without it the fields have exactly
the digits of their bytes. -/

namespace Privana
open BigEndian

variable {U : IntentPlatform}

/-- Exactly `n` lower-case hexadecimal digits. -/
def ExactHex (n : ℕ) (s : Text) : Prop := s.length = n ∧ ∀ c ∈ s, c ∈ hexAlphabet

theorem hexValue_isSome {c : Char} : (hexValue c).isSome ↔ c.toLower ∈ hexAlphabet := by
  rw [hexValue, List.isSome_idxOf?]

theorem mem_hexAlphabet {c : Char} (h : c ∈ hexAlphabet) :
    c.toLower = c ∧ isAsciiSpace c = false ∧ c ≠ 'x' ∧ c.toNat < 128 := by
  have all : (hexAlphabet.all fun c => decide (c.toLower = c ∧ isAsciiSpace c = false ∧ c ≠ 'x' ∧
      c.toNat < 128)) = true := by decide
  simpa using List.all_eq_true.mp all c h

theorem hexDigit_mem {n : ℕ} (h : n < 16) : hexDigit n ∈ hexAlphabet := by
  interval_cases n <;> decide

theorem fromHex_chars {s : Text} {bs : Bytes} (h : fromHex s = some bs) :
    ∀ c ∈ s, isAsciiSpace c = true ∨ (hexValue c).isSome := by
  fun_induction fromHex s generalizing bs with
  | case1 => intro c hc; cases hc
  | case2 c rest space ih =>
    intro d hd
    rcases List.mem_cons.mp hd with rfl | hd
    · exact .inl space
    · exact ih h d hd
  | case3 c plain => cases h
  | case4 c plain d rest ih =>
    obtain ⟨high, hc, h⟩ := Option.bind_eq_some_iff.mp h
    obtain ⟨low, hd, h⟩ := Option.bind_eq_some_iff.mp h
    obtain ⟨bs', read, -⟩ := Option.bind_eq_some_iff.mp h
    intro e he
    rcases List.mem_cons.mp he with rfl | he
    · exact .inr (by rw [hc]; rfl)
    · rcases List.mem_cons.mp he with rfl | he
      · exact .inr (by rw [hd]; rfl)
      · exact ih read e he

theorem mem_of_mem_removePrefix {pre s : Text} {c : Char} (h : c ∈ removePrefix pre s) : c ∈ s := by
  unfold removePrefix at h
  split_ifs at h with starts
  · exact List.mem_of_mem_drop h
  · exact h

theorem mem_removePrefix_or (pre : Text) {s : Text} {c : Char} (h : c ∈ s) :
    c ∈ pre ∨ c ∈ removePrefix pre s := by
  unfold removePrefix
  split_ifs with starts
  · obtain ⟨rest, rfl⟩ := List.isPrefixOf_iff_prefix.mp starts
    rw [List.drop_left]
    exact List.mem_append.mp h
  · exact .inr h

theorem isAsciiSpace_toLower (c : Char) : isAsciiSpace c.toLower = isAsciiSpace c :=
  toLower_congr (by decide) c

/-- What an accepted field looks like: digits and white space, of an ASCII text. -/
theorem hexPayload_eq_ok {value s fieldName : Text} {byteLength : ℕ}
    (h : hexPayload U value byteLength fieldName = .ok s) :
    s = removePrefix (text "0x") (value.map Char.toLower) ∧ s.length = byteLength * 2 ∧
      (∀ c ∈ value, c.toNat < 128) ∧ ∀ c ∈ s, isAsciiSpace c = true ∨ c ∈ hexAlphabet := by
  unfold hexPayload at h
  dsimp only at h
  split_ifs at h with length
  rw [not_not] at length
  split at h
  · cases h
  · next bs read =>
    cases h
    have chars := fromHex_chars read
    have narrow : ∀ c ∈ value, c.toNat < 128 := by
      by_contra wide
      simp only [not_forall, not_lt] at wide
      obtain ⟨d, hd, high⟩ := wide
      obtain ⟨c, hc, digit, space, x⟩ := U.lower_wide value ⟨d, hd, high⟩
      rcases mem_removePrefix_or (text "0x") hc with marker | hc
      · have two : c = '0' ∨ c = 'x' := by simpa [text] using marker
        rcases two with rfl | rfl
        · cases digit
        · exact x rfl
      · rcases chars c hc with space' | digit'
        · rw [space] at space'
          cases space'
        · rw [digit] at digit'
          cases digit'
    have lowered := U.lower_ascii value narrow
    rw [lowered] at chars length ⊢
    refine ⟨rfl, length, narrow, fun c hc => ?_⟩
    rcases chars c hc with space | digit
    · exact .inl space
    · obtain ⟨d, -, rfl⟩ := List.mem_map.mp (mem_of_mem_removePrefix hc)
      rw [hexValue_isSome, toLower_toLower] at digit
      exact .inr digit

theorem exactHex_iff {value s fieldName : Text} {byteLength : ℕ}
    (h : hexPayload U value byteLength fieldName = .ok s) :
    ExactHex (byteLength * 2) s ↔ ∀ c ∈ value, isAsciiSpace c = false := by
  obtain ⟨stripped, length, -, chars⟩ := hexPayload_eq_ok h
  constructor
  · rintro ⟨-, digits⟩ c hc
    rcases mem_removePrefix_or (text "0x") (List.mem_map_of_mem hc) with marker | mem
    · have two : c.toLower = '0' ∨ c.toLower = 'x' := by simpa [text] using marker
      rw [← isAsciiSpace_toLower]
      rcases two with zero | x
      · rw [zero]; rfl
      · rw [x]; rfl
    · rw [← stripped] at mem
      rw [← isAsciiSpace_toLower]
      exact (mem_hexAlphabet (digits _ mem)).2.1
  · intro plain
    refine ⟨length, fun c hc => ?_⟩
    rcases chars c hc with space | digit
    · rw [stripped] at hc
      obtain ⟨d, hd, rfl⟩ := List.mem_map.mp (mem_of_mem_removePrefix hc)
      rw [isAsciiSpace_toLower, plain d hd] at space
      cases space
    · exact digit

theorem exactHex_hexDigits (bs : Bytes) : ExactHex (bs.length * 2) (hexDigits bs) :=
  ⟨by rw [hexDigits_length, Nat.mul_comm], forall_hexDigits (fun _ => hexDigit_mem) bs⟩

theorem addressPayload_exact {value s fieldName : Text}
    (h : addressPayload U value fieldName = .ok s) : ExactHex 40 s := by
  unfold addressPayload at h
  split_ifs at h with address
  cases h
  obtain ⟨a, digits, checksum, lowered⟩ := U.toChecksumAddress_digits value address
  have stripped : removePrefix (text "0x") (U.toChecksumAddress value) = digits := by
    rw [checksum]
    rfl
  have narrow : ∀ c ∈ digits, c.toNat < 128 := by
    intro c hc
    have mem : c.toLower ∈ hexAlphabet := by
      have mapped := List.mem_map_of_mem (f := Char.toLower) hc
      rw [lowered] at mapped
      exact (exactHex_hexDigits _).2 _ mapped
    rcases toLower_cases c with same | upper
    · rw [same] at mem
      exact (mem_hexAlphabet mem).2.2.2
    · exact forall_upperCase (p := fun c => c.toNat < 128) (by decide) c upper
  have length : (packedAddress a).length * 2 = 40 := by rw [packedAddress, encode_length]
  have exact_ := exactHex_hexDigits (packedAddress a)
  rw [length] at exact_
  rw [stripped, U.lower_ascii digits narrow, lowered]
  exact exact_

theorem exists_hexDigit {c : Char} (h : c ∈ hexAlphabet) : ∃ n < 16, c = hexDigit n := by
  obtain ⟨n, hn, rfl⟩ := List.getElem_of_mem h
  exact ⟨n, hn, by simp [hexDigit, List.getD_eq_getElem?_getD, hn]⟩

/-- Exact digits denote one byte string. -/
theorem existsUnique_hexDigits {k : ℕ} {s : Text} (h : ExactHex (k * 2) s) :
    ∃! bs, hexDigits bs = s := by
  refine existsUnique_of_exists_of_unique ?_ fun as bs ha hb => hexDigits_injective (ha.trans hb.symm)
  induction k generalizing s with
  | zero => exact ⟨[], (List.length_eq_zero_iff.mp (by simpa using h.1)).symm⟩
  | succ k ih =>
    obtain ⟨length, digits⟩ := h
    obtain ⟨c, s, rfl⟩ := List.exists_cons_of_length_eq_add_one
      (show s.length = k * 2 + 1 + 1 by omega)
    obtain ⟨d, s, rfl⟩ := List.exists_cons_of_length_eq_add_one
      (show s.length = k * 2 + 1 by simp at length; omega)
    obtain ⟨m, hm, rfl⟩ := exists_hexDigit (digits c (by simp))
    obtain ⟨n, hn, rfl⟩ := exists_hexDigit (digits d (by simp))
    have rest : ExactHex (k * 2) s := ⟨by simp at length; omega, fun e he => digits e (by simp [he])⟩
    obtain ⟨bs, rfl⟩ := ih rest
    refine ⟨UInt8.ofNat (16 * m + n) :: bs, ?_⟩
    have value : (UInt8.ofNat (16 * m + n)).toNat = 16 * m + n := by
      rw [UInt8.toNat_ofNat', Nat.mod_eq_of_lt (by omega)]
    rw [hexDigits_cons, value, show (16 * m + n) / 16 = m by omega,
      show (16 * m + n) % 16 = n by omega]

theorem fromHex_cons {c d : Char} {m n : ℕ} (plain : isAsciiSpace c = false)
    (hc : hexValue c = some m) (hd : hexValue d = some n) (rest : Text) :
    fromHex (c :: d :: rest) = (fromHex rest).map fun bs => UInt8.ofNat (16 * m + n) :: bs := by
  rw [fromHex.eq_def]
  dsimp only
  rw [plain, if_neg (by decide), hc, hd]
  cases fromHex rest <;> rfl

theorem fromHex_hexDigits (bs : Bytes) : fromHex (hexDigits bs) = some bs := by
  induction bs with
  | nil => rfl
  | cons b bs ih =>
    obtain ⟨high, low⟩ := halves_lt b
    have byte : UInt8.ofNat (16 * (b.toNat / 16) + b.toNat % 16) = b :=
      ofNat_toNat_of_eq (by omega)
    rw [hexDigits_cons, fromHex_cons (mem_hexAlphabet (hexDigit_mem high)).2.1
      (hexValue_hexDigit high) (hexValue_hexDigit low), ih, byte]
    rfl

/-- The spellings of a byte string: digits of either case, with or without the prefix. -/
def Spells (value : Text) (bs : Bytes) : Prop :=
  lower value = hexDigits bs ∨ lower value = hexText bs

theorem hexPayload_spelling {value : Text} {bs : Bytes} (h : Spells value bs) (fieldName : Text) :
    hexPayload U value bs.length fieldName = .ok (hexDigits bs) := by
  have x : 'x' ∉ hexDigits bs := by
    intro mem
    exact (mem_hexAlphabet ((exactHex_hexDigits bs).2 'x' mem)).2.2.1 rfl
  have narrow : ∀ c ∈ value, c.toNat < 128 := by
    intro c hc
    have mem : c.toLower ∈ lower value := List.mem_map_of_mem hc
    have small : c.toLower.toNat < 128 := by
      rcases h with h | h
      · rw [h] at mem
        exact (mem_hexAlphabet ((exactHex_hexDigits bs).2 _ mem)).2.2.2
      · rw [h, hexText, List.mem_cons, List.mem_cons] at mem
        rcases mem with zero | x | mem
        · rw [zero]; decide
        · rw [x]; decide
        · exact (mem_hexAlphabet ((exactHex_hexDigits bs).2 _ mem)).2.2.2
    rcases toLower_cases c with same | upper
    · rwa [same] at small
    · exact forall_upperCase (p := fun c => c.toNat < 128) (by decide) c upper
  have stripped : removePrefix (text "0x") (U.lower value) = hexDigits bs := by
    rw [U.lower_ascii value narrow]
    rcases h with h | h
    · have plain : (text "0x").isPrefixOf (hexDigits bs) = false := by
        rw [Bool.eq_false_iff, ne_eq, List.isPrefixOf_iff_prefix]
        rintro ⟨rest, marked⟩
        exact x (by rw [← marked]; simp [text])
      rw [← lower, h, removePrefix, plain, if_neg (by decide)]
    · rw [← lower, h]
      rfl
  have length : (hexDigits bs).length = bs.length * 2 := (exactHex_hexDigits bs).1
  unfold hexPayload
  dsimp only
  rw [stripped, if_neg (not_not.mpr length), fromHex_hexDigits]

/-- The grammar of the four hexadecimal fields. -/
structure ExactFields (x : IntentPayload) : Prop where
  t : ExactHex 64 x.t
  u : ExactHex 40 x.u
  w : ExactHex 40 x.w
  n : ExactHex 16 x.n

def NoSpace (s : Text) : Prop := ∀ c ∈ s, isAsciiSpace c = false

theorem createIntent_fields {ring : Option KeyRing} {now : ℤ} {nonce : BitVec 64}
    {x : IntentArguments} {token : Text} {payload : IntentPayload}
    (h : createIntent U ring now nonce x = .ok (token, payload)) :
    ExactHex 40 payload.u ∧ ExactHex 40 payload.w ∧ ExactHex 16 payload.n ∧
      hexPayload U x.tokenId 32 (text "token_id") = .ok payload.t ∧
      (∃ keys, ring = some keys ∧ token = signedToken U keys.currentKey payload ∧
        token.length ≤ intentMaxLength) ∧
      validatePayload U (payload.members.map fun m => (m.1, m.2.toJson)) = .ok payload := by
  unfold createIntent at h
  split_ifs at h with provider
  obtain ⟨u, hu, h⟩ := bind_eq_ok.mp h
  obtain ⟨w, hw, h⟩ := bind_eq_ok.mp h
  obtain ⟨t, ht, h⟩ := bind_eq_ok.mp h
  obtain ⟨c, hc, h⟩ := bind_eq_ok.mp h
  obtain ⟨a, ha, h⟩ := bind_eq_ok.mp h
  obtain ⟨iat, hiat, h⟩ := bind_eq_ok.mp h
  obtain ⟨exp, hexp, h⟩ := bind_eq_ok.mp h
  obtain ⟨token', encoded, h⟩ := bind_eq_ok.mp h
  cases h
  obtain ⟨payload', validated, encoded⟩ := bind_eq_ok.mp encoded
  obtain ⟨rfl, -⟩ := validatePayload_members validated
  have nonce_ : ExactHex 16 (hexDigits (encode 8 nonce.toNat)) := by
    have exact_ := exactHex_hexDigits (encode 8 nonce.toNat)
    rwa [encode_length] at exact_
  refine ⟨addressPayload_exact hu, addressPayload_exact hw, nonce_, ht, ?_, validated⟩
  cases ring with
  | none => cases encoded
  | some keys =>
    dsimp only at encoded
    split_ifs at encoded with long
    cases encoded
    exact ⟨keys, rfl, rfl, not_lt.mp long⟩

/-- The hexadecimal fields are exact where no white space stands in them. -/
theorem intent_hex_grammar (U : IntentPlatform) :
    (∀ ring now nonce x token payload, createIntent U ring now nonce x = .ok (token, payload) →
      (ExactFields payload ↔ NoSpace x.tokenId)) ∧
    (∀ ring now allowExpired token payload,
      decodeIntent U ring now allowExpired token = .ok payload →
      (ExactFields payload ↔
        NoSpace payload.t ∧ NoSpace payload.u ∧ NoSpace payload.w ∧ NoSpace payload.n)) ∧
    (∀ ring now nonce x token payload (bs : Bytes), bs.length = 32 → Spells x.tokenId bs →
      createIntent U ring now nonce x = .ok (token, payload) → payload.t = hexDigits bs) ∧
    ∀ k s, ExactHex (k * 2) s → ∃! bs, hexDigits bs = s := by
  refine ⟨?_, ?_, ?_, fun k s h => existsUnique_hexDigits h⟩
  · intro ring now nonce x token payload h
    obtain ⟨u, w, n, t, -⟩ := createIntent_fields h
    have exact_ := exactHex_iff t
    exact ⟨fun fields => exact_.mp fields.t, fun plain => ⟨exact_.mpr plain, u, w, n⟩⟩
  · intro ring now allowExpired token payload h
    obtain ⟨_, _, -, -, -, validated, -⟩ := signedToken_of_decodeIntent h
    obtain ⟨-, valid⟩ := validatePayload_members validated
    constructor
    · rintro ⟨t, u, w, n⟩
      exact ⟨(exactHex_iff valid.t).mp t, (exactHex_iff valid.u).mp u,
        (exactHex_iff valid.w).mp w, (exactHex_iff valid.n).mp n⟩
    · rintro ⟨t, u, w, n⟩
      exact ⟨(exactHex_iff valid.t).mpr t, (exactHex_iff valid.u).mpr u,
        (exactHex_iff valid.w).mpr w, (exactHex_iff valid.n).mpr n⟩
  · intro ring now nonce x token payload bs length spells h
    obtain ⟨-, -, -, t, -⟩ := createIntent_fields h
    have spelled := hexPayload_spelling (U := U) spells (text "token_id")
    rw [length] at spelled
    exact (Except.ok.inj (spelled.symm.trans t)).symm

theorem lower_wide (s : Text) (h : ∃ c ∈ s, 128 ≤ c.toNat) :
    ∃ c ∈ lower s, hexValue c = none ∧ isAsciiSpace c = false ∧ c ≠ 'x' := by
  obtain ⟨c, hc, wide⟩ := h
  have same : c.toLower = c := by
    rcases toLower_cases c with same | upper
    · exact same
    · have narrow := forall_upperCase (p := fun c => c.toNat < 128) (by decide) c upper
      omega
  refine ⟨c, same ▸ List.mem_map_of_mem hc, ?_, ?_, ?_⟩
  · rw [← Option.not_isSome_iff_eq_none, hexValue_isSome, same]
    intro digit
    have narrow := (mem_hexAlphabet digit).2.2.2
    omega
  · have space : c ≠ ' ' := by
      rintro rfl
      exact absurd wide (by decide)
    simp only [isAsciiSpace, space, decide_false, Bool.false_or, Bool.and_eq_false_iff,
      decide_eq_false_iff_not]
    omega
  · rintro rfl
    exact absurd wide (by decide)

def sampleIntentUser : Text := text "0x1111111111111111111111111111111111111111"

def sampleIntentWallet : Text := text "0x2222222222222222222222222222222222222222"

/-- The platform of the samples: ASCII text, addresses without letters, and one digest. -/
def sampleIntentPlatform (digest : Bytes32) : IntentPlatform where
  lower := lower
  lower_ascii _ _ := rfl
  lower_wide := lower_wide
  strip := strip
  isAddress s := s = sampleIntentUser || s = sampleIntentWallet
  toChecksumAddress s := s
  toChecksumAddress_digits s h := by
    rcases Bool.or_eq_true_iff.mp h with same | same
    · refine ⟨0x1111111111111111111111111111111111111111, sampleIntentUser.drop 2, ?_, ?_⟩
      · rw [of_decide_eq_true same]
        rfl
      · decide +kernel
    · refine ⟨0x2222222222222222222222222222222222222222, sampleIntentWallet.drop 2, ?_, ?_⟩
      · rw [of_decide_eq_true same]
        rfl
      · decide +kernel
  hmacSha256 _ _ := word digest
  hmacSha256_length _ _ := word_length digest
  decodeText bs := if bs.all (· < 128) then some (bs.map fun b => Char.ofNat b.toNat) else none
  decodeText_ascii s printable := by
    have narrow : (ascii s).all (· < 128) = true := by
      rw [ascii, List.all_map, List.all_eq_true]
      intro c hc
      have bound := (printable c hc).2
      simp only [Function.comp_apply, decide_eq_true_eq, UInt8.lt_iff_toNat_lt,
        UInt8.toNat_ofNat']
      have small : c.toNat % 2 ^ 8 = c.toNat := Nat.mod_eq_of_lt (by omega)
      rw [small]
      exact Nat.lt_of_lt_of_le bound (by decide)
    have same : (ascii s).map (fun b => Char.ofNat b.toNat) = s := by
      rw [ascii, List.map_map]
      refine (List.map_congr_left fun c hc => ?_).trans (List.map_id s)
      have bound := (printable c hc).2
      rw [Function.comp_apply, UInt8.toNat_ofNat', Nat.mod_eq_of_lt (by omega), Char.ofNat_toNat]
      rfl
    rw [if_pos narrow, same]

def sampleKeyRing : KeyRing := ⟨List.replicate 32 7, [List.replicate 32 7]⟩

def sampleIntentArguments (tokenId : Text) : IntentArguments :=
  ⟨text "moonpay", sampleIntentUser, sampleIntentWallet, tokenId, 84532, text "USDC"⟩

def sampleIntentPayload (t : Text) : IntentPayload where
  v := 1
  p := text "moonpay"
  u := sampleIntentUser.drop 2
  w := sampleIntentWallet.drop 2
  t
  c := 84532
  a := text "usdc"
  iat := 1700000000
  exp := 1700086400
  n := text "0123456789abcdef"

/-- Sixty-two digits behind two spaces. -/
def spacedTokenId : Text := text "  c719650e9f4b0f27d956638c54518932ef9d15e720a1a2b2850250bcd08165"

def spacedDigest : Bytes32 := 0x59da32633b9c2178a0236ea44f8ad3cef3e6b64f35a10da4fd6b30baaa008e7c

theorem createIntent_spaced :
    createIntent (sampleIntentPlatform spacedDigest) (some sampleKeyRing) 1700000000
      0x0123456789abcdef (sampleIntentArguments ('0' :: 'x' :: spacedTokenId)) =
    .ok (signedToken (sampleIntentPlatform spacedDigest) sampleKeyRing.currentKey
      (sampleIntentPayload spacedTokenId), sampleIntentPayload spacedTokenId) := by
  decide +kernel

/-- The token is created and read back, and its token id is no hexadecimal text. -/
theorem spaced_intent_accepted :
    createIntent (sampleIntentPlatform spacedDigest) (some sampleKeyRing) 1700000000
      0x0123456789abcdef (sampleIntentArguments ('0' :: 'x' :: spacedTokenId)) =
      .ok (signedToken (sampleIntentPlatform spacedDigest) sampleKeyRing.currentKey
        (sampleIntentPayload spacedTokenId), sampleIntentPayload spacedTokenId) ∧
    decodeIntent (sampleIntentPlatform spacedDigest) (some sampleKeyRing) 1700000060 false
      (signedToken (sampleIntentPlatform spacedDigest) sampleKeyRing.currentKey
        (sampleIntentPayload spacedTokenId)) = .ok (sampleIntentPayload spacedTokenId) ∧
    ¬ ExactFields (sampleIntentPayload spacedTokenId) := by
  obtain ⟨-, -, -, -, ⟨_, -, -, short⟩, valid⟩ := createIntent_fields createIntent_spaced
  refine ⟨createIntent_spaced, decodeIntent_signedToken (List.mem_singleton_self _) valid short
    (.inr (by decide)), fun fields => ?_⟩
  exact absurd (fields.t.2 ' ' (List.mem_cons_self)) (by decide)

end Privana
