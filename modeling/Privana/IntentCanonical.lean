import Privana.IntentGrammar
import Privana.WithdrawalPayout

/-! One text for each payload and key. A created intent is at most 448 characters long and is read
back until it expires; whatever is read was signed as it stands. -/

namespace Privana
open BigEndian

variable {U : IntentPlatform}

/-- Text that the JSON writer leaves as it is. -/
def Plain (s : Text) : Prop := ∀ c ∈ s, escapeChar c = [c]

theorem length_dumpString {s : Text} (h : Plain s) : (dumpString s).length = s.length + 2 := by
  have same : s.flatMap escapeChar = s := by
    rw [List.flatMap_congr h]
    simp
  simp [dumpString, same]

theorem length_dumpInt {n : ℤ} (nonneg : 0 ≤ n) (small : n ≤ 0xFFFFFFFF) :
    (dumpInt n).length ≤ 10 := by
  rw [dumpInt, if_neg (by omega), Nat.length_toDigits_le_iff (by decide) (by decide)]
  omega

theorem ExactHex.plain {n : ℕ} {s : Text} (h : ExactHex n s) : Plain s := by
  have all : (hexAlphabet.all fun c => decide (escapeChar c = [c])) = true := by decide
  intro c hc
  simpa using List.all_eq_true.mp all c (h.2 c hc)

/-- An asset code in its normal form. -/
theorem assetCode_plain {value code : Text} (h : assetCodeOrError U value = .ok code) :
    Plain code ∧ code.length ≤ 32 := by
  have all : (assetTail.all fun c => decide (escapeChar c = [c])) = true := by decide
  unfold assetCodeOrError at h
  dsimp only at h
  split_ifs at h with wide long pattern
  cases h
  refine ⟨fun c hc => ?_, not_lt.mp long⟩
  have mem : c ∈ assetTail := by
    generalize U.lower (U.strip value) = code at pattern hc
    cases code with
    | nil => cases hc
    | cons d rest =>
      simp only [assetPattern, Bool.and_eq_true, List.all_eq_true, List.contains_iff_mem] at pattern
      rcases List.mem_cons.mp hc with rfl | hc
      · exact List.mem_append_left _ pattern.1.1
      · exact pattern.1.2 c hc
  simpa using List.all_eq_true.mp all c mem

theorem length_jsonDumps_le {x : IntentPayload} (valid : ValidIntent U x) (fields : ExactFields x) :
    (jsonDumps x.members).length ≤ 297 := by
  have version : (dumpInt x.v).length = 1 := by rw [valid.v]; decide
  have provider : (dumpString x.p).length ≤ 9 := by
    rcases List.mem_pair.mp valid.p with same | same <;> rw [same] <;> decide
  obtain ⟨plain, short⟩ := assetCode_plain valid.a
  have asset := length_dumpString plain
  have chain := length_dumpInt valid.c.1 valid.c.2
  have issued := length_dumpInt valid.iat.1 valid.iat.2
  have expires := length_dumpInt valid.exp.1 valid.exp.2
  have token := length_dumpString fields.t.plain
  have user := length_dumpString fields.u.plain
  have wallet := length_dumpString fields.w.plain
  have nonce := length_dumpString fields.n.plain
  rw [fields.t.1] at token
  rw [fields.u.1] at user
  rw [fields.w.1] at wallet
  rw [fields.n.1] at nonce
  have letters : (dumpString (text "a")).length = 3 ∧ (dumpString (text "c")).length = 3 ∧
      (dumpString (text "exp")).length = 5 ∧ (dumpString (text "iat")).length = 5 ∧
      (dumpString (text "n")).length = 3 ∧ (dumpString (text "p")).length = 3 ∧
      (dumpString (text "t")).length = 3 ∧ (dumpString (text "u")).length = 3 ∧
      (dumpString (text "v")).length = 3 ∧ (dumpString (text "w")).length = 3 := by decide
  simp only [jsonDumps, IntentPayload.members, dumpMembers, Scalar.dump, List.length_append,
    List.length_cons, List.length_nil]
  omega

theorem length_signedToken_le {x : IntentPayload} (valid : ValidIntent U x)
    (fields : ExactFields x) (key : Bytes) : (signedToken U key x).length ≤ 448 := by
  have json := length_jsonDumps_le valid fields
  have payload : (jsonPayload x).length = (jsonDumps x.members).length := by
    rw [jsonPayload, ascii, List.length_map]
  have digest : (signature U (base64Url (jsonPayload x)) key).length = 32 :=
    U.hmacSha256_length key _
  have pre : intentPrefix.length = 8 := by decide
  rw [signedToken, List.length_append, List.length_append, List.length_cons, length_base64Url, length_base64Url,
    pre, payload, digest]
  omega

/-- Two different texts with one signature under the keys of a ring. -/
def Forgery (U : IntentPlatform) (keys : List Bytes) (front front' : Text) : Prop :=
  front ≠ front' ∧ ∃ key ∈ keys, ∃ key' ∈ keys, signature U front key = signature U front' key'

/-- The payload part of an accepted text is signed by its signature part. -/
theorem signature_of_decodeIntent {keys : KeyRing} {now : ℤ} {allowExpired : Bool}
    {front back : Text} {x : IntentPayload} (hf : '.' ∉ front)
    (h : decodeIntent U (some keys) now allowExpired (intentPrefix ++ front ++ '.' :: back) = .ok x) :
    ∃ key ∈ keys.verificationKeys, back = base64Url (signature U front key) := by
  obtain ⟨_, key, same, member, token, -⟩ := signedToken_of_decodeIntent h
  cases same
  have split : front ++ '.' :: back = base64Url (jsonPayload x) ++
      '.' :: base64Url (signature U (base64Url (jsonPayload x)) key) := by
    rw [signedToken, List.append_assoc, List.append_assoc] at token
    exact List.append_cancel_left token
  have dot : '.' ∉ base64Url (jsonPayload x) := count_dot_base64Url _
  have one : splitBody (front ++ '.' :: back) =
      some (base64Url (jsonPayload x), base64Url (signature U (base64Url (jsonPayload x)) key)) := by
    rw [split]
    exact splitBody_append dot (count_dot_base64Url _)
  have body : splitBody (front ++ '.' :: back) = some (front, back) := by
    refine splitBody_append hf fun mem => ?_
    have count := congrArg (List.count '.') split
    rw [List.count_append, List.count_append, List.count_cons_self, List.count_cons_self,
      List.count_eq_zero_of_not_mem hf, List.count_eq_zero_of_not_mem dot,
      List.count_eq_zero_of_not_mem (count_dot_base64Url _)] at count
    have some_ := List.count_pos_iff.mpr mem
    omega
  rw [body] at one
  cases one
  exact ⟨key, member, rfl⟩

/-- Intents round-trip canonically. -/
theorem intents_canonical (U : IntentPlatform) :
    (∀ keys now nonce x token payload (bs : Bytes), bs.length = 32 → Spells x.tokenId bs →
      createIntent U (some keys) now nonce x = .ok (token, payload) → token.length ≤ 448 ∧
      ∀ keys', keys.currentKey ∈ keys'.verificationKeys → ∀ now' allowExpired,
        (allowExpired = true ∨ now' ≤ payload.exp) →
        decodeIntent U (some keys') now' allowExpired token = .ok payload) ∧
    (∀ ring now allowExpired token payload,
      decodeIntent U ring now allowExpired token = .ok payload →
      ∃ keys key, ring = some keys ∧ key ∈ keys.verificationKeys ∧
        token = signedToken U key payload) ∧
    (∀ currentKey key now now' allowExpired allowExpired' token token' payload,
      decodeIntent U (some ⟨currentKey, [key]⟩) now allowExpired token = .ok payload →
      decodeIntent U (some ⟨currentKey, [key]⟩) now' allowExpired' token' = .ok payload →
      token = token') ∧
    (∀ keys now now' allowExpired allowExpired' front front' back payload payload',
      '.' ∉ front → '.' ∉ front' →
      decodeIntent U (some keys) now allowExpired (intentPrefix ++ front ++ '.' :: back) =
        .ok payload →
      decodeIntent U (some keys) now' allowExpired' (intentPrefix ++ front' ++ '.' :: back) =
        .ok payload' →
      front = front' ∨ Forgery U keys.verificationKeys front front') := by
  refine ⟨?_, ?_, ?_, ?_⟩
  · intro keys now nonce x token payload bs length spells h
    obtain ⟨u, w, n, t, ⟨_, same, signed, short⟩, validated⟩ := createIntent_fields h
    cases same
    have spelled := hexPayload_spelling (U := U) spells (text "token_id")
    rw [length] at spelled
    have token_ : payload.t = hexDigits bs := (Except.ok.inj (spelled.symm.trans t)).symm
    have exact_ := exactHex_hexDigits bs
    rw [length, ← token_] at exact_
    obtain ⟨-, valid⟩ := validatePayload_members validated
    constructor
    · rw [signed]
      exact length_signedToken_le valid ⟨exact_, u, w, n⟩ _
    · intro keys' retained now' allowExpired early
      rw [signed] at short ⊢
      exact decodeIntent_signedToken retained validated short early
  · intro ring now allowExpired token payload h
    obtain ⟨keys, key, same, member, signed, -⟩ := signedToken_of_decodeIntent h
    exact ⟨keys, key, same, member, signed⟩
  · intro currentKey key now now' allowExpired allowExpired' token token' payload h h'
    obtain ⟨_, k, same, member, signed, -⟩ := signedToken_of_decodeIntent h
    obtain ⟨_, k', same', member', signed', -⟩ := signedToken_of_decodeIntent h'
    cases same
    cases same'
    rw [List.mem_singleton] at member member'
    rw [signed, signed', member, member']
  · intro keys now now' allowExpired allowExpired' front front' back payload payload' hf hf' h h'
    obtain ⟨key, member, signed⟩ := signature_of_decodeIntent hf h
    obtain ⟨key', member', signed'⟩ := signature_of_decodeIntent hf' h'
    by_cases same : front = front'
    · exact .inl same
    · exact .inr ⟨same, key, member, key', member',
        base64Url_injective (signed.symm.trans signed')⟩

def sampleIntentTokenId : Text :=
  text "0xC719650E9F4B0F27D956638C54518932EF9D15E720A1A2B2850250BCD0816514"

def sampleIntentDigest : Bytes32 :=
  0x445960b34120eb276c99c4a7d80a14c506c3c444990ee49c8e66b8ff6b459672

/-- An intent is created, and read back under a ring that has rotated its key. -/
theorem intents_canonical_sample :
    ∃ token, createIntent (sampleIntentPlatform sampleIntentDigest) (some sampleKeyRing) 1700000000
        0x0123456789abcdef (sampleIntentArguments sampleIntentTokenId) =
          .ok (token, sampleIntentPayload (hexDigits (word sampleTokenId))) ∧
      token.length ≤ 448 ∧
      decodeIntent (sampleIntentPlatform sampleIntentDigest)
        (some ⟨[8], [[8], sampleKeyRing.currentKey]⟩) 1700000060 false token =
          .ok (sampleIntentPayload (hexDigits (word sampleTokenId))) := by
  have created : createIntent (sampleIntentPlatform sampleIntentDigest) (some sampleKeyRing)
      1700000000 0x0123456789abcdef (sampleIntentArguments sampleIntentTokenId) =
        .ok (signedToken (sampleIntentPlatform sampleIntentDigest) sampleKeyRing.currentKey
          (sampleIntentPayload (hexDigits (word sampleTokenId))),
          sampleIntentPayload (hexDigits (word sampleTokenId))) := by decide +kernel
  obtain ⟨short, reads⟩ := (intents_canonical (sampleIntentPlatform sampleIntentDigest)).1
    sampleKeyRing _ _ _ _ _ (word sampleTokenId) (word_length _) (.inr (by decide +kernel)) created
  exact ⟨_, created, short, reads _ (by simp) _ _ (.inr (by decide))⟩

end Privana
