import Mathlib.Data.List.TakeWhile
import Privana.OnrampIntent

/-! On-ramp intents round-trip canonically. An accepted text is the signed text of its payload under
one of the keys, and a created text is read back under every ring that keeps its key. -/

namespace Privana
open BigEndian

variable {U : IntentPlatform}

/-- Printable ASCII. -/
def Printable (s : Text) : Prop := ∀ c ∈ s, 32 ≤ c.toNat ∧ c.toNat < 127

theorem Printable.append {s t : Text} (hs : Printable s) (ht : Printable t) : Printable (s ++ t) := by
  intro c hc
  rcases List.mem_append.mp hc with hc | hc
  · exact hs c hc
  · exact ht c hc

theorem Printable.cons {c : Char} {s : Text} (hc : 32 ≤ c.toNat ∧ c.toNat < 127)
    (hs : Printable s) : Printable (c :: s) := by
  intro d hd
  rcases List.mem_cons.mp hd with rfl | hd
  · exact hc
  · exact hs d hd

theorem printable_nil : Printable [] := fun _ hc => by cases hc

theorem printable_hexDigit (n : ℕ) : 32 ≤ (hexDigit (n % 16)).toNat ∧
    (hexDigit (n % 16)).toNat < 127 := by
  have h := Nat.mod_lt n (show 0 < 16 by decide)
  generalize n % 16 = d at h
  interval_cases d <;> decide

theorem printable_unitEscape (n : ℕ) : Printable (unitEscape n) :=
  .cons (by decide) (.cons (by decide) (.cons (printable_hexDigit _) (.cons (printable_hexDigit _)
    (.cons (printable_hexDigit _) (.cons (printable_hexDigit _) printable_nil)))))

theorem printable_escapeChar (c : Char) : Printable (escapeChar c) := by
  unfold escapeChar
  split_ifs with _ _ _ _ _ _ _ printable
  iterate 7 exact .cons (by decide) (.cons (by decide) printable_nil)
  · exact .cons printable printable_nil
  · exact printable_unitEscape _
  · exact (printable_unitEscape _).append (printable_unitEscape _)

theorem printable_dumpString (s : Text) : Printable (dumpString s) := by
  have body : Printable (s.flatMap escapeChar) := by
    intro c hc
    obtain ⟨d, -, hd⟩ := List.mem_flatMap.mp hc
    exact printable_escapeChar d c hd
  exact (Printable.cons (by decide) body).append (.cons (by decide) printable_nil)

theorem printable_toDigits (n : ℕ) : Printable (Nat.toDigits 10 n) := by
  intro c hc
  have digit := Nat.isDigit_of_mem_toDigits (by decide) (by decide) hc
  simp only [Char.isDigit, ge_iff_le, Bool.and_eq_true, decide_eq_true_eq] at digit
  have low : 48 ≤ c.toNat := UInt32.le_iff_toNat_le.mp digit.1
  have high : c.toNat ≤ 57 := UInt32.le_iff_toNat_le.mp digit.2
  omega

theorem printable_dump (x : Scalar) : Printable x.dump := by
  cases x with
  | str s => exact printable_dumpString s
  | int n =>
    rw [Scalar.dump, dumpInt]
    split
    · exact .cons (by decide) (printable_toDigits _)
    · exact printable_toDigits _

theorem printable_jsonDumps (xs : List (Text × Scalar)) : Printable (jsonDumps xs) := by
  have members : Printable (dumpMembers xs) := by
    fun_induction dumpMembers xs with
    | case1 => exact printable_nil
    | case2 x =>
      exact (printable_dumpString _).append (.cons (by decide) (printable_dump _))
    | case3 x xs _ ih =>
      exact ((printable_dumpString _).append (.cons (by decide) (printable_dump _))).append
        (.cons (by decide) ih)
  exact (Printable.cons (by decide) members).append (.cons (by decide) printable_nil)

theorem decodePayload_jsonPayload (x : IntentPayload) :
    decodePayload U (jsonPayload x) = .ok (x.members.map fun m => (m.1, m.2.toJson)) := by
  have read := jsonLoads_jsonDumps x.members (List.cons_ne_nil _ _)
  rw [decodePayload, jsonPayload, U.decodeText_ascii _ (printable_jsonDumps _), Option.bind_some,
    read]

theorem fieldOf_members (x : IntentPayload) :
    let field (key : Text) := fieldOf (x.members.map fun m => (m.1, m.2.toJson)) key
    field (text "v") = .int x.v ∧ field (text "p") = .str x.p ∧ field (text "u") = .str x.u ∧
      field (text "w") = .str x.w ∧ field (text "t") = .str x.t ∧ field (text "n") = .str x.n ∧
      field (text "c") = .int x.c ∧ field (text "iat") = .int x.iat ∧
      field (text "exp") = .int x.exp ∧ field (text "a") = .str x.a :=
  ⟨rfl, rfl, rfl, rfl, rfl, rfl, rfl, rfl, rfl, rfl⟩

theorem bind_eq_ok {α β ε : Type} {x : Except ε α} {f : α → Except ε β} {b : β} :
    (x >>= f) = .ok b ↔ ∃ a, x = .ok a ∧ f a = .ok b :=
  CheckedArithmetic.bind_eq_ok

theorem hexField_eq_ok {value : Json} {byteLength : ℕ} {fieldName mismatch s : Text}
    (h : hexField U value byteLength fieldName mismatch = .ok s) :
    value = .str s ∧ hexPayload U s byteLength fieldName = .ok s := by
  cases value with
  | str s' =>
    obtain ⟨payload, normal, h⟩ := bind_eq_ok.mp h
    split_ifs at h with differs
    · rw [not_not] at differs
      cases h
      exact ⟨rfl, differs ▸ normal⟩
  | _ => cases h

theorem uint32_eq_ok {value n : ℤ} {fieldName : Text} (h : uint32 value fieldName = .ok n) :
    value = n ∧ 0 ≤ n ∧ n ≤ 0xFFFFFFFF := by
  unfold uint32 at h
  split_ifs at h with outside
  · cases h
    omega

theorem uint32Field_eq_ok {value : Json} {fieldName : Text} {n : ℤ}
    (h : uint32Field value fieldName = .ok n) : value = .int n ∧ 0 ≤ n ∧ n ≤ 0xFFFFFFFF := by
  cases value with
  | int m =>
    obtain ⟨rfl, bounds⟩ := uint32_eq_ok h
    exact ⟨rfl, bounds⟩
  | _ => cases h

theorem versionField_eq_ok {value : Json} {n : ℤ} (h : versionField value = .ok n) :
    value = .int n ∧ n = intentVersion := by
  cases value with
  | int m =>
    simp only [versionField] at h
    split_ifs at h with same
    · cases h
      exact ⟨rfl, same⟩
  | _ => cases h

theorem providerField_eq_ok {value : Json} {s : Text} (h : providerField value = .ok s) :
    value = .str s ∧ s ∈ intentProviders := by
  cases value with
  | str s' =>
    simp only [providerField] at h
    split_ifs at h with known
    · cases h
      exact ⟨rfl, by simpa using known⟩
  | _ => cases h

theorem assetField_eq_ok {value : Json} {s : Text} (h : assetField U value = .ok s) :
    value = .str s ∧ assetCodeOrError U s = .ok s := by
  cases value with
  | str s' =>
    obtain ⟨code, normal, h⟩ := bind_eq_ok.mp h
    split_ifs at h with differs
    · rw [not_not] at differs
      cases h
      exact ⟨rfl, differs ▸ normal⟩
  | _ => cases h

/-- What the validation of a payload establishes. -/
structure ValidIntent (U : IntentPlatform) (x : IntentPayload) : Prop where
  v : x.v = intentVersion
  p : x.p ∈ intentProviders
  u : hexPayload U x.u 20 (text "user") = .ok x.u
  w : hexPayload U x.w 20 (text "wallet") = .ok x.w
  t : hexPayload U x.t 32 (text "token_id") = .ok x.t
  n : hexPayload U x.n 8 (text "nonce") = .ok x.n
  c : 0 ≤ x.c ∧ x.c ≤ 0xFFFFFFFF
  iat : 0 ≤ x.iat ∧ x.iat ≤ 0xFFFFFFFF
  exp : 0 ≤ x.exp ∧ x.exp ≤ 0xFFFFFFFF
  ordered : x.iat ≤ x.exp
  a : assetCodeOrError U x.a = .ok x.a

/-- The validation returns the payload it was given. -/
theorem validatePayload_members {x y : IntentPayload}
    (h : validatePayload U (x.members.map fun m => (m.1, m.2.toJson)) = .ok y) :
    y = x ∧ ValidIntent U x := by
  obtain ⟨v, p, u, w, t, n, c, iat, exp, a⟩ := fieldOf_members x
  unfold validatePayload at h
  split_ifs at h with fields
  obtain ⟨v', hv, h⟩ := bind_eq_ok.mp h
  obtain ⟨p', hp, h⟩ := bind_eq_ok.mp h
  obtain ⟨u', hu, h⟩ := bind_eq_ok.mp h
  obtain ⟨w', hw, h⟩ := bind_eq_ok.mp h
  obtain ⟨t', ht, h⟩ := bind_eq_ok.mp h
  obtain ⟨n', hn, h⟩ := bind_eq_ok.mp h
  obtain ⟨c', hc, h⟩ := bind_eq_ok.mp h
  obtain ⟨iat', hiat, h⟩ := bind_eq_ok.mp h
  obtain ⟨exp', hexp, h⟩ := bind_eq_ok.mp h
  split_ifs at h with ordered
  obtain ⟨a', ha, h⟩ := bind_eq_ok.mp h
  obtain ⟨sameV, version⟩ := versionField_eq_ok hv
  obtain ⟨sameP, provider⟩ := providerField_eq_ok hp
  obtain ⟨sameU, user⟩ := hexField_eq_ok hu
  obtain ⟨sameW, wallet⟩ := hexField_eq_ok hw
  obtain ⟨sameT, token⟩ := hexField_eq_ok ht
  obtain ⟨sameN, nonce⟩ := hexField_eq_ok hn
  obtain ⟨sameC, chain⟩ := uint32Field_eq_ok hc
  obtain ⟨sameIat, issued⟩ := uint32Field_eq_ok hiat
  obtain ⟨sameExp, expires⟩ := uint32Field_eq_ok hexp
  obtain ⟨sameA, asset⟩ := assetField_eq_ok ha
  cases v.symm.trans sameV
  cases p.symm.trans sameP
  cases u.symm.trans sameU
  cases w.symm.trans sameW
  cases t.symm.trans sameT
  cases n.symm.trans sameN
  cases c.symm.trans sameC
  cases iat.symm.trans sameIat
  cases exp.symm.trans sameExp
  cases a.symm.trans sameA
  cases h
  exact ⟨rfl, version, provider, user, wallet, token, nonce, chain, issued, expires, not_lt.mp ordered,
    asset⟩

theorem count_dot_base64Url (bs : Bytes) : '.' ∉ base64Url bs := by
  intro mem
  exact absurd (base64Url_mem '.' mem) (by decide)

theorem splitBody_append {front back : Text} (hf : '.' ∉ front) (hb : '.' ∉ back) :
    splitBody (front ++ '.' :: back) = some (front, back) := by
  have one : (front ++ '.' :: back).count '.' = 1 := by
    rw [List.count_append, List.count_cons_self, List.count_eq_zero_of_not_mem hf,
      List.count_eq_zero_of_not_mem hb]
  have plain : ∀ c ∈ front, (fun c => decide (c ≠ '.')) c = true := by
    intro c hc
    simpa using fun same : c = '.' => hf (same ▸ hc)
  rw [splitBody, if_pos one, List.takeWhile_append_of_pos plain, List.dropWhile_append_of_pos plain]
  simp

theorem splitBody_eq_some {body front back : Text} (h : splitBody body = some (front, back)) :
    body = front ++ '.' :: back := by
  unfold splitBody at h
  split_ifs at h with one
  · cases h
    have whole := List.takeWhile_append_dropWhile (p := fun c => decide (c ≠ '.')) (l := body)
    cases rest : body.dropWhile (fun c => decide (c ≠ '.')) with
    | nil =>
      rw [rest, List.append_nil] at whole
      have none : '.' ∉ body := by
        intro mem
        rw [← whole] at mem
        simpa using List.mem_takeWhile_imp mem
      rw [List.count_eq_zero_of_not_mem none] at one
      cases one
    | cons c tail =>
      have dot := List.head?_dropWhile_not (fun c => decide (c ≠ '.')) body
      rw [rest] at dot
      have dot : c = '.' := by simpa using dot
      rw [rest, dot] at whole
      simpa [dot] using whole.symm

theorem base64Url_ne_nil {bs : Bytes} (nonempty : bs ≠ []) : base64Url bs ≠ [] := by
  intro none
  have decoded := base64UrlDecode_encode nonempty
  rw [none] at decoded
  cases decoded

theorem jsonPayload_ne_nil (x : IntentPayload) : jsonPayload x ≠ [] := by
  rw [jsonPayload, jsonDumps]
  exact List.cons_ne_nil _ _

theorem signature_ne_nil (payloadB64 : Text) (key : Bytes) : signature U payloadB64 key ≠ [] := by
  intro none
  have length := U.hmacSha256_length key (ascii (text "privana:onramp:intent:v1:" ++ payloadB64))
  rw [signature] at none
  rw [none] at length
  cases length

theorem drop_prefix (pre s : Text) :
    pre.isPrefixOf (pre ++ s) = true ∧ (pre ++ s).drop pre.length = s :=
  ⟨by simp, by simp⟩

/-- A signed payload is read back while its key verifies and its time has not passed. -/
theorem decodeIntent_signedToken {x : IntentPayload} {ring : KeyRing} {key : Bytes}
    (member : key ∈ ring.verificationKeys)
    (valid : validatePayload U (x.members.map fun m => (m.1, m.2.toJson)) = .ok x)
    (short : (signedToken U key x).length ≤ intentMaxLength) {now : ℤ} {allowExpired : Bool}
    (early : allowExpired = true ∨ now ≤ x.exp) :
    decodeIntent U (some ring) now allowExpired (signedToken U key x) = .ok x := by
  have payloadB64 := base64UrlDecode_encode (jsonPayload_ne_nil x)
  have signed := base64UrlDecode_encode
    (signature_ne_nil (U := U) (base64Url (jsonPayload x)) key)
  have length : (signature U (base64Url (jsonPayload x)) key).length = 32 :=
    U.hmacSha256_length key _
  have verifies : (ring.verificationKeys.any fun k =>
      signature U (base64Url (jsonPayload x)) k = signature U (base64Url (jsonPayload x)) key) =
        true := by
    rw [List.any_eq_true]
    exact ⟨key, member, by simp⟩
  have split := splitBody_append (count_dot_base64Url (jsonPayload x))
    (count_dot_base64Url (signature U (base64Url (jsonPayload x)) key))
  have nonempty := base64Url_ne_nil (jsonPayload_ne_nil x)
  have signature_ := base64Url_ne_nil (signature_ne_nil (U := U) (base64Url (jsonPayload x)) key)
  have intime : ¬ (allowExpired = false ∧ x.exp < now) := by
    rintro ⟨strict, late⟩
    rcases early with allowed | early
    · rw [allowed] at strict
      cases strict
    · omega
  unfold decodeIntent signedToken
  dsimp only
  rw [signedToken, List.append_assoc] at short
  rw [List.append_assoc]
  obtain ⟨starts, body⟩ := drop_prefix intentPrefix
    (base64Url (jsonPayload x) ++ '.' :: base64Url (signature U (base64Url (jsonPayload x)) key))
  rw [starts, if_neg (by decide), if_neg (not_lt.mpr short), body, split]
  dsimp only
  rw [if_neg (not_or.mpr ⟨nonempty, signature_⟩), payloadB64]
  dsimp only
  rw [signed]
  dsimp only
  rw [if_neg (jsonPayload_ne_nil x), if_neg (not_not.mpr length), verifies, if_neg (by decide),
    decodePayload_jsonPayload]
  simp only [bind, Except.bind, valid]
  rw [if_neg (not_not.mpr rfl), if_neg intime]

/-- What is read is the signed text of what it is read as. -/
theorem signedToken_of_decodeIntent {ring : Option KeyRing} {now : ℤ} {allowExpired : Bool}
    {token : Text} {x : IntentPayload} (h : decodeIntent U ring now allowExpired token = .ok x) :
    ∃ keys key, ring = some keys ∧ key ∈ keys.verificationKeys ∧ token = signedToken U key x ∧
      validatePayload U (x.members.map fun m => (m.1, m.2.toJson)) = .ok x ∧
      token.length ≤ intentMaxLength ∧ (allowExpired = true ∨ now ≤ x.exp) := by
  unfold decodeIntent at h
  split_ifs at h with starts long
  split at h
  · cases h
  · next payloadB64 signatureB64 split =>
    split_ifs at h with empty
    split at h
    · cases h
    · next payloadBytes payload =>
      split at h
      · cases h
      · next providedSignature provided =>
        split_ifs at h with none length
        split at h
        · cases h
        · next keys =>
          split_ifs at h with verifies
          obtain ⟨members, decoded, h⟩ := bind_eq_ok.mp h
          obtain ⟨payload', validated, h⟩ := bind_eq_ok.mp h
          split_ifs at h with differs late
          cases h
          rw [not_not] at differs
          subst differs
          rw [decodePayload_jsonPayload] at decoded
          cases decoded
          rw [Bool.not_eq_false, List.any_eq_true] at verifies
          obtain ⟨key, member, same⟩ := verifies
          have same : signature U payloadB64 key = providedSignature := by simpa using same
          have front := base64UrlDecode_eq_some payload
          have back := base64UrlDecode_eq_some provided
          have body := splitBody_eq_some split
          have whole : intentPrefix ++ token.drop intentPrefix.length = token := by
            rw [Bool.not_eq_false, List.isPrefixOf_iff_prefix] at starts
            obtain ⟨rest, rfl⟩ := starts
            rw [List.drop_left]
          refine ⟨keys, key, rfl, member, ?_, validated, not_lt.mp long, ?_⟩
          · rw [← whole, body, signedToken, ← back, ← same, ← front, List.append_assoc]
          · cases allowExpired with
            | true => exact .inl rfl
            | false => exact .inr (not_lt.mp fun lt => late ⟨rfl, lt⟩)

end Privana
