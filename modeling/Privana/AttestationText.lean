import Privana.IpAttestation

/-! The texts of attestations. The separator is in none of the fields, so that a signed text says
what was signed; and both ends write an address in the same way. -/

namespace Privana
open BigEndian

/-- No field contains the separator. -/
structure Separable (t : AttestedTuple) : Prop where
  referrerDomain : '|' ∉ t.referrerDomain
  intentHash : '|' ∉ t.intentHash
  ip : '|' ∉ t.ip
  nonce : '|' ∉ t.nonce

theorem mem_dumpInt {c : Char} {n : ℤ} (h : c ∈ dumpInt n) : c = '-' ∨ c.isDigit = true := by
  have digits (hc : c ∈ Nat.toDigits 10 n.natAbs) : c.isDigit = true :=
    Nat.isDigit_of_mem_toDigits (by decide) (by decide) hc
  unfold dumpInt at h
  split at h
  · exact (List.mem_cons.mp h).imp_right digits
  · exact .inr (digits h)

theorem separator_notMem_dumpInt (n : ℤ) : '|' ∉ dumpInt n :=
  fun h => (mem_dumpInt h).elim (by decide) (by decide)

theorem dumpInt_natCast (n : ℕ) : dumpInt n = decimal n := by
  rw [dumpInt, if_neg (by omega), Int.natAbs_natCast]
  rfl

theorem dumpInt_injective {m n : ℤ} (h : dumpInt m = dumpInt n) : m = n := by
  have signed (k : ℕ) : '-' ∉ decimal k := fun hc => absurd (isDigit_of_mem_decimal hc) (by decide)
  unfold dumpInt at h
  split at h <;> split at h
  · have abs := decimal_injective (List.cons.inj h).2
    omega
  · exact absurd (h ▸ List.mem_cons_self) (signed _)
  · exact absurd (h ▸ List.mem_cons_self) (signed _)
  · have abs := decimal_injective h
    omega

theorem attestationPayload_fields {t : AttestedTuple} (h : Separable t) :
    (attestationPayload t).splitOn '|' = [text "v1", t.referrerDomain, t.intentHash, t.ip,
      dumpInt t.issuedAt, dumpInt t.expiresAt, t.nonce] := by
  refine List.splitOn_intercalate '|' (fun field hf => ?_) (by simp)
  simp only [List.mem_cons, List.not_mem_nil, or_false] at hf
  rcases hf with rfl | rfl | rfl | rfl | rfl | rfl | rfl
  · decide
  · exact h.referrerDomain
  · exact h.intentHash
  · exact h.ip
  · exact separator_notMem_dumpInt _
  · exact separator_notMem_dumpInt _
  · exact h.nonce

/-- A signed text determines what it binds. -/
theorem attestationPayload_injective {t u : AttestedTuple} (ht : Separable t) (hu : Separable u)
    (h : attestationPayload t = attestationPayload u) : t = u := by
  have fields := congrArg (List.splitOn '|') h
  rw [attestationPayload_fields ht, attestationPayload_fields hu] at fields
  simp only [List.cons.injEq, and_true, true_and] at fields
  obtain ⟨domain, intent, ip, issued, expires, nonce⟩ := fields
  cases t
  cases u
  simp only [AttestedTuple.mk.injEq]
  exact ⟨domain, intent, ip, dumpInt_injective issued, dumpInt_injective expires, nonce⟩

theorem mintedPayload_eq (domain intentHash ip : Text) (iat exp : ℕ) (nonce : Text) :
    mintedPayload domain intentHash ip iat exp nonce =
      attestationPayload ⟨domain, intentHash, ip, iat, exp, nonce⟩ := by
  simp only [mintedPayload, attestationPayload, dumpInt_natCast]

section Fields

theorem separator_notMem_hexDigits (bs : Bytes) : '|' ∉ hexDigits bs :=
  fun h => forall_hexDigits (p := fun c => c ≠ '|') (by decide) bs '|' h rfl

theorem isLowerHex_hexDigits (bs : Bytes) : isLowerHex (hexDigits bs) = true := by
  rw [isLowerHex, List.all_eq_true]
  exact forall_hexDigits (by decide) bs

theorem separator_notMem_of_isLowerHex {t : Text} (h : isLowerHex t = true) : '|' ∉ t := by
  intro hc
  rw [isLowerHex, List.all_eq_true] at h
  exact absurd (h _ hc) (by decide)

theorem separator_notMem_of_isReferrerDomain {name : Text} (h : isReferrerDomain name = true) :
    '|' ∉ name := by
  simp only [isReferrerDomain, Bool.and_eq_true, List.all_eq_true] at h
  obtain ⟨⟨-, labels⟩, -⟩ := h
  have joined : ['.'].intercalate (name.splitOn '.') = name := List.intercalate_splitOn '.'
  rw [← joined]
  intro hc
  obtain ⟨label, hl, hc⟩ := (mem_joined hc).resolve_left (by decide)
  have valid := labels label hl
  simp only [isHostLabel, Bool.and_eq_true, List.all_eq_true] at valid
  obtain ⟨⟨⟨-, letters⟩, -⟩, -⟩ := valid
  exact absurd (letters _ hc) (by decide)

theorem length_encodeText {t : Text} (ascii : ∀ c ∈ t, c.toNat < 128) :
    (encodeText t).length = t.length := by
  induction t with
  | nil => rfl
  | cons c t ih =>
    have small : c.utf8Size = 1 := Char.utf8Size_eq_one_iff.mpr (by
      have := ascii c List.mem_cons_self
      rw [UInt32.le_iff_toNat_le]
      exact Nat.le_of_lt_succ this)
    rw [encodeText, List.flatMap_cons, List.length_append, String.length_utf8EncodeChar, small,
      ← encodeText, ih fun d hd => ascii d (List.mem_cons_of_mem _ hd), List.length_cons, Nat.add_comm]

end Fields

section Addresses
variable {lib : AttestationLibrary}

/-- The url parser prints the address of a bracketed host in the form that Python prints, and Python
reads this form. -/
def PrintsCanonical (lib : AttestationLibrary) : Prop :=
  ∀ url host, lib.urlHostname url = some ('[' :: host ++ [']']) →
    ∃ a : IPv6Address, host = a.compressed ∧ lib.parseIPv6 host = some a

/-- A text that the service takes for an address, if the address is public. -/
structure CanonicalIp (lib : AttestationLibrary) (ip : Text) : Prop where
  parsed : ∃ a, ipAddress lib ip = some a ∧ lower a.compressed = ip
  nonempty : ip ≠ []
  length : (encodeText ip).length ≤ 64
  zone : '%' ∉ ip
  separator : '|' ∉ ip

theorem parseOctet_of_isOctet {o : Text} (h : isOctet o = true) : ∃ n, parseOctet o = some n := by
  simp only [isOctet, Bool.and_eq_true, decide_eq_true_eq] at h
  obtain ⟨shape, small⟩ := h
  refine ⟨_, if_pos ?_⟩
  match o, shape with
  | c :: rest, shape =>
    simp only [Bool.or_eq_true, Bool.and_eq_true, decide_eq_true_eq, List.all_eq_true] at shape
    rcases shape with ⟨rfl, rfl⟩ | ⟨⟨⟨nonzero, digit⟩, digits⟩, length⟩
    · decide
    · refine ⟨by simp, ?_, by simp; omega, .inr (by simpa using nonzero), small⟩
      simpa [digit] using digits

theorem parseIPv4_of_isOctet {value : Text}
    (octets : ∀ o ∈ value.splitOn '.', isOctet o = true)
    (four : (value.splitOn '.').length = 4) : ∃ a, parseIPv4 value = some a := by
  have read : ∀ os : List Text, (∀ o ∈ os, isOctet o = true) →
      ∃ ns, os.mapM parseOctet = some ns ∧ ns.length = os.length := by
    intro os
    induction os with
    | nil => exact fun _ => ⟨[], rfl, rfl⟩
    | cons o os ih =>
      intro valid
      obtain ⟨n, hn⟩ := parseOctet_of_isOctet (valid o List.mem_cons_self)
      obtain ⟨ns, hns, length⟩ := ih fun x hx => valid x (List.mem_cons_of_mem _ hx)
      exact ⟨n :: ns, by simp [List.mapM_cons, hn, hns], by simp [length]⟩
  obtain ⟨ns, hns, length⟩ := read _ octets
  rw [four] at length
  exact ⟨⟨ns, length⟩, by simp [parseIPv4, hns, length]⟩

theorem mem_of_octets {value : Text} (octets : ∀ o ∈ value.splitOn '.', isOctet o = true)
    {c : Char} (h : c ∈ value) : c = '.' ∨ c.isDigit = true := by
  have joined : ['.'].intercalate (value.splitOn '.') = value := List.intercalate_splitOn '.'
  rw [← joined] at h
  refine (mem_joined h).imp_right fun ⟨o, ho, hc⟩ => ?_
  obtain ⟨n, hn⟩ := parseOctet_of_isOctet (octets o ho)
  rw [← decimal_parseOctet hn] at hc
  exact isDigit_of_mem_decimal hc

theorem canonicalIp_v4 {value : Text} (octets : ∀ o ∈ value.splitOn '.', isOctet o = true)
    (four : (value.splitOn '.').length = 4) (nonempty : value ≠ []) (length : value.length ≤ 64)
    (zone : '%' ∉ value) (separator : '|' ∉ value) : CanonicalIp lib value := by
  obtain ⟨a, read⟩ := parseIPv4_of_isOctet octets four
  have digit {c : Char} (h : c.isDigit = true) : c.toNat < 128 ∧ c.toLower = c := by
    obtain ⟨d, hd, rfl⟩ := digit_cases h
    interval_cases d <;> decide
  have chars : ∀ c ∈ value, c.toNat < 128 ∧ c.toLower = id c := by
    intro c hc
    rcases mem_of_octets octets hc with rfl | hd
    · decide
    · exact digit hd
  refine ⟨⟨.v4 a, by simp [ipAddress, read], ?_⟩, nonempty, ?_, zone, separator⟩
  · show lower a.compressed = value
    rw [compressed_parseIPv4 read, lower, List.map_congr_left fun c hc => (chars c hc).2,
      List.map_id]
  · rwa [length_encodeText fun c hc => (chars c hc).1]

theorem canonicalIp_v6 {host : Text} {a : IPv6Address} (form : host = a.compressed)
    (reads : lib.parseIPv6 host = some a) : CanonicalIp lib host := by
  subst form
  have chars : ∀ c ∈ a.compressed, c.toNat < 128 ∧ c ≠ '%' ∧ c ≠ '|' := by
    intro c hc
    rcases a.mem_compressed hc with rfl | hex
    · decide
    · have all : (hexAlphabet.all fun c => c.toNat < 128 ∧ c ≠ '%' ∧ c ≠ '|') = true := by decide
      exact of_decide_eq_true (List.all_eq_true.mp all c hex)
  refine ⟨⟨.v6 a, ?_, a.lower_compressed⟩, List.ne_nil_of_mem a.colon_mem, ?_,
    fun h => (chars _ h).2.1 rfl, fun h => (chars _ h).2.2 rfl⟩
  · rw [ipAddress, a.parseIPv4_compressed]
    simp [reads]
  · rw [length_encodeText fun c hc => (chars c hc).1]
    exact a.length_compressed

theorem bracketed {t : Text} (first : t.head? = some '[') (last : t.getLast? = some ']') :
    ∃ host, t = '[' :: host ++ [']'] := by
  obtain ⟨rest, rfl⟩ := List.head?_eq_some_iff.mp first
  obtain ⟨front, split⟩ := List.getLast?_eq_some_iff.mp last
  cases front with
  | nil => simp at split
  | cons c host =>
    obtain ⟨rfl, rfl⟩ := List.cons.inj split
    exact ⟨host, rfl⟩

/-- Every address that the worker signs is one that the service takes as it is written. -/
theorem canonicalizeIp_canonical (prints : PrintsCanonical lib) {header : Option Text} {ip : Text}
    (h : canonicalizeIp lib header = some ip) : CanonicalIp lib ip := by
  unfold canonicalizeIp at h
  split at h
  · cases h
  · next value =>
    split at h
    · cases h
    · next clean =>
      simp only [not_or, not_not] at clean
      obtain ⟨nonempty, length, -, zone, separator⟩ := clean
      split at h
      · dsimp only at h
        split at h
        · cases h
        · next octets =>
          simp only [not_or, not_not, Bool.not_eq_true, List.any_eq_false, Bool.not_eq_eq_eq_not,
            Bool.not_true, Bool.not_eq_false] at octets
          rw [List.intercalate_splitOn] at h
          obtain rfl := Option.some.inj h
          exact canonicalIp_v4 octets.2 octets.1 nonempty (by omega) zone separator
      · split at h
        · cases h
        · next hostname printed =>
          split at h
          · cases h
          · next brackets =>
            simp only [not_or, not_not] at brackets
            obtain ⟨host, rfl⟩ := bracketed brackets.1 brackets.2
            obtain ⟨a, form, reads⟩ := prints _ host printed
            have same : lower host = ip := by simpa using h
            rw [form, a.lower_compressed, ← form] at same
            exact same ▸ canonicalIp_v6 form reads

end Addresses

end Privana
