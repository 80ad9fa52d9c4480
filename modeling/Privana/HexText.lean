import Mathlib.Tactic.IntervalCases
import Privana.BigEndian

/-! Byte strings as hexadecimal text. Text is a list of ASCII characters; numbers and
bytes are written with lower-case digits and read with digits of either case. -/

namespace Privana
open BigEndian

abbrev Text := List Char

instance instLawfulBEqText : LawfulBEq Text := inferInstance

def text (s : String) : Text := s.toList

def lower (s : Text) : Text := s.map Char.toLower

def upperCase : Text := text "ABCDEFGHIJKLMNOPQRSTUVWXYZ"

def hexAlphabet : Text := text "0123456789abcdef"

def hexDigit (n : ℕ) : Char := hexAlphabet.getD n '0'

def hexValue (c : Char) : Option ℕ := hexAlphabet.idxOf? c.toLower

/-- `bytes.hex()`. -/
def hexDigits (bs : Bytes) : Text :=
  bs.flatMap fun b => [hexDigit (b.toNat / 16), hexDigit (b.toNat % 16)]

def hexText (bs : Bytes) : Text := '0' :: 'x' :: hexDigits bs

/-- Digits with single underscores between them. -/
def readDigits (n : ℕ) : Text → Option ℕ
  | [] => some n
  | '_' :: c :: rest => (hexValue c).bind fun d => readDigits (16 * n + d) rest
  | c :: rest => (hexValue c).bind fun d => readDigits (16 * n + d) rest

def strip (s : Text) : Text :=
  ((s.dropWhile Char.isWhitespace).reverse.dropWhile Char.isWhitespace).reverse

/-- With or without the prefix, in front of which no underscore may stand. -/
def readMagnitude : Text → Option ℕ
  | [] => none
  | c :: rest =>
    if c = '_' then none
    else match rest with
      | p :: d :: rest =>
        if c = '0' ∧ p.toLower = 'x' then readDigits 0 (d :: rest)
        else readDigits 0 (c :: p :: d :: rest)
      | _ => readDigits 0 (c :: rest)

/-- `int(s, 16)`. -/
def parseHex (s : Text) : Option ℤ :=
  match strip s with
  | [] => none
  | c :: rest =>
    if c = '-' then (readMagnitude rest).map fun n => -(n : ℤ)
    else if c = '+' then (readMagnitude rest).map Int.ofNat
    else (readMagnitude (c :: rest)).map Int.ofNat

theorem toLower_cases (c : Char) : c.toLower = c ∨ c ∈ upperCase := by
  by_cases h : 65 ≤ c.toNat ∧ c.toNat ≤ 90
  · right
    have hc := Char.ofNat_toNat c
    rw [← hc]
    obtain ⟨low, high⟩ := h
    interval_cases c.toNat <;> decide
  · left
    unfold Char.toLower
    rw [dif_neg]
    intro hv
    exact h ⟨by simpa using UInt32.le_iff_toNat_le.mp hv.1, by simpa using UInt32.le_iff_toNat_le.mp hv.2⟩

theorem forall_upperCase {p : Char → Prop} [DecidablePred p]
    (h : (upperCase.all fun u => decide (p u)) = true) : ∀ u ∈ upperCase, p u := by
  simpa [List.all_eq_true] using h

/-- What holds of the capitals holds of every character. -/
theorem toLower_congr {α : Type*} [DecidableEq α] {f : Char → α}
    (h : (upperCase.all fun u => decide (f u.toLower = f u)) = true) (c : Char) :
    f c.toLower = f c := by
  rcases toLower_cases c with same | upper
  · rw [same]
  · exact forall_upperCase h c upper

theorem toLower_toLower (c : Char) : c.toLower.toLower = c.toLower :=
  toLower_congr (by decide) c

theorem isWhitespace_toLower (c : Char) : c.toLower.isWhitespace = c.isWhitespace :=
  toLower_congr (by decide) c

theorem hexValue_toLower (c : Char) : hexValue c.toLower = hexValue c := by
  rw [hexValue, toLower_toLower, hexValue]

theorem toLower_eq_iff {d : Char}
    (h : (upperCase.all fun u => decide (u.toLower = d ↔ u = d)) = true) (c : Char) :
    c.toLower = d ↔ c = d := by
  rcases toLower_cases c with same | upper
  · rw [same]
  · exact forall_upperCase h c upper

theorem readDigits_cons {c : Char} (n : ℕ) (rest : Text) (h : c ≠ '_') :
    readDigits n (c :: rest) = (hexValue c).bind fun d => readDigits (16 * n + d) rest := by
  rw [readDigits]
  exact fun _ _ hc => absurd hc h

theorem readDigits_lower (n : ℕ) (s : Text) : readDigits n (lower s) = readDigits n s := by
  fun_induction readDigits n s with
  | case1 n => rfl
  | case2 n c rest ih =>
    simp only [lower, List.map_cons] at ih ⊢
    rw [show '_'.toLower = '_' from rfl, readDigits, hexValue_toLower]
    exact congrArg _ (funext ih)
  | case3 n c rest other ih =>
    simp only [lower, List.map_cons] at ih ⊢
    by_cases under : c = '_'
    · subst under
      cases rest with
      | nil => rfl
      | cons d rest => exact absurd rfl (other d rest rfl)
    · rw [readDigits_cons _ _ (mt (toLower_eq_iff (by decide) c).mp under), hexValue_toLower]
      exact congrArg _ (funext ih)

theorem strip_lower (s : Text) : strip (lower s) = lower (strip s) := by
  have white : Char.isWhitespace ∘ Char.toLower = Char.isWhitespace :=
    funext isWhitespace_toLower
  simp only [strip, lower, List.dropWhile_map, ← List.map_reverse, white]

theorem readMagnitude_lower (s : Text) : readMagnitude (lower s) = readMagnitude s := by
  rcases s with _ | ⟨c, _ | ⟨p, _ | ⟨d, rest⟩⟩⟩
  · rfl
  all_goals
    simp only [lower, List.map_cons, List.map_nil, readMagnitude, toLower_toLower,
      toLower_eq_iff (d := '_') (by decide), toLower_eq_iff (d := '0') (by decide)]
  · exact if_congr Iff.rfl rfl (readDigits_lower 0 [c])
  · exact if_congr Iff.rfl rfl (readDigits_lower 0 [c, p])
  · exact if_congr Iff.rfl rfl (if_congr Iff.rfl (readDigits_lower 0 (d :: rest))
      (readDigits_lower 0 (c :: p :: d :: rest)))

theorem parseHex_lower (s : Text) : parseHex (lower s) = parseHex s := by
  simp only [parseHex, strip_lower]
  cases strip s with
  | nil => rfl
  | cons c rest =>
    have whole : readMagnitude (c.toLower :: lower rest) = readMagnitude (c :: rest) :=
      readMagnitude_lower (c :: rest)
    have tail : readMagnitude (rest.map Char.toLower) = readMagnitude rest :=
      readMagnitude_lower rest
    simp only [lower, List.map_cons, toLower_eq_iff (d := '-') (by decide),
      toLower_eq_iff (d := '+') (by decide), tail]
    exact if_congr Iff.rfl rfl (if_congr Iff.rfl rfl (congrArg _ whole))

theorem hexValue_hexDigit {n : ℕ} (h : n < 16) : hexValue (hexDigit n) = some n := by
  interval_cases n <;> decide

theorem hexDigit_ne {n : ℕ} (h : n < 16) : hexDigit n ≠ '_' := by
  interval_cases n <;> decide

theorem toLower_hexDigit {n : ℕ} (h : n < 16) : (hexDigit n).toLower = hexDigit n := by
  interval_cases n <;> decide

theorem not_isWhitespace_hexDigit {n : ℕ} (h : n < 16) : (hexDigit n).isWhitespace = false := by
  interval_cases n <;> decide

theorem halves_lt (b : UInt8) : b.toNat / 16 < 16 ∧ b.toNat % 16 < 16 := by
  have hb := b.toNat_lt
  omega

/-- What holds of the sixteen digits holds of every character of the text of bytes. -/
theorem forall_hexDigits {p : Char → Prop} (h : ∀ n < 16, p (hexDigit n)) (bs : Bytes) :
    ∀ c ∈ hexDigits bs, p c := by
  intro c hc
  obtain ⟨b, -, hc⟩ := List.mem_flatMap.mp hc
  rcases List.mem_cons.mp hc with rfl | hc
  · exact h _ (halves_lt b).1
  · rw [List.mem_singleton.mp hc]
    exact h _ (halves_lt b).2

theorem lower_hexText (bs : Bytes) : lower (hexText bs) = hexText bs := by
  have digits : lower (hexDigits bs) = hexDigits bs := by
    have each := forall_hexDigits (p := fun c => c.toLower = c) (fun _ => toLower_hexDigit) bs
    exact (List.map_congr_left each).trans (List.map_id _)
  rw [hexText, lower, List.map_cons, List.map_cons]
  exact congrArg _ (congrArg _ digits)

theorem hexDigits_cons (b : UInt8) (bs : Bytes) :
    hexDigits (b :: bs) =
      hexDigit (b.toNat / 16) :: hexDigit (b.toNat % 16) :: hexDigits bs := rfl

theorem readDigits_hexDigits (n : ℕ) (bs : Bytes) :
    readDigits n (hexDigits bs) = some (bs.foldl (fun acc b => acc * 256 + b.toNat) n) := by
  induction bs generalizing n with
  | nil => rfl
  | cons b bs ih =>
    obtain ⟨high, low⟩ := halves_lt b
    rw [hexDigits_cons, readDigits_cons _ _ (hexDigit_ne high), hexValue_hexDigit high,
      Option.bind_some, readDigits_cons _ _ (hexDigit_ne low), hexValue_hexDigit low,
      Option.bind_some, ih, List.foldl_cons]
    congr 2
    omega

theorem hexDigits_injective {as bs : Bytes} (h : hexDigits as = hexDigits bs) : as = bs := by
  induction as generalizing bs with
  | nil =>
    cases bs with
    | nil => rfl
    | cons b bs => cases h
  | cons a as ih =>
    cases bs with
    | nil => cases h
    | cons b bs =>
      obtain ⟨first, second, rest⟩ : hexDigit (a.toNat / 16) = hexDigit (b.toNat / 16) ∧
          hexDigit (a.toNat % 16) = hexDigit (b.toNat % 16) ∧ hexDigits as = hexDigits bs := by
        simpa [hexDigits_cons] using h
      have first := congrArg hexValue first
      have second := congrArg hexValue second
      rw [hexValue_hexDigit (halves_lt a).1, hexValue_hexDigit (halves_lt b).1] at first
      rw [hexValue_hexDigit (halves_lt a).2, hexValue_hexDigit (halves_lt b).2] at second
      have same : a = b := by
        apply UInt8.toNat_inj.mp
        rw [← Nat.div_add_mod a.toNat 16, ← Nat.div_add_mod b.toNat 16, Option.some.inj first,
          Option.some.inj second]
      rw [same, ih rest]

theorem hexText_injective {as bs : Bytes} (h : hexText as = hexText bs) : as = bs :=
  hexDigits_injective (List.cons.inj (List.cons.inj h).2).2

@[simp] theorem hexDigits_length (bs : Bytes) : (hexDigits bs).length = 2 * bs.length := by
  induction bs with
  | nil => rfl
  | cons b bs ih =>
    rw [hexDigits_cons, List.length_cons, List.length_cons, ih, List.length_cons]
    omega

theorem hexDigits_drop (n : ℕ) (bs : Bytes) :
    (hexDigits bs).drop (2 * n) = hexDigits (bs.drop n) := by
  induction n generalizing bs with
  | zero => rfl
  | succ n ih =>
    cases bs with
    | nil => rfl
    | cons b bs =>
      rw [hexDigits_cons, List.drop_succ_cons, ← ih bs]
      rfl

theorem strip_of_forall {s : Text} (h : ∀ c ∈ s, c.isWhitespace = false) : strip s = s := by
  have clean : ∀ t : Text, (∀ c ∈ t, c.isWhitespace = false) →
      t.dropWhile Char.isWhitespace = t := by
    intro t ht
    cases t with
    | nil => rfl
    | cons c t => rw [List.dropWhile_cons_of_neg (by simp [ht c List.mem_cons_self])]
  rw [strip, clean s h, clean s.reverse fun c hc => h c (List.mem_reverse.mp hc),
    List.reverse_reverse]

theorem parseHex_hexText {bs : Bytes} (nonempty : bs ≠ []) :
    parseHex (hexText bs) = some (decode bs : ℤ) := by
  have clean : strip (hexText bs) = hexText bs := by
    refine strip_of_forall fun c hc => ?_
    rcases List.mem_cons.mp hc with rfl | hc
    · rfl
    rcases List.mem_cons.mp hc with rfl | hc
    · rfl
    · exact forall_hexDigits (p := fun c => c.isWhitespace = false)
        (fun _ => not_isWhitespace_hexDigit) bs c hc
  obtain ⟨b, bs, rfl⟩ := List.exists_cons_of_ne_nil nonempty
  have magnitude : readMagnitude (hexText (b :: bs)) = some (decode (b :: bs)) := by
    rw [hexText, hexDigits_cons, readMagnitude, if_neg (by decide), if_pos ⟨rfl, by decide⟩,
      ← hexDigits_cons, readDigits_hexDigits]
    rfl
  rw [parseHex, clean]
  simp only [hexText] at magnitude ⊢
  rw [if_neg (by decide), if_neg (by decide), magnitude]
  rfl

/-- Text of either case is read as the number that the bytes denote. -/
theorem parseHex_of_lower {s : Text} {bs : Bytes} (h : lower s = hexText bs)
    (nonempty : bs ≠ []) : parseHex s = some (decode bs : ℤ) := by
  rw [← parseHex_lower, h, parseHex_hexText nonempty]

end Privana
