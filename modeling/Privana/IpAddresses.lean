import Mathlib.Data.List.Basic
import Privana.HexText

/-! IP addresses as Python's `ipaddress` writes and reads them. Four decimal octets, or eight groups
of hexadecimal digits with the first longest run of zero groups left out. -/

namespace Privana

structure IPv4Address where
  octets : List (BitVec 8)
  length_eq : octets.length = 4
  deriving DecidableEq

structure IPv6Address where
  hextets : List (BitVec 16)
  length_eq : hextets.length = 8
  deriving DecidableEq

inductive IpAddress where
  | v4 (a : IPv4Address)
  | v6 (a : IPv6Address)
  deriving DecidableEq

section Joining
variable {α : Type} {x c : α} {ls : List (List α)}

theorem mem_joined (h : c ∈ [x].intercalate ls) : c = x ∨ ∃ l ∈ ls, c ∈ l := by
  induction ls with
  | nil => simp at h
  | cons l ls ih =>
    rcases eq_or_ne ls [] with rfl | rest
    · exact .inr ⟨l, List.mem_cons_self, by simpa using h⟩
    · rw [List.intercalate_cons_of_ne_nil rest] at h
      simp only [List.mem_append, List.mem_singleton] at h
      rcases h with (h | h) | h
      · exact .inr ⟨l, List.mem_cons_self, h⟩
      · exact .inl h
      · exact (ih h).imp_right fun ⟨k, hk, hc⟩ => ⟨k, List.mem_cons_of_mem _ hk, hc⟩

theorem length_joined_le {n : ℕ} (h : ∀ l ∈ ls, l.length ≤ n) :
    ([x].intercalate ls).length ≤ ls.length * (n + 1) := by
  induction ls with
  | nil => simp
  | cons l ls ih =>
    have first := h l List.mem_cons_self
    have rest := ih fun k hk => h k (List.mem_cons_of_mem _ hk)
    rw [List.length_cons, Nat.succ_mul]
    rcases eq_or_ne ls [] with rfl | more
    · simp
      omega
    · rw [List.intercalate_cons_of_ne_nil more, List.length_append, List.length_append,
        List.length_singleton]
      omega

theorem separator_mem_joined (h : 2 ≤ ls.length) : x ∈ [x].intercalate ls := by
  match ls, h with
  | l :: k :: rest, _ =>
    rw [List.intercalate_cons_of_ne_nil (List.cons_ne_nil _ _)]
    simp

end Joining

def decimal (n : ℕ) : Text := Nat.toDigits 10 n

theorem decimal_injective {m n : ℕ} (h : decimal m = decimal n) : m = n := by
  have same := congrArg (fun t => Nat.ofDigitChars 10 t 0) h
  simpa [decimal] using same

theorem isDigit_of_mem_decimal {c : Char} {n : ℕ} (h : c ∈ decimal n) : c.isDigit = true :=
  Nat.isDigit_of_mem_toDigits (by decide) (by decide) h

/-- Digits without leading zeros. -/
def CanonicalDecimal (t : Text) : Prop :=
  t ≠ [] ∧ (∀ c ∈ t, c.isDigit = true) ∧ (t = ['0'] ∨ t.head? ≠ some '0')

theorem digit_cases {c : Char} (h : c.isDigit = true) : ∃ d < 10, c = Nat.digitChar d := by
  have bounds : 48 ≤ c.toNat ∧ c.toNat ≤ 57 := by
    simp only [Char.isDigit, Bool.and_eq_true, decide_eq_true_eq] at h
    exact h
  refine ⟨c.toNat - 48, by omega, ?_⟩
  have same : c = Char.ofNat c.toNat := (Char.ofNat_toNat c).symm
  rw [same]
  generalize c.toNat = n at bounds
  obtain ⟨low, high⟩ := bounds
  interval_cases n <;> rfl

theorem decimal_ofDigitChars {t : Text} (h : CanonicalDecimal t) :
    decimal (Nat.ofDigitChars 10 t 0) = t := by
  induction t using List.reverseRecOn with
  | nil => exact absurd rfl h.1
  | append_singleton p c ih =>
    obtain ⟨-, digits, leading⟩ := h
    obtain ⟨d, hd, rfl⟩ := digit_cases (digits c (by simp))
    rcases eq_or_ne p [] with rfl | nonempty
    · rw [List.nil_append, Nat.ofDigitChars_cons_digitChar_of_lt_ten hd, Nat.ofDigitChars_nil,
        Nat.mul_zero, Nat.zero_add]
      exact Nat.toDigits_of_lt_base hd
    · have first : p.head? ≠ some '0' := by
        rcases leading with single | head
        · have lengths := congrArg List.length single
          rw [List.length_append, List.length_singleton, List.length_singleton] at lengths
          exact absurd (List.length_eq_zero_iff.mp (by omega)) nonempty
        · rwa [List.head?_append_of_ne_nil _ nonempty] at head
      have before := ih ⟨nonempty, fun x hx => digits x (by simp [hx]), .inr first⟩
      have positive : 0 < Nat.ofDigitChars 10 p 0 := by
        refine Nat.pos_of_ne_zero fun zero => first ?_
        rw [← before, zero]
        rfl
      rw [Nat.ofDigitChars_append, Nat.ofDigitChars_cons_digitChar_of_lt_ten hd,
        Nat.ofDigitChars_nil, decimal, ← Nat.toDigits_append_toDigits (by decide) positive hd,
        Nat.toDigits_of_lt_base hd]
      exact congrArg (· ++ _) before

/-- No sign, no leading zero. -/
def parseOctet (o : Text) : Option (BitVec 8) :=
  if o ≠ [] ∧ o.all Char.isDigit ∧ o.length ≤ 3 ∧ (o = ['0'] ∨ o.head? ≠ some '0') ∧
      Nat.ofDigitChars 10 o 0 ≤ 255
    then some (BitVec.ofNat 8 (Nat.ofDigitChars 10 o 0)) else none

theorem decimal_parseOctet {o : Text} {n : BitVec 8} (h : parseOctet o = some n) :
    decimal n.toNat = o := by
  unfold parseOctet at h
  split at h
  · next valid =>
    obtain ⟨nonempty, digits, -, leading, small⟩ := valid
    obtain rfl := Option.some.inj h
    rw [BitVec.toNat_ofNat, Nat.mod_eq_of_lt (by omega)]
    exact decimal_ofDigitChars ⟨nonempty, by simpa using digits, leading⟩
  · cases h

def parseIPv4 (s : Text) : Option IPv4Address := do
  let octets ← (s.splitOn '.').mapM parseOctet
  if length_eq : octets.length = 4 then some ⟨octets, length_eq⟩ else none

def IPv4Address.compressed (a : IPv4Address) : Text :=
  ['.'].intercalate (a.octets.map fun o => decimal o.toNat)

theorem map_decimal_mapM {os : List Text} {ns : List (BitVec 8)}
    (h : os.mapM parseOctet = some ns) :
    ns.map (fun n => decimal n.toNat) = os := by
  induction os generalizing ns with
  | nil =>
    obtain rfl : [] = ns := by simpa using h
    rfl
  | cons o os ih =>
    simp only [List.mapM_cons, Option.bind_eq_bind, Option.bind_eq_some_iff, Option.pure_def,
      Option.some.injEq] at h
    obtain ⟨n, hn, ns, hns, rfl⟩ := h
    rw [List.map_cons, decimal_parseOctet hn, ih hns]

theorem compressed_parseIPv4 {s : Text} {a : IPv4Address} (h : parseIPv4 s = some a) :
    a.compressed = s := by
  obtain ⟨octets, read, h⟩ := Option.bind_eq_some_iff.mp h
  split at h
  · obtain rfl := Option.some.inj h
    rw [IPv4Address.compressed, map_decimal_mapM read, List.intercalate_splitOn]
  · cases h

theorem parseIPv4_eq_none {s : Text} (colon : ':' ∈ s) : parseIPv4 s = none := by
  have octet : ∃ o ∈ s.splitOn '.', ':' ∈ o := by
    have joined : ['.'].intercalate (s.splitOn '.') = s := List.intercalate_splitOn '.'
    rw [← joined] at colon
    exact (mem_joined colon).resolve_left (by decide)
  have none : (s.splitOn '.').mapM parseOctet = none := by
    obtain ⟨o, ho, hc⟩ := octet
    rw [Option.eq_none_iff_forall_not_mem]
    intro ns hns
    have same := map_decimal_mapM hns
    rw [← same] at ho
    obtain ⟨n, -, rfl⟩ := List.mem_map.mp ho
    exact absurd (isDigit_of_mem_decimal hc) (by decide)
  simp [parseIPv4, none]

section Groups

def hextetText (h : BitVec 16) : Text := Nat.toDigits 16 h.toNat

/-- How many zero groups follow from a position on. -/
def zeroRun (hextets : List Text) (i : ℕ) : ℕ :=
  ((hextets.drop i).takeWhile (· = ['0'])).length

/-- The first longest run, with its length. -/
def longestZeroRun (hextets : List Text) : ℕ × ℕ :=
  (List.range hextets.length).foldl
    (fun best i => if best.2 < zeroRun hextets i then (i, zeroRun hextets i) else best) (0, 0)

def compressHextets (hextets : List Text) : List Text :=
  let (start, run) := longestZeroRun hextets
  if run ≤ 1 then hextets
  else
    (if start = 0 then [[]] else []) ++ hextets.take start ++ [[]] ++ hextets.drop (start + run) ++
      if start + run = hextets.length then [[]] else []

def IPv6Address.compressed (a : IPv6Address) : Text :=
  [':'].intercalate (compressHextets (a.hextets.map hextetText))

example : IPv6Address.compressed ⟨[0x2001, 0xdb8, 0, 0, 1, 0, 0, 1], rfl⟩ =
      text "2001:db8::1:0:0:1" ∧
    IPv6Address.compressed ⟨[0, 0, 0, 0, 0, 0, 0, 0], rfl⟩ = text "::" := by
  decide

theorem mem_compressHextets {hextets : List Text} {t : Text} (h : t ∈ compressHextets hextets) :
    t = [] ∨ t ∈ hextets := by
  simp only [compressHextets] at h
  split at h
  · exact .inr h
  · simp only [List.mem_append, List.mem_singleton] at h
    have ends {p : Prop} [Decidable p] (ht : t ∈ if p then [[]] else []) : t = [] := by
      split at ht <;> simp_all
    rcases h with (((h | h) | h) | h) | h
    · exact .inl (ends h)
    · exact .inr (List.mem_of_mem_take h)
    · exact .inl h
    · exact .inr (List.mem_of_mem_drop h)
    · exact .inl (ends h)

theorem length_compressHextets (hextets : List Text) :
    (compressHextets hextets).length ≤ hextets.length + 3 := by
  simp only [compressHextets]
  split
  · omega
  · simp only [List.length_append, List.length_take, List.length_drop, List.length_singleton]
    split <;> split <;> simp <;> omega

theorem two_le_length_compressHextets {hextets : List Text} (h : 2 ≤ hextets.length) :
    2 ≤ (compressHextets hextets).length := by
  simp only [compressHextets]
  split
  · exact h
  · simp only [List.length_append, List.length_take, List.length_singleton]
    split <;> simp <;> omega

theorem digitChar_mem_hexAlphabet {d : ℕ} (h : d < 16) : Nat.digitChar d ∈ hexAlphabet := by
  interval_cases d <;> decide

theorem mem_hextetText {c : Char} {n : ℕ} (hc : c ∈ Nat.toDigits 16 n) : c ∈ hexAlphabet := by
  induction n using Nat.strongRecOn with
  | ind n ih =>
    rcases Nat.lt_or_ge n 16 with small | large
    · rw [Nat.toDigits_of_lt_base small, List.mem_singleton] at hc
      exact hc ▸ digitChar_mem_hexAlphabet small
    · rw [Nat.toDigits_of_base_le (by decide) large, List.mem_append, List.mem_singleton] at hc
      rcases hc with hc | rfl
      · exact ih _ (by omega) hc
      · exact digitChar_mem_hexAlphabet (Nat.mod_lt _ (by decide))

theorem length_hextetText (h : BitVec 16) : (hextetText h).length ≤ 4 :=
  (Nat.length_toDigits_le_iff (by decide) (by decide)).mpr h.isLt

namespace IPv6Address
variable (a : IPv6Address)

theorem colon_mem : ':' ∈ a.compressed :=
  separator_mem_joined (two_le_length_compressHextets (by simp [a.length_eq]))

theorem mem_compressed {c : Char} (h : c ∈ a.compressed) : c = ':' ∨ c ∈ hexAlphabet := by
  refine (mem_joined h).imp_right fun ⟨t, ht, hc⟩ => ?_
  rcases mem_compressHextets ht with rfl | ht
  · cases hc
  · obtain ⟨x, -, rfl⟩ := List.mem_map.mp ht
    exact mem_hextetText hc

theorem length_compressed : a.compressed.length ≤ 64 := by
  have groups := length_compressHextets (a.hextets.map hextetText)
  have each : ∀ t ∈ compressHextets (a.hextets.map hextetText), t.length ≤ 4 := by
    intro t ht
    rcases mem_compressHextets ht with rfl | ht
    · exact Nat.zero_le _
    · obtain ⟨x, -, rfl⟩ := List.mem_map.mp ht
      exact length_hextetText x
  have joined := length_joined_le (x := ':') each
  rw [List.length_map, a.length_eq] at groups
  rw [compressed]
  omega

theorem lower_compressed : lower a.compressed = a.compressed := by
  have kept : ∀ c ∈ a.compressed, c.toLower = id c := by
    intro c hc
    rcases a.mem_compressed hc with rfl | hex
    · rfl
    · have all : (hexAlphabet.all fun c => c.toLower = c) = true := by decide
      exact of_decide_eq_true (List.all_eq_true.mp all c hex)
  rw [lower, List.map_congr_left kept, List.map_id]

theorem parseIPv4_compressed : parseIPv4 a.compressed = none := parseIPv4_eq_none a.colon_mem

end IPv6Address

end Groups

end Privana
