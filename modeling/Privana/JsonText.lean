import Privana.HexText

/-! JSON text. The reader takes every document of the grammar; the writer escapes what is not
printable ASCII and leaves no space, and what it writes of a flat object is read back. -/

namespace Privana

inductive Json where
  | null
  | bool (b : Bool)
  | int (n : ℤ)
  | float (lexeme : Text)
  | str (s : Text)
  | arr (items : List Json)
  | obj (members : List (Text × Json))

def isSpace (c : Char) : Bool := c = ' ' || c = '\t' || c = '\n' || c = '\r'

def skipSpace (s : Text) : Text := s.dropWhile isSpace

def readHex4 (a b c d : Char) : Option ℕ := do
  let a ← hexValue a
  let b ← hexValue b
  let c ← hexValue c
  let d ← hexValue d
  return 4096 * a + 256 * b + 16 * c + d

def isHighSurrogate (n : ℕ) : Bool := 0xD800 ≤ n && n < 0xDC00

def isLowSurrogate (n : ℕ) : Bool := 0xDC00 ≤ n && n < 0xE000

/-- A lone surrogate is no character; it is read as the replacement character. -/
def codePoint (n : ℕ) : Char := if n.isValidChar then Char.ofNat n else Char.ofNat 0xFFFD

def joinSurrogates : List ℕ → Text
  | [] => []
  | [n] => [codePoint n]
  | high :: low :: units =>
    if isHighSurrogate high && isLowSurrogate low then
      codePoint (0x10000 + 0x400 * (high - 0xD800) + (low - 0xDC00)) :: joinSurrogates units
    else codePoint high :: joinSurrogates (low :: units)

def unescape (c : Char) : Option ℕ :=
  if c = '"' then some 34
  else if c = '\\' then some 92
  else if c = '/' then some 47
  else if c = 'b' then some 8
  else if c = 'f' then some 12
  else if c = 'n' then some 10
  else if c = 'r' then some 13
  else if c = 't' then some 9
  else none

def consUnit (n : ℕ) (scanned : Option (List ℕ × Text)) : Option (List ℕ × Text) :=
  scanned.map fun x => (n :: x.1, x.2)

/-- The code units of a string behind its opening quote, and what follows its closing one. -/
def scanUnits : Text → Option (List ℕ × Text)
  | [] => none
  | c :: rest =>
    if c = '"' then some ([], rest)
    else if c = '\\' then
      match rest with
      | [] => none
      | e :: rest =>
        if e = 'u' then
          match rest with
          | h₁ :: h₂ :: h₃ :: h₄ :: rest =>
            (readHex4 h₁ h₂ h₃ h₄).bind fun n => consUnit n (scanUnits rest)
          | _ => none
        else (unescape e).bind fun n => consUnit n (scanUnits rest)
    else if c.toNat < 32 then none
    else consUnit c.toNat (scanUnits rest)

def scanString (s : Text) : Option (Text × Text) :=
  (scanUnits s).map fun x => (joinSurrogates x.1, x.2)

/-- A zero stands alone; other numbers do not start with one. -/
def scanDigits (s : Text) : Option (Text × Text) :=
  match s with
  | [] => none
  | c :: rest =>
    if c = '0' then some ([c], rest)
    else if c.isDigit then some (s.takeWhile Char.isDigit, s.dropWhile Char.isDigit)
    else none

def scanFraction (s : Text) : Text × Text :=
  match s with
  | '.' :: d :: rest =>
    if d.isDigit then ('.' :: (d :: rest).takeWhile Char.isDigit, (d :: rest).dropWhile Char.isDigit)
    else ([], s)
  | _ => ([], s)

def scanExponent (s : Text) : Text × Text :=
  match s with
  | e :: rest =>
    if e = 'e' || e = 'E' then
      let sign := rest.takeWhile fun c => c = '+' || c = '-'
      let digits := rest.dropWhile fun c => c = '+' || c = '-'
      if sign.length ≤ 1 && (digits.takeWhile Char.isDigit) ≠ [] then
        (e :: sign ++ digits.takeWhile Char.isDigit, digits.dropWhile Char.isDigit)
      else ([], s)
    else ([], s)
  | [] => ([], s)

def scanMagnitude (negative : Bool) (s : Text) : Option (Json × Text) :=
  (scanDigits s).map fun x =>
    let fraction := scanFraction x.2
    let exponent := scanExponent fraction.2
    if fraction.1 = [] && exponent.1 = [] then
      (.int (if negative then -(Nat.ofDigitChars 10 x.1 0 : ℤ) else Nat.ofDigitChars 10 x.1 0), x.2)
    else
      (.float ((if negative then ['-'] else []) ++ x.1 ++ fraction.1 ++ exponent.1), exponent.2)

def scanNumber : Text → Option (Json × Text)
  | [] => none
  | c :: rest => if c = '-' then scanMagnitude true rest else scanMagnitude false (c :: rest)

def jsonConstants : List (Text × Json) :=
  [(text "null", .null), (text "true", .bool true), (text "false", .bool false),
    (text "NaN", .float (text "NaN")), (text "Infinity", .float (text "Infinity")),
    (text "-Infinity", .float (text "-Infinity"))]

/-- A constant or a number. -/
def scanScalar (s : Text) : Option (Json × Text) :=
  match jsonConstants.find? fun x => x.1.isPrefixOf s with
  | some x => some (x.2, s.drop x.1.length)
  | none => scanNumber s

mutual

def parseValue : ℕ → Text → Option (Json × Text)
  | 0, _ => none
  | _, [] => none
  | fuel + 1, c :: rest =>
    if c = '"' then (scanString rest).map fun x => (.str x.1, x.2)
    else if c = '{' then
      match skipSpace rest with
      | '}' :: rest => some (.obj [], rest)
      | rest => (parseMembers fuel rest).map fun x => (.obj x.1, x.2)
    else if c = '[' then
      match skipSpace rest with
      | ']' :: rest => some (.arr [], rest)
      | rest => (parseItems fuel rest).map fun x => (.arr x.1, x.2)
    else scanScalar (c :: rest)

def parseMembers : ℕ → Text → Option (List (Text × Json) × Text)
  | 0, _ => none
  | _, [] => none
  | fuel + 1, c :: rest =>
    if c = '"' then
      (scanString rest).bind fun key =>
        match skipSpace key.2 with
        | ':' :: rest =>
          (parseValue fuel (skipSpace rest)).bind fun value =>
            match skipSpace value.2 with
            | '}' :: rest => some ([(key.1, value.1)], rest)
            | ',' :: rest =>
              (parseMembers fuel (skipSpace rest)).map fun x => ((key.1, value.1) :: x.1, x.2)
            | _ => none
        | _ => none
    else none

def parseItems : ℕ → Text → Option (List Json × Text)
  | 0, _ => none
  | fuel + 1, s =>
    (parseValue fuel s).bind fun value =>
      match skipSpace value.2 with
      | ']' :: rest => some ([value.1], rest)
      | ',' :: rest => (parseItems fuel (skipSpace rest)).map fun x => (value.1 :: x.1, x.2)
      | _ => none

end

/-- `json.loads` of a text. -/
def jsonLoads (s : Text) : Option Json :=
  (parseValue (s.length + 1) (skipSpace s)).bind fun x =>
    if skipSpace x.2 = [] then some x.1 else none

def unitEscape (n : ℕ) : Text :=
  ['\\', 'u', hexDigit (n / 4096 % 16), hexDigit (n / 256 % 16), hexDigit (n / 16 % 16),
    hexDigit (n % 16)]

def escapeChar (c : Char) : Text :=
  if c = '"' then ['\\', '"']
  else if c = '\\' then ['\\', '\\']
  else if c = '\n' then ['\\', 'n']
  else if c = '\r' then ['\\', 'r']
  else if c = '\t' then ['\\', 't']
  else if c.toNat = 12 then ['\\', 'f']
  else if c.toNat = 8 then ['\\', 'b']
  else if 32 ≤ c.toNat ∧ c.toNat < 127 then [c]
  else if c.toNat < 0x10000 then unitEscape c.toNat
  else unitEscape (0xD800 + (c.toNat - 0x10000) / 0x400) ++
    unitEscape (0xDC00 + (c.toNat - 0x10000) % 0x400)

def dumpString (s : Text) : Text := '"' :: s.flatMap escapeChar ++ ['"']

/-- The values of a flat object. -/
inductive Scalar where
  | int (n : ℤ)
  | str (s : Text)
  deriving DecidableEq

def Scalar.toJson : Scalar → Json
  | .int n => .int n
  | .str s => .str s

def dumpInt (n : ℤ) : Text :=
  if n < 0 then '-' :: Nat.toDigits 10 n.natAbs else Nat.toDigits 10 n.natAbs

def Scalar.dump : Scalar → Text
  | .int n => dumpInt n
  | .str s => dumpString s

def dumpMembers : List (Text × Scalar) → Text
  | [] => []
  | [x] => dumpString x.1 ++ ':' :: x.2.dump
  | x :: xs => dumpString x.1 ++ ':' :: x.2.dump ++ ',' :: dumpMembers xs

/-- `json.dumps` of a flat object whose members are sorted, without spaces and in ASCII. -/
def jsonDumps (members : List (Text × Scalar)) : Text := '{' :: dumpMembers members ++ ['}']

/-- The code units of an escaped character. -/
def unitsOf (c : Char) : List ℕ :=
  if c.toNat < 0x10000 then [c.toNat]
  else [0xD800 + (c.toNat - 0x10000) / 0x400, 0xDC00 + (c.toNat - 0x10000) % 0x400]

theorem readHex4_digits {n : ℕ} (h : n < 0x10000) :
    readHex4 (hexDigit (n / 4096 % 16)) (hexDigit (n / 256 % 16)) (hexDigit (n / 16 % 16))
      (hexDigit (n % 16)) = some n := by
  have value (m : ℕ) : hexValue (hexDigit (m % 16)) = some (m % 16) :=
    hexValue_hexDigit (Nat.mod_lt _ (by omega))
  simp only [readHex4, value, bind, Option.bind, pure]
  congr 1
  omega

theorem toNat_bounds (c : Char) :
    c.toNat < 0xD800 ∨ 0xDFFF < c.toNat ∧ c.toNat < 0x110000 := c.valid

theorem scanUnits_quote (rest : Text) : scanUnits ('"' :: rest) = some ([], rest) := by
  rw [scanUnits.eq_def]
  rfl

theorem scanUnits_plain {c : Char} (quote : c ≠ '"') (backslash : c ≠ '\\')
    (printable : 32 ≤ c.toNat) (rest : Text) :
    scanUnits (c :: rest) = consUnit c.toNat (scanUnits rest) := by
  rw [scanUnits.eq_def]
  dsimp only
  rw [if_neg quote, if_neg backslash, if_neg (by omega)]

theorem scanUnits_unitEscape {n : ℕ} (h : n < 0x10000) (rest : Text) :
    scanUnits (unitEscape n ++ rest) = consUnit n (scanUnits rest) := by
  have read := readHex4_digits h
  simp only [unitEscape, List.cons_append, List.nil_append]
  rw [scanUnits.eq_def]
  dsimp only
  rw [if_neg (by decide), if_pos rfl, if_pos rfl, read]
  rfl

theorem scanUnits_unescape {e : Char} {n : ℕ} (h : unescape e = some n) (other : e ≠ 'u')
    (rest : Text) : scanUnits ('\\' :: e :: rest) = consUnit n (scanUnits rest) := by
  rw [scanUnits.eq_def]
  dsimp only
  rw [if_neg (by decide), if_pos rfl, if_neg other, h]
  rfl

theorem scanUnits_escapeChar (c : Char) (rest : Text) :
    scanUnits (escapeChar c ++ rest) =
      (unitsOf c).foldr consUnit (scanUnits rest) := by
  have bounds := toNat_bounds c
  have short {e : Char} (h : unescape e = some c.toNat) (other : e ≠ 'u')
      (low : c.toNat < 0x10000) : scanUnits (['\\', e] ++ rest) =
        (unitsOf c).foldr consUnit (scanUnits rest) := by
    rw [unitsOf, if_pos low]
    exact scanUnits_unescape h other rest
  unfold escapeChar
  split_ifs with quote backslash newline return_ tab feed back printable basic
  · subst quote
    exact short rfl (by decide) (by decide)
  · subst backslash
    exact short rfl (by decide) (by decide)
  · subst newline
    exact short rfl (by decide) (by decide)
  · subst return_
    exact short rfl (by decide) (by decide)
  · subst tab
    exact short rfl (by decide) (by decide)
  · exact short (by rw [feed]; rfl) (by decide) (by omega)
  · exact short (by rw [back]; rfl) (by decide) (by omega)
  · rw [unitsOf, if_pos (by omega), List.cons_append, List.nil_append,
      scanUnits_plain quote backslash printable.1]
    rfl
  · rw [unitsOf, if_pos basic]
    exact scanUnits_unitEscape basic rest
  · rw [unitsOf, if_neg basic, List.append_assoc, scanUnits_unitEscape (by omega),
      scanUnits_unitEscape (by omega)]
    rfl

theorem isHighSurrogate_toNat (c : Char) : isHighSurrogate c.toNat = false := by
  have bounds := toNat_bounds c
  simp only [isHighSurrogate, Bool.and_eq_false_iff, decide_eq_false_iff_not]
  omega

theorem codePoint_toNat (c : Char) : codePoint c.toNat = c := by
  have valid : c.toNat.isValidChar := c.valid
  rw [codePoint, if_pos valid, Char.ofNat_toNat]

theorem joinSurrogates_unitsOf (c : Char) (units : List ℕ) :
    joinSurrogates (unitsOf c ++ units) = c :: joinSurrogates units := by
  by_cases basic : c.toNat < 0x10000
  · rw [unitsOf, if_pos basic, List.cons_append, List.nil_append]
    cases units with
    | nil => rw [joinSurrogates.eq_2, codePoint_toNat, joinSurrogates]
    | cons n units =>
      rw [joinSurrogates, isHighSurrogate_toNat, Bool.false_and, if_neg (by decide),
        codePoint_toNat]
  · have bounds := toNat_bounds c
    have pair : (isHighSurrogate (0xD800 + (c.toNat - 0x10000) / 0x400) &&
        isLowSurrogate (0xDC00 + (c.toNat - 0x10000) % 0x400)) = true := by
      simp only [isHighSurrogate, isLowSurrogate, Bool.and_eq_true, decide_eq_true_eq]
      omega
    have joined : 0x10000 + 0x400 * (0xD800 + (c.toNat - 0x10000) / 0x400 - 0xD800) +
        (0xDC00 + (c.toNat - 0x10000) % 0x400 - 0xDC00) = c.toNat := by omega
    rw [unitsOf, if_neg basic, List.cons_append, List.cons_append, List.nil_append, joinSurrogates,
      if_pos pair, joined, codePoint_toNat]

theorem scanUnits_escaped (s rest : Text) :
    scanUnits (s.flatMap escapeChar ++ '"' :: rest) = some (s.flatMap unitsOf, rest) := by
  induction s with
  | nil =>
    rw [List.flatMap_nil, List.nil_append, scanUnits_quote]
    rfl
  | cons c s ih =>
    rw [List.flatMap_cons, List.append_assoc, scanUnits_escapeChar, ih, List.flatMap_cons]
    generalize unitsOf c = units
    induction units with
    | nil => rfl
    | cons n units ih' => rw [List.foldr_cons, ih']; rfl

theorem joinSurrogates_units (s : Text) : joinSurrogates (s.flatMap unitsOf) = s := by
  induction s with
  | nil => rfl
  | cons c s ih => rw [List.flatMap_cons, joinSurrogates_unitsOf, ih]

/-- A dumped string is read back, whatever characters it has. -/
theorem scanString_escaped (s rest : Text) :
    scanString (s.flatMap escapeChar ++ '"' :: rest) = some (s, rest) := by
  rw [scanString, scanUnits_escaped, Option.map_some, joinSurrogates_units]

/-- What may follow a number that is to end where it ends. -/
def EndsNumber (rest : Text) : Prop := ∃ c t, rest = c :: t ∧ (c = ',' ∨ c = '}')

theorem EndsNumber.scans {rest : Text} (h : EndsNumber rest) :
    rest.takeWhile Char.isDigit = [] ∧ rest.dropWhile Char.isDigit = rest ∧
      scanFraction rest = ([], rest) ∧ scanExponent rest = ([], rest) := by
  obtain ⟨c, t, rfl, rfl | rfl⟩ := h <;> exact ⟨rfl, rfl, rfl, rfl⟩

theorem digitChar_ne_zero {d : ℕ} (h : d < 10) (positive : d ≠ 0) : Nat.digitChar d ≠ '0' := by
  interval_cases d <;> first | exact absurd rfl positive | decide

/-- Only zero starts with a zero. -/
theorem toDigits_head (n : ℕ) (positive : n ≠ 0) :
    ∃ c t, Nat.toDigits 10 n = c :: t ∧ c ≠ '0' := by
  induction n using Nat.strong_induction_on with
  | _ n ih =>
    by_cases small : n < 10
    · exact ⟨_, [], Nat.toDigits_of_lt_base small, digitChar_ne_zero small positive⟩
    · obtain ⟨c, t, digits, head⟩ := ih (n / 10) (by omega) (by omega)
      rw [Nat.toDigits_of_base_le (by decide) (by omega), digits]
      exact ⟨c, _, rfl, head⟩

theorem scanDigits_toDigits (n : ℕ) {rest : Text} (ends : EndsNumber rest) :
    scanDigits (Nat.toDigits 10 n ++ rest) = some (Nat.toDigits 10 n, rest) := by
  by_cases zero : n = 0
  · subst zero
    rfl
  · have digits : ∀ c ∈ Nat.toDigits 10 n, c.isDigit = true :=
      fun c hc => Nat.isDigit_of_mem_toDigits (by decide) (by decide) hc
    have taken : (Nat.toDigits 10 n ++ rest).takeWhile Char.isDigit = Nat.toDigits 10 n := by
      rw [List.takeWhile_append_of_pos digits, ends.scans.1, List.append_nil]
    have dropped : (Nat.toDigits 10 n ++ rest).dropWhile Char.isDigit = rest := by
      rw [List.dropWhile_append_of_pos digits, ends.scans.2.1]
    obtain ⟨c, t, number, head⟩ := toDigits_head n zero
    have digit : c.isDigit = true := digits c (by simp [number])
    rw [number, List.cons_append] at taken dropped ⊢
    rw [scanDigits, if_neg head, if_pos digit, taken, dropped]

theorem scanMagnitude_toDigits (negative : Bool) (n : ℕ) {rest : Text} (ends : EndsNumber rest) :
    scanMagnitude negative (Nat.toDigits 10 n ++ rest) =
      some (.int (if negative then -(n : ℤ) else n), rest) := by
  obtain ⟨-, -, fraction, exponent⟩ := ends.scans
  simp [scanMagnitude, scanDigits_toDigits n ends, fraction, exponent]

/-- The first character of a written integer. -/
theorem dumpInt_head (n : ℤ) : ∃ c t, dumpInt n = c :: t ∧
    (c = '-' ∧ n < 0 ∧ t = Nat.toDigits 10 n.natAbs ∨
      c.isDigit = true ∧ 0 ≤ n ∧ c :: t = Nat.toDigits 10 n.natAbs) := by
  unfold dumpInt
  split
  · next negative => exact ⟨_, _, rfl, .inl ⟨rfl, negative, rfl⟩⟩
  · next nonneg =>
    obtain ⟨c, t, number⟩ := List.exists_cons_of_ne_nil (Nat.toDigits_ne_nil (n := n.natAbs) (b := 10))
    refine ⟨c, t, number, .inr ⟨?_, by omega, number.symm⟩⟩
    have digits : c ∈ Nat.toDigits 10 n.natAbs := by simp [number]
    exact Nat.isDigit_of_mem_toDigits (by decide) (by decide) digits

theorem ne_of_isDigit {c d : Char} (h : c.isDigit = true) (other : d.isDigit = false) : c ≠ d := by
  rintro rfl
  rw [h] at other
  cases other

/-- A written integer is none of the constants. -/
theorem scanScalar_dumpInt (n : ℤ) {rest : Text} (ends : EndsNumber rest) :
    scanScalar (dumpInt n ++ rest) = some (.int n, rest) := by
  have number : scanNumber (dumpInt n ++ rest) = some (.int n, rest) := by
    obtain ⟨c, t, written, ⟨rfl, negative, digits⟩ | ⟨digit, nonneg, digits⟩⟩ := dumpInt_head n
    · rw [written, digits, List.cons_append, scanNumber, if_pos rfl,
        scanMagnitude_toDigits true _ ends]
      congr 3
      simp only [if_true]
      omega
    · rw [written, List.cons_append, scanNumber, if_neg (ne_of_isDigit digit rfl),
        ← List.cons_append, digits, scanMagnitude_toDigits false _ ends]
      congr 3
      simp only [Bool.false_eq_true, if_false]
      omega
  have other : (jsonConstants.find? fun x => x.1.isPrefixOf (dumpInt n ++ rest)) = none := by
    obtain ⟨c, t, written, ⟨rfl, negative, digits⟩ | ⟨digit, nonneg, digits⟩⟩ := dumpInt_head n
    · obtain ⟨d, u, head⟩ :=
        List.exists_cons_of_ne_nil (Nat.toDigits_ne_nil (n := n.natAbs) (b := 10))
      have member : d ∈ Nat.toDigits 10 n.natAbs := by simp [head]
      have digit := Nat.isDigit_of_mem_toDigits (by decide) (by decide) member
      have infinity : ('I' == d) = false :=
        beq_eq_false_iff_ne.mpr (ne_of_isDigit digit rfl).symm
      rw [written, digits, head]
      simp [jsonConstants, text, List.isPrefixOf, infinity]
    · have differs (d : Char) (hd : d.isDigit = false) : (d == c) = false :=
        beq_eq_false_iff_ne.mpr (ne_of_isDigit digit hd).symm
      rw [written]
      simp [jsonConstants, text, List.isPrefixOf, differs]
  rw [scanScalar, other]
  exact number

theorem skipSpace_cons {c : Char} (h : isSpace c = false) (rest : Text) :
    skipSpace (c :: rest) = c :: rest := by
  rw [skipSpace, List.dropWhile_cons, h]
  rfl

theorem isSpace_of_isDigit {c : Char} (h : c.isDigit = true) : isSpace c = false := by
  simp [isSpace, ne_of_isDigit h]

theorem skipSpace_dump (x : Scalar) (rest : Text) : skipSpace (x.dump ++ rest) = x.dump ++ rest := by
  cases x with
  | str s => rfl
  | int n =>
    obtain ⟨c, t, written, ⟨rfl, -, -⟩ | ⟨digit, -, -⟩⟩ := dumpInt_head n
    · rw [Scalar.dump, written]
      rfl
    · rw [Scalar.dump, written]
      exact skipSpace_cons (isSpace_of_isDigit digit) _

theorem parseValue_dump (fuel : ℕ) (x : Scalar) (rest : Text) (ends : EndsNumber rest) :
    parseValue (fuel + 1) (x.dump ++ rest) = some (x.toJson, rest) := by
  cases x with
  | str s =>
    have written : (Scalar.str s).dump ++ rest = '"' :: (s.flatMap escapeChar ++ '"' :: rest) := by
      simp [Scalar.dump, dumpString]
    rw [written, parseValue, if_pos rfl, scanString_escaped]
    rfl
  | int n =>
    have scanned := scanScalar_dumpInt n ends
    obtain ⟨c, t, written, head⟩ := dumpInt_head n
    have other : c ≠ '"' ∧ c ≠ '{' ∧ c ≠ '[' := by
      obtain ⟨rfl, -⟩ | ⟨digit, -⟩ := head
      · decide
      · exact ⟨ne_of_isDigit digit rfl, ne_of_isDigit digit rfl, ne_of_isDigit digit rfl⟩
    rw [Scalar.dump]
    rw [written, List.cons_append] at scanned ⊢
    rw [parseValue, if_neg other.1, if_neg other.2.1, if_neg other.2.2, scanned]
    rfl

theorem parseMembers_dump (xs : List (Text × Scalar)) (nonempty : xs ≠ []) (rest : Text) (fuel : ℕ)
    (enough : xs.length + 1 ≤ fuel) :
    parseMembers fuel (dumpMembers xs ++ '}' :: rest) =
      some (xs.map fun x => (x.1, x.2.toJson), rest) := by
  induction xs generalizing fuel with
  | nil => exact absurd rfl nonempty
  | cons x xs ih =>
    obtain ⟨fuel, rfl⟩ : ∃ k, fuel = k + 2 := ⟨fuel - 2, by simp at enough; omega⟩
    have key (tail : Text) : scanString (x.1.flatMap escapeChar ++ '"' :: tail) = some (x.1, tail) :=
      scanString_escaped x.1 tail
    cases xs with
    | nil =>
      have written : dumpMembers [x] ++ '}' :: rest =
          '"' :: (x.1.flatMap escapeChar ++ '"' :: (':' :: (x.2.dump ++ '}' :: rest))) := by
        simp [dumpMembers, dumpString]
      have value := parseValue_dump fuel x.2 ('}' :: rest) ⟨_, _, rfl, .inr rfl⟩
      rw [written, parseMembers, if_pos rfl, key, Option.bind_some]
      simp only [skipSpace_cons (c := ':') rfl, skipSpace_dump, value, Option.bind_some,
        skipSpace_cons (c := '}') rfl, List.map_cons, List.map_nil]
    | cons y ys =>
      have written : dumpMembers (x :: y :: ys) ++ '}' :: rest =
          '"' :: (x.1.flatMap escapeChar ++ '"' :: (':' :: (x.2.dump ++
            ',' :: (dumpMembers (y :: ys) ++ '}' :: rest)))) := by
        simp [dumpMembers, dumpString]
      have value := parseValue_dump fuel x.2
        (',' :: (dumpMembers (y :: ys) ++ '}' :: rest)) ⟨_, _, rfl, .inl rfl⟩
      have head : skipSpace (dumpMembers (y :: ys) ++ '}' :: rest) =
          dumpMembers (y :: ys) ++ '}' :: rest := by
        cases ys <;> rfl
      have later := ih (List.cons_ne_nil _ _) (fuel + 1) (by simp at enough ⊢; omega)
      rw [written, parseMembers, if_pos rfl, key, Option.bind_some]
      simp only [skipSpace_cons (c := ':') rfl, skipSpace_dump, value, Option.bind_some,
        skipSpace_cons (c := ',') rfl, head, later, Option.map_some, List.map_cons]

theorem length_dumpMembers (xs : List (Text × Scalar)) : xs.length ≤ (dumpMembers xs).length := by
  fun_induction dumpMembers xs with
  | case1 => rfl
  | case2 x => simp [dumpString]
  | case3 x xs _ ih => simp [dumpString] at ih ⊢; omega

theorem parseValue_object (fuel : ℕ) (t : Text) :
    parseValue (fuel + 1) ('{' :: '"' :: t) =
      (parseMembers fuel ('"' :: t)).map fun x => (.obj x.1, x.2) := by
  rw [parseValue, if_neg (by decide), if_pos rfl]
  rfl

/-- A dumped object is read back. -/
theorem jsonLoads_jsonDumps (xs : List (Text × Scalar)) (nonempty : xs ≠ []) :
    jsonLoads (jsonDumps xs) = some (.obj (xs.map fun x => (x.1, x.2.toJson))) := by
  obtain ⟨x, xs, rfl⟩ := List.exists_cons_of_ne_nil nonempty
  have size := length_dumpMembers (x :: xs)
  have read := parseMembers_dump (x :: xs) nonempty [] (jsonDumps (x :: xs)).length
    (by simp [jsonDumps] at size ⊢; omega)
  obtain ⟨t, quote⟩ : ∃ t, dumpMembers (x :: xs) ++ '}' :: [] = '"' :: t := by
    cases xs <;> exact ⟨_, rfl⟩
  have start : skipSpace (jsonDumps (x :: xs)) = '{' :: '"' :: t := by
    rw [← quote]
    rfl
  rw [quote] at read
  rw [jsonLoads, start, parseValue_object, read]
  rfl

end Privana
