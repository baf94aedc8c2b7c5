import PaperVenue.Json.Reader
import PaperVenue.Decimal.Numeral
import PaperVenue.Proofs.Decimal.Value

/-!
# Numbers as they are written

A number of a document is a sign, digits, and maybe a fraction and an exponent.  `NumberToken` is
such a number with all that can be told from its text, so its `value` is what the text says and not
what a reader makes of it.

Two readers may see the text.  In a document it is a number: without a fraction and an exponent it
is read as the integer that it is, and otherwise as the nearest double; `read_eq_ok` says so.
Within quotes it is left to `Decimal.read?`, which takes it digit by digit, as long as the exponents
fit; `read?_chars` says that.
-/

namespace PaperVenue

namespace Json

/-! ## The grammar -/

/-- Some digits, at least one. -/
structure Digits where
  chars : List Char
  ne_nil : chars ≠ []
  digit : ∀ c ∈ chars, isAsciiDigit c = true

/-- An exponent: its letter, its sign if it has one, and its digits. -/
structure WrittenExponent where
  capital : Bool
  sign : Option Bool
  digits : Digits

/-- A number of a document. -/
structure NumberToken where
  negative : Bool
  whole : Digits
  fraction : Option Digits
  exponent : Option WrittenExponent
  /-- A zero in front stands alone. -/
  zero_alone : ∀ ds, whole.chars = '0' :: ds → ds = []

namespace WrittenExponent

/-- The letter of an exponent. -/
def mark (x : WrittenExponent) : Char := if x.capital then 'E' else 'e'

/-- The sign of an exponent as it is written. -/
def signChars : Option Bool → List Char
  | none => []
  | some true => ['-']
  | some false => ['+']

/-- The characters of an exponent. -/
def chars (x : WrittenExponent) : List Char := x.mark :: (signChars x.sign ++ x.digits.chars)

/-- The number that an exponent is. -/
def value (x : WrittenExponent) : Int :=
  if x.sign = some true then -(digitsValue x.digits.chars : Int) else digitsValue x.digits.chars

end WrittenExponent

namespace NumberToken

/-- The digits behind the point. -/
def fractionDigits (t : NumberToken) : List Char := t.fraction.elim [] Digits.chars

/-- The characters behind the whole part. -/
def tailChars (t : NumberToken) : List Char :=
  t.fraction.elim [] (fun ds => '.' :: ds.chars) ++ t.exponent.elim [] WrittenExponent.chars

/-- The characters of a number. -/
def chars (t : NumberToken) : List Char :=
  Decimal.signText t.negative ++ (t.whole.chars ++ t.tailChars)

/-- All digits of a number, without its point. -/
def coefficient (t : NumberToken) : Nat := digitsValue (t.whole.chars ++ t.fractionDigits)

/-- The power of ten at which the last of these digits stands. -/
def scale (t : NumberToken) : Int :=
  t.exponent.elim 0 WrittenExponent.value - t.fractionDigits.length

/-- **The number that is written.** -/
def value (t : NumberToken) : ℚ :=
  Decimal.withSign t.negative (Decimal.magnitude t.coefficient t.scale)

/-- It has neither a fraction nor an exponent. -/
def IsInteger (t : NumberToken) : Prop := t.fraction = none ∧ t.exponent = none

end NumberToken

/-! ## Scanning -/

theorem ofChars_cons (c : Char) (cs : List Char) :
    Text.ofChars (c :: cs) = .scalar c :: Text.ofChars cs := rfl

/-- The ten digits. -/
def asciiDigits : List Char := ['0', '1', '2', '3', '4', '5', '6', '7', '8', '9']

theorem mem_asciiDigits {d : Char} (hd : isAsciiDigit d = true) : d ∈ asciiDigits := by
  have hall : ∀ n, n < 58 → 48 ≤ n → Char.ofNat n ∈ asciiDigits := by decide
  obtain ⟨hlow, hhigh⟩ := isAsciiDigit_iff.1 hd
  rw [← Char.ofNat_toNat d]
  exact hall d.toNat (Nat.lt_succ_of_le hhigh) hlow

/-- A text does not go on with a digit. -/
def NoDigit (cs : List Char) : Prop := ∀ c, cs.head? = some c → isAsciiDigit c = false

theorem noDigit_nil : NoDigit [] := fun _ h => absurd h (by simp)

theorem spanDigits_ofChars {ds rest : List Char} (hds : ∀ c ∈ ds, isAsciiDigit c = true)
    (hrest : NoDigit rest) :
    spanDigits (Text.ofChars (ds ++ rest)) = (ds, Text.ofChars rest) := by
  induction ds with
  | nil =>
    cases rest with
    | nil => rfl
    | cons c rest =>
      have hc := hrest c rfl
      rw [List.nil_append, ofChars_cons, spanDigits, if_neg]
      rw [← isAsciiDigit_iff, hc]
      exact Bool.false_ne_true
  | cons d ds ih =>
    obtain ⟨hd, hds⟩ := List.forall_mem_cons.1 hds
    rw [List.cons_append, ofChars_cons, spanDigits, if_pos (isAsciiDigit_iff.1 hd), ih hds]

/-- A text that starts with digits does not start with anything else. -/
theorem Digits.ofChars_ne_cons (ds : Digits) (rest : List Char) {c : Char}
    (hc : isAsciiDigit c = false) (r : Text) :
    Text.ofChars (ds.chars ++ rest) ≠ .scalar c :: r := by
  intro h
  obtain ⟨d, ds', hds⟩ := List.exists_cons_of_ne_nil ds.ne_nil
  have hd := ds.digit d (by rw [hds]; exact List.mem_cons_self)
  rw [hds, List.cons_append, ofChars_cons] at h
  rw [CodePoint.scalar.inj (List.cons.inj h).1, hc] at hd
  exact Bool.false_ne_true hd

namespace NumberToken

/-- The exponent of a number is no digit further on. -/
theorem noDigit_exponent (x : Option WrittenExponent) :
    NoDigit (x.elim [] WrittenExponent.chars) := by
  intro c hc
  cases x with
  | none => exact absurd hc (by simp)
  | some x =>
    obtain rfl := Option.some.inj hc
    rw [WrittenExponent.mark]
    split <;> decide

/-- Neither is what stands behind the whole part. -/
theorem noDigit_tail (t : NumberToken) : NoDigit t.tailChars := by
  intro c hc
  rw [tailChars] at hc
  cases hf : t.fraction with
  | none =>
    rw [hf] at hc
    exact noDigit_exponent t.exponent c hc
  | some ds =>
    rw [hf] at hc
    obtain rfl := Option.some.inj hc
    decide

theorem wholePart?_chars (t : NumberToken) :
    wholePart? (Text.ofChars (t.whole.chars ++ t.tailChars)) =
      some (t.whole.chars, Text.ofChars t.tailChars) := by
  rw [wholePart?, spanDigits_ofChars t.whole.digit t.noDigit_tail]
  split
  · rename_i heq
    exact absurd (Prod.mk.inj heq).1 t.whole.ne_nil
  · rename_i ds rest heq
    obtain ⟨hwhole, rfl⟩ := Prod.mk.inj heq
    rw [hwhole, t.zero_alone ds hwhole]
    rfl
  · rfl

theorem fractionPart_chars (t : NumberToken) :
    fractionPart (Text.ofChars t.tailChars) =
      (t.fractionDigits, Text.ofChars (t.exponent.elim [] WrittenExponent.chars)) := by
  rw [tailChars, fractionDigits]
  cases t.fraction with
  | none =>
    rw [Option.elim_none, Option.elim_none, List.nil_append]
    cases t.exponent with
    | none => rfl
    | some x =>
      rw [Option.elim_some, WrittenExponent.chars, WrittenExponent.mark]
      split <;> rfl
  | some ds =>
    have hspan := spanDigits_ofChars ds.digit (noDigit_exponent t.exponent)
    rw [Option.elim_some, Option.elim_some, List.cons_append, ofChars_cons]
    rw [fractionPart, hspan]
    cases hds : ds.chars with
    | nil => exact absurd hds ds.ne_nil
    | cons c cs => rfl

/-- An exponent is read with its sign. -/
theorem exponentPart_ofChars {c : Char} (hc : c = 'e' ∨ c = 'E') (sign : Option Bool)
    (ds : Digits) :
    exponentPart (.scalar c :: Text.ofChars (WrittenExponent.signChars sign ++ ds.chars)) =
      (some (if sign = some true then -(digitsValue ds.chars : Int) else digitsValue ds.chars),
        []) := by
  have hspan : spanDigits (Text.ofChars ds.chars) = (ds.chars, []) := by
    have h := spanDigits_ofChars ds.digit noDigit_nil
    rwa [List.append_nil] at h
  have hne : ∀ {d : Char} (r : Text), isAsciiDigit d = false →
      Text.ofChars ds.chars ≠ .scalar d :: r := by
    intro d r hd
    have h := ds.ofChars_ne_cons [] hd r
    rwa [List.append_nil] at h
  have hnil := ds.ne_nil
  rcases sign with _ | (_ | _)
  · rw [WrittenExponent.signChars, List.nil_append, exponentPart, if_pos hc, hspan]
    · cases hds : ds.chars with
      | nil => exact absurd hds hnil
      | cons d ds' => rfl
    · exact fun r => hne r (by decide)
    · exact fun r => hne r (by decide)
  · show exponentPart (.scalar c :: .scalar '+' :: Text.ofChars ds.chars) = _
    rw [exponentPart, if_pos hc]
    dsimp only
    rw [hspan]
    cases hds : ds.chars with
    | nil => exact absurd hds hnil
    | cons d ds' => rfl
  · show exponentPart (.scalar c :: .scalar '-' :: Text.ofChars ds.chars) = _
    rw [exponentPart, if_pos hc]
    dsimp only
    rw [hspan]
    cases hds : ds.chars with
    | nil => exact absurd hds hnil
    | cons d ds' => rfl

theorem exponentPart_chars (x : Option WrittenExponent) :
    exponentPart (Text.ofChars (x.elim [] WrittenExponent.chars)) =
      (x.map WrittenExponent.value, []) := by
  cases x with
  | none => rfl
  | some x =>
    refine exponentPart_ofChars ?_ x.sign x.digits
    rw [WrittenExponent.mark]
    split
    · exact Or.inr rfl
    · exact Or.inl rfl

/-- The whole part with its sign. -/
def integer (t : NumberToken) : Int :=
  if t.negative then -(digitsValue t.whole.chars : Int) else digitsValue t.whole.chars

/-- The double that is nearest to the number. -/
def double (t : NumberToken) : Binary64 := Binary64.nearest t.negative t.coefficient t.scale

/-- What the scanner makes of a number. -/
def token (t : NumberToken) : Token :=
  if t.fraction.isNone && t.exponent.isNone then
    if maxIntegerDigits < t.whole.chars.length then .broken (.digits t.whole.chars.length)
    else .value (.integer t.integer)
  else .value (.double t.double)

theorem isEmpty_fractionDigits (t : NumberToken) :
    t.fractionDigits.isEmpty = t.fraction.isNone := by
  rw [fractionDigits]
  cases t.fraction with
  | none => rfl
  | some ds => exact Bool.eq_false_iff.2 fun h => ds.ne_nil (List.isEmpty_iff.1 h)

/-- A number is scanned as a whole. -/
theorem scanNumber?_chars (t : NumberToken) :
    scanNumber? (Text.ofChars t.chars) = some (t.token, []) := by
  unfold scanNumber?
  split
  rename_i negative body hsplit
  obtain ⟨rfl, rfl⟩ : negative = t.negative ∧
      body = Text.ofChars (t.whole.chars ++ t.tailChars) := by
    rw [chars] at hsplit
    cases hneg : t.negative with
    | true =>
      rw [hneg] at hsplit
      obtain ⟨hnegative, hbody⟩ := Prod.mk.inj hsplit
      exact ⟨hnegative.symm, hbody.symm⟩
    | false =>
      rw [hneg] at hsplit
      split at hsplit
      · rename_i r hr
        exact absurd hr (t.whole.ofChars_ne_cons t.tailChars (by decide) r)
      · obtain ⟨hnegative, hbody⟩ := Prod.mk.inj hsplit
        exact ⟨hnegative.symm, hbody.symm⟩
  rw [wholePart?_chars, Option.bind_eq_bind, Option.bind_some]
  dsimp only
  rw [fractionPart_chars]
  dsimp only
  rw [exponentPart_chars]
  dsimp only
  rw [isEmpty_fractionDigits, Option.isNone_map, token]
  split
  · split <;> rfl
  · rw [double, coefficient, scale]
    cases t.exponent <;> rfl

/-! ## A document that is a number -/

/-- The code point with which a number starts is neither a blank nor punctuation nor a quote, and no
word starts like it. -/
theorem starts_number {p : CodePoint} {rest : Text}
    (h : ∃ d, isAsciiDigit d = true ∧
      (p = .scalar d ∨ p = .scalar '-' ∧ ∃ rest', rest = .scalar d :: rest')) :
    isSpace p = false ∧ punctuation? p = none ∧ p.is '"' = false ∧
      scanWord? (p :: rest) = none := by
  obtain ⟨d, hd, hp⟩ := h
  have hdigits := mem_asciiDigits hd
  simp only [asciiDigits, List.mem_cons, List.not_mem_nil, or_false] at hdigits
  rcases hp with rfl | ⟨rfl, rest', rfl⟩
  · rcases hdigits with rfl | rfl | rfl | rfl | rfl | rfl | rfl | rfl | rfl | rfl <;>
      exact ⟨rfl, rfl, rfl, rfl⟩
  · refine ⟨rfl, rfl, rfl, ?_⟩
    rcases hdigits with rfl | rfl | rfl | rfl | rfl | rfl | rfl | rfl | rfl | rfl <;> rfl

/-- The lexeme of a number. -/
theorem lexemes_chars (t : NumberToken) :
    lexemes (Text.ofChars t.chars) = [{ token := t.token, offset := 0 }] := by
  have hscan := t.scanNumber?_chars
  obtain ⟨p, rest, htext, hstart⟩ : ∃ p rest, Text.ofChars t.chars = p :: rest ∧
      ∃ d, isAsciiDigit d = true ∧
        (p = .scalar d ∨ p = .scalar '-' ∧ ∃ rest', rest = .scalar d :: rest') := by
    obtain ⟨d, ds, hds⟩ := List.exists_cons_of_ne_nil t.whole.ne_nil
    have hd := t.whole.digit d (by rw [hds]; exact List.mem_cons_self)
    rw [chars, hds]
    cases t.negative with
    | true => exact ⟨_, _, rfl, d, hd, Or.inr ⟨rfl, _, rfl⟩⟩
    | false => exact ⟨_, _, rfl, d, hd, Or.inl rfl⟩
  obtain ⟨hspace, hpunctuation, hquote, hword⟩ := starts_number hstart
  rw [htext] at hscan ⊢
  have htoken : scanToken 0 p rest = (t.token, 0 + ((p :: rest).length - 0), []) := by
    rw [scanToken, hpunctuation]
    dsimp only
    rw [hquote, if_neg Bool.false_ne_true, hword, hscan]
    rfl
  rw [lexemes, List.length_cons, lexemesUpTo, hspace, if_neg Bool.false_ne_true, htoken]
  dsimp only
  cases rest.length <;> rfl

/-- **How a number is read** that is a document by itself. -/
theorem of_read {t : NumberToken} {v : Json} (h : Json.read (Text.ofChars t.chars) = .ok v) :
    t.IsInteger ∧ t.whole.chars.length ≤ maxIntegerDigits ∧ v = .integer t.integer ∨
      ¬ t.IsInteger ∧ v = .double t.double := by
  have hinteger : (t.fraction.isNone && t.exponent.isNone) = true ↔ t.IsInteger := by
    rw [Bool.and_eq_true, Option.isNone_iff_eq_none, Option.isNone_iff_eq_none, IsInteger]
  rw [Json.read, lexemes_chars, token] at h
  split at h
  · rename_i hint
    split at h
    · have herror : (Except.error (ReadError.tooManyDigits t.whole.chars.length) : Except _ Json) =
          .ok v := h
      exact absurd herror (by simp)
    · rename_i hdigits
      exact Or.inl ⟨hinteger.1 hint, Nat.le_of_not_lt hdigits, (Except.ok.inj h).symm⟩
  · rename_i hint
    exact Or.inr ⟨fun hint' => hint (hinteger.2 hint'), (Except.ok.inj h).symm⟩

/-! ## Integers -/

section Integer

variable {t : NumberToken}

theorem coefficient_of_isInteger (h : t.IsInteger) :
    t.coefficient = digitsValue t.whole.chars ∧ t.scale = 0 := by
  obtain ⟨hfraction, hexponent⟩ := h
  rw [coefficient, scale, fractionDigits, hfraction, hexponent]
  exact ⟨congrArg digitsValue (List.append_nil _), rfl⟩

/-- **An integer is read as the number that is written.** -/
theorem value?_ofInt_of_isInteger (h : t.IsInteger) :
    (Decimal.ofInt t.integer).value? = some t.value := by
  obtain ⟨hcoefficient, hscale⟩ := coefficient_of_isInteger h
  have habs : t.integer.natAbs = t.coefficient := by
    rw [integer, hcoefficient]
    split <;> omega
  rw [Decimal.ofInt, Decimal.value?, value, habs, hscale, Option.some.injEq,
    Decimal.withSign_eq_withSign_iff (Decimal.magnitude_nonneg _ _) (Decimal.magnitude_nonneg _ _)]
  refine ⟨rfl, fun hne => ?_⟩
  have hpos : t.coefficient ≠ 0 := by
    intro hzero
    rw [hzero] at hne
    exact hne (Decimal.magnitude_zero 0)
  rw [hcoefficient] at hpos
  rw [integer]
  cases t.negative <;> simp only [if_true, if_false, Bool.false_eq_true, decide_eq_true_eq,
    decide_eq_false_iff_not] <;> omega

/-- An integer that the reader takes has few digits enough for a decimal. -/
theorem inRange_of_isInteger (h : t.IsInteger) (hdigits : t.whole.chars.length ≤ maxIntegerDigits) :
    Decimal.inRange t.coefficient t.scale = true := by
  obtain ⟨hcoefficient, hscale⟩ := coefficient_of_isInteger h
  have hlength : 0 < t.whole.chars.length := List.length_pos_of_ne_nil t.whole.ne_nil
  have hcount : digitCount t.coefficient ≤ t.whole.chars.length := by
    rw [hcoefficient, digitCount_le_iff hlength]
    exact digitsValue_lt t.whole.digit
  rw [Decimal.inRange, Bool.and_eq_true, decide_eq_true_eq, decide_eq_true_eq, hscale,
    Decimal.adjusted, Decimal.maxAdjusted, Decimal.minExponent]
  rw [maxIntegerDigits] at hdigits
  omega

end Integer

/-! ## The same characters as a decimal -/

/-- The characters of which numbers are made. -/
def numberChars : List Char := asciiDigits ++ ['-', '+', '.', 'e', 'E']

/-- A number is made of these characters. -/
theorem mem_numberChars {t : NumberToken} {c : Char} (hc : c ∈ t.chars) : c ∈ numberChars := by
  have hdigits : ∀ (ds : Digits) c, c ∈ ds.chars → c ∈ numberChars :=
    fun ds c hc => List.mem_append_left _ (mem_asciiDigits (ds.digit c hc))
  rw [chars, tailChars] at hc
  simp only [List.mem_append] at hc
  rcases hc with hc | hc | hc | hc
  · rw [Decimal.signText] at hc
    split at hc
    · obtain rfl := List.mem_singleton.1 hc
      decide
    · exact absurd hc List.not_mem_nil
  · exact hdigits _ c hc
  · cases hf : t.fraction with
    | none =>
      rw [hf] at hc
      exact absurd hc List.not_mem_nil
    | some ds =>
      rw [hf, Option.elim_some, List.mem_cons] at hc
      rcases hc with rfl | hc
      · decide
      · exact hdigits ds c hc
  · cases he : t.exponent with
    | none =>
      rw [he] at hc
      exact absurd hc List.not_mem_nil
    | some x =>
      rw [he, Option.elim_some, WrittenExponent.chars, List.mem_cons, List.mem_append] at hc
      rcases hc with rfl | hc | hc
      · rw [WrittenExponent.mark]
        split <;> decide
      · rcases hs : x.sign with _ | (_ | _) <;> rw [hs] at hc
        · exact absurd hc List.not_mem_nil
        · obtain rfl := List.mem_singleton.1 hc
          decide
        · obtain rfl := List.mem_singleton.1 hc
          decide
      · exact hdigits _ c hc

/-- Nothing of a number is cut off, deleted or replaced before it is read as a decimal. -/
theorem plainText?_chars (t : NumberToken) : Decimal.plainText? t.chars = some t.chars := by
  have hplain : (numberChars.all fun c =>
      isBlank c = false ∧ c ≠ '_' ∧ Decimal.plainChar? c = some c) = true := by decide
  have hchars : ∀ c ∈ t.chars, isBlank c = false ∧ c ≠ '_' ∧ Decimal.plainChar? c = some c :=
    fun c hc => of_decide_eq_true (List.all_eq_true.1 hplain c (mem_numberChars hc))
  rw [Decimal.plainText?, trim_eq_self fun c hc => (hchars c hc).1,
    List.filter_eq_self.2 fun c hc => decide_eq_true (hchars c hc).2.1]
  generalize t.chars = cs at hchars
  induction cs with
  | nil => rfl
  | cons c cs ih =>
    rw [List.mapM_cons, (hchars c List.mem_cons_self).2.2,
      ih fun c' hc' => hchars c' (List.mem_cons_of_mem c hc')]
    rfl

theorem takeWhile_digits (ds : Digits) {rest : List Char} (hrest : NoDigit rest) :
    (ds.chars ++ rest).takeWhile isAsciiDigit = ds.chars ∧
      (ds.chars ++ rest).dropWhile isAsciiDigit = rest := by
  have hstop : rest.takeWhile isAsciiDigit = [] ∧ rest.dropWhile isAsciiDigit = rest := by
    cases rest with
    | nil => exact ⟨rfl, rfl⟩
    | cons c rest =>
      have hc := hrest c rfl
      rw [List.takeWhile_cons, List.dropWhile_cons, hc]
      exact ⟨rfl, rfl⟩
  rw [List.takeWhile_append_of_pos ds.digit, List.dropWhile_append_of_pos ds.digit, hstop.1,
    hstop.2, List.append_nil]
  exact ⟨rfl, rfl⟩

theorem digits?_chars (ds : Digits) : Decimal.digits? ds.chars = some (digitsValue ds.chars) := by
  have hall : ds.chars.all isAsciiDigit = true := List.all_eq_true.2 ds.digit
  have hempty : ds.chars.isEmpty = false :=
    Bool.eq_false_iff.2 fun h => ds.ne_nil (List.isEmpty_iff.1 h)
  rw [Decimal.digits?, hall, hempty]
  rfl

/-- Digits have no sign. -/
theorem splitSign_digits (ds : Digits) (rest : List Char) :
    Decimal.splitSign (ds.chars ++ rest) = (false, ds.chars ++ rest) := by
  have hne : ∀ {c : Char} (cs : List Char), isAsciiDigit c = false →
      ds.chars ++ rest ≠ c :: cs := by
    intro c cs hc h
    exact ds.ofChars_ne_cons rest hc (Text.ofChars cs) (congrArg Text.ofChars h)
  rw [Decimal.splitSign]
  · exact fun cs => hne cs (by decide)
  · exact fun cs => hne cs (by decide)

theorem exponentPart?_chars (x : Option WrittenExponent) :
    Decimal.exponentPart? (x.elim [] WrittenExponent.chars) =
      some (x.elim 0 WrittenExponent.value) := by
  cases x with
  | none => rfl
  | some x =>
    have hmark : (x.mark == 'e' || x.mark == 'E') = true := by
      rw [WrittenExponent.mark]
      split <;> rfl
    have hsign : Decimal.splitSign (WrittenExponent.signChars x.sign ++ x.digits.chars) =
        (decide (x.sign = some true), x.digits.chars) := by
      rcases x.sign with _ | (_ | _)
      · have h := splitSign_digits x.digits []
        rwa [List.append_nil] at h
      · rfl
      · rfl
    rw [Option.elim_some, WrittenExponent.chars, Decimal.exponentPart?, if_pos hmark, hsign]
    dsimp only
    rw [digits?_chars, Option.elim_some, WrittenExponent.value]
    rcases x.sign with _ | (_ | _) <;> rfl

/-- The fraction is split off. -/
theorem fraction_chars (t : NumberToken) : (match t.tailChars with
      | '.' :: r => (r.takeWhile isAsciiDigit, r.dropWhile isAsciiDigit)
      | r => ([], r)) = (t.fractionDigits, t.exponent.elim [] WrittenExponent.chars) := by
  rw [tailChars, fractionDigits]
  cases t.fraction with
  | none =>
    cases t.exponent with
    | none => rfl
    | some x =>
      rw [Option.elim_none, Option.elim_some, List.nil_append, WrittenExponent.chars,
        WrittenExponent.mark]
      cases x.capital <;> rfl
  | some ds =>
    obtain ⟨htake, hdrop⟩ := takeWhile_digits ds (noDigit_exponent t.exponent)
    rw [Option.elim_some, Option.elim_some, List.cons_append]
    exact congrArg₂ Prod.mk htake hdrop

/-- A number without its sign, as a decimal. -/
theorem number?_chars (t : NumberToken) :
    Decimal.number? t.negative (t.whole.chars ++ t.tailChars) =
      if Decimal.inRange t.coefficient t.scale then
        some (.finite t.negative t.coefficient t.scale)
      else none := by
  obtain ⟨htake, hdrop⟩ := takeWhile_digits t.whole t.noDigit_tail
  have hempty : t.whole.chars.isEmpty = false :=
    Bool.eq_false_iff.2 fun h => t.whole.ne_nil (List.isEmpty_iff.1 h)
  generalize hresult : (if Decimal.inRange t.coefficient t.scale = true then
    some (Decimal.finite t.negative t.coefficient t.scale) else none) = result
  unfold Decimal.number?
  rw [htake, hdrop]
  extract_lets whole rest
  split
  rename_i fraction rest hsplit
  obtain ⟨rfl, rfl⟩ := Prod.mk.inj (t.fraction_chars.symm.trans hsplit)
  rw [hempty, Bool.false_and, if_neg Bool.false_ne_true, exponentPart?_chars]
  exact hresult

/-- **A number within quotes is read as it is written**, if its exponents are in the range of
decimals. -/
theorem read?_chars (t : NumberToken) :
    Decimal.read? t.chars =
      if Decimal.inRange t.coefficient t.scale then
        some (.finite t.negative t.coefficient t.scale)
      else none := by
  have hsign : Decimal.splitSign t.chars = (t.negative, t.whole.chars ++ t.tailChars) := by
    rw [chars]
    cases t.negative with
    | true => rfl
    | false => exact splitSign_digits t.whole t.tailChars
  have hword : ∀ d ds, isAsciiDigit d = true →
      ((d :: ds).map Char.toLower == ['i', 'n', 'f'] ||
        (d :: ds).map Char.toLower == ['i', 'n', 'f', 'i', 'n', 'i', 't', 'y']) = false ∧
      Decimal.notANumber? t.negative ((d :: ds).map Char.toLower) = none := by
    intro d ds hd
    have hdigits := mem_asciiDigits hd
    simp only [asciiDigits, List.mem_cons, List.not_mem_nil, or_false] at hdigits
    rcases hdigits with rfl | rfl | rfl | rfl | rfl | rfl | rfl | rfl | rfl | rfl <;>
      exact ⟨rfl, rfl⟩
  obtain ⟨d, ds, hds⟩ := List.exists_cons_of_ne_nil t.whole.ne_nil
  obtain ⟨hinfinity, hnan⟩ := hword d (ds ++ t.tailChars)
    (t.whole.digit d (by rw [hds]; exact List.mem_cons_self))
  rw [Decimal.read?, plainText?_chars, Option.bind_eq_bind, Option.bind_some, hsign]
  dsimp only
  rw [← List.cons_append, ← hds] at hinfinity hnan
  rw [hinfinity, if_neg Bool.false_ne_true, hnan, Option.none_or, number?_chars]

end NumberToken

end Json

end PaperVenue
