import PaperVenue.Decimal.Plain
import PaperVenue.Proofs.Json.NumberToken

/-!
# Decimals as they are written

A decimal is written out in two ways, exactly or in plain notation, and in both a number is laid out
as digits with a point among them: `Decimal.withPoint` puts the point so that some digits follow it,
with zeros in front if there are too few.

`NumberToken.pointed` is that layout as a number of a document: its parts are what stands before the
point and behind it, no zero is superfluous in front, and its coefficient has the digits that were
laid out.  So what is known about reading numbers applies to everything that is written.  The exact
notation is such a number with an exponent or without one (`Decimal.toChars_finite`), and a decimal
in range is read back from it as it was: `Decimal.read?_toChars`.  Plain notation is such a number
without an exponent: `Decimal.signText_append_positional`.
-/

namespace PaperVenue

/-! ## Digits -/

theorem isAsciiDigit_of_mem_decimalDigits {n : Nat} {c : Char} (h : c ∈ decimalDigits n) :
    isAsciiDigit c = true :=
  Nat.isDigit_of_mem_toDigits (by decide) (by decide) h

theorem decimalDigits_ne_nil (n : Nat) : decimalDigits n ≠ [] := Nat.toDigits_ne_nil

/-- Only zero starts with a zero, and it is all that zero has. -/
theorem eq_nil_of_decimalDigits {n : Nat} {ds : List Char} (h : decimalDigits n = '0' :: ds) :
    ds = [] := by
  have hdigits : ∀ c ∈ ds, isAsciiDigit c = true := fun c hc =>
    isAsciiDigit_of_mem_decimalDigits (by rw [h]; exact List.mem_cons_of_mem _ hc)
  have hvalue : n = digitsValue ds := by
    rw [← digitsValue_toDigits n, ← decimalDigits, h, digitsValue, Nat.ofDigitChars_cons]
    rfl
  by_cases hn : n = 0
  · have hzero : decimalDigits 0 = ['0'] := by decide
    rw [hn, hzero] at h
    exact (List.cons.inj h).2.symm
  · have hcount : ds.length < digitCount n := by
      rw [digitCount, h, List.length_cons]
      exact Nat.lt_succ_self _
    have hlow := ten_pow_le_of_lt_digitCount hn hcount
    have hhigh := digitsValue_lt hdigits
    omega

/-- Zeros in front have no weight. -/
theorem digitsValue_replicate_append (k : Nat) (ds : List Char) :
    digitsValue (List.replicate k '0' ++ ds) = digitsValue ds := by
  rw [digitsValue, Nat.ofDigitChars_append, Nat.ofDigitChars_replicate_zero, Nat.mul_zero]
  rfl

/-- Zeros behind are powers of ten. -/
theorem decimalDigits_mul_pow {n : Nat} (hn : n ≠ 0) (k : Nat) :
    decimalDigits (n * 10 ^ k) = decimalDigits n ++ List.replicate k '0' := by
  induction k with
  | zero => rw [Nat.pow_zero, Nat.mul_one, List.replicate_zero, List.append_nil]
  | succ k ih =>
    have hpos : 0 < n * 10 ^ k := Nat.mul_pos (Nat.pos_of_ne_zero hn) (Nat.pow_pos (by decide))
    have hlast := Nat.toDigits_append_toDigits (b := 10) (by decide) hpos (by decide : 0 < 10)
    have hzero : Nat.toDigits 10 0 = ['0'] := by decide
    have hnext : n * 10 ^ (k + 1) = 10 * (n * 10 ^ k) + 0 := by
      rw [Nat.pow_succ, ← Nat.mul_assoc, Nat.mul_comm, Nat.add_zero]
    rw [decimalDigits, hnext, ← hlast, hzero, ← decimalDigits, ih, List.append_assoc,
      List.replicate_succ']

/-- Two numbers one behind the other. -/
theorem digitsValue_append (ds es : List Char) :
    digitsValue (ds ++ es) = digitsValue ds * 10 ^ es.length + digitsValue es := by
  have hfrom : ∀ n, Nat.ofDigitChars 10 es n = n * 10 ^ es.length + digitsValue es := by
    induction es with
    | nil =>
      intro n
      rw [Nat.ofDigitChars_nil, List.length_nil, Nat.pow_zero, Nat.mul_one]
      rfl
    | cons c es ih =>
      intro n
      rw [digitsValue, Nat.ofDigitChars_cons, Nat.ofDigitChars_cons, ih, ih, List.length_cons,
        Nat.pow_succ, Nat.mul_zero, Nat.zero_add, Nat.add_mul, ← Nat.add_assoc]
      congr 2
      rw [Nat.mul_comm 10 n, Nat.mul_assoc, Nat.mul_comm 10]
  rw [digitsValue, Nat.ofDigitChars_append, hfrom]
  rfl

/-- A digit is its distance from zero. -/
theorem digitsValue_singleton (c : Char) : digitsValue [c] = c.toNat - '0'.toNat := by
  rw [digitsValue, Nat.ofDigitChars_cons, Nat.mul_zero, Nat.zero_add]
  rfl

theorem digitsValue_cons (c : Char) (cs : List Char) :
    digitsValue (c :: cs) = (c.toNat - '0'.toNat) * 10 ^ cs.length + digitsValue cs := by
  rw [← List.singleton_append, digitsValue_append, digitsValue_singleton]

theorem digit_bounds {c : Char} (hc : isAsciiDigit c = true) :
    '0'.toNat ≤ c.toNat ∧ c.toNat ≤ '0'.toNat + 9 := isAsciiDigit_iff.1 hc

/-- A number is a multiple of ten exactly if it ends with the digit zero. -/
theorem digitsValue_concat_mod_iff (ds : List Char) {c : Char} (hc : isAsciiDigit c = true) :
    digitsValue (ds ++ [c]) % 10 = 0 ↔ c = '0' := by
  obtain ⟨hlow, hhigh⟩ := digit_bounds hc
  rw [digitsValue_append, digitsValue_singleton, List.length_singleton, Nat.pow_one]
  constructor
  · intro h
    refine Char.toNat_inj.1 ?_
    omega
  · rintro rfl
    omega

/-- What stands in front of a number of so many digits, and the number, can be told apart. -/
theorem eq_and_eq_of_mul_add {p m m' n n' : Nat} (hn : n < p) (hn' : n' < p)
    (h : m * p + n = m' * p + n') : m = m' ∧ n = n' := by
  have hlt : ∀ {m m' n n' : Nat}, n < p → m * p + n = m' * p + n' → ¬ m < m' := by
    intro m m' n n' hn h hlt
    have hmul : (m + 1) * p ≤ m' * p := Nat.mul_le_mul_right p hlt
    rw [Nat.add_mul, Nat.one_mul] at hmul
    omega
  have hm : m = m' :=
    Nat.le_antisymm (Nat.le_of_not_lt (hlt hn' h.symm)) (Nat.le_of_not_lt (hlt hn h))
  subst hm
  exact ⟨rfl, Nat.add_left_cancel h⟩

/-- Digits of the same number, as many of them, are the same. -/
theorem eq_of_digitsValue_eq {ds es : List Char} (hds : ∀ c ∈ ds, isAsciiDigit c = true)
    (hes : ∀ c ∈ es, isAsciiDigit c = true) (hlength : ds.length = es.length)
    (h : digitsValue ds = digitsValue es) : ds = es := by
  induction ds generalizing es with
  | nil => exact (List.length_eq_zero_iff.1 hlength.symm).symm
  | cons d ds ih =>
    cases es with
    | nil => exact absurd hlength (by simp)
    | cons e es =>
      rw [List.length_cons, List.length_cons, Nat.add_right_cancel_iff] at hlength
      obtain ⟨hd, hds⟩ := List.forall_mem_cons.1 hds
      obtain ⟨he, hes⟩ := List.forall_mem_cons.1 hes
      have hless := digitsValue_lt hes
      rw [digitsValue_cons, digitsValue_cons, hlength] at h
      obtain ⟨hdigit, hrest⟩ := eq_and_eq_of_mul_add (hlength ▸ digitsValue_lt hds) hless h
      obtain ⟨hlow, -⟩ := digit_bounds hd
      obtain ⟨hlow', -⟩ := digit_bounds he
      have hchar : d = e := Char.toNat_inj.1 (by omega)
      rw [hchar, ih hds hes hlength hrest]

/-- **The digits of a number are those without a superfluous zero in front.** -/
theorem decimalDigits_digitsValue {ds : List Char} (hne : ds ≠ [])
    (hds : ∀ c ∈ ds, isAsciiDigit c = true) (hzero : ∀ rest, ds = '0' :: rest → rest = []) :
    decimalDigits (digitsValue ds) = ds := by
  obtain ⟨d, rest, rfl⟩ := List.exists_cons_of_ne_nil hne
  by_cases hd : d = '0'
  · subst hd
    rw [hzero rest rfl]
    decide
  · refine eq_of_digitsValue_eq (fun _ => isAsciiDigit_of_mem_decimalDigits) hds ?_
      (digitsValue_toDigits _)
    obtain ⟨hdigit, hrest⟩ := List.forall_mem_cons.1 hds
    obtain ⟨hlow, -⟩ := digit_bounds hdigit
    have hne : d.toNat ≠ '0'.toNat := fun h => hd (Char.toNat_inj.1 h)
    refine digitCount_eq_succ ?_ (digitsValue_lt hds)
    rw [digitsValue_cons]
    have hone : 1 * 10 ^ rest.length ≤ (d.toNat - '0'.toNat) * 10 ^ rest.length :=
      Nat.mul_le_mul_right _ (by omega)
    omega

/-- The digits of a number with zeros in front, so that there is at least one more than `places`. -/
def paddedDigits (n places : Nat) : List Char :=
  List.replicate (places + 1 - digitCount n) '0' ++ decimalDigits n

theorem length_paddedDigits (n places : Nat) :
    (paddedDigits n places).length = max (places + 1) (digitCount n) := by
  rw [paddedDigits, List.length_append, List.length_replicate, ← digitCount]
  omega

theorem isAsciiDigit_of_mem_paddedDigits {n places : Nat} {c : Char}
    (h : c ∈ paddedDigits n places) : isAsciiDigit c = true := by
  rcases List.mem_append.1 h with h | h
  · rw [List.eq_of_mem_replicate h]
    rfl
  · exact isAsciiDigit_of_mem_decimalDigits h

/-- How many of these digits stand before the point. -/
def wholeCount (n places : Nat) : Nat := (paddedDigits n places).length - places

theorem wholeCount_pos (n places : Nat) : 0 < wholeCount n places := by
  rw [wholeCount, length_paddedDigits]
  omega

/-- **No zero in front is superfluous.** -/
theorem eq_nil_of_take_paddedDigits {n places : Nat} {ds : List Char}
    (h : (paddedDigits n places).take (wholeCount n places) = '0' :: ds) : ds = [] := by
  rw [wholeCount, length_paddedDigits] at h
  by_cases hcount : digitCount n ≤ places + 1
  · have hone : max (places + 1) (digitCount n) - places = 1 := by omega
    rw [hone] at h
    have hlength := congrArg List.length h
    rw [List.length_cons, List.length_take] at hlength
    exact List.length_eq_zero_iff.1 (by omega)
  · have hzeros : places + 1 - digitCount n = 0 := by omega
    rw [paddedDigits, hzeros, List.replicate_zero, List.nil_append] at h
    obtain ⟨ds', hds'⟩ : ∃ ds', decimalDigits n = '0' :: ds' := by
      rw [← List.take_append_drop (max (places + 1) (digitCount n) - places) (decimalDigits n), h]
      exact ⟨_, rfl⟩
    have hnil := eq_nil_of_decimalDigits hds'
    have hone : digitCount n = 1 := by rw [digitCount, hds', hnil]; rfl
    omega

namespace Json

namespace Digits

/-- The digits of a number. -/
def ofNat (n : Nat) : Digits :=
  ⟨decimalDigits n, decimalDigits_ne_nil n, fun _ => isAsciiDigit_of_mem_decimalDigits⟩

/-- The digits before the point. -/
def before (n places : Nat) : Digits where
  chars := (paddedDigits n places).take (wholeCount n places)
  ne_nil := by
    have hpos := wholeCount_pos n places
    have hlength := length_paddedDigits n places
    rw [← List.length_pos_iff, List.length_take]
    omega
  digit := fun _ hc => isAsciiDigit_of_mem_paddedDigits (List.mem_of_mem_take hc)

theorem length_drop_paddedDigits (n places : Nat) :
    ((paddedDigits n places).drop (wholeCount n places)).length = places := by
  rw [List.length_drop, wholeCount, length_paddedDigits]
  omega

/-- The digits behind the point, if there are any. -/
def behind? (n places : Nat) : Option Digits :=
  if h : places = 0 then none
  else some
    { chars := (paddedDigits n places).drop (wholeCount n places)
      ne_nil := by
        rw [← List.length_pos_iff, length_drop_paddedDigits]
        omega
      digit := fun _ hc => isAsciiDigit_of_mem_paddedDigits (List.mem_of_mem_drop hc) }

end Digits

namespace NumberToken

/-- **Digits with a point among them**, so that `places` digits follow it. -/
def pointed (negative : Bool) (n places : Nat) (exponent : Option WrittenExponent) :
    NumberToken where
  negative
  whole := .before n places
  fraction := Digits.behind? n places
  exponent
  zero_alone := fun _ => eq_nil_of_take_paddedDigits

variable {negative : Bool} {n places : Nat} {exponent : Option WrittenExponent}

theorem whole_pointed : (pointed negative n places exponent).whole.chars =
    (paddedDigits n places).take (wholeCount n places) := rfl

theorem fraction_pointed :
    (pointed negative n places exponent).fraction = Digits.behind? n places := rfl

theorem fractionDigits_pointed :
    (pointed negative n places exponent).fractionDigits =
      (paddedDigits n places).drop (wholeCount n places) := by
  rw [fractionDigits, fraction_pointed, Digits.behind?]
  split
  · rename_i hplaces
    have hlength := Digits.length_drop_paddedDigits n places
    rw [hplaces] at hlength
    rw [hplaces]
    exact (List.length_eq_zero_iff.1 hlength).symm
  · rfl

/-- **The digits count as they are.** -/
theorem coefficient_pointed : (pointed negative n places exponent).coefficient = n := by
  rw [coefficient, whole_pointed, fractionDigits_pointed, List.take_append_drop, paddedDigits,
    digitsValue_replicate_append, decimalDigits, digitsValue_toDigits]

theorem scale_pointed : (pointed negative n places exponent).scale =
    exponent.elim 0 WrittenExponent.value - places := by
  rw [scale, fractionDigits_pointed, Digits.length_drop_paddedDigits]
  rfl

/-- **It is written as `withPoint` says.** -/
theorem chars_pointed :
    (pointed negative n places exponent).chars =
      Decimal.signText negative ++ (Decimal.withPoint (decimalDigits n) places ++
        exponent.elim [] WrittenExponent.chars) := by
  have hbody : (pointed negative n places exponent).whole.chars ++
      (pointed negative n places exponent).fraction.elim [] (fun ds => '.' :: ds.chars) =
        Decimal.withPoint (decimalDigits n) places := by
    rw [whole_pointed, fraction_pointed, Digits.behind?, Decimal.withPoint]
    by_cases hplaces : places = 0
    · have hall : wholeCount n places = (paddedDigits n places).length := by
        rw [wholeCount, hplaces, Nat.sub_zero]
      have hpos := digitCount_pos n
      have hzeros : places + 1 - digitCount n = 0 := by omega
      rw [dif_pos hplaces, if_pos hplaces, hall, List.take_length, paddedDigits, hzeros]
      exact List.append_nil _
    · rw [dif_neg hplaces, if_neg hplaces]
      rfl
  rw [chars, tailChars, ← hbody, List.append_assoc]
  rfl

/-- Behind the point stands no zero at the end. -/
def NoTrailingZero (t : NumberToken) : Prop :=
  ∀ ds, t.fraction = some ds → ds.chars.getLast? ≠ some '0'

/-- No zero stands at the end of a fraction exactly if none stands at the end of all digits. -/
theorem noTrailingZero_iff {t : NumberToken} :
    t.NoTrailingZero ↔ (t.fraction ≠ none → t.coefficient % 10 ≠ 0) := by
  rw [NoTrailingZero, coefficient, fractionDigits]
  cases t.fraction with
  | none => simp
  | some ds =>
    obtain ⟨front, d, hfront⟩ := List.eq_nil_or_concat ds.chars |>.resolve_left ds.ne_nil
    have hd : isAsciiDigit d = true := ds.digit d (by rw [hfront]; simp)
    rw [Option.elim_some, hfront, List.concat_eq_append, ← List.append_assoc, Ne, Ne,
      digitsValue_concat_mod_iff _ hd]
    simp [hfront]

end NumberToken

end Json

namespace Decimal

/-! ## Exact notation -/

/-- The exponent that is written behind a point. -/
def writtenExponent (lead : Int) : Json.WrittenExponent where
  capital := true
  sign := some (decide (lead < 0))
  digits := .ofNat lead.natAbs

theorem chars_writtenExponent (lead : Int) :
    (writtenExponent lead).chars = 'E' :: exponentText lead := by
  rw [writtenExponent, Json.WrittenExponent.chars, exponentText]
  by_cases h : lead < 0
  · rw [decide_eq_true h, if_pos h]
    rfl
  · rw [decide_eq_false h, if_neg h]
    rfl

theorem value_writtenExponent (lead : Int) : (writtenExponent lead).value = lead := by
  have hdigits : digitsValue (Json.Digits.ofNat lead.natAbs).chars = lead.natAbs :=
    digitsValue_toDigits lead.natAbs
  rw [writtenExponent, Json.WrittenExponent.value, hdigits]
  by_cases h : lead < 0
  · rw [decide_eq_true h, if_pos rfl]
    omega
  · rw [decide_eq_false h, if_neg (by simp)]
    omega

/-- A decimal as the number of a document that it is written as. -/
def exactToken (negative : Bool) (c : Nat) (e : Int) : Json.NumberToken :=
  if e ≤ 0 && minPositional ≤ adjusted c e then .pointed negative c e.natAbs none
  else .pointed negative c (digitCount c - 1) (some (writtenExponent (adjusted c e)))

/-- **Exact notation is that number.** -/
theorem toChars_finite (negative : Bool) (c : Nat) (e : Int) :
    (finite negative c e).toChars = (exactToken negative c e).chars := by
  rw [toChars, magnitudeText, exactToken]
  split
  · rw [Json.NumberToken.chars_pointed, Option.elim_none, List.append_nil]
  · rw [Json.NumberToken.chars_pointed, Option.elim_some, chars_writtenExponent, digitCount]

theorem exactToken_spec (negative : Bool) (c : Nat) (e : Int) :
    (exactToken negative c e).negative = negative ∧ (exactToken negative c e).coefficient = c ∧
      (exactToken negative c e).scale = e := by
  unfold exactToken
  split
  · rename_i h
    rw [Bool.and_eq_true, decide_eq_true_eq] at h
    rw [Json.NumberToken.coefficient_pointed, Json.NumberToken.scale_pointed, Option.elim_none]
    exact ⟨rfl, rfl, by omega⟩
  · have hpos := digitCount_pos c
    rw [Json.NumberToken.coefficient_pointed, Json.NumberToken.scale_pointed, Option.elim_some,
      value_writtenExponent, adjusted]
    exact ⟨rfl, rfl, by omega⟩

/-- **Nothing is lost in writing**: a finite decimal in range is read back as it was, with all its
digits, its exponent and its sign. -/
theorem read?_toChars {negative : Bool} {c : Nat} {e : Int} (h : inRange c e = true) :
    read? (finite negative c e).toChars = some (finite negative c e) := by
  obtain ⟨hnegative, hcoefficient, hscale⟩ := exactToken_spec negative c e
  rw [toChars_finite, Json.NumberToken.read?_chars, hnegative, hcoefficient, hscale, if_pos h]

/-- A number that is read is finite and in range. -/
theorem exists_finite_of_number? {cs : List Char} {negative : Bool} {v : Decimal}
    (h : number? negative cs = some v) : ∃ c e, v = finite negative c e ∧ inRange c e = true := by
  unfold number? at h
  extract_lets whole rest at h
  split at h
  split at h
  · exact absurd h (by simp)
  · rw [Option.bind_eq_bind, Option.bind_eq_some_iff] at h
    obtain ⟨shift, -, h⟩ := h
    dsimp only at h
    split at h
    · rename_i hrange
      exact ⟨_, _, (Option.some.inj h).symm, hrange⟩
    · exact absurd h (by simp)

theorem not_isFinite_of_notANumber? {cs : List Char} {sign : Bool} {v : Decimal}
    (h : notANumber? sign cs = some v) : v.isFinite = false := by
  unfold notANumber? at h
  split at h
  · obtain ⟨n, -, rfl⟩ := Option.map_eq_some_iff.1 h
    rfl
  · obtain ⟨n, -, rfl⟩ := Option.map_eq_some_iff.1 h
    rfl
  · exact absurd h (by simp)

/-- Nothing out of range is read. -/
theorem inRange_of_read? {cs : List Char} {negative : Bool} {c : Nat} {e : Int}
    (h : read? cs = some (finite negative c e)) : inRange c e = true := by
  rw [read?, Option.bind_eq_bind, Option.bind_eq_some_iff] at h
  obtain ⟨plain, -, h⟩ := h
  generalize splitSign plain = signed at h
  obtain ⟨sign, body⟩ := signed
  dsimp only at h
  split at h
  · exact absurd (Option.some.inj h) (by simp)
  · rcases Option.or_eq_some_iff.1 h with h | ⟨-, h⟩
    · exact absurd (not_isFinite_of_notANumber? h) (by simp [isFinite])
    · obtain ⟨c', e', heq, hrange⟩ := exists_finite_of_number? h
      obtain ⟨-, rfl, rfl⟩ := finite.inj heq
      exact hrange

/-- **The finite decimals that texts can name** are those in range. -/
theorem exists_read?_iff {negative : Bool} {c : Nat} {e : Int} :
    (∃ cs, read? cs = some (finite negative c e)) ↔ inRange c e = true := by
  constructor
  · rintro ⟨cs, hread⟩
    exact inRange_of_read? hread
  · intro hrange
    exact ⟨(finite negative c e).toChars, read?_toChars hrange⟩

/-! ## Characters -/

theorem mem_withPoint {ds : List Char} {places : Nat} {c : Char} (h : c ∈ withPoint ds places) :
    c ∈ ds ∨ c = '0' ∨ c = '.' := by
  unfold withPoint at h
  split at h
  · exact Or.inl h
  · have hpadded : ∀ {k : Nat}, c ∈ List.replicate k '0' ++ ds → c ∈ ds ∨ c = '0' ∨ c = '.' := by
      intro k hc
      rcases List.mem_append.1 hc with hc | hc
      · exact Or.inr (Or.inl (List.eq_of_mem_replicate hc))
      · exact Or.inl hc
    rcases List.mem_append.1 h with h | h
    · exact hpadded (List.mem_of_mem_take h)
    · rcases List.mem_cons.1 h with rfl | h
      · exact Or.inr (Or.inr rfl)
      · exact hpadded (List.mem_of_mem_drop h)

/-- A decimal is written in digits, letters, signs and points. -/
theorem mem_toChars {d : Decimal} {c : Char} (h : c ∈ d.toChars) :
    isAsciiDigit c = true ∨ c.isAlpha = true ∨ c ∈ ['+', '-', '.'] := by
  have hsign : ∀ {negative : Bool}, c ∈ signText negative → c ∈ ['+', '-', '.'] := by
    intro negative hc
    cases negative with
    | true => exact List.mem_cons_of_mem _ (List.mem_cons.2 (Or.inl (List.mem_singleton.1 hc)))
    | false => exact absurd hc List.not_mem_nil
  have hpointed : ∀ {n places : Nat}, c ∈ withPoint (decimalDigits n) places →
      isAsciiDigit c = true ∨ c ∈ ['+', '-', '.'] := by
    intro n places hc
    rcases mem_withPoint hc with hc | rfl | rfl
    · exact Or.inl (isAsciiDigit_of_mem_decimalDigits hc)
    · exact Or.inl rfl
    · exact Or.inr (by decide)
  cases d with
  | finite negative n e =>
    rw [toChars, magnitudeText] at h
    rcases List.mem_append.1 h with h | h
    · exact Or.inr (Or.inr (hsign h))
    split at h
    · exact (hpointed h).imp_right Or.inr
    · rcases List.mem_append.1 h with h | h
      · exact (hpointed h).imp_right Or.inr
      rcases List.mem_cons.1 h with rfl | h
      · exact Or.inr (Or.inl rfl)
      rw [exponentText] at h
      rcases List.mem_cons.1 h with rfl | h
      · refine Or.inr (Or.inr ?_)
        split <;> decide
      · exact Or.inl (isAsciiDigit_of_mem_decimalDigits h)
  | infinity negative =>
    rcases List.mem_append.1 h with h | h
    · exact Or.inr (Or.inr (hsign h))
    · have hall : ∀ c ∈ "Infinity".toList, c.isAlpha = true := List.all_eq_true.1 rfl
      exact Or.inr (Or.inl (hall c h))
  | nan negative signaling payload =>
    rcases List.mem_append.1 h with h | h
    · rcases List.mem_append.1 h with h | h
      · exact Or.inr (Or.inr (hsign h))
      · have hall : ∀ c ∈ (if signaling then "sNaN" else "NaN").toList, c.isAlpha = true := by
          cases signaling <;> exact List.all_eq_true.1 rfl
        exact Or.inr (Or.inl (hall c h))
    · rw [payloadText] at h
      split at h
      · exact absurd h List.not_mem_nil
      · exact Or.inl (isAsciiDigit_of_mem_decimalDigits h)

/-- A decimal that is written does not break the line. -/
theorem newline_notMem_toChars (d : Decimal) : '\n' ∉ d.toChars := by
  intro h
  exact absurd (mem_toChars h) (by decide)

/-! ## Plain notation -/

/-- A decimal as the number of a document that its plain notation is. -/
def plainToken (negative : Bool) (c : Nat) (e : Int) : Json.NumberToken :=
  .pointed negative (c * 10 ^ e.toNat) (-e).toNat none

/-- **Plain notation is that number.** -/
theorem signText_append_positional (negative : Bool) (c : Nat) (e : Int) :
    signText negative ++ positional c e = (plainToken negative c e).chars := by
  rw [plainToken, Json.NumberToken.chars_pointed, Option.elim_none, List.append_nil, positional]
  by_cases he : 0 ≤ e
  · have hplaces : (-e).toNat = 0 := by omega
    rw [if_pos he, hplaces, withPoint, if_pos rfl]
    by_cases hc : c = 0
    · rw [if_pos hc, hc, Nat.zero_mul]
      rfl
    · rw [if_neg hc, decimalDigits_mul_pow hc]
  · have hwhole : e.toNat = 0 := by omega
    have hplaces : (-e).toNat = e.natAbs := by omega
    rw [if_neg he, hwhole, hplaces, Nat.pow_zero, Nat.mul_one]

theorem plainToken_spec (negative : Bool) (c : Nat) (e : Int) :
    (plainToken negative c e).negative = negative ∧ (plainToken negative c e).exponent = none ∧
      (plainToken negative c e).coefficient = c * 10 ^ e.toNat ∧
      (plainToken negative c e).scale = min e 0 := by
  rw [plainToken, Json.NumberToken.coefficient_pointed, Json.NumberToken.scale_pointed,
    Option.elim_none]
  exact ⟨rfl, rfl, rfl, by omega⟩

end Decimal

end PaperVenue
