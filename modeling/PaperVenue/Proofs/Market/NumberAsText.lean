import PaperVenue.Proofs.Binary64.Shortest
import PaperVenue.Proofs.Json.NumberToken
import PaperVenue.Proofs.Market.Leniency

/-!
# Numbers and their texts in decimal fields

A decimal field takes a number or a text, so a tick of a tenth may be written `0.1` or `"0.1"`.
Both ways mean the number that is written.  The text is read digit by digit and is that number.  The
number goes another way: unless it is an integer, the reader makes a double of it, and the field
takes the decimal that this double is written as.

So the two ways agree exactly if the number is kept by the way over a double
(`NumberToken.Kept`): it is an integer, or some double is written as it.  A number of up to 15
digits is kept, unless it is very small, and one that takes more than 17 digits is not.  Besides, a
text can only be read if its exponents are in the range of decimals, whereas a zero with any
exponent is a double.  `decode_number_alike_iff` says all this, and `not_forall_decode_number_alike`
gives a number that is not kept.

Everything else about the two documents is the same, and that takes two steps.
`readMembers_iff_set` says that a record in which one field is written in another way reads as the
same market but for this field; `exists_ofJson_of_replacesRecord` says that a document in which one
record reads as another market with the same symbol is the same catalog but for this market.
-/

namespace PaperVenue

/-! ## The decimal fields -/

namespace Record

/-- The fields that hold a decimal. -/
inductive DecimalField where
  | tickSize | stepSize | minNotional | minQuantity

namespace DecimalField

/-- The two spellings of the field. -/
def spelling : DecimalField → Spelling
  | tickSize => ⟨"tickSize", "tick_size"⟩
  | stepSize => ⟨"stepSize", "step_size"⟩
  | minNotional => ⟨"minNotional", "min_notional"⟩
  | minQuantity => ⟨"minQuantity", "min_quantity"⟩

/-- The decimal that a market has in the field. -/
def get : DecimalField → Market → Decimal
  | tickSize, m => m.tickSize
  | stepSize, m => m.stepSize
  | minNotional, m => m.minNotional
  | minQuantity, m => m.minQuantity

/-- The market with another decimal in the field. -/
def set : DecimalField → Decimal → Market → Market
  | tickSize, d, m => { m with tickSize := d }
  | stepSize, d, m => { m with stepSize := d }
  | minNotional, d, m => { m with minNotional := d }
  | minQuantity, d, m => { m with minQuantity := d }

@[simp] theorem get_set (f : DecimalField) (d : Decimal) (m : Market) : f.get (f.set d m) = d := by
  cases f <;> rfl

@[simp] theorem set_set (f : DecimalField) (d d' : Decimal) (m : Market) :
    f.set d (f.set d' m) = f.set d m := by
  cases f <;> rfl

@[simp] theorem symbol_set (f : DecimalField) (d : Decimal) (m : Market) :
    (f.set d m).symbol = m.symbol := by
  cases f <;> rfl

theorem mem_fields (f : DecimalField) : (f.spelling, Kind.decimal) ∈ fields := by
  cases f <;> simp [fields, spelling]

/-- The market, with the number that it has in the field in place of the decimal. -/
def reckoned (f : DecimalField) (m : Market) : Market × Option ℚ :=
  (f.set .zero m, (f.get m).value?)

variable {f : DecimalField} {r r' : Table Text Json} {m m' : Market} {d : Decimal}

/-- What a market has in the field is what the record's field reads. -/
theorem decimalField_of_read (h : readMembers r = .ok m) :
    decimalField r f.spelling.main f.spelling.other = .ok (f.get m) := by
  obtain ⟨-, -, -, -, -, -, -, -, htick, hstep, hnotional, hquantity⟩ := readMembers_eq_ok_iff.1 h
  cases f with
  | tickSize => exact htick
  | stepSize => exact hstep
  | minNotional => exact hnotional
  | minQuantity => exact hquantity

/-- Two records give the same for all fields but this one. -/
def SameElsewhere (f : DecimalField) (r r' : Table Text Json) : Prop :=
  ∀ g ∈ fields, g.1.main ≠ f.spelling.main → given? r g.1 = given? r' g.1

theorem readMembers_set (h : readMembers r = .ok m) (hsame : f.SameElsewhere r r')
    (hd : decimalField r' f.spelling.main f.spelling.other = .ok d) :
    readMembers r' = .ok (f.set d m) := by
  simp only [SameElsewhere, fields, List.forall_mem_cons] at hsame
  simp only [readMembers_eq_ok_iff, textField, integerField, decimalField,
    readField_eq_readGiven] at h hd ⊢
  cases f <;> simp_all [spelling, set]

/-- **One field and nothing else**: the other record reads as the same market with a decimal of its
own. -/
theorem readMembers_iff_set (h : readMembers r = .ok m) (hsame : f.SameElsewhere r r') :
    readMembers r' = .ok m' ↔
      ∃ d, decimalField r' f.spelling.main f.spelling.other = .ok d ∧ m' = f.set d m := by
  constructor
  · intro h'
    have hd := decimalField_of_read (f := f) h'
    exact ⟨f.get m', hd, Except.ok.inj (h'.symm.trans (readMembers_set h hsame hd))⟩
  · rintro ⟨d, hd, rfl⟩
    exact readMembers_set h hsame hd

variable {front back : Table Text Json} {k : Text} {v v' : Json}

/-- Two records that differ in the value of one member are the same in all other fields. -/
theorem sameElsewhere_of_gives (hk : Gives (front ++ back) f.spelling k) (v v' : Json) :
    f.SameElsewhere (front ++ (k, v) :: back) (front ++ (k, v') :: back) := by
  intro g hg hne
  have hgoes : GoesBy (f.spelling, .decimal) k := hk.2.imp_right And.left
  have hother : ¬ GoesBy g k := by
    intro hgk
    exact hne (congrArg (fun g => g.1.main) (eq_of_goesBy hg f.mem_fields hgk hgoes))
  rw [GoesBy, not_or] at hother
  rw [given?, given?, find?_append_cons_of_ne hother.1 hother.2,
    find?_append_cons_of_ne hother.1 hother.2]

/-- The field reads what stands under a name that gives it. -/
theorem decimalField_eq_ok_iff (hk : Gives (front ++ back) f.spelling k) (hv : v ≠ .null) :
    decimalField (front ++ (k, v) :: back) f.spelling.main f.spelling.other = .ok d ↔
      readDecimal v = .ok d := by
  obtain ⟨name, hfind⟩ := exists_find?_of_gives hk
  have hfind' : find? (front ++ (k, v) :: back) ⟨f.spelling.main, f.spelling.other⟩ =
      some (name, v) := hfind v
  rw [decimalField, readField_of_value hfind' hv, mapError_eq_ok_iff]

end DecimalField

end Record

/-! ## Numbers that are kept -/

namespace Json

namespace NumberToken

/-- The way over a double keeps the number, and the number can be a text. -/
def Kept (t : NumberToken) : Prop :=
  Decimal.inRange t.coefficient t.scale = true ∧ (t.IsInteger ∨ Binary64.Shown t.value)

/-- The number has at most so many digits, apart from zeros at its ends. -/
def FitsDigits (t : NumberToken) (n : Nat) : Prop :=
  ∃ a j, a < 10 ^ n ∧ Decimal.magnitude t.coefficient t.scale = Decimal.magnitude a j

variable {t : NumberToken} {v : Json} {d : Decimal}

theorem ne_null_of_read (hv : Json.read (Text.ofChars t.chars) = .ok v) : v ≠ .null := by
  rcases of_read hv with ⟨-, -, rfl⟩ | ⟨-, rfl⟩ <;> simp

/-- **The text is the number that is written**, if it is a decimal at all. -/
theorem readDecimal_text_eq_ok_iff :
    Record.readDecimal (.text (Text.ofChars t.chars)) = .ok d ↔
      Decimal.inRange t.coefficient t.scale = true ∧
        d = .finite t.negative t.coefficient t.scale := by
  rw [Record.readDecimal, Text.toChars?_ofChars, Option.bind_some, read?_chars]
  by_cases hrange : Decimal.inRange t.coefficient t.scale = true
  · rw [if_pos hrange, and_iff_right hrange]
    constructor
    · exact fun h => (Except.ok.inj h).symm
    · rintro rfl
      rfl
  · rw [if_neg hrange]
    constructor
    · intro h
      have herror : (Except.error Problem.notADecimalText : Except Problem Decimal) = .ok d := h
      exact absurd herror (by simp)
    · exact fun h => absurd h.1 hrange

theorem readDecimal_double_eq_ok_iff {x : Binary64} :
    Record.readDecimal (.double x) = .ok d ↔ x.toDecimal? = some d := by
  rw [Record.readDecimal]
  cases x.toDecimal? <;> simp

/-- **The number that is read is the one that is written** exactly if it is an integer or some
double is written as it. -/
theorem value?_readDecimal_iff (hv : Json.read (Text.ofChars t.chars) = .ok v)
    (hd : Record.readDecimal v = .ok d) :
    d.value? = some t.value ↔ t.IsInteger ∨ Binary64.Shown t.value := by
  rcases of_read hv with ⟨hinteger, -, rfl⟩ | ⟨hinteger, rfl⟩
  · obtain rfl := Except.ok.inj hd
    exact iff_of_true (value?_ofInt_of_isInteger hinteger) (Or.inl hinteger)
  · have hdouble := readDecimal_double_eq_ok_iff.1 hd
    rw [or_iff_right hinteger, value, Binary64.shown_iff]
    constructor
    · exact fun hvalue => ⟨d, hdouble, hvalue⟩
    · rintro ⟨d', hd', hvalue⟩
      obtain rfl := Option.some.inj (hdouble.symm.trans hd')
      exact hvalue

/-- Integers are kept. -/
theorem kept_of_isInteger (hv : Json.read (Text.ofChars t.chars) = .ok v) (h : t.IsInteger) :
    t.Kept := by
  rcases of_read hv with ⟨-, hdigits, -⟩ | ⟨hinteger, -⟩
  · exact ⟨inRange_of_isInteger h hdigits, Or.inl h⟩
  · exact absurd h hinteger

/-- **Fifteen digits are kept**, unless they are those of a very small number. -/
theorem kept_of_fitsDigits (hv : Json.read (Text.ofChars t.chars) = .ok v)
    (hd : Record.readDecimal v = .ok d) (hrange : Decimal.inRange t.coefficient t.scale = true)
    (hdigits : t.FitsDigits 15) (hsize : t.value = 0 ∨ (10 : ℚ) ^ (-307 : Int) ≤ |t.value|) :
    t.Kept := by
  rcases of_read hv with ⟨hinteger, -, -⟩ | ⟨-, rfl⟩
  · exact kept_of_isInteger hv hinteger
  · refine ⟨hrange, Or.inr ?_⟩
    rcases hsize with hzero | hsize
    · rw [hzero]
      exact Binary64.shown_zero
    · rw [value, Decimal.abs_withSign _ (Decimal.magnitude_nonneg _ _)] at hsize
      obtain ⟨a, j, ha, heq⟩ := hdigits
      exact Binary64.shown_of_short (readDecimal_double_eq_ok_iff.1 hd) hsize ha heq

/-- **More than 17 digits are not kept**, unless they are those of an integer. -/
theorem Kept.fitsDigits (h : t.Kept) : t.IsInteger ∨ t.FitsDigits 17 := by
  refine h.2.imp_right fun hshown => ?_
  obtain ⟨negative, a, j, ha, hvalue⟩ := hshown.digits
  rw [value, Decimal.withSign_eq_withSign_iff (Decimal.magnitude_nonneg _ _)
    (Decimal.magnitude_nonneg _ _)] at hvalue
  exact ⟨a, j, ha, hvalue.1⟩

end NumberToken

end Json

/-! ## Documents -/

namespace Catalog

open Record (DecimalField)

variable {r r' : Table Text Json} {m m' : Market} {V V' : Json}

/-- Places that hold the same values but for one record read as the same markets but for that of the
record. -/
theorem exists_readRecords_replace {places places' : List (Text × Json)} {before after : List Json}
    (hplaces : places.map Prod.snd = before ++ .object r :: after)
    (hplaces' : places'.map Prod.snd = before ++ .object r' :: after)
    (hm : Record.readMembers r = .ok m) (hm' : Record.readMembers r' = .ok m') {ms : List Market}
    (hread : readRecords places = .ok ms) :
    ∃ ms₁ ms₂, ms = ms₁ ++ m :: ms₂ ∧ readRecords places' = .ok (ms₁ ++ m' :: ms₂) := by
  have hvalues : ∀ (places : List (Text × Json)) (ms : List Market), readRecords places = .ok ms ↔
      (places.map Prod.snd).map Record.read = ms.map .ok := by
    intro places ms
    rw [readRecords_eq_ok_iff, List.map_map]
    rfl
  rw [hvalues, hplaces, List.map_append, List.map_cons] at hread
  obtain ⟨ms₁, ms', rfl, hbefore, hrest⟩ := List.map_eq_append_iff.1 hread.symm
  obtain ⟨n, ms₂, rfl, hn, hafter⟩ := List.map_eq_cons_iff.1 hrest
  obtain rfl : n = m := Except.ok.inj (hn.trans hm)
  refine ⟨ms₁, ms₂, rfl, ?_⟩
  have hr' : Record.read (.object r') = .ok m' := hm'
  rw [hvalues, hplaces', List.map_append, List.map_cons, List.map_append, List.map_cons, hbefore,
    hafter, hr']

/-- **One market and nothing else**: the other document is a catalog too, and whatever does not tell
the two markets apart does not tell the two catalogs apart. -/
theorem exists_ofJson_of_replacesRecord {β : Type} {φ : Market → β}
    (h : ReplacesRecord r r' V V') (hm : Record.readMembers r = .ok m)
    (hm' : Record.readMembers r' = .ok m') (hsymbol : m.symbol = m'.symbol) (hφ : φ m = φ m')
    {c : Catalog} (hc : (ofJson V).outcome = .ok c) :
    ∃ c', (ofJson V').outcome = .ok c' ∧
      Table.mapValues (fun _ => φ) c = Table.mapValues (fun _ => φ) c' := by
  have hcatalog := exists_ofJson_iff.1 ⟨c, hc⟩
  cases h with
  | item front back =>
    obtain ⟨ms, hread⟩ := exists_readRecords_itemPlaces_iff.2 fun v hv => (hcatalog v hv).1
    have hnamed := named_of_readItems hread fun v hv => (hcatalog v hv).2
    obtain ⟨ms₁, ms₂, rfl, hread'⟩ :=
      exists_readRecords_replace (snd_itemPlaces _) (snd_itemPlaces _) hm hm' hread
    have hnamed' : ∀ n ∈ ms₁ ++ m' :: ms₂, n.symbol ≠ [] := by
      rw [List.forall_mem_append, List.forall_mem_cons] at hnamed ⊢
      exact hnamed.imp_right (And.imp_left fun hne => hsymbol ▸ hne)
    have hentries : ∀ n : List Market, Table.mapValues (fun _ => φ) (n.map fun m => (m.symbol, m)) =
        n.map fun m => (m.symbol, φ m) := fun n => List.map_map
    obtain rfl := Except.ok.inj (hc.symm.trans (outcome_ofItems hread hnamed))
    refine ⟨_, outcome_ofItems hread' hnamed', ?_⟩
    rw [Table.mapValues_ofList, Table.mapValues_ofList, hentries, hentries, List.map_append,
      List.map_append, List.map_cons, List.map_cons, hsymbol, hφ]
  | member front back name =>
    obtain ⟨hnil, hvalid⟩ := hcatalog
    obtain ⟨ms, hread⟩ := exists_readRecords_memberPlaces_iff.2 hvalid
    have hvalues : ∀ r : Table Text Json,
        (memberPlaces (front ++ (name, .object r) :: back)).map Prod.snd =
          front.map Prod.snd ++ .object r :: back.map Prod.snd := by
      intro r
      rw [snd_memberPlaces, List.map_append, List.map_cons]
    obtain ⟨ms₁, ms₂, rfl, hread'⟩ :=
      exists_readRecords_replace (hvalues r) (hvalues r') hm hm' hread
    have hkeys : Table.keys (front ++ (name, Json.object r) :: back) =
        Table.keys (front ++ (name, Json.object r') :: back) := by
      simp only [Table.keys, List.map_append, List.map_cons]
    have hzip : ∀ (ks : List Text) (n : List Market),
        Table.mapValues (fun _ => φ) (ks.zip n) = ks.zip (n.map φ) :=
      fun ks n => List.zip_map_right.symm
    obtain rfl := Except.ok.inj (hc.symm.trans (outcome_ofMembers hnil hread))
    refine ⟨_, outcome_ofMembers (by simp) hread', ?_⟩
    rw [hzip, hzip, hkeys, List.map_append, List.map_append, List.map_cons, List.map_cons, hφ]

/-- In a document that is a catalog every record reads. -/
theorem exists_readMembers_of_ofJson (h : ReplacesRecord r r' V V') {c : Catalog}
    (hc : (ofJson V).outcome = .ok c) : ∃ m, Record.readMembers r = .ok m := by
  by_contra hnone
  have hinvalid : ¬ Record.Valid (.object r) := fun hr => hnone (Record.exists_read_iff.2 hr)
  obtain ⟨record, error, he⟩ :=
    outcome_of_failsValidation (failsValidation_of_replacesRecord h hinvalid)
  exact absurd (hc.symm.trans he) (by simp)

theorem ReplacesRecord.symm (h : ReplacesRecord r r' V V') : ReplacesRecord r' r V' V := by
  cases h with
  | item front back => exact .item front back
  | member front back name => exact .member front back name

/-! ## A number and its text -/

/-- Two records that are the same but for one member, under whose name the field is given: the first
holds a number there, and the second the text of this number. -/
def NumberAndText (f : DecimalField) (t : Json.NumberToken) (r r' : Table Text Json) : Prop :=
  ∃ front k v back, Json.read (Text.ofChars t.chars) = .ok v ∧
    Record.Gives (front ++ back) f.spelling k ∧ r = front ++ (k, v) :: back ∧
    r' = front ++ (k, .text (Text.ofChars t.chars)) :: back

/-- The two documents decode alike: the two records read as markets that have the number `x` in the
field, and the two catalogs are the same but for the notation of numbers in this field. -/
def DecodesAlike (f : DecimalField) (x : ℚ) (r r' : Table Text Json)
    (document document' : Json.Document) : Prop :=
  ∃ c c' m m', (decode document).outcome = .ok c ∧ (decode document').outcome = .ok c' ∧
    Record.readMembers r = .ok m ∧ Record.readMembers r' = .ok m' ∧
    (f.get m).value? = some x ∧ (f.get m').value? = some x ∧
    Table.mapValues (fun _ => f.reckoned) c = Table.mapValues (fun _ => f.reckoned) c'

section NumberAndText

variable {f : DecimalField} {t : Json.NumberToken}

/-- **What the two records read**: the first what the reader makes of the number, and the second the
same market with the number that is written, if this is a decimal at all. -/
theorem NumberAndText.spec (h : NumberAndText f t r r') (hm : Record.readMembers r = .ok m) :
    ∃ v, Json.read (Text.ofChars t.chars) = .ok v ∧ Record.readDecimal v = .ok (f.get m) ∧
      ∀ m', Record.readMembers r' = .ok m' ↔
        Decimal.inRange t.coefficient t.scale = true ∧
          m' = f.set (.finite t.negative t.coefficient t.scale) m := by
  obtain ⟨front, k, v, back, hv, hk, rfl, rfl⟩ := h
  refine ⟨v, hv, ?_, fun m' => ?_⟩
  · rw [← DecimalField.decimalField_eq_ok_iff hk (Json.NumberToken.ne_null_of_read hv)]
    exact DecimalField.decimalField_of_read hm
  · rw [DecimalField.readMembers_iff_set hm (DecimalField.sameElsewhere_of_gives hk _ _)]
    simp only [DecimalField.decimalField_eq_ok_iff hk (show Json.text _ ≠ .null by simp),
      Json.NumberToken.readDecimal_text_eq_ok_iff]
    constructor
    · rintro ⟨d, ⟨hrange, rfl⟩, rfl⟩
      exact ⟨hrange, rfl⟩
    · rintro ⟨hrange, rfl⟩
      exact ⟨_, ⟨hrange, rfl⟩, rfl⟩

variable {document document' : Json.Document} {c : Catalog}

/-- The document with the text decodes exactly if the text is a decimal. -/
theorem exists_decode_text_iff (h : NumberAndText f t r r') (hV : ReplacesRecord r r' V V')
    (hread : document.read = .ok V) (hread' : document'.read = .ok V')
    (hc : (decode document).outcome = .ok c) :
    (∃ c', (decode document').outcome = .ok c') ↔
      Decimal.inRange t.coefficient t.scale = true := by
  rw [decode_of_read hread] at hc
  rw [decode_of_read hread']
  obtain ⟨m, hm⟩ := exists_readMembers_of_ofJson hV hc
  obtain ⟨-, -, -, htext⟩ := h.spec hm
  constructor
  · rintro ⟨c', hc'⟩
    obtain ⟨m', hm'⟩ := exists_readMembers_of_ofJson hV.symm hc'
    exact ((htext m').1 hm').1
  · intro hrange
    obtain ⟨c', hc', -⟩ := exists_ofJson_of_replacesRecord hV hm ((htext _).2 ⟨hrange, rfl⟩)
      (DecimalField.symbol_set f _ m).symm (DecimalField.set_set f .zero _ m).symm hc
    exact ⟨c', hc'⟩

/-- The documents decode alike exactly if the number is kept. -/
theorem decodesAlike_iff (h : NumberAndText f t r r') (hV : ReplacesRecord r r' V V')
    (hread : document.read = .ok V) (hread' : document'.read = .ok V')
    (hc : (decode document).outcome = .ok c) :
    DecodesAlike f t.value r r' document document' ↔ t.Kept := by
  rw [DecodesAlike, decode_of_read hread, decode_of_read hread']
  rw [decode_of_read hread] at hc
  constructor
  · rintro ⟨_, _, m, m', -, -, hm, hm', hvalue, -, -⟩
    obtain ⟨v, hv, hd, htext⟩ := h.spec hm
    exact ⟨((htext m').1 hm').1, (Json.NumberToken.value?_readDecimal_iff hv hd).1 hvalue⟩
  · rintro ⟨hrange, hkept⟩
    obtain ⟨m, hm⟩ := exists_readMembers_of_ofJson hV hc
    obtain ⟨v, hv, hd, htext⟩ := h.spec hm
    have hm' := (htext _).2 ⟨hrange, rfl⟩
    have hvalue := (Json.NumberToken.value?_readDecimal_iff hv hd).2 hkept
    have hvalue' : (f.get (f.set (.finite t.negative t.coefficient t.scale) m)).value? =
        some t.value := by
      rw [DecimalField.get_set]
      rfl
    have hreckoned : f.reckoned m =
        f.reckoned (f.set (.finite t.negative t.coefficient t.scale) m) := by
      rw [DecimalField.reckoned, DecimalField.reckoned, DecimalField.set_set, hvalue, hvalue']
    obtain ⟨c', hc', hsame⟩ := exists_ofJson_of_replacesRecord hV hm hm'
      (DecimalField.symbol_set f _ m).symm hreckoned hc
    exact ⟨c, c', m, _, hc, hc', hm, hm', hvalue, hvalue', hsame⟩

/-- **When a number and its text decode alike.**  Take a document that decodes to a catalog, a
record in it that gives a number for a decimal field, and the document with the text of this number
there.

The two decode alike, with the number that is written in both, exactly if the number is kept.  The
text is never to blame for a difference: it is refused exactly if its exponents are out of the range
of decimals, and otherwise it is the number that is written.  Integers are kept, and so is any
number in this range with up to 15 digits that is zero or not below `10^-307`; other numbers with
more than 17 digits are not kept. -/
theorem decode_number_alike_iff (h : NumberAndText f t r r') (hV : ReplacesRecord r r' V V')
    (hread : document.read = .ok V) (hread' : document'.read = .ok V')
    (hc : (decode document).outcome = .ok c) :
    (DecodesAlike f t.value r r' document document' ↔ t.Kept) ∧
    ((∃ c', (decode document').outcome = .ok c') ↔
      Decimal.inRange t.coefficient t.scale = true) ∧
    (∀ m', Record.readMembers r' = .ok m' → (f.get m').value? = some t.value) ∧
    (t.IsInteger → t.Kept) ∧
    (Decimal.inRange t.coefficient t.scale = true → t.FitsDigits 15 →
      (t.value = 0 ∨ (10 : ℚ) ^ (-307 : Int) ≤ |t.value|) → t.Kept) ∧
    (t.Kept → t.IsInteger ∨ t.FitsDigits 17) := by
  have hc' := hc
  rw [decode_of_read hread] at hc'
  obtain ⟨m, hm⟩ := exists_readMembers_of_ofJson hV hc'
  obtain ⟨v, hv, hd, htext⟩ := h.spec hm
  refine ⟨decodesAlike_iff h hV hread hread' hc, exists_decode_text_iff h hV hread hread' hc,
    fun m' hm' => ?_, Json.NumberToken.kept_of_isInteger hv,
    Json.NumberToken.kept_of_fitsDigits hv hd, Json.NumberToken.Kept.fitsDigits⟩
  obtain ⟨-, rfl⟩ := (htext m').1 hm'
  rw [DecimalField.get_set]
  rfl

end NumberAndText

/-! ## Two ticks -/

/-- A number below one, by the digits behind its point. -/
def belowOne (ds : Json.Digits) : Json.NumberToken where
  negative := false
  whole := ⟨['0'], by decide, List.all_eq_true.1 rfl⟩
  fraction := some ds
  exponent := none
  zero_alone := by
    rintro ds' h
    exact (List.cons.inj h).2.symm

/-- An array of one record, with a tick as it is written. -/
def tickDocument (tick : String) : Json.Document := .inline (Text.ofString
  ("[\x7b\"symbol\": \"X\", \"tickSize\": " ++ tick ++ "\x7d]"))

/-- The record of that array. -/
def tickRecord (v : Json) : Table Text Json :=
  [(Text.ofString "symbol", .text (Text.ofString "X")), (Text.ofString "tickSize", v)]

theorem numberAndText_tickRecord {t : Json.NumberToken} {v : Json}
    (hv : Json.read (Text.ofChars t.chars) = .ok v) :
    NumberAndText .tickSize t (tickRecord v) (tickRecord (.text (Text.ofChars t.chars))) :=
  ⟨[(Text.ofString "symbol", .text (Text.ofString "X"))], Text.ofString "tickSize", v, [], hv,
    ⟨by decide, Or.inl rfl⟩, rfl, rfl⟩

theorem exists_ok_of_isSome {ε α : Type} {x : Except ε α} (h : x.toOption.isSome = true) :
    ∃ a, x = .ok a := by
  cases x with
  | error e => exact absurd h Bool.false_ne_true
  | ok a => exact ⟨a, rfl⟩

/-- A tick of a tenth. -/
def tenth : Json.NumberToken := belowOne ⟨['1'], by decide, List.all_eq_true.1 rfl⟩

/-- A tenth is the same as a number and as a text. -/
theorem decode_number_alike_iff_tenth :
    DecodesAlike .tickSize tenth.value (tickRecord (.double tenth.double))
      (tickRecord (.text (Text.ofString "0.1"))) (tickDocument "0.1") (tickDocument "\"0.1\"") := by
  have hv : Json.read (Text.ofChars tenth.chars) = .ok (.double tenth.double) := rfl
  have hread : (tickDocument "0.1").read =
      .ok (.array [.object (tickRecord (.double tenth.double))]) := rfl
  have hread' : (tickDocument "\"0.1\"").read =
      .ok (.array [.object (tickRecord (.text (Text.ofString "0.1")))]) := rfl
  obtain ⟨c, hc⟩ : ∃ c, (decode (tickDocument "0.1")).outcome = .ok c :=
    exists_ok_of_isSome (by decide +kernel)
  have hvalue : tenth.value = 10 ^ (-1 : Int) := by
    show ((1 : Nat) : ℚ) * 10 ^ (-1 : Int) = 10 ^ (-1 : Int)
    rw [Nat.cast_one, one_mul]
  have hsize : (10 : ℚ) ^ (-307 : Int) ≤ |tenth.value| := by
    rw [hvalue, abs_of_pos (ten_zpow_pos (-1))]
    exact ten_zpow_le (by decide)
  obtain ⟨halike, -, -, -, hkept, -⟩ := decode_number_alike_iff (numberAndText_tickRecord hv)
    (ReplacesRecord.item [] []) hread hread' hc
  exact halike.2 (hkept (by decide) ⟨1, -1, by decide, rfl⟩ (Or.inr hsize))

/-- A tick of 19 digits. -/
def nineteenDigits : Json.NumberToken :=
  belowOne ⟨"1234567890123456789".toList, by decide, List.all_eq_true.1 rfl⟩

/-- What the field takes for it has 17 digits. -/
theorem readDecimal_nineteenDigits : Record.readDecimal (.double nineteenDigits.double) =
    .ok (.finite false 12345678901234568 (-17)) := by
  rw [Json.NumberToken.readDecimal_double_eq_ok_iff]
  decide +kernel

/-- **Numbers and texts do not always decode alike.**  The tick of 19 digits is accepted as a
number, but two of its digits are lost. -/
theorem not_forall_decode_number_alike :
    ¬ ∀ (f : DecimalField) (t : Json.NumberToken) (r r' : Table Text Json) (V V' : Json)
      (document document' : Json.Document) (c : Catalog), NumberAndText f t r r' →
      ReplacesRecord r r' V V' → document.read = .ok V → document'.read = .ok V' →
      (decode document).outcome = .ok c → DecodesAlike f t.value r r' document document' := by
  intro hall
  have hv : Json.read (Text.ofChars nineteenDigits.chars) = .ok (.double nineteenDigits.double) :=
    rfl
  have hread : (tickDocument "0.1234567890123456789").read =
      .ok (.array [.object (tickRecord (.double nineteenDigits.double))]) := rfl
  have hread' : (tickDocument "\"0.1234567890123456789\"").read =
      .ok (.array [.object (tickRecord (.text (Text.ofChars nineteenDigits.chars)))]) := rfl
  obtain ⟨c, hc⟩ : ∃ c, (decode (tickDocument "0.1234567890123456789")).outcome = .ok c :=
    exists_ok_of_isSome (by decide +kernel)
  have hpair := numberAndText_tickRecord hv
  obtain ⟨-, -, m, m', -, -, hm, -, hvalue, -, -⟩ :=
    hall _ _ _ _ _ _ _ _ _ hpair (.item [] []) hread hread' hc
  obtain ⟨v, hv', hd, -⟩ := hpair.spec hm
  obtain rfl := Except.ok.inj (hv.symm.trans hv')
  have hget := Except.ok.inj (hd.symm.trans readDecimal_nineteenDigits)
  rw [hget, Decimal.value?, Option.some.injEq, Json.NumberToken.value,
    Decimal.withSign_eq_withSign_iff (Decimal.magnitude_nonneg _ _) (Decimal.magnitude_nonneg _ _)]
    at hvalue
  -- both numbers on the finer of the two grids
  have hcoefficient : nineteenDigits.coefficient = 1234567890123456789 := by decide
  have hscale : nineteenDigits.scale = -19 := by decide
  have heq := hvalue.1
  rw [hcoefficient, hscale, Decimal.magnitude_eq_of_le (by decide : (-19 : Int) ≤ -17)] at heq
  have hmagnitude := mul_right_cancel₀ (ten_zpow_pos (-19)).ne' heq
  exact absurd (Nat.cast_injective hmagnitude) (by decide)

end Catalog

end PaperVenue
