import PaperVenue.Proofs.Decimal.Written
import PaperVenue.Proofs.Exchange.Environment
import PaperVenue.Proofs.Market.NumberAsText
import PaperVenue.Proofs.Market.TwoShapes

/-!
# One grammar of decimals

A decimal may be given as a text in two places: in a setting, and in a field of a catalog record.
The two are read by different functions.  A setting is cut at its ends first, and counts as absent
if nothing is left, if it is no decimal, or if it is not finite; a field takes the text as it
stands and refuses what is no decimal or not finite.

They agree on every text, and `Settings.readDecimal_eq_ok_iff` says so.  Cutting the ends first does
no harm, as the grammar of decimals cuts them too, and nothing is left only of a text that is no
decimal (`Settings.value_readDecimal_some`).  `Catalog.decode_decimalText` carries this to documents:
a document that is a catalog but for the text in question decodes exactly if the text is a decimal as
a setting, and then the market has the very same decimal, digits and exponent included.
-/

namespace PaperVenue

/-! ## The grammar -/

namespace Decimal

/-- The words for what is no number, in small letters: an infinity, or a not-a-number with or
without digits behind it. -/
inductive SpecialWord : List Char → Prop
  | inf : SpecialWord ['i', 'n', 'f']
  | infinity : SpecialWord ['i', 'n', 'f', 'i', 'n', 'i', 't', 'y']
  | quiet {ds : List Char} (h : ∀ c ∈ ds, isAsciiDigit c = true) :
    SpecialWord ('n' :: 'a' :: 'n' :: ds)
  | signaling {ds : List Char} (h : ∀ c ∈ ds, isAsciiDigit c = true) :
    SpecialWord ('s' :: 'n' :: 'a' :: 'n' :: ds)

/-- A text spells an infinity or a not-a-number: with or without a sign, in small letters or
capitals, among underscores and between blanks, and its digits in any script. -/
def SpellsSpecial (cs : List Char) : Prop :=
  ∃ sign word, plainText? cs = some (sign ++ word) ∧ sign ∈ [[], ['+'], ['-']] ∧
    SpecialWord (word.map Char.toLower)

/-- What may stand behind the word for a not-a-number: digits, or nothing. -/
theorem exists_payload?_iff {ds : List Char} :
    (∃ n, payload? ds = some n) ↔ ∀ c ∈ ds, isAsciiDigit c = true := by
  unfold payload?
  by_cases hempty : ds.isEmpty = true
  · rw [if_pos hempty, List.isEmpty_iff.1 hempty]
    exact iff_of_true ⟨0, rfl⟩ (fun c hc => absurd hc List.not_mem_nil)
  · rw [if_neg hempty, digits?, Bool.eq_false_iff.2 hempty, ← List.all_eq_true]
    cases ds.all isAsciiDigit <;> simp

/-- A sign in front of such a word is split off. -/
theorem exists_splitSign {sign word : List Char} (hsign : sign ∈ [[], ['+'], ['-']])
    (hword : SpecialWord (word.map Char.toLower)) :
    ∃ negative, splitSign (sign ++ word) = (negative, word) := by
  simp only [List.mem_cons, List.not_mem_nil, or_false] at hsign
  rcases hsign with rfl | rfl | rfl
  · refine ⟨false, ?_⟩
    -- the word itself starts with no sign
    rw [List.nil_append, splitSign]
    · rintro rest rfl
      generalize hsmall : ('-' :: rest).map Char.toLower = small at hword
      cases hword <;> exact absurd (List.cons.inj hsmall).1 (by decide)
    · rintro rest rfl
      generalize hsmall : ('+' :: rest).map Char.toLower = small at hword
      cases hword <;> exact absurd (List.cons.inj hsmall).1 (by decide)
  · exact ⟨false, rfl⟩
  · exact ⟨true, rfl⟩

theorem splitSign_cases (cs : List Char) :
    ∃ sign ∈ [[], ['+'], ['-']], cs = sign ++ (splitSign cs).2 := by
  unfold splitSign
  split
  · exact ⟨['-'], by decide, rfl⟩
  · exact ⟨['+'], by decide, rfl⟩
  · exact ⟨[], by decide, rfl⟩

theorem specialWord_of_notANumber? {negative : Bool} {cs : List Char} {d : Decimal}
    (h : notANumber? negative cs = some d) : SpecialWord cs := by
  unfold notANumber? at h
  split at h
  · obtain ⟨n, hn, -⟩ := Option.map_eq_some_iff.1 h
    exact .quiet (exists_payload?_iff.1 ⟨n, hn⟩)
  · obtain ⟨n, hn, -⟩ := Option.map_eq_some_iff.1 h
    exact .signaling (exists_payload?_iff.1 ⟨n, hn⟩)
  · exact absurd h (by simp)

/-- **These are the texts that are read as something that is not finite.** -/
theorem spellsSpecial_iff {cs : List Char} :
    SpellsSpecial cs ↔ ∃ d, read? cs = some d ∧ d.isFinite = false := by
  constructor
  · rintro ⟨sign, word, hplain, hsign, hword⟩
    obtain ⟨negative, hsplit⟩ := exists_splitSign hsign hword
    rw [read?, hplain, Option.bind_eq_bind, Option.bind_some, hsplit]
    dsimp only
    generalize word.map Char.toLower = small at hword
    cases hword with
    | inf => exact ⟨_, rfl, rfl⟩
    | infinity => exact ⟨_, rfl, rfl⟩
    | quiet hds =>
      obtain ⟨n, hn⟩ := exists_payload?_iff.2 hds
      refine ⟨.nan negative false n, ?_, rfl⟩
      rw [if_neg (by simp), notANumber?, hn]
      rfl
    | signaling hds =>
      obtain ⟨n, hn⟩ := exists_payload?_iff.2 hds
      refine ⟨.nan negative true n, ?_, rfl⟩
      rw [if_neg (by simp), notANumber?, hn]
      rfl
  · rintro ⟨d, hd, hfinite⟩
    rw [read?, Option.bind_eq_bind, Option.bind_eq_some_iff] at hd
    obtain ⟨plain, hplain, hd⟩ := hd
    obtain ⟨sign, hsign, hparts⟩ := splitSign_cases plain
    refine ⟨sign, (splitSign plain).2, hplain.trans (congrArg some hparts), hsign, ?_⟩
    generalize splitSign plain = signed at hd ⊢
    obtain ⟨negative, body⟩ := signed
    dsimp only at hd ⊢
    split at hd
    · rename_i hword
      rw [Bool.or_eq_true, beq_iff_eq, beq_iff_eq] at hword
      rcases hword with hword | hword
      · rw [hword]
        exact .inf
      · rw [hword]
        exact .infinity
    · rcases Option.or_eq_some_iff.1 hd with hd | ⟨-, hd⟩
      · exact specialWord_of_notANumber? hd
      · obtain ⟨c, e, rfl, -⟩ := exists_finite_of_number? hd
        exact absurd hfinite (by simp [isFinite])

end Decimal

/-! ## The two readers -/

namespace Settings

/-- The decimal that a text is as a setting.  Settings are strings, so a text that holds a lone
surrogate is none. -/
def decimalOf? (t : Text) : Option Decimal :=
  t.toString?.bind fun s => (readDecimal (some s)).value

theorem decimalOf?_eq (t : Text) :
    decimalOf? t = (t.toChars?.bind Decimal.read?).filter Decimal.isFinite := by
  unfold decimalOf? Text.toString?
  cases t.toChars? with
  | none => rfl
  | some cs =>
    rw [Option.map_some, Option.bind_some, Option.bind_some, value_readDecimal_some,
      Decimal.ofString?, String.toList_ofList]

/-- **The two readers agree**: a field takes a text exactly if it is a decimal as a setting, and
then it takes this decimal. -/
theorem readDecimal_eq_ok_iff {t : Text} {d : Decimal} :
    Record.readDecimal (.text t) = .ok d ↔ decimalOf? t = some d := by
  rw [decimalOf?_eq, Option.filter_eq_some_iff, Record.readDecimal]
  cases t.toChars?.bind Decimal.read? with
  | none => simp
  | some d' =>
    show Record.finiteOnly d' = .ok d ↔ some d' = some d ∧ d.isFinite = true
    unfold Record.finiteOnly
    by_cases hfinite : d'.isFinite = true
    · rw [if_pos hfinite, Except.ok.injEq, Option.some.injEq]
      constructor
      · rintro rfl
        exact ⟨rfl, hfinite⟩
      · intro h
        exact h.1
    · rw [if_neg hfinite]
      constructor
      · intro h
        exact absurd h (by simp)
      · rintro ⟨heq, h⟩
        rw [Option.some.injEq] at heq
        exact absurd (heq ▸ h) hfinite

/-- A text that is blank, or spells an infinity or a not-a-number. -/
def NoNumber (t : Text) : Prop :=
  ∃ cs, t = Text.ofChars cs ∧ ((∀ c ∈ cs, isBlank c = true) ∨ Decimal.SpellsSpecial cs)

/-- No setting is such a text. -/
theorem decimalOf?_of_noNumber {t : Text} (h : NoNumber t) : decimalOf? t = none := by
  obtain ⟨cs, rfl, hblank | hspecial⟩ := h
  · have hnil : trim isBlank cs = [] := by
      have h := trim_surround hblank (fun c hc => absurd hc List.not_mem_nil) []
      rwa [List.nil_append, List.append_nil] at h
    rw [decimalOf?_eq, Text.toChars?_ofChars, Option.bind_some, ← Decimal.read?_trim, hnil]
    rfl
  · obtain ⟨d, hd, hfinite⟩ := Decimal.spellsSpecial_iff.1 hspecial
    rw [decimalOf?_eq, Text.toChars?_ofChars, Option.bind_some, hd, Option.filter_some, hfinite]
    rfl

/-- What is left of a text is a number: blanks around it, underscores in it, and digits of other
scripts aside. -/
def SpellsNumber (t : Text) (u : Json.NumberToken) : Prop :=
  ∃ cs, t = Text.ofChars cs ∧ Decimal.plainText? cs = some u.chars

/-- Such a text is the number, digit by digit. -/
theorem decimalOf?_of_spellsNumber {t : Text} {u : Json.NumberToken} (h : SpellsNumber t u) :
    decimalOf? t = if Decimal.inRange u.coefficient u.scale then
      some (.finite u.negative u.coefficient u.scale) else none := by
  obtain ⟨cs, rfl, hplain⟩ := h
  have hread : Decimal.read? cs = Decimal.read? u.chars :=
    Decimal.read?_congr (hplain.trans u.plainText?_chars.symm)
  rw [decimalOf?_eq, Text.toChars?_ofChars, Option.bind_some, hread, u.read?_chars]
  split <;> rfl

end Settings

/-! ## Documents -/

namespace Catalog

open Record (DecimalField)

/-- A record holds a text in a decimal field, and is otherwise valid: with `null` there, which is as
good as nothing, the document is a catalog. -/
def HoldsText (f : DecimalField) (t : Text) (r : Table Text Json) (V : Json) : Prop :=
  ∃ front k back V', r = front ++ (k, .text t) :: back ∧
    Record.Gives (front ++ back) f.spelling k ∧
    ReplacesRecord r (front ++ (k, .null) :: back) V V' ∧ IsCatalog V'

/-- The key under which the market of a record stands: in an array its symbol, if no later record
names the same symbol, and in an object the name of the member. -/
inductive StandsUnder (r : Table Text Json) : Json → Text → Prop
  | item (front : List Json) {back : List Json}
    (h : Record.symbolOf (.object r) ∉ back.map Record.symbolOf) :
    StandsUnder r (.array (front ++ .object r :: back)) (Record.symbolOf (.object r))
  | member {front : Table Text Json} (back : Table Text Json) {name : Text}
    (h : name ∉ Table.keys front) :
    StandsUnder r (.object (front ++ (name, .object r) :: back)) name

variable {f : DecimalField} {t : Text} {r : Table Text Json} {V : Json} {c : Catalog} {m : Market}

/-- What becomes of such a document depends on the record, and what the record reads on the text. -/
theorem HoldsText.spec (h : HoldsText f t r V) :
    ((∃ c, (ofJson V).outcome = .ok c) ↔ ∃ m, Record.readMembers r = .ok m) ∧
      ∃ m', ∀ m, Record.readMembers r = .ok m ↔
        ∃ d, Settings.decimalOf? t = some d ∧ m = f.set d m' := by
  obtain ⟨front, k, back, V', rfl, hk, hV, hcatalog⟩ := h
  obtain ⟨c', hc'⟩ := outcome_of_isCatalog hcatalog
  obtain ⟨m', hm'⟩ := exists_readMembers_of_ofJson hV.symm hc'
  have hreads : ∀ m, Record.readMembers (front ++ (k, .text t) :: back) = .ok m ↔
      ∃ d, Settings.decimalOf? t = some d ∧ m = f.set d m' := by
    intro m
    rw [DecimalField.readMembers_iff_set hm' (DecimalField.sameElsewhere_of_gives hk _ _)]
    simp only [DecimalField.decimalField_eq_ok_iff hk (show Json.text t ≠ .null by simp),
      Settings.readDecimal_eq_ok_iff]
  refine ⟨⟨?_, ?_⟩, m', hreads⟩
  · rintro ⟨c, hc⟩
    exact exists_readMembers_of_ofJson hV hc
  · rintro ⟨m, hm⟩
    obtain ⟨d, -, rfl⟩ := (hreads m).1 hm
    obtain ⟨c, hc, -⟩ := exists_ofJson_of_replacesRecord hV.symm hm' hm
      (DecimalField.symbol_set f d m').symm (DecimalField.set_set f .zero d m').symm hc'
    exact ⟨c, hc⟩

/-- A catalog of an object holds under each name what the member reads. -/
theorem get?_of_object {members : Table Text Json} (hc : (ofJson (.object members)).outcome = .ok c)
    (key : Text) : (Table.get? c key).map Except.ok = (Table.get? members key).map Record.read := by
  obtain ⟨hne, hvalid⟩ : IsCatalog (.object members) := exists_ofJson_iff.1 ⟨c, hc⟩
  obtain ⟨ms, hread⟩ := exists_readRecords_memberPlaces_iff.2 hvalid
  obtain rfl := Except.ok.inj (hc.symm.trans (outcome_ofMembers hne hread))
  have hvalues : members.map (fun e => Record.read e.2) = ms.map .ok := by
    have h := readRecords_eq_ok_iff.1 hread
    rwa [memberPlaces, List.map_map] at h
  have hentries : Table.mapValues (fun _ => Except.ok) ((Table.keys members).zip ms) =
      Table.mapValues (fun _ => Record.read) members := by
    calc Table.mapValues (fun _ => Except.ok) ((Table.keys members).zip ms)
        = (Table.keys members).zip (ms.map .ok) := List.zip_map_right.symm
      _ = Table.mapValues (fun _ => Record.read) members := by
          rw [← hvalues, Table.keys, List.zip_map']
          rfl
  rw [← Table.get?_mapValues (fun _ => Except.ok), hentries, Table.get?_mapValues]

/-- The market of a record is found under its key. -/
theorem StandsUnder.get? {key : Text} (h : StandsUnder r V key) (hc : (ofJson V).outcome = .ok c)
    (hm : Record.readMembers r = .ok m) : Table.get? c key = some m := by
  have hr : Record.read (.object r) = .ok m := hm
  cases h with
  | item front hlast =>
    have hcatalog := exists_ofJson_iff.1 ⟨c, hc⟩
    obtain ⟨c', hc', hof⟩ := exists_ofRecords hcatalog
    obtain rfl := Except.ok.inj (hc.symm.trans hc')
    obtain ⟨m', hm', hget⟩ := hof.exists_get? rfl hlast
    obtain rfl := Except.ok.inj (hr.symm.trans hm')
    exact hget
  | member back hfirst =>
    have hget := get?_of_object hc key
    rw [Table.get?_append_cons_self back _ hfirst, Option.map_some, hr,
      Option.map_eq_some_iff] at hget
    obtain ⟨m', hget, hm'⟩ := hget
    rw [hget, Except.ok.inj hm']

/-- **Records and settings share one grammar of decimals.**  Take a document one record of which
holds a text in a decimal field and that is otherwise a catalog.  It decodes exactly if the text is
a decimal as a setting, and then the record's market has this decimal in the field, with the same
sign, digits and exponent, and is found where the record stands.

In neither place does a blank text count, nor an infinity or a not-a-number, however it is spelled.
And in both places a number in the range of decimals counts digit by digit, with blanks around it,
underscores in it, digits of any script and an exponent. -/
theorem decode_decimalText (h : HoldsText f t r V) {document : Json.Document}
    (hread : document.read = .ok V) :
    ((∃ c, (decode document).outcome = .ok c) ↔ ∃ d, Settings.decimalOf? t = some d) ∧
    (∀ c, (decode document).outcome = .ok c → ∃ m, Record.readMembers r = .ok m ∧
      Settings.decimalOf? t = some (f.get m) ∧
      ∀ key, StandsUnder r V key → Table.get? c key = some m) ∧
    (Settings.NoNumber t → Settings.decimalOf? t = none) ∧
    (∀ u, Settings.SpellsNumber t u → Settings.decimalOf? t =
      if Decimal.inRange u.coefficient u.scale then
        some (.finite u.negative u.coefficient u.scale) else none) := by
  rw [decode_of_read hread]
  obtain ⟨hdecodes, m', hreads⟩ := h.spec
  refine ⟨?_, fun c hc => ?_, Settings.decimalOf?_of_noNumber,
    fun u => Settings.decimalOf?_of_spellsNumber⟩
  · rw [hdecodes]
    constructor
    · rintro ⟨m, hm⟩
      obtain ⟨d, hd, -⟩ := (hreads m).1 hm
      exact ⟨d, hd⟩
    · rintro ⟨d, hd⟩
      exact ⟨_, (hreads _).2 ⟨d, hd, rfl⟩⟩
  · obtain ⟨m, hm⟩ := hdecodes.1 ⟨c, hc⟩
    obtain ⟨d, hd, rfl⟩ := (hreads m).1 hm
    refine ⟨_, hm, ?_, fun key hkey => hkey.get? hc hm⟩
    rw [DecimalField.get_set, hd]

/-- A text with a separator and a wide blank at its ends, an underscore, and a digit of another
script: ten and a half thousandths. -/
def markedText : Text := Text.ofString "\x1c1_\u0660.5E-3\u3000"

/-- It is three digits and an exponent, as a setting and in a record. -/
theorem decode_decimalText_marked :
    ∃ c m, (decode (tickDocument "\"\\u001c1_\\u0660.5E-3\\u3000\"")).outcome = .ok c ∧
      Table.get? c (Text.ofString "X") = some m ∧ m.tickSize = .finite false 105 (-4) ∧
      Settings.decimalOf? markedText = some (.finite false 105 (-4)) := by
  let symbol := Text.ofString "symbol"
  let x := Text.ofString "X"
  let r := tickRecord (.text markedText)
  let u : Json.NumberToken :=
    { negative := false
      whole := ⟨['1', '0'], by decide, List.all_eq_true.1 rfl⟩
      fraction := some ⟨['5'], by decide, List.all_eq_true.1 rfl⟩
      exponent := some ⟨true, some true, ⟨['3'], by decide, List.all_eq_true.1 rfl⟩⟩
      zero_alone := fun ds h => absurd (List.cons.inj h).1 (by decide) }
  have hread : (tickDocument "\"\\u001c1_\\u0660.5E-3\\u3000\"").read =
      .ok (.array [.object r]) := rfl
  have hnull : IsCatalog (.array [.object (tickRecord .null)]) := exists_ofJson_iff.1 ⟨_, rfl⟩
  have hholds : HoldsText .tickSize markedText r (.array [.object r]) :=
    ⟨[(symbol, .text x)], Text.ofString "tickSize", [], _, rfl, ⟨by decide, Or.inl rfl⟩,
      .item [] [], hnull⟩
  obtain ⟨hdecodes, hmarket, -, hnumber⟩ := decode_decimalText hholds hread
  have hd : Settings.decimalOf? markedText = some (.finite false 105 (-4)) :=
    (hnumber u ⟨_, rfl, by decide⟩).trans (if_pos (by decide))
  obtain ⟨c, hc⟩ := hdecodes.2 ⟨_, hd⟩
  obtain ⟨m, -, htick, hkey⟩ := hmarket c hc
  exact ⟨c, m, hc, hkey _ (.item [] (by simp)), Option.some.inj (htick.symm.trans hd), hd⟩

end Catalog

end PaperVenue
