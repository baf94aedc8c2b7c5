import PaperVenue.Market.Document
import PaperVenue.Proofs.Market.ValidRecord

/-!
# What becomes of a document

A document that is JSON falls into one of three classes, and the class says how decoding ends.

* `Catalog.IsCatalog`: an object with members or an array, of valid records that name a symbol where
  they have to.  Decoding gives a catalog.
* `Catalog.FailsValidation`: an object or an array with a value in it that is no valid record.
  Decoding fails on a record.
* `Catalog.LacksMarkets`: neither an object nor an array, or an object without members, or an array
  of valid records one of which has no symbol.  Decoding fails, and on nothing else than itself.

The three lemmas `outcome_of_isCatalog`, `outcome_of_failsValidation` and `outcome_of_lacksMarkets`
say so, and `shape_cases` says that there is no fourth class.  That no document is in two classes
needs no proof of its own, because the three endings differ.

`decode_outcome_iff` puts a document that is no JSON in front of the three and is the whole
classification.
-/

namespace PaperVenue

namespace Catalog

/-! ## The three classes -/

/-- A valid member of an object: its name is valid by the rule of fields that hold a text, and its
value is a valid record. -/
def ValidMember (e : Text × Json) : Prop := Record.Kind.text.Accepts (.text e.1) ∧ Record.Valid e.2

/-- The rule of texts refuses no name, not even one that holds a lone surrogate. -/
theorem validMember_iff {e : Text × Json} : ValidMember e ↔ Record.Valid e.2 :=
  and_iff_right ⟨e.1, rfl⟩

/-- A value of one of the two shapes of a catalog. -/
def IsCatalog : Json → Prop
  | .object members => members ≠ [] ∧ ∀ e ∈ members, ValidMember e
  | .array items => ∀ v ∈ items, Record.Valid v ∧ Record.symbolOf v ≠ []
  | _ => False

/-- An object or an array with something in it that is not valid. -/
def FailsValidation : Json → Prop
  | .object members => ∃ e ∈ members, ¬ ValidMember e
  | .array items => ∃ v ∈ items, ¬ Record.Valid v
  | _ => False

/-- An object without members, an array of valid records one of which has no symbol, or neither an
object nor an array. -/
def LacksMarkets : Json → Prop
  | .object members => members = []
  | .array items => (∀ v ∈ items, Record.Valid v) ∧ ∃ v ∈ items, Record.symbolOf v = []
  | _ => True

/-- Every value is in one of the three classes. -/
theorem shape_cases (v : Json) : IsCatalog v ∨ FailsValidation v ∨ LacksMarkets v := by
  cases v with
  | object members =>
    by_cases hvalid : ∀ e ∈ members, ValidMember e
    · by_cases hnil : members = []
      · exact Or.inr (Or.inr hnil)
      · exact Or.inl ⟨hnil, hvalid⟩
    · exact Or.inr (Or.inl (by simpa [FailsValidation] using hvalid))
  | array items =>
    by_cases hvalid : ∀ v ∈ items, Record.Valid v
    · by_cases hsymbol : ∃ v ∈ items, Record.symbolOf v = []
      · exact Or.inr (Or.inr ⟨hvalid, hsymbol⟩)
      · exact Or.inl fun v hv => ⟨hvalid v hv, fun h => hsymbol ⟨v, hv, h⟩⟩
    · exact Or.inr (Or.inl (by simpa [FailsValidation] using hvalid))
  | _ => exact Or.inr (Or.inr trivial)

/-! ## Reading the records -/

theorem readAt_eq_ok_iff {e : Text × Json} {m : Market} :
    readAt e = .ok m ↔ Record.read e.2 = .ok m := by
  rw [readAt, mapError_eq_ok_iff]

/-- Records are read in order, each on its own. -/
theorem readRecords_eq_ok_iff {places : List (Text × Json)} {ms : List Market} :
    readRecords places = .ok ms ↔ (places.map fun e => Record.read e.2) = ms.map .ok := by
  induction places generalizing ms with
  | nil => cases ms <;> simp [readRecords]
  | cons e places ih =>
    rw [readRecords, Checked.ap_eq_ok_iff, List.map_cons]
    constructor
    · rintro ⟨g, ms', hg, hms, rfl⟩
      cases hm : readAt e with
      | error es => rw [hm] at hg; exact absurd hg (by simp [Except.map])
      | ok m =>
        rw [hm] at hg
        obtain rfl := Except.ok.inj hg
        rw [List.map_cons, readAt_eq_ok_iff.1 hm, ih.1 hms]
    · intro h
      cases ms with
      | nil => exact absurd h (List.cons_ne_nil _ _)
      | cons m ms =>
        obtain ⟨hm, hms⟩ := List.cons.inj h
        refine ⟨_, _, ?_, ih.2 hms, rfl⟩
        rw [readAt_eq_ok_iff.2 hm]
        rfl

/-- All records can be read exactly if all of them are valid. -/
theorem exists_readRecords_iff {places : List (Text × Json)} :
    (∃ ms, readRecords places = .ok ms) ↔ ∀ v ∈ places.map Prod.snd, Record.Valid v := by
  induction places with
  | nil => simp [readRecords]
  | cons e places ih =>
    have hhead : (∃ g, (readAt e).map List.cons = .ok g) ↔ Record.Valid e.2 := by
      rw [← Record.exists_read_iff]
      simp only [← readAt_eq_ok_iff]
      cases readAt e <;> simp [Except.map]
    rw [readRecords, Checked.exists_ap_iff, hhead, ih, List.map_cons, List.forall_mem_cons]

/-- The markets that were read have the symbols that the records name. -/
theorem symbols_of_readRecords {places : List (Text × Json)} {ms : List Market}
    (h : readRecords places = .ok ms) :
    ms.map Market.symbol = (places.map Prod.snd).map Record.symbolOf := by
  induction places generalizing ms with
  | nil => obtain rfl := Except.ok.inj h; rfl
  | cons e places ih =>
    have hmap := readRecords_eq_ok_iff.1 h
    cases ms with
    | nil => exact absurd hmap (List.cons_ne_nil _ _)
    | cons m ms =>
      obtain ⟨hm, hms⟩ := List.cons.inj hmap
      rw [List.map_cons, List.map_cons, List.map_cons, ih (readRecords_eq_ok_iff.2 hms),
        Record.symbol_of_read hm]

theorem snd_memberPlaces (members : Table Text Json) :
    (memberPlaces members).map Prod.snd = members.map Prod.snd := by
  rw [memberPlaces, List.map_map]
  rfl

theorem snd_itemPlaces (items : List Json) : (itemPlaces items).map Prod.snd = items := by
  rw [itemPlaces, List.map_map]
  exact List.zipIdx_map_fst 0 items

/-- The members of an object can be read exactly if all of them are valid. -/
theorem exists_readRecords_memberPlaces_iff {members : Table Text Json} :
    (∃ ms, readRecords (memberPlaces members) = .ok ms) ↔ ∀ e ∈ members, ValidMember e := by
  rw [exists_readRecords_iff, snd_memberPlaces, List.forall_mem_map]
  exact forall₂_congr fun e _ => validMember_iff.symm

/-- The items of an array can be read exactly if all of them are valid. -/
theorem exists_readRecords_itemPlaces_iff {items : List Json} :
    (∃ ms, readRecords (itemPlaces items) = .ok ms) ↔ ∀ v ∈ items, Record.Valid v := by
  rw [exists_readRecords_iff, snd_itemPlaces]

theorem symbols_of_readItems {items : List Json} {ms : List Market}
    (h : readRecords (itemPlaces items) = .ok ms) :
    ms.map Market.symbol = items.map Record.symbolOf := by
  rw [symbols_of_readRecords h, snd_itemPlaces]

/-! ## The symbols of an array -/

/-- Markets that all have a symbol are written under their symbols. -/
theorem foldlM_addNamed (catalog : Catalog) {ms : List (Market × Nat)}
    (h : ∀ m ∈ ms, m.1.symbol ≠ []) :
    ms.foldlM addNamed catalog =
      .ok (Table.putAll catalog (ms.map fun m => (m.1.symbol, m.1))) := by
  induction ms generalizing catalog with
  | nil => rfl
  | cons m ms ih =>
    have hadd : addNamed catalog m = .ok (Table.put catalog m.1.symbol m.1) := by
      rw [addNamed, if_neg (by simpa using h m List.mem_cons_self)]
    rw [List.foldlM_cons, hadd]
    exact ih _ fun m' hm' => h m' (List.mem_cons_of_mem _ hm')

/-- A market without a symbol stops the making of a catalog. -/
theorem foldlM_addNamed_of_nameless (catalog : Catalog) {ms : List (Market × Nat)}
    (h : ∃ m ∈ ms, m.1.symbol = []) : ∃ k, ms.foldlM addNamed catalog = .error (.nameless k) := by
  induction ms generalizing catalog with
  | nil => exact absurd h (by simp)
  | cons m ms ih =>
    rw [List.foldlM_cons, addNamed]
    by_cases hm : m.1.symbol = []
    · exact ⟨m.2, by rw [hm]; rfl⟩
    · rw [if_neg (by simpa using hm)]
      refine ih _ ?_
      obtain ⟨m', hmem, hm'⟩ := h
      rcases List.mem_cons.1 hmem with rfl | hmem
      · exact absurd hm' hm
      · exact ⟨m', hmem, hm'⟩

/-! ## How decoding ends -/

theorem outcome_refuse {α : Type} (shape : String) (es : Errors RecordError) :
    (refuse shape es : Traced VenueError α).outcome =
      .error (.refusedRecord es.first.record es.first.error) := rfl

theorem outcome_of_failsValidation {v : Json} (h : FailsValidation v) :
    ∃ record error, (ofJson v).outcome = .error (.refusedRecord record error) := by
  cases v with
  | object members =>
    cases hread : readRecords (memberPlaces members) with
    | error es => exact ⟨_, _, by rw [ofJson, ofMembers, hread]; exact outcome_refuse _ es⟩
    | ok ms =>
      obtain ⟨e, he, hinvalid⟩ := h
      exact absurd (exists_readRecords_memberPlaces_iff.1 ⟨ms, hread⟩ e he) hinvalid
  | array items =>
    cases hread : readRecords (itemPlaces items) with
    | error es => exact ⟨_, _, by rw [ofJson, ofItems, hread]; exact outcome_refuse _ es⟩
    | ok ms =>
      obtain ⟨v, hv, hinvalid⟩ := h
      exact absurd (exists_readRecords_itemPlaces_iff.1 ⟨ms, hread⟩ v hv) hinvalid
  | _ => exact absurd h id

/-- **The catalog of an object**: the markets under the names of the members. -/
theorem outcome_ofMembers {members : Table Text Json} {ms : List Market} (hnil : members ≠ [])
    (hread : readRecords (memberPlaces members) = .ok ms) :
    (ofMembers members).outcome = .ok ((Table.keys members).zip ms) := by
  rw [ofMembers, hread]
  dsimp only
  rw [if_neg (by simpa using hnil)]
  rfl

/-- **The catalog of an array**: the markets under their symbols, of which the last one with a
symbol counts. -/
theorem outcome_ofItems {items : List Json} {ms : List Market}
    (hread : readRecords (itemPlaces items) = .ok ms) (hnamed : ∀ m ∈ ms, m.symbol ≠ []) :
    (ofItems items).outcome = .ok (Table.ofList (ms.map fun m => (m.symbol, m))) := by
  have hmarkets : (ms.zipIdx.map fun m => (m.1.symbol, m.1)) = ms.map fun m => (m.symbol, m) := by
    rw [show (fun m : Market × Nat => (m.1.symbol, m.1)) = (fun m => (m.symbol, m)) ∘ Prod.fst
      from rfl, ← List.map_map, List.zipIdx_map_fst]
  rw [ofItems, hread]
  refine (foldlM_addNamed [] fun m hm => hnamed m.1 (List.fst_mem_of_mem_zipIdx hm)).trans ?_
  rw [hmarkets, Table.ofList]

/-- The records of an array that all name a symbol are markets with a symbol. -/
theorem named_of_readItems {items : List Json} {ms : List Market}
    (hread : readRecords (itemPlaces items) = .ok ms)
    (hnamed : ∀ v ∈ items, Record.symbolOf v ≠ []) : ∀ m ∈ ms, m.symbol ≠ [] := by
  intro m hm hsymbol
  have hmem : m.symbol ∈ ms.map Market.symbol := List.mem_map_of_mem hm
  rw [symbols_of_readItems hread, hsymbol] at hmem
  obtain ⟨v, hv, hnone⟩ := List.mem_map.1 hmem
  exact hnamed v hv hnone

theorem outcome_of_isCatalog {v : Json} (h : IsCatalog v) :
    ∃ c, (ofJson v).outcome = .ok c := by
  cases v with
  | object members =>
    obtain ⟨hnil, hvalid⟩ := h
    obtain ⟨ms, hread⟩ := exists_readRecords_memberPlaces_iff.2 hvalid
    exact ⟨_, outcome_ofMembers hnil hread⟩
  | array items =>
    obtain ⟨ms, hread⟩ := exists_readRecords_itemPlaces_iff.2 fun v hv => (h v hv).1
    exact ⟨_, outcome_ofItems hread (named_of_readItems hread fun v hv => (h v hv).2)⟩
  | _ => exact absurd h id

theorem outcome_of_lacksMarkets {v : Json} (h : LacksMarkets v) :
    ∃ e, (ofJson v).outcome = .error e ∧ (e = .shapeless ∨ ∃ k, e = .nameless k) := by
  cases v with
  | object members =>
    obtain rfl : members = [] := h
    exact ⟨_, rfl, Or.inl rfl⟩
  | array items =>
    obtain ⟨hvalid, v, hv, hnone⟩ := h
    obtain ⟨ms, hread⟩ := exists_readRecords_itemPlaces_iff.2 hvalid
    have hmem : [] ∈ ms.map Market.symbol := by
      rw [symbols_of_readItems hread, ← hnone]
      exact List.mem_map_of_mem hv
    obtain ⟨m, hm, hsymbol⟩ := List.mem_map.1 hmem
    obtain ⟨k, hk⟩ : ∃ k, (m, k) ∈ ms.zipIdx := by
      rw [← List.zipIdx_map_fst 0 ms] at hm
      obtain ⟨⟨_, k⟩, hmk, rfl⟩ := List.mem_map.1 hm
      exact ⟨k, hmk⟩
    obtain ⟨j, hj⟩ := foldlM_addNamed_of_nameless [] ⟨(m, k), hk, hsymbol⟩
    refine ⟨.nameless j, ?_, Or.inr ⟨j, rfl⟩⟩
    rw [ofJson, ofItems, hread]
    exact hj
  | _ => exact ⟨_, rfl, Or.inl rfl⟩

/-! ## Documents -/

theorem decode_of_malformed {document : Json.Document} {r : Json.ReadError}
    (h : document.read = .error r) : (decode document).outcome = .error (.malformed r) := by
  rw [decode, h]
  rfl

theorem decode_of_read {document : Json.Document} {v : Json} (h : document.read = .ok v) :
    decode document = ofJson v := by
  rw [decode, h]

/-- Decoding gives a catalog exactly on the values of the two shapes. -/
theorem exists_ofJson_iff {v : Json} : (∃ c, (ofJson v).outcome = .ok c) ↔ IsCatalog v := by
  refine ⟨?_, outcome_of_isCatalog⟩
  rintro ⟨c, hc⟩
  rcases shape_cases v with h | h | h
  · exact h
  · obtain ⟨record, error, he⟩ := outcome_of_failsValidation h
    exact absurd (hc.symm.trans he) (by simp)
  · obtain ⟨e, he, -⟩ := outcome_of_lacksMarkets h
    exact absurd (hc.symm.trans he) (by simp)

/-- An error of decoding a value is raised from the refusal of a record exactly if the value fails
validation, and otherwise it is raised from nothing. -/
theorem cause_ofJson {v : Json} {e : VenueError} (h : (ofJson v).outcome = .error e) :
    ((∃ record error, e = .refusedRecord record error) ∧ FailsValidation v ∧ ¬ LacksMarkets v) ∨
      ((e = .shapeless ∨ ∃ k, e = .nameless k) ∧ LacksMarkets v ∧ ¬ FailsValidation v) := by
  have hlacks : LacksMarkets v → e = .shapeless ∨ ∃ k, e = .nameless k := by
    intro hv
    obtain ⟨e', he', hcase⟩ := outcome_of_lacksMarkets hv
    obtain rfl := Except.error.inj (h.symm.trans he')
    exact hcase
  have hfails : FailsValidation v → ∃ record error, e = .refusedRecord record error := by
    intro hv
    obtain ⟨record, error, he⟩ := outcome_of_failsValidation hv
    exact ⟨record, error, Except.error.inj (h.symm.trans he)⟩
  have hapart : ¬ (FailsValidation v ∧ LacksMarkets v) := by
    rintro ⟨hf, hl⟩
    obtain ⟨record, error, rfl⟩ := hfails hf
    simpa using hlacks hl
  rcases shape_cases v with hv | hv | hv
  · obtain ⟨c, hc⟩ := outcome_of_isCatalog hv
    exact absurd (hc.symm.trans h) (by simp)
  · exact Or.inl ⟨hfails hv, hv, fun hl => hapart ⟨hv, hl⟩⟩
  · exact Or.inr ⟨hlacks hv, hv, fun hf => hapart ⟨hf, hv⟩⟩

/-- **What becomes of a document.**  Decoding gives a catalog exactly if the document is JSON of one
of the two shapes.  Otherwise it fails with an error of catalog documents, and the error that this
one is raised from tells the class of the document: the reader's error, if the document is no JSON;
the refusal of a record, if something in it is not valid; and none, if it lacks markets. -/
theorem decode_outcome_iff (document : Json.Document) :
    ((∃ c, (decode document).outcome = .ok c) ↔ ∃ v, document.read = .ok v ∧ IsCatalog v) ∧
    ∀ e, (decode document).outcome = .error e →
      e.kind = .catalogDocument ∧ e.operation = "decode_markets_json" ∧
      (∀ r, e.cause? = some (.reader r) ↔ document.read = .error r) ∧
      ((∃ record error, e.cause? = some (.validation record error)) ↔
        ∃ v, document.read = .ok v ∧ FailsValidation v) ∧
      (e.cause? = none ↔ ∃ v, document.read = .ok v ∧ LacksMarkets v) := by
  cases hread : document.read with
  | error r =>
    rw [decode_of_malformed hread]
    refine ⟨by simp, fun e he => ?_⟩
    obtain rfl := Except.error.inj he
    refine ⟨rfl, rfl, fun r' => ?_, ?_, ?_⟩
    · rw [VenueError.cause?, Option.some.injEq, Cause.reader.injEq, Except.error.injEq]
    · simp [VenueError.cause?]
    · simp [VenueError.cause?]
  | ok v =>
    rw [decode_of_read hread]
    refine ⟨by simpa using exists_ofJson_iff, fun e he => ?_⟩
    -- in each of the three endings the cause is known, and with it the two classes it is not
    rcases cause_ofJson he with
      ⟨⟨record, error, rfl⟩, hfails, hlacks⟩ | ⟨rfl | ⟨k, rfl⟩, hlacks, hfails⟩ <;>
      exact ⟨rfl, rfl, by simp [VenueError.cause?], by simpa [VenueError.cause?] using hfails,
        by simpa [VenueError.cause?] using hlacks⟩

/-- An array of two records, the second of which names no symbol. -/
def halfNamed : Json.Document := .inline (Text.ofString "[\x7b\"symbol\": \"A\"\x7d, \x7b\x7d]")

/-- That array is refused, and the error is raised from nothing: it lacks markets. -/
theorem decode_outcome_halfNamed :
    (decode halfNamed).outcome = .error (.nameless 1) ∧
      ∃ v, halfNamed.read = .ok v ∧ LacksMarkets v := by
  have houtcome : (decode halfNamed).outcome = .error (.nameless 1) := rfl
  obtain ⟨-, -, -, -, hcause⟩ := (decode_outcome_iff halfNamed).2 _ houtcome
  exact ⟨houtcome, hcause.1 rfl⟩

end Catalog

end PaperVenue
