import PaperVenue.Proofs.Json.Written
import PaperVenue.Proofs.Market.Symbols

/-!
# The two shapes of a catalog agree

The same records can be written as an array, or as an object in which each stands under the symbol
it names.  If two records name one symbol, the last of them counts, but not in the same place: in
the object the reader drops the first before anything knows that it is a record, and in the array
both become markets and the second is written over the first.

Either way the catalog is the table of the records under their symbols, each record read
(`OfRecords`).  In the object the records are put into a table and then read; in the array they are
read and then put into a table; and `Table.mapValues_ofList` says that this is the same.  So the two
documents decode to one catalog, and `decode_twoShapes` says so, and what is in it.
-/

namespace PaperVenue

namespace Catalog

/-- The records of a catalog under the symbols they name. -/
def underSymbols (records : List Json) : List (Text × Json) :=
  records.map fun r => (Record.symbolOf r, r)

/-- A catalog holds records under their symbols if it is their table, with every record read. -/
def OfRecords (records : List Json) (catalog : Catalog) : Prop :=
  Table.mapValues (fun _ => Except.ok) catalog =
    Table.mapValues (fun _ => Record.read) (Table.ofList (underSymbols records))

theorem fst_underSymbols (records : List Json) :
    (underSymbols records).map Prod.fst = records.map Record.symbolOf := by
  rw [underSymbols, List.map_map]
  rfl

theorem zip_eq_underSymbols (records : List Json) :
    (records.map Record.symbolOf).zip records = underSymbols records := by
  rw [underSymbols, ← List.zip_map', List.map_id']

/-! ## What is in the catalog -/

namespace OfRecords

variable {records : List Json} {catalog : Catalog}

theorem keys_eq (h : OfRecords records catalog) :
    Table.keys catalog = Table.keys (Table.ofList (underSymbols records)) := by
  rw [← Table.keys_mapValues (fun _ => Except.ok) catalog, h, Table.keys_mapValues]

/-- The keys are the symbols. -/
theorem mem_keys_iff (h : OfRecords records catalog) {s : Text} :
    s ∈ Table.keys catalog ↔ s ∈ records.map Record.symbolOf := by
  rw [h.keys_eq, Table.mem_keys_ofList, fst_underSymbols]

theorem nodup_keys (h : OfRecords records catalog) : (Table.keys catalog).Nodup := by
  rw [h.keys_eq]
  exact Table.nodup_keys_ofList _

theorem ne_nil (h : OfRecords records catalog) (hne : records ≠ []) : catalog ≠ [] := by
  rintro rfl
  obtain ⟨r, hr⟩ := List.exists_mem_of_ne_nil records hne
  have hkey : Record.symbolOf r ∈ Table.keys ([] : Catalog) :=
    h.mem_keys_iff.2 (List.mem_map_of_mem hr)
  exact absurd hkey List.not_mem_nil

/-- **The last record with a symbol counts.** -/
theorem exists_get? (h : OfRecords records catalog) {before after : List Json} {r : Json}
    (hrecords : records = before ++ r :: after)
    (hlast : Record.symbolOf r ∉ after.map Record.symbolOf) :
    ∃ m, Record.read r = .ok m ∧ Table.get? catalog (Record.symbolOf r) = some m := by
  have hget : (Table.get? catalog (Record.symbolOf r)).map Except.ok = some (Record.read r) := by
    rw [← Table.get?_mapValues (fun _ => Except.ok), h, Table.get?_mapValues, hrecords,
      underSymbols, List.map_append, List.map_cons, Table.get?_ofList_of_last]
    · rfl
    · rw [List.map_map]
      exact hlast
  obtain ⟨m, hm, hread⟩ := Option.map_eq_some_iff.1 hget
  exact ⟨m, hread.symm, hm⟩

end OfRecords

/-! ## Decoding the two shapes -/

/-- An array of valid records that all name a symbol decodes to their catalog. -/
theorem exists_ofRecords {records : List Json}
    (h : ∀ r ∈ records, Record.Valid r ∧ Record.symbolOf r ≠ []) :
    ∃ catalog, (ofJson (.array records)).outcome = .ok catalog ∧ OfRecords records catalog := by
  obtain ⟨ms, hread⟩ := exists_readRecords_itemPlaces_iff.2 fun r hr => (h r hr).1
  refine ⟨_, outcome_ofItems hread (named_of_readItems hread fun r hr => (h r hr).2), ?_⟩
  have hmarkets : records.map Record.read = ms.map .ok := by
    rw [← readRecords_eq_ok_iff.1 hread, ← snd_itemPlaces records, List.map_map, snd_itemPlaces]
    rfl
  have hentries : (ms.map fun m => (m.symbol, (.ok m : Checked Record.FieldError Market))) =
      records.map fun r => (Record.symbolOf r, Record.read r) := by
    rw [← List.zip_map', ← List.zip_map', symbols_of_readItems hread, hmarkets]
  rw [OfRecords, Table.mapValues_ofList, Table.mapValues_ofList, Table.mapValues, Table.mapValues,
    underSymbols, List.map_map, List.map_map]
  exact congrArg Table.ofList hentries

/-- The object that holds the records under their symbols decodes to the same catalog. -/
theorem outcome_ofRecords {records : List Json} {catalog : Catalog} (hne : records ≠ [])
    (h : OfRecords records catalog) :
    (ofJson (.object (Table.ofList (underSymbols records)))).outcome = .ok catalog := by
  have hread : readRecords (memberPlaces (Table.ofList (underSymbols records))) =
      .ok (Table.values catalog) := by
    have hvalues := congrArg Table.values h
    simp only [Table.values, Table.mapValues, List.map_map] at hvalues
    rw [readRecords_eq_ok_iff, memberPlaces, List.map_map, Table.values, List.map_map]
    exact hvalues.symm
  have hmembers : Table.ofList (underSymbols records) ≠ [] := by
    intro hnil
    have hkeys := h.keys_eq
    rw [hnil] at hkeys
    exact h.ne_nil hne (List.map_eq_nil_iff.1 hkeys)
  rw [ofJson, outcome_ofMembers hmembers hread, ← h.keys_eq, Table.zip_keys_values]

/-- If an array and an object write the same items, the object under the symbols that the items
name, then what the array reads is what the object reads, under these symbols. -/
theorem read_underSymbols {array object : Json.Document} {ws : List Json.Written}
    {records : List Json} (harray : array.Writes (.array ws))
    (hread : array.read = .ok (.array records))
    (hobject : object.Writes (.object ((records.map Record.symbolOf).zip ws))) :
    object.read = .ok (.object (Table.ofList (underSymbols records))) := by
  obtain ⟨hdepth, vs, hitems, hvs⟩ :=
    Json.Written.valueAt_array_eq_ok_iff.1 ((Json.Document.read_eq_ok_iff harray).1 hread)
  obtain rfl := Json.array.inj hvs
  rw [Json.Document.read_eq_ok_iff hobject, Json.Written.valueAt_object_eq_ok_iff]
  refine ⟨hdepth, _, Json.Written.membersAt_zip hitems, ?_⟩
  rw [zip_eq_underSymbols]

/-- **The two shapes agree.**  Take an array of valid records that all name a symbol, and the object
in which the same records stand under their symbols, repeated symbols and all.  The two documents
decode to one catalog.  Its keys are the symbols, each once, and the market under a symbol is that
of the last record that names it.  Building from either document gives this catalog, normalized, and
in it every market stands under its symbol. -/
theorem decode_twoShapes {array object : Json.Document} {ws : List Json.Written}
    {records : List Json} (harray : array.Writes (.array ws))
    (hread : array.read = .ok (.array records)) (hne : records ≠ [])
    (hrecords : ∀ r ∈ records, Record.Valid r ∧ Record.symbolOf r ≠ [])
    (hobject : object.Writes (.object ((records.map Record.symbolOf).zip ws))) :
    ∃ catalog,
      (decode array).outcome = .ok catalog ∧ (decode object).outcome = .ok catalog ∧
      (∀ s, s ∈ Table.keys catalog ↔ s ∈ records.map Record.symbolOf) ∧
      (Table.keys catalog).Nodup ∧
      (∀ before r after, records = before ++ r :: after →
        Record.symbolOf r ∉ after.map Record.symbolOf →
        ∃ m, Record.read r = .ok m ∧ Table.get? catalog (Record.symbolOf r) = some m) ∧
      (∀ document, document = array ∨ document = object → ∀ settings files,
        source settings files = .ok (some document) →
        (build settings files).outcome = .ok (normalize catalog)) ∧
      ∀ e ∈ normalize catalog, e.1 = e.2.symbol := by
  obtain ⟨catalog, hcatalog, hof⟩ := exists_ofRecords hrecords
  have hdecode : ∀ document, document = array ∨ document = object →
      (decode document).outcome = .ok catalog := by
    rintro document (rfl | rfl)
    · rw [decode_of_read hread]
      exact hcatalog
    · rw [decode_of_read (read_underSymbols harray hread hobject)]
      exact outcome_ofRecords hne hof
  refine ⟨catalog, hdecode _ (.inl rfl), hdecode _ (.inr rfl), fun s => hof.mem_keys_iff,
    hof.nodup_keys, fun before r after => hof.exists_get?, ?_,
    (keyedBySymbol_of_array hcatalog).normalize.key_eq⟩
  intro document hdocument settings files hsource
  exact (build_eq_ok_iff hsource).2
    ⟨catalog, hdecode document hdocument, by rw [orExamples_of_ne_nil (hof.ne_nil hne)]⟩

/-- An array of three records, of which the last names the symbol of the first. -/
def threeRecords : String :=
  "[\x7b\"symbol\": \"A\"\x7d, \x7b\"symbol\": \"B\"\x7d, " ++
    "\x7b\"symbol\": \"A\", \"pricePrecision\": 4\x7d]"

/-- The object in which these records stand under their symbols; one name occurs twice. -/
def threeMembers : String :=
  "\x7b\"A\": \x7b\"symbol\": \"A\"\x7d, \"B\": \x7b\"symbol\": \"B\"\x7d, " ++
    "\"A\": \x7b\"symbol\": \"A\", \"pricePrecision\": 4\x7d\x7d"

/-- The market of the last record stands under the symbol that the first record names as well. -/
theorem decode_twoShapes_threeRecords :
    ∃ catalog,
      (decode (.inline (Text.ofString threeRecords))).outcome = .ok catalog ∧
      (decode (.inline (Text.ofString threeMembers))).outcome = .ok catalog ∧
      ∃ m, Table.get? catalog (Text.ofString "A") = some m ∧ m.pricePrecision = 4 := by
  let symbol := Text.ofString "symbol"
  let a := Text.ofString "A"
  let b := Text.ofString "B"
  let precision := Text.ofString "pricePrecision"
  have harray : Json.Document.Writes (.inline (Text.ofString threeRecords)) (.array
      [.object [(symbol, .text a)], .object [(symbol, .text b)],
        .object [(symbol, .text a), (precision, .scalar (.integer 4))]]) := ⟨_, rfl, rfl⟩
  have hobject : Json.Document.Writes (.inline (Text.ofString threeMembers)) (.object
      [(a, .object [(symbol, .text a)]), (b, .object [(symbol, .text b)]),
        (a, .object [(symbol, .text a), (precision, .scalar (.integer 4))])]) := ⟨_, rfl, rfl⟩
  have hread : Json.Document.read (.inline (Text.ofString threeRecords)) = .ok (.array
      [.object [(symbol, .text a)], .object [(symbol, .text b)],
        .object [(symbol, .text a), (precision, .integer 4)]]) := rfl
  have hrecords : ∀ r ∈ [Json.object [(symbol, .text a)], .object [(symbol, .text b)],
      .object [(symbol, .text a), (precision, .integer 4)]],
      Record.Valid r ∧ Record.symbolOf r ≠ [] := by
    simp only [List.forall_mem_cons]
    exact ⟨⟨Record.exists_read_iff.1 ⟨_, rfl⟩, by decide⟩,
      ⟨Record.exists_read_iff.1 ⟨_, rfl⟩, by decide⟩,
      ⟨Record.exists_read_iff.1 ⟨_, rfl⟩, by decide⟩, by simp⟩
  obtain ⟨catalog, hitems, hmembers, -, -, hlast, -⟩ :=
    decode_twoShapes harray hread (by simp) hrecords hobject
  obtain ⟨m, hm, hget⟩ := hlast [_, _] _ [] rfl (by simp)
  obtain rfl := Except.ok.inj hm
  exact ⟨catalog, hitems, hmembers, _, hget, rfl⟩

end Catalog

end PaperVenue
