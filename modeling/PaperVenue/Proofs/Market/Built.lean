import PaperVenue.Proofs.Market.Symbols
import PaperVenue.Proofs.Market.TwoSources
import Mathlib.Data.List.Forall2

/-!
# What is built

Building a catalog is loading, a fallback, and normalizing.  This module follows the markets through
all three and says what a built catalog holds.

* Normalizing goes through a catalog entry by entry.  `Stamped` says what becomes of one market: it
  belongs to the venue, it is called by its key if it had no symbol, and nothing else about it
  changes.  To do so twice is to do so once, `normalize_normalize`.
* The example markets stand in for an empty catalog.  `loaded_eq_nil_iff` says when that is: nothing
  is named by the settings, or what they name is an array without items.  An object is never empty,
  as one without members is refused.

`build_of_load` puts the two together.  Whether the examples stand in can be read off the notes, and
not off the catalog: a document may hold the two example markets too, and they are loaded from it
like any others.
-/

namespace PaperVenue

namespace Table

variable {κ α : Type} [DecidableEq κ]

/-- A table of entries is empty only if there are no entries. -/
theorem ofList_eq_nil_iff {es : List (κ × α)} : ofList es = [] ↔ es = [] := by
  constructor
  · intro h
    cases es with
    | nil => rfl
    | cons e es =>
      have hkey : e.1 ∈ keys (ofList (e :: es)) := mem_keys_ofList.2 List.mem_cons_self
      rw [h] at hkey
      exact absurd hkey List.not_mem_nil
  · rintro rfl
    rfl

end Table

namespace Catalog

/-! ## Normalizing -/

/-- What normalizing makes of a market under its key. -/
structure Stamped (key : Text) (m m' : Market) : Prop where
  venue_eq : m'.venue = some .polymarket
  symbol_eq : m'.symbol = if m.symbol = [] then key else m.symbol
  /-- Apart from these two the market is what it was. -/
  rest_eq : { m' with venue := m.venue, symbol := m.symbol } = m

/-- The second catalog has the markets of the first, stamped, each under its key and in its place. -/
def StampedFrom (loaded catalog : Catalog) : Prop :=
  List.Forall₂ (fun e e' => e.1 = e'.1 ∧ Stamped e.1 e.2 e'.2) loaded catalog

theorem stampedFrom_normalize (catalog : Catalog) : StampedFrom catalog (normalize catalog) := by
  rw [StampedFrom, normalize, Table.mapValues, List.forall₂_map_right_iff, List.forall₂_same]
  intro e _
  exact ⟨rfl, rfl, rfl, rfl⟩

namespace StampedFrom

variable {loaded catalog : Catalog}

theorem keys_eq (h : StampedFrom loaded catalog) : Table.keys catalog = Table.keys loaded := by
  induction h with
  | nil => rfl
  | cons he _ ih =>
    rw [Table.keys, List.map_cons, ← he.1]
    exact congrArg _ ih

theorem venue_eq (h : StampedFrom loaded catalog) : ∀ e ∈ catalog, e.2.venue = some .polymarket := by
  induction h with
  | nil => exact fun _ he => absurd he List.not_mem_nil
  | cons he _ ih => exact List.forall_mem_cons.2 ⟨he.2.venue_eq, ih⟩

end StampedFrom

/-- **To normalize twice is to normalize once.** -/
theorem normalize_normalize (catalog : Catalog) : normalize (normalize catalog) = normalize catalog := by
  refine Table.mapValues_eq_self fun e he => ?_
  obtain ⟨e', -, rfl⟩ := List.mem_map.1 he
  -- a symbol that is empty after the first time is the key, so it is filled in with itself
  by_cases hsymbol : e'.2.symbol = []
  · simp [hsymbol]
  · simp [hsymbol]

/-! ## Catalogs without markets -/

/-- The settings name no source of a catalog. -/
def Unconfigured (settings : Settings) : Prop :=
  ¬ settings.NamesFile ∧ ∀ document, ¬ settings.HoldsDocument document

/-- There are no markets to load: no source is named, or it holds an array without items. -/
def NothingToLoad (settings : Settings) (files : Files) : Prop :=
  Unconfigured settings ∨
    ∃ document, source settings files = .ok (some document) ∧ document.read = .ok (.array [])

/-- Nothing is found exactly if nothing is named. -/
theorem source_eq_none_iff {settings : Settings} {files : Files} :
    source settings files = .ok none ↔ Unconfigured settings := by
  constructor
  · intro h
    refine ⟨?_, fun document hdocument => ?_⟩
    · rintro ⟨name, hname, hne⟩
      rw [source, hname, filter_of_ne_empty hne] at h
      dsimp only at h
      split at h
      · exact absurd h (by simp)
      · split at h <;> exact absurd h (by simp)
    · exact absurd ((source_of_holdsDocument hdocument files).symm.trans h) (by simp)
  · rintro ⟨hfile, hdocument⟩
    have hnone : settings.marketsFile.filter (· ≠ "") = none := by
      rw [Option.filter_eq_none_iff]
      exact fun name hname hne => hfile ⟨name, hname, by simpa using hne⟩
    have hnone' : settings.marketsJson.filter (· ≠ "") = none := by
      rw [Option.filter_eq_none_iff]
      exact fun document hjson hne => hdocument document ⟨hfile, hjson, by simpa using hne⟩
    rw [source, hnone, hnone']
    rfl

/-- **An empty catalog is an array without items.** -/
theorem ofJson_eq_nil_iff {v : Json} {loaded : Catalog} (h : (ofJson v).outcome = .ok loaded) :
    loaded = [] ↔ v = .array [] := by
  have hcatalog : IsCatalog v := exists_ofJson_iff.1 ⟨loaded, h⟩
  cases v with
  | object members =>
    obtain ⟨hne, hvalid⟩ := hcatalog
    obtain ⟨ms, hread⟩ := exists_readRecords_memberPlaces_iff.2 hvalid
    obtain rfl := Except.ok.inj (h.symm.trans (outcome_ofMembers hne hread))
    have hlength : ms.length = members.length := by
      have hmap := congrArg List.length (readRecords_eq_ok_iff.1 hread)
      rw [List.length_map, List.length_map, memberPlaces, List.length_map] at hmap
      exact hmap.symm
    refine iff_of_false (fun hnil => hne ?_) (by simp)
    have hzip := congrArg List.length hnil
    rw [List.length_zip, Table.keys, List.length_map, hlength, Nat.min_self] at hzip
    exact List.length_eq_zero_iff.1 hzip
  | array items =>
    obtain ⟨ms, hread⟩ := exists_readRecords_itemPlaces_iff.2 fun v hv => (hcatalog v hv).1
    have hnamed := named_of_readItems hread fun v hv => (hcatalog v hv).2
    obtain rfl := Except.ok.inj (h.symm.trans (outcome_ofItems hread hnamed))
    have hsymbols := congrArg List.length (symbols_of_readItems hread)
    rw [List.length_map, List.length_map] at hsymbols
    rw [Table.ofList_eq_nil_iff, List.map_eq_nil_iff, Json.array.injEq, ← List.length_eq_zero_iff,
      ← List.length_eq_zero_iff (l := items), hsymbols]
  | _ => exact absurd hcatalog id

/-- **When nothing is loaded.** -/
theorem loaded_eq_nil_iff {settings : Settings} {files : Files} {loaded : Catalog}
    (h : (load settings files).outcome = .ok loaded) :
    loaded = [] ↔ NothingToLoad settings files := by
  rw [outcome_load] at h
  obtain ⟨_ | document, hsource, hdecode⟩ := bind_eq_ok_iff.1 h
  · obtain rfl := Except.ok.inj hdecode
    exact iff_of_true rfl (Or.inl (source_eq_none_iff.1 hsource))
  · have hnamed : ¬ Unconfigured settings := by
      intro hnone
      exact absurd (hsource.symm.trans (source_eq_none_iff.2 hnone)) (by simp)
    rw [NothingToLoad, or_iff_right hnamed]
    rw [decoded, mapError_eq_ok_iff] at hdecode
    cases hread : document.read with
    | error r => exact absurd (hdecode.symm.trans (decode_of_malformed hread)) (by simp)
    | ok v =>
      rw [decode_of_read hread] at hdecode
      rw [ofJson_eq_nil_iff hdecode]
      constructor
      · rintro rfl
        exact ⟨document, hsource, hread⟩
      · rintro ⟨document', hsource', hread'⟩
        obtain rfl := Option.some.inj (Except.ok.inj (hsource.symm.trans hsource'))
        exact Except.ok.inj (hread.symm.trans hread')

/-! ## The note of the examples -/

/-- The notes say that the examples stand in for a catalog. -/
def NotesExamples (notes : List Note) : Prop :=
  ∃ n ∈ notes,
    n.message = Text.ofString "No market catalog configured, using built-in example markets"

/-- Decoding that succeeds has nothing to note. -/
theorem notes_decode_of_ok {document : Json.Document} {catalog : Catalog}
    (h : (decode document).outcome = .ok catalog) : (decode document).notes = [] := by
  cases hread : document.read with
  | error r => exact absurd (h.symm.trans (decode_of_malformed hread)) (by simp)
  | ok v =>
    rw [decode_of_read hread] at h ⊢
    have hcatalog : IsCatalog v := exists_ofJson_iff.1 ⟨catalog, h⟩
    cases v with
    | object members =>
      obtain ⟨hne, hvalid⟩ := hcatalog
      obtain ⟨ms, hms⟩ := exists_readRecords_memberPlaces_iff.2 hvalid
      rw [ofJson, ofMembers, hms]
      dsimp only
      rw [if_neg (by simpa using hne)]
      rfl
    | array items =>
      obtain ⟨ms, hms⟩ := exists_readRecords_itemPlaces_iff.2 fun v hv => (hcatalog v hv).1
      rw [ofJson, ofItems, hms]
      rfl
    | _ => exact absurd hcatalog id

/-- The note of where a document is loaded from. -/
def placeNote (place : String) : Note where
  severity := .info
  part := .catalog
  message := Text.ofString ("Loading market catalog from " ++ place)

/-- Loading notes at most where the document is loaded from. -/
theorem notes_load_of_ok {settings : Settings} {files : Files} {loaded : Catalog}
    (h : (load settings files).outcome = .ok loaded) :
    (load settings files).notes = [] ∨ ∃ place, (load settings files).notes = [placeNote place] := by
  have hfrom : ∀ (place : String) (document : Json.Document),
      (decode document).outcome.mapError Failure.venue = .ok loaded →
      ∃ place', placeNote place :: (decode document).notes = [placeNote place'] := by
    intro place document hdecode
    rw [notes_decode_of_ok (mapError_eq_ok_iff.1 hdecode)]
    exact ⟨place, rfl⟩
  rw [load] at h ⊢
  cases hfile : settings.marketsFile.filter (· ≠ "") with
  | some name =>
    rw [hfile] at h
    dsimp only at h ⊢
    by_cases hnul : name.toList.contains '\x00'
    · rw [if_pos hnul] at h
      exact absurd h (by simp)
    · rw [if_neg hnul] at h ⊢
      cases hread : files.read (Path.ofString name).text with
      | error fault =>
        rw [hread] at h
        exact absurd h (by simp)
      | ok octets =>
        rw [hread] at h
        exact Or.inr (hfrom _ _ h)
  | none =>
    rw [hfile] at h
    dsimp only at h ⊢
    cases hjson : settings.marketsJson.filter (· ≠ "") with
    | some document =>
      rw [hjson] at h
      exact Or.inr (hfrom _ _ h)
    | none => exact Or.inl rfl

/-- So it never notes that the examples stand in. -/
theorem not_notesExamples_load {settings : Settings} {files : Files} {loaded : Catalog}
    (h : (load settings files).outcome = .ok loaded) :
    ¬ NotesExamples (load settings files).notes := by
  rintro ⟨n, hn, hmessage⟩
  rcases notes_load_of_ok h with hnotes | ⟨place, hnotes⟩
  · rw [hnotes] at hn
    exact absurd hn List.not_mem_nil
  · rw [hnotes, List.mem_singleton] at hn
    subst hn
    have hfirst := congrArg List.head? hmessage
    rw [placeNote, Text.ofString, String.toList_append] at hfirst
    exact absurd hfirst (by simp [Text.ofString, Text.ofChars])

/-- **The note is there exactly if nothing was loaded.** -/
theorem notesExamples_build_iff {settings : Settings} {files : Files} {loaded : Catalog}
    (h : (load settings files).outcome = .ok loaded) :
    NotesExamples (build settings files).notes ↔ loaded = [] := by
  rw [build, Traced.notes_bind, h]
  dsimp only
  constructor
  · rintro ⟨n, hn, hmessage⟩
    by_contra hne
    rw [if_neg (by simpa using hne), Traced.notes_pure, List.append_nil] at hn
    exact not_notesExamples_load h ⟨n, hn, hmessage⟩
  · rintro rfl
    exact ⟨_, List.mem_append_right _ List.mem_cons_self, rfl⟩

/-! ## The built catalog -/

/-- **What is built.**  Wherever loading succeeds a catalog is built; it has markets, and all of them
belong to the venue.  The examples stand in for it, normalized, exactly if no source is named or the
one that counts holds an array without items, and the notes say so then and only then.  Otherwise
the catalog is that of the document that was found, entry by entry: the same keys, and under each of
them the market that was decoded, except that it belongs to the venue and is called by its key if it
had no symbol of its own.  And a catalog that was normalized is not changed by normalizing.

That the examples stand in is told by the note, and not by the catalog: a document that spells the
two example markets out leads to the same catalog by value, without the note. -/
theorem build_of_load {settings : Settings} {files : Files} {loaded : Catalog}
    (h : (load settings files).outcome = .ok loaded) :
    (∃ catalog, (build settings files).outcome = .ok catalog ∧
      catalog ≠ [] ∧ (∀ e ∈ catalog, e.2.venue = some .polymarket) ∧
      (NotesExamples (build settings files).notes ↔ NothingToLoad settings files) ∧
      (NothingToLoad settings files → catalog = normalize examples) ∧
      (¬ NothingToLoad settings files →
        ∃ document, source settings files = .ok (some document) ∧
          (decode document).outcome = .ok loaded ∧
          Table.keys catalog = Table.keys loaded ∧ StampedFrom loaded catalog)) ∧
    ∀ catalog, normalize (normalize catalog) = normalize catalog := by
  have hbuild : (build settings files).outcome = .ok (normalize (orExamples loaded)) := by
    rw [outcome_build, h]
    rfl
  have hstamped := stampedFrom_normalize (orExamples loaded)
  have hne : normalize (orExamples loaded) ≠ [] := by
    intro hnil
    have hkeys := keys_normalize (orExamples loaded)
    rw [hnil, orExamples] at hkeys
    split at hkeys
    · exact absurd hkeys (by decide)
    · rename_i hloaded
      exact hloaded (by simpa [Table.keys] using hkeys)
  refine ⟨⟨_, hbuild, hne, hstamped.venue_eq, ?_, fun hnothing => ?_, fun hsome => ?_⟩,
    normalize_normalize⟩
  · rw [notesExamples_build_iff h, loaded_eq_nil_iff h]
  · obtain rfl := (loaded_eq_nil_iff h).2 hnothing
    rfl
  · have hloaded : loaded ≠ [] := fun hnil => hsome ((loaded_eq_nil_iff h).1 hnil)
    rw [orExamples_of_ne_nil hloaded] at hstamped ⊢
    rw [outcome_load] at h
    obtain ⟨_ | document, hsource, hdecode⟩ := bind_eq_ok_iff.1 h
    · exact absurd (Or.inl (source_eq_none_iff.1 hsource)) hsome
    · exact ⟨document, hsource, mapError_eq_ok_iff.1 hdecode, hstamped.keys_eq, hstamped⟩

/-- An object of two members, of which the first names no symbol. -/
def halfNamedObject : String :=
  "\x7b\"K\": \x7b\"tickSize\": \"0.50\"\x7d, \"L\": \x7b\"symbol\": \"S\"\x7d\x7d"

/-- The first market of that object is called by its key, and the second by the symbol it names. -/
theorem build_of_load_halfNamedObject :
    ∃ catalog, (build { marketsJson := some halfNamedObject } []).outcome = .ok catalog ∧
      symbols catalog = [Text.ofString "K", Text.ofString "S"] ∧
      ¬ NotesExamples (build { marketsJson := some halfNamedObject } []).notes := by
  let unnamed : Market := { symbol := [], tickSize := .finite false 50 (-2) }
  let named : Market := { symbol := Text.ofString "S" }
  have hload : (load { marketsJson := some halfNamedObject } []).outcome =
      .ok [(Text.ofString "K", unnamed), (Text.ofString "L", named)] := rfl
  have hsome : ¬ NothingToLoad { marketsJson := some halfNamedObject } [] := by
    rw [← loaded_eq_nil_iff hload]
    exact List.cons_ne_nil _ _
  obtain ⟨⟨catalog, hbuild, -, -, hnoted, -, hloaded⟩, -⟩ := build_of_load hload
  obtain ⟨document, -, -, -, hstamped⟩ := hloaded hsome
  refine ⟨catalog, hbuild, ?_, fun h => hsome (hnoted.1 h)⟩
  obtain _ | ⟨⟨-, hfirst⟩, _ | ⟨⟨-, hsecond⟩, ⟨⟩⟩⟩ := hstamped
  rw [symbols, Table.values, List.map_cons, List.map_cons, List.map_cons, List.map_cons,
    hfirst.symbol_eq, hsecond.symbol_eq]
  rfl

end Catalog

end PaperVenue
