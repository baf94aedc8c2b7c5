import PaperVenue.Proofs.Encoding.RoundTrip
import PaperVenue.Proofs.Market.Shape
import PaperVenue.Proofs.Market.Source

/-!
# A catalog in a file and the same catalog in the settings

A catalog document can be given as a file, which holds octets, or in the settings, which hold text.
`load_twoSources` says that this makes no difference: if the file holds the text in UTF-8, both
sources give one catalog or one error.  What has to be excluded are texts whose first octets look
like another encoding, and a mark at the front, which is dropped from octets and refused in text.

It also says which of the two counts if the settings name both.
-/

namespace PaperVenue

/-- The settings name a catalog file. -/
def Settings.NamesFile (settings : Settings) : Prop :=
  ∃ name, settings.marketsFile = some name ∧ name ≠ ""

/-- The catalog file that the settings name can be read, and holds these octets. -/
def Settings.FileHolds (settings : Settings) (files : Files) (octets : List UInt8) : Prop :=
  ∃ name, settings.marketsFile = some name ∧ name ≠ "" ∧ '\x00' ∉ name.toList ∧
    files.read (Path.ofString name).text = .ok octets

/-- The settings name no catalog file, and hold this document. -/
def Settings.HoldsDocument (settings : Settings) (document : String) : Prop :=
  ¬ settings.NamesFile ∧ settings.marketsJson = some document ∧ document ≠ ""

namespace Catalog

/-! ## Which source counts -/

theorem filter_of_ne_empty {s : String} (h : s ≠ "") : (some s).filter (· ≠ "") = some s := by
  simp [h]

/-- The file counts if one is named, and the document beside it is not looked at. -/
theorem load_of_namesFile {settings : Settings} (h : settings.NamesFile)
    (document : Option String) (files : Files) :
    load { settings with marketsJson := document } files = load settings files := by
  obtain ⟨name, hname, hne⟩ := h
  rw [load, load, hname, filter_of_ne_empty hne]

theorem source_of_fileHolds {settings : Settings} {files : Files} {octets : List UInt8}
    (h : settings.FileHolds files octets) :
    source settings files = .ok (some (.octets octets)) := by
  obtain ⟨name, hname, hne, hnul, hread⟩ := h
  rw [source, hname, filter_of_ne_empty hne]
  dsimp only
  rw [if_neg (by simpa using hnul), hread]

theorem source_of_holdsDocument {settings : Settings} {document : String}
    (h : settings.HoldsDocument document) (files : Files) :
    source settings files = .ok (some (.inline (Text.ofString document))) := by
  obtain ⟨hfile, hjson, hne⟩ := h
  have hnone : settings.marketsFile.filter (· ≠ "") = none := by
    rw [Option.filter_eq_none_iff]
    exact fun name hname hne => hfile ⟨name, hname, by simpa using hne⟩
  rw [source, hnone, hjson, filter_of_ne_empty hne]
  rfl

/-! ## One document in two forms -/

/-- Text that begins with no mark is read the same as text and as the octets it is written in. -/
theorem read_octetsOf {s : String} (hmark : s.toList.head? ≠ some '\uFEFF')
    (hnul : '\x00' ∉ s.toList.take 2) :
    Json.Document.read (.octets (octetsOf s)) = Json.Document.read (.inline (Text.ofString s)) := by
  have hmark' : (Text.ofString s).head? ≠ some (.scalar '\uFEFF') := by
    simpa [Text.ofString, Text.ofChars] using hmark
  have hnul' : .scalar '\x00' ∉ (Text.ofString s).take 2 := by
    rw [Text.ofString, Text.ofChars, ← List.map_take, List.mem_map]
    rintro ⟨c, hc, heq⟩
    exact hnul (CodePoint.scalar.inj heq ▸ hc)
  have hinline : Json.startsWithMark (Text.ofString s) = false := decide_eq_false hmark'
  have htext : Json.Document.read (.inline (Text.ofString s)) = Json.read (Text.ofString s) := by
    rw [Json.Document.read, hinline]
    rfl
  rw [htext, octetsOf, Json.Document.read, decodeDocument_encode hmark' hnul']
  rfl

theorem decode_octetsOf {s : String} (hmark : s.toList.head? ≠ some '\uFEFF')
    (hnul : '\x00' ∉ s.toList.take 2) :
    decode (.octets (octetsOf s)) = decode (.inline (Text.ofString s)) := by
  rw [decode, decode, read_octetsOf hmark hnul]

/-- Decoding fails on the document only. -/
theorem kind_of_decode {document : Json.Document} {e : VenueError}
    (h : (decode document).outcome = .error e) : e.kind = .catalogDocument := by
  cases hread : document.read with
  | error r =>
    rw [decode_of_malformed hread] at h
    obtain rfl := Except.error.inj h
    rfl
  | ok v =>
    rw [decode_of_read hread] at h
    rcases cause_ofJson h with ⟨⟨record, error, rfl⟩, -⟩ | ⟨rfl | ⟨k, rfl⟩, -⟩ <;> rfl

/-- **The two sources agree.**  Take a text that begins with no byte order mark and has no NUL among
its first two characters.  A catalog file that holds it in UTF-8, and settings that hold it without
a file, load one catalog or fail with one error, and then it is an error of catalog documents.  And
where the settings name a file, a document beside it has no influence on what is loaded or noted,
whatever becomes of the file. -/
theorem load_twoSources {s : String} (hmark : s.toList.head? ≠ some '\uFEFF')
    (hnul : '\x00' ∉ s.toList.take 2) {fromFile fromText : Settings} {files files' : Files}
    (hfile : fromFile.FileHolds files (octetsOf s)) (htext : fromText.HoldsDocument s) :
    (∃ outcome : Except VenueError Catalog,
      (load fromFile files).outcome = outcome.mapError .venue ∧
      (load fromText files').outcome = outcome.mapError .venue ∧
      ∀ e, outcome = .error e → e.kind = .catalogDocument) ∧
    ∀ settings : Settings, settings.NamesFile → ∀ document files'',
      load { settings with marketsJson := document } files'' = load settings files'' := by
  refine ⟨⟨(decode (.inline (Text.ofString s))).outcome, ?_, ?_, fun e => kind_of_decode⟩,
    fun settings hnames document files'' => load_of_namesFile hnames document files''⟩
  · have hdecode := decode_octetsOf hmark hnul
    rw [outcome_load, source_of_fileHolds hfile, ← hdecode]
    rfl
  · rw [outcome_load, source_of_holdsDocument htext]
    rfl

/-- A document that breaks off behind a character of two octets and a line feed. -/
def cutShort : String := "[\"é\",\n"

/-- The file that holds it in UTF-8. -/
def cutShortFiles : Files := Files.store [] "m.json" (.file (octetsOf cutShort))

/-- Both sources tell the same place, counted in characters and lines and not in octets. -/
theorem load_twoSources_cutShort :
    Settings.FileHolds { marketsFile := some "m.json" } cutShortFiles (octetsOf cutShort) ∧
    Settings.HoldsDocument { marketsJson := some cutShort } cutShort ∧
    ∀ settings : Settings,
      settings = { marketsFile := some "m.json" } ∨ settings = { marketsJson := some cutShort } →
      (load settings cutShortFiles).outcome =
        .error (.venue (.malformed (.malformed .expectingValue ⟨2, 1, 6⟩))) := by
  have hfile : Settings.FileHolds { marketsFile := some "m.json" } cutShortFiles
      (octetsOf cutShort) := ⟨"m.json", rfl, by decide, by decide, by rfl⟩
  have htext : Settings.HoldsDocument { marketsJson := some cutShort } cutShort :=
    ⟨(fun ⟨_, h, _⟩ => nomatch h), rfl, by decide⟩
  have hbroken : (load { marketsJson := some cutShort } cutShortFiles).outcome =
      .error (.venue (.malformed (.malformed .expectingValue ⟨2, 1, 6⟩))) := by rfl
  obtain ⟨⟨outcome, hof, hot, -⟩, -⟩ :=
    load_twoSources (s := cutShort) (by decide) (by decide) hfile htext
  refine ⟨hfile, htext, ?_⟩
  rintro settings (rfl | rfl)
  · rw [hof, ← hot, hbroken]
  · exact hbroken

end Catalog

end PaperVenue
