import PaperVenue.Market.Loading
import PaperVenue.Proofs.Outcome

/-!
# Where a catalog comes from

Loading a catalog does three things in one go: it looks for a document, decodes it, and keeps notes
of both.  Here they are taken apart.  `Catalog.source` is the search alone; it finds a document, or
that there is none, or it fails because a file cannot be read.  Then

* `outcome_load`: what is loaded is what the document decodes to, or nothing;
* `outcome_build`: what is built is that, with the examples in place of an empty catalog,
  normalized.

So a statement about built catalogs is a statement about documents, and the settings and files
matter to it only through `source`.
-/

namespace PaperVenue

namespace Catalog

/-- The document that the settings name: the contents of the catalog file if they name one, or else
the document they hold. -/
def source (settings : Settings) (files : Files) : Except Failure (Option Json.Document) :=
  match settings.marketsFile.filter (· ≠ "") with
  | some name =>
    if name.toList.contains '\x00' then .error (.value .embeddedNul)
    else match files.read (Path.ofString name).text with
      | .error fault => .error (.venue (.unreadable (Path.ofString name) fault))
      | .ok octets => .ok (some (.octets octets))
  | none => .ok ((settings.marketsJson.filter (· ≠ "")).map fun document =>
      .inline (Text.ofString document))

/-- What a document that was found decodes to, and nothing if none was found. -/
def decoded : Option Json.Document → Except Failure Catalog
  | some document => (decode document).outcome.mapError .venue
  | none => .ok []

/-- **Loading is searching and decoding.** -/
theorem outcome_load (settings : Settings) (files : Files) :
    (load settings files).outcome = source settings files >>= decoded := by
  rw [load, source]
  cases settings.marketsFile.filter (· ≠ "") with
  | some name =>
    dsimp only
    by_cases hnul : name.toList.contains '\x00'
    · rw [if_pos hnul, if_pos hnul]
      rfl
    · rw [if_neg hnul, if_neg hnul]
      cases files.read (Path.ofString name).text <;> rfl
  | none => cases settings.marketsJson.filter (· ≠ "") <;> rfl

/-- A catalog, or the examples if there are no markets in it. -/
def orExamples (catalog : Catalog) : Catalog := if catalog.isEmpty then examples else catalog

/-- **Building is loading**, with the examples in place of an empty catalog, and normalizing. -/
theorem outcome_build (settings : Settings) (files : Files) :
    (build settings files).outcome =
      (load settings files).outcome.map fun catalog => normalize (orExamples catalog) := by
  rw [build, Traced.outcome_bind]
  cases (load settings files).outcome with
  | error e => rfl
  | ok catalog =>
    simp only [Except.map, orExamples]
    split <;> rfl

theorem orExamples_of_ne_nil {catalog : Catalog} (h : catalog ≠ []) :
    orExamples catalog = catalog := if_neg (by simpa using h)

/-- **What is built from a document** is what it decodes to, normalized. -/
theorem build_eq_ok_iff {settings : Settings} {files : Files} {document : Json.Document}
    {catalog : Catalog} (h : source settings files = .ok (some document)) :
    (build settings files).outcome = .ok catalog ↔
      ∃ c, (decode document).outcome = .ok c ∧ normalize (orExamples c) = catalog := by
  rw [outcome_build, outcome_load, h, map_eq_ok_iff]
  exact exists_congr fun c => and_congr_left fun _ => mapError_eq_ok_iff

/-- What is built from nothing is the examples. -/
theorem outcome_build_of_none {settings : Settings} {files : Files}
    (h : source settings files = .ok none) :
    (build settings files).outcome = .ok (normalize examples) := by
  rw [outcome_build, outcome_load, h]
  rfl

/-- A catalog is built only after the search for its document ended well. -/
theorem exists_source {settings : Settings} {files : Files} {catalog : Catalog}
    (h : (build settings files).outcome = .ok catalog) :
    ∃ document?, source settings files = .ok document? := by
  rw [outcome_build, outcome_load, map_eq_ok_iff] at h
  obtain ⟨c, hload, -⟩ := h
  obtain ⟨document?, hsource, -⟩ := bind_eq_ok_iff.1 hload
  exact ⟨document?, hsource⟩

theorem keys_normalize (catalog : Catalog) :
    Table.keys (normalize catalog) = Table.keys catalog := Table.keys_mapValues _ _

end Catalog

end PaperVenue
