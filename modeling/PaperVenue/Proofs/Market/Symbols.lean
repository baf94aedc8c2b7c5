import PaperVenue.Proofs.Market.Shape
import PaperVenue.Proofs.Market.Source

/-!
# The symbols of a catalog

The symbols of a catalog's markets should tell the markets apart: none is empty and no two are the
same (`Catalog.Identifying`).  Keys always do the second and records can be made to do the first, so
the question is whether symbols and keys are the same thing.

They are in a catalog that comes from an array or from the examples (`Catalog.KeyedBySymbol`), and
normalizing keeps it so.  They are not in a catalog that comes from an object.  There the names of
the members are the keys, and the symbol of a market is the one that its record names, or the
name of the member if the record names none: `memberSymbol`.  Nothing looks at these symbols side by
side.

`build_symbols_iff` says exactly when the symbols of a built catalog are identifying, and
`not_forall_build_symbols` that they need not be.
-/

namespace PaperVenue

namespace Catalog

/-- The symbols of the markets of a catalog, in its order. -/
def symbols (catalog : Catalog) : List Text := (Table.values catalog).map Market.symbol

/-- Symbols that tell markets apart: none is empty, and no two are the same. -/
def Identifying (symbols : List Text) : Prop := [] ∉ symbols ∧ symbols.Nodup

instance (symbols : List Text) : Decidable (Identifying symbols) :=
  inferInstanceAs (Decidable (_ ∧ _))

/-! ## Catalogs keyed by symbol -/

/-- A catalog in which the symbols are the keys: every market stands under its symbol, each symbol
once, and none is empty. -/
structure KeyedBySymbol (catalog : Catalog) : Prop where
  key_eq : ∀ e ∈ catalog, e.1 = e.2.symbol
  nodup : (Table.keys catalog).Nodup
  named : [] ∉ Table.keys catalog

namespace KeyedBySymbol

variable {catalog : Catalog}

theorem symbols_eq (h : KeyedBySymbol catalog) : symbols catalog = Table.keys catalog := by
  rw [symbols, Table.values, Table.keys, List.map_map]
  exact List.map_congr_left fun e he => (h.key_eq e he).symm

theorem identifying (h : KeyedBySymbol catalog) : Identifying (symbols catalog) := by
  rw [h.symbols_eq]
  exact ⟨h.named, h.nodup⟩

/-- Markets that all have a symbol, written under their symbols. -/
theorem ofList {ms : List Market} (h : ∀ m ∈ ms, m.symbol ≠ []) :
    KeyedBySymbol (Table.ofList (ms.map fun m => (m.symbol, m))) where
  key_eq e he := by
    obtain ⟨m, -, rfl⟩ := List.mem_map.1 (Table.mem_of_mem_ofList he)
    rfl
  nodup := Table.nodup_keys_ofList _
  named hnil := by
    rw [Table.mem_keys_ofList, List.map_map] at hnil
    obtain ⟨m, hm, hsymbol⟩ := List.mem_map.1 hnil
    exact h m hm hsymbol

theorem examples : KeyedBySymbol Catalog.examples where
  key_eq := by decide
  nodup := by decide
  named := by decide

theorem orExamples (h : KeyedBySymbol catalog) : KeyedBySymbol (Catalog.orExamples catalog) := by
  rw [Catalog.orExamples]
  split
  · exact examples
  · exact h

/-- Normalizing leaves the symbols of such a catalog as they are. -/
theorem normalize (h : KeyedBySymbol catalog) : KeyedBySymbol (Catalog.normalize catalog) where
  key_eq e he := by
    obtain ⟨e', he', rfl⟩ := List.mem_map.1 he
    have hkey := h.key_eq e' he'
    show e'.1 = if e'.2.symbol = [] then e'.1 else e'.2.symbol
    split
    · rfl
    · exact hkey
  nodup := by
    rw [keys_normalize]
    exact h.nodup
  named := by
    rw [keys_normalize]
    exact h.named

end KeyedBySymbol

/-- An array decodes to a catalog keyed by symbol. -/
theorem keyedBySymbol_of_array {items : List Json} {catalog : Catalog}
    (h : (ofJson (.array items)).outcome = .ok catalog) : KeyedBySymbol catalog := by
  have hitems : IsCatalog (.array items) := exists_ofJson_iff.1 ⟨catalog, h⟩
  obtain ⟨ms, hread⟩ := exists_readRecords_itemPlaces_iff.2 fun v hv => (hitems v hv).1
  have hnamed := named_of_readItems hread fun v hv => (hitems v hv).2
  obtain rfl := Except.ok.inj (h.symm.trans (outcome_ofItems hread hnamed))
  exact .ofList hnamed

/-! ## Catalogs of objects -/

/-- The symbol of a member's market: the one that its record names, or else the member's name. -/
def memberSymbol (e : Text × Json) : Text :=
  if Record.symbolOf e.2 = [] then e.1 else Record.symbolOf e.2

theorem symbols_normalize (catalog : Catalog) :
    symbols (normalize catalog) =
      catalog.map fun e => if e.2.symbol = [] then e.1 else e.2.symbol := by
  rw [symbols, Table.values, normalize, Table.mapValues, List.map_map, List.map_map]
  rfl

/-- The symbols of an object's markets, once the catalog is normalized. -/
theorem symbols_of_readMembers {members : Table Text Json} {ms : List Market}
    (h : readRecords (memberPlaces members) = .ok ms) :
    symbols (normalize ((Table.keys members).zip ms)) = members.map memberSymbol := by
  have hsymbols : ms.map Market.symbol = members.map fun e => Record.symbolOf e.2 := by
    rw [symbols_of_readRecords h, snd_memberPlaces, List.map_map]
    rfl
  calc symbols (normalize ((Table.keys members).zip ms))
      = ((Table.keys members).zip (ms.map Market.symbol)).map
          (fun e => if e.2 = [] then e.1 else e.2) := by
        rw [symbols_normalize, List.zip_map_right, List.map_map]
        rfl
    _ = members.map memberSymbol := by
        rw [hsymbols, Table.keys, List.zip_map', List.map_map]
        rfl

/-- The symbols of a catalog that is built from an object. -/
theorem symbols_of_object {members : Table Text Json} {catalog : Catalog}
    (h : (ofJson (.object members)).outcome = .ok catalog) :
    symbols (normalize (orExamples catalog)) = members.map memberSymbol := by
  obtain ⟨hnil, hvalid⟩ : IsCatalog (.object members) := exists_ofJson_iff.1 ⟨catalog, h⟩
  obtain ⟨ms, hread⟩ := exists_readRecords_memberPlaces_iff.2 hvalid
  obtain rfl := Except.ok.inj (h.symm.trans (outcome_ofMembers hnil hread))
  have hsymbols := symbols_of_readMembers hread
  have hne : (Table.keys members).zip ms ≠ [] := by
    intro hzip
    rw [hzip] at hsymbols
    exact hnil (List.map_eq_nil_iff.1 hsymbols.symm)
  rw [orExamples_of_ne_nil hne, hsymbols]

/-! ## Built catalogs -/

/-- **When the symbols of a catalog tell its markets apart.**  They do in every catalog that is
built, unless it is built from an object two members of which come to the same symbol or one of
which comes to none. -/
theorem build_symbols_iff {settings : Settings} {files : Files} {catalog : Catalog}
    (h : (build settings files).outcome = .ok catalog) :
    Identifying (symbols catalog) ↔
      ∀ document, source settings files = .ok (some document) →
        ∀ members, document.read = .ok (.object members) →
          Identifying (members.map memberSymbol) := by
  obtain ⟨_ | document, hsource⟩ := exists_source h
  · obtain rfl := Except.ok.inj (h.symm.trans (outcome_build_of_none hsource))
    exact iff_of_true KeyedBySymbol.examples.normalize.identifying (by simp [hsource])
  obtain ⟨c, hdecode, rfl⟩ := (build_eq_ok_iff hsource).1 h
  cases hread : document.read with
  | error r => exact absurd (hdecode.symm.trans (decode_of_malformed hread)) (by simp)
  | ok v =>
    rw [decode_of_read hread] at hdecode
    cases v with
    | object members =>
      rw [symbols_of_object hdecode]
      simp [hsource, hread]
    | array items =>
      exact iff_of_true (keyedBySymbol_of_array hdecode).orExamples.normalize.identifying
        (by simp [hsource, hread])
    | _ => exact absurd (exists_ofJson_iff.1 ⟨c, hdecode⟩) id

/-- An object of one member, whose name is empty and whose record names no symbol. -/
def namelessMember : String := "\x7b\"\": \x7b\x7d\x7d"

/-- A catalog is built from that object, and the symbol of its market is empty. -/
theorem build_symbols_namelessMember :
    ∃ catalog, (build { marketsJson := some namelessMember } []).outcome = .ok catalog ∧
      symbols catalog = [[]] ∧ ¬ Identifying (symbols catalog) := by
  obtain ⟨catalog, hbuild, hsymbols⟩ :
      ∃ catalog, (build { marketsJson := some namelessMember } []).outcome = .ok catalog ∧
        symbols catalog = [[]] := ⟨_, rfl, rfl⟩
  refine ⟨catalog, hbuild, hsymbols, fun h => ?_⟩
  have hmembers : Identifying ([(([] : Text), Json.object [])].map memberSymbol) :=
    (build_symbols_iff hbuild).1 h (.inline (Text.ofString namelessMember)) rfl _ rfl
  exact absurd hmembers (by decide)

/-- An object of two members whose records name the same symbol. -/
def sharedSymbol : String :=
  "\x7b\"A\": \x7b\"symbol\": \"X\"\x7d, \"B\": \x7b\"symbol\": \"X\"\x7d\x7d"

/-- The symbols of a catalog that is built need not tell its markets apart. -/
theorem not_forall_build_symbols :
    ¬ ∀ settings files catalog, (build settings files).outcome = .ok catalog →
      Identifying (symbols catalog) := by
  intro h
  have hshared := h { marketsJson := some sharedSymbol } [] _ rfl
  exact absurd hshared (by decide)

end Catalog

end PaperVenue
