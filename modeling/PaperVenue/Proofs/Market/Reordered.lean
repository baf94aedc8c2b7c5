import Mathlib.Data.List.Forall2
import Mathlib.Data.List.Nodup
import Mathlib.Data.List.Perm.Basic
import PaperVenue.Proofs.Json.Readable
import PaperVenue.Proofs.Market.TwoShapes

/-!
# The order of a document

The markets of a catalog stand in the order of the document they come from.  If the items of an
array or the members of an object are written in another order, then the same markets come in
another order, and nothing else is different: `decode_of_reordered`.

That is so only if no key comes twice (`Json.Written.KeysDistinct`).  Of two items with one symbol,
and of two members with one name, the last one counts, so the order tells which market is kept.
For an object these are the names as they are written, since the value that is read no longer shows
that a name was repeated.

Either shape gives records under keys (`keyed`), and with distinct keys the catalog is these
records, each read in its place.
-/

namespace PaperVenue

/-! ## Written in another order -/

namespace Json

namespace Written

theorem itemsAt_eq_ok_iff {depth : Nat} {ws : List Written} {vs : List Json} :
    itemsAt depth ws = .ok vs ↔ List.Forall₂ (fun w v => w.valueAt depth = .ok v) ws vs := by
  induction ws generalizing vs with
  | nil => simp [itemsAt, eq_comm]
  | cons w ws ih =>
    rw [itemsAt, bind_eq_ok_iff, List.forall₂_cons_left_iff]
    refine exists_congr fun v => ?_
    simp only [bind_eq_ok_iff, ih]
    constructor
    · rintro ⟨hv, vs, hvs, h⟩
      exact ⟨vs, hv, hvs, (Except.ok.inj h).symm⟩
    · rintro ⟨vs, hv, hvs, rfl⟩
      exact ⟨hv, vs, hvs, rfl⟩

theorem membersAt_eq_ok_iff {depth : Nat} {ws : List (Text × Written)} {es : List (Text × Json)} :
    membersAt depth ws = .ok es ↔
      List.Forall₂ (fun w e => w.1 = e.1 ∧ w.2.valueAt depth = .ok e.2) ws es := by
  induction ws generalizing es with
  | nil => simp [membersAt, eq_comm]
  | cons w ws ih =>
    obtain ⟨name, w⟩ := w
    rw [membersAt, bind_eq_ok_iff, List.forall₂_cons_left_iff]
    simp only [bind_eq_ok_iff, ih]
    constructor
    · rintro ⟨v, hv, es, hes, h⟩
      exact ⟨(name, v), es, ⟨rfl, hv⟩, hes, (Except.ok.inj h).symm⟩
    · rintro ⟨⟨_, v⟩, es, ⟨rfl, hv⟩, hes, rfl⟩
      exact ⟨v, hv, es, hes, rfl⟩

/-- Members keep their names. -/
theorem names_of_membersAt {depth : Nat} {ws : List (Text × Written)} {es : List (Text × Json)}
    (h : membersAt depth ws = .ok es) : es.map Prod.fst = ws.map Prod.fst := by
  have hnames : List.Forall₂ (· = ·) (ws.map Prod.fst) (es.map Prod.fst) :=
    List.forall₂_map_left_iff.2 <| List.forall₂_map_right_iff.2 <|
      (membersAt_eq_ok_iff.1 h).imp fun _ _ hw => hw.1
  rw [List.forall₂_eq_eq_eq] at hnames
  exact hnames.symm

/-- Two trees with the same items, or the same members, in an order of their own. -/
inductive Reordered : Written → Written → Prop
  | items {ws ws'} (h : ws.Perm ws') : Reordered (.array ws) (.array ws')
  | members {ws ws'} (h : ws.Perm ws') : Reordered (.object ws) (.object ws')

theorem Reordered.symm {w w' : Written} (h : Reordered w w') : Reordered w' w := by
  cases h with
  | items h => exact .items h.symm
  | members h => exact .members h.symm

/-- No key comes twice: not among the names of an object, as they are written, and not among the
symbols that the items of an array name, if they are the records of a catalog. -/
def KeysDistinct : Written → Prop
  | .object ws => (ws.map Prod.fst).Nodup
  | .array ws => ∀ items, itemsAt 1 ws = .ok items → Catalog.IsCatalog (.array items) →
      (items.map Record.symbolOf).Nodup
  | _ => True

/-- The items are read in the other order. -/
theorem exists_itemsAt_of_perm {depth : Nat} {ws ws' : List Written} {items : List Json}
    (h : ws.Perm ws') (hitems : itemsAt depth ws = .ok items) :
    ∃ items', itemsAt depth ws' = .ok items' ∧ items'.Perm items := by
  obtain ⟨items', hread, hperm⟩ := List.perm_comp_forall₂ h.symm (itemsAt_eq_ok_iff.1 hitems)
  exact ⟨items', itemsAt_eq_ok_iff.2 hread, hperm⟩

/-- The members are read in the other order. -/
theorem exists_membersAt_of_perm {depth : Nat} {ws ws' : List (Text × Written)}
    {es : List (Text × Json)} (h : ws.Perm ws') (hes : membersAt depth ws = .ok es) :
    ∃ es', membersAt depth ws' = .ok es' ∧ es'.Perm es := by
  obtain ⟨es', hread, hperm⟩ := List.perm_comp_forall₂ h.symm (membersAt_eq_ok_iff.1 hes)
  exact ⟨es', membersAt_eq_ok_iff.2 hread, hperm⟩

end Written

end Json

namespace Catalog

theorem isCatalog_array_of_perm {items items' : List Json} (h : items'.Perm items)
    (hitems : IsCatalog (.array items)) : IsCatalog (.array items') :=
  fun v hv => hitems v (h.subset hv)

theorem isCatalog_object_of_perm {members members' : Table Text Json} (h : members'.Perm members)
    (hmembers : IsCatalog (.object members)) : IsCatalog (.object members') := by
  refine ⟨?_, fun e he => hmembers.2 e (h.subset he)⟩
  rintro rfl
  exact hmembers.1 h.nil_eq.symm

end Catalog

theorem Json.Written.KeysDistinct.reordered {w w' : Json.Written} (h : w.KeysDistinct)
    (hreordered : w.Reordered w') : w'.KeysDistinct := by
  cases hreordered with
  | items hperm =>
    intro items' hitems' hcatalog
    obtain ⟨items, hitems, hperm'⟩ := exists_itemsAt_of_perm hperm.symm hitems'
    have hnodup := h items hitems (Catalog.isCatalog_array_of_perm hperm' hcatalog)
    exact (hperm'.map Record.symbolOf).nodup_iff.1 hnodup
  | members hperm => exact (hperm.map Prod.fst).nodup_iff.1 h

/-! ## Records under keys -/

namespace Catalog

/-- The records of a value, each under the key that it gives to its market. -/
def keyed : Json → List (Text × Json)
  | .object members => members
  | .array items => underSymbols items
  | _ => []

/-- The catalog of an object is its members, with every record read. -/
theorem mapValues_of_object {members : Table Text Json} {catalog : Catalog}
    (h : (ofJson (.object members)).outcome = .ok catalog) :
    Table.mapValues (fun _ => Except.ok) catalog =
      Table.mapValues (fun _ => Record.read) members := by
  obtain ⟨hne, hvalid⟩ : IsCatalog (.object members) := exists_ofJson_iff.1 ⟨catalog, h⟩
  obtain ⟨ms, hread⟩ := exists_readRecords_memberPlaces_iff.2 hvalid
  obtain rfl := Except.ok.inj (h.symm.trans (outcome_ofMembers hne hread))
  rw [readRecords_eq_ok_iff, memberPlaces, List.map_map] at hread
  calc Table.mapValues (fun _ => Except.ok) ((Table.keys members).zip ms)
      = (Table.keys members).zip (ms.map .ok) := (List.zip_map_right ..).symm
    _ = (Table.keys members).zip (members.map fun e => Record.read e.2) := by
        rw [← hread]
        rfl
    _ = Table.mapValues (fun _ => Record.read) members := List.zip_map' ..

/-- **With distinct keys the catalog is the records**, each read in its place. -/
theorem mapValues_of_keyed {v : Json} {catalog : Catalog}
    (h : (ofJson v).outcome = .ok catalog) (hdistinct : ((keyed v).map Prod.fst).Nodup) :
    Table.mapValues (fun _ => Except.ok) catalog =
      Table.mapValues (fun _ => Record.read) (keyed v) := by
  have hv : IsCatalog v := exists_ofJson_iff.1 ⟨catalog, h⟩
  cases v with
  | object members => exact mapValues_of_object h
  | array items =>
    obtain ⟨catalog', hcatalog, hrecords⟩ := exists_ofRecords hv
    obtain rfl := Except.ok.inj (h.symm.trans hcatalog)
    rw [keyed] at hdistinct ⊢
    rw [OfRecords, Table.ofList_of_nodup hdistinct] at hrecords
    exact hrecords
  | _ => exact absurd hv id

/-- The same records under the same keys give the same markets. -/
theorem perm_of_keyed {v v' : Json} {catalog catalog' : Catalog}
    (h : (ofJson v).outcome = .ok catalog) (h' : (ofJson v').outcome = .ok catalog')
    (hdistinct : ((keyed v).map Prod.fst).Nodup) (hperm : (keyed v').Perm (keyed v)) :
    catalog'.Perm catalog := by
  have hdistinct' := (hperm.map Prod.fst).nodup_iff.2 hdistinct
  have hinjective : Function.Injective
      fun e : Text × Market => (e.1, (.ok e.2 : Checked Record.FieldError Market)) := by
    rintro e e' heq
    obtain ⟨hkey, hmarket⟩ := Prod.mk.inj heq
    exact Prod.ext hkey (Except.ok.inj hmarket)
  refine (List.map_perm_map_iff hinjective).1 ?_
  change (Table.mapValues (fun _ => Except.ok) catalog').Perm
    (Table.mapValues (fun _ => Except.ok) catalog)
  rw [mapValues_of_keyed h hdistinct, mapValues_of_keyed h' hdistinct']
  exact hperm.map _

end Catalog

/-! ## Documents -/

/-- Two documents that write the same items, or the same members, in an order of their own; no key
comes twice. -/
def Json.Document.Reordered (document document' : Json.Document) : Prop :=
  ∃ w w', document.Writes w ∧ document'.Writes w' ∧ w.Reordered w' ∧ w.KeysDistinct

theorem Json.Document.Reordered.symm {document document' : Json.Document}
    (h : document.Reordered document') : document'.Reordered document := by
  obtain ⟨w, w', hw, hw', hreordered, hdistinct⟩ := h
  exact ⟨w', w, hw', hw, hreordered.symm, hdistinct.reordered hreordered⟩

namespace Catalog

/-- A value that is a catalog is read from the other document with its records in another order. -/
theorem exists_read_of_reordered {document document' : Json.Document}
    (h : document.Reordered document') {v : Json} (hread : document.read = .ok v)
    (hv : IsCatalog v) :
    ∃ v', document'.read = .ok v' ∧ IsCatalog v' ∧ ((keyed v).map Prod.fst).Nodup ∧
      (keyed v').Perm (keyed v) := by
  obtain ⟨w, w', hw, hw', hreordered, hdistinct⟩ := h
  rw [Json.Document.read_eq_ok_iff hw] at hread
  simp only [Json.Document.read_eq_ok_iff hw']
  cases hreordered with
  | items hperm =>
    obtain ⟨hdepth, items, hitems, rfl⟩ := Json.Written.valueAt_array_eq_ok_iff.1 hread
    obtain ⟨items', hitems', hperm'⟩ := Json.Written.exists_itemsAt_of_perm hperm hitems
    refine ⟨.array items', Json.Written.valueAt_array_eq_ok_iff.2 ⟨hdepth, items', hitems', rfl⟩,
      isCatalog_array_of_perm hperm' hv, ?_, hperm'.map _⟩
    rw [keyed, fst_underSymbols]
    exact hdistinct items hitems hv
  | members hperm =>
    obtain ⟨hdepth, es, hes, rfl⟩ := Json.Written.valueAt_object_eq_ok_iff.1 hread
    obtain ⟨es', hes', hperm'⟩ := Json.Written.exists_membersAt_of_perm hperm hes
    have hnames : (es.map Prod.fst).Nodup := by
      rw [Json.Written.names_of_membersAt hes]
      exact hdistinct
    have hnames' : (es'.map Prod.fst).Nodup := (hperm'.map Prod.fst).nodup_iff.2 hnames
    rw [Table.ofList_of_nodup hnames] at hv ⊢
    refine ⟨.object es', ?_, isCatalog_object_of_perm hperm' hv, hnames, hperm'⟩
    exact Json.Written.valueAt_object_eq_ok_iff.2
      ⟨hdepth, es', hes', by rw [Table.ofList_of_nodup hnames']⟩

/-- **The order of a document is the order of its markets**, and nothing else. -/
theorem decode_of_reordered {document document' : Json.Document}
    (h : document.Reordered document') {catalog : Catalog}
    (hdecode : (decode document).outcome = .ok catalog) :
    ∃ catalog', (decode document').outcome = .ok catalog' ∧ catalog'.Perm catalog := by
  obtain ⟨v, hread, hv⟩ := (decode_outcome_iff document).1.1 ⟨catalog, hdecode⟩
  obtain ⟨v', hread', hv', hdistinct, hperm⟩ := exists_read_of_reordered h hread hv
  obtain ⟨catalog', hcatalog'⟩ := outcome_of_isCatalog hv'
  rw [decode_of_read hread] at hdecode
  exact ⟨catalog', by rw [decode_of_read hread']; exact hcatalog',
    perm_of_keyed hdecode hcatalog' hdistinct hperm⟩

/-! ## Keys -/

/-- A document decodes to a catalog that holds each key once. -/
theorem nodup_keys_of_decode {document : Json.Document} {catalog : Catalog}
    (h : (decode document).outcome = .ok catalog) : (Table.keys catalog).Nodup := by
  obtain ⟨v, hread, hv⟩ := (decode_outcome_iff document).1.1 ⟨catalog, h⟩
  rw [decode_of_read hread] at h
  cases v with
  | object members =>
    obtain ⟨-, es, -, -, rfl⟩ := Json.Document.exists_writes_object hread
    rw [← Table.keys_mapValues (fun _ => Except.ok (ε := Errors Record.FieldError)),
      mapValues_of_object h, Table.keys_mapValues]
    exact Table.nodup_keys_ofList es
  | array items => exact (keyedBySymbol_of_array h).nodup
  | _ => exact absurd hv id

/-- A catalog that is built holds each key once. -/
theorem nodup_keys_of_build {settings : Settings} {files : Files} {catalog : Catalog}
    (h : (build settings files).outcome = .ok catalog) : (Table.keys catalog).Nodup := by
  obtain ⟨_ | document, hsource⟩ := exists_source h
  · obtain rfl := Except.ok.inj (h.symm.trans (outcome_build_of_none hsource))
    exact KeyedBySymbol.examples.normalize.nodup
  obtain ⟨c, hdecode, rfl⟩ := (build_eq_ok_iff hsource).1 h
  rw [keys_normalize, orExamples]
  split
  · exact KeyedBySymbol.examples.nodup
  · exact nodup_keys_of_decode hdecode

end Catalog

end PaperVenue
