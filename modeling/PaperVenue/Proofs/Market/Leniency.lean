import PaperVenue.Proofs.Market.Shape
import Mathlib.Data.List.Pairwise
import Mathlib.Logic.Relation

/-!
# What does not count in a record

A catalog document may say more than the venue asks for.  Three kinds of members of a record do not
count, and `Record.Idle` lists them: a member whose name no field has, a `null` for a field that the
record gives in no other way, and a member under the second spelling of a field whose first spelling
is there as well.  To take such a member out of a record, or to put one in, changes nothing about
what becomes of the document.

The reason is that a record is read through `Record.given?`, which says what it gives for a field.
`readMembers_congr` says that nothing else is looked at, and `given?_of_idle` that an idle member is
not seen by it.

That is all there is of leniency.  A member that is not idle by its name is looked at, because an
array under that name spoils the document: `exists_firstError_of_heeded`.
-/

namespace PaperVenue

theorem Text.ofString_injective {s t : String} (h : Text.ofString s = Text.ofString t) : s = t := by
  have h' := congrArg Text.toString? h
  rwa [Text.toString?_ofString, Text.toString?_ofString, Option.some.injEq] at h'

namespace Record

/-! ## What a record gives -/

/-- What a record gives for a field, and under which name; `null` is nothing. -/
def given? (members : Table Text Json) (s : Spelling) : Option (String × Json) :=
  match find? members s with
  | some (_, .null) => none
  | r => r

/-- Read a field from what the record gives for it. -/
def readGiven {α : Type} (read : Json → Except Problem α) (default : α) :
    Option (String × Json) → Checked FieldError α
  | none => .ok default
  | some (name, v) => (read v).mapError fun problem => { first := { field := some name, problem } }

/-- Fields are read from what the record gives. -/
theorem readField_eq_readGiven {α : Type} (read : Json → Except Problem α) (default : α)
    (members : Table Text Json) (main other : String) :
    readField read default members main other =
      readGiven read default (given? members ⟨main, other⟩) := by
  rw [given?, readField]
  rcases find? members ⟨main, other⟩ with _ | ⟨name, v⟩
  · rfl
  · cases v <;> rfl

/-- **Nothing else is looked at**: two records that give the same for every field read the same. -/
theorem readMembers_congr {members members' : Table Text Json}
    (h : ∀ f ∈ fields, given? members f.1 = given? members' f.1) :
    readMembers members = readMembers members' := by
  simp only [fields, List.forall_mem_cons] at h
  obtain ⟨hsymbol, hlocal, hbase, hquote, hprice, hvolume, hquotes, htick, hstep, hnotional,
    hquantity, -⟩ := h
  simp only [readMembers, textField, integerField, decimalField, readField_eq_readGiven, hsymbol,
    hlocal, hbase, hquote, hprice, hvolume, hquotes, htick, hstep, hnotional, hquantity]

/-! ## Names of fields -/

/-- A field goes by a name in one of its two spellings. -/
def GoesBy (f : Spelling × Kind) (k : Text) : Prop :=
  k = Text.ofString f.1.main ∨ k = Text.ofString f.1.other

/-- No name has two fields. -/
theorem eq_of_goesBy {f g : Spelling × Kind} (hf : f ∈ fields) (hg : g ∈ fields) {k : Text}
    (hfk : GoesBy f k) (hgk : GoesBy g k) : f = g := by
  have hapart : fields.Pairwise fun f g => f.1.main ≠ g.1.main ∧ f.1.main ≠ g.1.other ∧
      f.1.other ≠ g.1.main ∧ f.1.other ≠ g.1.other := by
    simp only [fields]
    decide
  have hclash : fields.Pairwise fun f g => ¬ (GoesBy f k ∧ GoesBy g k) := by
    refine hapart.imp fun {f g} h => ?_
    rintro ⟨rfl | rfl, heq | heq⟩
    · exact h.1 (Text.ofString_injective heq)
    · exact h.2.1 (Text.ofString_injective heq)
    · exact h.2.2.1 (Text.ofString_injective heq)
    · exact h.2.2.2 (Text.ofString_injective heq)
  have hsymm : Std.Symm fun f g : Spelling × Kind => ¬ (GoesBy f k ∧ GoesBy g k) :=
    ⟨fun f g h h' => h ⟨h'.2, h'.1⟩⟩
  by_contra hne
  exact hclash.forall hf hg hne ⟨hfk, hgk⟩

/-! ## Idle members -/

/-- A member that does not count, beside the other members of its record. -/
inductive Idle (rest : Table Text Json) : Text → Json → Prop
  /-- No field goes by its name. -/
  | unknown {k : Text} {v : Json} (h : ∀ f ∈ fields, ¬ GoesBy f k) : Idle rest k v
  /-- It is `null`, and the record holds no other spelling of its field. -/
  | unset {f : Spelling × Kind} {k : Text} (hf : f ∈ fields) (hk : GoesBy f k)
      (h : ∀ k', GoesBy f k' → k' ∉ Table.keys rest) : Idle rest k .null
  /-- It has the second spelling of a field, and the record holds the first as well. -/
  | shadowed {f : Spelling × Kind} {v : Json} (hf : f ∈ fields) (hne : f.1.main ≠ f.1.other)
      (h : Text.ofString f.1.main ∈ Table.keys rest) : Idle rest (Text.ofString f.1.other) v

section Lookup

variable {front back : Table Text Json} {k : Text} {v : Json} {s : Spelling}

theorem not_mem_keys_front (h : k ∉ Table.keys (front ++ back)) : k ∉ Table.keys front := by
  intro hmem
  refine h ?_
  rw [Table.keys, List.map_append]
  exact List.mem_append_left _ hmem

/-- A member under another name is not found for a field. -/
theorem find?_append_cons_of_ne (hmain : k ≠ Text.ofString s.main)
    (hother : k ≠ Text.ofString s.other) :
    find? (front ++ (k, v) :: back) s = find? (front ++ back) s := by
  rw [find?, find?, Table.get?_append_cons_of_ne v hmain, Table.get?_append_cons_of_ne v hother]

/-- Nothing is found for a field of which the record holds no spelling. -/
theorem find?_eq_none {members : Table Text Json}
    (hmain : Text.ofString s.main ∉ Table.keys members)
    (hother : Text.ofString s.other ∉ Table.keys members) : find? members s = none := by
  rw [find?, Table.get?_eq_none_iff.2 hmain, Table.get?_eq_none_iff.2 hother]
  rfl

/-- Where the first spelling is there, nobody asks for the second. -/
theorem find?_congr_of_main {members members' : Table Text Json}
    (hmain : Text.ofString s.main ∈ Table.keys members)
    (h : Table.get? members (Text.ofString s.main) = Table.get? members' (Text.ofString s.main)) :
    find? members s = find? members' s := by
  rw [find?, find?, ← h]
  cases hget : Table.get? members (Text.ofString s.main) with
  | none => exact absurd hmain (Table.get?_eq_none_iff.1 hget)
  | some w => rfl

end Lookup

/-- **An idle member is not seen**, whatever field is asked for. -/
theorem given?_of_idle {front back : Table Text Json} {k : Text} {v : Json}
    (h : Idle (front ++ back) k v) {f : Spelling × Kind} (hf : f ∈ fields) :
    given? (front ++ (k, v) :: back) f.1 = given? (front ++ back) f.1 := by
  -- a field that does not go by the name is found as before, so one field is left, if any
  have helse : ¬ GoesBy f k →
      given? (front ++ (k, v) :: back) f.1 = given? (front ++ back) f.1 := by
    intro hk
    rw [GoesBy, not_or] at hk
    rw [given?, given?, find?_append_cons_of_ne hk.1 hk.2]
  by_cases hgoes : GoesBy f k
  · cases h with
    | unknown hunknown => exact absurd hgoes (hunknown f hf)
    | @unset g _ hg hgk hrest =>
      obtain rfl := eq_of_goesBy hf hg hgoes hgk
      have hmain := hrest _ (Or.inl rfl)
      have hother := hrest _ (Or.inr rfl)
      have hnull := Table.get?_append_cons_self back Json.null (not_mem_keys_front (hrest k hgk))
      rw [given?, given?, find?_eq_none hmain hother, find?]
      by_cases hk : k = Text.ofString f.1.main
      · rw [← hk, hnull]
      · obtain rfl : k = Text.ofString f.1.other := hgk.resolve_left hk
        rw [Table.get?_append_cons_of_ne _ hk, Table.get?_eq_none_iff.2 hmain, hnull]
        rfl
    | @shadowed g _ hg hne hrest =>
      obtain rfl := eq_of_goesBy hf hg hgoes (Or.inr rfl)
      have hother : Text.ofString f.1.other ≠ Text.ofString f.1.main :=
        fun heq => hne (Text.ofString_injective heq).symm
      rw [given?, given?, find?_congr_of_main hrest (Table.get?_append_cons_of_ne v hother).symm]
  · exact helse hgoes

/-! ## Members that count -/

/-- A name under which a field is given beside the other members of the record: the first spelling
of the field, or the second if the first is missing. -/
def Gives (rest : Table Text Json) (s : Spelling) (k : Text) : Prop :=
  k ∉ Table.keys rest ∧ (k = Text.ofString s.main ∨
    (k = Text.ofString s.other ∧ Text.ofString s.main ∉ Table.keys rest))

/-- A name that counts beside the other members of the record: some field is given under it. -/
def Heeded (rest : Table Text Json) (k : Text) : Prop := ∃ f ∈ fields, Gives rest f.1 k

/-- There is no third kind of members: what is not idle has a name that counts. -/
theorem idle_or_heeded {rest : Table Text Json} {k : Text} (hk : k ∉ Table.keys rest) (v : Json) :
    Idle rest k v ∨ Heeded rest k := by
  by_cases hknown : ∃ f ∈ fields, GoesBy f k
  · obtain ⟨f, hf, hgoes⟩ := hknown
    by_cases hmain : k = Text.ofString f.1.main
    · exact Or.inr ⟨f, hf, hk, Or.inl hmain⟩
    · obtain rfl : k = Text.ofString f.1.other := hgoes.resolve_left hmain
      by_cases hrest : Text.ofString f.1.main ∈ Table.keys rest
      · have hne : f.1.main ≠ f.1.other := fun heq => hmain (congrArg Text.ofString heq.symm)
        exact Or.inl (.shadowed hf hne hrest)
      · exact Or.inr ⟨f, hf, hk, Or.inr ⟨rfl, hrest⟩⟩
  · exact Or.inl (.unknown fun f hf hgoes => hknown ⟨f, hf, hgoes⟩)

/-- What stands under such a name is found for the field, under the same spelling whatever it is. -/
theorem exists_find?_of_gives {front back : Table Text Json} {s : Spelling} {k : Text}
    (h : Gives (front ++ back) s k) :
    ∃ name, ∀ v, find? (front ++ (k, v) :: back) s = some (name, v) := by
  obtain ⟨hfresh, hk⟩ := h
  have hget := fun v : Json => Table.get?_append_cons_self back v (not_mem_keys_front hfresh)
  rcases hk with rfl | ⟨rfl, hmain⟩
  · exact ⟨s.main, fun v => by rw [find?, hget]⟩
  · by_cases hne : Text.ofString s.other = Text.ofString s.main
    · exact ⟨s.main, fun v => by rw [find?, ← hne, hget]⟩
    · refine ⟨s.other, fun v => ?_⟩
      rw [find?, Table.get?_append_cons_of_ne _ hne, Table.get?_eq_none_iff.2 hmain, hget]
      rfl

/-- No field holds an array. -/
theorem Kind.not_accepts_array (kind : Kind) (items : List Json) :
    ¬ kind.Accepts (.array items) := by
  cases kind with
  | text => rintro ⟨t, ht⟩; exact absurd ht (by simp [readText])
  | integer => rintro ⟨n, hn⟩; exact absurd hn (by simp [readInteger])
  | decimal => rintro ⟨d, hd⟩; exact absurd hd (by simp [readDecimal])

/-- **Any other member is looked at**: an array there spoils the record. -/
theorem not_valid_of_heeded {front back : Table Text Json} {k : Text}
    (h : Heeded (front ++ back) k) (items : List Json) :
    ¬ Valid (.object (front ++ (k, .array items) :: back)) := by
  rintro ⟨members, heq, hvalid⟩
  obtain rfl := Json.object.inj heq
  obtain ⟨f, hf, hgives⟩ := h
  obtain ⟨name, hfind⟩ := exists_find?_of_gives hgives
  exact f.2.not_accepts_array items (hvalid f hf name _ (hfind _) (by simp))

end Record

/-! ## Documents -/

namespace Catalog

/-- One value is the other with the record `r` in some place of it replaced by `r'`. -/
inductive ReplacesRecord (r r' : Table Text Json) : Json → Json → Prop
  /-- A record of an array. -/
  | item (front back : List Json) :
    ReplacesRecord r r' (.array (front ++ .object r :: back)) (.array (front ++ .object r' :: back))
  /-- A record of an object. -/
  | member (front back : Table Text Json) (name : Text) :
    ReplacesRecord r r' (.object (front ++ (name, .object r) :: back))
      (.object (front ++ (name, .object r') :: back))

/-- One value is the other without some idle member of a record. -/
def DropsIdle (v v' : Json) : Prop :=
  ∃ front k w back, Record.Idle (front ++ back) k w ∧
    ReplacesRecord (front ++ (k, w) :: back) (front ++ back) v v'

theorem readRecords_congr {places places' : List (Text × Json)}
    (h : (places.map fun e => (e.1, Record.read e.2)) =
      places'.map fun e => (e.1, Record.read e.2)) : readRecords places = readRecords places' := by
  induction places generalizing places' with
  | nil =>
    obtain rfl := List.map_eq_nil_iff.1 h.symm
    rfl
  | cons e places ih =>
    obtain ⟨e', places', rfl, he, hplaces⟩ := List.map_eq_cons_iff.1 h.symm
    have hread : readAt e = readAt e' := by
      rw [readAt, readAt, (Prod.mk.inj he).1, (Prod.mk.inj he).2]
    rw [readRecords, readRecords, hread, ih hplaces.symm]

/-- What becomes of a value depends on what its records read. -/
theorem ofJson_eq_of_replacesRecord {r r' : Table Text Json} {v v' : Json}
    (h : ReplacesRecord r r' v v') (hread : Record.readMembers r = Record.readMembers r') :
    ofJson v = ofJson v' := by
  have hread' : Record.read (.object r) = Record.read (.object r') := hread
  cases h with
  | item front back =>
    have hplaces : readRecords (itemPlaces (front ++ .object r :: back)) =
        readRecords (itemPlaces (front ++ .object r' :: back)) := by
      refine readRecords_congr ?_
      simp only [itemPlaces, List.zipIdx_append, List.zipIdx_cons, List.map_append, List.map_cons,
        hread']
    rw [ofJson, ofJson, ofItems, ofItems, hplaces]
  | member front back name =>
    have hplaces : readRecords (memberPlaces (front ++ (name, .object r) :: back)) =
        readRecords (memberPlaces (front ++ (name, .object r') :: back)) := by
      refine readRecords_congr ?_
      simp only [memberPlaces, List.map_append, List.map_cons, hread']
    have hkeys : Table.keys (front ++ (name, Json.object r) :: back) =
        Table.keys (front ++ (name, Json.object r') :: back) := by
      simp only [Table.keys, List.map_append, List.map_cons]
    have hempty : (front ++ (name, Json.object r) :: back).isEmpty =
        (front ++ (name, Json.object r') :: back).isEmpty := by
      cases front <;> rfl
    rw [ofJson, ofJson, ofMembers, ofMembers, hplaces, hkeys, hempty]

theorem ofJson_eq_of_dropsIdle {v v' : Json} (h : DropsIdle v v') : ofJson v = ofJson v' := by
  obtain ⟨front, k, w, back, hidle, hreplaces⟩ := h
  exact ofJson_eq_of_replacesRecord hreplaces
    (Record.readMembers_congr fun f hf => Record.given?_of_idle hidle hf)

/-- A value with a record in it that is not valid fails validation. -/
theorem failsValidation_of_replacesRecord {r r' : Table Text Json} {v v' : Json}
    (h : ReplacesRecord r r' v v') (hr : ¬ Record.Valid (.object r)) : FailsValidation v := by
  cases h with
  | item front back => exact ⟨_, List.mem_append_right _ List.mem_cons_self, hr⟩
  | member front back name =>
    exact ⟨_, List.mem_append_right _ List.mem_cons_self, fun h => hr (validMember_iff.1 h)⟩

/-- **Leniency is exactly this**: what a record holds under a name that no field has does not count,
nor does a `null` for a field that it gives in no other way, nor the second spelling of a field
beside the first.  Documents that differ in any number of such members, in any of their records,
decode alike, be it to a catalog or to an error.  And any other member does count: with an array
under its name, no document is a catalog, whatever else is in it. -/
theorem decode_eq_of_dropsIdle {document document' : Json.Document} {v v' : Json}
    (hread : document.read = .ok v) (hread' : document'.read = .ok v') :
    (Relation.EqvGen DropsIdle v v' → decode document = decode document') ∧
    (∀ front k items back, Record.Heeded (front ++ back) k →
      ReplacesRecord (front ++ (k, .array items) :: back) (front ++ back) v v' →
      ∃ record error, (decode document).outcome = .error (.refusedRecord record error)) ∧
    ∀ rest k w, k ∉ Table.keys rest → Record.Idle rest k w ∨ Record.Heeded rest k := by
  rw [decode_of_read hread, decode_of_read hread']
  refine ⟨fun h => ?_, fun front k items back hheeded hreplaces => ?_,
    fun rest k w hk => Record.idle_or_heeded hk w⟩
  · clear hread hread'
    induction h with
    | rel v v' h => exact ofJson_eq_of_dropsIdle h
    | refl v => rfl
    | symm v v' _ ih => exact ih.symm
    | trans v v' v'' _ _ ih ih' => exact ih.trans ih'
  · exact outcome_of_failsValidation
      (failsValidation_of_replacesRecord hreplaces (Record.not_valid_of_heeded hheeded items))

/-- An array of two records with an idle member of each kind. -/
def idleMembers : Json.Document := .inline (Text.ofString
  ("[\x7b\"symbol\": \"A\", \"tickSize\": null, \"tick_size\": \"x\", \"note\": [1]\x7d, " ++
    "\x7b\"symbol\": null\x7d]"))

/-- The same array without them. -/
def idleDropped : Json.Document := .inline (Text.ofString
  "[\x7b\"symbol\": \"A\", \"tickSize\": null\x7d, \x7b\x7d]")

/-- Both arrays are refused, as the second record has no symbol. -/
theorem decode_eq_of_dropsIdle_idleMembers :
    decode idleMembers = decode idleDropped ∧
      (decode idleDropped).outcome = .error (.nameless 1) := by
  let symbol := Text.ofString "symbol"
  let tick := Text.ofString "tickSize"
  let tick' := Text.ofString "tick_size"
  let note := Text.ofString "note"
  let set : Table Text Json := [(symbol, .text (Text.ofString "A")), (tick, .null)]
  have hread : idleMembers.read = .ok (.array
      [.object (set ++ [(tick', .text (Text.ofString "x")), (note, .array [.integer 1])]),
        .object [(symbol, .null)]]) := rfl
  have hread' : idleDropped.read = .ok (.array [.object set, .object []]) := rfl
  have hnote : ∀ f ∈ Record.fields, ¬ Record.GoesBy f note := by
    simp only [Record.fields, List.forall_mem_cons, Record.GoesBy]
    decide
  refine ⟨(decode_eq_of_dropsIdle hread hread').1 ?_, rfl⟩
  refine .trans _ (.array [.object (set ++ [(tick', .text (Text.ofString "x"))]),
    .object [(symbol, .null)]]) _ (.rel _ _ ?_) ?_
  · exact ⟨set ++ [(tick', .text (Text.ofString "x"))], note, .array [.integer 1], [],
      .unknown hnote, .item [] [.object [(symbol, .null)]]⟩
  refine .trans _ (.array [.object set, .object [(symbol, .null)]]) _ (.rel _ _ ?_) (.rel _ _ ?_)
  · exact ⟨set, tick', .text (Text.ofString "x"), [],
      @Record.Idle.shadowed _ (⟨"tickSize", "tick_size"⟩, .decimal) _ (by simp [Record.fields])
        (by decide) (by decide),
      .item [] [.object [(symbol, .null)]]⟩
  · exact ⟨[], symbol, .null, [],
      @Record.Idle.unset _ (⟨"symbol", "symbol"⟩, .text) _ List.mem_cons_self (Or.inl rfl)
        (fun _ _ => List.not_mem_nil),
      .item [.object set] []⟩

end Catalog

end PaperVenue
