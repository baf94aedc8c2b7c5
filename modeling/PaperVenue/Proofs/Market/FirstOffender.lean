import PaperVenue.Proofs.Json.Readable
import PaperVenue.Proofs.Market.Shape
import Mathlib.Data.List.Nodup

/-!
# What the message of a refused document names

A document may be wrong in many places, and the message tells of one.  Which one that is takes two
rules.  Records come before symbols: as long as some record of an array is not valid, nobody asks
whether the others have a symbol.  And among things of one kind the first counts, that is the first
item of an array, the first member of an object, the first field of a record in the order in which
fields are declared.

The readers collect all errors, so `Checked.first?` picks the first one, and it commutes with the
two ways in which readings are put together: `Checked.first?_ap` and `Checked.first?_map`.  From
these follow `Record.first?_read_eq_some_iff` for the fields of a record and `first?_readRecords`
for the records of a document.  A member whose name is repeated stands where the name came first and
has the value that came last; `Table.exists_firstPlace` and `Table.lastValue_iff` say so about the
table that the reader makes.

`decode_error_names_first` is the whole.
-/

namespace PaperVenue

/-- In a list with an element of some kind there is a first one. -/
theorem exists_first {α : Type} {p : α → Prop} {l : List α} (h : ∃ x ∈ l, p x) :
    ∃ before x after, l = before ++ x :: after ∧ (∀ y ∈ before, ¬ p y) ∧ p x := by
  induction l with
  | nil => exact absurd h (by simp)
  | cons y l ih =>
    by_cases hy : p y
    · exact ⟨[], y, l, rfl, by simp, hy⟩
    · obtain ⟨x, hx, hpx⟩ := h
      rcases List.mem_cons.1 hx with rfl | hx
      · exact absurd hpx hy
      · obtain ⟨before, x, after, rfl, hbefore, hpx⟩ := ih ⟨x, hx, hpx⟩
        exact ⟨y :: before, x, after, rfl, List.forall_mem_cons.2 ⟨hy, hbefore⟩, hpx⟩

/-- And a last one. -/
theorem exists_last {α : Type} {p : α → Prop} {l : List α} (h : ∃ x ∈ l, p x) :
    ∃ before x after, l = before ++ x :: after ∧ (∀ y ∈ after, ¬ p y) ∧ p x := by
  have hrev : ∃ x ∈ l.reverse, p x := by simpa only [List.mem_reverse] using h
  obtain ⟨after, x, before, hl, hafter, hx⟩ := exists_first hrev
  refine ⟨before.reverse, x, after.reverse, ?_, by simpa only [List.mem_reverse] using hafter, hx⟩
  rw [← List.reverse_reverse l, hl, List.reverse_append, List.reverse_cons, List.append_assoc,
    List.singleton_append]

/-! ## The first error of a reading -/

namespace Checked

variable {ε ε' α β : Type}

/-- The first error of a reading, if there is one. -/
def first? : Checked ε α → Option ε
  | .ok _ => none
  | .error es => some es.first

theorem first?_ap (f : Checked ε (α → β)) (a : Checked ε α) :
    first? (Checked.ap f a) = (first? f).or (first? a) := by
  cases f <;> cases a <;> rfl

theorem first?_map (f : α → β) (a : Checked ε α) : first? (Except.map f a) = first? a := by
  cases a <;> rfl

theorem first?_mapError (f : ε → ε') (a : Checked ε α) :
    first? (Except.mapError (Errors.map f) a) = (first? a).map f := by
  cases a <;> rfl

theorem first?_eq_none_iff {a : Checked ε α} : first? a = none ↔ ∃ x, a = .ok x := by
  cases a <;> simp [first?]

end Checked

/-! ## The first field that fails -/

namespace Record

/-- The problem for which a value was refused, if it was. -/
def problemOf? {α : Type} : Except Problem α → Option Problem
  | .ok _ => none
  | .error p => some p

/-- The problem of a value that is not of a kind. -/
def Kind.problem? : Kind → Json → Option Problem
  | text, v => problemOf? (readText v)
  | integer, v => problemOf? (readInteger v)
  | decimal, v => problemOf? (readDecimal v)

/-- A field fails if it holds a value, other than `null`, that is not of its kind; `name` is the
spelling under which it was found. -/
def Fails (members : Table Text Json) (f : Spelling × Kind) (name : String) (problem : Problem) :
    Prop :=
  ∃ v, find? members f.1 = some (name, v) ∧ v ≠ .null ∧ f.2.problem? v = some problem

/-- The error of a field, if it fails. -/
def fieldError? (members : Table Text Json) (f : Spelling × Kind) : Option FieldError :=
  match find? members f.1 with
  | none => none
  | some (_, .null) => none
  | some (name, v) => (f.2.problem? v).map fun problem => { field := some name, problem }

section Field

variable {members : Table Text Json} {f : Spelling × Kind} {name : String} {v : Json}

theorem fieldError?_of_missing (h : find? members f.1 = none) : fieldError? members f = none := by
  rw [fieldError?, h]

theorem fieldError?_of_null (h : find? members f.1 = some (name, .null)) :
    fieldError? members f = none := by
  rw [fieldError?, h]

theorem fieldError?_of_value (h : find? members f.1 = some (name, v)) (hv : v ≠ .null) :
    fieldError? members f =
      (f.2.problem? v).map fun problem => { field := some name, problem } := by
  rw [fieldError?, h]
  cases v with
  | null => exact absurd rfl hv
  | _ => rfl

theorem fieldError?_eq_some_iff {error : FieldError} :
    fieldError? members f = some error ↔
      ∃ name problem, Fails members f name problem ∧ error = { field := some name, problem } := by
  rcases hfind : find? members f.1 with _ | ⟨name, v⟩
  · rw [fieldError?_of_missing hfind]
    simp [Fails, hfind]
  · by_cases hv : v = .null
    · subst hv
      rw [fieldError?_of_null hfind]
      simp [Fails, hfind]
    · rw [fieldError?_of_value hfind hv, Option.map_eq_some_iff]
      constructor
      · rintro ⟨problem, hproblem, rfl⟩
        exact ⟨name, problem, ⟨v, hfind, hv, hproblem⟩, rfl⟩
      · rintro ⟨name', problem, ⟨v', hfind', -, hproblem⟩, rfl⟩
        obtain ⟨rfl, rfl⟩ := Prod.mk.inj (Option.some.inj (hfind.symm.trans hfind'))
        exact ⟨problem, hproblem, rfl⟩

/-- A field has no error exactly if it does not fail. -/
theorem fieldError?_eq_none_iff :
    fieldError? members f = none ↔ ∀ name problem, ¬ Fails members f name problem := by
  rw [Option.eq_none_iff_forall_ne_some]
  constructor
  · intro h name problem hfails
    exact h _ (fieldError?_eq_some_iff.2 ⟨name, problem, hfails, rfl⟩)
  · intro h error herror
    obtain ⟨name, problem, hfails, -⟩ := fieldError?_eq_some_iff.1 herror
    exact h name problem hfails

/-- What reading a field finds wrong is the error of the field. -/
theorem first?_readField {α : Type} {read : Json → Except Problem α} {default : α} {k : Kind}
    {main other : String} (hread : ∀ v, problemOf? (read v) = k.problem? v) :
    Checked.first? (readField read default members main other) =
      fieldError? members (⟨main, other⟩, k) := by
  let f : Spelling × Kind := (⟨main, other⟩, k)
  rcases hfind : find? members ⟨main, other⟩ with _ | ⟨name, v⟩
  · have hnone : find? members f.1 = none := hfind
    rw [readField_of_missing hfind, fieldError?_of_missing hnone]
    rfl
  · have hsome : find? members f.1 = some (name, v) := hfind
    by_cases hv : v = .null
    · subst hv
      rw [readField_of_null hfind, fieldError?_of_null hsome]
      rfl
    · rw [readField_of_value hfind hv, fieldError?_of_value hsome hv, ← hread]
      cases read v <;> rfl

end Field

/-- The first error of a record is that of the first field that fails. -/
theorem first?_readMembers (members : Table Text Json) :
    Checked.first? (readMembers members) = fields.findSome? (fieldError? members) := by
  have hcons : ∀ (f : Spelling × Kind) fs, (f :: fs).findSome? (fieldError? members) =
      (fieldError? members f).or (fs.findSome? (fieldError? members)) := by
    intro f fs
    rw [List.findSome?_cons]
    cases fieldError? members f <;> rfl
  have htext : ∀ main other, Checked.first? (textField members main other) =
      fieldError? members (⟨main, other⟩, .text) := fun _ _ => first?_readField fun _ => rfl
  have hinteger : ∀ main other, Checked.first? (integerField members main other) =
      fieldError? members (⟨main, other⟩, .integer) := fun _ _ => first?_readField fun _ => rfl
  have hdecimal : ∀ main other, Checked.first? (decimalField members main other) =
      fieldError? members (⟨main, other⟩, .decimal) := fun _ _ => first?_readField fun _ => rfl
  have hok : Checked.first? (.ok market : Checked FieldError _) = none := rfl
  simp only [readMembers, Checked.first?_ap, htext, hinteger, hdecimal, hok, fields, hcons,
    List.findSome?_nil, Option.or_assoc, Option.none_or, Option.or_none]

/-- What is wrong with a value first: the first field that fails, or that it is no record. -/
def FirstError : Json → FieldError → Prop
  | .object members, error => ∃ before f after name problem,
      fields = before ++ f :: after ∧ (∀ g ∈ before, ∀ n p, ¬ Fails members g n p) ∧
        Fails members f name problem ∧ error = { field := some name, problem }
  | _, error => error = { field := none, problem := .notARecord }

theorem first?_read_eq_some_iff {v : Json} {error : FieldError} :
    Checked.first? (read v) = some error ↔ FirstError v error := by
  cases v with
  | object members =>
    rw [read, first?_readMembers, List.findSome?_eq_some_iff, FirstError]
    simp only [fieldError?_eq_some_iff, fieldError?_eq_none_iff]
    constructor
    · rintro ⟨before, f, after, hfields, ⟨name, problem, hfails, herror⟩, hbefore⟩
      exact ⟨before, f, after, name, problem, hfields, hbefore, hfails, herror⟩
    · rintro ⟨before, f, after, name, problem, hfields, hbefore, hfails, herror⟩
      exact ⟨before, f, after, hfields, ⟨name, problem, hfails, herror⟩, hbefore⟩
  | _ => exact ⟨fun h => (Option.some.inj h).symm, fun h => congrArg some h.symm⟩

theorem first?_read_eq_none_iff {v : Json} : Checked.first? (read v) = none ↔ Valid v := by
  rw [Checked.first?_eq_none_iff, exists_read_iff]

/-- Something is wrong with a value that is no valid record. -/
theorem exists_firstError {v : Json} (h : ¬ Valid v) : ∃ error, FirstError v error := by
  cases herror : Checked.first? (read v) with
  | none => exact absurd (first?_read_eq_none_iff.1 herror) h
  | some error => exact ⟨error, first?_read_eq_some_iff.1 herror⟩

/-- The symbol of a record is empty, absent or `null`. -/
def Nameless (v : Json) : Prop :=
  ∃ members, v = .object members ∧
    (Table.get? members (Text.ofString "symbol") = none ∨
      Table.get? members (Text.ofString "symbol") = some .null ∨
      Table.get? members (Text.ofString "symbol") = some (.text []))

/-- A valid record without a symbol has an empty one, or none, or `null`. -/
theorem nameless_iff {v : Json} (h : Valid v) : Nameless v ↔ symbolOf v = [] := by
  obtain ⟨members, rfl, hvalid⟩ := h
  have hsymbol := hvalid (⟨"symbol", "symbol"⟩, .text) List.mem_cons_self
  simp only [find?, Kind.Accepts] at hsymbol
  simp only [Nameless, Json.object.injEq, exists_eq_left', symbolOf]
  cases hget : Table.get? members (Text.ofString "symbol") with
  | none => simp
  | some w =>
    rw [hget] at hsymbol
    cases w with
    | null => simp
    | text t => simp
    | _ =>
      obtain ⟨t, ht⟩ := hsymbol _ _ rfl (by simp)
      exact absurd ht (by simp [readText])

end Record

/-! ## Repeated names -/

namespace Table

variable {κ α : Type} [DecidableEq κ]

/-- **A key stands where it came first**: in front of it in the table are the keys that came in
front of its first entry. -/
theorem exists_firstPlace {es : List (κ × α)} {front back : Table κ α} {k : κ} {v : α}
    (h : ofList es = front ++ (k, v) :: back) :
    ∃ before v₀ after, es = before ++ (k, v₀) :: after ∧ k ∉ before.map Prod.fst ∧
      ∀ k', k' ∈ before.map Prod.fst ↔ k' ∈ keys front := by
  have hkeys : keys (ofList es) = keys front ++ k :: keys back := by
    rw [h, keys, List.map_append, List.map_cons]
    rfl
  have hmem : k ∈ es.map Prod.fst := by
    rw [← mem_keys_ofList, hkeys]
    exact List.mem_append_right _ List.mem_cons_self
  obtain ⟨before, ⟨k', v₀⟩, after, hes, hbefore, hk⟩ :
      ∃ before e after, es = before ++ e :: after ∧ (∀ y ∈ before, ¬ y.1 = k) ∧ e.1 = k := by
    obtain ⟨e, he, hek⟩ := List.mem_map.1 hmem
    exact exists_first ⟨e, he, hek⟩
  obtain rfl : k' = k := hk
  have hfresh : k' ∉ before.map Prod.fst := by
    intro hmem
    obtain ⟨y, hy, hyk⟩ := List.mem_map.1 hmem
    exact hbefore y hy hyk
  refine ⟨before, v₀, after, hes, hfresh, fun k => ?_⟩
  obtain ⟨more, hmore⟩ := exists_keys_putAll (put (ofList before) k' v₀) after
  have hplace : keys (put (ofList before) k' v₀) = keys (ofList before) ++ [k'] := by
    rw [keys_put, if_neg fun hmem => hfresh (mem_keys_ofList.1 hmem)]
  have hsplit : keys front ++ k' :: keys back = keys (ofList before) ++ k' :: more := by
    rw [← hkeys, hes, ofList, putAll_append, putAll_cons, ← ofList, hmore, hplace,
      List.append_assoc, List.singleton_append]
  have hnodup := nodup_keys_ofList es
  rw [hkeys, List.nodup_middle, List.nodup_cons, List.mem_append, not_or] at hnodup
  rw [(List.append_cons_inj_of_notMem hnodup.1.1 hnodup.1.2).1 hsplit |>.1, mem_keys_ofList]

/-- The last value that a list of entries gives a key. -/
def LastValue (es : List (κ × α)) (k : κ) (v : α) : Prop :=
  ∃ before after, es = before ++ (k, v) :: after ∧ k ∉ after.map Prod.fst

theorem LastValue.get?_ofList {es : List (κ × α)} {k : κ} {v : α} (h : LastValue es k v) :
    get? (ofList es) k = some v := by
  obtain ⟨before, after, rfl, hlast⟩ := h
  exact get?_ofList_of_last before k v hlast

/-- A key has the value that came last. -/
theorem lastValue_iff {es : List (κ × α)} {k : κ} {v : α} :
    LastValue es k v ↔ get? (ofList es) k = some v := by
  refine ⟨LastValue.get?_ofList, fun h => ?_⟩
  have hmem : k ∈ es.map Prod.fst := by
    rw [← mem_keys_ofList]
    by_contra hk
    rw [get?_eq_none_iff.2 hk] at h
    exact absurd h (by simp)
  have hlast : ∃ e ∈ es, e.1 = k := List.mem_map.1 hmem
  obtain ⟨before, ⟨k', w⟩, after, hes, hafter, hk⟩ := exists_last hlast
  obtain rfl : k' = k := hk
  have hw : LastValue es k' w := by
    refine ⟨before, after, hes, fun hmem => ?_⟩
    obtain ⟨e, he, hek⟩ := List.mem_map.1 hmem
    exact hafter e he hek
  obtain rfl := Option.some.inj (hw.get?_ofList.symm.trans h)
  exact hw

end Table

namespace Catalog

/-! ## What messages tell -/

/-- The message tells of the value at a place what is wrong with it first. -/
def Tells (message place : Text) (v : Json) : Prop :=
  ∃ error, Record.FirstError v error ∧
    message = Text.ofString "polymarket: decode markets json failed: " ++ (place ++
      (match error.field with
        | some name => Text.ofString ("." ++ name)
        | none => []) ++ Text.ofString (": " ++ error.problem.message))

/-- It tells of the first item that is no valid record, at its index. -/
def TellsFirstItem (message : Text) (items : List Json) : Prop :=
  ∃ before v after, items = before ++ v :: after ∧ (∀ w ∈ before, Record.Valid w) ∧
    ¬ Record.Valid v ∧ Tells message (Text.ofString (toString before.length)) v

/-- It gives the index of the first item without a symbol. -/
def TellsFirstNameless (message : Text) (items : List Json) : Prop :=
  ∃ before v after, items = before ++ v :: after ∧ (∀ w ∈ before, ¬ Record.Nameless w) ∧
    Record.Nameless v ∧
    message = Text.ofString
      ("polymarket: market symbol is empty in json (record #" ++ toString before.length ++ ")")

/-- A name as it is told: surrogates cannot be shown. -/
def shownName (name : Text) : Text := name.flatMap shownPoint

/-- It tells of the first member whose value is no valid record, at its name. -/
def TellsFirstMember (message : Text) (members : Table Text Json) : Prop :=
  ∃ before name v after, members = before ++ (name, v) :: after ∧
    (∀ e ∈ before, Record.Valid e.2) ∧ ¬ Record.Valid v ∧ Tells message (shownName name) v

/-- The same for members as they are written, where names may repeat: a name stands where it came
first, and its value is the last one. -/
def TellsFirstWritten (message : Text) (es : List (Text × Json)) : Prop :=
  ∃ before name v₀ after v, es = before ++ (name, v₀) :: after ∧ name ∉ before.map Prod.fst ∧
    Table.LastValue es name v ∧ ¬ Record.Valid v ∧
    (∀ k ∈ before.map Prod.fst, ∀ w, Table.LastValue es k w → Record.Valid w) ∧
    Tells message (shownName name) v

/-- A name that holds no surrogate is told as it is. -/
theorem shownName_ofString (s : String) : shownName (Text.ofString s) = Text.ofString s := by
  rw [shownName, Text.ofString, Text.ofChars, List.flatMap_map]
  exact List.map_eq_flatMap.symm

/-! ## Records -/

/-- The first error of a document is that of the first record that has one. -/
theorem first?_readRecords (places : List (Text × Json)) :
    Checked.first? (readRecords places) =
      places.findSome? fun e => (Checked.first? (Record.read e.2)).map fun error =>
        { record := e.1, error } := by
  induction places with
  | nil => rfl
  | cons e places ih =>
    rw [readRecords, Checked.first?_ap, Checked.first?_map, readAt, Checked.first?_mapError, ih,
      List.findSome?_cons]
    cases Checked.first? (Record.read e.2) <;> rfl

/-- **The first record that is not valid** is the one that is told, with what is wrong with it. -/
theorem tells_of_readRecords {before after : List (Text × Json)} {place : Text} {v : Json}
    {es : Errors RecordError} (hread : readRecords (before ++ (place, v) :: after) = .error es)
    (hbefore : ∀ e ∈ before, Record.Valid e.2) (hv : ¬ Record.Valid v) :
    Tells (VenueError.refusedRecord es.first.record es.first.error).message place v := by
  obtain ⟨error, herror⟩ := Record.exists_firstError hv
  have hfirst : Checked.first? (readRecords (before ++ (place, v) :: after)) =
      some { record := place, error } := by
    rw [first?_readRecords, List.findSome?_eq_some_iff]
    refine ⟨before, (place, v), after, rfl, ?_, fun e he => ?_⟩
    · rw [Record.first?_read_eq_some_iff.2 herror]
      rfl
    · rw [Record.first?_read_eq_none_iff.2 (hbefore e he)]
      rfl
  rw [hread] at hfirst
  rw [Option.some.inj hfirst]
  exact ⟨error, herror, rfl⟩

theorem itemPlaces_append_cons (before : List Json) (v : Json) (after : List Json) :
    ∃ rest, itemPlaces (before ++ v :: after) =
      itemPlaces before ++ (Text.ofString (toString before.length), v) :: rest := by
  refine ⟨(after.zipIdx (before.length + 1)).map fun e => (Text.ofString (toString e.2), e.1), ?_⟩
  rw [itemPlaces, List.zipIdx_append, List.map_append, List.zipIdx_cons, List.map_cons,
    Nat.zero_add]
  rfl

/-! ## Symbols -/

/-- The first market without a symbol stops the making of a catalog. -/
theorem foldlM_addNamed_append_cons (catalog : Catalog) {before after : List (Market × Nat)}
    {m : Market × Nat} (hbefore : ∀ m ∈ before, m.1.symbol ≠ []) (hm : m.1.symbol = []) :
    (before ++ m :: after).foldlM addNamed catalog = .error (.nameless m.2) := by
  rw [List.foldlM_append, foldlM_addNamed catalog hbefore]
  show List.foldlM addNamed _ (m :: after) = _
  rw [List.foldlM_cons, addNamed, hm]
  rfl

/-- An array of valid records that is refused is refused for the first one without a symbol. -/
theorem tells_of_nameless {items : List Json} {ms : List Market} {e : VenueError}
    (hread : readRecords (itemPlaces items) = .ok ms) (hvalid : ∀ v ∈ items, Record.Valid v)
    (he : (ofItems items).outcome = .error e) : TellsFirstNameless e.message items := by
  have hnamed : ∃ v ∈ items, Record.symbolOf v = [] := by
    by_contra hall
    have hok := outcome_ofItems hread
      (named_of_readItems hread fun v hv hnone => hall ⟨v, hv, hnone⟩)
    exact absurd (he.symm.trans hok) (by simp)
  obtain ⟨before, v, after, rfl, hbefore, hv⟩ := exists_first hnamed
  have hsymbols := symbols_of_readItems hread
  rw [List.map_append, List.map_cons] at hsymbols
  obtain ⟨ms₁, ms₂, rfl, hms₁, hms₂⟩ := List.map_eq_append_iff.1 hsymbols
  obtain ⟨m, ms₃, rfl, hm, -⟩ := List.map_eq_cons_iff.1 hms₂
  have hlength : ms₁.length = before.length := by
    simpa only [List.length_map] using congrArg List.length hms₁
  have hfold : ((ms₁ ++ m :: ms₃).zipIdx).foldlM addNamed [] =
      .error (.nameless before.length) := by
    rw [List.zipIdx_append, List.zipIdx_cons, Nat.zero_add, hlength]
    refine foldlM_addNamed_append_cons [] (fun m' hm' hnone => ?_) (hm.trans hv)
    have hmem : m'.1.symbol ∈ before.map Record.symbolOf := by
      rw [← hms₁]
      exact List.mem_map_of_mem (List.fst_mem_of_mem_zipIdx hm')
    obtain ⟨w, hw, hsymbol⟩ := List.mem_map.1 hmem
    exact hbefore w hw (hsymbol.trans hnone)
  rw [ofItems, hread] at he
  obtain rfl := Except.error.inj (he.symm.trans hfold)
  have hbefore_valid : ∀ w ∈ before, Record.Valid w :=
    fun w hw => hvalid w (List.mem_append_left _ hw)
  have hv_valid : Record.Valid v := hvalid v (List.mem_append_right _ List.mem_cons_self)
  refine ⟨before, v, after, rfl, fun w hw hnameless => ?_, (Record.nameless_iff hv_valid).2 hv, rfl⟩
  exact hbefore w hw ((Record.nameless_iff (hbefore_valid w hw)).1 hnameless)

/-! ## Documents -/

/-- An array with something in it that is not valid is refused for the first such item. -/
theorem tells_of_array {items : List Json} {e : VenueError}
    (he : (ofItems items).outcome = .error e) (hinvalid : ∃ v ∈ items, ¬ Record.Valid v) :
    TellsFirstItem e.message items := by
  obtain ⟨before, v, after, rfl, hbefore, hv⟩ := exists_first hinvalid
  have hbefore' : ∀ w ∈ before, Record.Valid w := fun w hw => not_not.1 (hbefore w hw)
  obtain ⟨rest, hplaces⟩ := itemPlaces_append_cons before v after
  cases hread : readRecords (itemPlaces (before ++ v :: after)) with
  | ok ms =>
    obtain ⟨w, hw, hw'⟩ := hinvalid
    exact absurd (exists_readRecords_itemPlaces_iff.1 ⟨ms, hread⟩ w hw) hw'
  | error es =>
    rw [ofItems, hread] at he
    obtain rfl := Except.error.inj (he.symm.trans (outcome_refuse _ es))
    rw [hplaces] at hread
    refine ⟨before, v, after, rfl, hbefore', hv, tells_of_readRecords hread ?_ hv⟩
    intro e he
    refine hbefore' e.2 ?_
    rw [← snd_itemPlaces before]
    exact List.mem_map_of_mem he

/-- An object with members that is refused is refused for the first member that is not valid. -/
theorem tells_of_object {members : Table Text Json} {e : VenueError}
    (he : (ofMembers members).outcome = .error e) (hnil : members ≠ []) :
    TellsFirstMember e.message members := by
  have hinvalid : ∃ m ∈ members, ¬ Record.Valid m.2 := by
    by_contra hall
    obtain ⟨ms, hread⟩ := exists_readRecords_memberPlaces_iff.2 fun m hm =>
      validMember_iff.2 (not_not.1 fun hv => hall ⟨m, hm, hv⟩)
    exact absurd (he.symm.trans (outcome_ofMembers hnil hread)) (by simp)
  obtain ⟨before, ⟨name, v⟩, after, rfl, hbefore, hv⟩ := exists_first hinvalid
  have hbefore' : ∀ m ∈ before, Record.Valid m.2 := fun m hm => not_not.1 (hbefore m hm)
  have hplaces : memberPlaces (before ++ (name, v) :: after) =
      memberPlaces before ++ (shownName name, v) :: memberPlaces after := by
    rw [memberPlaces, List.map_append, List.map_cons]
    rfl
  cases hread : readRecords (memberPlaces (before ++ (name, v) :: after)) with
  | ok ms =>
    have hall := exists_readRecords_memberPlaces_iff.1 ⟨ms, hread⟩ (name, v)
      (List.mem_append_right _ List.mem_cons_self)
    exact absurd (validMember_iff.1 hall) hv
  | error es =>
    rw [ofMembers, hread] at he
    obtain rfl := Except.error.inj (he.symm.trans (outcome_refuse _ es))
    rw [hplaces] at hread
    refine ⟨before, name, v, after, rfl, hbefore', hv, tells_of_readRecords hread ?_ hv⟩
    intro e he
    obtain ⟨m, hm, rfl⟩ := List.mem_map.1 he
    exact hbefore' m hm

/-- The first member of the table that the reader makes, told in terms of what is written. -/
theorem TellsFirstMember.written {message : Text} {es : List (Text × Json)}
    (h : TellsFirstMember message (Table.ofList es)) : TellsFirstWritten message es := by
  obtain ⟨front, name, v, back, htable, hfront, hv, htells⟩ := h
  obtain ⟨before, v₀, after, hes, hfresh, hbefore⟩ := Table.exists_firstPlace htable
  have hfound : ∀ k w, (k, w) ∈ front ++ (name, v) :: back →
      Table.get? (Table.ofList es) k = some w := by
    intro k w hmem
    rw [← htable] at hmem
    exact Table.get?_of_mem (Table.nodup_keys_ofList es) hmem
  have hlast : Table.LastValue es name v :=
    Table.lastValue_iff.2 (hfound name v (List.mem_append_right _ List.mem_cons_self))
  refine ⟨before, name, v₀, after, v, hes, hfresh, hlast, hv, fun k hk w hw => ?_, htells⟩
  obtain ⟨⟨k', w'⟩, hmem, rfl⟩ := List.mem_map.1 ((hbefore k).1 hk)
  have hw' := hfound k' w' (List.mem_append_left _ hmem)
  obtain rfl := Option.some.inj (hw'.symm.trans (Table.lastValue_iff.1 hw))
  exact hfront _ hmem

/-- **The message of a refused document names the first offender.**  For an array: the first item
that is no valid record, with the first field that fails in it, as long as there is such an item;
otherwise the index of the first item without a symbol.  For an object with members: the first
member whose value is no valid record, with the first field that fails in it; of a name that is
written several times the first place and the last value count, and there is no other object than
those that are written so.  Names are told as they are, as far as they are strings. -/
theorem decode_error_names_first {document : Json.Document} {e : VenueError}
    (he : (decode document).outcome = .error e) :
    (∀ items, document.read = .ok (.array items) →
      ((∃ v ∈ items, ¬ Record.Valid v) → TellsFirstItem e.message items) ∧
      ((∀ v ∈ items, Record.Valid v) → TellsFirstNameless e.message items)) ∧
    (∀ members, document.read = .ok (.object members) → members ≠ [] →
      TellsFirstMember e.message members ∧
      ∃ ws es, document.Writes (.object ws) ∧ Json.Written.membersAt 1 ws = .ok es ∧
        members = Table.ofList es) ∧
    (∀ ws es, document.Writes (.object ws) → Json.Written.membersAt 1 ws = .ok es → es ≠ [] →
      TellsFirstWritten e.message es) ∧
    ∀ s, shownName (Text.ofString s) = Text.ofString s := by
  have hobject : ∀ members, document.read = .ok (.object members) → members ≠ [] →
      TellsFirstMember e.message members := by
    intro members hread hnil
    rw [decode_of_read hread] at he
    exact tells_of_object he hnil
  refine ⟨fun items hread => ?_, fun members hread hnil =>
    ⟨hobject members hread hnil, Json.Document.exists_writes_object hread⟩,
    fun ws es hwrites hes hnil => ?_, shownName_ofString⟩
  · rw [decode_of_read hread] at he
    refine ⟨tells_of_array he, fun hvalid => ?_⟩
    obtain ⟨ms, hms⟩ := exists_readRecords_itemPlaces_iff.2 hvalid
    exact tells_of_nameless hms hvalid he
  · have hread : document.read = .ok (.object (Table.ofList es)) := by
      rw [Json.Document.read_eq_ok_iff hwrites, Json.Written.valueAt_object_eq_ok_iff]
      exact ⟨by decide, es, hes, rfl⟩
    refine (hobject _ hread fun hempty => hnil ?_).written
    have hkeys := congrArg Table.keys hempty
    rcases es with _ | ⟨⟨k, v⟩, es⟩
    · rfl
    · have hmem : k ∈ Table.keys (Table.ofList ((k, v) :: es)) :=
        Table.mem_keys_ofList.2 List.mem_cons_self
      rw [hkeys] at hmem
      exact absurd hmem List.not_mem_nil

/-- An array whose first item lacks a symbol, whose second one has two wrong fields, and whose third
one is no record. -/
def twoFaults : Json.Document := .inline (Text.ofString
  "[\x7b\x7d, \x7b\"tickSize\": [], \"pricePrecision\": \"many\"\x7d, 5]")

/-- Its message tells of the second item, and there of the precision, which is declared first. -/
theorem decode_error_names_first_twoFaults :
    ∃ e items, (decode twoFaults).outcome = .error e ∧ twoFaults.read = .ok (.array items) ∧
      TellsFirstItem e.message items ∧
      e.message = Text.ofString ("polymarket: decode markets json failed: 1.pricePrecision: " ++
        "Input should be a valid integer, unable to parse string as an integer") := by
  have houtcome : (decode twoFaults).outcome = .error (.refusedRecord (Text.ofString "1")
      { field := some "pricePrecision", problem := .notAnIntegerText }) := rfl
  have hread : twoFaults.read = .ok (.array [.object [],
      .object [(Text.ofString "tickSize", .array []),
        (Text.ofString "pricePrecision", .text (Text.ofString "many"))], .integer 5]) := rfl
  have hinvalid : ¬ Record.Valid (.integer 5) := by
    rintro ⟨members, hmembers, -⟩
    exact absurd hmembers (by simp)
  refine ⟨_, _, houtcome, hread, ?_, by decide +kernel⟩
  exact ((decode_error_names_first houtcome).1 _ hread).1 ⟨.integer 5, by simp, hinvalid⟩

end Catalog

end PaperVenue
