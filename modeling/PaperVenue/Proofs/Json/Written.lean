import PaperVenue.Json.Reader
import PaperVenue.Proofs.Outcome

/-!
# Documents as they are written

A value does not tell how its document is written: blanks and escapes leave no trace in it, and an
object whose names repeat reads like one whose names do not.  A `Written` tree keeps the second and
forgets the first.  It is a value with its members as they stand in the document, repeated names
and all.

A tree has `tokens`, and a document writes the tree if these are the tokens of its lexemes
(`Document.Writes`).  A tree also has a value, `valueAt`, which is where names that repeat are put
together, the last one first come; there is none if it is nested too deep, and then the error is the
one of the first container that is.

The reader works on lexemes one by one and keeps the open containers in a list.
`foldlM_value` says that it does the right thing on a tree: from a state that wants a value, the
tokens of a tree lead to where the tree's value closes, whatever is open around it.  The statement
about whole documents is `read_of_writes`.
-/

namespace PaperVenue

namespace Json

/-- A value as it is written. -/
inductive Written where
  | scalar (v : Json)
  | text (t : Text)
  | array (items : List Written)
  | object (members : List (Text × Written))

namespace Written

mutual

/-- The tokens of a tree. -/
def tokens : Written → List Token
  | scalar v => [.value v]
  | text t => [.text t]
  | array [] => [.openArray, .closeArray]
  | array (w :: ws) => .openArray :: (tokens w ++ tokensAfterItem ws)
  | object [] => [.openObject, .closeObject]
  | object ((name, w) :: ws) =>
    .openObject :: .text name :: .colon :: (tokens w ++ tokensAfterMember ws)

/-- The tokens behind an item, up to the end of its array. -/
def tokensAfterItem : List Written → List Token
  | [] => [.closeArray]
  | w :: ws => .comma :: (tokens w ++ tokensAfterItem ws)

/-- The tokens behind a member, up to the end of its object. -/
def tokensAfterMember : List (Text × Written) → List Token
  | [] => [.closeObject]
  | (name, w) :: ws => .comma :: .text name :: .colon :: (tokens w ++ tokensAfterMember ws)

end

mutual

/-- The value of a tree with so many containers open around it. -/
def valueAt (depth : Nat) : Written → Except Failure Json
  | scalar v => .ok v
  | text t => .ok (.text t)
  | array ws =>
    if maxDepth ≤ depth then .error (.tooDeep .array)
    else (itemsAt (depth + 1) ws).map .array
  | object ws =>
    if maxDepth ≤ depth then .error (.tooDeep .object)
    else (membersAt (depth + 1) ws).map fun members => .object (Table.ofList members)

/-- The values of items. -/
def itemsAt (depth : Nat) : List Written → Except Failure (List Json)
  | [] => .ok []
  | w :: ws => do
    let v ← valueAt depth w
    let vs ← itemsAt depth ws
    pure (v :: vs)

/-- The values of members, each with its name. -/
def membersAt (depth : Nat) : List (Text × Written) → Except Failure (List (Text × Json))
  | [] => .ok []
  | (name, w) :: ws => do
    let v ← valueAt depth w
    let vs ← membersAt depth ws
    pure ((name, v) :: vs)

end

/-! ## Steps of the reader -/

section Steps

variable {ls : List Lexeme} {outer : List Frame} {offset : Nat}

/-- A token comes from a lexeme. -/
theorem exists_lexeme {t : Token} {ts : List Token} (h : ls.map Lexeme.token = t :: ts) :
    ∃ offset rest, ls = { token := t, offset } :: rest ∧ rest.map Lexeme.token = ts := by
  obtain ⟨⟨_, offset⟩, rest, rfl, rfl, hrest⟩ := List.map_eq_cons_iff.1 h
  exact ⟨offset, rest, rfl, hrest⟩

theorem exists_lexeme_of_singleton {t : Token} (h : ls.map Lexeme.token = [t]) :
    ∃ offset, ls = [{ token := t, offset }] := by
  obtain ⟨offset, rest, rfl, hrest⟩ := exists_lexeme h
  obtain rfl := List.map_eq_nil_iff.1 hrest
  exact ⟨offset, rfl⟩

theorem foldlM_openArray :
    ({ token := .openArray, offset } :: ls).foldlM State.step (.value outer) =
      if maxDepth ≤ outer.length then .error (.tooDeep .array)
      else ls.foldlM State.step (.firstItem outer) := by
  change (State.enter .array outer >>= fun s => ls.foldlM State.step s) = _
  rw [State.enter]
  split <;> rfl

theorem foldlM_openObject :
    ({ token := .openObject, offset } :: ls).foldlM State.step (.value outer) =
      if maxDepth ≤ outer.length then .error (.tooDeep .object)
      else ls.foldlM State.step (.firstName outer) := by
  change (State.enter .object outer >>= fun s => ls.foldlM State.step s) = _
  rw [State.enter]
  split <;> rfl

/-- Where an item may come first, a tree is read like any other value. -/
theorem foldlM_firstItem {w : Written} (h : ls.map Lexeme.token = w.tokens) :
    ls.foldlM State.step (.firstItem outer) =
      ls.foldlM State.step (.value (.array [] :: outer)) := by
  rcases w with v | t | (_ | ⟨w, ws⟩) | (_ | ⟨⟨name, w⟩, ws⟩) <;>
    (obtain ⟨offset, ls, rfl, -⟩ := exists_lexeme h; rfl)

end Steps

/-! ## Reading a tree -/

mutual

/-- **The reader reads trees**: from a state that wants a value, the tokens of a tree lead to where
the value of the tree closes. -/
theorem foldlM_value : ∀ (w : Written) (outer : List Frame) {ls : List Lexeme},
    ls.map Lexeme.token = w.tokens →
    ls.foldlM State.step (.value outer) = (w.valueAt outer.length).map (State.close · outer)
  | scalar v, outer, ls, h => by
    obtain ⟨offset, rfl⟩ := exists_lexeme_of_singleton h
    rfl
  | text t, outer, ls, h => by
    obtain ⟨offset, rfl⟩ := exists_lexeme_of_singleton h
    rfl
  | array [], outer, ls, h => by
    obtain ⟨offset, ls, rfl, hrest⟩ := exists_lexeme h
    obtain ⟨offset, rfl⟩ := exists_lexeme_of_singleton hrest
    rw [foldlM_openArray, valueAt]
    split <;> rfl
  | array (w :: ws), outer, ls, h => by
    obtain ⟨offset, ls, rfl, hitems⟩ := exists_lexeme h
    obtain ⟨ls₁, ls₂, rfl, hfirst, hrest⟩ := List.map_eq_append_iff.1 hitems
    rw [foldlM_openArray, valueAt]
    split
    · rfl
    rw [List.foldlM_append, foldlM_firstItem hfirst, foldlM_value w _ hfirst, itemsAt]
    cases w.valueAt (outer.length + 1) with
    | error e => rfl
    | ok v =>
      refine (foldlM_afterItem ws [v] outer hrest).trans ?_
      cases itemsAt (outer.length + 1) ws <;> rfl
  | object [], outer, ls, h => by
    obtain ⟨offset, ls, rfl, hrest⟩ := exists_lexeme h
    obtain ⟨offset, rfl⟩ := exists_lexeme_of_singleton hrest
    rw [foldlM_openObject, valueAt]
    split <;> rfl
  | object ((name, w) :: ws), outer, ls, h => by
    obtain ⟨offset, ls, rfl, hmembers⟩ := exists_lexeme h
    obtain ⟨_, ls, rfl, hcolon⟩ := exists_lexeme hmembers
    obtain ⟨_, ls, rfl, hvalues⟩ := exists_lexeme hcolon
    obtain ⟨ls₁, ls₂, rfl, hfirst, hrest⟩ := List.map_eq_append_iff.1 hvalues
    rw [foldlM_openObject, valueAt]
    split
    · rfl
    change (ls₁ ++ ls₂).foldlM State.step (.value (.object [] name :: outer)) = _
    rw [List.foldlM_append, foldlM_value w _ hfirst, membersAt]
    cases w.valueAt (outer.length + 1) with
    | error e => rfl
    | ok v =>
      refine (foldlM_afterMember ws [(name, v)] outer hrest).trans ?_
      cases membersAt (outer.length + 1) ws <;> rfl

/-- Behind an item, the tokens of the items that follow lead to where the array closes. -/
theorem foldlM_afterItem : ∀ (ws : List Written) (items : List Json) (outer : List Frame)
    {ls : List Lexeme}, ls.map Lexeme.token = tokensAfterItem ws →
    ls.foldlM State.step (.afterItem items outer) =
      (itemsAt (outer.length + 1) ws).map fun vs =>
        State.close (.array (items.reverse ++ vs)) outer
  | [], items, outer, ls, h => by
    obtain ⟨offset, rfl⟩ := exists_lexeme_of_singleton h
    rw [itemsAt, Except.map, List.append_nil]
    rfl
  | w :: ws, items, outer, ls, h => by
    obtain ⟨offset, ls, rfl, hitems⟩ := exists_lexeme h
    obtain ⟨ls₁, ls₂, rfl, hitem, hrest⟩ := List.map_eq_append_iff.1 hitems
    change (ls₁ ++ ls₂).foldlM State.step (.value (.array items :: outer)) = _
    rw [List.foldlM_append, foldlM_value w _ hitem, itemsAt]
    cases w.valueAt (outer.length + 1) with
    | error e => rfl
    | ok v =>
      refine (foldlM_afterItem ws (v :: items) outer hrest).trans ?_
      rw [List.reverse_cons]
      simp only [List.append_assoc, List.singleton_append]
      cases itemsAt (outer.length + 1) ws <;> rfl

/-- Behind a member, the tokens of the members that follow lead to where the object closes. -/
theorem foldlM_afterMember : ∀ (ws : List (Text × Written)) (members : Table Text Json)
    (outer : List Frame) {ls : List Lexeme}, ls.map Lexeme.token = tokensAfterMember ws →
    ls.foldlM State.step (.afterMember members outer) =
      (membersAt (outer.length + 1) ws).map fun vs =>
        State.close (.object (Table.putAll members vs)) outer
  | [], members, outer, ls, h => by
    obtain ⟨offset, rfl⟩ := exists_lexeme_of_singleton h
    rfl
  | (name, w) :: ws, members, outer, ls, h => by
    obtain ⟨offset, ls, rfl, hmembers⟩ := exists_lexeme h
    obtain ⟨_, ls, rfl, hcolon⟩ := exists_lexeme hmembers
    obtain ⟨_, ls, rfl, hvalues⟩ := exists_lexeme hcolon
    obtain ⟨ls₁, ls₂, rfl, hmember, hrest⟩ := List.map_eq_append_iff.1 hvalues
    change (ls₁ ++ ls₂).foldlM State.step (.value (.object members name :: outer)) = _
    rw [List.foldlM_append, foldlM_value w _ hmember, membersAt]
    cases w.valueAt (outer.length + 1) with
    | error e => rfl
    | ok v =>
      refine (foldlM_afterMember ws (Table.put members name v) outer hrest).trans ?_
      cases membersAt (outer.length + 1) ws <;> rfl

end

/-! ## The values of containers -/

/-- A container has a value only where one more may be open. -/
theorem guarded_eq_ok_iff {α : Type} {depth : Nat} {e : Failure} {x : Except Failure α} {a : α} :
    (if maxDepth ≤ depth then .error e else x) = .ok a ↔ depth < maxDepth ∧ x = .ok a := by
  split
  · rename_i hdepth
    exact iff_of_false (by simp) fun h => absurd h.1 (Nat.not_lt.2 hdepth)
  · rename_i hdepth
    exact (and_iff_right (Nat.lt_of_not_le hdepth)).symm

theorem valueAt_array_eq_ok_iff {ws : List Written} {depth : Nat} {v : Json} :
    (array ws).valueAt depth = .ok v ↔
      depth < maxDepth ∧ ∃ vs, itemsAt (depth + 1) ws = .ok vs ∧ .array vs = v := by
  rw [valueAt, guarded_eq_ok_iff, map_eq_ok_iff]

theorem valueAt_object_eq_ok_iff {ws : List (Text × Written)} {depth : Nat} {v : Json} :
    (object ws).valueAt depth = .ok v ↔
      depth < maxDepth ∧ ∃ vs, membersAt (depth + 1) ws = .ok vs ∧
        .object (Table.ofList vs) = v := by
  rw [valueAt, guarded_eq_ok_iff, map_eq_ok_iff]

/-- Items with names in front of them are members. -/
theorem membersAt_zip {depth : Nat} : ∀ {names : List Text} {ws : List Written} {vs : List Json},
    itemsAt depth ws = .ok vs → membersAt depth (names.zip ws) = .ok (names.zip vs)
  | [], _, _, _ => rfl
  | _ :: _, [], _, h => by
    obtain rfl := Except.ok.inj h
    rfl
  | name :: names, w :: ws, vs, h => by
    rw [itemsAt] at h
    obtain ⟨v, hv, h⟩ := bind_eq_ok_iff.1 h
    obtain ⟨vs', hvs, h⟩ := bind_eq_ok_iff.1 h
    obtain rfl := Except.ok.inj h
    rw [List.zip_cons_cons, membersAt, hv, membersAt_zip hvs]
    rfl

end Written

/-! ## Documents -/

namespace Document

/-- The text of a document, without a mark in front. -/
def text? : Document → Option Text
  | inline t => if startsWithMark t then none else some t
  | octets bs => (decodeDocument bs).toOption

/-- A document writes a tree if its lexemes have the tokens of the tree. -/
def Writes (document : Document) (w : Written) : Prop :=
  ∃ t, document.text? = some t ∧ (lexemes t).map Lexeme.token = w.tokens

/-- A document is read by reading its text. -/
theorem read_of_text {document : Document} {t : Text} (h : document.text? = some t) :
    document.read = Json.read t := by
  cases document with
  | inline t' =>
    rw [text?] at h
    split at h
    · exact absurd h (by simp)
    · rename_i hmark
      obtain rfl := Option.some.inj h
      rw [Document.read, if_neg hmark]
  | octets bs =>
    rw [text?] at h
    rw [Document.read]
    cases hbs : decodeDocument bs with
    | error e => exact absurd (hbs ▸ h) (by simp [Except.toOption])
    | ok t' =>
      rw [hbs] at h
      obtain rfl := Option.some.inj h
      rfl

/-- **A document that writes a tree reads as the value of the tree.** -/
theorem read_eq_ok_iff {document : Document} {w : Written} {v : Json} (h : document.Writes w) :
    document.read = .ok v ↔ w.valueAt 0 = .ok v := by
  obtain ⟨t, ht, htokens⟩ := h
  have hlexemes : ofLexemes t.length (lexemes t) = w.valueAt 0 := by
    rw [ofLexemes, w.foldlM_value [] htokens, List.length_nil]
    cases w.valueAt 0 <;> rfl
  rw [read_of_text ht, Json.read, mapError_eq_ok_iff, hlexemes]

end Document

end Json

end PaperVenue
