import PaperVenue.Proofs.Json.Written

/-!
# Every document that can be read writes a tree

`Document.read_eq_ok_iff` says how a document is read that writes a tree.  Here is the other half:
there are no other documents that can be read.

The reader never looks back, so the tree has to be found from what it keeps.  `Reaches` says of a
state which tokens lead to it: those of a part of a tree, cut off where the state stands, with the
containers that are open still without their ends.  `reaches_step` is one step of the reader and
`reaches_foldlM` a run.  A run that ends in a value has a whole tree behind it, which is
`exists_writes_of_read`.

For objects this says what a value does not tell: an object that was read is the table of its
members as they were written, `exists_writes_object`.
-/

namespace PaperVenue

namespace Json

namespace Written

/-! ## Parts of containers -/

/-- The tokens of items, each with the comma behind it. -/
def itemsBefore (ws : List Written) : List Token := ws.flatMap fun w => w.tokens ++ [.comma]

/-- The tokens of members, each with the comma behind it. -/
def membersBefore (ws : List (Text × Written)) : List Token :=
  ws.flatMap fun m => .text m.1 :: .colon :: (m.2.tokens ++ [.comma])

theorem tokensAfterItem_concat (ws : List Written) (w : Written) :
    tokensAfterItem (ws ++ [w]) = .comma :: (itemsBefore ws ++ (w.tokens ++ [.closeArray])) := by
  induction ws with
  | nil => simp [tokensAfterItem, itemsBefore]
  | cons w' ws ih =>
    rw [List.cons_append, tokensAfterItem, ih, itemsBefore, itemsBefore, List.flatMap_cons]
    simp only [List.append_assoc, List.cons_append, List.nil_append]

/-- The tokens of an array, taken apart at its last item. -/
theorem tokens_array_concat (ws : List Written) (w : Written) :
    (array (ws ++ [w])).tokens =
      .openArray :: (itemsBefore ws ++ (w.tokens ++ [.closeArray])) := by
  cases ws with
  | nil => simp [tokens, tokensAfterItem, itemsBefore]
  | cons w' ws =>
    rw [List.cons_append, tokens, tokensAfterItem_concat, itemsBefore, itemsBefore,
      List.flatMap_cons]
    simp only [List.append_assoc, List.cons_append, List.nil_append]

theorem tokensAfterMember_concat (ws : List (Text × Written)) (name : Text) (w : Written) :
    tokensAfterMember (ws ++ [(name, w)]) = .comma ::
      (membersBefore ws ++ .text name :: .colon :: (w.tokens ++ [.closeObject])) := by
  induction ws with
  | nil => simp [tokensAfterMember, membersBefore]
  | cons m ws ih =>
    obtain ⟨name', w'⟩ := m
    rw [List.cons_append, tokensAfterMember, ih, membersBefore, membersBefore, List.flatMap_cons]
    simp only [List.append_assoc, List.cons_append, List.nil_append]

/-- The tokens of an object, taken apart at its last member. -/
theorem tokens_object_concat (ws : List (Text × Written)) (name : Text) (w : Written) :
    (object (ws ++ [(name, w)])).tokens = .openObject ::
      (membersBefore ws ++ .text name :: .colon :: (w.tokens ++ [.closeObject])) := by
  cases ws with
  | nil => simp [tokens, tokensAfterMember, membersBefore]
  | cons m ws =>
    obtain ⟨name', w'⟩ := m
    rw [List.cons_append, tokens, tokensAfterMember_concat, membersBefore, membersBefore,
      List.flatMap_cons]
    simp only [List.append_assoc, List.cons_append, List.nil_append]

theorem itemsAt_concat {depth : Nat} {w : Written} {v : Json} (hw : w.valueAt depth = .ok v) :
    ∀ {ws : List Written} {vs : List Json}, itemsAt depth ws = .ok vs →
      itemsAt depth (ws ++ [w]) = .ok (vs ++ [v])
  | [], vs, h => by
    obtain rfl := Except.ok.inj h
    rw [List.nil_append, itemsAt, hw]
    rfl
  | w' :: ws, vs, h => by
    rw [itemsAt] at h
    obtain ⟨v', hv, h⟩ := bind_eq_ok_iff.1 h
    obtain ⟨vs', hvs, h⟩ := bind_eq_ok_iff.1 h
    obtain rfl := Except.ok.inj h
    rw [List.cons_append, itemsAt, hv, itemsAt_concat hw hvs]
    rfl

theorem membersAt_concat {depth : Nat} {name : Text} {w : Written} {v : Json}
    (hw : w.valueAt depth = .ok v) :
    ∀ {ws : List (Text × Written)} {vs : List (Text × Json)}, membersAt depth ws = .ok vs →
      membersAt depth (ws ++ [(name, w)]) = .ok (vs ++ [(name, v)])
  | [], vs, h => by
    obtain rfl := Except.ok.inj h
    rw [List.nil_append, membersAt, hw]
    rfl
  | (name', w') :: ws, vs, h => by
    rw [membersAt] at h
    obtain ⟨v', hv, h⟩ := bind_eq_ok_iff.1 h
    obtain ⟨vs', hvs, h⟩ := bind_eq_ok_iff.1 h
    obtain rfl := Except.ok.inj h
    rw [List.cons_append, membersAt, hv, membersAt_concat hw hvs]
    rfl

/-! ## What leads to a state -/

/-- The tokens that open the containers of a list of frames, with what each of them holds so far. -/
inductive Opens : List Token → List Frame → Prop
  | nil : Opens [] []
  | array {ts : List Token} {outer : List Frame} {ws : List Written} {vs : List Json}
      (houter : Opens ts outer) (hdepth : outer.length < maxDepth)
      (hws : itemsAt (outer.length + 1) ws = .ok vs) :
      Opens (ts ++ .openArray :: itemsBefore ws) (.array vs.reverse :: outer)
  | object {ts : List Token} {outer : List Frame} {ws : List (Text × Written)}
      {vs : List (Text × Json)} (label : Text) (houter : Opens ts outer)
      (hdepth : outer.length < maxDepth) (hws : membersAt (outer.length + 1) ws = .ok vs) :
      Opens (ts ++ .openObject :: (membersBefore ws ++ [.text label, .colon]))
        (.object (Table.ofList vs) label :: outer)

/-- The tokens lead to the state. -/
def Reaches (ts : List Token) : State → Prop
  | .value outer => Opens ts outer
  | .firstItem outer => ∃ before, Opens before outer ∧ outer.length < maxDepth ∧
      ts = before ++ [.openArray]
  | .firstName outer => ∃ before, Opens before outer ∧ outer.length < maxDepth ∧
      ts = before ++ [.openObject]
  | .nextName members outer => ∃ before ws vs, Opens before outer ∧ outer.length < maxDepth ∧
      membersAt (outer.length + 1) ws = .ok vs ∧ members = Table.ofList vs ∧
      ts = before ++ .openObject :: membersBefore ws
  | .colon members label outer => ∃ before ws vs, Opens before outer ∧ outer.length < maxDepth ∧
      membersAt (outer.length + 1) ws = .ok vs ∧ members = Table.ofList vs ∧
      ts = before ++ .openObject :: (membersBefore ws ++ [.text label])
  | .afterItem items outer => ∃ before ws w vs, Opens before outer ∧ outer.length < maxDepth ∧
      itemsAt (outer.length + 1) (ws ++ [w]) = .ok vs ∧ items = vs.reverse ∧
      ts = before ++ .openArray :: (itemsBefore ws ++ w.tokens)
  | .afterMember members outer => ∃ before ws name w vs, Opens before outer ∧
      outer.length < maxDepth ∧
      membersAt (outer.length + 1) (ws ++ [(name, w)]) = .ok vs ∧ members = Table.ofList vs ∧
      ts = before ++ .openObject :: (membersBefore ws ++ .text name :: .colon :: w.tokens)
  | .finished v => ∃ w : Written, w.valueAt 0 = .ok v ∧ ts = w.tokens

variable {ts : List Token} {outer : List Frame}

/-- A tree that is complete is taken by the innermost container. -/
theorem reaches_close {w : Written} {v : Json} (h : Opens ts outer)
    (hw : w.valueAt outer.length = .ok v) : Reaches (ts ++ w.tokens) (State.close v outer) := by
  cases h with
  | nil => exact ⟨w, hw, rfl⟩
  | @array before _ ws vs houter hdepth hws =>
    refine ⟨before, ws, w, vs ++ [v], houter, hdepth, itemsAt_concat hw hws, ?_, ?_⟩
    · rw [List.reverse_append]
      rfl
    · rw [List.append_assoc, List.cons_append]
  | @object before _ ws vs label houter hdepth hws =>
    refine ⟨before, ws, label, w, vs ++ [(label, v)], houter, hdepth, membersAt_concat hw hws,
      (Table.putAll_append [] vs [(label, v)]).symm, ?_⟩
    simp only [List.append_assoc, List.cons_append, List.nil_append]

/-- A lexeme where a value must stand. -/
theorem reaches_takeValue {l : Lexeme} {s : State} (h : Opens ts outer)
    (hs : State.takeValue outer l = .ok s) : Reaches (ts ++ [l.token]) s := by
  obtain ⟨token, offset⟩ := l
  rw [State.takeValue] at hs
  cases token with
  | value v =>
    obtain rfl := Except.ok.inj hs
    exact reaches_close (w := scalar v) h rfl
  | text t =>
    obtain rfl := Except.ok.inj hs
    exact reaches_close (w := text t) h rfl
  | openArray =>
    obtain ⟨hdepth, hs⟩ := guarded_eq_ok_iff.1 hs
    obtain rfl := Except.ok.inj hs
    exact ⟨ts, h, hdepth, rfl⟩
  | openObject =>
    obtain ⟨hdepth, hs⟩ := guarded_eq_ok_iff.1 hs
    obtain rfl := Except.ok.inj hs
    exact ⟨ts, h, hdepth, rfl⟩
  | broken why => cases why <;> exact absurd hs (by simp)
  | _ => exact absurd hs (by simp)

/-- A lexeme where the name of a member must stand. -/
theorem reaches_takeName {ws : List (Text × Written)} {vs : List (Text × Json)} {l : Lexeme}
    {s : State} (h : Opens ts outer) (hdepth : outer.length < maxDepth)
    (hws : membersAt (outer.length + 1) ws = .ok vs)
    (hs : State.takeName (Table.ofList vs) outer l = .ok s) :
    Reaches (ts ++ .openObject :: membersBefore ws ++ [l.token]) s := by
  obtain ⟨token, offset⟩ := l
  rw [State.takeName] at hs
  cases token with
  | text t =>
    obtain rfl := Except.ok.inj hs
    exact ⟨ts, ws, vs, h, hdepth, hws, rfl, by rw [List.append_assoc, List.cons_append]⟩
  | broken why => cases why <;> exact absurd hs (by simp)
  | _ => exact absurd hs (by simp)

/-- **One step of the reader.** -/
theorem reaches_step {s s' : State} {l : Lexeme} (h : Reaches ts s) (hs : s.step l = .ok s') :
    Reaches (ts ++ [l.token]) s' := by
  cases s with
  | value outer =>
    rw [Reaches] at h
    exact reaches_takeValue h hs
  | firstItem outer =>
    obtain ⟨before, houter, hdepth, rfl⟩ := h
    obtain ⟨token, offset⟩ := l
    cases token with
    | closeArray =>
      obtain rfl := Except.ok.inj hs
      have hempty : (array []).valueAt outer.length = .ok (.array []) :=
        valueAt_array_eq_ok_iff.2 ⟨hdepth, [], rfl, rfl⟩
      rw [List.append_assoc]
      exact reaches_close houter hempty
    | _ => exact reaches_takeValue (@Opens.array _ _ [] [] houter hdepth rfl) hs
  | firstName outer =>
    obtain ⟨before, houter, hdepth, rfl⟩ := h
    obtain ⟨token, offset⟩ := l
    cases token with
    | closeObject =>
      obtain rfl := Except.ok.inj hs
      have hempty : (object []).valueAt outer.length = .ok (.object []) :=
        valueAt_object_eq_ok_iff.2 ⟨hdepth, [], rfl, rfl⟩
      rw [List.append_assoc]
      exact reaches_close houter hempty
    | _ => exact @reaches_takeName _ _ [] [] _ _ houter hdepth rfl hs
  | nextName members outer =>
    obtain ⟨before, ws, vs, houter, hdepth, hws, rfl, rfl⟩ := h
    exact reaches_takeName houter hdepth hws hs
  | colon members label outer =>
    obtain ⟨before, ws, vs, houter, hdepth, hws, rfl, rfl⟩ := h
    obtain ⟨token, offset⟩ := l
    cases token with
    | colon =>
      obtain rfl := Except.ok.inj hs
      rw [Reaches, List.append_assoc, List.cons_append, List.append_assoc]
      exact .object label houter hdepth hws
    | _ => exact absurd hs (by simp [State.step])
  | afterItem items outer =>
    obtain ⟨before, ws, w, vs, houter, hdepth, hws, rfl, rfl⟩ := h
    obtain ⟨token, offset⟩ := l
    cases token with
    | comma =>
      obtain rfl := Except.ok.inj hs
      have hitems : itemsBefore (ws ++ [w]) = itemsBefore ws ++ w.tokens ++ [.comma] := by
        rw [itemsBefore, List.flatMap_append, List.flatMap_singleton, List.append_assoc]
        rfl
      rw [Reaches, List.append_assoc, List.cons_append, ← hitems]
      exact .array houter hdepth hws
    | closeArray =>
      obtain rfl := Except.ok.inj hs
      have harray : (array (ws ++ [w])).valueAt outer.length = .ok (.array vs) :=
        valueAt_array_eq_ok_iff.2 ⟨hdepth, vs, hws, rfl⟩
      rw [List.reverse_reverse, List.append_assoc, List.cons_append, List.append_assoc,
        ← tokens_array_concat]
      exact reaches_close houter harray
    | _ => exact absurd hs (by simp [State.step])
  | afterMember members outer =>
    obtain ⟨before, ws, name, w, vs, houter, hdepth, hws, rfl, rfl⟩ := h
    obtain ⟨token, offset⟩ := l
    cases token with
    | comma =>
      obtain rfl := Except.ok.inj hs
      have hmembers : membersBefore (ws ++ [(name, w)]) =
          membersBefore ws ++ .text name :: .colon :: w.tokens ++ [.comma] := by
        rw [membersBefore, List.flatMap_append, List.flatMap_singleton, List.append_assoc]
        rfl
      refine ⟨before, ws ++ [(name, w)], vs, houter, hdepth, hws, rfl, ?_⟩
      rw [hmembers, List.append_assoc, List.cons_append]
    | closeObject =>
      obtain rfl := Except.ok.inj hs
      have hobject : (object (ws ++ [(name, w)])).valueAt outer.length =
          .ok (.object (Table.ofList vs)) := valueAt_object_eq_ok_iff.2 ⟨hdepth, vs, hws, rfl⟩
      have htokens := tokens_object_concat ws name w
      rw [List.append_assoc, List.cons_append, List.append_assoc, List.cons_append,
        List.cons_append, ← htokens]
      exact reaches_close houter hobject
    | _ => exact absurd hs (by simp [State.step])
  | finished v => exact absurd hs (by simp [State.step])

/-- **A run of the reader.** -/
theorem reaches_foldlM {ls : List Lexeme} {s s' : State} (h : Reaches ts s)
    (hs : ls.foldlM State.step s = .ok s') : Reaches (ts ++ ls.map Lexeme.token) s' := by
  induction ls generalizing ts s with
  | nil =>
    obtain rfl := Except.ok.inj hs
    rw [List.map_nil, List.append_nil]
    exact h
  | cons l ls ih =>
    rw [List.foldlM_cons] at hs
    obtain ⟨s₁, hstep, hs⟩ := bind_eq_ok_iff.1 hs
    have hrest := ih (reaches_step h hstep) hs
    rwa [List.append_assoc, List.singleton_append, ← List.map_cons] at hrest

end Written

/-! ## Values of a single word -/

/-- A value that is not put together from others. -/
def IsScalar : Json → Prop
  | .array _ => False
  | .object _ => False
  | _ => True

theorem isScalar_of_scanWord? {t rest : Text} {v : Json} (h : scanWord? t = some (.value v, rest)) :
    v.IsScalar := by
  obtain ⟨w, hw, hmap⟩ := List.exists_of_findSome?_eq_some h
  obtain ⟨r, -, heq⟩ := Option.map_eq_some_iff.1 hmap
  obtain rfl := Token.value.inj (Prod.mk.inj heq).1
  simp only [words, List.mem_cons, List.not_mem_nil, or_false] at hw
  rcases hw with rfl | rfl | rfl | rfl | rfl | rfl <;> exact trivial

theorem isScalar_of_scanNumber? {t rest : Text} {v : Json}
    (h : scanNumber? t = some (.value v, rest)) : v.IsScalar := by
  unfold scanNumber? at h
  split at h
  obtain ⟨⟨whole, r⟩, -, h⟩ := Option.bind_eq_some_iff.1 h
  dsimp only at h
  split at h
  · split at h
    · exact absurd (Prod.mk.inj (Option.some.inj h)).1 (by simp)
    · obtain rfl := Token.value.inj (Prod.mk.inj (Option.some.inj h)).1
      exact trivial
  · obtain rfl := Token.value.inj (Prod.mk.inj (Option.some.inj h)).1
    exact trivial

theorem isScalar_of_scanToken {offset after : Nat} {p : CodePoint} {rest rest' : Text} {v : Json}
    (h : scanToken offset p rest = (.value v, after, rest')) : v.IsScalar := by
  rw [scanToken] at h
  split at h
  · rename_i token htoken
    obtain rfl := (Prod.mk.inj h).1
    unfold punctuation? at htoken
    split at htoken <;> exact absurd htoken (by simp)
  · split at h
    · split at h <;> exact absurd (Prod.mk.inj h).1 (by simp)
    · split at h
      · rename_i token after hscan
        obtain rfl := (Prod.mk.inj h).1
        rcases Option.or_eq_some_iff.1 hscan with hword | ⟨-, hnumber⟩
        · exact isScalar_of_scanWord? hword
        · exact isScalar_of_scanNumber? hnumber
      · exact absurd (Prod.mk.inj h).1 (by simp)

theorem isScalar_of_mem_lexemesUpTo {limit offset : Nat} {t : Text} {l : Lexeme} {v : Json}
    (hl : l ∈ lexemesUpTo limit offset t) (hv : l.token = .value v) : v.IsScalar := by
  induction limit generalizing offset t with
  | zero => exact absurd hl List.not_mem_nil
  | succ limit ih =>
    cases t with
    | nil => exact absurd hl List.not_mem_nil
    | cons p rest =>
      rw [lexemesUpTo] at hl
      split at hl
      · exact ih hl
      · rcases hscan : scanToken offset p rest with ⟨token, after, rest'⟩
        rw [hscan] at hl
        rcases List.mem_cons.1 hl with rfl | hl
        · obtain rfl : token = .value v := hv
          exact isScalar_of_scanToken hscan
        · exact ih hl

/-! ## Documents -/

namespace Document

variable {document : Document}

/-- What can be read has a text. -/
theorem exists_text_of_read {v : Json} (h : document.read = .ok v) :
    ∃ t, document.text? = some t ∧ Json.read t = .ok v := by
  cases document with
  | inline t =>
    rw [Document.read] at h
    split at h
    · exact absurd h (by simp)
    · rename_i hmark
      exact ⟨t, if_neg hmark, h⟩
  | octets bs =>
    rw [Document.read] at h
    obtain ⟨t, ht, h⟩ := bind_eq_ok_iff.1 h
    exact ⟨t, by rw [text?, mapError_eq_ok_iff.1 ht]; rfl, h⟩

/-- **Every document that can be read writes a tree**, and the value of the tree is what is read. -/
theorem exists_writes_of_read {v : Json} (h : document.read = .ok v) :
    ∃ w, document.Writes w ∧ w.valueAt 0 = .ok v := by
  obtain ⟨t, ht, hread⟩ := exists_text_of_read h
  rw [Json.read, mapError_eq_ok_iff, ofLexemes] at hread
  obtain ⟨s, hrun, hend⟩ := bind_eq_ok_iff.1 hread
  have hstart : Written.Reaches [] (.value []) := Written.Opens.nil
  have hreaches := Written.reaches_foldlM hstart hrun
  cases s with
  | finished v' =>
    obtain rfl := Except.ok.inj hend
    obtain ⟨w, hw, htokens⟩ := hreaches
    exact ⟨w, ⟨t, ht, htokens⟩, hw⟩
  | _ => exact absurd hend (by simp [State.atEnd])

/-- **Every object that can be read is the table of its members as they are written.** -/
theorem exists_writes_object {members : Table Text Json}
    (h : document.read = .ok (.object members)) :
    ∃ ws es, document.Writes (.object ws) ∧ Written.membersAt 1 ws = .ok es ∧
      members = Table.ofList es := by
  obtain ⟨w, hwrites, hw⟩ := exists_writes_of_read h
  cases w with
  | scalar v =>
    obtain rfl : v = .object members := Except.ok.inj hw
    obtain ⟨t, -, htokens⟩ := hwrites
    obtain ⟨offset, hlexeme⟩ := Written.exists_lexeme_of_singleton htokens
    exact absurd (isScalar_of_mem_lexemesUpTo (hlexeme ▸ List.mem_cons_self) rfl) id
  | text t => exact absurd hw (by simp [Written.valueAt])
  | array ws =>
    obtain ⟨-, vs, -, heq⟩ := Written.valueAt_array_eq_ok_iff.1 hw
    exact absurd heq (by simp)
  | object ws =>
    obtain ⟨-, es, hes, heq⟩ := Written.valueAt_object_eq_ok_iff.1 hw
    exact ⟨ws, es, hwrites, hes, (Json.object.inj heq).symm⟩

end Document

end Json

end PaperVenue
