import PaperVenue.CommandLine.Invocation
import PaperVenue.Proofs.Outcome
import Mathlib.Data.List.Infix

/-!
# Help comes only on request

A command line can stop the program over a request for help.  It does so only if one of its
arguments is such a request, as it was typed: `-h`, with or without something joined to it, or a
beginning of `--help` that is longer than the two dashes (`asksForHelp`).

The arguments are sorted into words one by one, so this is first a matter of a single argument
(`not_help_of_classify`): an option that prints help is spelled `-h` or `--help`, and an argument is
recognised as an option with that spelling only if it begins with it, or is a beginning of it.  A
word that cannot lead to help is `Word.Quiet`, and the taking of quiet words never stops over help
(`noHelp_consume`).  The program reads the arguments of a command by another grammar, from the words
that are left; these are quiet as they are spelled.
-/

namespace PaperVenue

namespace CommandLine

/-- Does an argument ask for help? -/
def asksForHelp (s : String) : Bool :=
  begins "-h" s || ["--h", "--he", "--hel", "--help"].contains s

/-- Whatever became of it, it did not stop over a request for help. -/
def NoHelp {β : Type} (x : Except Stop β) : Prop := ∀ program, x ≠ .error (.help program)

theorem noHelp_ok {β : Type} (b : β) : NoHelp (.ok b) := fun _ => nofun

theorem noHelp_usage {β : Type} (program message : String) :
    NoHelp (.error (.usage program message) : Except Stop β) := fun _ => nofun

theorem NoHelp.bind {β γ : Type} {x : Except Stop β} {f : β → Except Stop γ} (hx : NoHelp x)
    (hf : ∀ b, x = .ok b → NoHelp (f b)) : NoHelp (x >>= f) := by
  cases x with
  | ok b => exact hf b rfl
  | error e =>
    intro program he
    exact hx program (congrArg Except.error (Except.error.inj he))

/-- What one thing stopped over may be handed on as what another stops over. -/
theorem NoHelp.error {β γ : Type} {x : Except Stop β} (hx : NoHelp x) {e : Stop}
    (he : x = .error e) : NoHelp (.error e : Except Stop γ) := fun program h =>
  hx program (he.trans (congrArg Except.error (Except.error.inj h)))

theorem begins_iff {a b : String} : begins a b ↔ a.toList <+: b.toList := by
  rw [begins, List.isPrefixOf_iff_prefix]

/-! ## One argument -/

/-- Beyond the two dashes every beginning of `--help` asks for help. -/
theorem asksForHelp_of_begins {s : String} (hs : begins s "--help") (hlong : 2 ≤ s.toList.length)
    (hdashes : s ≠ "--") : asksForHelp s := by
  have hmem : s.toList ∈ "--help".toList.inits := (List.mem_inits _ _).2 (begins_iff.1 hs)
  have hinits : "--help".toList.inits =
      ["", "-", "--", "--h", "--he", "--hel", "--help"].map String.toList := by decide
  rw [hinits, List.mem_map] at hmem
  obtain ⟨t, ht, hts⟩ := hmem
  obtain rfl : t = s := String.toList_injective hts
  have hasks : ∀ t ∈ ["", "-", "--", "--h", "--he", "--hel", "--help"],
      2 ≤ t.toList.length → t ≠ "--" → asksForHelp t := by decide
  exact hasks t ht hlong hdashes

namespace Grammar

variable {α : Type} (g : Grammar α)

/-- How an argument comes to be an option with a certain spelling: it is a beginning of the
spelling, or it brings a text behind the spelling, or, behind two dashes, behind a beginning of it. -/
structure Fits (s : String) (r : Recognised α) : Prop where
  typed_eq : r.typed = s
  mem_options : r.rule ∈ g.options
  mem_flags : r.flag ∈ r.rule.flags
  fits : r.text = none ∧ begins s r.flag ∨
    r.text.isSome ∧ (begins r.flag s ∨ begins "--" r.flag)

theorem mem_spellings {e : String × OptionRule α} :
    e ∈ g.spellings ↔ e.2 ∈ g.options ∧ e.1 ∈ e.2.flags := by
  rw [spellings, List.mem_flatMap]
  constructor
  · rintro ⟨o, ho, he⟩
    obtain ⟨f, hf, rfl⟩ := List.mem_map.1 he
    exact ⟨ho, hf⟩
  · rintro ⟨ho, hf⟩
    exact ⟨e.2, ho, List.mem_map.2 ⟨e.1, hf, rfl⟩⟩

theorem of_spelledOut?_eq_some {flag : String} {o : OptionRule α}
    (h : g.spelledOut? flag = some o) : o ∈ g.options ∧ flag ∈ o.flags := by
  rw [spelledOut?, Option.map_eq_some_iff] at h
  obtain ⟨e, he, rfl⟩ := h
  have hflag : e.1 = flag := by simpa using List.find?_some he
  rw [← hflag]
  exact g.mem_spellings.1 (List.mem_of_find?_eq_some he)

/-- Without an `=` there is nothing to split, and otherwise the front begins the whole. -/
theorem splitAtEquals_spec (cs : List Char) :
    (splitAtEquals cs).1.toList <+: cs ∧
      ((splitAtEquals cs).2 = none → (splitAtEquals cs).1.toList = cs) := by
  have hfront : cs.takeWhile (· ≠ '=') <+: cs := List.takeWhile_prefix _
  rw [splitAtEquals]
  dsimp only
  rw [String.toList_ofList]
  refine ⟨hfront, fun hnone => ?_⟩
  split at hnone
  · exact absurd hnone nofun
  · rename_i hdrop
    exact hfront.eq_of_length_le (List.drop_eq_nil_iff.1 hdrop)

theorem fits_of_mem_candidates {s : String} {r : Recognised α} (h : r ∈ g.candidates s) :
    g.Fits s r := by
  rw [candidates] at h
  split at h
  · rename_i cs hcs
    obtain ⟨-, hwhole⟩ := splitAtEquals_spec s.toList
    have hdashes : "--".toList <+: (splitAtEquals s.toList).1.toList := by
      rw [hcs, splitAtEquals]
      dsimp only
      rw [String.toList_ofList, String.toList_ofList]
      exact ⟨cs.takeWhile (· ≠ '='), rfl⟩
    cases hsplit : splitAtEquals s.toList with
    | mk front text =>
      rw [hsplit] at h hwhole hdashes
      obtain ⟨e, he, rfl⟩ := List.mem_map.1 h
      rw [List.mem_filter, mem_spellings] at he
      obtain ⟨⟨hoption, hflag⟩, hbegins⟩ := he
      refine ⟨rfl, hoption, hflag, ?_⟩
      rw [begins_iff] at hbegins
      cases text with
      | none => exact Or.inl ⟨rfl, begins_iff.2 (hwhole rfl ▸ hbegins)⟩
      | some t => exact Or.inr ⟨rfl, Or.inr (begins_iff.2 (hdashes.trans hbegins))⟩
  · obtain ⟨e, he, hr⟩ := List.mem_filterMap.1 h
    obtain ⟨hoption, hflag⟩ := g.mem_spellings.1 he
    split at hr
    · rename_i htwo
      obtain rfl := Option.some.inj hr
      have hbegins : begins e.1 s := begins_iff.2 (htwo ▸ List.take_prefix 2 s.toList)
      exact ⟨rfl, hoption, hflag, Or.inr ⟨rfl, Or.inl hbegins⟩⟩
    · split at hr
      · rename_i hbegins
        obtain rfl := Option.some.inj hr
        exact ⟨rfl, hoption, hflag, Or.inl ⟨rfl, hbegins⟩⟩
      · exact absurd hr nofun

theorem fits_of_classify {s : String} {r : Recognised α} (h : g.classify s = .ok (.option r)) :
    g.Fits s r := by
  rw [classify] at h
  split at h
  · rw [classifyDashed] at h
    obtain ⟨hfront, -⟩ := splitAtEquals_spec s.toList
    cases hsplit : splitAtEquals s.toList with
    | mk front text =>
      rw [hsplit] at h hfront
      dsimp only at h
      split at h
      · rename_i hspelled
        obtain rfl := Word.option.inj (Except.ok.inj h)
        obtain ⟨hoption, hflag⟩ := g.of_spelledOut?_eq_some hspelled
        exact ⟨rfl, hoption, hflag, Or.inl ⟨rfl, begins_iff.2 List.prefix_rfl⟩⟩
      · rename_i rule t _ hspelled
        obtain rfl := Word.option.inj (Except.ok.inj h)
        obtain ⟨u, -, hu⟩ := Option.bind_eq_some_iff.1 hspelled
        obtain ⟨o, ho, hpair⟩ := Option.map_eq_some_iff.1 hu
        obtain ⟨rfl, rfl⟩ := Prod.mk.inj hpair
        obtain ⟨hoption, hflag⟩ := g.of_spelledOut?_eq_some ho
        exact ⟨rfl, hoption, hflag, Or.inr ⟨rfl, Or.inl (begins_iff.2 hfront)⟩⟩
      · split at h
        · rename_i hcandidates
          obtain rfl := Word.option.inj (Except.ok.inj h)
          exact g.fits_of_mem_candidates (hcandidates ▸ List.mem_singleton.2 rfl)
        · split at h <;> exact absurd (Except.ok.inj h) nofun
        · exact absurd h nofun
  · exact absurd (Except.ok.inj h) nofun

theorem takeHelp_ne_help_of_text {r : Recognised α} (hflag : r.flag = "--help") {t : String}
    (ht : r.text = some t) (program : String) : g.takeHelp r ≠ .help program := by
  have hunused : unusedText r.flag t = t := by rw [hflag]; rfl
  rw [takeHelp, ht]
  dsimp only
  rw [hunused]
  by_cases hempty : t = "" <;> simp [hempty, optionError]

/-- Only `-h` and `--help` take no text. -/
def HelpIsSpelled : Prop :=
  ∀ o ∈ g.options, o.take = none → ∀ flag ∈ o.flags, flag = "-h" ∨ flag = "--help"

theorem two_le_length_of_classify {g : Grammar α} {s : String} {r : Recognised α}
    (h : g.classify s = .ok (.option r)) : 2 ≤ s.toList.length := by
  rw [classify] at h
  split at h
  · rename_i hs
    rw [hs]
    exact Nat.le_add_left 2 _
  · exact absurd (Except.ok.inj h) nofun

/-- **An argument that does not ask for help** is no option that prints it. -/
theorem not_help_of_classify {g : Grammar α} (hg : g.HelpIsSpelled) {s : String}
    (hs : asksForHelp s = false) (hdashes : s ≠ "--") {r : Recognised α}
    (h : g.classify s = .ok (.option r)) (htake : r.rule.take = none) (program : String) :
    g.takeHelp r ≠ .help program := by
  obtain ⟨-, hoption, hmem, hfits⟩ := g.fits_of_classify h
  have hlong := two_le_length_of_classify h
  rcases hg r.rule hoption htake r.flag hmem with hflag | hflag
  · -- spelled `-h`: the argument begins with it, or is it
    have hbegins : begins "-h" s := by
      rw [hflag] at hfits
      rcases hfits with ⟨-, hbegins⟩ | ⟨-, hbegins | hbegins⟩
      · rw [begins_iff] at hbegins ⊢
        rw [hbegins.eq_of_length_le hlong]
      · exact hbegins
      · exact absurd hbegins (by decide)
    rw [asksForHelp, hbegins] at hs
    exact absurd hs nofun
  · -- spelled `--help`: a text that came with it is an error, and otherwise it is a beginning
    cases htext : r.text with
    | some t => exact g.takeHelp_ne_help_of_text hflag htext program
    | none =>
      rw [htext, hflag] at hfits
      rcases hfits with ⟨-, hbegins⟩ | ⟨hsome, -⟩
      · rw [asksForHelp_of_begins hbegins hlong hdashes] at hs
        exact absurd hs nofun
      · exact absurd hsome nofun

end Grammar

/-! ## Words -/

/-- A word that does not ask for help, neither where it stands nor if it is read again. -/
structure Word.Quiet {α : Type} (g : Grammar α) (w : Word α) : Prop where
  spelled : asksForHelp (Grammar.spelled w) = false
  takeHelp : ∀ r, w = .option r → r.rule.take = none → ∀ program, g.takeHelp r ≠ .help program

namespace Grammar

variable {α : Type} {g : Grammar α}

theorem spelled_of_classify {s : String} {w : Word α} (h : g.classify s = .ok w) :
    spelled w = s := by
  cases w with
  | option r => exact (g.fits_of_classify h).typed_eq
  | _ =>
    rw [classify] at h
    split at h
    · rw [classifyDashed] at h
      dsimp only at h
      split at h
      · cases h
      · cases h
      · split at h
        · cases h
        · split at h <;> cases h <;> rfl
        · cases h
    · cases h <;> rfl

theorem quiet_of_classify (hg : g.HelpIsSpelled) {s : String} (hs : asksForHelp s = false)
    (hdashes : s ≠ "--") {w : Word α} (h : g.classify s = .ok w) : w.Quiet g := by
  refine ⟨?_, ?_⟩
  · rw [spelled_of_classify h, hs]
  · rintro r rfl
    exact not_help_of_classify hg hs hdashes h

theorem noHelp_classify (s : String) : NoHelp (g.classify s) := by
  rw [classify]
  split
  · rw [classifyDashed]
    dsimp only
    split
    · exact noHelp_ok _
    · exact noHelp_ok _
    · split
      · exact noHelp_ok _
      · split <;> exact noHelp_ok _
      · exact noHelp_usage _ _
  · exact noHelp_ok _

theorem noHelp_words (args : List String) : NoHelp (g.words args) := by
  induction args with
  | nil => exact noHelp_ok _
  | cons s rest ih =>
    rw [words]
    split
    · exact noHelp_ok _
    · exact (noHelp_classify s).bind fun w _ => ih.bind fun ws _ => noHelp_ok _

/-- What does not ask for help as it is typed is a quiet word. -/
theorem quiet_of_words (hg : g.HelpIsSpelled) {args : List String}
    (hargs : ∀ s ∈ args, asksForHelp s = false) {ws : List (Word α)} (h : g.words args = .ok ws) :
    ∀ w ∈ ws, w.Quiet g := by
  induction args generalizing ws with
  | nil =>
    obtain rfl := Except.ok.inj h
    exact nofun
  | cons s rest ih =>
    rw [List.forall_mem_cons] at hargs
    rw [words] at h
    split at h
    · rename_i hdashes
      obtain rfl := Except.ok.inj h
      rw [List.forall_mem_cons]
      refine ⟨⟨hargs.1, nofun⟩, fun w hw => ?_⟩
      obtain ⟨t, ht, rfl⟩ := List.mem_map.1 hw
      exact ⟨hargs.2 t ht, nofun⟩
    · rename_i hdashes
      obtain ⟨w, hw, h⟩ := bind_eq_ok_iff.1 h
      obtain ⟨ws', hws', h⟩ := bind_eq_ok_iff.1 h
      obtain rfl := Except.ok.inj h
      rw [List.forall_mem_cons]
      exact ⟨quiet_of_classify hg hargs.1 hdashes hw, ih hargs.2 hws'⟩

theorem noHelp_takeOption {r : Recognised α} (hr : Word.Quiet g (.option r)) (next : Option String)
    (p : Progress α) : NoHelp (g.takeOption r next p) := by
  have htext : ∀ take text, NoHelp (g.takeText r take text p) := by
    intro take text
    rw [takeText]
    split
    · exact noHelp_usage _ _
    · exact noHelp_ok _
  rw [takeOption]
  split
  · rename_i htake
    exact fun program he => hr.takeHelp r rfl htake program (Except.error.inj he)
  · split
    · exact (htext _ _).bind fun _ _ => noHelp_ok _
    · exact (htext _ _).bind fun _ _ => noHelp_ok _
    · exact noHelp_usage _ _

end Grammar

/-- A positional argument that is taken without help, unless one of its texts asks for it. -/
def Positional.Quiet {α : Type} (a : Positional α) : Prop :=
  ∀ texts v, (∀ t ∈ texts, asksForHelp t = false) → NoHelp (a.take texts v)

namespace Grammar

variable {α : Type} {g : Grammar α}

theorem noHelp_takePositional {a : Positional α} (ha : a.Quiet) {texts : List String}
    (htexts : ∀ t ∈ texts, asksForHelp t = false) (p : Progress α) :
    NoHelp (takePositional a texts p) :=
  (ha texts p.value htexts).bind fun _ _ => noHelp_ok _

theorem noHelp_takePositional_one {a : Positional α} (ha : a.Quiet) {w : Word α} (hw : w.Quiet g)
    (p : Progress α) : NoHelp (takePositional a [spelled w] p) :=
  noHelp_takePositional ha (List.forall_mem_singleton.2 hw.spelled) p

/-- Quiet words do not ask for help as they are spelled. -/
theorem spelled_quiet {ws : List (Word α)} (hws : ∀ w ∈ ws, w.Quiet g) :
    ∀ t ∈ ws.map spelled, asksForHelp t = false := by
  intro t ht
  obtain ⟨w, hw, rfl⟩ := List.mem_map.1 ht
  exact (hws w hw).spelled

/-- **Taking quiet words** does not stop over help. -/
theorem noHelp_consume (ws : List (Word α)) (free : Option (Positional α)) (p : Progress α)
    (hws : ∀ w ∈ ws, w.Quiet g) (hfree : ∀ a ∈ free, a.Quiet) : NoHelp (g.consume ws free p) := by
  fun_induction consume g ws free p with
  | case1 => exact noHelp_ok _
  | case2 s rest free p ih => exact ih (List.forall_mem_cons.1 hws).2 hfree
  -- an option and an ordinary word, which it takes or not
  | case3 r t rest free p e he =>
    exact (noHelp_takeOption (hws _ List.mem_cons_self) _ p).error he
  | case4 r t rest free p q hq ih =>
    rw [List.forall_mem_cons, List.forall_mem_cons] at hws
    exact ih hws.2.2 hfree
  | case5 r t rest free p q hq ih => exact ih (List.forall_mem_cons.1 hws).2 hfree
  -- an option by itself
  | case6 r rest free p hrest e he =>
    exact (noHelp_takeOption (hws _ List.mem_cons_self) _ p).error he
  | case7 r rest free p hrest q used hq ih => exact ih (List.forall_mem_cons.1 hws).2 hfree
  -- the positional argument and a separator behind it
  | case8 s t rest a p ha => exact noHelp_takePositional (hfree a rfl) (spelled_quiet hws) p
  | case9 s t rest a p ha e he =>
    exact (noHelp_takePositional_one (hfree a rfl) (hws _ List.mem_cons_self) p).error he
  | case10 s t rest a p ha q hq ih =>
    rw [List.forall_mem_cons, List.forall_mem_cons] at hws
    exact ih hws.2.2 nofun
  -- the positional argument behind a separator
  | case11 s t rest a p ha => exact noHelp_takePositional (hfree a rfl) (spelled_quiet hws) p
  | case12 s t rest a p ha e he =>
    rw [List.forall_mem_cons, List.forall_mem_cons] at hws
    exact (noHelp_takePositional_one (hfree a rfl) hws.2.1 p).error he
  | case13 s t rest a p ha q hq ih =>
    rw [List.forall_mem_cons, List.forall_mem_cons] at hws
    exact ih hws.2.2 nofun
  -- the positional argument by itself
  | case14 s rest a p hrest ha =>
    exact noHelp_takePositional (hfree a rfl) (spelled_quiet hws) p
  | case15 s rest a p hrest ha e he =>
    exact (noHelp_takePositional_one (hfree a rfl) (hws _ List.mem_cons_self) p).error he
  | case16 s rest a p hrest ha q hq ih => exact ih (List.forall_mem_cons.1 hws).2 nofun
  -- words that are left
  | case17 s rest p ih => exact ih (List.forall_mem_cons.1 hws).2 nofun
  | case18 s rest free p hrest ih => exact ih (List.forall_mem_cons.1 hws).2 hfree

/-- Reading arguments that do not ask for help does not stop over help. -/
theorem noHelp_parse (hg : g.HelpIsSpelled) (hpositional : ∀ a ∈ g.positional, a.Quiet) (init : α)
    {args : List String} (hargs : ∀ s ∈ args, asksForHelp s = false) :
    NoHelp (g.parse init args) := by
  refine (noHelp_words args).bind fun ws hws => ?_
  refine (noHelp_consume ws _ _ (quiet_of_words hg hargs hws) hpositional).bind fun p _ => ?_
  split
  · exact noHelp_ok _
  · exact noHelp_usage _ _

end Grammar

/-! ## The program -/

theorem helpIsSpelled_of_options {α : Type} {g : Grammar α} {rest : List (OptionRule α)}
    (h : g.options = helpOption :: rest) (hrest : ∀ o ∈ rest, o.take.isSome) : g.HelpIsSpelled := by
  intro o ho htake flag hflag
  rw [h, List.mem_cons] at ho
  rcases ho with rfl | ho
  · simpa [helpOption] using hflag
  · exact absurd (hrest o ho) (by simp [htake])

theorem helpIsSpelled_plainGrammar (name : String) : (plainGrammar name).HelpIsSpelled :=
  helpIsSpelled_of_options rfl fun _ ho => absurd ho List.not_mem_nil

theorem helpIsSpelled_orderForm : OrderForm.grammar.HelpIsSpelled := by
  refine helpIsSpelled_of_options rfl ?_
  simp only [List.forall_mem_cons]
  exact ⟨rfl, rfl, rfl, rfl, rfl, rfl, nofun⟩

theorem helpIsSpelled_grammar : grammar.HelpIsSpelled := by
  refine helpIsSpelled_of_options rfl ?_
  simp only [List.forall_mem_cons]
  exact ⟨rfl, rfl, nofun⟩

theorem noHelp_readCommand (name : String) {args : List String}
    (hargs : ∀ s ∈ args, asksForHelp s = false) : NoHelp (readCommand name args) := by
  have hplain : ∀ name, NoHelp ((plainGrammar name).parse () args) := fun name =>
    Grammar.noHelp_parse (helpIsSpelled_plainGrammar name) nofun () hargs
  have hsymbol : ∀ a ∈ OrderForm.grammar.positional, a.Quiet := by
    rintro a ⟨⟩ texts f -
    exact noHelp_ok _
  have hform : NoHelp (OrderForm.grammar.parse {} args) :=
    Grammar.noHelp_parse helpIsSpelled_orderForm hsymbol {} hargs
  unfold readCommand
  split
  · exact (hplain _).bind fun _ _ => noHelp_ok _
  · exact (hplain _).bind fun _ _ => noHelp_ok _
  · exact hform.bind fun _ _ => noHelp_ok _
  · exact noHelp_usage _ _

/-- **A command line that does not ask for help** is read, or its usage is wrong. -/
theorem noHelp_ofArguments {args : List String} (hargs : ∀ s ∈ args, asksForHelp s = false) :
    NoHelp (Invocation.ofArguments args) := by
  have hcommand : ∀ a ∈ grammar.positional, a.Quiet := by
    rintro a ⟨⟩ texts v htexts
    have htail : ∀ t ∈ texts.tail, asksForHelp t = false := fun t ht =>
      htexts t (List.mem_of_mem_tail ht)
    exact (noHelp_readCommand _ htail).bind fun _ _ => noHelp_ok _
  refine (Grammar.noHelp_parse helpIsSpelled_grammar hcommand ({}, []) hargs).bind fun r _ => ?_
  obtain ⟨⟨invocation, inner⟩, outer⟩ := r
  dsimp only
  split
  · exact noHelp_ok _
  · exact noHelp_usage _ _

end CommandLine

end PaperVenue
