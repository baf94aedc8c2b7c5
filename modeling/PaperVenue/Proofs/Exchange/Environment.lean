import PaperVenue.Proofs.Exchange.Bookkeeping

/-!
# What the environment can tell

Take the same steps on an exchange twice, each time in an environment of its own.  What do the
answers say about the environments?

* If the exchange was given its settings, nothing at all: the answers are the same, notes included.
* If not, at most what four variables hold, blanks around it not counting and a blank value counting
  as none: if the environments agree on that wherever a step is taken, the outcomes are the same.
  The notes may differ, because a note quotes a value that is not understood as it stands.

Two runs are one list of pairs of steps, so that they go at the same pace: time is the number of the
step, and a step on the environment in one run stands beside one in the other, or beside waiting.
The steps of a pair are the same, or each of them changes at most the environment of its run
(`Session.Alongside`).  So the sessions of the two runs differ in their environments only
(`Session.inEnvironment`), and `answer_alongside` carries that along the runs.

The environment comes in at one place, `Exchange.currentSettings`.  An operation performs the same if
the settings in force are the same with their notes (`perform_inEnvironment`), and to the same
outcome if they are the same without them (`outcome_perform_inEnvironment`).
-/

namespace PaperVenue

/-! ## Reading the settings -/

namespace Settings

/-- The variables that the settings are read from. -/
def keys : List String := [marketsFileKey, marketsJsonKey, dryRunKey, balanceKey]

/-- What a variable holds, blanks around it not counting and no variable being a blank one. -/
def held (env : Environment) (key : String) : String := trimBlanks ((Table.get? env key).getD "")

/-- The environments agree on what the variables of the settings hold. -/
def Agree (env env' : Environment) : Prop := ∀ key ∈ keys, held env key = held env' key

instance (env env' : Environment) : Decidable (Agree env env') :=
  inferInstanceAs (Decidable (∀ key ∈ keys, held env key = held env' key))

@[simp] theorem trimBlanks_empty : trimBlanks "" = "" := by decide

theorem flagOf?_congr {s t : String} (h : trimBlanks s = trimBlanks t) : flagOf? s = flagOf? t := by
  rw [flagOf?, flagOf?, h]

theorem flagOf?_of_blank {s : String} (h : trimBlanks s = "") : flagOf? s = none := by
  have hempty : flagOf? "" = none := by decide +kernel
  rw [flagOf?_congr (h.trans trimBlanks_empty.symm), hempty]

theorem value_readFlag (value : Option String) (default : Bool) :
    (readFlag value default).value = (flagOf? (value.getD "")).getD default := by
  cases value with
  | none => rw [Option.getD_none, flagOf?_of_blank trimBlanks_empty]; rfl
  | some s =>
    rw [readFlag, Option.getD_some]
    cases flagOf? s with
    | some b => rfl
    | none => dsimp only; split <;> rfl

theorem value_readDecimal (value : Option String) :
    (readDecimal value).value =
      if trimBlanks (value.getD "") = "" then none
      else (Decimal.ofString? (trimBlanks (value.getD ""))).filter Decimal.isFinite := by
  cases value with
  | none => rw [Option.getD_none, if_pos trimBlanks_empty]; rfl
  | some s =>
    rw [readDecimal, Option.getD_some]
    by_cases hs : trimBlanks s = ""
    · rw [if_pos hs, if_pos hs]; rfl
    · rw [if_neg hs, if_neg hs]
      cases Decimal.ofString? (trimBlanks s) <;> rfl

/-- **A setting is read like any decimal**, if it is finite: what is blank is no decimal anyway, and
blanks around a decimal are cut off by its grammar too. -/
theorem value_readDecimal_some (s : String) :
    (readDecimal (some s)).value = (Decimal.ofString? s).filter Decimal.isFinite := by
  have hread : Decimal.ofString? (trimBlanks s) = Decimal.ofString? s := by
    rw [Decimal.ofString?, trimBlanks, String.toList_ofList, Decimal.read?_trim, Decimal.ofString?]
  rw [value_readDecimal, Option.getD_some]
  split
  · rename_i hblank
    rw [← hread, hblank]
    rfl
  · rw [hread]

theorem readText_eq (value : Option String) :
    readText value = (some (trimBlanks (value.getD ""))).filter (· ≠ "") := by
  cases value with
  | none => rw [Option.getD_none, trimBlanks_empty]; rfl
  | some s => rfl

/-- **The settings are read from what the four variables hold** and from nothing else. -/
theorem value_ofEnvironment_congr {env env' : Environment} (h : Agree env env') :
    (ofEnvironment env).value = (ofEnvironment env').value := by
  have hfile : held env marketsFileKey = held env' marketsFileKey := h _ (by decide)
  have hjson : held env marketsJsonKey = held env' marketsJsonKey := h _ (by decide)
  have hdry : held env dryRunKey = held env' dryRunKey := h _ (by decide)
  have hbalance : held env balanceKey = held env' balanceKey := h _ (by decide)
  rw [held, held] at hfile hjson hdry hbalance
  simp only [ofEnvironment, Logged.value_bind, Logged.value_pure, value_readFlag,
    value_readDecimal, readText_eq, hfile, hjson, flagOf?_congr hdry, hbalance]

end Settings

/-! ## One operation -/

namespace Surroundings

/-- The same surroundings with another environment. -/
def inEnvironment (around : Surroundings) (env : Environment) : Surroundings :=
  { around with environment := env }

end Surroundings

namespace Exchange

variable (x : Exchange) (around : Surroundings) (env : Environment)

theorem currentSettings_of_explicit (hx : x.settings.isSome) :
    x.currentSettings (around.inEnvironment env) = x.currentSettings around := by
  obtain ⟨settings, hsettings⟩ := Option.isSome_iff_exists.1 hx
  rw [currentSettings, currentSettings, hsettings]

theorem value_currentSettings_of_agree (h : Settings.Agree around.environment env) :
    (x.currentSettings (around.inEnvironment env)).value = (x.currentSettings around).value := by
  rw [value_currentSettings, value_currentSettings]
  exact congrArg x.settings.getD (Settings.value_ofEnvironment_congr h).symm

/-- With the same settings in force, notes included, an operation performs the same. -/
theorem perform_inEnvironment
    (h : x.currentSettings (around.inEnvironment env) = x.currentSettings around)
    (op : Operation) :
    x.perform (around.inEnvironment env) op = x.perform around op := by
  have hmarkets : x.markets (around.inEnvironment env) = x.markets around := by
    rw [markets, markets, buildCatalog, buildCatalog, h]
    rfl
  have haccount : x.account (around.inEnvironment env) = x.account around := by
    rw [account, account, h]
  cases op with
  | markets => rw [perform, perform, hmarkets]
  | clearMarkets => rw [perform, perform, hmarkets]
  | account => rw [perform, perform, haccount]
  | balances => rw [perform, perform, haccount]
  | submit r =>
    rw [perform, perform, submit, submit, h]
    rfl
  | _ => rfl

theorem outcome_markets_inEnvironment
    (h : (x.currentSettings (around.inEnvironment env)).value = (x.currentSettings around).value) :
    (x.markets (around.inEnvironment env)).1 = (x.markets around).1 ∧
      (x.markets (around.inEnvironment env)).2.outcome = (x.markets around).2.outcome := by
  cases hx : x.catalog with
  | some c =>
    rw [markets_of_catalog _ hx, markets_of_catalog _ hx]
    exact ⟨rfl, rfl⟩
  | none =>
    have hbuilt : builtNow x.settings (around.inEnvironment env) = builtNow x.settings around := by
      rw [builtNow, builtNow, ← value_currentSettings, ← value_currentSettings, h]
      rfl
    rw [markets_of_no_catalog _ hx, markets_of_no_catalog _ hx, outcome_buildCatalog,
      outcome_buildCatalog, hbuilt]
    exact ⟨rfl, rfl⟩

/-- With the same settings in force, their notes aside, an operation leads to the same exchange and
the same outcome. -/
theorem outcome_perform_inEnvironment
    (h : (x.currentSettings (around.inEnvironment env)).value = (x.currentSettings around).value)
    (op : Operation) :
    (x.perform (around.inEnvironment env) op).1 = (x.perform around op).1 ∧
      (x.perform (around.inEnvironment env) op).2.outcome = (x.perform around op).2.outcome := by
  have hmarkets := x.outcome_markets_inEnvironment around env h
  have haccount : (x.account (around.inEnvironment env)).value = (x.account around).value := by
    rw [account, account, Logged.value_bind, Logged.value_bind, h]
  cases op with
  | markets =>
    refine ⟨hmarkets.1, ?_⟩
    rw [perform, perform, Traced.outcome_map, Traced.outcome_map, hmarkets.2]
  | clearMarkets =>
    refine ⟨hmarkets.1, ?_⟩
    rw [perform, perform, Traced.outcome_map, Traced.outcome_map, hmarkets.2]
  | account =>
    refine ⟨rfl, ?_⟩
    rw [perform, perform, Traced.outcome_map, Traced.outcome_map, Traced.outcome_ofLogged,
      Traced.outcome_ofLogged, haccount]
  | balances =>
    refine ⟨rfl, ?_⟩
    rw [perform, perform, Traced.outcome_map, Traced.outcome_map, Traced.outcome_ofLogged,
      Traced.outcome_ofLogged, haccount]
  | submit r =>
    have hdry : x.dryRunOn (around.inEnvironment env) = x.dryRunOn around := by
      rw [dryRunOn, dryRunOn, ← value_currentSettings, ← value_currentSettings, h]
    have hfst : (x.submit (around.inEnvironment env) r).1 = (x.submit around r).1 := by
      rw [fst_submit, fst_submit, hdry]
      rfl
    refine ⟨hfst, ?_⟩
    rw [perform, perform, Traced.outcome_map, Traced.outcome_map, outcome_submit, outcome_submit,
      hdry]
    rfl
  | _ => exact ⟨rfl, rfl⟩

end Exchange

namespace Session

/-! ## One step in two environments -/

/-- A step that changes at most the environment. -/
def Step.onEnvironment : Step → Bool
  | .wait | .change (.setVariable _ _) | .change (.unsetVariable _) => true
  | _ => false

/-- The steps are the same, or both of them change at most the environment. -/
def Alongside (t t' : Step) : Prop := t' = t ∨ t.onEnvironment ∧ t'.onEnvironment

/-- The session with another environment around it. -/
def inEnvironment (s : Session) (env : Environment) : Session :=
  { s with around := s.around.inEnvironment env }

/-- Whatever is asked of the exchange now, in another environment it becomes the same exchange, and
its answer is as `R` says. -/
def PerformsAlike (R : Traced Failure Answer → Traced Failure Answer → Prop) (s : Session)
    (env : Environment) : Prop :=
  ∀ op, (s.exchange.perform (s.around.tick.inEnvironment env) op).1 =
      (s.exchange.perform s.around.tick op).1 ∧
    R (s.exchange.perform s.around.tick op).2
      (s.exchange.perform (s.around.tick.inEnvironment env) op).2

/-- A step on the environment leads where waiting leads, but for the environment. -/
theorem step_onEnvironment (s : Session) {t : Step} (ht : t.onEnvironment) :
    ∃ env, (s.step t).1 = (s.step .wait).1.inEnvironment env := by
  cases t with
  | wait => exact ⟨s.around.environment, rfl⟩
  | change c =>
    cases c with
    | setVariable key value =>
      refine ⟨(s.around.tick.change (.setVariable key value)).1.environment, ?_⟩
      rw [step, act, Surroundings.change]
      cases Surroundings.variableFault? key value <;> rfl
    | unsetVariable key => exact ⟨Table.erase s.around.environment key, rfl⟩
    | writeFile name octets => exact absurd ht Bool.false_ne_true
    | removeFile name => exact absurd ht Bool.false_ne_true
  | renew settings => exact absurd ht Bool.false_ne_true
  | perform op => exact absurd ht Bool.false_ne_true

theorem step_onEnvironment_alongside (s : Session) (env : Environment) {t t' : Step}
    (ht : t.onEnvironment) (ht' : t'.onEnvironment) :
    ∃ env', ((s.inEnvironment env).step t').1 = (s.step t).1.inEnvironment env' := by
  obtain ⟨env₁, h₁⟩ := s.step_onEnvironment ht
  obtain ⟨env₂, h₂⟩ := (s.inEnvironment env).step_onEnvironment ht'
  exact ⟨env₂, by rw [h₁, h₂]; rfl⟩

section Pairs

variable {R : Traced Failure Answer → Traced Failure Answer → Prop} {s : Session}
  {env : Environment}

/-- **Two steps alongside** keep the sessions the same, but for the environment. -/
theorem PerformsAlike.step (h : s.PerformsAlike R env) {t t' : Step} (ht : Alongside t t') :
    ∃ env', ((s.inEnvironment env).step t').1 = (s.step t).1.inEnvironment env' := by
  rcases ht with rfl | ⟨ht, ht'⟩
  · cases t' with
    | wait => exact ⟨env, rfl⟩
    | change c =>
      cases c with
      | setVariable key value => exact s.step_onEnvironment_alongside env rfl rfl
      | unsetVariable key => exact s.step_onEnvironment_alongside env rfl rfl
      | _ =>
        refine ⟨env, ?_⟩
        simp only [Session.step, act, Surroundings.change, Surroundings.tick, inEnvironment,
          Surroundings.inEnvironment]
    | renew settings => exact ⟨env, rfl⟩
    | perform op =>
      refine ⟨env, ?_⟩
      rw [step_perform, step_perform, inEnvironment, inEnvironment, ← (h op).1]
      rfl
  · exact s.step_onEnvironment_alongside env ht ht'

/-- A step that both runs take is answered alike. -/
theorem PerformsAlike.answer (h : s.PerformsAlike R env) (hR : ∀ a, R a a) (t : Step) :
    R (s.step t).2 ((s.inEnvironment env).step t).2 := by
  cases t with
  | wait => exact hR _
  | change c =>
    have hsame : ((s.inEnvironment env).step (.change c)).2 = (s.step (.change c)).2 := by
      cases c with
      | setVariable key value =>
        simp only [Session.step, act, Surroundings.change]
        cases Surroundings.variableFault? key value <;> rfl
      | _ => rfl
    rw [hsame]
    exact hR _
  | renew settings => exact hR _
  | perform op => exact (h op).2

/-- An exchange that was given its settings performs in any environment the same. -/
theorem performsAlike_of_explicit (hs : s.exchange.settings.isSome) (env : Environment) :
    s.PerformsAlike Eq env := by
  intro op
  have hcurrent := s.exchange.currentSettings_of_explicit s.around.tick env hs
  rw [s.exchange.perform_inEnvironment s.around.tick env hcurrent op]
  exact ⟨rfl, rfl⟩

/-- Where the environments agree on the settings, an exchange performs the same, notes aside. -/
theorem performsAlike_of_agree (h : Settings.Agree s.around.environment env) :
    s.PerformsAlike (fun a b => a.outcome = b.outcome) env := by
  intro op
  have hcurrent := s.exchange.value_currentSettings_of_agree s.around.tick env h
  obtain ⟨hfst, houtcome⟩ := s.exchange.outcome_perform_inEnvironment s.around.tick env hcurrent op
  exact ⟨hfst, houtcome.symm⟩

end Pairs

/-! ## Two runs -/

/-- What holds of the sessions of two runs wherever a pair of steps is taken. -/
def Throughout (p : Session → Session → Prop) : Session → Session → List (Step × Step) → Prop
  | _, _, [] => True
  | s, s', e :: ps => p s s' ∧ Throughout p (s.step e.1).1 (s'.step e.2).1 ps

/-- The environments of two sessions agree on what the settings are read from. -/
def AgreeOnSettings (s s' : Session) : Prop :=
  Settings.Agree s.around.environment s'.around.environment

/-- **Two runs side by side**: if the exchange performs alike at every pair of steps, then a step
that both runs take is answered alike. -/
theorem answer_alongside {R : Traced Failure Answer → Traced Failure Answer → Prop}
    (hR : ∀ a, R a a) {p : Session → Session → Prop}
    (hp : ∀ s env, p s (s.inEnvironment env) → s.PerformsAlike R env) {s : Session}
    {env : Environment} {past future : List (Step × Step)} {t : Step}
    (hsteps : ∀ e ∈ past, Alongside e.1 e.2)
    (h : Throughout p s (s.inEnvironment env) (past ++ (t, t) :: future)) :
    R ((s.after (past.map Prod.fst)).step t).2
      (((s.inEnvironment env).after (past.map Prod.snd)).step t).2 := by
  induction past generalizing s env with
  | nil => exact (hp s env h.1).answer hR t
  | cons e past ih =>
    obtain ⟨hnow, hrest⟩ := h
    obtain ⟨env', henv'⟩ := (hp s env hnow).step (hsteps e List.mem_cons_self)
    rw [henv'] at hrest
    rw [List.map_cons, List.map_cons, after_cons, after_cons, henv']
    exact ih (fun u hu => hsteps u (List.mem_cons_of_mem _ hu)) hrest

/-- Settings that were given explicitly stay so as long as no exchange without settings comes in. -/
theorem isSome_settings_step {s : Session} (hs : s.exchange.settings.isSome) {t : Step}
    (ht : t ≠ .renew none) : (s.step t).1.exchange.settings.isSome := by
  cases t with
  | renew settings =>
    cases settings with
    | none => exact absurd rfl ht
    | some settings => rfl
  | wait => exact hs
  | change c => exact hs
  | perform op => rw [s.settings_step (t := .perform op) rfl]; exact hs

theorem throughout_explicit {s : Session} (hs : s.exchange.settings.isSome) (s' : Session)
    {ps : List (Step × Step)} (hps : ∀ e ∈ ps, e.1 ≠ .renew none) :
    Throughout (fun s _ => s.exchange.settings.isSome) s s' ps := by
  induction ps generalizing s s' with
  | nil => trivial
  | cons e ps ih =>
    have he : e.1 ≠ .renew none := hps e List.mem_cons_self
    exact ⟨hs, ih (isSome_settings_step hs he) _ fun u hu => hps u (List.mem_cons_of_mem _ hu)⟩

/-- **The environment tells nothing beyond the settings.**  Take two runs that start with the same
exchange and the same files, each in an environment of its own, and that take the same steps but for
steps on the environment.  If the exchange was given its settings, and so was every one that takes
its place, a step that both runs take is answered the same, notes included.  And whatever its
settings, a step that both runs take has the same outcome if the environments agree on what the
settings are read from wherever a step is taken. -/
theorem answers_in_two_environments (x : Exchange) (files : Files) (now : Moment)
    (env env' : Environment) (ps : List (Step × Step)) (hps : ∀ e ∈ ps, Alongside e.1 e.2) :
    let start : Session := { around := { environment := env, files, now }, exchange := x }
    let start' : Session := { around := { environment := env', files, now }, exchange := x }
    (x.settings.isSome → (∀ e ∈ ps, e.1 ≠ .renew none) →
      ∀ past t future, ps = past ++ (t, t) :: future →
        ∃ answer, (start.run (ps.map Prod.fst)).2[past.length]? = some answer ∧
          (start'.run (ps.map Prod.snd)).2[past.length]? = some answer) ∧
    (Throughout AgreeOnSettings start start' ps →
      ∀ past t future, ps = past ++ (t, t) :: future →
        ∃ answer answer', (start.run (ps.map Prod.fst)).2[past.length]? = some answer ∧
          (start'.run (ps.map Prod.snd)).2[past.length]? = some answer' ∧
          answer.outcome = answer'.outcome) := by
  intro start start'
  have hstart : start' = start.inEnvironment env' := rfl
  constructor
  · rintro hx hrenew past t future rfl
    have hsteps : ∀ e ∈ past, Alongside e.1 e.2 := fun e he => hps e (List.mem_append_left _ he)
    have hanswer := answer_alongside (fun _ => rfl)
      (fun s env (hs : s.exchange.settings.isSome) => performsAlike_of_explicit hs env) hsteps
      (throughout_explicit (s := start) hx (start.inEnvironment env') hrenew)
    refine ⟨_, start.getElem?_answers_map Prod.fst past (t, t) future, ?_⟩
    rw [hanswer]
    exact start'.getElem?_answers_map Prod.snd past (t, t) future
  · rintro hagree past t future rfl
    have hsteps : ∀ e ∈ past, Alongside e.1 e.2 := fun e he => hps e (List.mem_append_left _ he)
    have hanswer := answer_alongside (R := fun a b => a.outcome = b.outcome) (fun _ => rfl)
      (fun s env (hs : AgreeOnSettings s (s.inEnvironment env)) => performsAlike_of_agree hs)
      hsteps hagree
    exact ⟨_, _, start.getElem?_answers_map Prod.fst past (t, t) future,
      start'.getElem?_answers_map Prod.snd past (t, t) future, hanswer⟩

/-- Two runs that look at the account: the balance is set in both, with blanks around it in the
second, where another variable is set as well. -/
def blankTen : List (Step × Step) :=
  [(.change (.setVariable balanceKey "10"), .change (.setVariable balanceKey " 10 ")),
    (.wait, .change (.setVariable "HOME" "/")),
    (.perform .account, .perform .account)]

/-- The account is the same in both, by settings of the exchange or by those of the environment. -/
theorem answers_in_two_environments_blankTen :
    (∀ e ∈ blankTen, Alongside e.1 e.2) ∧ (∀ e ∈ blankTen, e.1 ≠ .renew none) ∧
      Throughout AgreeOnSettings {} {} blankTen ∧
      (∃ answer,
        (run { exchange := { settings := some {} } } (blankTen.map Prod.fst)).2[2]? = some answer ∧
        (run { exchange := { settings := some {} } } (blankTen.map Prod.snd)).2[2]? =
          some answer) ∧
      ∃ answer answer', (run {} (blankTen.map Prod.fst)).2[2]? = some answer ∧
        (run {} (blankTen.map Prod.snd)).2[2]? = some answer' ∧
        answer.outcome = answer'.outcome := by
  have hps : ∀ e ∈ blankTen, Alongside e.1 e.2 := by
    rw [blankTen, List.forall_mem_cons, List.forall_mem_cons, List.forall_mem_singleton]
    exact ⟨Or.inr ⟨rfl, rfl⟩, Or.inr ⟨rfl, rfl⟩, Or.inl rfl⟩
  have hrenew : ∀ e ∈ blankTen, e.1 ≠ .renew none := by
    rw [blankTen, List.forall_mem_cons, List.forall_mem_cons, List.forall_mem_singleton]
    exact ⟨nofun, nofun, nofun⟩
  have hagree : Throughout AgreeOnSettings {} {} blankTen := by
    refine ⟨fun _ _ => rfl, ?_, ?_, trivial⟩
    · change Settings.Agree [(balanceKey, "10")] [(balanceKey, " 10 ")]
      decide +kernel
    · change Settings.Agree [(balanceKey, "10")] [(balanceKey, " 10 "), ("HOME", "/")]
      decide +kernel
  have hsplit : blankTen = blankTen.take 2 ++ [(.perform .account, .perform .account)] := rfl
  have hlength : (blankTen.take 2).length = 2 := rfl
  have hexplicit := (answers_in_two_environments { settings := some {} } [] 0 [] [] blankTen hps).1
    rfl hrenew _ _ _ hsplit
  have himplicit := (answers_in_two_environments {} [] 0 [] [] blankTen hps).2 hagree _ _ _ hsplit
  rw [hlength] at hexplicit himplicit
  exact ⟨hps, hrenew, hagree, hexplicit, himplicit⟩

end Session

end PaperVenue
