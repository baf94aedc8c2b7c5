import PaperVenue.CommandLine.Report
import PaperVenue.Proofs.CommandLine.Help
import PaperVenue.Proofs.EnvFile.Loadable
import PaperVenue.Proofs.Exchange.Bookkeeping
import PaperVenue.Proofs.Market.Source

/-!
# How the program ends

The program is meant to end in one of three ways: over its usage, with the exit code 0, or with the
exit code 1 and the message of a venue error, and with the last exactly if the call that the command
makes ends in that error (`EndsWell`).

It does not always do so.  There are three places where another failure gets through, whatever the
environment and the files are, and `endsWell_iff` says exactly when: a log level that was left blank,
an environment file that cannot be loaded, and a command that cannot be carried out in the environment
that is in force then (`Command.Carriable`).  The account always can.  The markets cannot if the name
of the catalog file holds a NUL.  A submission cannot if one of its words was left blank, or if in a
dry run an amount was left blank or has no plain form.

Help is left out: a command line that asks for it ends in a way of its own.  `Help` says that no other
one does.
-/

namespace PaperVenue

namespace CommandLine

/-- The call that a command makes, unless a word is missing for it. -/
def Command.operation? : Command → Option Operation
  | .markets => some .markets
  | .account => some .account
  | .submit form => form.request.toOption.map .submit

/-- The call of a command line, made to a fresh exchange after the environment file was loaded, ends
in this venue error. -/
def Raises (args : List String) (env : Environment) (files : Files) (e : VenueError) : Prop :=
  ∃ invocation environment op, Invocation.ofArguments args = .ok invocation ∧
    EnvFile.load env files invocation.envFile = .ok environment ∧
    invocation.command.operation? = some op ∧
    (({} : Exchange).perform { environment, files } op).2.outcome = .error (.venue e)

/-- The program ends over its usage; or well, with no venue error; or with the message of the venue
error that its call ended in, and with no output. -/
inductive EndsWell (args : List String) (env : Environment) (files : Files) : Prop where
  | usage (program message : String)
      (h : (run args env files).outcome = .ok (.stopped (.usage program message)))
  | done (output : Text) (h : (run args env files).outcome = .ok (.finished 0 output []))
      (hcall : ∀ e, ¬ Raises args env files e)
  | failed (e : VenueError)
      (h : (run args env files).outcome = .ok (.finished 1 [] (line ("Error: " ++ e.message))))
      (hcall : Raises args env files e)

/-- In this environment a command can be carried out, if only to end in a venue error. -/
def Command.Carriable (environment : Environment) : Command → Prop
  | .markets => ∀ name ∈ (Settings.ofEnvironment environment).value.marketsFile,
      '\x00' ∉ name.toList
  | .account => True
  | .submit form => form.side.isSome ∧ form.orderType.isSome ∧ form.timeInForce.isSome ∧
      ((Settings.ofEnvironment environment).value.dryRun = false ∨
        (∃ d ∈ form.quantity, d.Reportable) ∧ ∃ d ∈ form.price, d.Reportable)

/-! ## Venue errors and other failures -/

/-- A success or a venue error. -/
def Answered {α : Type} (x : Except Failure α) : Prop := ∀ f, x = .error f → ∃ e, f = .venue e

theorem answered_ok {α : Type} (a : α) : Answered (.ok a) := fun _ => nofun

theorem answered_venue {α : Type} (e : VenueError) :
    Answered (.error (.venue e) : Except Failure α) := fun _ h => ⟨e, (Except.error.inj h).symm⟩

theorem not_answered {α : Type} {f : Failure} (hf : ∀ e, f ≠ .venue e) :
    ¬ Answered (.error f : Except Failure α) := by
  intro h
  obtain ⟨e, he⟩ := h f rfl
  exact hf e he

theorem answered_map_iff {α β : Type} (f : α → β) (x : Except Failure α) :
    Answered (x.map f) ↔ Answered x := by
  cases x <;> simp [Answered, Except.map]

theorem answered_bind_iff {α β : Type} {x : Except Failure α} {f : α → Except Failure β}
    (hf : ∀ a, Answered (f a)) : Answered (x >>= f) ↔ Answered x := by
  cases x with
  | ok a => exact iff_of_true (hf a) (answered_ok a)
  | error e => simp [Answered, bind, Except.bind]

/-! ## The markets -/

/-- The document that the settings name is found, or a venue error says why not, unless the name of
its file holds a NUL. -/
theorem answered_source_iff (settings : Settings) (files : Files) :
    Answered (Catalog.source settings files) ↔
      ∀ name ∈ settings.marketsFile, '\x00' ∉ name.toList := by
  rw [Catalog.source]
  cases settings.marketsFile with
  | none => exact iff_of_true (answered_ok _) (by simp)
  | some name =>
    by_cases hempty : name = ""
    · rw [Option.filter_some, if_neg (by simp [hempty])]
      exact iff_of_true (answered_ok _) (by simp [hempty])
    · rw [Option.filter_some, if_pos (by simp [hempty])]
      dsimp only
      by_cases hnul : '\x00' ∈ name.toList
      · rw [if_pos (List.contains_iff_mem.2 hnul)]
        exact iff_of_false (not_answered (by simp)) fun h => h name rfl hnul
      · rw [if_neg (mt List.contains_iff_mem.1 hnul)]
        refine iff_of_true ?_ (by simpa using hnul)
        cases files.read (Path.ofString name).text with
        | error fault => exact answered_venue _
        | ok octets => exact answered_ok _

/-- What was found is decoded, or a venue error says why not. -/
theorem answered_decoded (document? : Option Json.Document) :
    Answered (Catalog.decoded document?) := by
  cases document? with
  | none => exact answered_ok _
  | some document =>
    rw [Catalog.decoded]
    cases (Catalog.decode document).outcome with
    | ok c => exact answered_ok c
    | error e => exact answered_venue e

variable (around : Surroundings)

theorem answered_markets_iff :
    Answered (({} : Exchange).markets around).2.outcome ↔
      Command.markets.Carriable around.environment := by
  rw [Exchange.markets_of_no_catalog around rfl, Exchange.outcome_buildCatalog, builtNow,
    Catalog.outcome_build, answered_map_iff, Catalog.outcome_load,
    answered_bind_iff answered_decoded]
  exact answered_source_iff _ _

/-! ## A submission -/

namespace OrderForm

variable (f : OrderForm)

/-- A form without a blank word describes a request, and one with a blank word describes none. -/
theorem exists_request_iff :
    (∃ r, f.request = .ok r) ↔ f.side.isSome ∧ f.orderType.isSome ∧ f.timeInForce.isSome := by
  rw [request]
  cases f.side <;> cases f.orderType <;> cases f.timeInForce <;>
    simp [chosen, bind, Except.bind, pure, Except.pure]

/-- The request has the amounts of the form, and zero for a blank one. -/
theorem amounts_of_request {f : OrderForm} {r : OrderRequest} (h : f.request = .ok r) :
    r.quantity = f.quantity.getD .zero ∧ r.price = f.price.getD .zero := by
  rw [request] at h
  obtain ⟨side, -, h⟩ := bind_eq_ok_iff.1 h
  obtain ⟨orderType, -, h⟩ := bind_eq_ok_iff.1 h
  obtain ⟨timeInForce, -, h⟩ := bind_eq_ok_iff.1 h
  obtain rfl := Except.ok.inj h
  exact ⟨rfl, rfl⟩

end OrderForm

theorem lackFailure_ne_venue (f : OrderForm) (e : VenueError) : lackFailure f ≠ .venue e := by
  rw [lackFailure]
  split <;> exact nofun

/-- What a request comes to on a fresh exchange. -/
theorem outcome_submit_fresh (r : OrderRequest) :
    (({} : Exchange).submit around r).2.outcome =
      if ({} : Exchange).dryRunOn around then
        (Gate.announce (({} : Ledger).submit around.now r).1).outcome
      else .error (.venue .liveTrading) := by
  rw [Exchange.outcome_submit]
  cases ({} : Exchange).dryRunOn around <;> rfl

theorem outcome_submit_of_request {f : OrderForm} {r : OrderRequest} (hr : f.request = .ok r) :
    (submit around f).outcome =
      if f.hasAmounts || !({} : Exchange).dryRunOn around then
        (({} : Exchange).submit around r).2.outcome
      else .error (lackFailure f) := by
  have hmode : (({} : Exchange).currentSettings around).value.dryRun =
      ({} : Exchange).dryRunOn around := rfl
  rw [submit, hr, Traced.outcome_bind, Traced.outcome_ofExcept]
  dsimp only [mapError_ok]
  rw [hmode]
  split
  · rfl
  · rw [Traced.outcome_bind, Traced.outcome_ofLogged]
    rfl

theorem outcome_output_submit (f : OrderForm) :
    (output around (.submit f)).outcome =
      (submit around f).outcome >>= fun o =>
        (o.text.mapError .arithmetic).map fun t => line (Text.ofString t) := by
  rw [output, Traced.outcome_bind]
  cases (submit around f).outcome with
  | error e => rfl
  | ok o =>
    dsimp only
    rw [Traced.outcome_bind, Traced.outcome_ofExcept]
    cases htext : o.text <;> simp only [bind, Except.bind, htext] <;> rfl

/-- An order with amounts that can be shown has a text. -/
theorem exists_text_of_reportable {o : Order} (hq : o.request.quantity.Reportable)
    (hp : o.request.price.Reportable) : ∃ t, o.text = .ok t := by
  obtain ⟨q, hq⟩ := (Decimal.exists_plainText_iff _).2 hq
  obtain ⟨p, hp⟩ := (Decimal.exists_plainText_iff _).2 hp
  rw [Order.text, hq, hp]
  exact ⟨_, rfl⟩

/-- In a dry run a request of two amounts is answered if they can be shown. -/
theorem answered_shown_iff (o : Order) :
    Answered ((Gate.announce o).outcome >>= fun o =>
        (o.text.mapError .arithmetic).map fun t => line (Text.ofString t)) ↔
      o.request.quantity.Reportable ∧ o.request.price.Reportable := by
  constructor
  · intro h
    by_contra ho
    obtain ⟨⟨s, hs⟩, -⟩ := Gate.announce_of_not_reportable ho
    rw [hs] at h
    exact not_answered (by simp) h
  · rintro ⟨hq, hp⟩
    obtain ⟨t, ht⟩ := exists_text_of_reportable hq hp
    rw [(Gate.announce_of_reportable hq hp).1]
    simp only [bind, Except.bind, ht]
    exact answered_ok _

/-- Without a request nothing is submitted. -/
theorem outcome_submit_of_no_request {f : OrderForm} {fault : ValueFault}
    (hr : f.request = .error fault) : (submit around f).outcome = .error (.value fault) := by
  rw [submit, hr, Traced.outcome_bind, Traced.outcome_ofExcept]
  rfl

theorem answered_output_submit_iff (f : OrderForm) :
    Answered (output around (.submit f)).outcome ↔
      (Command.submit f).Carriable around.environment := by
  have hwords := f.exists_request_iff
  cases hr : f.request with
  | error fault =>
    rw [outcome_output_submit, outcome_submit_of_no_request around hr]
    refine iff_of_false (not_answered (by simp)) fun h => ?_
    obtain ⟨r, hr'⟩ := hwords.2 ⟨h.1, h.2.1, h.2.2.1⟩
    exact absurd (hr.symm.trans hr') (by simp)
  | ok r =>
    obtain ⟨hside, htype, htime⟩ := hwords.1 ⟨r, hr⟩
    obtain ⟨hquantity, hprice⟩ := OrderForm.amounts_of_request hr
    rw [outcome_output_submit, outcome_submit_of_request around hr, outcome_submit_fresh,
      Command.Carriable, and_iff_right hside, and_iff_right htype, and_iff_right htime]
    change _ ↔ ({} : Exchange).dryRunOn around = false ∨ _
    cases hdry : ({} : Exchange).dryRunOn around with
    | false =>
      rw [Bool.not_false, Bool.or_true]
      exact iff_of_true (answered_venue _) (Or.inl rfl)
    | true =>
      have hshown := answered_shown_iff (({} : Ledger).submit around.now r).1
      have hrequest : (({} : Ledger).submit around.now r).1.request = r := rfl
      rw [hrequest, hquantity, hprice] at hshown
      have hlack : ¬ Answered (Except.error (lackFailure f) : Except Failure Text) :=
        not_answered (lackFailure_ne_venue f)
      cases hq : f.quantity with
      | none =>
        rw [OrderForm.hasAmounts, hq]
        exact iff_of_false hlack (by simp)
      | some q =>
        cases hp : f.price with
        | none =>
          rw [OrderForm.hasAmounts, hq, hp]
          exact iff_of_false hlack (by simp)
        | some p =>
          rw [hq, hp] at hshown
          rw [OrderForm.hasAmounts, hq, hp]
          simpa using hshown

/-! ## All commands -/

/-- **A command is answered** exactly if it can be carried out. -/
theorem answered_output_iff (c : Command) :
    Answered (output around c).outcome ↔ c.Carriable around.environment := by
  cases c with
  | markets =>
    rw [output, Traced.outcome_map, answered_map_iff]
    exact answered_markets_iff around
  | account =>
    rw [output, Traced.outcome_map, answered_map_iff, Traced.outcome_ofLogged]
    exact iff_of_true (answered_ok _) trivial
  | submit form => exact answered_output_submit_iff around form

/-- To show an order adds no venue error. -/
theorem shown_eq_venue_iff (x : Except Failure Order) (e : VenueError) :
    (x >>= fun o => (o.text.mapError .arithmetic).map fun t => line (Text.ofString t)) =
        .error (.venue e) ↔ x = .error (.venue e) := by
  cases x with
  | error f => simp [bind, Except.bind]
  | ok o => cases htext : o.text <;> simp [bind, Except.bind, Except.map, Except.mapError, htext]

/-- **What a command prints as an error** is the venue error that its call ends in. -/
theorem output_eq_venue_iff (c : Command) (e : VenueError) :
    (output around c).outcome = .error (.venue e) ↔
      ∃ op, c.operation? = some op ∧
        (({} : Exchange).perform around op).2.outcome = .error (.venue e) := by
  cases c with
  | markets =>
    simp only [Command.operation?, Option.some.injEq, exists_eq_left']
    rw [output, Exchange.perform, Traced.outcome_map, Traced.outcome_map, map_eq_error_iff,
      map_eq_error_iff]
  | account =>
    simp only [Command.operation?, Option.some.injEq, exists_eq_left']
    rw [output, Exchange.perform, Traced.outcome_map, Traced.outcome_map, map_eq_error_iff,
      map_eq_error_iff]
  | submit f =>
    rw [outcome_output_submit, shown_eq_venue_iff, Command.operation?]
    cases hr : f.request with
    | error fault =>
      rw [outcome_submit_of_no_request around hr]
      simp [Except.toOption]
    | ok r =>
      simp only [Except.toOption, Option.map_some, Option.some.injEq, exists_eq_left']
      rw [Exchange.perform, Traced.outcome_map, map_eq_error_iff,
        outcome_submit_of_request around hr]
      cases hmade : f.hasAmounts || !({} : Exchange).dryRunOn around with
      | true => rfl
      | false =>
        have hdry : ({} : Exchange).dryRunOn around = true := by
          simpa using (Bool.or_eq_false_iff.1 hmade).2
        rw [outcome_submit_fresh, if_pos hdry]
        refine iff_of_false (fun h => ?_) (Gate.announce_ne_venue _ e)
        exact lackFailure_ne_venue f e (Except.error.inj h)

/-! ## Command lines -/

theorem outcome_finish (answer : Traced Failure Text) :
    (finish answer).outcome = match answer.outcome with
      | .ok t => .ok (.finished 0 t [])
      | .error (.venue e) => .ok (.finished 1 [] (line ("Error: " ++ e.message)))
      | .error f => .error f := by
  rw [finish]
  cases hanswer : answer.outcome with
  | ok t => rw [Traced.outcome_map, hanswer]; rfl
  | error f =>
    cases f with
    | venue e => rw [Traced.outcome_bind]; rfl
    | _ => rw [Traced.outcome_map, hanswer]; rfl

variable {args : List String} {env : Environment} {files : Files} {invocation : Invocation}

theorem outcome_run (hread : Invocation.ofArguments args = .ok invocation) (env : Environment)
    (files : Files) :
    (run args env files).outcome =
      if invocation.logLevel.isSome then
        EnvFile.load env files invocation.envFile >>= fun environment =>
          (finish (output { environment, files } invocation.command)).outcome
      else .error (.missing .logLevel) := by
  rw [run, hread]
  dsimp only
  rw [carryOut]
  cases invocation.logLevel with
  | none => rfl
  | some level =>
    cases hload : EnvFile.load env files invocation.envFile with
    | error f => rfl
    | ok environment => rfl

/-- The call of a command line that was read. -/
theorem raises_iff (hread : Invocation.ofArguments args = .ok invocation)
    {environment : Environment}
    (hload : EnvFile.load env files invocation.envFile = .ok environment) (e : VenueError) :
    Raises args env files e ↔
      (output { environment, files } invocation.command).outcome = .error (.venue e) := by
  rw [output_eq_venue_iff]
  constructor
  · rintro ⟨invocation', environment', op, hread', hload', hop, hraise⟩
    obtain rfl := Except.ok.inj (hread.symm.trans hread')
    obtain rfl := Except.ok.inj (hload.symm.trans hload')
    exact ⟨op, hop, hraise⟩
  · rintro ⟨op, hop, hraise⟩
    exact ⟨invocation, environment, op, hread, hload, hop, hraise⟩

theorem not_endsWell_of_error {f : Failure} (h : (run args env files).outcome = .error f) :
    ¬ EndsWell args env files := by
  intro hwell
  cases hwell with
  | usage program message hstop => exact absurd (h.symm.trans hstop) nofun
  | done output hdone hcall => exact absurd (h.symm.trans hdone) nofun
  | failed e hfailed hcall => exact absurd (h.symm.trans hfailed) nofun

/-- A command that is reached ends well exactly if it is answered. -/
theorem endsWell_iff_answered (hread : Invocation.ofArguments args = .ok invocation)
    (hlevel : invocation.logLevel.isSome) {environment : Environment}
    (hload : EnvFile.load env files invocation.envFile = .ok environment) :
    EndsWell args env files ↔
      Answered (output { environment, files } invocation.command).outcome := by
  have hraises := raises_iff hread hload
  have hrun := outcome_run hread env files
  rw [if_pos hlevel, hload] at hrun
  replace hrun := hrun.trans (outcome_finish _)
  cases hanswer : (output { environment, files } invocation.command).outcome with
  | ok t =>
    rw [hanswer] at hrun hraises
    exact iff_of_true (.done t hrun fun e he => absurd ((hraises e).1 he) nofun) (answered_ok t)
  | error f =>
    rw [hanswer] at hrun hraises
    by_cases hvenue : ∃ e, f = .venue e
    · obtain ⟨e, rfl⟩ := hvenue
      exact iff_of_true (.failed e hrun ((hraises e).2 rfl)) (answered_venue e)
    · have herror : (run args env files).outcome = .error f := by
        cases f with
        | venue e => exact absurd ⟨e, rfl⟩ hvenue
        | _ => exact hrun
      exact iff_of_false (not_endsWell_of_error herror) (not_answered fun e he => hvenue ⟨e, he⟩)

/-- **The program ends well** exactly if the command line that was read holds a log level, its
environment file can be loaded, and its command can be carried out after that.

The files are those that the outer layer can see: the environment files up the tree and the catalog
file, under the paths that lead to them.  A file that is there and may not be read is outside of
this, and so is an output that cannot take a character, as a lone surrogate. -/
theorem endsWell_iff {args : List String} (hargs : ∀ s ∈ args, asksForHelp s = false)
    (env : Environment) (files : Files) :
    EndsWell args env files ↔
      ∀ invocation, Invocation.ofArguments args = .ok invocation →
        invocation.logLevel.isSome ∧ EnvFile.Loadable env files invocation.envFile ∧
        ∀ environment, EnvFile.load env files invocation.envFile = .ok environment →
          invocation.command.Carriable environment := by
  cases hread : Invocation.ofArguments args with
  | error stop =>
    have hrun : (run args env files).outcome = .ok (.stopped stop) := by
      rw [run, hread]
      rfl
    cases stop with
    | help program => exact absurd hread (noHelp_ofArguments hargs program)
    | usage program message =>
      exact iff_of_true (.usage program message hrun) fun _ h => absurd h (by simp)
  | ok invocation =>
    have hrun := outcome_run hread env files
    constructor
    · rintro hwell _ ⟨⟩
      have hlevel : invocation.logLevel.isSome := by
        cases hlevel : invocation.logLevel with
        | some level => rfl
        | none =>
          rw [hlevel] at hrun
          exact absurd hwell (not_endsWell_of_error hrun)
      refine ⟨hlevel, ?_, fun environment hload => ?_⟩
      · rw [← EnvFile.exists_load_iff]
        cases hload : EnvFile.load env files invocation.envFile with
        | ok environment => exact ⟨environment, rfl⟩
        | error f =>
          rw [if_pos hlevel, hload] at hrun
          exact absurd hwell (not_endsWell_of_error hrun)
      · exact (answered_output_iff _ _).1 ((endsWell_iff_answered hread hlevel hload).1 hwell)
    · intro h
      obtain ⟨hlevel, hloadable, hcarriable⟩ := h invocation rfl
      obtain ⟨environment, hload⟩ := (EnvFile.exists_load_iff _ _ _).2 hloadable
      exact (endsWell_iff_answered hread hlevel hload).2
        ((answered_output_iff _ _).2 (hcarriable environment hload))

/-- A submission of an amount that is a signaling not-a-number. -/
def signalingArguments : List String := ["submit", "S", "--quantity", "sNaN"]

/-- With dry-run off such a submission ends well, because its amounts are never shown. -/
theorem endsWell_iff_signalingArguments :
    (∀ s ∈ signalingArguments, asksForHelp s = false) ∧
      EndsWell signalingArguments [(dryRunKey, "no")] [] := by
  have hargs : ∀ s ∈ signalingArguments, asksForHelp s = false := by decide
  refine ⟨hargs, (endsWell_iff hargs _ []).2 fun invocation hread => ?_⟩
  have hform : Invocation.ofArguments signalingArguments =
      .ok { command := .submit { symbol := "S", quantity := some (.nan false true 0) } } := by rfl
  obtain rfl := Except.ok.inj (hform.symm.trans hread)
  have hnone : EnvFile.chosen? [] none = none := by decide
  refine ⟨rfl, Or.inr fun name hchosen => ?_, fun environment hload => ?_⟩
  · exact absurd (hnone.symm.trans (EnvFile.chosen?_eq_some_iff.2 hchosen)) (by simp)
  have hlive : (Settings.ofEnvironment [(dryRunKey, "no")]).value.dryRun = false := by
    decide +kernel
  obtain rfl : [(dryRunKey, "no")] = environment := Except.ok.inj hload
  exact ⟨rfl, rfl, rfl, Or.inl hlive⟩

/-- **The program does not always end well**: in a dry run the same submission ends it with a
signal. -/
theorem not_forall_endsWell :
    ¬ ∀ (args : List String) (env : Environment) (files : Files),
      (∀ s ∈ args, asksForHelp s = false) → EndsWell args env files := by
  intro h
  have hrun : (run signalingArguments [] []).outcome = .error (.arithmetic .invalidOperation) := by
    rfl
  exact not_endsWell_of_error hrun (h signalingArguments [] [] (by decide))

end CommandLine

end PaperVenue
