import PaperVenue.Exchange.Session
import PaperVenue.Proofs.Run

/-!
# The catalog is built once, and only by success

An exchange has no catalog until a query of the markets succeeds, and the catalog of that query for
good.  In between the environment and the files may change as they like, and queries may fail.

The run itself says which catalog that is: `Session.firstSeen` is the catalog that the first
successful query of a run answers.  The invariant is that this is the catalog the exchange keeps
(`catalog_after`); its step, `catalog_step`, says that one step fills an empty place with what it
sees, and otherwise leaves the place alone.  From the invariant, `markets_answer_in_run` reads off
what a query answers at any point of a run.

Two operations query the markets, `markets` and `clearMarkets`; `Operation.view?` says what each of
them shows of the catalog.
-/

namespace PaperVenue

/-- What an operation shows of the catalog, if it queries the markets. -/
def Operation.view? : Operation → Option (Catalog → Answer)
  | .markets => some .catalog
  | .clearMarkets => some fun c => .count c.length
  | _ => none

/-- What building the catalog gives at a moment, from the settings that are in force then: settings
that were given explicitly, or else those of the environment. -/
def builtNow (settings : Option Settings) (around : Surroundings) : Except Failure Catalog :=
  (Catalog.build (settings.getD (Settings.ofEnvironment around.environment).value)
    around.files).outcome

/-! ## One operation -/

namespace Exchange

variable (x : Exchange) (around : Surroundings)

theorem value_currentSettings :
    (x.currentSettings around).value =
      x.settings.getD (Settings.ofEnvironment around.environment).value := by
  rw [currentSettings]
  cases x.settings <;> rfl

/-- Building writes notes around the catalog and changes nothing about it. -/
theorem outcome_buildCatalog :
    (x.buildCatalog around).outcome = builtNow x.settings around := by
  rw [builtNow, ← value_currentSettings, buildCatalog, Traced.outcome_bind,
    Traced.outcome_ofLogged]
  dsimp only
  rw [Traced.outcome_bind]
  cases (Catalog.build (x.currentSettings around).value around.files).outcome <;> rfl

theorem markets_of_catalog {x : Exchange} {c : Catalog} (h : x.catalog = some c) :
    x.markets around = (x, pure c) := by
  rw [markets, h]

theorem markets_of_no_catalog {x : Exchange} (h : x.catalog = none) :
    x.markets around =
      (x.keepCatalog (builtNow x.settings around), x.buildCatalog around) := by
  rw [markets, h, ← outcome_buildCatalog]

/-- A query keeps what it answers. -/
theorem catalog_markets :
    (x.markets around).1.catalog = x.catalog.or (x.markets around).2.outcome.toOption := by
  cases h : x.catalog with
  | some c => rw [markets_of_catalog around h, h]; rfl
  | none =>
    rw [markets_of_no_catalog around h, outcome_buildCatalog]
    cases builtNow x.settings around with
    | ok c => rfl
    | error e => exact h

theorem settings_markets : (x.markets around).1.settings = x.settings := by
  cases h : x.catalog with
  | some c => rw [markets_of_catalog around h]
  | none =>
    rw [markets_of_no_catalog around h]
    cases builtNow x.settings around <;> rfl

theorem perform_of_view {op : Operation} {f : Catalog → Answer} (h : op.view? = some f) :
    x.perform around op = ((x.markets around).1, f <$> (x.markets around).2) := by
  cases op <;> cases h <;> rfl

/-- An operation that does not query the markets does not touch the catalog. -/
theorem catalog_perform_of_no_view {op : Operation} (h : op.view? = none) :
    (x.perform around op).1.catalog = x.catalog := by
  cases op <;> first | rfl | exact absurd h (by simp [Operation.view?])

theorem settings_perform (op : Operation) : (x.perform around op).1.settings = x.settings := by
  cases op with
  | markets => exact settings_markets x around
  | clearMarkets => exact settings_markets x around
  | _ => rfl

end Exchange

namespace Session

/-! ## One step -/

/-- Does a step leave the session the exchange that it has? -/
def Step.keepsExchange : Step → Bool
  | .renew _ => false
  | _ => true

/-- The catalog that a step gets to see: a query of the markets sees one if it succeeds. -/
def seen? (s : Session) : Step → Option Catalog
  | .perform op => op.view?.bind fun _ => (s.exchange.markets s.around).2.outcome.toOption
  | _ => none

/-- **A step fills an empty place** with the catalog that it sees, and leaves a full one alone. -/
theorem catalog_step (s : Session) {t : Step} (ht : t.keepsExchange) :
    (s.step t).1.exchange.catalog = s.exchange.catalog.or (s.seen? t) := by
  cases t with
  | wait => exact (Option.or_none).symm
  | change c => exact (Option.or_none).symm
  | renew settings => exact absurd ht Bool.false_ne_true
  | perform op =>
    cases hq : op.view? with
    | none =>
      rw [seen?, hq, Option.bind_none, Option.or_none]
      exact Exchange.catalog_perform_of_no_view s.exchange s.around.tick hq
    | some f =>
      rw [seen?, hq, Option.bind_some]
      exact (congrArg (fun p => p.1.catalog)
        (Exchange.perform_of_view s.exchange s.around.tick hq)).trans
        (Exchange.catalog_markets s.exchange s.around)

theorem settings_step (s : Session) {t : Step} (ht : t.keepsExchange) :
    (s.step t).1.exchange.settings = s.exchange.settings := by
  cases t with
  | wait => rfl
  | change c => rfl
  | renew settings => exact absurd ht Bool.false_ne_true
  | perform op => exact Exchange.settings_perform s.exchange s.around.tick op

/-! ## Runs -/

/-- The session after steps. -/
def after (s : Session) (ts : List Step) : Session := (s.run ts).1

/-- The catalog that the first successful query of a run answers. -/
def firstSeen (s : Session) : List Step → Option Catalog
  | [] => none
  | t :: ts => (s.seen? t).or (firstSeen (s.step t).1 ts)

theorem after_cons (s : Session) (t : Step) (ts : List Step) :
    s.after (t :: ts) = (s.step t).1.after ts := rfl

/-- A session is run step by step. -/
theorem runs : Runs step run := ⟨fun _ => rfl, fun _ _ _ => rfl⟩

theorem after_concat (s : Session) (ts : List Step) (t : Step) :
    s.after (ts ++ [t]) = ((s.after ts).step t).1 :=
  runs.fst_concat s ts t

/-- The answer to a step of a run is the one that the session gives after the steps before. -/
theorem getElem?_answers (s : Session) (past : List Step) (t : Step) (future : List Step) :
    (s.run (past ++ t :: future)).2[past.length]? = some ((s.after past).step t).2 :=
  runs.getElem?_snd s past t future

/-- The same for a run whose steps are read off a list of other things. -/
theorem getElem?_answers_map {ι : Type} (s : Session) (f : ι → Step) (past : List ι) (e : ι)
    (future : List ι) :
    (s.run ((past ++ e :: future).map f)).2[past.length]? =
      some ((s.after (past.map f)).step (f e)).2 := by
  have hget := s.getElem?_answers (past.map f) (f e) (future.map f)
  rw [List.length_map] at hget
  rw [List.map_append]
  exact hget

/-- **The exchange keeps what the first successful query saw**, whatever came later. -/
theorem catalog_after (s : Session) {ts : List Step} (hts : ∀ t ∈ ts, t.keepsExchange) :
    (s.after ts).exchange.catalog = s.exchange.catalog.or (s.firstSeen ts) := by
  induction ts generalizing s with
  | nil => exact (Option.or_none).symm
  | cons t ts ih =>
    rw [after_cons, ih _ fun u hu => hts u (List.mem_cons_of_mem _ hu),
      catalog_step s (hts t List.mem_cons_self), Option.or_assoc]
    rfl

theorem settings_after (s : Session) {ts : List Step} (hts : ∀ t ∈ ts, t.keepsExchange) :
    (s.after ts).exchange.settings = s.exchange.settings := by
  induction ts generalizing s with
  | nil => rfl
  | cons t ts ih =>
    rw [after_cons, ih _ fun u hu => hts u (List.mem_cons_of_mem _ hu),
      settings_step s (hts t List.mem_cons_self)]

/-! ## Queries in a run -/

/-- A query of an exchange that has a catalog answers it, and writes no note. -/
theorem query_of_catalog {s : Session} {c : Catalog} (hc : s.exchange.catalog = some c)
    {op : Operation} {f : Catalog → Answer} (hop : op.view? = some f) :
    (s.step (.perform op)).2.outcome = .ok (f c) ∧ (s.step (.perform op)).2.notes = [] := by
  have hanswer : (s.step (.perform op)).2 = f <$> (pure c : Traced Failure Catalog) := by
    have hquery := congrArg Prod.snd (Exchange.perform_of_view s.exchange s.around.tick hop)
    rw [Exchange.markets_of_catalog s.around.tick hc] at hquery
    exact hquery
  rw [hanswer]
  exact ⟨rfl, rfl⟩

/-- A query of an exchange without a catalog answers what building gives now, and changes nothing if
that is an error. -/
theorem query_of_no_catalog {s : Session} (hc : s.exchange.catalog = none)
    {op : Operation} {f : Catalog → Answer} (hop : op.view? = some f) :
    (s.step (.perform op)).2.outcome = (builtNow s.exchange.settings s.around).map f ∧
      ∀ e, (s.step (.perform op)).2.outcome = .error e →
        (s.step (.perform op)).1.exchange = s.exchange := by
  have hquery : s.exchange.perform s.around.tick op =
      (s.exchange.keepCatalog (builtNow s.exchange.settings s.around),
        f <$> s.exchange.buildCatalog s.around.tick) := by
    rw [Exchange.perform_of_view s.exchange s.around.tick hop,
      Exchange.markets_of_no_catalog s.around.tick hc]
    rfl
  have houtcome : (s.step (.perform op)).2.outcome =
      (builtNow s.exchange.settings s.around).map f := by
    have hsnd := congrArg (fun p => p.2.outcome) hquery
    rw [Traced.outcome_map, Exchange.outcome_buildCatalog] at hsnd
    exact hsnd
  refine ⟨houtcome, fun e he => ?_⟩
  have hexchange := congrArg Prod.fst hquery
  rw [houtcome] at he
  cases hbuilt : builtNow s.exchange.settings s.around with
  | ok c => rw [hbuilt] at he; exact absurd he (by simp [Except.map])
  | error e' => rw [hbuilt] at hexchange; exact hexchange

/-- **The catalog is built once, and only by success.**  In a run of steps on one fresh exchange, a
query of the markets before the first one that succeeds answers what building the catalog gives from
the settings and files of that moment, and leaves the exchange as it is if that is an error.  From
then on every query answers the catalog of that first one, and writes no note. -/
theorem markets_answer_in_run (settings : Option Settings) (around : Surroundings)
    (past : List Step) (hpast : ∀ t ∈ past, t.keepsExchange) (op : Operation)
    {f : Catalog → Answer} (hop : op.view? = some f) (future : List Step) :
    let start : Session := { around, exchange := { settings } }
    let now := start.after past
    ∃ answer, (start.run (past ++ .perform op :: future)).2[past.length]? = some answer ∧
      match start.firstSeen past with
      | none => answer.outcome = (builtNow settings now.around).map f ∧
          ∀ e, answer.outcome = .error e →
            (start.after (past ++ [.perform op])).exchange = now.exchange
      | some c => answer.outcome = .ok (f c) ∧ answer.notes = [] := by
  intro start now
  have hsettings : now.exchange.settings = settings := settings_after start hpast
  have hcatalog : now.exchange.catalog = start.firstSeen past := catalog_after start hpast
  refine ⟨_, getElem?_answers start past (.perform op) future, ?_⟩
  cases hseen : start.firstSeen past with
  | none =>
    have hquery := query_of_no_catalog (hcatalog.trans hseen) hop
    rw [hsettings] at hquery
    rw [after_concat]
    exact hquery
  | some c => exact query_of_catalog (hcatalog.trans hseen) hop

/-- A run in which the first query fails on a broken document, the second one succeeds without it,
and the broken document is back at the end. -/
def brokenThenBuilt : List Step :=
  [.change (.setVariable marketsJsonKey "["), .perform .markets,
    .change (.unsetVariable marketsJsonKey), .perform .clearMarkets,
    .change (.setVariable marketsJsonKey "[")]

/-- After that run the broken document is not looked at: the example markets are kept. -/
theorem markets_answer_after_brokenThenBuilt :
    (∀ t ∈ brokenThenBuilt, t.keepsExchange) ∧
      ∃ answer,
        ((({} : Session).run (brokenThenBuilt ++ [.perform .markets])).2)[5]? = some answer ∧
        answer.outcome = .ok (.catalog (Catalog.normalize Catalog.examples)) ∧
        answer.notes = [] := by
  have hkeeps : ∀ t ∈ brokenThenBuilt, t.keepsExchange := by decide
  have hseen : firstSeen {} brokenThenBuilt = some (Catalog.normalize Catalog.examples) := by
    decide +kernel
  have hrun := markets_answer_in_run none {} brokenThenBuilt hkeeps .markets rfl []
  dsimp only at hrun
  rw [hseen] at hrun
  exact ⟨hkeeps, hrun⟩

end Session

end PaperVenue
