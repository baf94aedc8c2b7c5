import PaperVenue.Proofs.CommandLine.Ending
import PaperVenue.Proofs.Exchange.Environment

/-!
# An environment file and an export

A process can be given its settings by an environment file, or by exporting them to it.  Loading a
file leads to the environment that one would get by exporting its bindings, except those whose key
is set already (`HasEnvFile.exists_load`).  And all that a command asks of an environment is what
its variables are.  So the two ways should come to the same, and `run_exported` says that they do.

There are three provisos, and `not_forall_run_exported` says that none of them can be left out.

* Without the file there must be no environment file at all (`LacksEnvFile`).  If none is named, then
  one that lies in a directory above takes the place of the one that is missing.
* The catalog file must read the same in both runs.  It may happen to be the environment file as
  well, and then only the run that is given this file has a catalog to read.
* The notes of the loader are left out.  It notes each line that it cannot read, and who exports a
  file writes no such line.

What was set before wins, even if it is blank.  A blank variable counts as one that is not set, so
then the file is not asked and the default holds.
-/

namespace PaperVenue

namespace EnvFile

/-- The second environment has what the first one has, and besides those entries that have a value
and whose key the first one lacks. -/
def ExtendsBy (env : Environment) (entries : Table String (Option String)) (env' : Environment) :
    Prop :=
  ∀ key, Table.get? env' key = (Table.get? env key).or (Table.get? entries key).join

variable {env env' : Environment} {entries : Table String (Option String)}

theorem ExtendsBy.get?_of_some (h : ExtendsBy env entries env') {key value : String}
    (hkey : Table.get? env key = some value) : Table.get? env' key = some value := by
  rw [h key, hkey, Option.some_or]

/-- Entries without values add nothing. -/
theorem extendsBy_of_forall_none (h : ∀ e ∈ entries, e.2 = none) : ExtendsBy env entries env := by
  intro key
  have hnone : (Table.get? entries key).join = none := by
    cases hentry : Table.get? entries key with
    | none => rfl
    | some value =>
      obtain ⟨e, he, rfl⟩ := Option.map_eq_some_iff.1 hentry
      exact h e (List.mem_of_find?_eq_some he)
  rw [hnone, Option.or_none]

theorem storable_of_forall_none (h : ∀ e ∈ entries, e.2 = none) : Storable env entries := by
  intro e he value hvalue
  rw [h e he] at hvalue
  cases hvalue

/-- One entry is set if it has a value and its key is missing. -/
theorem get?_of_setMissing {entry : String × Option String}
    (h : setMissing env entry = .ok env') (key : String) :
    Table.get? env' key = (Table.get? env key).or (if entry.1 = key then entry.2 else none) := by
  rw [setMissing] at h
  split at h
  · rename_i hvalue
    obtain rfl := Except.ok.inj h
    simp [hvalue]
  · rename_i value hvalue
    split at h
    · rename_i hhas
      obtain rfl := Except.ok.inj h
      obtain ⟨old, hold⟩ := Option.isSome_iff_exists.1 hhas
      by_cases hkey : entry.1 = key
      · subst hkey
        rw [hold, Option.some_or]
      · simp [hkey]
    · rename_i hhas
      split at h
      · exact absurd h (by simp)
      · obtain rfl := Except.ok.inj h
        have hnone : Table.get? env entry.1 = none := by simpa [Table.has] using hhas
        rw [Table.get?_put]
        by_cases hkey : entry.1 = key
        · subst hkey
          simp [hnone, hvalue]
        · simp [hkey]

/-- **Setting the missing entries extends the environment by them.** -/
theorem extendsBy_of_foldlM (hkeys : (Table.keys entries).Nodup)
    (h : entries.foldlM setMissing env = .ok env') : ExtendsBy env entries env' := by
  induction entries generalizing env with
  | nil =>
    obtain rfl := Except.ok.inj h
    intro key
    simp
  | cons entry entries ih =>
    obtain ⟨hnew, hrest⟩ := List.nodup_cons.1 hkeys
    rw [List.foldlM_cons] at h
    obtain ⟨env₁, h₁, h⟩ := bind_eq_ok_iff.1 h
    intro key
    rw [ih hrest h key, get?_of_setMissing h₁ key, Table.get?_cons, Option.or_assoc]
    congr 1
    split
    · rename_i hkey
      -- no later entry has this key
      have hnone : Table.get? entries key = none := Table.get?_eq_none_iff.2 (hkey ▸ hnew)
      rw [hnone]
      simp
    · simp

end EnvFile

/-! ## Settings -/

namespace Settings

/-- The settings are read from the values of variables. -/
theorem ofEnvironment_congr {env env' : Environment}
    (h : ∀ key, Table.get? env key = Table.get? env' key) :
    ofEnvironment env = ofEnvironment env' := by
  simp only [ofEnvironment, h]

theorem readFlag_of_blank {s : String} (h : trimBlanks s = "") (default : Bool) :
    readFlag (some s) default = readFlag none default := by
  rw [readFlag, readFlag, flagOf?_of_blank h]
  dsimp only
  rw [if_pos h]

theorem readDecimal_of_blank {s : String} (h : trimBlanks s = "") :
    readDecimal (some s) = readDecimal none := by
  simp only [readDecimal, if_pos h]

theorem readText_of_blank {s : String} (h : trimBlanks s = "") :
    readText (some s) = readText none := by
  rw [readText_eq, readText_eq, Option.getD_some, Option.getD_none, h, trimBlanks_empty]

/-- What reads a value like a missing one does not notice that its variable goes. -/
theorem read_erase {α : Type} {f : Option String → α} {env : Environment} {key value : String}
    (hkey : Table.get? env key = some value) (hread : f (some value) = f none) (key' : String) :
    f (Table.get? env key') = f (Table.get? (Table.erase env key) key') := by
  rw [Table.get?_erase]
  split
  · rename_i hsame
    rw [← hsame, hkey, hread]
  · rfl

/-- **A blank variable counts as one that is not set.** -/
theorem ofEnvironment_erase {env : Environment} {key value : String}
    (hkey : Table.get? env key = some value) (hblank : trimBlanks value = "") :
    ofEnvironment env = ofEnvironment (Table.erase env key) := by
  have hflag := read_erase (f := fun v => readFlag v true) hkey (readFlag_of_blank hblank true)
  have hdecimal := read_erase hkey (readDecimal_of_blank hblank)
  have htext := read_erase hkey (readText_of_blank hblank)
  rw [ofEnvironment, ofEnvironment, hflag, hdecimal, htext, htext]

end Settings

/-! ## Commands -/

/-- What comes after a computation that only notes sees its value. -/
theorem Traced.ofLogged_bind_congr {ε α β : Type} {x : Logged α} {f g : α → Traced ε β}
    (h : f x.value = g x.value) : (ofLogged x >>= f) = (ofLogged x >>= g) := by
  have hvalue : ∀ f : α → Traced ε β, (ofLogged x >>= f) = (ofLogged x >>= fun _ => f x.value) :=
    fun _ => rfl
  rw [hvalue f, hvalue g, h]

/-- The catalog file that the settings name, if they name one, reads the same among these files as
among those. -/
def Catalog.FileAlike (settings : Settings) (files files' : Files) : Prop :=
  ∀ name ∈ settings.marketsFile,
    files.read (Path.ofString name).text = files'.read (Path.ofString name).text

theorem Catalog.build_congr {settings : Settings} {files files' : Files}
    (h : FileAlike settings files files') : build settings files = build settings files' := by
  have hload : load settings files = load settings files' := by
    rw [load, load]
    cases hname : settings.marketsFile.filter (· ≠ "") with
    | none => rfl
    | some name =>
      dsimp only
      rw [h name (Option.eq_some_of_filter_eq_some hname)]
  rw [build, build, hload]

namespace CommandLine

section Commands

variable {environment environment' : Environment} {files files' : Files}

/-- **A command looks at the settings**, and at the catalog file if it is asked for the markets. -/
theorem output_congr (command : Command)
    (hsettings : Settings.ofEnvironment environment = Settings.ofEnvironment environment')
    (hfile : command = .markets →
      Catalog.FileAlike (Settings.ofEnvironment environment').value files files') :
    output { environment, files } command =
      output { environment := environment', files := files' } command := by
  have hcurrent : ({} : Exchange).currentSettings { environment, files } =
      ({} : Exchange).currentSettings { environment := environment', files := files' } := hsettings
  cases command with
  | markets =>
    have hcatalog : ({} : Exchange).buildCatalog { environment, files } =
        ({} : Exchange).buildCatalog { environment := environment', files := files' } := by
      have hbuilt : Catalog.build (({} : Exchange).currentSettings
          { environment := environment', files := files' }).value files = _ :=
        Catalog.build_congr (hfile rfl)
      rw [Exchange.buildCatalog, Exchange.buildCatalog, hcurrent]
      refine Traced.ofLogged_bind_congr ?_
      dsimp only
      rw [hbuilt]
    exact congrArg (marketsOutput <$> ·) hcatalog
  | account => rw [output, output, Exchange.account, Exchange.account, hcurrent]
  | submit form => simp only [output, submit, Exchange.submit, hcurrent]

end Commands

/-! ## Environment files -/

/-- A command line has an environment file to load: this is the path to it, and these are its
characters.  Its entries, variables in their values looked up in the environment, can be stored. -/
structure HasEnvFile (invocation : Invocation) (env : Environment) (files : Files) (name : String)
    (cs : List Char) : Prop where
  enabled : EnvFile.isDisabled env = false
  chosen : EnvFile.Chosen files invocation.envFile name
  named : '\x00' ∉ name.toList
  read : ∃ octets text, files.read? name = some octets ∧ Utf8.decode false octets = .ok text ∧
    text.toChars?.getD [] = cs
  storable : EnvFile.Storable env (EnvFile.resolve env (EnvFile.bindings cs))

/-- A command line has no environment file to load: there is none at the path that was given, or,
if none was given, there is none in the working directory and in no directory above it. -/
structure LacksEnvFile (invocation : Invocation) (files : Files) : Prop where
  given : ∀ name, EnvFile.given? invocation.envFile = some name →
    '\x00' ∉ name.toList ∧ files.read? name = none
  searched : EnvFile.given? invocation.envFile = none →
    ∀ n, files.read? (EnvFile.searchPath n) = none

section Loading

variable {invocation : Invocation} {env : Environment} {files : Files} {name : String}
  {cs : List Char}

theorem HasEnvFile.chosenText? (h : HasEnvFile invocation env files name cs) :
    EnvFile.chosenText? files invocation.envFile = .ok (some cs) := by
  obtain ⟨octets, text, hoctets, htext, hcs⟩ := h.read
  rw [EnvFile.chosenText?, EnvFile.chosen?_eq_some_iff.2 h.chosen]
  exact EnvFile.textAt?_eq_ok_iff.2
    ⟨h.named, Or.inr ⟨octets, cs, hoctets, EnvFile.text_eq_ok_iff.2 ⟨text, htext, hcs⟩, rfl⟩⟩

/-- The environment that is loaded is the given one, extended by the file. -/
theorem HasEnvFile.exists_load (h : HasEnvFile invocation env files name cs) :
    ∃ environment, EnvFile.load env files invocation.envFile = .ok environment ∧
      EnvFile.ExtendsBy env (EnvFile.resolve env (EnvFile.bindings cs)) environment := by
  have hkeys := EnvFile.nodup_keys_resolve env (EnvFile.bindings cs)
  obtain ⟨environment, hfold⟩ := (EnvFile.exists_foldlM_setMissing_iff hkeys env).2 h.storable
  refine ⟨environment, ?_, EnvFile.extendsBy_of_foldlM hkeys hfold⟩
  rw [EnvFile.load, h.enabled, if_neg Bool.false_ne_true, h.chosenText?]
  exact hfold

theorem HasEnvFile.notes_eq (h : HasEnvFile invocation env files name cs) :
    EnvFile.notes env files invocation.envFile =
      (EnvFile.unreadableLines cs).map EnvFile.unreadableNote := by
  rw [EnvFile.notes, h.enabled, if_neg Bool.false_ne_true, h.chosenText?]

theorem LacksEnvFile.chosenText? (h : LacksEnvFile invocation files) :
    EnvFile.chosenText? files invocation.envFile = .ok none := by
  rw [EnvFile.chosenText?]
  cases hchosen : EnvFile.chosen? files invocation.envFile with
  | none => rfl
  | some name =>
    have htext : '\x00' ∉ name.toList ∧ files.read? name = none := by
      cases EnvFile.chosen?_eq_some_iff.1 hchosen with
      | given hgiven => exact h.given name hgiven
      | nearest n hgiven there =>
        rw [h.searched hgiven n] at there
        exact Bool.noConfusion there
    exact EnvFile.textAt?_eq_ok_iff.2 ⟨htext.1, Or.inl ⟨htext.2, rfl⟩⟩

theorem LacksEnvFile.load_eq (h : LacksEnvFile invocation files) (env : Environment) :
    EnvFile.load env files invocation.envFile = .ok env := by
  rw [EnvFile.load, h.chosenText?]
  split <;> rfl

theorem LacksEnvFile.notes_eq (h : LacksEnvFile invocation files) (env : Environment) :
    EnvFile.notes env files invocation.envFile =
      if EnvFile.isDisabled env then [EnvFile.disabledNote] else [] := by
  rw [EnvFile.notes, h.chosenText?]

theorem lacksEnvFile_of_chosen? (h : EnvFile.chosen? files invocation.envFile = none) :
    LacksEnvFile invocation files := by
  obtain ⟨hgiven, hsearched⟩ := EnvFile.chosen?_eq_none_iff.1 h
  exact ⟨fun name hname => absurd (hgiven.symm.trans hname) (by simp), fun _ => hsearched⟩

/-- A command is carried out in the environment that was loaded. -/
theorem carryOut_of_load {environment : Environment}
    (h : EnvFile.load env files invocation.envFile = .ok environment) :
    carryOut invocation env files =
      if invocation.logLevel.isNone then throw (.missing .logLevel)
      else finish (output { environment, files } invocation.command) := by
  rw [carryOut, h]
  split <;> rfl

theorem journal_of_read {args : List String} (hread : Invocation.ofArguments args = .ok invocation)
    (hlevel : invocation.logLevel.isSome) (env : Environment) (files : Files) :
    journal args env files =
      EnvFile.notes env files invocation.envFile ++ (run args env files).notes := by
  rw [journal, hread]
  dsimp only
  rw [if_neg (by simp [Option.isSome_iff_ne_none.1 hlevel])]

end Loading

/-- **An environment file is the same as an export.**  Take two command lines that differ at most in
the environment file that they name.  One is run with an environment file.  The other one is run
without any, in the environment extended by the entries of that file that have a value and whose key
is not set.  If they ask for the markets, let the catalog file read the same in both.

* Then the runs are the same: they end alike, with the same exit code, output and error message, and
  the venue notes the same.
* In front of these notes stand those of the loader.  In the first run they are the lines of the file
  that it cannot read, and in the second run there are none, unless the file itself has a binding
  that switches environment files off.
* What was set before the file was loaded keeps its value.  If that is blank, then the settings are
  read as if it were not set, whatever the file says. -/
theorem run_exported {args args' : List String} {invocation invocation' : Invocation}
    (hread : Invocation.ofArguments args = .ok invocation)
    (hread' : Invocation.ofArguments args' = .ok invocation')
    (hsame : { invocation with envFile := invocation'.envFile } = invocation')
    {env env' : Environment} {files files' : Files} {name : String} {cs : List Char}
    (hfile : HasEnvFile invocation env files name cs) (hnone : LacksEnvFile invocation' files')
    (hexported : EnvFile.ExtendsBy env (EnvFile.resolve env (EnvFile.bindings cs)) env')
    (hcatalog : invocation.command = .markets →
      Catalog.FileAlike (Settings.ofEnvironment env').value files files') :
    run args env files = run args' env' files' ∧
      (invocation.logLevel.isSome →
        journal args env files =
            (EnvFile.unreadableLines cs).map EnvFile.unreadableNote ++
              (run args env files).notes ∧
          journal args' env' files' =
            (if EnvFile.isDisabled env' then [EnvFile.disabledNote] else []) ++
              (run args env files).notes) ∧
      ∀ key value, Table.get? env key = some value →
        Table.get? env' key = some value ∧
          (trimBlanks value = "" →
            Settings.ofEnvironment env' = Settings.ofEnvironment (Table.erase env' key)) := by
  have hrun : run args env files = run args' env' files' := by
    obtain ⟨environment, hload, hextends⟩ := hfile.exists_load
    have hload' := hnone.load_eq env'
    have hsettings : Settings.ofEnvironment environment = Settings.ofEnvironment env' :=
      Settings.ofEnvironment_congr fun key => (hextends key).trans (hexported key).symm
    have houtput := output_congr invocation.command hsettings hcatalog
    rw [run, hread, run, hread']
    dsimp only
    rw [← hsame] at hload' ⊢
    rw [carryOut_of_load hload, carryOut_of_load hload', houtput]
  refine ⟨hrun, fun hlevel => ⟨?_, ?_⟩, fun key value hkey => ?_⟩
  · rw [journal_of_read hread hlevel, hfile.notes_eq]
  · have hlevel' : invocation'.logLevel.isSome := by
      rw [← hsame]
      exact hlevel
    rw [journal_of_read hread' hlevel', hnone.notes_eq, hrun]
  · have hkey' := hexported.get?_of_some hkey
    exact ⟨hkey', Settings.ofEnvironment_erase hkey'⟩

/-- The text of an environment file that turns dry-run off and sets the balance; what begins on its
second line cannot be read. -/
def liveText : String := "POLYMARKET_DRY_RUN=no\nno binding\nPOLYMARKET_BALANCE_USDC=5\n"

/-- A working directory with this file. -/
def liveFiles : Files := Files.store [] ".env" (.file (octetsOf liveText))

theorem resolve_liveText :
    EnvFile.resolve [(dryRunKey, " ")] (EnvFile.bindings liveText.toList) =
      [(dryRunKey, some "no"), (balanceKey, some "5")] := by
  decide +kernel

/-- Where the variable of the mode is set, though blank, the file only adds the balance, and dry-run
stays on.  The line that cannot be read is noted. -/
theorem run_exported_liveFiles :
    run ["account"] [(dryRunKey, " ")] liveFiles =
        run ["account"] [(dryRunKey, " "), (balanceKey, "5")] [] ∧
      journal ["account"] [(dryRunKey, " ")] liveFiles = [EnvFile.unreadableNote 2] ∧
      (Settings.ofEnvironment [(dryRunKey, " "), (balanceKey, "5")]).value.dryRun = true := by
  have hread : Invocation.ofArguments ["account"] = .ok { command := .account } := by rfl
  have hfile : HasEnvFile { command := .account } [(dryRunKey, " ")] liveFiles ".env"
      liveText.toList := by
    refine ⟨by decide, .nearest 0 rfl rfl (by simp), by decide, ⟨_, _, rfl, rfl, rfl⟩, ?_⟩
    rw [resolve_liveText]
    simp only [EnvFile.Storable, List.forall_mem_cons]
    exact ⟨by decide, by decide, fun e he => absurd he List.not_mem_nil⟩
  have hnone : LacksEnvFile { command := .account } [] := lacksEnvFile_of_chosen? (by decide)
  have hexported : EnvFile.ExtendsBy [(dryRunKey, " ")]
      (EnvFile.resolve [(dryRunKey, " ")] (EnvFile.bindings liveText.toList))
      [(dryRunKey, " "), (balanceKey, "5")] := by
    intro key
    rw [resolve_liveText]
    simp only [Table.get?_cons]
    by_cases hdry : dryRunKey = key <;> by_cases hbalance : balanceKey = key <;>
      simp [hdry, hbalance]
  obtain ⟨hrun, hnotes, hwins⟩ := run_exported hread hread rfl hfile hnone hexported
    fun hmarkets => Command.noConfusion hmarkets
  obtain ⟨hjournal, -⟩ := hnotes rfl
  obtain ⟨-, hblank⟩ := hwins dryRunKey " " rfl
  refine ⟨hrun, ?_, ?_⟩
  · rw [hjournal]
    rfl
  · rw [hblank (by decide)]
    rfl

/-! ## Provisos -/

/-- A run with an environment file looks the same as the run without it, in the environment extended
by its entries, under a condition on the files that are left. -/
def SameWithout {α : Type} (condition : Invocation → Files → Prop)
    (look : List String → Environment → Files → α) : Prop :=
  ∀ args invocation env env' files name cs, Invocation.ofArguments args = .ok invocation →
    HasEnvFile invocation env files name cs → condition invocation (files.remove name) →
    EnvFile.ExtendsBy env (EnvFile.resolve env (EnvFile.bindings cs)) env' →
    look args env files = look args env' (files.remove name)

/-- A file whose entries have no value adds nothing.  If a run still looks different without it, then
the condition does not do. -/
theorem not_sameWithout_of_ne {α : Type} {condition : Invocation → Files → Prop}
    {look : List String → Environment → Files → α} {args : List String} {invocation : Invocation}
    {env : Environment} {files : Files} {name : String} {cs : List Char}
    (hread : Invocation.ofArguments args = .ok invocation)
    (hfile : HasEnvFile invocation env files name cs)
    (hvalueless : ∀ e ∈ EnvFile.resolve env (EnvFile.bindings cs), e.2 = none)
    (hcondition : condition invocation (files.remove name))
    (hne : look args env files ≠ look args env (files.remove name)) :
    ¬ SameWithout condition look := by
  intro h
  have hextends : EnvFile.ExtendsBy env (EnvFile.resolve env (EnvFile.bindings cs)) env :=
    EnvFile.extendsBy_of_forall_none hvalueless
  exact hne (h args invocation env env files name cs hread hfile hcondition hextends)

/-- The exit code tells runs apart. -/
theorem ne_of_code_ne {left right : Except Failure Outcome} {code code' : Nat}
    {output output' errors errors' : Text} (hleft : left = .ok (.finished code output errors))
    (hright : right = .ok (.finished code' output' errors')) (hcode : code ≠ code') :
    left ≠ right := by
  rw [hleft, hright]
  simp [hcode]

/-- A catalog document that is the text of an environment file as well: its only line is a key
without a value. -/
def catalogText : String := "\x7b\"A\":\x7b\x7d\x7d"

/-- A working directory with this file. -/
def catalogFiles : Files := Files.store [] ".env" (.file (octetsOf catalogText))

/-- If the catalog file is the environment file, then nothing is left to list without it. -/
theorem not_sameWithout_catalogFiles :
    ¬ SameWithout LacksEnvFile fun args env files => (run args env files).outcome := by
  have hvalueless : ∀ e ∈ EnvFile.resolve [(marketsFileKey, ".env")]
      (EnvFile.bindings catalogText.toList), e.2 = none := by decide +kernel
  have hfile : HasEnvFile {} [(marketsFileKey, ".env")] catalogFiles ".env" catalogText.toList :=
    ⟨by decide, .nearest 0 rfl rfl (by simp), by decide, ⟨_, _, rfl, rfl, rfl⟩,
      EnvFile.storable_of_forall_none hvalueless⟩
  have hlisted : ∃ output, (run ["markets"] [(marketsFileKey, ".env")] catalogFiles).outcome =
      .ok (.finished 0 output []) := ⟨_, rfl⟩
  have hfailed : ∃ errors, (run ["markets"] [(marketsFileKey, ".env")]
      (catalogFiles.remove ".env")).outcome = .ok (.finished 1 [] errors) := ⟨_, rfl⟩
  obtain ⟨output, hlisted⟩ := hlisted
  obtain ⟨errors, hfailed⟩ := hfailed
  exact not_sameWithout_of_ne rfl hfile hvalueless (lacksEnvFile_of_chosen? (by decide))
    (ne_of_code_ne hlisted hfailed (by decide))

/-- A working directory with an environment file that says nothing, below a directory with one that
turns dry-run off. -/
def nestedFiles : Files :=
  Files.store (Files.store [] "../.env" (.file (octetsOf "POLYMARKET_DRY_RUN=no")))
    ".env" (.file [])

/-- If the environment file hides another one, then without it the other one is read. -/
theorem not_sameWithout_nestedFiles :
    ¬ SameWithout (fun invocation _ => invocation.command ≠ .markets)
      fun args env files => (run args env files).outcome := by
  have hread : ∃ form, Invocation.ofArguments ["submit", "S", "--quantity", "1"] =
      .ok { command := .submit form } := ⟨_, rfl⟩
  obtain ⟨form, hread⟩ := hread
  have hvalueless : ∀ e ∈ EnvFile.resolve [] (EnvFile.bindings []), e.2 = none := by decide
  have hfile : HasEnvFile { command := .submit form } [] nestedFiles ".env" [] :=
    ⟨rfl, .nearest 0 rfl rfl (by simp), by decide, ⟨_, _, rfl, rfl, rfl⟩,
      EnvFile.storable_of_forall_none hvalueless⟩
  have hplaced : ∃ output, (run ["submit", "S", "--quantity", "1"] [] nestedFiles).outcome =
      .ok (.finished 0 output []) := ⟨_, rfl⟩
  have hrefused : ∃ errors, (run ["submit", "S", "--quantity", "1"] []
      (nestedFiles.remove ".env")).outcome = .ok (.finished 1 [] errors) := ⟨_, rfl⟩
  obtain ⟨output, hplaced⟩ := hplaced
  obtain ⟨errors, hrefused⟩ := hrefused
  exact not_sameWithout_of_ne hread hfile hvalueless Command.noConfusion
    (ne_of_code_ne hplaced hrefused (by decide))

/-- A working directory with an environment file that cannot be read. -/
def unreadableFiles : Files := Files.store [] ".env" (.file (octetsOf "no binding"))

/-- If something in the environment file cannot be read, then without it a note is missing. -/
theorem not_sameWithout_unreadableFiles :
    ¬ SameWithout (fun invocation files => LacksEnvFile invocation files ∧
      invocation.command ≠ .markets) journal := by
  have hvalueless : ∀ e ∈ EnvFile.resolve [] (EnvFile.bindings "no binding".toList),
      e.2 = none := by decide +kernel
  have hfile : HasEnvFile { command := .account } [] unreadableFiles ".env" "no binding".toList :=
    ⟨rfl, .nearest 0 rfl rfl (by simp), by decide, ⟨_, _, rfl, rfl, rfl⟩,
      EnvFile.storable_of_forall_none hvalueless⟩
  have hread : Invocation.ofArguments ["account"] = .ok { command := .account } := by rfl
  refine not_sameWithout_of_ne hread hfile hvalueless
    ⟨lacksEnvFile_of_chosen? (by decide), Command.noConfusion⟩ fun hsame => ?_
  have hnoted : (journal ["account"] [] unreadableFiles).length = 1 := rfl
  have hquiet : (journal ["account"] [] (unreadableFiles.remove ".env")).length = 0 := rfl
  rw [hsame, hquiet] at hnoted
  exact absurd hnoted (by decide)

/-- **No proviso can be left out.**  A file is not the same as an export of its entries

* if it is the catalog file as well,
* if there is another environment file above it,
* if something in it cannot be read, and the notes of the loader count. -/
theorem not_forall_run_exported :
    (¬ SameWithout LacksEnvFile fun args env files => (run args env files).outcome) ∧
    (¬ SameWithout (fun invocation _ => invocation.command ≠ .markets)
      fun args env files => (run args env files).outcome) ∧
    ¬ SameWithout (fun invocation files => LacksEnvFile invocation files ∧
      invocation.command ≠ .markets) journal :=
  ⟨not_sameWithout_catalogFiles, not_sameWithout_nestedFiles, not_sameWithout_unreadableFiles⟩

end CommandLine

end PaperVenue
