import Mathlib.Data.List.Lex
import PaperVenue.Proofs.CommandLine.Ending
import PaperVenue.Proofs.Decimal.Written
import PaperVenue.Proofs.Market.Reordered

/-!
# The listing of the markets

The command `markets` prints one entry for each key of the catalog, in order of the keys.  An entry
begins with its key and takes one line (`IsEntry`).  The order is that of the code points of the
keys, and since no key comes twice it is strict: `ListsInOrder`.  So the catalog alone decides what
is printed, and not the order in which it was built (`Catalog.inOrder_eq_of_perm`).

With that the order of a document is gone.  It is kept all the way to the catalog, and lost when the
catalog is printed.  `listing_canonical` compares two runs that find documents which say the same
in another order; where they find them, and what else is in their environments and files, does not
matter.
-/

namespace PaperVenue

/-! ## The order of texts -/

namespace CodePoint

theorem toNat_injective : Function.Injective toNat := by
  have hapart : ∀ (c : Char) (n : Fin 0x800), c.toNat ≠ 0xD800 + n := by
    intro c n h
    have hn := n.isLt
    rcases c.valid with hc | ⟨hc, -⟩ <;> simp only [Char.toNat] at h <;> omega
  rintro (c | n) (c' | n') h
  · exact congrArg scalar (Char.toNat_inj.1 h)
  · exact absurd h (hapart c n')
  · exact absurd h.symm (hapart c' n)
  · exact congrArg surrogate (Fin.ext (Nat.add_left_cancel h))

/-- A code point comes before another one. -/
def Before (p q : CodePoint) : Prop := p.toNat < q.toNat

instance : Std.Asymm Before where
  asymm _ _ := Nat.lt_asymm

instance : Std.Trichotomous Before where
  trichotomous _ _ h h' := toNat_injective (Nat.le_antisymm (Nat.not_lt.1 h') (Nat.not_lt.1 h))

instance : IsOrderConnected CodePoint Before where
  conn p q r h := by
    rw [Before] at h ⊢
    rw [Before]
    omega

end CodePoint

namespace Text

/-- A text comes before another one: its code point does at the first difference, or it is a
beginning of it. -/
def Before : Text → Text → Prop := List.Lex CodePoint.Before

instance : Std.Asymm Before := inferInstanceAs (Std.Asymm (List.Lex _))

instance : Std.Trichotomous Before := inferInstanceAs (Std.Trichotomous (List.Lex _))

instance : IsOrderConnected Text Before := inferInstanceAs (IsOrderConnected _ (List.Lex _))

/-- Texts are compared by which comes before the other. -/
theorem le_iff {s t : Text} : Text.le s t = true ↔ ¬ Before t s := by
  induction s generalizing t with
  | nil => exact iff_of_true rfl List.not_lex_nil
  | cons a s ih =>
    cases t with
    | nil => exact iff_of_false Bool.false_ne_true (not_not_intro List.Lex.nil)
    | cons b t =>
      have hcons : Before (b :: t) (a :: s) ↔ b.toNat < a.toNat ∨ b = a ∧ Before t s :=
        List.cons_lex_cons_iff
      rw [hcons, Text.le]
      split
      · rename_i hab
        refine iff_of_true rfl ?_
        rintro (hba | ⟨rfl, -⟩) <;> omega
      · split
        · rename_i hba
          exact iff_of_false Bool.false_ne_true (not_not_intro (Or.inl hba))
        · rename_i hab hba
          obtain rfl : a = b := CodePoint.toNat_injective (by omega)
          rw [ih]
          simp

end Text

/-! ## Catalogs in order -/

namespace Catalog

/-- A catalog in order of its keys. -/
def inOrder (catalog : Catalog) : Catalog := catalog.mergeSort fun e e' => Text.le e.1 e'.1

theorem perm_inOrder (catalog : Catalog) : catalog.inOrder.Perm catalog :=
  List.mergeSort_perm _ _

/-- The order is strict if no key comes twice. -/
theorem pairwise_inOrder {catalog : Catalog} (h : (Table.keys catalog).Nodup) :
    catalog.inOrder.Pairwise fun e e' => Text.Before e.1 e'.1 := by
  have hle : catalog.inOrder.Pairwise fun e e' => Text.le e.1 e'.1 = true := by
    refine List.pairwise_mergeSort ?_ ?_ catalog
    · intro e e' e'' h h'
      rw [Text.le_iff] at h h' ⊢
      exact IsOrderConnected.neg_trans h' h
    · intro e e'
      rw [Bool.or_eq_true, Text.le_iff, Text.le_iff, ← not_and_or]
      exact fun hboth => Std.Asymm.asymm _ _ hboth.1 hboth.2
  have hne : catalog.inOrder.Pairwise fun e e' => e.1 ≠ e'.1 := by
    rw [Table.keys, List.Nodup, List.pairwise_map] at h
    exact (List.Perm.pairwise_iff Ne.symm catalog.perm_inOrder).2 h
  refine List.Pairwise.imp₂ (fun e e' hle hne => ?_) hle hne
  by_contra hbefore
  exact hne (Std.Trichotomous.trichotomous _ _ hbefore (Text.le_iff.1 hle))

/-- **The order forgets where the catalog came from.** -/
theorem inOrder_eq_of_perm {catalog catalog' : Catalog} (hperm : catalog'.Perm catalog)
    (h : (Table.keys catalog).Nodup) : catalog'.inOrder = catalog.inOrder := by
  have h' : (Table.keys catalog').Nodup := (hperm.map Prod.fst).nodup_iff.2 h
  refine List.Perm.eq_of_pairwise ?_ (pairwise_inOrder h') (pairwise_inOrder h) ?_
  · exact fun e e' _ _ hbefore hafter => absurd hafter (Std.Asymm.asymm _ _ hbefore)
  · exact catalog'.perm_inOrder.trans (hperm.trans catalog.perm_inOrder.symm)

/-- Catalogs that differ in their order do so when they are normalized. -/
theorem perm_normalize_orExamples {catalog catalog' : Catalog} (hperm : catalog'.Perm catalog) :
    (normalize (orExamples catalog')).Perm (normalize (orExamples catalog)) := by
  have hempty : catalog'.isEmpty = catalog.isEmpty := hperm.isEmpty_eq
  refine List.Perm.map _ ?_
  rw [orExamples, orExamples, hempty]
  split
  · exact List.Perm.refl _
  · exact hperm

end Catalog

namespace CommandLine

/-- A text is an entry of a market under its key: it begins with the key, filled up with spaces to
32 characters, and then tells of the market; and it does not break the line, unless the key or a
text of the market does. -/
structure IsEntry (key : Text) (m : Market) (entry : Text) : Prop where
  begins : key ++ List.replicate (32 - key.length) (.scalar ' ') ++ Text.ofString " local=" ++
    m.localSymbol <+: entry
  oneLine : (∀ t ∈ [key, m.localSymbol, m.baseCurrency, m.quoteCurrency], .scalar '\n' ∉ t) →
    .scalar '\n' ∉ entry

/-- A text lists a catalog in order: it has one entry for each key, on a line of its own, and the
keys come in strictly increasing order of their code points. -/
def ListsInOrder (catalog : Catalog) (output : Text) : Prop :=
  ∃ (markets : List (Text × Market)) (entries : List Text), markets.Perm catalog ∧
    (markets.map Prod.fst).Pairwise Text.Before ∧
    List.Forall₂ (fun e entry => IsEntry e.1 e.2 entry) markets entries ∧
    output = entries.flatMap fun entry => entry ++ [.scalar '\n']

theorem newline_notMem_amount (d : Decimal) : .scalar '\n' ∉ amount d := by
  intro h
  obtain ⟨c, hc, hnewline⟩ := List.mem_map.1 h
  obtain rfl := CodePoint.scalar.inj hnewline
  exact d.newline_notMem_toChars hc

/-- **The line of a market** is an entry and the end of the line. -/
theorem exists_isEntry_marketLine (key : Text) (m : Market) :
    ∃ entry, IsEntry key m entry ∧ marketLine key m = entry ++ [.scalar '\n'] := by
  refine ⟨_, ⟨?_, fun h => ?_⟩, rfl⟩
  · simp [padded, keyWidth, List.append_assoc, List.prefix_append_right_inj]
  · simp only [List.forall_mem_cons, List.not_mem_nil, false_implies, implies_true, and_true] at h
    obtain ⟨hkey, hlocal, hbase, hquote⟩ := h
    have hword : ∀ w ∈ [" local=", " ", "/", " tick=", " step=", " min_notional=", " min_qty="],
        CodePoint.scalar '\n' ∉ Text.ofString w := by decide
    simp only [List.forall_mem_cons] at hword
    simp [padded, newline_notMem_amount, hkey, hlocal, hbase, hquote, hword]

theorem listsInOrder_marketsOutput {catalog : Catalog} (h : (Table.keys catalog).Nodup) :
    ListsInOrder catalog (marketsOutput catalog) := by
  choose entry hentry hline using exists_isEntry_marketLine
  refine ⟨catalog.inOrder, catalog.inOrder.map fun e => entry e.1 e.2, catalog.perm_inOrder, ?_,
    ?_, ?_⟩
  · rw [List.pairwise_map]
    exact Catalog.pairwise_inOrder h
  · rw [List.forall₂_map_right_iff, List.forall₂_same]
    exact fun e _ => hentry e.1 e.2
  · rw [List.flatMap_map]
    exact congrArg catalog.inOrder.flatMap (funext fun e => hline e.1 e.2)

theorem marketsOutput_eq_of_perm {catalog catalog' : Catalog} (hperm : catalog'.Perm catalog)
    (h : (Table.keys catalog).Nodup) : marketsOutput catalog' = marketsOutput catalog := by
  have hsame : catalog'.mergeSort _ = catalog.mergeSort _ := Catalog.inOrder_eq_of_perm hperm h
  rw [marketsOutput, hsame, marketsOutput]

/-! ## Runs -/

/-- The catalog that an exchange answers, asked for the markets after the environment file was
loaded. -/
def queried (invocation : Invocation) (env : Environment) (files : Files) :
    Except Failure Catalog := do
  let environment ← EnvFile.load env files invocation.envFile
  (({} : Exchange).markets { environment, files }).2.outcome

/-- The document in which the markets are found after the environment file was loaded. -/
def documentFound (invocation : Invocation) (env : Environment) (files : Files) :
    Except Failure (Option Json.Document) := do
  let environment ← EnvFile.load env files invocation.envFile
  Catalog.source (Settings.ofEnvironment environment).value files

/-- What the program has printed when it ends, unless it was stopped over its command line.  A
failure that ends it comes before anything is printed. -/
def printed? : Except Failure Outcome → Option Text
  | .ok (.finished _ output _) => some output
  | .ok (.stopped _) => none
  | .error _ => some []

section Runs

variable {args : List String} {invocation : Invocation}

/-- What is queried is the document that is found, decoded, and then made a catalog of the venue. -/
theorem queried_eq (invocation : Invocation) (env : Environment) (files : Files) :
    queried invocation env files =
      (documentFound invocation env files >>= Catalog.decoded).map
        fun catalog => Catalog.normalize (Catalog.orExamples catalog) := by
  rw [queried, documentFound]
  cases EnvFile.load env files invocation.envFile with
  | error f => rfl
  | ok environment =>
    change (({} : Exchange).markets { environment, files }).2.outcome =
      (Catalog.source (Settings.ofEnvironment environment).value files >>= Catalog.decoded).map _
    rw [Exchange.markets_of_no_catalog _ rfl, Exchange.outcome_buildCatalog, builtNow,
      Catalog.outcome_build, Catalog.outcome_load]
    rfl

theorem nodup_keys_of_queried {env : Environment} {files : Files} {catalog : Catalog}
    (h : queried invocation env files = .ok catalog) : (Table.keys catalog).Nodup := by
  obtain ⟨environment, -, hmarkets⟩ := bind_eq_ok_iff.1 h
  rw [Exchange.markets_of_no_catalog _ rfl, Exchange.outcome_buildCatalog, builtNow] at hmarkets
  exact Catalog.nodup_keys_of_build hmarkets

/-- How a command line that asks for the markets ends, once the environment is known. -/
theorem outcome_finish_markets (around : Surroundings) :
    (finish (output around .markets)).outcome =
      match (({} : Exchange).markets around).2.outcome with
      | .ok catalog => .ok (.finished 0 (marketsOutput catalog) [])
      | .error (.venue e) => .ok (.finished 1 [] (line ("Error: " ++ e.message)))
      | .error f => .error f := by
  rw [outcome_finish, output, Traced.outcome_map]
  cases (({} : Exchange).markets around).2.outcome with
  | ok catalog => rfl
  | error f => cases f <;> rfl

/-- **What is printed is the listing of the catalog that is queried**, or nothing. -/
theorem printed_run (hread : Invocation.ofArguments args = .ok invocation)
    (hmarkets : invocation.command = .markets) (env : Environment) (files : Files) :
    printed? (run args env files).outcome =
      if invocation.logLevel.isSome then
        match queried invocation env files with
        | .ok catalog => some (marketsOutput catalog)
        | .error _ => some []
      else some [] := by
  rw [outcome_run hread, hmarkets]
  split
  · rw [queried]
    cases EnvFile.load env files invocation.envFile with
    | error f => rfl
    | ok environment =>
      change printed? (finish (output { environment, files } .markets)).outcome =
        match (({} : Exchange).markets { environment, files }).2.outcome with
        | .ok catalog => some (marketsOutput catalog)
        | .error _ => some []
      rw [outcome_finish_markets]
      cases (({} : Exchange).markets { environment, files }).2.outcome with
      | ok catalog => rfl
      | error f => cases f <;> rfl
  · rfl

/-- A run that lists the markets with success has queried a catalog. -/
theorem queried_of_finished (hread : Invocation.ofArguments args = .ok invocation)
    (hmarkets : invocation.command = .markets) {env : Environment} {files : Files}
    {output errors : Text} (h : (run args env files).outcome = .ok (.finished 0 output errors)) :
    ∃ catalog, queried invocation env files = .ok catalog ∧ output = marketsOutput catalog := by
  have hrun := outcome_run hread env files
  rw [hmarkets, h] at hrun
  split at hrun
  · obtain ⟨environment, hload, hfinish⟩ := bind_eq_ok_iff.1 hrun.symm
    rw [outcome_finish_markets] at hfinish
    rw [queried, hload]
    cases hcatalog : (({} : Exchange).markets { environment, files }).2.outcome with
    | ok catalog =>
      rw [hcatalog] at hfinish
      obtain ⟨-, houtput, -⟩ := Outcome.finished.inj (Except.ok.inj hfinish)
      exact ⟨catalog, hcatalog, houtput.symm⟩
    | error f =>
      rw [hcatalog] at hfinish
      cases f <;> simp at hfinish
  · exact absurd hrun (by simp)

/-- Two documents that say the same in another order lead to catalogs with the same listing, or both
are refused. -/
theorem printed_run_eq (hread : Invocation.ofArguments args = .ok invocation)
    (hmarkets : invocation.command = .markets) {env env' : Environment} {files files' : Files}
    {document document' : Json.Document}
    (hfound : documentFound invocation env files = .ok (some document))
    (hfound' : documentFound invocation env' files' = .ok (some document'))
    (h : document.Reordered document') :
    printed? (run args env files).outcome = printed? (run args env' files').outcome := by
  have hqueried := queried_eq invocation env files
  have hqueried' := queried_eq invocation env' files'
  rw [hfound] at hqueried
  rw [hfound'] at hqueried'
  change _ = ((Catalog.decode document).outcome.mapError Failure.venue).map _ at hqueried
  change _ = ((Catalog.decode document').outcome.mapError Failure.venue).map _ at hqueried'
  rw [printed_run hread hmarkets, printed_run hread hmarkets]
  split
  · cases hdecode : (Catalog.decode document).outcome with
    | ok catalog =>
      obtain ⟨catalog', hdecode', hperm⟩ := Catalog.decode_of_reordered h hdecode
      rw [hdecode] at hqueried
      rw [hdecode'] at hqueried'
      have hnodup := nodup_keys_of_queried hqueried
      rw [hqueried, hqueried']
      exact congrArg some
        (marketsOutput_eq_of_perm (Catalog.perm_normalize_orExamples hperm) hnodup).symm
    | error e =>
      cases hdecode' : (Catalog.decode document').outcome with
      | ok catalog' =>
        obtain ⟨catalog, hcatalog, -⟩ := Catalog.decode_of_reordered h.symm hdecode'
        exact absurd (hdecode.symm.trans hcatalog) (by simp)
      | error e' =>
        rw [hdecode] at hqueried
        rw [hdecode'] at hqueried'
        rw [hqueried, hqueried']
        rfl
  · rfl

/-- **The listing of the markets is canonical.**

* If the command `markets` succeeds, then what is printed lists the catalog that was queried: for
  each key one entry on a line of its own, which begins with the key, in strictly increasing order
  of the code points of the keys.
* If two runs of it find documents with the same items, or the same members, each in an order of its
  own, and no key comes twice, then both print the same. -/
theorem listing_canonical (hread : Invocation.ofArguments args = .ok invocation)
    (hmarkets : invocation.command = .markets) (env : Environment) (files : Files) :
    (∀ output errors, (run args env files).outcome = .ok (.finished 0 output errors) →
      ∃ catalog, queried invocation env files = .ok catalog ∧ ListsInOrder catalog output) ∧
    ∀ env' files' document document',
      documentFound invocation env files = .ok (some document) →
      documentFound invocation env' files' = .ok (some document') →
      document.Reordered document' →
      printed? (run args env files).outcome = printed? (run args env' files').outcome := by
  constructor
  · intro output errors hfinished
    obtain ⟨catalog, hqueried, rfl⟩ := queried_of_finished hread hmarkets hfinished
    exact ⟨catalog, hqueried, listsInOrder_marketsOutput (nodup_keys_of_queried hqueried)⟩
  · intro env' files' document document' hfound hfound' hreordered
    exact printed_run_eq hread hmarkets hfound hfound' hreordered

end Runs

/-- An array of two records. -/
def forwards : String := "[\x7b\"symbol\": \"A\"\x7d, \x7b\"symbol\": \"B\"\x7d]"

/-- The same two records, the other way round. -/
def backwards : String := "[\x7b\"symbol\": \"B\"\x7d, \x7b\"symbol\": \"A\"\x7d]"

/-- Both documents are found, and listed in the same way. -/
theorem listing_canonical_backwards :
    (∃ catalog output, queried {} [(marketsJsonKey, backwards)] [] = .ok catalog ∧
      Table.keys catalog = [Text.ofString "B", Text.ofString "A"] ∧
      (run ["markets"] [(marketsJsonKey, backwards)] []).outcome = .ok (.finished 0 output []) ∧
      ListsInOrder catalog output) ∧
    printed? (run ["markets"] [(marketsJsonKey, backwards)] []).outcome =
      printed? (run ["markets"] [(marketsJsonKey, forwards)] []).outcome := by
  have hread : Invocation.ofArguments ["markets"] = .ok {} := by rfl
  have hfinished : ∃ output, (run ["markets"] [(marketsJsonKey, backwards)] []).outcome =
      .ok (.finished 0 output []) := ⟨_, rfl⟩
  have hkeys : (queried {} [(marketsJsonKey, backwards)] []).map Table.keys =
      .ok [Text.ofString "B", Text.ofString "A"] := by rfl
  let symbol := Text.ofString "symbol"
  let a := Text.ofString "A"
  let b := Text.ofString "B"
  have hreordered : Json.Document.Reordered (.inline (Text.ofString backwards))
      (.inline (Text.ofString forwards)) := by
    refine ⟨.array [.object [(symbol, .text b)], .object [(symbol, .text a)]],
      .array [.object [(symbol, .text a)], .object [(symbol, .text b)]], ⟨_, rfl, rfl⟩,
      ⟨_, rfl, rfl⟩, .items (.swap _ _ _), ?_⟩
    intro items hitems _
    obtain rfl := Except.ok.inj hitems
    decide
  obtain ⟨hlists, hsame⟩ := listing_canonical hread rfl [(marketsJsonKey, backwards)] []
  obtain ⟨output, houtput⟩ := hfinished
  obtain ⟨catalog, hcatalog, hlisted⟩ := hlists output [] houtput
  rw [hcatalog] at hkeys
  exact ⟨⟨catalog, output, hcatalog, Except.ok.inj hkeys, houtput, hlisted⟩,
    hsame [(marketsJsonKey, forwards)] [] _ _ rfl rfl hreordered⟩

end CommandLine

end PaperVenue
