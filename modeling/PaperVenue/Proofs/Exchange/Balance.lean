import PaperVenue.Proofs.Decimal.Written
import PaperVenue.Proofs.Exchange.Environment

/-!
# The balance from the environment

An exchange without settings of its own shows the balance that one variable of the environment
holds.  On the way from the variable to the account the text is cut at its ends, read as a decimal,
dropped if it is not finite, and put into the account.  Nothing on this way rounds: a decimal that
was written exactly arrives as it was, however many digits it has, with its exponent and its sign,
since exact notation is read back as it was (`Decimal.read?_toChars`).  The decimals in range are
those that can be written at all (`Decimal.exists_read?_iff`).

Nothing on this way fails either.  A text that is no finite decimal makes an account without
balances, so the account is answered whatever the variable holds.  `Exchange.account_of_environment`
says both.
-/

namespace PaperVenue

/-- A text of blanks, or of nothing. -/
def OnlyBlanks (s : String) : Prop := ∀ c ∈ s.toList, isBlank c = true

namespace Settings

/-- **A decimal that is written exactly** is the setting that it was, with blanks around it or
not. -/
theorem value_readDecimal_toString (negative : Bool) {c : Nat} {e : Int}
    (hrange : Decimal.inRange c e = true) {before after : String}
    (hbefore : OnlyBlanks before) (hafter : OnlyBlanks after) :
    (readDecimal (some (before ++ toString (Decimal.finite negative c e) ++ after))).value =
      some (.finite negative c e) := by
  have hchars : (before ++ toString (Decimal.finite negative c e) ++ after).toList =
      before.toList ++ ((Decimal.finite negative c e).toChars ++ after.toList) := by
    rw [String.toList_append, String.toList_append, List.append_assoc]
    congr 2
    exact String.toList_ofList
  rw [value_readDecimal_some, Decimal.ofString?, hchars, ← Decimal.read?_trim,
    trim_surround hbefore hafter, Decimal.read?_trim, Decimal.read?_toChars hrange]
  rfl

/-- A decimal among the settings that were read is finite. -/
theorem isFinite_of_readDecimal {value : Option String} {v : Decimal}
    (h : (readDecimal value).value = some v) : v.isFinite = true := by
  cases value with
  | none => exact absurd h (by simp [readDecimal])
  | some s =>
    rw [value_readDecimal_some, Option.filter_eq_some_iff] at h
    exact h.2

theorem balance_ofEnvironment (env : Environment) :
    (ofEnvironment env).value.balance = (readDecimal (Table.get? env balanceKey)).value := rfl

end Settings

namespace Exchange

/-- The balances of an account that holds something of one currency, all of it free. -/
def oneBalance (available : Decimal) : Table String Balance :=
  [(settlementCurrency, { currency := settlementCurrency, available, locked := .zero })]

/-- The settings in force are those of the environment: the exchange has none of its own, or it was
given the ones that are read there. -/
def FromEnvironment (x : Exchange) (around : Surroundings) : Prop :=
  x.settings = none ∨ x.settings = some (Settings.ofEnvironment around.environment).value

variable {x : Exchange} {around : Surroundings}

/-- The balance in force is then what the variable holds. -/
theorem FromEnvironment.balance_eq (hx : x.FromEnvironment around) :
    (x.currentSettings around).value.balance =
      (Settings.readDecimal (Table.get? around.environment balanceKey)).value := by
  rw [value_currentSettings, ← Settings.balance_ofEnvironment]
  rcases hx with hx | hx
  · rw [hx, Option.getD_none]
  · rw [hx, Option.getD_some]

/-- **What the account shows**: the balance in force, if there is one. -/
theorem value_account (x : Exchange) (around : Surroundings) :
    (x.account around).value =
      { balances := (x.currentSettings around).value.balance.elim [] oneBalance
        hasFeeRate := true } := by
  rw [account, Logged.value_bind, Logged.value_pure]
  cases (x.currentSettings around).value.balance <;> rfl

/-- The account is answered, and so are its balances. -/
theorem outcome_perform_account (x : Exchange) (around : Surroundings) :
    (x.perform around .account).2.outcome = .ok (.account (x.account around).value) ∧
      (x.perform around .balances).2.outcome =
        .ok (.balances (x.account around).value.balances) := by
  rw [perform, perform, Traced.outcome_map, Traced.outcome_map, Traced.outcome_ofLogged]
  exact ⟨rfl, rfl⟩

/-- **The configured balance survives exactly.**  Let an exchange have its settings from the
environment.  If the variable of the balance holds a finite decimal in range, written exactly, and
blanks around it, then this decimal is read, it is the balance of the settings, and it is the free
balance of the account, with the same sign, digits and exponent; nothing is locked.

Whatever the variable holds, the account is answered: without a balance, or with a finite one. -/
theorem account_of_environment (hx : x.FromEnvironment around) :
    (∀ (negative : Bool) (c : Nat) (e : Int), Decimal.inRange c e = true →
      ∀ before after, OnlyBlanks before → OnlyBlanks after →
      Table.get? around.environment balanceKey =
          some (before ++ toString (Decimal.finite negative c e) ++ after) →
        (Settings.readDecimal (Table.get? around.environment balanceKey)).value =
          some (.finite negative c e) ∧
        (Settings.ofEnvironment around.environment).value.balance = some (.finite negative c e) ∧
        (x.perform around .account).2.outcome =
          .ok (.account { balances := oneBalance (.finite negative c e), hasFeeRate := true }) ∧
        (x.perform around .balances).2.outcome =
          .ok (.balances (oneBalance (.finite negative c e)))) ∧
    ∃ balances, (x.perform around .account).2.outcome =
        .ok (.account { balances, hasFeeRate := true }) ∧
      (x.perform around .balances).2.outcome = .ok (.balances balances) ∧
      (balances = [] ∨ ∃ v : Decimal, v.isFinite = true ∧ balances = oneBalance v) := by
  obtain ⟨haccount, hbalances⟩ := x.outcome_perform_account around
  rw [value_account, hx.balance_eq] at haccount hbalances
  constructor
  · intro negative c e hrange before after hbefore hafter hget
    have hvalue := Settings.value_readDecimal_toString negative hrange hbefore hafter
    rw [Settings.balance_ofEnvironment]
    rw [hget, hvalue] at haccount hbalances ⊢
    exact ⟨rfl, rfl, haccount, hbalances⟩
  · refine ⟨_, haccount, hbalances, ?_⟩
    cases hvalue : (Settings.readDecimal (Table.get? around.environment balanceKey)).value with
    | none => exact Or.inl rfl
    | some v => exact Or.inr ⟨v, Settings.isFinite_of_readDecimal hvalue, rfl⟩

/-- A negative zero with nine places survives, between a wide blank and the end of a line. -/
theorem account_of_environment_negativeZero :
    (({} : Exchange).perform
        { environment := [(balanceKey, "\u3000-0E-9\n")] } .account).2.outcome =
      .ok (.account { balances := oneBalance (.finite true 0 (-9)), hasFeeRate := true }) := by
  have hx : ({} : Exchange).FromEnvironment
      { environment := [(balanceKey, "\u3000-0E-9\n")] } := Or.inl rfl
  obtain ⟨hexact, -⟩ := account_of_environment hx
  have hbefore : OnlyBlanks "\u3000" := List.all_eq_true.1 rfl
  have hafter : OnlyBlanks "\n" := List.all_eq_true.1 rfl
  obtain ⟨-, -, haccount, -⟩ :=
    hexact true 0 (-9) (by decide) _ _ hbefore hafter (by decide)
  exact haccount

end Exchange

end PaperVenue
