import PaperVenue.Decimal.Arithmetic
import PaperVenue.Table

/-!
# Accounts

An account snapshot holds a balance per currency and the fee rates of the venue.  Balances are
merged in by key: a later balance under a key replaces the earlier one.  A currency without a
balance has an empty one.
-/

namespace PaperVenue

/-- What is held of one currency, free and bound in orders. -/
structure Balance where
  currency : String
  available : Decimal := .zero
  locked : Decimal := .zero
  deriving DecidableEq

/-- All that is held, rounded like every sum. -/
def Balance.total (b : Balance) : Except Decimal.Signal Decimal := b.available.add b.locked

/-- What the venue takes of a trade. -/
structure FeeRates where
  maker : Decimal := .zero
  taker : Decimal := .zero
  deriving DecidableEq

/-- A snapshot of an account. -/
structure Account where
  balances : Table String Balance := []
  hasFeeRate : Bool := false
  feeRates : FeeRates := {}

namespace Account

/-- Merge balances into the snapshot. -/
def merge (a : Account) (balances : List (String × Balance)) : Account :=
  { a with balances := Table.putAll a.balances balances }

/-- The balance of a currency, empty if there is none. -/
def balance (a : Account) (currency : String) : Balance :=
  (Table.get? a.balances currency).getD { currency }

end Account

end PaperVenue
