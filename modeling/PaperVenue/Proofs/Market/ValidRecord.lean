import PaperVenue.Market.Record
import PaperVenue.Proofs.Outcome

/-!
# Which values are records

`Record.read` collects the errors of eleven fields with `Checked.ap`.  Two statements take it apart.

* `readMembers_eq_ok_iff`: reading gives a market exactly if each of its fields is what the field
  reads.
* `exists_read_iff`: reading succeeds exactly on a `Record.Valid` value, an object of which every
  field that is there and not `null` holds a value of its kind.

Whether a value is of a kind is left to the three readers of values, `readText`, `readInteger` and
`readDecimal`; nothing here looks into them.
-/

namespace PaperVenue

/-! ## Readings that succeed -/

/-- Two readings joined succeed exactly if both do. -/
theorem Checked.exists_ap_iff {ε α β : Type} {f : Checked ε (α → β)} {a : Checked ε α} :
    (∃ b, Checked.ap f a = .ok b) ↔ (∃ g, f = .ok g) ∧ ∃ x, a = .ok x := by
  cases f <;> cases a <;> simp [Checked.ap]

theorem Checked.exists_ok {ε α : Type} (a : α) : ∃ b, (.ok a : Checked ε α) = .ok b := ⟨a, rfl⟩

namespace Record

/-! ## Fields -/

/-- The kinds of values that fields hold. -/
inductive Kind where
  | text | integer | decimal

/-- Is a value of a kind? -/
def Kind.Accepts : Kind → Json → Prop
  | text, v => ∃ t, readText v = .ok t
  | integer, v => ∃ n, readInteger v = .ok n
  | decimal, v => ∃ d, readDecimal v = .ok d

/-- The fields of a record in the order in which they are declared, each with its kind. -/
def fields : List (Spelling × Kind) :=
  [(⟨"symbol", "symbol"⟩, .text), (⟨"localSymbol", "local_symbol"⟩, .text),
    (⟨"baseCurrency", "base_currency"⟩, .text), (⟨"quoteCurrency", "quote_currency"⟩, .text),
    (⟨"pricePrecision", "price_precision"⟩, .integer),
    (⟨"volumePrecision", "volume_precision"⟩, .integer),
    (⟨"quotePrecision", "quote_precision"⟩, .integer),
    (⟨"tickSize", "tick_size"⟩, .decimal), (⟨"stepSize", "step_size"⟩, .decimal),
    (⟨"minNotional", "min_notional"⟩, .decimal), (⟨"minQuantity", "min_quantity"⟩, .decimal)]

/-- Every value that is found for a field and is not `null` is of the field's kind. -/
def ValidMembers (members : Table Text Json) : Prop :=
  ∀ f ∈ fields, ∀ name v, find? members f.1 = some (name, v) → v ≠ .null → f.2.Accepts v

/-- A valid record: an object whose fields are valid. -/
def Valid (v : Json) : Prop := ∃ members, v = .object members ∧ ValidMembers members

section Field

variable {α : Type} {read : Json → Except Problem α} {default : α} {members : Table Text Json}
  {main other name : String} {v : Json}

theorem readField_of_missing (h : find? members ⟨main, other⟩ = none) :
    readField read default members main other = .ok default := by
  rw [readField, h]

theorem readField_of_null (h : find? members ⟨main, other⟩ = some (name, .null)) :
    readField read default members main other = .ok default := by
  rw [readField, h]

theorem readField_of_value (h : find? members ⟨main, other⟩ = some (name, v)) (hv : v ≠ .null) :
    readField read default members main other =
      (read v).mapError fun problem => { first := { field := some name, problem } } := by
  rw [readField, h]
  cases v with
  | null => exact absurd rfl hv
  | _ => rfl

/-- A field is read exactly if it is missing, or `null`, or holds a value that can be read. -/
theorem exists_readField_iff :
    (∃ a, readField read default members main other = .ok a) ↔
      ∀ name v, find? members ⟨main, other⟩ = some (name, v) → v ≠ .null → ∃ a, read v = .ok a := by
  rcases hfind : find? members ⟨main, other⟩ with _ | ⟨name, v⟩
  · rw [readField_of_missing hfind]
    simp
  · by_cases hnull : v = .null
    · subst hnull
      rw [readField_of_null hfind]
      simp
    · rw [readField_of_value hfind hnull]
      simp only [mapError_eq_ok_iff, Option.some.injEq, Prod.mk.injEq, and_imp]
      constructor
      · rintro hread _ _ rfl rfl -
        exact hread
      · exact fun hread => hread name v rfl rfl hnull

end Field

/-! ## Records -/

/-- **What a record reads**: each field of the market is what the field of the record reads. -/
theorem readMembers_eq_ok_iff {members : Table Text Json} {m : Market} :
    readMembers members = .ok m ↔
      m.venue = none ∧
      textField members "symbol" "symbol" = .ok m.symbol ∧
      textField members "localSymbol" "local_symbol" = .ok m.localSymbol ∧
      textField members "baseCurrency" "base_currency" = .ok m.baseCurrency ∧
      textField members "quoteCurrency" "quote_currency" = .ok m.quoteCurrency ∧
      integerField members "pricePrecision" "price_precision" = .ok m.pricePrecision ∧
      integerField members "volumePrecision" "volume_precision" = .ok m.volumePrecision ∧
      integerField members "quotePrecision" "quote_precision" = .ok m.quotePrecision ∧
      decimalField members "tickSize" "tick_size" = .ok m.tickSize ∧
      decimalField members "stepSize" "step_size" = .ok m.stepSize ∧
      decimalField members "minNotional" "min_notional" = .ok m.minNotional ∧
      decimalField members "minQuantity" "min_quantity" = .ok m.minQuantity := by
  simp only [readMembers, Checked.ap_eq_ok_iff]
  constructor
  · rintro ⟨_, minQuantity, ⟨_, minNotional, ⟨_, stepSize, ⟨_, tickSize, ⟨_, quotePrecision,
      ⟨_, volumePrecision, ⟨_, pricePrecision, ⟨_, quoteCurrency, ⟨_, baseCurrency,
      ⟨_, localSymbol, ⟨_, symbol, hmarket, hsymbol, rfl⟩, hlocal, rfl⟩, hbase, rfl⟩, hquote, rfl⟩,
      hprice, rfl⟩, hvolume, rfl⟩, hquotes, rfl⟩, htick, rfl⟩, hstep, rfl⟩, hnotional, rfl⟩,
      hquantity, rfl⟩
    obtain rfl := Except.ok.inj hmarket
    exact ⟨rfl, hsymbol, hlocal, hbase, hquote, hprice, hvolume, hquotes, htick, hstep, hnotional,
      hquantity⟩
  · rintro ⟨hvenue, hsymbol, hlocal, hbase, hquote, hprice, hvolume, hquotes, htick, hstep,
      hnotional, hquantity⟩
    obtain ⟨symbol, localSymbol, venue, baseCurrency, quoteCurrency, pricePrecision,
      volumePrecision, quotePrecision, tickSize, stepSize, minNotional, minQuantity⟩ := m
    obtain rfl := hvenue
    exact ⟨_, _, ⟨_, _, ⟨_, _, ⟨_, _, ⟨_, _, ⟨_, _, ⟨_, _, ⟨_, _, ⟨_, _, ⟨_, _, ⟨_, _, rfl, hsymbol,
      rfl⟩, hlocal, rfl⟩, hbase, rfl⟩, hquote, rfl⟩, hprice, rfl⟩, hvolume, rfl⟩, hquotes, rfl⟩,
      htick, rfl⟩, hstep, rfl⟩, hnotional, rfl⟩, hquantity, rfl⟩

/-- The members of an object read exactly if they are valid. -/
theorem exists_readMembers_iff {members : Table Text Json} :
    (∃ m, readMembers members = .ok m) ↔ ValidMembers members := by
  simp only [readMembers, Checked.exists_ap_iff, textField, integerField, decimalField,
    exists_readField_iff, ValidMembers, fields, List.forall_mem_cons, Kind.Accepts]
  simp only [Checked.exists_ok, true_and, and_assoc, List.not_mem_nil, false_implies, implies_true,
    and_true]

/-- **Reading succeeds exactly on valid records.** -/
theorem exists_read_iff {v : Json} : (∃ m, read v = .ok m) ↔ Valid v := by
  cases v with
  | object members =>
    rw [read, exists_readMembers_iff]
    constructor
    · exact fun h => ⟨members, rfl, h⟩
    · rintro ⟨_, heq, h⟩
      obtain rfl := Json.object.inj heq
      exact h
  | _ => simp [read, Valid]

/-- The symbol that a value names: the text of its member `symbol`, and none if there is no such
member or it holds no text. -/
def symbolOf : Json → Text
  | .object members => match Table.get? members (Text.ofString "symbol") with
    | some (.text t) => t
    | _ => []
  | _ => []

/-- The symbol of the market is the one that the record names. -/
theorem symbol_of_read {v : Json} {m : Market} (h : read v = .ok m) : m.symbol = symbolOf v := by
  cases v with
  | object members =>
    obtain ⟨-, hsymbol, -⟩ := readMembers_eq_ok_iff.1 h
    rw [textField, readField, find?] at hsymbol
    rw [symbolOf]
    cases hget : Table.get? members (Text.ofString "symbol") with
    | none => simp_all
    | some w =>
      rw [hget] at hsymbol
      cases w <;> simp_all [readText, mapError_eq_ok_iff]
  | _ => exact absurd h (by simp [read])

end Record

end PaperVenue
