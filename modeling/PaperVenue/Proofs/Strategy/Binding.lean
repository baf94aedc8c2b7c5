import PaperVenue.Proofs.Decimal.Sign
import PaperVenue.Proofs.Strategy.Attached

/-!
# Binding a strategy

A binding fills in what is unset, checks the settings, and looks two sessions up.  It may fail on
the way, and then part of the settings is filled in.  `bind_laws` says that this does no harm.

* `bind_eq_ok_iff`: when a binding succeeds.  Filling in leaves no text empty and no amount zero, so
  of all checks only two are left that can fail: an amount that is negative or no number, and a
  session that is not there.
* `filledFrom_fill`: what a binding does to the settings, also if it stops midway.
* `fill_fill`: filled settings are filled in as they were before, with the same outcome.  So
  bindings that came earlier make no difference to a later one (`bind_congr`).
-/

namespace PaperVenue

namespace UpDown

namespace Settings

/-! ## Filling in -/

/-- An amount with a default in the place of a zero. -/
def filledAmount (d default : Decimal) : Decimal := if d.IsZero then default else d

theorem amountOr_eq (d default : Decimal) :
    amountOr d default =
      if d.isSignaling then .error .invalidOperation else .ok (filledAmount d default) := by
  rw [amountOr, Decimal.numericallyEqual_zero]
  cases d.isSignaling with
  | true => rfl
  | false =>
    by_cases hd : d.IsZero
    · rw [filledAmount, if_pos hd, decide_eq_true hd]
      rfl
    · rw [filledAmount, if_neg hd, decide_eq_false hd]
      rfl

theorem filledAmount_filledAmount (d default : Decimal) :
    filledAmount (filledAmount d default) default = filledAmount d default := by
  by_cases hd : d.IsZero
  · rw [filledAmount, filledAmount, if_pos hd, ite_self]
  · rw [filledAmount, filledAmount, if_neg hd, if_neg hd]

/-- A zero is no not-a-number, so filling in leaves those alone. -/
theorem isSignaling_filledAmount (d : Decimal) {default : Decimal}
    (hdefault : default.isSignaling = false) :
    (filledAmount d default).isSignaling = d.isSignaling := by
  unfold filledAmount
  split
  · rename_i hd
    cases d with
    | nan negative signaling payload => exact hd.elim
    | _ => exact hdefault
  · rfl

theorem filledAmount_of_isSignaling {d : Decimal} (h : d.isSignaling = true) (default : Decimal) :
    filledAmount d default = d := by
  refine if_neg fun hd => ?_
  cases d with
  | nan negative signaling payload => exact hd
  | _ => exact Bool.noConfusion h

/-- A filled amount is positive exactly if the amount is a number and not negative. -/
theorem isPositive_filledAmount {d default : Decimal} (hdefault : default.IsPositive) :
    (filledAmount d default).IsPositive ↔ d.isNaN = false ∧ ¬ d.IsNegative := by
  unfold filledAmount
  split
  · rename_i hd
    refine iff_of_true hdefault ?_
    cases d with
    | finite negative c e => exact ⟨rfl, fun h => h.2 hd⟩
    | infinity negative => exact hd.elim
    | nan negative signaling payload => exact hd.elim
  · rename_i hd
    rw [Decimal.isPositive_iff]
    exact ⟨fun h => ⟨h.1, h.2.1⟩, fun h => ⟨h.1, h.2, hd⟩⟩

theorem orDefault_orDefault (s default : String) :
    orDefault (orDefault s default) default = orDefault s default := by
  by_cases hs : s = ""
  · rw [orDefault, orDefault, if_pos hs, ite_self]
  · rw [orDefault, orDefault, if_neg hs, if_neg hs]

theorem orDefault_ne_empty (s : String) {default : String} (h : default ≠ "") :
    orDefault s default ≠ "" := by
  unfold orDefault
  split
  · exact h
  · assumption

/-- **Filling in**: it stops at the price if this signals, and signals if either amount does. -/
theorem fill_eq (s : Settings) :
    s.fill =
      ({ s.withTexts with
          entryPrice := filledAmount s.entryPrice defaultPrice
          quoteAmount := if s.entryPrice.isSignaling then s.quoteAmount
            else filledAmount s.quoteAmount defaultAmount },
        if s.entryPrice.isSignaling || s.quoteAmount.isSignaling then .error .invalidOperation
        else .ok ()) := by
  have hprice : s.withTexts.entryPrice = s.entryPrice := rfl
  have hamount : s.withTexts.quoteAmount = s.quoteAmount := rfl
  unfold fill
  dsimp only
  rw [hprice, amountOr_eq]
  cases hsignal : s.entryPrice.isSignaling with
  | true =>
    rw [filledAmount_of_isSignaling hsignal]
    rfl
  | false =>
    rw [if_neg Bool.false_ne_true]
    dsimp only
    rw [hamount, amountOr_eq]
    cases hsignal' : s.quoteAmount.isSignaling with
    | true =>
      rw [filledAmount_of_isSignaling hsignal']
      rfl
    | false => rfl

/-- Filling in succeeds if no amount signals. -/
theorem fill_eq_ok_iff {s : Settings} :
    s.fill.2 = .ok () ↔ s.entryPrice.isSignaling = false ∧ s.quoteAmount.isSignaling = false := by
  rw [fill_eq, ← Bool.or_eq_false_iff]
  cases s.entryPrice.isSignaling || s.quoteAmount.isSignaling <;> simp

/-- **Filled settings are filled in as they were before**, and with the same outcome. -/
theorem fill_fill (s : Settings) : s.fill.1.fill = s.fill := by
  have hprice : (filledAmount s.entryPrice defaultPrice).isSignaling = s.entryPrice.isSignaling :=
    isSignaling_filledAmount _ rfl
  have hamount : (filledAmount s.quoteAmount defaultAmount).isSignaling =
      s.quoteAmount.isSignaling := isSignaling_filledAmount _ rfl
  rw [fill_eq s, fill_eq]
  dsimp only
  rw [hprice, filledAmount_filledAmount]
  cases s.entryPrice.isSignaling with
  | true => simp [withTexts, orDefault_orDefault]
  | false => simp [withTexts, orDefault_orDefault, filledAmount_filledAmount, hamount]

/-- The settings with every unset one given its default. -/
def completed (s : Settings) : Settings :=
  { feedSession := if s.feedSession = "" then "binance" else s.feedSession
    tradingSession := if s.tradingSession = "" then "polymarket" else s.tradingSession
    sourceSymbol := if s.sourceSymbol = "" then "BTCUSDT" else s.sourceSymbol
    interval := if s.interval = "" then "15m" else s.interval
    upSymbol := if s.upSymbol = "" then "PM_BTC_15M_UP_YES_USDC" else s.upSymbol
    downSymbol := if s.downSymbol = "" then "PM_BTC_15M_UP_NO_USDC" else s.downSymbol
    entryPrice := if s.entryPrice.IsZero then .finite false 5 (-1) else s.entryPrice
    quoteAmount := if s.quoteAmount.IsZero then .ofNat 5 else s.quoteAmount }

/-- Filling in that succeeds leaves nothing unset. -/
theorem fill_eq_completed {s : Settings} (h : s.fill.2 = .ok ()) : s.fill.1 = s.completed := by
  obtain ⟨hprice, -⟩ := fill_eq_ok_iff.1 h
  rw [fill_eq, hprice, if_neg Bool.false_ne_true]
  rfl

/-- A setting is as it was, or it was unset and has its default. -/
def Kept {α : Type} (unset : α → Prop) (default before after : α) : Prop :=
  after = before ∨ unset before ∧ after = default

/-- Settings that come from others by giving some of the unset ones their defaults. -/
structure FilledFrom (before after : Settings) : Prop where
  feedSession : Kept (· = "") "binance" before.feedSession after.feedSession
  tradingSession : Kept (· = "") "polymarket" before.tradingSession after.tradingSession
  sourceSymbol : Kept (· = "") "BTCUSDT" before.sourceSymbol after.sourceSymbol
  interval : Kept (· = "") "15m" before.interval after.interval
  upSymbol : Kept (· = "") "PM_BTC_15M_UP_YES_USDC" before.upSymbol after.upSymbol
  downSymbol : Kept (· = "") "PM_BTC_15M_UP_NO_USDC" before.downSymbol after.downSymbol
  entryPrice : Kept Decimal.IsZero (.finite false 5 (-1)) before.entryPrice after.entryPrice
  quoteAmount : Kept Decimal.IsZero (.ofNat 5) before.quoteAmount after.quoteAmount

theorem kept_orDefault (s default : String) : Kept (· = "") default s (orDefault s default) := by
  unfold orDefault
  split
  · rename_i hs
    exact Or.inr ⟨hs, rfl⟩
  · exact Or.inl rfl

theorem kept_filledAmount (d default : Decimal) :
    Kept Decimal.IsZero default d (filledAmount d default) := by
  unfold filledAmount
  split
  · rename_i hd
    exact Or.inr ⟨hd, rfl⟩
  · exact Or.inl rfl

/-- **Filling in replaces what is unset and nothing else**, also if it stops midway. -/
theorem filledFrom_fill (s : Settings) : FilledFrom s s.fill.1 := by
  rw [fill_eq]
  refine ⟨kept_orDefault _ _, kept_orDefault _ _, kept_orDefault _ _, kept_orDefault _ _,
    kept_orDefault _ _, kept_orDefault _ _, kept_filledAmount _ _, ?_⟩
  dsimp only
  split
  · exact Or.inl rfl
  · exact kept_filledAmount _ _

/-! ## Checking -/

theorem refuseIf_eq_ok_iff {condition : Bool} {fault : SettingFault} :
    refuseIf condition fault = .ok () ↔ condition = false := by
  cases condition <;> simp [refuseIf]

theorem requirePositive_eq_ok_iff {d : Decimal} {fault : SettingFault} :
    requirePositive d fault = .ok () ↔ d.IsPositive := by
  rw [requirePositive, bind_eq_ok_iff, ← Decimal.le_zero_eq_false_iff]
  simp only [mapError_eq_ok_iff, refuseIf_eq_ok_iff, exists_eq_right]

/-- **Checked settings** have all texts, and amounts that are positive. -/
theorem validate_eq_ok_iff {s : Settings} :
    s.validate = .ok () ↔
      (s.feedSession ≠ "" ∧ s.tradingSession ≠ "") ∧ s.sourceSymbol ≠ "" ∧ s.interval ≠ "" ∧
        (s.upSymbol ≠ "" ∧ s.downSymbol ≠ "") ∧ s.entryPrice.IsPositive ∧
        s.quoteAmount.IsPositive := by
  simp only [validate, andThen_eq_ok_iff, refuseIf_eq_ok_iff, requirePositive_eq_ok_iff,
    Bool.or_eq_false_iff, decide_eq_false_iff_not, ne_eq]

/-- Of settings that have been filled in, only the amounts can be at fault. -/
theorem validate_fill_eq_ok_iff {s : Settings} (hfill : s.fill.2 = .ok ()) :
    s.fill.1.validate = .ok () ↔
      ∀ d ∈ [s.entryPrice, s.quoteAmount], d.isNaN = false ∧ ¬ d.IsNegative := by
  obtain ⟨hprice, -⟩ := fill_eq_ok_iff.1 hfill
  have hhalf : defaultPrice.IsPositive := by decide
  have hfive : defaultAmount.IsPositive := by decide
  rw [validate_eq_ok_iff, fill_eq, hprice, if_neg Bool.false_ne_true]
  dsimp only [withTexts]
  rw [isPositive_filledAmount hhalf, isPositive_filledAmount hfive, List.forall_mem_cons,
    List.forall_mem_singleton]
  exact ⟨fun h => h.2.2.2.2, fun h =>
    ⟨⟨orDefault_ne_empty _ (by decide), orDefault_ne_empty _ (by decide)⟩,
      orDefault_ne_empty _ (by decide), orDefault_ne_empty _ (by decide),
      ⟨orDefault_ne_empty _ (by decide), orDefault_ne_empty _ (by decide)⟩, h⟩⟩

end Settings

/-! ## Binding -/

variable {σ : Type}

theorem exists_findSession_iff (role : SessionRole) {sessions : Table String σ} {name : String} :
    (∃ session, findSession sessions role name = .ok session) ↔ Table.has sessions name := by
  simp only [findSession_eq_ok_iff, Table.has, Option.isSome_iff_exists]

/-- Settings resolve to a session if they pass their check and both sessions are there. -/
theorem exists_resolve_iff {s : Settings} {sessions : Table String σ} :
    (∃ session, resolve s sessions = .ok session) ↔
      s.validate = .ok () ∧ Table.has sessions s.feedSession ∧
        Table.has sessions s.tradingSession := by
  rw [← exists_findSession_iff .feed, ← exists_findSession_iff .trading]
  constructor
  · rintro ⟨session, h⟩
    obtain ⟨hvalid, h⟩ := andThen_eq_ok_iff.1 h
    obtain ⟨feed, hfeed, htrading⟩ := bind_eq_ok_iff.1 h
    exact ⟨hvalid, ⟨feed, hfeed⟩, session, htrading⟩
  · rintro ⟨hvalid, ⟨feed, hfeed⟩, session, htrading⟩
    exact ⟨session, andThen_eq_ok_iff.2 ⟨hvalid, bind_eq_ok_iff.2 ⟨feed, hfeed, htrading⟩⟩⟩

/-- A binding fills in, and does nothing else to the settings. -/
theorem settings_bind (u : UpDown σ) (sessions : Table String σ) :
    (u.bind sessions).1.settings = u.settings.fill.1 := by
  rw [bind, fillDefaults]
  dsimp only
  cases u.settings.fill.2 with
  | error e => rfl
  | ok _ =>
    dsimp only [mapError_ok]
    cases resolve u.settings.fill.1 sessions <;> rfl

/-- A binding succeeds if filling in does and the filled settings resolve to a session, which is
then attached. -/
theorem bind_of_resolve {u : UpDown σ} {sessions : Table String σ} {session : σ}
    (hfill : u.settings.fill.2 = .ok ()) (h : resolve u.settings.fill.1 sessions = .ok session) :
    u.bind sessions = ({ settings := u.settings.fill.1, trading := some session }, .ok ()) := by
  rw [bind, fillDefaults]
  dsimp only
  rw [hfill]
  dsimp only [mapError_ok]
  rw [h]

theorem exists_of_bind {u : UpDown σ} {sessions : Table String σ}
    (h : (u.bind sessions).2 = .ok ()) :
    u.settings.fill.2 = .ok () ∧ ∃ session, resolve u.settings.fill.1 sessions = .ok session := by
  rw [bind, fillDefaults] at h
  dsimp only at h
  cases hfill : u.settings.fill.2 with
  | error e => rw [hfill] at h; cases h
  | ok _ =>
    rw [hfill] at h
    dsimp only [mapError_ok] at h
    cases hresolve : resolve u.settings.fill.1 sessions with
    | error e => rw [hresolve] at h; cases h
    | ok session => exact ⟨rfl, session, rfl⟩

/-- **When a binding succeeds**: both amounts are numbers and not negative, and the sessions that
the settings name, or the ones that stand for unset names, are there. -/
theorem snd_bind_eq_ok_iff {u : UpDown σ} {sessions : Table String σ} :
    (u.bind sessions).2 = .ok () ↔
      (∀ d ∈ [u.settings.entryPrice, u.settings.quoteAmount], d.isNaN = false ∧ ¬ d.IsNegative) ∧
        Table.has sessions (Settings.orDefault u.settings.feedSession "binance") ∧
        Table.has sessions (Settings.orDefault u.settings.tradingSession "polymarket") := by
  have hfeed : u.settings.fill.1.feedSession =
      Settings.orDefault u.settings.feedSession "binance" := by rw [Settings.fill_eq]; rfl
  have htrading : u.settings.fill.1.tradingSession =
      Settings.orDefault u.settings.tradingSession "polymarket" := by rw [Settings.fill_eq]; rfl
  constructor
  · intro h
    obtain ⟨hfill, hresolve⟩ := exists_of_bind h
    rw [exists_resolve_iff, Settings.validate_fill_eq_ok_iff hfill, hfeed, htrading] at hresolve
    exact hresolve
  · intro h
    have hfill : u.settings.fill.2 = .ok () := Settings.fill_eq_ok_iff.2
      ⟨Decimal.isSignaling_of_isNaN (h.1 _ List.mem_cons_self).1,
        Decimal.isSignaling_of_isNaN (h.1 _ (List.mem_cons_of_mem _ List.mem_cons_self)).1⟩
    rw [← hfeed, ← htrading, ← Settings.validate_fill_eq_ok_iff hfill] at h
    obtain ⟨session, hsession⟩ := exists_resolve_iff.2 h
    rw [bind_of_resolve hfill hsession]

/-- **What a binding that succeeds stores**: the completed settings and the session they name. -/
theorem fst_bind_of_ok {u : UpDown σ} {sessions : Table String σ}
    (h : (u.bind sessions).2 = .ok ()) :
    ∃ session, Table.get? sessions u.settings.completed.tradingSession = some session ∧
      (u.bind sessions).1 = { settings := u.settings.completed, trading := some session } := by
  obtain ⟨hfill, session, hsession⟩ := exists_of_bind h
  rw [bind_of_resolve hfill hsession]
  rw [Settings.fill_eq_completed hfill] at hsession ⊢
  obtain ⟨-, hsession⟩ := andThen_eq_ok_iff.1 hsession
  obtain ⟨feed, -, htrading⟩ := bind_eq_ok_iff.1 hsession
  exact ⟨session, findSession_eq_ok_iff.1 htrading, rfl⟩

/-! ## One binding after another -/

/-- **What a binding leads to depends on what is filled in**: settings that are filled in alike are
bound alike, and if that succeeds nothing is left of the session attached before. -/
theorem bind_congr {u v : UpDown σ} (h : u.settings.fill = v.settings.fill)
    (sessions : Table String σ) :
    ((u.bind sessions).2 = .ok () ↔ (v.bind sessions).2 = .ok ()) ∧
      ((u.bind sessions).2 = .ok () → (u.bind sessions).1 = (v.bind sessions).1) := by
  have hsame : ∀ {u v : UpDown σ}, u.settings.fill = v.settings.fill →
      (u.bind sessions).2 = .ok () → u.bind sessions = v.bind sessions := by
    intro u v h hok
    obtain ⟨hfill, session, hsession⟩ := exists_of_bind hok
    rw [bind_of_resolve hfill hsession]
    rw [h] at hfill hsession
    rw [bind_of_resolve hfill hsession, h]
  refine ⟨⟨fun hok => ?_, fun hok => ?_⟩, fun hok => ?_⟩
  · rw [← hsame h hok]; exact hok
  · rw [← hsame h.symm hok]; exact hok
  · rw [hsame h hok]

/-- Bind the strategy to one map of sessions after another, whether that succeeds or not. -/
def bindAll (u : UpDown σ) (maps : List (Table String σ)) : UpDown σ :=
  maps.foldl (fun u sessions => (u.bind sessions).1) u

/-- Bindings leave the settings such that filling them in leads where it led at first. -/
theorem fill_settings_bindAll (u : UpDown σ) (maps : List (Table String σ)) :
    (u.bindAll maps).settings.fill = u.settings.fill := by
  induction maps generalizing u with
  | nil => rfl
  | cons sessions maps ih =>
    have hstep : (u.bind sessions).1.settings.fill = u.settings.fill := by
      rw [settings_bind, Settings.fill_fill]
    exact (ih _).trans hstep

/-- **Binding does no harm.**

* It succeeds exactly if both amounts are numbers and not negative, and the session map has the
  sessions that are named after unset names have been filled in.
* If it succeeds, every unset setting has its default, the others are as they were, and the trading
  session of that name is attached.
* If it fails, the session attached before stays attached, and the settings change at most by what
  was unset getting its default.
* So a binding that succeeds after others, whatever became of these, has led to the settings and the
  session that it would have led to alone. -/
theorem bind_laws (u : UpDown σ) :
    (∀ sessions, (u.bind sessions).2 = .ok () ↔
      (∀ d ∈ [u.settings.entryPrice, u.settings.quoteAmount], d.isNaN = false ∧ ¬ d.IsNegative) ∧
        Table.has sessions
          (if u.settings.feedSession = "" then "binance" else u.settings.feedSession) ∧
        Table.has sessions
          (if u.settings.tradingSession = "" then "polymarket" else u.settings.tradingSession)) ∧
    (∀ sessions, (u.bind sessions).2 = .ok () →
      ∃ session, Table.get? sessions u.settings.completed.tradingSession = some session ∧
        (u.bind sessions).1 = { settings := u.settings.completed, trading := some session }) ∧
    (∀ sessions e, (u.bind sessions).2 = .error e →
      (u.bind sessions).1.trading = u.trading ∧
        Settings.FilledFrom u.settings (u.bind sessions).1.settings) ∧
    ∀ earlier last, ((u.bindAll earlier).bind last).2 = .ok () →
      (u.bind last).2 = .ok () ∧ ((u.bindAll earlier).bind last).1 = (u.bind last).1 := by
  refine ⟨fun sessions => snd_bind_eq_ok_iff, fun sessions hok => fst_bind_of_ok hok,
    fun sessions e he => ⟨trading_bind_of_error he, ?_⟩, fun earlier last hok => ?_⟩
  · rw [settings_bind]
    exact u.settings.filledFrom_fill
  · obtain ⟨hiff, hsame⟩ := bind_congr (u.fill_settings_bindAll earlier) last
    exact ⟨hiff.1 hok, hsame hok⟩

/-- A strategy whose price is a zero with a minus sign. -/
def minusZeroPriced : UpDown Nat := { settings := { entryPrice := .finite true 0 3 } }

/-- Twice a session is missing, and the third binding leads where it would have led at first. -/
theorem bind_laws_thirdTime :
    let both : Table String Nat := [("binance", 1), ("polymarket", 2)]
    ((minusZeroPriced.bindAll [[], [("binance", 1)]]).bind both).2 = .ok () ∧
      ((minusZeroPriced.bindAll [[], [("binance", 1)]]).bind both).1 =
        (minusZeroPriced.bind both).1 ∧
      (minusZeroPriced.bind both).1.trading = some 2 := by
  intro both
  have hok : ((minusZeroPriced.bindAll [[], [("binance", 1)]]).bind both).2 = .ok () := by
    rw [(bind_laws _).1]
    decide
  exact ⟨hok, ((bind_laws minusZeroPriced).2.2.2 _ both hok).2, by decide⟩

end UpDown

end PaperVenue
