import PaperVenue.Proofs.EnvFile.Search
import PaperVenue.Proofs.Outcome

/-!
# When an environment file can be loaded

Loading fails over the name of the file, over octets that are no text, or over a variable that no
environment can hold.  A file that is not there, and a line that is no binding, are no failures.

What the lines say is a table with each key once, so whether a key is set already does not depend
on the keys before it.  That is why `Storable` can look at the environment before the file is
loaded, and at nothing in between.
-/

namespace PaperVenue

namespace EnvFile

/-- Every value that the environment lacks is one that it can hold. -/
def Storable (env : Environment) (entries : Table String (Option String)) : Prop :=
  ∀ e ∈ entries, ∀ value ∈ e.2,
    Table.has env e.1 ∨ Surroundings.variableFault? e.1 value = none

/-- Environment files are switched off, or the path to the file that is chosen holds no NUL and the
file, if it is there, is a text that can be put into the environment. -/
def Loadable (env : Environment) (files : Files) (path : Option String) : Prop :=
  isDisabled env ∨ ∀ name, Chosen files path name → '\x00' ∉ name.toList ∧
    ∀ octets ∈ files.read? name, ∃ text, Utf8.decode false octets = .ok text ∧
      Storable env (resolve env (bindings (text.toChars?.getD [])))

theorem exists_setMissing_iff (env : Environment) (e : String × Option String) :
    (∃ env', setMissing env e = .ok env') ↔
      ∀ value ∈ e.2, Table.has env e.1 ∨ Surroundings.variableFault? e.1 value = none := by
  obtain ⟨key, value⟩ := e
  cases value with
  | none => exact iff_of_true ⟨env, rfl⟩ nofun
  | some value =>
    rw [setMissing]
    by_cases hhas : Table.has env key
    · simp [hhas]
    · cases hfault : Surroundings.variableFault? key value <;> simp [hhas, hfault]

/-- A variable of another name is not touched. -/
theorem has_of_setMissing {env env' : Environment} {e : String × Option String}
    (h : setMissing env e = .ok env') {key : String} (hkey : e.1 ≠ key) :
    Table.has env' key = Table.has env key := by
  rw [setMissing] at h
  split at h
  · rw [Except.ok.inj h]
  · split at h
    · rw [Except.ok.inj h]
    · split at h
      · exact absurd h (by simp)
      · rw [← Except.ok.inj h, Table.has, Table.has, Table.get?_put, if_neg hkey]

theorem exists_foldlM_setMissing_iff {entries : Table String (Option String)}
    (hkeys : (Table.keys entries).Nodup) (env : Environment) :
    (∃ env', entries.foldlM setMissing env = .ok env') ↔ Storable env entries := by
  induction entries generalizing env with
  | nil => exact iff_of_true ⟨env, rfl⟩ nofun
  | cons e entries ih =>
    obtain ⟨hnew, hrest⟩ := List.nodup_cons.1 hkeys
    have hlater : ∀ env₁, setMissing env e = .ok env₁ →
        (Storable env₁ entries ↔ Storable env entries) := by
      intro env₁ h₁
      have hhas : ∀ e' ∈ entries, Table.has env₁ e'.1 = Table.has env e'.1 := fun e' he' =>
        has_of_setMissing h₁ fun heq => hnew (heq ▸ List.mem_map_of_mem he')
      constructor
      · intro h e' he'
        rw [← hhas e' he']
        exact h e' he'
      · intro h e' he'
        rw [hhas e' he']
        exact h e' he'
    rw [Storable, List.forall_mem_cons, ← exists_setMissing_iff, List.foldlM_cons]
    constructor
    · rintro ⟨env', henv'⟩
      obtain ⟨env₁, h₁, hrun⟩ := bind_eq_ok_iff.1 henv'
      exact ⟨⟨env₁, h₁⟩, (hlater env₁ h₁).1 ((ih hrest env₁).1 ⟨env', hrun⟩)⟩
    · rintro ⟨⟨env₁, h₁⟩, hstorable⟩
      obtain ⟨env', hrun⟩ := (ih hrest env₁).2 ((hlater env₁ h₁).2 hstorable)
      exact ⟨env', bind_eq_ok_iff.2 ⟨env₁, h₁, hrun⟩⟩

theorem nodup_keys_resolve (env : Environment) (bs : List Binding) :
    (Table.keys (resolve env bs)).Nodup := by
  have hfold : ∀ earlier : Table String (Option String), (Table.keys earlier).Nodup →
      (Table.keys (bs.foldl (addBinding env) earlier)).Nodup := by
    induction bs with
    | nil => exact fun _ h => h
    | cons b bs ih => exact fun earlier h => ih _ (Table.nodup_keys_put h _ _)
  exact hfold [] List.nodup_nil

theorem exists_extendBy_iff {env : Environment} {text? : Option (List Char)} :
    (∃ env', extendBy env text? = .ok env') ↔
      ∀ cs ∈ text?, Storable env (resolve env (bindings cs)) := by
  cases text? with
  | none => exact iff_of_true ⟨env, rfl⟩ (by simp)
  | some cs =>
    have hiff := exists_foldlM_setMissing_iff (nodup_keys_resolve env (bindings cs)) env
    simpa [extendBy, extend] using hiff

theorem text_eq_ok_iff {octets : List UInt8} {cs : List Char} :
    text octets = .ok cs ↔
      ∃ t, Utf8.decode false octets = .ok t ∧ t.toChars?.getD [] = cs := by
  simp only [text, map_eq_ok_iff, mapError_eq_ok_iff]

/-- A path without a NUL can be read: there is no file, or its octets are a text. -/
theorem textAt?_eq_ok_iff {files : Files} {name : String} {text? : Option (List Char)} :
    textAt? files name = .ok text? ↔ '\x00' ∉ name.toList ∧
      (files.read? name = none ∧ text? = none ∨
        ∃ octets cs, files.read? name = some octets ∧ text octets = .ok cs ∧ text? = some cs) := by
  rw [textAt?]
  by_cases hnul : '\x00' ∈ name.toList
  · rw [if_pos (List.contains_iff_mem.2 hnul)]
    exact iff_of_false (by simp) fun h => h.1 hnul
  · rw [if_neg (mt List.contains_iff_mem.1 hnul), and_iff_right hnul]
    cases files.read? name with
    | none => simp [eq_comm]
    | some octets =>
      dsimp only
      rw [map_eq_ok_iff]
      simp [eq_comm]

/-- What a file adds can be added exactly if its path holds no NUL and the file, if it is there, is a
text whose entries can be stored. -/
theorem exists_textAt?_extendBy_iff {env : Environment} {files : Files} {name : String} :
    (∃ env', (textAt? files name >>= extendBy env) = .ok env') ↔
      '\x00' ∉ name.toList ∧ ∀ octets ∈ files.read? name, ∃ text,
        Utf8.decode false octets = .ok text ∧
          Storable env (resolve env (bindings (text.toChars?.getD []))) := by
  simp only [bind_eq_ok_iff]
  constructor
  · rintro ⟨env', text?, htext, hextend⟩
    have hstorable := exists_extendBy_iff.1 ⟨env', hextend⟩
    obtain ⟨hnul, ⟨hnone, -⟩ | ⟨octets, cs, hoctets, hcs, rfl⟩⟩ := textAt?_eq_ok_iff.1 htext
    · exact ⟨hnul, by simp [hnone]⟩
    · obtain ⟨t, ht, rfl⟩ := text_eq_ok_iff.1 hcs
      refine ⟨hnul, fun octets' hoctets' => ?_⟩
      obtain rfl := Option.some.inj (hoctets.symm.trans hoctets')
      exact ⟨t, ht, hstorable _ rfl⟩
  · rintro ⟨hnul, hread⟩
    cases hoctets : files.read? name with
    | none => exact ⟨env, none, textAt?_eq_ok_iff.2 ⟨hnul, Or.inl ⟨hoctets, rfl⟩⟩, rfl⟩
    | some octets =>
      obtain ⟨t, ht, hstorable⟩ := hread octets hoctets
      have htext := text_eq_ok_iff.2 ⟨t, ht, rfl⟩
      have hstored : ∀ cs ∈ some (t.toChars?.getD []), Storable env (resolve env (bindings cs)) :=
        fun cs hcs => Option.some.inj hcs ▸ hstorable
      obtain ⟨env', hextend⟩ := exists_extendBy_iff.2 hstored
      exact ⟨env', _, textAt?_eq_ok_iff.2 ⟨hnul, Or.inr ⟨_, _, hoctets, htext, rfl⟩⟩, hextend⟩

/-- **A file is loaded** exactly if it is loadable. -/
theorem exists_load_iff (env : Environment) (files : Files) (path : Option String) :
    (∃ env', load env files path = .ok env') ↔ Loadable env files path := by
  rw [load, Loadable]
  cases isDisabled env with
  | true => exact iff_of_true ⟨env, rfl⟩ (Or.inl rfl)
  | false =>
    rw [if_neg Bool.false_ne_true, or_iff_right Bool.false_ne_true, chosenText?]
    simp only [← chosen?_eq_some_iff]
    cases chosen? files path with
    | none => exact iff_of_true ⟨env, rfl⟩ (by simp)
    | some name => simpa using exists_textAt?_extendBy_iff

end EnvFile

end PaperVenue
