/-!
# Tables in order of first insertion

A `Table` is a list of keys with their values.  `Table.put` overwrites the value of a key where
the key stands, or adds the key at the end, so a table built by `put` holds each key once, in the
order in which the keys first came, with the value that came last.  That is the rule for members
of an object with a repeated name, for catalog entries with a repeated symbol, for environment
variables and for files, and it is stated once, here.
-/

namespace PaperVenue

/-- Keys with their values. -/
abbrev Table (κ α : Type) := List (κ × α)

namespace Table

variable {κ α β : Type} [DecidableEq κ]

/-- The value of a key. -/
def get? (t : Table κ α) (k : κ) : Option α :=
  (List.find? (fun e => e.1 = k) t).map Prod.snd

/-- The keys, in order. -/
def keys (t : Table κ α) : List κ := List.map Prod.fst t

/-- The values, in order of their keys. -/
def values (t : Table κ α) : List α := List.map Prod.snd t

/-- Is there a value for the key? -/
def has (t : Table κ α) (k : κ) : Bool := (get? t k).isSome

/-- Overwrite the value of a key where the key stands, or add the key at the end. -/
def put : Table κ α → κ → α → Table κ α
  | [], k, v => [(k, v)]
  | (k', v') :: t, k, v => if k' = k then (k, v) :: t else (k', v') :: put t k v

/-- Put several entries, the first one first. -/
def putAll (t : Table κ α) (entries : List (κ × α)) : Table κ α :=
  entries.foldl (fun t e => put t e.1 e.2) t

/-- The table of a list of entries, of which the last with a key counts. -/
def ofList (entries : List (κ × α)) : Table κ α := putAll [] entries

/-- The table without a key. -/
def erase (t : Table κ α) (k : κ) : Table κ α := List.filter (fun e => e.1 ≠ k) t

/-- Change every value, knowing its key. -/
def mapValues (f : κ → α → β) (t : Table κ α) : Table κ β := List.map (fun e => (e.1, f e.1 e.2)) t

@[simp] theorem get?_nil (k : κ) : get? ([] : Table κ α) k = none := rfl

theorem get?_cons (k' k : κ) (v : α) (t : Table κ α) :
    get? ((k', v) :: t) k = if k' = k then some v else get? t k := by
  by_cases h : k' = k <;> simp [get?, h]

/-- **Reading after a write**: the new value under its key, the old ones elsewhere. -/
theorem get?_put (t : Table κ α) (k k' : κ) (v : α) :
    get? (put t k v) k' = if k = k' then some v else get? t k' := by
  induction t with
  | nil => simp [put, get?_cons]
  | cons e t ih =>
    obtain ⟨k₀, v₀⟩ := e
    by_cases h : k₀ = k
    · subst h; by_cases h' : k₀ = k' <;> simp [put, get?_cons, h']
    · by_cases h' : k = k'
      · subst h'; simp [put, get?_cons, h, ih]
      · simp [put, get?_cons, h, ih, h']

/-- A write adds its key at the end if the table lacks it, and no key otherwise. -/
theorem keys_put (t : Table κ α) (k : κ) (v : α) :
    keys (put t k v) = if k ∈ keys t then keys t else keys t ++ [k] := by
  induction t with
  | nil => simp [put, keys]
  | cons e t ih =>
    obtain ⟨k₀, v₀⟩ := e
    by_cases h : k₀ = k
    · subst h; simp [put, keys]
    · have h' : k ≠ k₀ := fun e => h e.symm
      simp only [keys] at ih
      by_cases hk : k ∈ List.map Prod.fst t <;> simp_all [put, keys]

/-- A table built by writes holds each key once. -/
theorem nodup_keys_put {t : Table κ α} (h : (keys t).Nodup) (k : κ) (v : α) :
    (keys (put t k v)).Nodup := by
  rw [keys_put]
  split
  · exact h
  · rename_i hk
    exact List.nodup_append.2 ⟨h, by simp, by
      intro a ha b hb
      simp only [List.mem_singleton] at hb
      exact fun e => hk (by rw [← hb, ← e]; exact ha)⟩

/-! ## Many writes -/

@[simp] theorem putAll_nil (t : Table κ α) : putAll t [] = t := rfl

@[simp] theorem putAll_cons (t : Table κ α) (e : κ × α) (es : List (κ × α)) :
    putAll t (e :: es) = putAll (put t e.1 e.2) es := rfl

theorem putAll_append (t : Table κ α) (es es' : List (κ × α)) :
    putAll t (es ++ es') = putAll (putAll t es) es' := List.foldl_append

theorem mem_keys_put {t : Table κ α} {k k' : κ} {v : α} :
    k' ∈ keys (put t k v) ↔ k' ∈ keys t ∨ k' = k := by
  rw [keys_put]
  split
  · rename_i hk
    exact (or_iff_left_of_imp fun e => e ▸ hk).symm
  · rw [List.mem_append, List.mem_singleton]

/-- Writes add the keys they write. -/
theorem mem_keys_putAll {t : Table κ α} {es : List (κ × α)} {k : κ} :
    k ∈ keys (putAll t es) ↔ k ∈ keys t ∨ k ∈ es.map Prod.fst := by
  induction es generalizing t with
  | nil => simp
  | cons e es ih => rw [putAll_cons, ih, mem_keys_put, List.map_cons, List.mem_cons, or_assoc]

/-- Writes leave the keys that are there where they are. -/
theorem exists_keys_putAll (t : Table κ α) (es : List (κ × α)) :
    ∃ more, keys (putAll t es) = keys t ++ more := by
  induction es generalizing t with
  | nil => exact ⟨[], (List.append_nil _).symm⟩
  | cons e es ih =>
    obtain ⟨more, hmore⟩ := ih (put t e.1 e.2)
    rw [putAll_cons, hmore, keys_put]
    split
    · exact ⟨more, rfl⟩
    · exact ⟨e.1 :: more, by rw [List.append_assoc, List.singleton_append]⟩

theorem nodup_keys_putAll {t : Table κ α} (h : (keys t).Nodup) (es : List (κ × α)) :
    (keys (putAll t es)).Nodup := by
  induction es generalizing t with
  | nil => exact h
  | cons e es ih => exact ih (nodup_keys_put h e.1 e.2)

/-- A key that is not written keeps its value. -/
theorem get?_putAll_of_not_mem {t : Table κ α} {es : List (κ × α)} {k : κ}
    (h : k ∉ es.map Prod.fst) : get? (putAll t es) k = get? t k := by
  induction es generalizing t with
  | nil => rfl
  | cons e es ih =>
    rw [List.map_cons, List.mem_cons, not_or] at h
    rw [putAll_cons, ih h.2, get?_put, if_neg fun hk => h.1 hk.symm]

/-- **The keys of a table of entries** are the keys of the entries. -/
theorem mem_keys_ofList {es : List (κ × α)} {k : κ} :
    k ∈ keys (ofList es) ↔ k ∈ es.map Prod.fst := by
  rw [ofList, mem_keys_putAll]
  exact or_iff_right (List.not_mem_nil)

/-- A table of entries holds each key once. -/
theorem nodup_keys_ofList (es : List (κ × α)) : (keys (ofList es)).Nodup :=
  nodup_keys_putAll (t := []) List.nodup_nil es

/-- **The last entry of a key counts.** -/
theorem get?_ofList_of_last (es : List (κ × α)) (k : κ) (v : α) {es' : List (κ × α)}
    (h : k ∉ es'.map Prod.fst) : get? (ofList (es ++ (k, v) :: es')) k = some v := by
  rw [ofList, putAll_append, putAll_cons, get?_putAll_of_not_mem h, get?_put, if_pos rfl]

theorem mem_put {t : Table κ α} {k : κ} {v : α} {e : κ × α} (h : e ∈ put t k v) :
    e ∈ t ∨ e = (k, v) := by
  induction t with
  | nil => exact Or.inr (List.mem_singleton.1 h)
  | cons e' t ih =>
    rw [put] at h
    split at h
    · exact (List.mem_cons.1 h).symm.imp_left (List.mem_cons_of_mem e')
    · rcases List.mem_cons.1 h with rfl | h
      · exact Or.inl List.mem_cons_self
      · exact (ih h).imp_left (List.mem_cons_of_mem e')

theorem mem_putAll {t : Table κ α} {es : List (κ × α)} {e : κ × α} (h : e ∈ putAll t es) :
    e ∈ t ∨ e ∈ es := by
  induction es generalizing t with
  | nil => exact Or.inl h
  | cons e' es ih =>
    rcases ih h with h | h
    · rcases mem_put h with h | rfl
      · exact Or.inl h
      · exact Or.inr List.mem_cons_self
    · exact Or.inr (List.mem_cons_of_mem e' h)

/-- A table of entries holds nothing else. -/
theorem mem_of_mem_ofList {es : List (κ × α)} {e : κ × α} (h : e ∈ ofList es) : e ∈ es :=
  (mem_putAll h).resolve_left List.not_mem_nil

/-! ## Look-up and keys -/

/-- A look-up finds nothing exactly if the key is missing. -/
theorem get?_eq_none_iff {t : Table κ α} {k : κ} : get? t k = none ↔ k ∉ keys t := by
  induction t with
  | nil => simp [keys]
  | cons e t ih =>
    obtain ⟨k', v⟩ := e
    rw [get?_cons]
    by_cases h : k' = k
    · simp [keys, h]
    · simp only [h, if_false, ih, keys, List.map_cons, List.mem_cons, not_or]
      exact ⟨fun hk => ⟨fun e => h e.symm, hk⟩, And.right⟩

/-- What stands in a table is found, if keys do not repeat. -/
theorem get?_of_mem {t : Table κ α} (ht : (keys t).Nodup) {k : κ} {v : α} (h : (k, v) ∈ t) :
    get? t k = some v := by
  induction t with
  | nil => exact absurd h List.not_mem_nil
  | cons e t ih =>
    obtain ⟨k', v'⟩ := e
    simp only [keys, List.map_cons, List.nodup_cons] at ht
    rw [get?_cons]
    rcases List.mem_cons.1 h with heq | h
    · obtain ⟨rfl, rfl⟩ := Prod.mk.inj heq
      rw [if_pos rfl]
    · have hne : k' ≠ k := by
        rintro rfl
        exact ht.1 (List.mem_map_of_mem h)
      rw [if_neg hne]
      exact ih ht.2 h

/-- An entry does not stand in the way of another key. -/
theorem get?_append_cons_of_ne {front back : Table κ α} {k k' : κ} (v : α) (h : k ≠ k') :
    get? (front ++ (k, v) :: back) k' = get? (front ++ back) k' := by
  induction front with
  | nil => rw [List.nil_append, List.nil_append, get?_cons, if_neg h]
  | cons e front ih => rw [List.cons_append, List.cons_append, get?_cons, get?_cons, ih]

/-- The first entry of a key counts. -/
theorem get?_append_cons_self {front : Table κ α} {k : κ} (back : Table κ α) (v : α)
    (h : k ∉ keys front) : get? (front ++ (k, v) :: back) k = some v := by
  induction front with
  | nil => rw [List.nil_append, get?_cons, if_pos rfl]
  | cons e front ih =>
    simp only [keys, List.map_cons, List.mem_cons, not_or] at h
    rw [List.cons_append, get?_cons, if_neg fun hk => h.1 hk.symm, ih h.2]

/-- A write under a new key adds its entry at the end. -/
theorem put_of_not_mem {t : Table κ α} {k : κ} (h : k ∉ keys t) (v : α) :
    put t k v = t ++ [(k, v)] := by
  induction t with
  | nil => rfl
  | cons e t ih =>
    obtain ⟨k', v'⟩ := e
    simp only [keys, List.map_cons, List.mem_cons, not_or] at h
    rw [put, if_neg (fun e => h.1 e.symm), ih h.2, List.cons_append]

omit [DecidableEq κ] in
/-- A table is its keys with its values. -/
theorem zip_keys_values (t : Table κ α) : (keys t).zip (values t) = t := by
  rw [keys, values, List.zip_map']
  exact List.map_id t

/-- Entries with new keys that do not repeat are added as they are. -/
theorem putAll_of_nodup {t : Table κ α} {es : List (κ × α)}
    (h : (keys (t ++ es)).Nodup) : putAll t es = t ++ es := by
  induction es generalizing t with
  | nil => exact (List.append_nil t).symm
  | cons e es ih =>
    have hnew : e.1 ∉ keys t := by
      rw [keys, List.map_append, List.map_cons] at h
      exact fun he => (List.nodup_append.1 h).2.2 _ he _ List.mem_cons_self rfl
    rw [List.append_cons] at h
    rw [putAll_cons, put_of_not_mem hnew, ih h, ← List.append_cons]

/-- The table of entries with distinct keys is these entries. -/
theorem ofList_of_nodup {es : List (κ × α)} (h : (es.map Prod.fst).Nodup) : ofList es = es :=
  putAll_of_nodup (t := []) h

/-- **Reading after a key was taken away**: nothing under it, and the old values elsewhere. -/
theorem get?_erase (t : Table κ α) (k k' : κ) :
    get? (erase t k) k' = if k = k' then none else get? t k' := by
  induction t with
  | nil => simp [erase]
  | cons e t ih =>
    obtain ⟨k₀, v⟩ := e
    by_cases hk : k₀ = k
    · have hgone : erase ((k₀, v) :: t) k = erase t k := List.filter_cons_of_neg (by simp [hk])
      rw [hgone, ih, get?_cons, hk]
      split <;> rfl
    · have hkept : erase ((k₀, v) :: t) k = (k₀, v) :: erase t k :=
        List.filter_cons_of_pos (by simp [hk])
      rw [hkept, get?_cons, ih, get?_cons]
      by_cases hk' : k₀ = k'
      · subst hk'
        rw [if_pos rfl, if_pos rfl, if_neg (Ne.symm hk)]
      · rw [if_neg hk', if_neg hk']

/-! ## Changing values -/

omit [DecidableEq κ] in
theorem keys_mapValues (f : κ → α → β) (t : Table κ α) : keys (mapValues f t) = keys t := by
  simp [keys, mapValues, Function.comp_def]

theorem get?_mapValues (f : κ → α → β) (t : Table κ α) (k : κ) :
    get? (mapValues f t) k = (get? t k).map (f k) := by
  induction t with
  | nil => rfl
  | cons e t ih =>
    obtain ⟨k', v⟩ := e
    rw [get?_cons, show mapValues f ((k', v) :: t) = (k', f k' v) :: mapValues f t from rfl,
      get?_cons]
    by_cases h : k' = k
    · subst h; simp
    · simp [h, ih]

theorem mapValues_put (f : κ → α → β) (t : Table κ α) (k : κ) (v : α) :
    mapValues f (put t k v) = put (mapValues f t) k (f k v) := by
  induction t with
  | nil => rfl
  | cons e t ih =>
    obtain ⟨k', v'⟩ := e
    rw [put, show mapValues f ((k', v') :: t) = (k', f k' v') :: mapValues f t from rfl, put]
    split
    · rfl
    · rw [← ih]
      rfl

/-- **Changing values before or after they are written** is the same. -/
theorem mapValues_ofList (f : κ → α → β) (es : List (κ × α)) :
    mapValues f (ofList es) = ofList (mapValues f es) := by
  suffices h : ∀ t : Table κ α,
      mapValues f (putAll t es) = putAll (mapValues f t) (mapValues f es) from h []
  induction es with
  | nil => exact fun t => rfl
  | cons e es ih =>
    intro t
    rw [putAll_cons, ih, mapValues_put]
    rfl

omit [DecidableEq κ] in
/-- A change that leaves every value as it is leaves the table as it is. -/
theorem mapValues_eq_self {f : κ → α → α} {t : Table κ α} (h : ∀ e ∈ t, f e.1 e.2 = e.2) :
    mapValues f t = t := by
  have h' : ∀ e ∈ t, (fun e : κ × α => (e.1, f e.1 e.2)) e = e := fun e he => by simp [h e he]
  rw [mapValues, List.map_congr_left h', List.map_id']

/-- **Overwriting a value computed from the old one** changes that one value, if keys do not
repeat. -/
theorem put_eq_mapValues {t : Table κ α} (ht : (keys t).Nodup) {k : κ} {v : α}
    (h : get? t k = some v) (f : α → α) :
    put t k (f v) = mapValues (fun k' v' => if k' = k then f v' else v') t := by
  induction t with
  | nil => simp at h
  | cons e t ih =>
    obtain ⟨k', v'⟩ := e
    simp only [keys, List.map_cons, List.nodup_cons] at ht
    rw [get?_cons] at h
    rw [put, show mapValues (fun k' v' => if k' = k then f v' else v') ((k', v') :: t) =
      (k', if k' = k then f v' else v') ::
        mapValues (fun k' v' => if k' = k then f v' else v') t from rfl]
    by_cases hk : k' = k
    · subst hk
      obtain rfl := Option.some.inj ((if_pos rfl).symm.trans h)
      rw [if_pos rfl, if_pos rfl, mapValues_eq_self]
      rintro ⟨k₀, v₀⟩ he
      refine if_neg fun hek : k₀ = k' => ht.1 ?_
      rw [← hek]
      exact List.mem_map_of_mem he
    · rw [if_neg hk] at h
      rw [if_neg hk, if_neg hk, ih ht.2 h]

/-- A key stands for at most one value, if keys do not repeat. -/
theorem countP_key {t : Table κ α} (ht : (keys t).Nodup) (p : α → Bool) (k : κ) :
    t.countP (fun e => p e.2 && decide (e.1 = k)) = if (get? t k).any p then 1 else 0 := by
  induction t with
  | nil => rfl
  | cons e t ih =>
    obtain ⟨k', v⟩ := e
    simp only [keys, List.map_cons, List.nodup_cons] at ht
    rw [List.countP_cons, ih ht.2, get?_cons]
    by_cases hk : k' = k
    · subst hk
      have hnone : get? t k' = none := get?_eq_none_iff.2 ht.1
      simp [hnone]
    · simp [hk]

end Table

end PaperVenue
