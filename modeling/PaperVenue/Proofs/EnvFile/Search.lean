import PaperVenue.EnvFile.Loading

/-!
# The nearest environment file

The search for an environment file goes as far up as there is anything known, `Files.height`, and no
further.  That is far enough: `nearest?_eq_none_iff` says that if nothing is found, then there is no
environment file in any directory above, and `nearest?_eq_some_iff` that what is found is the nearest
one.

The reason is that a path `../../.env` is walked one directory up at a time, and every directory on
the way is there (`Files.walk_searchPath`).  So what decides is whether a file is stored under these
parts, and if one is then the files are at least as high.

`Chosen` is what all of this comes to: the path that was given, or else the nearest one.
-/

namespace PaperVenue

namespace Files

variable {fs : Files}

/-- No entry lies higher than the files are. -/
theorem length_takeWhile_le_height {parts : List String} (h : parts ∈ Table.keys fs) :
    (parts.takeWhile (· = "..")).length ≤ fs.height := by
  rw [height]
  generalize Table.keys fs = keys at h
  induction keys with
  | nil => exact absurd h List.not_mem_nil
  | cons first keys ih =>
    rw [List.foldr_cons]
    rcases List.mem_cons.1 h with rfl | h
    · exact Nat.le_max_left _ _
    · exact Nat.le_trans (ih h) (Nat.le_max_right _ _)

/-- The parts of the path to an environment file that lies a number of directories up. -/
def searchParts (n : Nat) : List String := List.replicate n ".." ++ [EnvFile.defaultName]

theorem toList_searchPath_succ (n : Nat) :
    (EnvFile.searchPath (n + 1)).toList = '.' :: '.' :: '/' :: (EnvFile.searchPath n).toList := by
  rw [EnvFile.searchPath, String.toList_append]
  rfl

theorem split_searchPath (n : Nat) :
    (Path.split (EnvFile.searchPath n).toList).map String.ofList = searchParts n := by
  induction n with
  | zero => rfl
  | succ n ih =>
    rw [toList_searchPath_succ, searchParts, List.replicate_succ, List.cons_append, ← searchParts,
      ← ih]
    rfl

theorem up_replicate (n : Nat) : Path.up (List.replicate n "..") = List.replicate (n + 1) ".." := by
  cases n with
  | zero => rfl
  | succ n =>
    rw [Path.up, List.getLast?_replicate, if_neg n.succ_ne_zero, List.replicate_succ' (n := n + 1)]
    rfl

/-- A directory above the working directory is always there. -/
theorem isDirectory_replicate (fs : Files) (n : Nat) :
    fs.isDirectory (List.replicate n "..") = true := by
  have hbase : isBase (List.replicate n "..") = true := by
    rw [isBase, Bool.or_eq_true]
    exact Or.inr (List.all_eq_true.2 fun part h => decide_eq_true (List.eq_of_mem_replicate h))
  rw [isDirectory, hbase, Bool.true_or]

theorem walkPart_up (fs : Files) (n : Nat) :
    walkPart fs (List.replicate n "..") ".." = .ok (List.replicate (n + 1) "..") := by
  rw [walkPart, isDirectory_replicate, up_replicate]
  rfl

/-- In a directory above the working directory an environment file is found if it is stored. -/
theorem walkPart_defaultName (fs : Files) (n : Nat) :
    walkPart fs (List.replicate n "..") EnvFile.defaultName =
      if Table.has fs (searchParts n) then .ok (searchParts n) else .error .notFound := by
  rw [walkPart, isDirectory_replicate]
  rfl

/-- One directory up after the other. -/
theorem foldlM_up (fs : Files) (n k : Nat) :
    (List.replicate n "..").foldlM (walkPart fs) (List.replicate k "..") =
      .ok (List.replicate (k + n) "..") := by
  induction n generalizing k with
  | zero => rfl
  | succ n ih =>
    rw [List.replicate_succ, List.foldlM_cons, walkPart_up]
    exact (ih (k + 1)).trans (by rw [Nat.add_right_comm, Nat.add_assoc])

/-- **The walk to an environment file** comes to its place if it is stored there, unless the path
is too long. -/
theorem walk_searchPath (fs : Files) (n : Nat) :
    fs.walk (EnvFile.searchPath n) =
      if maxPath < (octetsOf (EnvFile.searchPath n)).length then .error .nameTooLong
      else if Table.has fs (searchParts n) then .ok (searchParts n) else .error .notFound := by
  have hstart : (EnvFile.searchPath n).toList.head? = some '.' := by
    cases n with
    | zero => rfl
    | succ n =>
      rw [toList_searchPath_succ]
      rfl
  have hup := foldlM_up fs n 0
  rw [List.replicate_zero, Nat.zero_add] at hup
  rw [walk]
  split
  · rfl
  · dsimp only
    have hroot : ¬ some '.' = some '/' := by decide
    rw [split_searchPath, hstart, if_neg hroot, searchParts, List.foldlM_append, hup,
      ← searchParts, ← walkPart_defaultName]
    exact bind_pure (walkPart fs (List.replicate n "..") EnvFile.defaultName)

/-- A file that is read there is stored there. -/
theorem searchParts_mem_keys {n : Nat} (h : (fs.read? (EnvFile.searchPath n)).isSome) :
    searchParts n ∈ Table.keys fs := by
  refine Classical.byContradiction fun hnot => ?_
  have hhas : Table.has fs (searchParts n) = false := by
    rw [Table.has, Table.get?_eq_none_iff.2 hnot]
    rfl
  rw [read?, read, walk_searchPath, hhas] at h
  split at h <;> exact Bool.noConfusion h

/-- An environment file that is found does not lie higher than the files are. -/
theorem le_height_of_read? {n : Nat} (h : (fs.read? (EnvFile.searchPath n)).isSome) :
    n ≤ fs.height := by
  have hle := length_takeWhile_le_height (searchParts_mem_keys h)
  have hups : (searchParts n).takeWhile (· = "..") = List.replicate n ".." := by
    rw [searchParts, List.takeWhile_append_of_pos fun part hpart =>
      decide_eq_true (List.eq_of_mem_replicate hpart)]
    exact List.append_nil _
  rw [hups, List.length_replicate] at hle
  exact hle

end Files

namespace EnvFile

variable {files : Files} {path : Option String} {name : String}

/-- **Nothing is found** exactly if there is no environment file in the working directory or above
it. -/
theorem nearest?_eq_none_iff :
    nearest? files = none ↔ ∀ n, files.read? (searchPath n) = none := by
  rw [nearest?, List.find?_eq_none]
  constructor
  · intro h n
    cases hread : files.read? (searchPath n) with
    | none => rfl
    | some octets =>
      have hsome : (files.read? (searchPath n)).isSome := by
        rw [hread]
        rfl
      have hn := Files.le_height_of_read? hsome
      exact absurd hsome (h _ (List.mem_map_of_mem (List.mem_range.2 (Nat.lt_succ_of_le hn))))
  · intro h name hname
    obtain ⟨n, -, rfl⟩ := List.mem_map.1 hname
    rw [h n]
    exact Bool.false_ne_true

/-- **What is found is the nearest environment file.** -/
theorem nearest?_eq_some_iff :
    nearest? files = some name ↔ ∃ n, name = searchPath n ∧ (files.read? name).isSome ∧
      ∀ m < n, files.read? (searchPath m) = none := by
  rw [nearest?, List.find?_eq_some_iff_getElem]
  simp only [searchPaths, List.length_map, List.length_range, List.getElem_map, List.getElem_range]
  constructor
  · rintro ⟨hsome, n, hn, rfl, hbefore⟩
    refine ⟨n, rfl, hsome, fun m hm => ?_⟩
    simpa using hbefore m hm
  · rintro ⟨n, rfl, hsome, hbefore⟩
    have hn := Files.le_height_of_read? hsome
    refine ⟨hsome, n, Nat.lt_succ_of_le hn, rfl, fun m hm => ?_⟩
    rw [hbefore m hm]
    rfl

/-- The environment file at a path is the one that is read: the path was given, or else it leads to
the nearest one. -/
inductive Chosen (files : Files) (path : Option String) : String → Prop
  | given {name : String} (h : given? path = some name) : Chosen files path name
  | nearest (n : Nat) (h : given? path = none) (there : (files.read? (searchPath n)).isSome)
      (first : ∀ m < n, files.read? (searchPath m) = none) : Chosen files path (searchPath n)

theorem chosen?_eq_some_iff : chosen? files path = some name ↔ Chosen files path name := by
  rw [chosen?]
  cases hgiven : given? path with
  | some given =>
    rw [Option.some_or, Option.some.injEq]
    constructor
    · rintro rfl
      exact .given hgiven
    · rintro (h | ⟨n, h, -, -⟩)
      · exact Option.some.inj (hgiven.symm.trans h)
      · exact absurd (hgiven.symm.trans h) (by simp)
  | none =>
    rw [Option.none_or, nearest?_eq_some_iff]
    constructor
    · rintro ⟨n, rfl, hsome, hbefore⟩
      exact .nearest n hgiven hsome hbefore
    · rintro (h | ⟨n, h, hsome, hbefore⟩)
      · exact absurd (hgiven.symm.trans h) (by simp)
      · exact ⟨n, rfl, hsome, hbefore⟩

theorem chosen?_eq_none_iff :
    chosen? files path = none ↔ given? path = none ∧ ∀ n, files.read? (searchPath n) = none := by
  rw [chosen?, Option.or_eq_none_iff, nearest?_eq_none_iff]

end EnvFile

end PaperVenue
