/-!
# Two notions of blank

Two rules of this library cut blanks off the ends of a text, and they disagree on four
characters.

* `isWhiteSpace` is Unicode's property `White_Space`, 25 characters.  Integers in a catalog
  record may be surrounded by these.
* `isBlank` adds the four information separators `U+001C` to `U+001F`.  Settings, decimals and
  the lines of an environment file use this wider set.

`trim` takes the set as its argument, so both rules share one function and its lemmas.
-/

namespace PaperVenue

/-- Unicode's property `White_Space`. -/
def isWhiteSpace (c : Char) : Bool :=
  let n := c.toNat
  (9 ≤ n && n ≤ 13) || n == 0x20 || n == 0x85 || n == 0xA0 || n == 0x1680
    || (0x2000 ≤ n && n ≤ 0x200A) || n == 0x2028 || n == 0x2029 || n == 0x202F || n == 0x205F
    || n == 0x3000

/-- `White_Space` and the four information separators. -/
def isBlank (c : Char) : Bool :=
  isWhiteSpace c || (0x1C ≤ c.toNat && c.toNat ≤ 0x1F)

theorem isBlank_of_isWhiteSpace {c : Char} (h : isWhiteSpace c = true) : isBlank c = true := by
  simp [isBlank, h]

/-- The list without the leading elements that `p` holds of. -/
def trimLeft {α : Type} (p : α → Bool) (xs : List α) : List α := xs.dropWhile p

/-- The list without the trailing elements that `p` holds of. -/
def trimRight {α : Type} (p : α → Bool) (xs : List α) : List α :=
  (xs.reverse.dropWhile p).reverse

/-- The list without the elements at either end that `p` holds of. -/
def trim {α : Type} (p : α → Bool) (xs : List α) : List α := trimRight p (trimLeft p xs)

/-- The string without blanks at its ends. -/
def trimBlanks (s : String) : String := String.ofList (trim isBlank s.toList)

@[simp] theorem trim_nil {α : Type} (p : α → Bool) : trim p [] = [] := rfl

theorem trimLeft_eq_self {α : Type} {p : α → Bool} {xs : List α}
    (h : ∀ x, xs.head? = some x → p x = false) : trimLeft p xs = xs := by
  cases xs with
  | nil => rfl
  | cons x xs => simp [trimLeft, h x rfl]

/-- Nothing is cut off where `p` holds of nothing. -/
theorem trim_eq_self {α : Type} {p : α → Bool} {xs : List α} (h : ∀ x ∈ xs, p x = false) :
    trim p xs = xs := by
  have hleft : ∀ ys : List α, (∀ x ∈ ys, p x = false) → trimLeft p ys = ys :=
    fun ys hys => trimLeft_eq_self fun x hx => hys x (List.mem_of_mem_head? hx)
  have hright : trimLeft p xs.reverse = xs.reverse :=
    hleft xs.reverse fun x hx => h x (List.mem_reverse.1 hx)
  rw [trimLeft] at hright
  rw [trim, hleft xs h, trimRight, hright, List.reverse_reverse]

theorem head?_trimLeft {α : Type} {p : α → Bool} {xs : List α} {x : α}
    (h : (trimLeft p xs).head? = some x) : p x = false := by
  induction xs with
  | nil => simp [trimLeft] at h
  | cons y ys ih =>
    by_cases hy : p y = true
    · exact ih (by simpa [trimLeft, hy] using h)
    · have : x = y := by simpa [trimLeft, hy, eq_comm] using h
      simpa [this] using hy

theorem trimRight_eq_self {α : Type} {p : α → Bool} {xs : List α}
    (h : ∀ x, xs.getLast? = some x → p x = false) : trimRight p xs = xs := by
  have hback : trimLeft p xs.reverse = xs.reverse :=
    trimLeft_eq_self fun x hx => h x (by rwa [List.head?_reverse] at hx)
  rw [trimLeft] at hback
  rw [trimRight, hback, List.reverse_reverse]

theorem getLast?_trimRight {α : Type} {p : α → Bool} {xs : List α} {x : α}
    (h : (trimRight p xs).getLast? = some x) : p x = false := by
  rw [trimRight, List.getLast?_reverse] at h
  exact head?_trimLeft h

/-- **To trim twice is to trim once.** -/
theorem trim_trim {α : Type} (p : α → Bool) (xs : List α) : trim p (trim p xs) = trim p xs := by
  have hprefix : trim p xs <+: trimLeft p xs := by
    have h := List.reverse_prefix.2 (List.dropWhile_suffix p (l := (trimLeft p xs).reverse))
    rwa [List.reverse_reverse] at h
  have hleft : trimLeft p (trim p xs) = trim p xs := by
    refine trimLeft_eq_self fun x hx => ?_
    have hhead : (trimLeft p xs).head? = some x := by
      obtain ⟨rest, hrest⟩ := hprefix
      rw [← hrest, List.head?_append, hx]
      rfl
    exact head?_trimLeft hhead
  rw [trim, hleft]
  exact trimRight_eq_self fun _ hx => getLast?_trimRight hx

/-- **What surrounds a list does not count**, if `p` holds of all of it. -/
theorem trim_surround {α : Type} {p : α → Bool} {before after : List α}
    (hbefore : ∀ x ∈ before, p x = true) (hafter : ∀ x ∈ after, p x = true) (xs : List α) :
    trim p (before ++ (xs ++ after)) = trim p xs := by
  have hright : ∀ ys : List α, trimRight p (ys ++ after) = trimRight p ys := by
    intro ys
    rw [trimRight, trimRight, List.reverse_append,
      List.dropWhile_append_of_pos fun x hx => hafter x (List.mem_reverse.1 hx)]
  have hnil : after.dropWhile p = [] := by
    have h : (after ++ []).dropWhile p = [] := List.dropWhile_append_of_pos hafter
    rwa [List.append_nil] at h
  rw [trim, trim, trimLeft, trimLeft, List.dropWhile_append_of_pos hbefore, List.dropWhile_append]
  split
  · rename_i hempty
    rw [List.isEmpty_iff.1 hempty, hnil]
  · exact hright _

end PaperVenue
