import PaperVenue.Encoding.Detected
import PaperVenue.Proofs.Outcome

/-!
# Octets that are read as the text they were written from

A text written in UTF-8 is read back as that text (`Utf8.decode_encode`).  The reader takes octets
one at a time, so the four forms of a character are four short runs of it: `decodeFrom_one` to
`decodeFrom_four` say what each form is read as, without mentioning the writer, and
`decodeFrom_encodePoint` finds the form that the writer chose.

A document in octets does not say that it is UTF-8, and its first octets may suggest another
encoding.  They do so only if the text begins with a byte order mark or has a NUL among its first
two characters (`detectEncoding_of_decode`).  That needs no look at the writer: octets that could
mislead are read as such a text, or are not read at all.
-/

namespace PaperVenue

namespace CodePoint

theorem toNat_lt (p : CodePoint) : p.toNat < 0x110000 := by
  cases p with
  | scalar c =>
    have hvalid : c.toNat < 0xD800 ∨ 0xDFFF < c.toNat ∧ c.toNat < 0x110000 := c.valid
    rw [toNat]
    omega
  | surrogate n =>
    have hn := n.isLt
    rw [toNat]
    omega

/-- A code point is the one with its number. -/
theorem ofNat?_toNat (p : CodePoint) : ofNat? p.toNat = some p := by
  cases p with
  | scalar c =>
    have hvalid : c.toNat < 0xD800 ∨ 0xDFFF < c.toNat ∧ c.toNat < 0x110000 := c.valid
    rw [toNat, ofNat?, dif_neg (by omega), if_pos (by omega), Char.ofNat_toNat]
  | surrogate n =>
    have hn := n.isLt
    rw [toNat, ofNat?, dif_pos (by omega)]
    simp

end CodePoint

namespace Utf8

theorem point_toNat (p : CodePoint) : point p.toNat = p := by
  rw [point, CodePoint.ofNat?_toNat, Option.getD_some]

/-! ## Octets -/

theorem toNat_octet {n : Nat} (h : n < 0x100) : n.toUInt8.toNat = n := by
  simp [Nat.toUInt8, Nat.mod_eq_of_lt h]

theorem isContinuation_iff {b : UInt8} :
    isContinuation b ↔ 0x80 ≤ b.toNat ∧ b.toNat < 0xC0 := by
  simp [isContinuation, UInt8.le_iff_toNat_le, UInt8.lt_iff_toNat_lt]

/-- The octets that the writer puts behind the first carry six bits each. -/
theorem isContinuation_octet (k : Nat) : isContinuation (0x80 + k % 0x40).toUInt8 := by
  rw [isContinuation_iff, toNat_octet (by omega)]
  omega

theorem bits_octet (k : Nat) : bits (0x80 + k % 0x40).toUInt8 = k % 0x40 := by
  rw [bits, toNat_octet (by omega)]
  omega

variable {surrogates : Bool} {a b c d : UInt8} {start : Nat} {pending rest : List UInt8}

theorem secondFits_iff :
    secondFits surrogates a b ↔ isContinuation b ∧
      (a.toNat ≠ 0xE0 ∨ 0xA0 ≤ b.toNat) ∧ (a.toNat ≠ 0xED ∨ b.toNat < 0xA0 ∨ surrogates) ∧
      (a.toNat ≠ 0xF0 ∨ 0x90 ≤ b.toNat) ∧ (a.toNat ≠ 0xF4 ∨ b.toNat < 0x90) := by
  simp [secondFits, UInt8.le_iff_toNat_le, UInt8.lt_iff_toNat_lt, ← UInt8.toNat_inj, and_assoc,
    or_assoc]

/-! ## The four forms of a character -/

theorem decodeFrom_of_complete {p : CodePoint} (h : step surrogates pending b = .complete p) :
    decodeFrom surrogates start pending (b :: rest) =
      (decodeFrom surrogates (start + pending.length + 1) [] rest).map (p :: ·) := by
  rw [decodeFrom, h]

theorem decodeFrom_of_pending {octets : List UInt8}
    (h : step surrogates pending b = .pending octets) :
    decodeFrom surrogates start pending (b :: rest) =
      decodeFrom surrogates start octets rest := by
  rw [decodeFrom, h]

/-- The first octet of several. -/
theorem step_lead (ha : 0xC2 ≤ a.toNat) (ha' : a.toNat < 0xF5) :
    step surrogates [] a = .pending [a] := by
  have hlow : ¬ a.toNat < 0x80 := by omega
  simp [step, UInt8.le_iff_toNat_le, UInt8.lt_iff_toNat_lt, hlow, ha, ha']

/-- The second octet of three or four. -/
theorem step_second (ha : 0xE0 ≤ a.toNat) (hb : secondFits surrogates a b) :
    step surrogates [a] b = .pending [a, b] := by
  simp [step, UInt8.lt_iff_toNat_lt, Nat.not_lt.2 ha, hb]

theorem decodeFrom_one (ha : a.toNat < 0x80) :
    decodeFrom surrogates start [] (a :: rest) =
      (decodeFrom surrogates (start + 1) [] rest).map (point a.toNat :: ·) := by
  have hstep : step surrogates [] a = .complete (point a.toNat) := by
    simp [step, UInt8.lt_iff_toNat_lt, ha]
  rw [decodeFrom_of_complete hstep]
  rfl

theorem decodeFrom_two (ha : 0xC2 ≤ a.toNat) (ha' : a.toNat < 0xE0) (hb : isContinuation b) :
    decodeFrom surrogates start [] (a :: b :: rest) =
      (decodeFrom surrogates (start + 2) [] rest).map
        (point ((a.toNat - 0xC0) * 0x40 + bits b) :: ·) := by
  have hlast : step surrogates [a] b =
      .complete (point ((a.toNat - 0xC0) * 0x40 + bits b)) := by
    simp [step, UInt8.lt_iff_toNat_lt, ha', hb]
  rw [decodeFrom_of_pending (step_lead ha (by omega)), decodeFrom_of_complete hlast]
  rfl

theorem decodeFrom_three (ha : 0xE0 ≤ a.toNat) (ha' : a.toNat < 0xF0)
    (hb : secondFits surrogates a b) (hc : isContinuation c) :
    decodeFrom surrogates start [] (a :: b :: c :: rest) =
      (decodeFrom surrogates (start + 3) [] rest).map
        (point ((a.toNat - 0xE0) * 0x1000 + bits b * 0x40 + bits c) :: ·) := by
  have hlast : step surrogates [a, b] c =
      .complete (point ((a.toNat - 0xE0) * 0x1000 + bits b * 0x40 + bits c)) := by
    simp [step, UInt8.lt_iff_toNat_lt, ha', hc]
  rw [decodeFrom_of_pending (step_lead (by omega) (by omega)),
    decodeFrom_of_pending (step_second ha hb), decodeFrom_of_complete hlast]
  rfl

theorem decodeFrom_four (ha : 0xF0 ≤ a.toNat) (ha' : a.toNat < 0xF5)
    (hb : secondFits surrogates a b) (hc : isContinuation c) (hd : isContinuation d) :
    decodeFrom surrogates start [] (a :: b :: c :: d :: rest) =
      (decodeFrom surrogates (start + 4) [] rest).map
        (point ((a.toNat - 0xF0) * 0x40000 + bits b * 0x1000 + bits c * 0x40 + bits d) :: ·) := by
  have hthird : step surrogates [a, b] c = .pending [a, b, c] := by
    simp [step, UInt8.lt_iff_toNat_lt, Nat.not_lt.2 ha, hc]
  have hlast : step surrogates [a, b, c] d = .complete
      (point ((a.toNat - 0xF0) * 0x40000 + bits b * 0x1000 + bits c * 0x40 + bits d)) := by
    simp [step, hd]
  rw [decodeFrom_of_pending (step_lead (by omega) ha'),
    decodeFrom_of_pending (step_second (by omega) hb), decodeFrom_of_pending hthird,
    decodeFrom_of_complete hlast]
  rfl

/-! ## The round trip -/

/-- **A code point is read back from its octets.** -/
theorem decodeFrom_encodePoint (start : Nat) (p : CodePoint) (rest : List UInt8) :
    decodeFrom true start [] (encodePoint p ++ rest) =
      (decodeFrom true (start + (encodePoint p).length) [] rest).map (p :: ·) := by
  have hlt := p.toNat_lt
  have hpoint := point_toNat p
  rw [encodePoint]
  generalize p.toNat = n at hlt hpoint
  -- The cases are those of the writer; in each of them the octets have the numbers it computed.
  by_cases hone : n < 0x80
  · have ha : n.toUInt8.toNat = n := toNat_octet (by omega)
    rw [if_pos hone, List.singleton_append, decodeFrom_one (by omega), ha, hpoint]
    rfl
  rw [if_neg hone]
  by_cases htwo : n < 0x800
  · have ha : (0xC0 + n / 0x40).toUInt8.toNat = _ := toNat_octet (by omega)
    have hn : (0xC0 + n / 0x40 - 0xC0) * 0x40 + n % 0x40 = n := by omega
    rw [if_pos htwo, List.cons_append, List.singleton_append,
      decodeFrom_two (by omega) (by omega) (isContinuation_octet n), bits_octet, ha, hn, hpoint]
    rfl
  rw [if_neg htwo]
  by_cases hthree : n < 0x10000
  · have ha : (0xE0 + n / 0x1000).toUInt8.toNat = _ := toNat_octet (by omega)
    have hb : (0x80 + n / 0x40 % 0x40).toUInt8.toNat = _ := toNat_octet (by omega)
    have hfits : secondFits true (0xE0 + n / 0x1000).toUInt8 (0x80 + n / 0x40 % 0x40).toUInt8 := by
      rw [secondFits_iff, ha, hb]
      exact ⟨isContinuation_octet _, by omega, Or.inr (Or.inr rfl), by omega, by omega⟩
    have hn : (0xE0 + n / 0x1000 - 0xE0) * 0x1000 + n / 0x40 % 0x40 * 0x40 + n % 0x40 = n := by
      omega
    rw [if_pos hthree, List.cons_append, List.cons_append, List.singleton_append,
      decodeFrom_three (by omega) (by omega) hfits (isContinuation_octet n), bits_octet,
      bits_octet, ha, hn, hpoint]
    rfl
  · have ha : (0xF0 + n / 0x40000).toUInt8.toNat = _ := toNat_octet (by omega)
    have hb : (0x80 + n / 0x1000 % 0x40).toUInt8.toNat = _ := toNat_octet (by omega)
    have hfits : secondFits true (0xF0 + n / 0x40000).toUInt8
        (0x80 + n / 0x1000 % 0x40).toUInt8 := by
      rw [secondFits_iff, ha, hb]
      exact ⟨isContinuation_octet _, by omega, by omega, by omega, by omega⟩
    have hn : (0xF0 + n / 0x40000 - 0xF0) * 0x40000 + n / 0x1000 % 0x40 * 0x1000 +
        n / 0x40 % 0x40 * 0x40 + n % 0x40 = n := by omega
    rw [if_neg hthree, List.cons_append, List.cons_append, List.cons_append,
      List.singleton_append, decodeFrom_four (by omega) (by omega) hfits
        (isContinuation_octet _) (isContinuation_octet n), bits_octet, bits_octet, bits_octet,
      ha, hn, hpoint]
    rfl

/-- **A text is read back from its octets**, surrogates included. -/
theorem decode_encode (t : Text) : decode true (encode t) = .ok t := by
  suffices h : ∀ start, decodeFrom true start [] (encode t) = .ok t from h 0
  induction t with
  | nil => exact fun start => rfl
  | cons p t ih =>
    intro start
    rw [encode, List.flatMap_cons, decodeFrom_encodePoint]
    exact congrArg (Except.map (p :: ·)) (ih _)

/-! ## What octets were read as tells what they are -/

/-- An octet below `0x80` is read as the character with its number. -/
theorem eq_cons_of_decodeFrom {t : Text} (ha : a.toNat < 0x80)
    (h : decodeFrom surrogates start [] (a :: rest) = .ok t) :
    ∃ t', t = point a.toNat :: t' ∧ decodeFrom surrogates (start + 1) [] rest = .ok t' := by
  rw [decodeFrom_one ha, map_eq_ok_iff] at h
  obtain ⟨t', ht', rfl⟩ := h
  exact ⟨t', rfl, ht'⟩

/-- Behind any other octet only an octet inside a character is read. -/
theorem isContinuation_of_decode {t : Text} (ha : ¬ a.toNat < 0x80)
    (h : decode surrogates (a :: b :: rest) = .ok t) : isContinuation b := by
  refine Bool.of_not_eq_false fun hb => ?_
  have hfits : secondFits surrogates a b = false := by rw [secondFits, hb]; rfl
  by_cases hlead : 0xC2 ≤ a.toNat ∧ a.toNat < 0xF5
  · rw [decode, decodeFrom_of_pending (step_lead hlead.1 hlead.2), decodeFrom, step, hb, hfits] at h
    simp at h
  · have hstep : step surrogates [] a = .refused .invalidStart 1 := by
      simp [step, UInt8.le_iff_toNat_le, UInt8.lt_iff_toNat_lt, ha, hlead]
    rw [decode, decodeFrom, hstep] at h
    exact absurd h (by simp)

/-- No character begins with an octet above `0xF4`. -/
theorem lt_of_decode {t : Text} (h : decode surrogates (a :: rest) = .ok t) : a.toNat < 0xF5 := by
  refine Nat.lt_of_not_le fun ha => ?_
  have hlow : ¬ a.toNat < 0x80 := by omega
  have hstep : step surrogates [] a = .refused .invalidStart 1 := by
    simp [step, UInt8.le_iff_toNat_le, UInt8.lt_iff_toNat_lt, hlow, ha]
  rw [decode, decodeFrom, hstep] at h
  exact absurd h (by simp)

end Utf8

/-- Octets are taken for UTF-8 unless they begin with a mark, or have a zero among the first two. -/
theorem detectEncoding_eq_utf8 {octets : List UInt8} (hfirst : ∀ rest, octets ≠ 0 :: rest)
    (hsecond : ∀ a rest, octets ≠ a :: 0 :: rest)
    (hlead : ∀ a rest, octets = a :: rest → a.toNat < 0xF5)
    (hbom : ∀ rest, octets ≠ 0xEF :: 0xBB :: 0xBF :: rest) : detectEncoding octets = (.utf8, 0) := by
  have hmarks : marks.find? (fun m => m.1.isPrefixOf octets) = none := by
    rw [List.find?_eq_none]
    simp only [marks, List.forall_mem_cons, List.isPrefixOf_iff_prefix]
    refine ⟨?_, ?_, ?_, ?_, ?_, nofun⟩
    · exact fun ⟨_, h⟩ => hfirst _ h.symm
    · exact fun ⟨_, h⟩ => absurd (hlead _ _ h.symm) (by decide)
    · exact fun ⟨_, h⟩ => absurd (hlead _ _ h.symm) (by decide)
    · exact fun ⟨_, h⟩ => absurd (hlead _ _ h.symm) (by decide)
    · exact fun ⟨_, h⟩ => hbom _ h.symm
  have hzeros : unmarkedEncoding octets = .utf8 := by
    rw [unmarkedEncoding.eq_def]
    split
    · rename_i a b _ _ _
      rw [if_neg fun ha => hfirst _ (by rw [ha]), if_neg fun hb => hsecond a _ (by rw [hb])]
    · rename_i a b
      rw [if_neg fun ha => hfirst _ (by rw [ha]), if_neg fun hb => hsecond a _ (by rw [hb])]
    · rfl
  rw [detectEncoding, hmarks, hzeros]

open Utf8 in
/-- **UTF-8 is recognised**, unless the text begins with a byte order mark or has a NUL among its
first two characters. -/
theorem detectEncoding_of_decode {octets : List UInt8} {t : Text}
    (h : decode true octets = .ok t) (hmark : t.head? ≠ some (.scalar '\uFEFF'))
    (hnul : .scalar '\x00' ∉ t.take 2) : detectEncoding octets = (.utf8, 0) := by
  refine detectEncoding_eq_utf8 ?_ ?_ ?_ ?_
  · rintro rest rfl
    obtain ⟨t', rfl, -⟩ := eq_cons_of_decodeFrom (by decide) h
    exact hnul (List.mem_cons_self)
  · rintro a rest rfl
    by_cases ha : a.toNat < 0x80
    · obtain ⟨t', rfl, ht'⟩ := eq_cons_of_decodeFrom ha h
      obtain ⟨t'', rfl, -⟩ := eq_cons_of_decodeFrom (by decide) ht'
      exact hnul (List.mem_cons_of_mem _ List.mem_cons_self)
    · exact absurd (isContinuation_of_decode ha h) (by decide)
  · rintro a rest rfl
    exact lt_of_decode h
  · rintro rest rfl
    rw [decode, decodeFrom_three (by decide) (by decide) (by decide) (by decide),
      map_eq_ok_iff] at h
    obtain ⟨t', -, rfl⟩ := h
    exact hmark (congrArg some (by decide +kernel))

/-- A document in octets that were written from a text is read as that text. -/
theorem decodeDocument_encode {t : Text} (hmark : t.head? ≠ some (.scalar '\uFEFF'))
    (hnul : .scalar '\x00' ∉ t.take 2) : decodeDocument (Utf8.encode t) = .ok t := by
  have hread := Utf8.decode_encode t
  rw [decodeDocument, detectEncoding_of_decode hread hmark hnul]
  exact hread

end PaperVenue
