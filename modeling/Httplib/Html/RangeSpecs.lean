import Httplib.Html.Ranges

/-! `parser_http_ranges` on the headers of RFC 7233 §2.1: `bytes=` and a comma-separated list of
`first-last`, `first-` and `-suffix` specs with white space around each. Each spec is read on its
own, so the header's result is the list of the specs' results.
-/

namespace Httplib.Html

open Httplib.Util

/-- A numeral as written: one or more decimal digits. -/
def IsNumeral (ds : List Char) : Prop :=
  ds ≠ [] ∧ ∀ c ∈ ds, c.isDigit

/-- A byte-range-spec, numerals as written. -/
inductive ByteRangeSpec
  /-- `first-last` -/
  | closed (first last : List Char)
  /-- `first-` -/
  | fromFirst (first : List Char)
  /-- `-length`, the last `length` bytes -/
  | suffix (length : List Char)
  deriving DecidableEq, Repr

/-- The text of a spec. -/
def ByteRangeSpec.render : ByteRangeSpec → List Char
  | .closed a b => a ++ '-' :: b
  | .fromFirst a => a ++ ['-']
  | .suffix k => '-' :: k

/-- Numerals, and a positive suffix length. -/
def ByteRangeSpec.WellFormed : ByteRangeSpec → Prop
  | .closed a b => IsNumeral a ∧ IsNumeral b
  | .fromFirst a => IsNumeral a
  | .suffix k => IsNumeral k ∧ 1 ≤ digitsValue k

/-- RFC 7233 §2.1: a `first-last` spec whose last byte comes before its first is invalid. -/
def ByteRangeSpec.Ordered : ByteRangeSpec → Prop
  | .closed a b => digitsValue a ≤ digitsValue b
  | _ => True

/-- Every numeral fits an `int`. -/
def ByteRangeSpec.Bounded : ByteRangeSpec → Prop
  | .closed a b => (digitsValue a : Int) ≤ intMax ∧ (digitsValue b : Int) ≤ intMax
  | .fromFirst a => (digitsValue a : Int) ≤ intMax
  | .suffix k => (digitsValue k : Int) ≤ intMax

/-- The specs the code takes for a file of `n` bytes: the first byte inside the file, no
explicit `a-b` with `a = b > 0`, and no `a-` with `a = n - 1 > 0` (the code compares the first
byte with the end after defaulting it to `n - 1`).
-/
def ByteRangeSpec.Accepted (n : Nat) : ByteRangeSpec → Prop
  | .closed a b => digitsValue a < n ∧ ¬(digitsValue a = digitsValue b ∧ 0 < digitsValue a)
  | .fromFirst a => digitsValue a < n ∧ ¬(digitsValue a = n - 1 ∧ 0 < digitsValue a)
  | .suffix _ => True

/-- A suffix length from the file size up to `INT_MAX`. -/
def ByteRangeSpec.LongSuffix (n : Nat) : ByteRangeSpec → Prop
  | .suffix k => n ≤ digitsValue k ∧ (digitsValue k : Int) ≤ intMax
  | _ => False

/-- The reference reading of a spec for a file of `n` bytes. -/
def ByteRangeSpec.reference (n : Nat) : ByteRangeSpec → Int × Int
  | .closed a b => (digitsValue a, min (digitsValue b : Int) (n - 1))
  | .fromFirst a => (digitsValue a, (n : Int) - 1)
  | .suffix k => (max 0 ((n : Int) - digitsValue k), (n : Int) - 1)

instance ByteRangeSpec.decBounded : (sp : ByteRangeSpec) → Decidable sp.Bounded
  | .closed _ _ => inferInstanceAs (Decidable (_ ∧ _))
  | .fromFirst _ => inferInstanceAs (Decidable (_ ≤ _))
  | .suffix _ => inferInstanceAs (Decidable (_ ≤ _))

instance ByteRangeSpec.decOrdered : (sp : ByteRangeSpec) → Decidable sp.Ordered
  | .closed _ _ => inferInstanceAs (Decidable (_ ≤ _))
  | .fromFirst _ => inferInstanceAs (Decidable True)
  | .suffix _ => inferInstanceAs (Decidable True)

instance ByteRangeSpec.decAccepted (n : Nat) : (sp : ByteRangeSpec) → Decidable (sp.Accepted n)
  | .closed _ _ => inferInstanceAs (Decidable (_ ∧ _))
  | .fromFirst _ => inferInstanceAs (Decidable (_ ∧ _))
  | .suffix _ => inferInstanceAs (Decidable True)

instance (ds : List Char) : Decidable (IsNumeral ds) :=
  inferInstanceAs (Decidable (_ ∧ _))

instance ByteRangeSpec.decWellFormed : (sp : ByteRangeSpec) → Decidable sp.WellFormed
  | .closed _ _ => inferInstanceAs (Decidable (_ ∧ _))
  | .fromFirst _ => inferInstanceAs (Decidable (IsNumeral _))
  | .suffix _ => inferInstanceAs (Decidable (_ ∧ _))

instance ByteRangeSpec.decLongSuffix (n : Nat)
    : (sp : ByteRangeSpec) → Decidable (sp.LongSuffix n)
  | .closed _ _ => inferInstanceAs (Decidable False)
  | .fromFirst _ => inferInstanceAs (Decidable False)
  | .suffix _ => inferInstanceAs (Decidable (_ ∧ _))

/-- The result the code gives a spec. -/
def ByteRangeSpec.expected (n : Nat) (sp : ByteRangeSpec) : Option (Int × Int) :=
  if sp.Bounded ∧ sp.Accepted n then some (sp.reference n) else none

/-- A spec with white space around it. -/
structure PaddedSpec where
  pre : List Char
  spec : ByteRangeSpec
  post : List Char
  deriving DecidableEq, Repr

def PaddedSpec.render (p : PaddedSpec) : List Char :=
  p.pre ++ p.spec.render ++ p.post

/-- The padding is white space and the spec is well formed. -/
def PaddedSpec.WellFormed (p : PaddedSpec) : Prop :=
  (∀ c ∈ p.pre, isSpace c) ∧ p.spec.WellFormed ∧ ∀ c ∈ p.post, isSpace c

instance (p : PaddedSpec) : Decidable p.WellFormed :=
  inferInstanceAs (Decidable (_ ∧ _ ∧ _))

/-- A non-empty list of specs separated by commas. -/
def joinSpecs (p : PaddedSpec) : List PaddedSpec → List Char
  | [] => p.render
  | q :: qs => p.render ++ ',' :: joinSpecs q qs

/-- `bytes=` followed by the specs. -/
def rangeHeader (p : PaddedSpec) (ps : List PaddedSpec) : List Char :=
  "bytes=".toList ++ joinSpecs p ps

-----------------------------------------------------------------------------------------
-- The pieces of the loop body on one spec
-----------------------------------------------------------------------------------------

theorem toInt_of_bounds {x : Int} (h1 : -2147483648 ≤ x) (h2 : x < 2147483648) : toInt x = x := by
  simp only [toInt, Int.bmod]
  split <;> omega

theorem split_cons {x rest : List Char} {d : Char} (hx : d ∉ x)
    : split (x ++ d :: rest) d = x :: split rest d :=
  List.splitOnP_first _ _ (fun c hc h => hx (by simpa [beq_iff_eq.mp h] using hc)) d (by simp) rest

theorem split_single {x : List Char} {d : Char} (hx : d ∉ x) : split x d = [x] :=
  List.splitOnP_eq_single _ _ (fun c hc h => hx (by simpa [beq_iff_eq.mp h] using hc))

theorem IsNumeral.not_space {ds : List Char} (h : IsNumeral ds) : ∀ c ∈ ds, isSpace c = false :=
  fun c hc => isSpace_digit (h.2 c hc)

theorem IsNumeral.not_mem {ds : List Char} (h : IsNumeral ds) {c : Char} (hc : c.isDigit = false)
    : c ∉ ds :=
  fun hm => absurd (h.2 c hm) (by simp [hc])

theorem not_mem_of_spaces {ws : List Char} (h : ∀ c ∈ ws, isSpace c) {c : Char}
    (hc : isSpace c = false) : c ∉ ws :=
  fun hm => absurd (h c hm) (by simp [hc])

theorem IsNumeral.dash_not_mem {ds : List Char} (h : IsNumeral ds) : '-' ∉ ds :=
  h.not_mem (by decide)

theorem dash_not_mem_of_spaces {ws : List Char} (h : ∀ c ∈ ws, isSpace c) : '-' ∉ ws :=
  not_mem_of_spaces h (by decide)

/-- The loop body on an item with a `-`: the first byte from the text before the first `-`, the
end from the text between it and the next, then the range check; the rest is not read.
-/
theorem parseRange_two {N : UInt64} {item x y : List Char} {rest : List (List Char)}
    (h : split item '-' = x :: y :: rest)
    : parseRange N item
      = (if (trim x).isEmpty then some (-1) else fromChars (trim x)).bind fun s =>
          (if (trim y).isEmpty then some (toInt (N.toNat - 1)) else fromChars (trim y)).bind
            (checkRange N.toNat s) := by
  simp only [parseRange, h, List.headD_cons, List.length_cons,
    List.getD_cons_succ, List.getD_cons_zero, show ¬(rest.length + 1 + 1 = 1) by omega, if_false,
    Option.pure_def, Option.bind_eq_bind]
  split <;> (congr 1; funext s; split <;> rfl)

/-- `from_chars` reads a numeral to its value when that fits an `int`. -/
theorem fromChars_numeral {ds : List Char} (h : IsNumeral ds)
    : fromChars ds = if (digitsValue ds : Int) ≤ intMax then some (digitsValue ds : Int) else none := by
  obtain ⟨hne, hd⟩ := h
  obtain ⟨d, rest, rfl⟩ := List.exists_cons_of_ne_nil hne
  have hdash : d ≠ '-' := by
    rintro rfl; exact absurd (hd '-' (List.mem_cons_self _ _)) (by decide)
  have htake : (d :: rest).takeWhile Char.isDigit = d :: rest := List.takeWhile_eq_self_iff.mpr hd
  have hpos : -intMax - 1 ≤ (digitsValue (d :: rest) : Int) := by simp [intMax]; omega
  simp only [fromChars, List.head?_cons, Option.some.injEq, hdash, if_false, leadingValue, htake,
    List.isEmpty_cons, Bool.false_eq_true, hpos, true_and]

theorem trim_numeral_left {pre a : List Char} (hpre : ∀ c ∈ pre, isSpace c) (ha : IsNumeral a)
    : trim (pre ++ a) = a := by
  simpa using @trim_pad pre a [] hpre ha.not_space (by simp)

theorem trim_numeral_right {a post : List Char} (ha : IsNumeral a) (hpost : ∀ c ∈ post, isSpace c)
    : trim (a ++ post) = a := by
  simpa using @trim_pad [] a post (by simp) ha.not_space hpost

theorem trim_spaces {ws : List Char} (h : ∀ c ∈ ws, isSpace c) : trim ws = [] := by
  simpa using @trim_pad [] [] ws (by simp) (by simp) h

theorem checkRange_closed {n a b : Int} (hn : 1 ≤ n) (hN : n ≤ 2147483648) (ha : 0 ≤ a)
    (hb : 0 ≤ b)
    : checkRange n a b = if a < n ∧ ¬(a = b ∧ 0 < a) then some (a, min b (n - 1)) else none := by
  have hn1 : toInt (n - 1) = n - 1 := toInt_of_bounds (by omega) (by omega)
  unfold checkRange
  by_cases hacc : a < n ∧ ¬(a = b ∧ 0 < a)
  · rw [if_neg (by omega), if_pos hacc, if_neg (by omega)]
    split <;> simp only [hn1, Option.some.injEq, Prod.mk.injEq, true_and] <;> omega
  · rw [if_pos (by omega), if_neg hacc]

theorem checkRange_fromFirst {n a : Int} (hn : 1 ≤ n) (hN : n ≤ 2147483648) (ha : 0 ≤ a)
    : checkRange n a (toInt (n - 1))
      = if a < n ∧ ¬(a = n - 1 ∧ 0 < a) then some (a, n - 1) else none := by
  rw [toInt_of_bounds (by omega) (by omega)]
  unfold checkRange
  by_cases hacc : a < n ∧ ¬(a = n - 1 ∧ 0 < a)
  · rw [if_neg (by omega), if_pos hacc, if_neg (by omega), if_neg (by omega)]
  · rw [if_pos (by omega), if_neg hacc]

theorem checkRange_suffix {n k : Int} (hN : n ≤ 2147483648) (hk : 1 ≤ k) (hkn : k < n)
    : checkRange n (-1) k = some (n - k, n - 1) := by
  simp only [checkRange, if_neg (show ¬(0 < (-1 : Int) ∧ (n ≤ -1 ∨ -1 = k)) by omega),
    if_neg (show ¬(0 < k ∧ n ≤ k) by omega), if_true,
    toInt_of_bounds (show -2147483648 ≤ n - k by omega) (by omega),
    toInt_of_bounds (show -2147483648 ≤ n - 1 by omega) (by omega)]

section OneSpec

variable {N : UInt64} (hn : 1 ≤ N.toNat) (hN : N.toNat ≤ 2147483648) {pre post : List Char}
  (hpre : ∀ c ∈ pre, isSpace c) (hpost : ∀ c ∈ post, isSpace c)

include hn hN hpre hpost

theorem parseRange_closed {a b : List Char} (ha : IsNumeral a) (hb : IsNumeral b)
    : parseRange N (pre ++ (ByteRangeSpec.closed a b).render ++ post)
      = (ByteRangeSpec.closed a b).expected N.toNat := by
  have hsplit : split (pre ++ (a ++ '-' :: b) ++ post) '-' = [pre ++ a, b ++ post] := by
    rw [show pre ++ (a ++ '-' :: b) ++ post = (pre ++ a) ++ '-' :: (b ++ post) by simp,
      split_cons (by simp [dash_not_mem_of_spaces hpre, ha.dash_not_mem]),
      split_single (by simp [dash_not_mem_of_spaces hpost, hb.dash_not_mem])]
  simp only [ByteRangeSpec.render, parseRange_two hsplit, trim_numeral_left hpre ha,
    trim_numeral_right hb hpost, List.isEmpty_eq_false.mpr ha.1, List.isEmpty_eq_false.mpr hb.1,
    Bool.false_eq_true, if_false, fromChars_numeral ha, fromChars_numeral hb]
  by_cases hba : (digitsValue a : Int) ≤ intMax
  · by_cases hbb : (digitsValue b : Int) ≤ intMax
    · simp only [hba, hbb, if_true, Option.pure_def, Option.bind_eq_bind, Option.some_bind,
        checkRange_closed (by omega : (1 : Int) ≤ N.toNat) (by omega)
          (by omega : (0 : Int) ≤ digitsValue a) (by omega : (0 : Int) ≤ digitsValue b)]
      simp [ByteRangeSpec.expected, ByteRangeSpec.Bounded, ByteRangeSpec.Accepted,
        ByteRangeSpec.reference, hba, hbb, Int.ofNat_inj]
    · simp [hba, hbb, ByteRangeSpec.expected, ByteRangeSpec.Bounded]
  · simp [hba, ByteRangeSpec.expected, ByteRangeSpec.Bounded]

theorem parseRange_fromFirst {a : List Char} (ha : IsNumeral a)
    : parseRange N (pre ++ (ByteRangeSpec.fromFirst a).render ++ post)
      = (ByteRangeSpec.fromFirst a).expected N.toNat := by
  have hsplit : split (pre ++ (a ++ ['-']) ++ post) '-' = [pre ++ a, post] := by
    rw [show pre ++ (a ++ ['-']) ++ post = (pre ++ a) ++ '-' :: post by simp,
      split_cons (by simp [dash_not_mem_of_spaces hpre, ha.dash_not_mem]),
      split_single (dash_not_mem_of_spaces hpost)]
  simp only [ByteRangeSpec.render, parseRange_two hsplit, trim_numeral_left hpre ha,
    trim_spaces hpost, List.isEmpty_eq_false.mpr ha.1, List.isEmpty_nil, Bool.false_eq_true,
    if_false, if_true, fromChars_numeral ha]
  by_cases hba : (digitsValue a : Int) ≤ intMax
  · simp only [hba, if_true, Option.pure_def, Option.bind_eq_bind, Option.some_bind,
      checkRange_fromFirst (by omega : (1 : Int) ≤ N.toNat) (by omega)
        (by omega : (0 : Int) ≤ digitsValue a)]
    by_cases hacc : digitsValue a < N.toNat ∧ ¬(digitsValue a = N.toNat - 1 ∧ 0 < digitsValue a)
    · rw [if_pos (by omega)]
      simp [ByteRangeSpec.expected, ByteRangeSpec.Bounded, ByteRangeSpec.Accepted,
        ByteRangeSpec.reference, hba, hacc]
    · rw [if_neg (by omega), ByteRangeSpec.expected, if_neg (fun h => hacc h.2)]
  · simp [hba, ByteRangeSpec.expected, ByteRangeSpec.Bounded]

theorem parseRange_suffix {k : List Char} (hk : IsNumeral k) (hk1 : 1 ≤ digitsValue k)
    (hlong : ¬(ByteRangeSpec.suffix k).LongSuffix N.toNat)
    : parseRange N (pre ++ (ByteRangeSpec.suffix k).render ++ post)
      = (ByteRangeSpec.suffix k).expected N.toNat := by
  have hsplit : split (pre ++ '-' :: k ++ post) '-' = [pre, k ++ post] := by
    rw [show pre ++ '-' :: k ++ post = pre ++ '-' :: (k ++ post) by simp,
      split_cons (dash_not_mem_of_spaces hpre),
      split_single (by simp [dash_not_mem_of_spaces hpost, hk.dash_not_mem])]
  simp only [ByteRangeSpec.render, parseRange_two hsplit, trim_spaces hpre,
    trim_numeral_right hk hpost, List.isEmpty_nil, List.isEmpty_eq_false.mpr hk.1,
    Bool.false_eq_true, if_true, if_false, fromChars_numeral hk]
  by_cases hbk : (digitsValue k : Int) ≤ intMax
  · have hkn : digitsValue k < N.toNat := by
      simp only [ByteRangeSpec.LongSuffix, not_and] at hlong; by_contra h; exact hlong (by omega) hbk
    simp only [hbk, if_true, Option.pure_def, Option.bind_eq_bind, Option.some_bind,
      checkRange_suffix (by omega : (N.toNat : Int) ≤ 2147483648)
        (by omega : (1 : Int) ≤ digitsValue k)
        (by omega)]
    simp [ByteRangeSpec.expected, ByteRangeSpec.Bounded, ByteRangeSpec.Accepted,
      ByteRangeSpec.reference, hbk]
    omega
  · simp [hbk, ByteRangeSpec.expected, ByteRangeSpec.Bounded]

/-- The loop body reads a padded spec to the result `expected` gives it. -/
theorem parseRange_padded {sp : ByteRangeSpec} (hwf : sp.WellFormed)
    (hlong : ¬sp.LongSuffix N.toNat)
    : parseRange N (pre ++ sp.render ++ post) = sp.expected N.toNat := by
  cases sp with
  | closed a b => exact parseRange_closed hn hN hpre hpost hwf.1 hwf.2
  | fromFirst a => exact parseRange_fromFirst hn hN hpre hpost hwf
  | suffix k => exact parseRange_suffix hn hN hpre hpost hwf.1 hwf.2 hlong

end OneSpec

-----------------------------------------------------------------------------------------
-- The header around the specs
-----------------------------------------------------------------------------------------

/-- The specs separated by commas, without the last one's trailing white space. -/
def joinTrimmed (p : PaddedSpec) : List PaddedSpec → List Char
  | [] => p.pre ++ p.spec.render
  | q :: qs => p.render ++ ',' :: joinTrimmed q qs

/-- Every character of a spec is a digit or the dash. -/
theorem ByteRangeSpec.digit_or_dash {sp : ByteRangeSpec} (hwf : sp.WellFormed)
    : ∀ c ∈ sp.render, c.isDigit ∨ c = '-' := by
  intro c hc
  cases sp with
  | closed a b =>
      simp only [render, List.mem_append, List.mem_cons] at hc
      rcases hc with h | rfl | h
      · exact .inl (hwf.1.2 c h)
      · exact .inr rfl
      · exact .inl (hwf.2.2 c h)
  | fromFirst a =>
      simp only [render, List.mem_append, List.mem_singleton] at hc
      rcases hc with h | rfl
      · exact .inl (hwf.2 c h)
      · exact .inr rfl
  | suffix k =>
      simp only [render, List.mem_cons] at hc
      rcases hc with rfl | h
      · exact .inr rfl
      · exact .inl (hwf.1.2 c h)

/-- A spec has a digit. -/
theorem ByteRangeSpec.exists_digit {sp : ByteRangeSpec} (hwf : sp.WellFormed)
    : ∃ d ∈ sp.render, d.isDigit := by
  have numeral : ∀ ds : List Char, IsNumeral ds → ∃ d ∈ ds, d.isDigit := fun ds h =>
    let ⟨d, rest, hds⟩ := List.exists_cons_of_ne_nil h.1
    ⟨d, hds ▸ List.mem_cons_self d rest, h.2 d (hds ▸ List.mem_cons_self d rest)⟩
  cases sp with
  | closed a b => obtain ⟨d, hd, hdig⟩ := numeral a hwf.1; exact ⟨d, by simp [render, hd], hdig⟩
  | fromFirst a => obtain ⟨d, hd, hdig⟩ := numeral a hwf; exact ⟨d, by simp [render, hd], hdig⟩
  | suffix k => obtain ⟨d, hd, hdig⟩ := numeral k hwf.1; exact ⟨d, by simp [render, hd], hdig⟩

/-- A spec ends with a digit or the dash, so white space after it is the only white space
`rdropWhile` removes.
-/
theorem ByteRangeSpec.rdropWhile_render {sp : ByteRangeSpec} (hwf : sp.WellFormed)
    (pre : List Char) : (pre ++ sp.render).rdropWhile isSpace = pre ++ sp.render := by
  rw [List.rdropWhile_eq_self_iff]
  intro hne
  rw [List.getLast_append_of_ne_nil (by cases sp <;> simp [render])]
  rcases ByteRangeSpec.digit_or_dash hwf _ (List.getLast_mem _) with h | h
  · simp [isSpace_digit h]
  · rw [h]; decide

theorem rdropWhile_append_of_last {p : Char → Bool} {l rest : List Char} {c : Char}
    (hc : p c = false) : (l ++ c :: rest).rdropWhile p = l ++ c :: rest.rdropWhile p := by
  unfold List.rdropWhile
  rw [List.reverse_append, List.reverse_cons, List.append_assoc, List.singleton_append,
    List.dropWhile_append]
  split
  · rename_i h
    rw [List.isEmpty_iff.mp h, List.dropWhile_cons, hc]
    simp
  · simp

/-- Only the last spec's trailing white space is trimmed off the list. -/
theorem joinSpecs_rdropWhile {p : PaddedSpec} {ps : List PaddedSpec}
    (hwf : ∀ x ∈ p :: ps, x.WellFormed) : (joinSpecs p ps).rdropWhile isSpace = joinTrimmed p ps := by
  induction ps generalizing p with
  | nil =>
      have hp := hwf p (List.mem_singleton_self p)
      rw [joinSpecs, joinTrimmed, PaddedSpec.render, rdropWhile_append_of_pos hp.2.2,
        ByteRangeSpec.rdropWhile_render hp.2.1]
  | cons q qs ih =>
      rw [joinSpecs, joinTrimmed, rdropWhile_append_of_last (by decide),
        ih (fun x hx => hwf x (List.mem_cons_of_mem p hx))]

/-- A comma is neither white space nor part of a spec. -/
theorem PaddedSpec.comma_not_mem {p : PaddedSpec} (hwf : p.WellFormed) {post : List Char}
    (hpost : ∀ c ∈ post, isSpace c) : ',' ∉ p.pre ++ p.spec.render ++ post := by
  simp only [List.mem_append, not_or]
  refine ⟨⟨not_mem_of_spaces hwf.1 (by decide), fun h => ?_⟩, not_mem_of_spaces hpost (by decide)⟩
  rcases ByteRangeSpec.digit_or_dash hwf.2.1 ',' h with h | h <;> revert h <;> decide

variable {N : UInt64} (hn : 1 ≤ N.toNat) (hN : N.toNat ≤ 2147483648)

include hn hN in
/-- Cut at the commas, the list reads spec by spec. -/
theorem mapM_split_joinTrimmed {p : PaddedSpec} {ps : List PaddedSpec}
    (hwf : ∀ x ∈ p :: ps, x.WellFormed) (hlong : ∀ x ∈ p :: ps, ¬x.spec.LongSuffix N.toNat)
    : (split (joinTrimmed p ps) ',').mapM (parseRange N)
      = (p :: ps).mapM fun x => x.spec.expected N.toNat := by
  induction ps generalizing p with
  | nil =>
      have hp := hwf p (List.mem_singleton_self p)
      have hnil : ∀ c ∈ ([] : List Char), isSpace c := by simp
      have hread := parseRange_padded hn hN hp.1 hnil hp.2.1 (hlong p (List.mem_singleton_self p))
      rw [List.append_nil] at hread
      rw [joinTrimmed, split_single (by simpa using PaddedSpec.comma_not_mem hp hnil),
        List.mapM_cons, List.mapM_cons, hread, List.mapM_nil, List.mapM_nil]
  | cons q qs ih =>
      have hp := hwf p (List.mem_cons_self p _)
      rw [joinTrimmed, PaddedSpec.render, split_cons (PaddedSpec.comma_not_mem hp hp.2.2),
        List.mapM_cons, List.mapM_cons,
        ih (fun x hx => hwf x (List.mem_cons_of_mem p hx))
          (fun x hx => hlong x (List.mem_cons_of_mem p hx)),
        parseRange_padded hn hN hp.1 hp.2.2 hp.2.1 (hlong p (List.mem_cons_self p _))]

theorem hasDoubleDash_append_of_not_mem {x y : List Char} (hx : '-' ∉ x)
    : hasDoubleDash (x ++ y) = hasDoubleDash y := by
  induction x with
  | nil => rfl
  | cons c x ih =>
      have hc : c ≠ '-' := fun h => hx (h ▸ List.mem_cons_self c x)
      simp [hasDoubleDash, hc, ih (fun h => hx (List.mem_cons_of_mem c h))]

theorem hasDoubleDash_dash_cons {y : List Char} (hy : y.head? ≠ some '-')
    : hasDoubleDash ('-' :: y) = hasDoubleDash y := by
  simp [hasDoubleDash, hy]

theorem IsNumeral.head?_ne_dash {ds : List Char} (h : IsNumeral ds) (z : List Char)
    : (ds ++ z).head? ≠ some '-' := by
  obtain ⟨d, rest, rfl⟩ := List.exists_cons_of_ne_nil h.1
  intro hd
  simp only [List.cons_append, List.head?_cons, Option.some.injEq] at hd
  exact absurd (h.2 d (List.mem_cons_self d rest)) (by simp [hd])

theorem head?_ne_dash_of_spaces {ws rest : List Char} (hws : ∀ c ∈ ws, isSpace c)
    (hrest : rest.head? ≠ some '-') : (ws ++ rest).head? ≠ some '-' := by
  cases ws with
  | nil => simpa using hrest
  | cons c ws =>
      intro h
      simp only [List.cons_append, List.head?_cons, Option.some.injEq] at h
      exact absurd (hws c (List.mem_cons_self c ws)) (by simp [h]; decide)

/-- A padded spec holds no double dash and, followed by text that does not start with a dash,
makes none with it.
-/
theorem PaddedSpec.hasDoubleDash_render {p : PaddedSpec} (hwf : p.WellFormed)
    {post rest : List Char} (hpost : ∀ c ∈ post, isSpace c) (hrest : rest.head? ≠ some '-')
    : hasDoubleDash (p.pre ++ p.spec.render ++ post ++ rest) = hasDoubleDash rest := by
  have hpre : '-' ∉ p.pre := dash_not_mem_of_spaces hwf.1
  have hpost' : '-' ∉ post := dash_not_mem_of_spaces hpost
  have hwf' := hwf.2.1
  obtain ⟨pre, sp, _⟩ := p
  cases sp with
  | closed a b =>
      simp only [ByteRangeSpec.render, List.append_assoc, List.cons_append]
      rw [hasDoubleDash_append_of_not_mem hpre,
        hasDoubleDash_append_of_not_mem hwf'.1.dash_not_mem,
        hasDoubleDash_dash_cons (hwf'.2.head?_ne_dash _),
        hasDoubleDash_append_of_not_mem hwf'.2.dash_not_mem, hasDoubleDash_append_of_not_mem hpost']
  | fromFirst a =>
      simp only [ByteRangeSpec.render, List.append_assoc, List.cons_append, List.nil_append]
      rw [hasDoubleDash_append_of_not_mem hpre, hasDoubleDash_append_of_not_mem hwf'.dash_not_mem,
        hasDoubleDash_dash_cons (head?_ne_dash_of_spaces hpost hrest),
        hasDoubleDash_append_of_not_mem hpost']
  | suffix k =>
      simp only [ByteRangeSpec.render, List.append_assoc, List.cons_append]
      rw [hasDoubleDash_append_of_not_mem hpre, hasDoubleDash_dash_cons (hwf'.1.head?_ne_dash _),
        hasDoubleDash_append_of_not_mem hwf'.1.dash_not_mem, hasDoubleDash_append_of_not_mem hpost']

/-- A list of specs holds no double dash. -/
theorem hasDoubleDash_joinTrimmed {p : PaddedSpec} {ps : List PaddedSpec}
    (hwf : ∀ x ∈ p :: ps, x.WellFormed) : hasDoubleDash (joinTrimmed p ps) = false := by
  induction ps generalizing p with
  | nil =>
      simpa [joinTrimmed] using
        @PaddedSpec.hasDoubleDash_render p (hwf p (List.mem_singleton_self p)) [] [] (by simp) (by simp)
  | cons q qs ih =>
      have hp := hwf p (List.mem_cons_self p _)
      rw [joinTrimmed, PaddedSpec.render,
        @PaddedSpec.hasDoubleDash_render p hp p.post (',' :: joinTrimmed q qs) hp.2.2 (by simp),
        ← List.singleton_append, hasDoubleDash_append_of_not_mem (by decide),
        ih (fun x hx => hwf x (List.mem_cons_of_mem p hx))]

/-- A list of specs is not the lone dash `bytes=-` answers specially: it has a digit. -/
theorem joinTrimmed_ne_dash {p : PaddedSpec} {ps : List PaddedSpec} (hp : p.WellFormed)
    : joinTrimmed p ps ≠ ['-'] := by
  obtain ⟨d, hd, hdig⟩ := ByteRangeSpec.exists_digit hp.2.1
  intro h
  have hmem : d ∈ joinTrimmed p ps := by
    cases ps <;> simp [joinTrimmed, PaddedSpec.render, hd]
  rw [h, List.mem_singleton] at hmem
  subst hmem
  exact absurd hdig (by decide)

theorem trim_bytes (body : List Char)
    : trim ("bytes=".toList ++ body) = "bytes=".toList ++ body.rdropWhile isSpace := by
  have hb : "bytes=".toList ++ body = 'b' :: ("ytes".toList ++ '=' :: body) := rfl
  rw [trim, hb, List.dropWhile_cons, if_neg (by decide), ← List.cons_append,
    rdropWhile_append_of_last (by decide)]
  rfl

theorem mapM_eq_some_map {α β : Type} {f : α → Option β} {g : α → β} :
    ∀ {l : List α}, (∀ x ∈ l, f x = some (g x)) → l.mapM f = some (l.map g)
  | [], _ => rfl
  | x :: xs, h => by
      rw [List.mapM_cons, h x (List.mem_cons_self x xs),
        mapM_eq_some_map (fun y hy => h y (List.mem_cons_of_mem x hy))]
      rfl

theorem mapM_eq_none {α β : Type} {f : α → Option β} :
    ∀ {l : List α}, (∃ x ∈ l, f x = none) → l.mapM f = none
  | [], ⟨_, hx, _⟩ => absurd hx (List.not_mem_nil _)
  | x :: xs, ⟨y, hy, hfy⟩ => by
      rw [List.mapM_cons]
      rcases List.mem_cons.mp hy with rfl | hy
      · rw [hfy]; rfl
      · rw [mapM_eq_none ⟨y, hy, hfy⟩]; cases f x <;> rfl

include hn hN in
/-- On a header of specs the parser returns the specs' results in order, or `none` as soon as
one has none.
-/
theorem parserHttpRanges_rangeHeader {p : PaddedSpec} {ps : List PaddedSpec}
    (hwf : ∀ x ∈ p :: ps, x.WellFormed) (hlong : ∀ x ∈ p :: ps, ¬x.spec.LongSuffix N.toNat)
    : parserHttpRanges (rangeHeader p ps) N = (p :: ps).mapM fun x => x.spec.expected N.toNat := by
  have hdrop : ("bytes=".toList ++ joinTrimmed p ps).drop 6 = joinTrimmed p ps :=
    List.drop_left' rfl
  have hne : ("bytes=".toList ++ joinTrimmed p ps).isEmpty = false := rfl
  simp only [parserHttpRanges, rangeHeader, trim_bytes, joinSpecs_rdropWhile hwf, hne, hdrop,
    hasDoubleDash_joinTrimmed hwf, joinTrimmed_ne_dash (hwf p (List.mem_cons_self p ps)),
    mapM_split_joinTrimmed hn hN hwf hlong, List.isPrefixOf_iff_prefix.mpr (List.prefix_append _ _)]
  rfl

/-- The reference reading of an ordered spec the code accepts is a range inside the file, first
byte first.
-/
theorem ByteRangeSpec.reference_inside {n : Nat} (hn : 1 ≤ n) {sp : ByteRangeSpec}
    (hwf : sp.WellFormed) (hord : sp.Ordered) (hacc : sp.Accepted n)
    : 0 ≤ (sp.reference n).1 ∧ (sp.reference n).1 ≤ (sp.reference n).2
      ∧ (sp.reference n).2 ≤ (n : Int) - 1 := by
  cases sp with
  | closed a b =>
      simp only [reference, Ordered, Accepted] at hord hacc ⊢
      omega
  | fromFirst a =>
      simp only [reference, Accepted] at hacc ⊢
      omega
  | suffix k =>
      simp only [reference, WellFormed] at hwf ⊢
      omega

include hn hN in
/-- For a file of `1 ≤ N ≤ 2^31` bytes and a header of specs, every `a-b` with `a ≤ b` and none a
suffix of length from `N` to `INT_MAX`: when every number fits an `int` and every spec is
accepted, the parser returns the reference reading of each spec in order, each a range inside the
file; otherwise it reports the header invalid.
-/
theorem parserHttpRanges_reference (p : PaddedSpec) (ps : List PaddedSpec)
    (hwf : ∀ x ∈ p :: ps, x.WellFormed ∧ x.spec.Ordered)
    (hlong : ∀ x ∈ p :: ps, ¬x.spec.LongSuffix N.toNat)
    : ((∀ x ∈ p :: ps, x.spec.Bounded ∧ x.spec.Accepted N.toNat) →
        parserHttpRanges (rangeHeader p ps) N
          = some ((p :: ps).map fun x => x.spec.reference N.toNat)
        ∧ ∀ r ∈ (p :: ps).map (fun x => x.spec.reference N.toNat),
          0 ≤ r.1 ∧ r.1 ≤ r.2 ∧ r.2 ≤ (N.toNat : Int) - 1)
      ∧ ((∃ x ∈ p :: ps, ¬(x.spec.Bounded ∧ x.spec.Accepted N.toNat)) →
        parserHttpRanges (rangeHeader p ps) N = none) := by
  rw [parserHttpRanges_rangeHeader hn hN (fun x hx => (hwf x hx).1) hlong]
  refine ⟨fun h => ⟨mapM_eq_some_map fun x hx => if_pos (h x hx), ?_⟩,
    fun ⟨x, hx, hna⟩ => mapM_eq_none ⟨x, hx, if_neg hna⟩⟩
  simp only [List.mem_map]
  rintro r ⟨x, hx, rfl⟩
  exact ByteRangeSpec.reference_inside hn (hwf x hx).1.2.1 (hwf x hx).2 (h x hx).2

/-- ` 0-4,-3 ,5-` for a file of 10 bytes. -/
theorem parserHttpRanges_reference_ten
    : (1 ≤ (10 : UInt64).toNat ∧ (10 : UInt64).toNat ≤ 2147483648)
      ∧ (∀ x ∈ [⟨[' '], .closed ['0'] ['4'], []⟩, ⟨[], .suffix ['3'], [' ']⟩,
          ⟨[], .fromFirst ['5'], []⟩],
          (PaddedSpec.WellFormed x ∧ x.spec.Ordered) ∧ ¬x.spec.LongSuffix 10)
      ∧ parserHttpRanges (rangeHeader ⟨[' '], .closed ['0'] ['4'], []⟩
          [⟨[], .suffix ['3'], [' ']⟩, ⟨[], .fromFirst ['5'], []⟩]) 10
        = some [(0, 4), (7, 9), (5, 9)] :=
  ⟨by decide, by decide,
    ((@parserHttpRanges_reference 10 (by decide) (by decide) _ _ (by decide) (by decide)).1
      (by decide)).1⟩

/-- Against the reference reading: a suffix longer than the file gives `(1, N - 1)`, `(N-1)-`
is refused, and a last byte past `INT_MAX` is refused.
-/
theorem parserHttpRanges_off_reference
    : parserHttpRanges "bytes=-20".toList 10 = some [(1, 9)]
      ∧ parserHttpRanges "bytes=9-".toList 10 = none
      ∧ parserHttpRanges "bytes=0-4294967295".toList 10 = none := by
  decide

end Httplib.Html
