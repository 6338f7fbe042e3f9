import Httplib.Html.RangeSpecs

/-! The headers `parser_http_ranges` accepts. A piece of a spec is read by `from_chars`, which
stops at the first non-digit, and the pieces after a second `-` are never read, so the accepted
headers have a looser shape than the RFC 7233 grammar of `RangeSpecs`.
-/

namespace Httplib.Html

open Httplib.Util

/-- A piece the code reads a number from: blank, or a digit first once white space is trimmed. -/
def NumberSlot (piece : List Char) : Prop :=
  ∀ c ∈ (trim piece).head?, c.isDigit = true

/-- The number at the front of a trimmed piece, `0` when the piece is blank. -/
def leadingNumber (piece : List Char) : Nat :=
  digitsValue ((trim piece).takeWhile Char.isDigit)

/-- An item of the list as the code takes it for a file of `n` bytes: the text before the first
`-` and the text between the first and the second are number slots, and the first number is `0`
or inside the file.
-/
def LooseItem (n : Nat) (item : List Char) : Prop :=
  NumberSlot ((split item '-').headD []) ∧ NumberSlot ((split item '-').getD 1 [])
    ∧ (leadingNumber ((split item '-').headD []) = 0
      ∨ leadingNumber ((split item '-').headD []) < n)

/-- The headers the code accepts for a file of `n` bytes: blank, `bytes=-`, or `bytes=` and a
comma-separated list of loose items with no `--` anywhere.
-/
def LooseHeader (n : Nat) (s : List Char) : Prop :=
  trim s = [] ∨ trim s = "bytes=-".toList
    ∨ ∃ body, trim s = "bytes=".toList ++ body ∧ hasDoubleDash body = false
      ∧ ∀ item ∈ split body ',', LooseItem n item

-----------------------------------------------------------------------------------------
-- One item
-----------------------------------------------------------------------------------------

/-- `from_chars` succeeds on a piece without `-` only at a digit, with the value of the digits
there.
-/
theorem fromChars_piece {x : List Char} (hx : '-' ∉ x) {v : Int} (h : fromChars x = some v)
    : (∀ c ∈ x.head?, c.isDigit = true) ∧ v = digitsValue (x.takeWhile Char.isDigit) := by
  have hhead : x.head? ≠ some '-' := fun he => hx (List.mem_of_mem_head? he)
  simp only [fromChars, hhead, if_false, leadingValue, Bool.false_eq_true] at h
  split at h
  · exact absurd h (by simp)
  · rename_i hne
    refine ⟨fun c hc => ?_, by split at h <;> simp_all⟩
    cases x with
    | nil => simp at hne
    | cons d ds =>
        simp only [List.head?_cons, Option.mem_def, Option.some.injEq] at hc
        subst hc
        by_contra hd
        simp [List.takeWhile_cons, hd] at hne

theorem trim_piece_not_dash {item x : List Char} (hx : x ∈ split item '-') : '-' ∉ trim x :=
  fun hm => not_mem_of_mem_split hx (mem_of_mem_trim hm)

/-- A first byte the code lets through is `0`, negative, or inside the file. -/
theorem checkRange_start {n s e : Int} {r : Int × Int} (h : checkRange n s e = some r)
    : s ≤ 0 ∨ s < n := by
  unfold checkRange at h
  split at h
  · exact absurd h (by simp)
  · omega

theorem numberSlot_of_blank {x : List Char} (h : (trim x).isEmpty = true)
    : NumberSlot x ∧ leadingNumber x = 0 := by
  rw [List.isEmpty_iff] at h
  simp [NumberSlot, leadingNumber, h, digitsValue]

theorem numberSlot_of_fromChars {x : List Char} (hx : '-' ∉ trim x) {v : Int}
    (h : fromChars (trim x) = some v) : NumberSlot x ∧ v = leadingNumber x :=
  fromChars_piece hx h

/-- The end of an item: the text after the first `-` is a number slot, and the end passed to
the range check is the default one or a number read there.
-/
theorem end_read {n a e0 : Int} {y : List Char} {ys : List (List Char)} {r : Int × Int}
    (hx : '-' ∉ trim ((y :: ys).getD 1 []))
    (h : (if (y :: ys).length = 1 then (some e0).bind (checkRange n a)
      else if (trim ((y :: ys).getD 1 [])).isEmpty = true then (some e0).bind (checkRange n a)
      else (fromChars (trim ((y :: ys).getD 1 []))).bind (checkRange n a)) = some r)
    : NumberSlot ((y :: ys).getD 1 []) ∧ ∃ e, (e = e0 ∨ 0 ≤ e) ∧ checkRange n a e = some r := by
  split at h
  · rename_i hlen
    have hys : ys = [] := List.eq_nil_of_length_eq_zero (by simpa using hlen)
    subst hys
    exact ⟨(@numberSlot_of_blank [] rfl).1, e0, Or.inl rfl, by rwa [Option.some_bind] at h⟩
  · split at h
    · exact ⟨(numberSlot_of_blank (by assumption)).1, e0, Or.inl rfl,
        by rwa [Option.some_bind] at h⟩
    · obtain ⟨v, hv, hc⟩ := Option.bind_eq_some.mp h
      obtain ⟨hslot, rfl⟩ := numberSlot_of_fromChars hx hv
      exact ⟨hslot, _, Or.inr (Int.ofNat_nonneg _), hc⟩

/-- How the loop body reads an item it accepts: the pieces before the first `-` and between the
first and the second are number slots, the first byte is `-1` for a blank first piece and the
number there otherwise, and the range check passes.
-/
theorem parseRange_read {N : UInt64} {item : List Char} {r : Int × Int}
    (h : parseRange N item = some r)
    : ∃ y ys, split item '-' = y :: ys ∧ NumberSlot y ∧ NumberSlot ((y :: ys).getD 1 [])
      ∧ ∃ s e : Int, (s = -1 ∧ leadingNumber y = 0 ∨ s = leadingNumber y)
        ∧ (e = toInt (N.toNat - 1) ∨ 0 ≤ e) ∧ checkRange N.toNat s e = some r := by
  obtain ⟨y, ys, hsplit⟩ : ∃ y ys, split item '-' = y :: ys :=
    List.exists_cons_of_ne_nil (List.splitOnP_ne_nil _ item)
  have hfirst : '-' ∉ trim y := trim_piece_not_dash (hsplit ▸ List.mem_cons_self y ys)
  have hsecond : '-' ∉ trim ((y :: ys).getD 1 []) := by
    cases ys with
    | nil => simp [trim]
    | cons z zs => exact trim_piece_not_dash (by rw [hsplit]; simp)
  simp only [parseRange, hsplit, List.headD_cons, Option.pure_def, Option.bind_eq_bind] at h
  refine ⟨y, ys, hsplit, ?_⟩
  split at h
  · obtain ⟨hslot, hzero⟩ := numberSlot_of_blank (by assumption)
    rw [Option.some_bind] at h
    obtain ⟨hend, e, he, hc⟩ := end_read hsecond h
    exact ⟨hslot, hend, -1, e, Or.inl ⟨rfl, hzero⟩, he, hc⟩
  · obtain ⟨a, ha, h⟩ := Option.bind_eq_some.mp h
    obtain ⟨hslot, rfl⟩ := numberSlot_of_fromChars hfirst ha
    obtain ⟨hend, e, he, hc⟩ := end_read hsecond h
    exact ⟨hslot, hend, _, e, Or.inr rfl, he, hc⟩

/-- Every item the code reads to a pair is a loose item. -/
theorem parseRange_loose {N : UInt64} {item : List Char} {r : Int × Int}
    (h : parseRange N item = some r) : LooseItem N.toNat item := by
  obtain ⟨y, ys, hsplit, hslot, hend, s, e, hs, -, hc⟩ := parseRange_read h
  have hstart := checkRange_start hc
  simp only [LooseItem, hsplit, List.headD_cons]
  exact ⟨hslot, hend, by omega⟩

-----------------------------------------------------------------------------------------
-- The header
-----------------------------------------------------------------------------------------

theorem eq_append_of_isPrefixOf {l s : List Char} (h : l.isPrefixOf s = true)
    : s = l ++ s.drop l.length :=
  (List.prefix_iff_eq_append.mp (List.isPrefixOf_iff_prefix.mp h)).symm

theorem forall_some_of_mapM {α β : Type} {f : α → Option β} {l : List α} {l' : List β}
    (h : l.mapM f = some l') : ∀ x ∈ l, ∃ y, f x = some y := by
  intro x hx
  cases hfx : f x with
  | none => rw [mapM_eq_none ⟨x, hx, hfx⟩] at h; cases h
  | some y => exact ⟨y, rfl⟩

/-- Whatever the code accepts is a loose header. -/
theorem parserHttpRanges_loose (s : List Char) (N : UInt64) (rs : HttpRanges)
    (h : parserHttpRanges s N = some rs) : LooseHeader N.toNat s := by
  unfold parserHttpRanges at h
  dsimp only at h
  split at h
  · exact Or.inl (List.isEmpty_iff.mp (by assumption))
  split at h
  · exact absurd h (by simp)
  rename_i hpre
  have hs : trim s = "bytes=".toList ++ (trim s).drop 6 :=
    eq_append_of_isPrefixOf (by simpa using hpre)
  split at h
  · exact absurd h (by simp)
  rename_i hdd
  split at h
  · rename_i hdash
    exact Or.inr (Or.inl (by rw [hs, hdash]; rfl))
  · refine Or.inr (Or.inr ⟨_, hs, by simpa using hdd, fun item hi => ?_⟩)
    obtain ⟨r, hr⟩ := forall_some_of_mapM h item hi
    exact parseRange_loose hr

/-- `bytes=1x-2` for a file of 10 bytes. -/
theorem parserHttpRanges_loose_one_x
    : parserHttpRanges "bytes=1x-2".toList 10 = some [(1, 2)]
      ∧ LooseHeader 10 "bytes=1x-2".toList :=
  ⟨by decide, parserHttpRanges_loose _ 10 [(1, 2)] (by decide)⟩

/-- Headers off the RFC 7233 grammar that the code accepts for a file of 10 bytes. -/
example : parserHttpRanges "bytes=".toList 10 = some [(1, 9)]
    ∧ parserHttpRanges "bytes=-".toList 10 = some [(0, 9)]
    ∧ parserHttpRanges "bytes=5".toList 10 = some [(5, 9)] := by
  decide

-----------------------------------------------------------------------------------------
-- What the reader does not look at
-----------------------------------------------------------------------------------------

/-- Text after a numeral that `from_chars` stops before: no `-`, `,` or white space, and no digit
first.
-/
def Junk (j : List Char) : Prop :=
  (∀ c ∈ j, c ≠ '-' ∧ c ≠ ',' ∧ isSpace c = false) ∧ ∀ c, j.head? = some c → c.isDigit = false

instance (j : List Char) : Decidable (Junk j) :=
  inferInstanceAs (Decidable (_ ∧ ∀ c, j.head? = some c → _))

theorem Junk.nil : Junk [] :=
  ⟨by simp, by simp⟩

theorem trim_of_no_space {w : List Char} (hw : ∀ c ∈ w, isSpace c = false) : trim w = w := by
  simpa using @trim_pad [] w [] (by simp) hw (by simp)

/-- `from_chars` reads a numeral followed by junk as the numeral. -/
theorem fromChars_junk {a j : List Char} (ha : IsNumeral a) (hj : Junk j)
    : fromChars (a ++ j) = fromChars a := by
  have htake : j.takeWhile Char.isDigit = [] := by
    cases j with
    | nil => rfl
    | cons c cs => simp [List.takeWhile_cons, hj.2 c rfl]
  have hd : a.head? ≠ some '-' := by simpa using ha.head?_ne_dash []
  simp only [fromChars, ha.head?_ne_dash j, hd, if_false, leadingValue,
    List.takeWhile_append_of_pos ha.2, htake, List.append_nil, List.takeWhile_eq_self_iff.mpr ha.2]

/-- An item without white space, `,` or `--`, after `bytes=`, is read as that one item. -/
theorem parserHttpRanges_item (N : UInt64) {item : List Char}
    (hsp : ∀ c ∈ item, isSpace c = false) (hcomma : ',' ∉ item)
    (hdd : hasDoubleDash item = false) (hne : item ≠ ['-'])
    : parserHttpRanges ("bytes=".toList ++ item) N = (parseRange N item).map fun r => [r] := by
  have hbytes : ∀ c ∈ "bytes=".toList, isSpace c = false := by decide
  have htrim : trim ("bytes=".toList ++ item) = "bytes=".toList ++ item :=
    trim_of_no_space fun c hc => (List.mem_append.mp hc).elim (hbytes c) (hsp c)
  have hdrop : ("bytes=".toList ++ item).drop 6 = item := List.drop_left' rfl
  have hprefix : "bytes=".toList.isPrefixOf ("bytes=".toList ++ item) = true :=
    List.isPrefixOf_iff_prefix.mpr (List.prefix_append _ _)
  have hne' : ("bytes=".toList ++ item).isEmpty = false := rfl
  simp only [parserHttpRanges, htrim, hne', hdrop, hprefix, hdd, hne, split_single hcomma,
    Bool.not_true, Bool.false_eq_true, if_false, List.mapM_cons, List.mapM_nil]
  cases parseRange N item <;> rfl

section Junk

variable {a b j k tail : List Char} (ha : IsNumeral a) (hb : IsNumeral b) (hj : Junk j)
  (hk : Junk k) (htail : tail = [] ∨ ∃ z, IsNumeral z ∧ tail = '-' :: z)

include ha hb hj hk htail

/-- The item `a j-b k` with its tail reads as `a-b`: `from_chars` stops before the junk, and the
tail is a piece after the second.
-/
theorem parseRange_junk (N : UInt64)
    : parseRange N (a ++ j ++ '-' :: (b ++ k ++ tail)) = parseRange N (a ++ '-' :: b) := by
  have hjd : '-' ∉ j := fun h => (hj.1 '-' h).1 rfl
  have hkd : '-' ∉ k := fun h => (hk.1 '-' h).1 rfl
  have hsplit : ∃ rest, split (a ++ j ++ '-' :: (b ++ k ++ tail)) '-' = (a ++ j) :: (b ++ k) :: rest := by
    rw [split_cons (by simp [ha.dash_not_mem, hjd])]
    rcases htail with rfl | ⟨z, hz, rfl⟩
    · exact ⟨[], by rw [List.append_nil, split_single (by simp [hb.dash_not_mem, hkd])]⟩
    · exact ⟨[z], by rw [split_cons (by simp [hb.dash_not_mem, hkd]), split_single hz.dash_not_mem]⟩
  obtain ⟨rest, hsplit⟩ := hsplit
  have hno : ∀ {x y : List Char}, IsNumeral x → Junk y → ∀ c ∈ x ++ y, isSpace c = false :=
    fun hx hy c hc => (List.mem_append.mp hc).elim (hx.not_space c) (fun h => (hy.1 c h).2.2)
  have hne : ∀ {x y : List Char}, IsNumeral x → (x ++ y).isEmpty = false := fun hx => by
    obtain ⟨d, rest, rfl⟩ := List.exists_cons_of_ne_nil hx.1; rfl
  rw [parseRange_two hsplit, @parseRange_two N _ _ _ []
    (by rw [split_cons ha.dash_not_mem, split_single hb.dash_not_mem]),
    trim_of_no_space (hno ha hj), trim_of_no_space (hno hb hk), trim_of_no_space ha.not_space,
    trim_of_no_space hb.not_space, hne ha, hne hb, fromChars_junk ha hj, fromChars_junk hb hk,
    ← List.append_nil a, hne ha, ← List.append_nil b, hne hb, List.append_nil, List.append_nil]

/-- Such an item has no white space, no `,` and no `--`, and starts with a digit. -/
theorem junkItem_plain
    : (∀ c ∈ a ++ j ++ '-' :: (b ++ k ++ tail), isSpace c = false)
      ∧ ',' ∉ a ++ j ++ '-' :: (b ++ k ++ tail)
      ∧ hasDoubleDash (a ++ j ++ '-' :: (b ++ k ++ tail)) = false
      ∧ a ++ j ++ '-' :: (b ++ k ++ tail) ≠ ['-'] := by
  have hjd : '-' ∉ j := fun h => (hj.1 '-' h).1 rfl
  have hkd : '-' ∉ k := fun h => (hk.1 '-' h).1 rfl
  have htailfacts : (∀ c ∈ tail, isSpace c = false) ∧ ',' ∉ tail ∧ hasDoubleDash tail = false := by
    rcases htail with rfl | ⟨z, hz, rfl⟩
    · simp [hasDoubleDash]
    · refine ⟨?_, by simp [hz.not_mem (show ','.isDigit = false by decide)], ?_⟩
      · simp only [List.mem_cons, forall_eq_or_imp]; exact ⟨by decide, hz.not_space⟩
      · rw [hasDoubleDash_dash_cons (by simpa using hz.head?_ne_dash []),
          ← List.append_nil z, hasDoubleDash_append_of_not_mem hz.dash_not_mem]; rfl
  obtain ⟨hts, htc, htd⟩ := htailfacts
  refine ⟨?_, ?_, ?_, fun h => ?_⟩
  · simp only [List.mem_append, List.mem_cons]
    rintro c ((hc | hc) | rfl | (hc | hc) | hc)
    · exact ha.not_space c hc
    · exact (hj.1 c hc).2.2
    · decide
    · exact hb.not_space c hc
    · exact (hk.1 c hc).2.2
    · exact hts c hc
  · have hjc : ',' ∉ j := fun h => (hj.1 ',' h).2.1 rfl
    have hkc : ',' ∉ k := fun h => (hk.1 ',' h).2.1 rfl
    simp [ha.not_mem (show ','.isDigit = false by decide),
      hb.not_mem (show ','.isDigit = false by decide), hjc, hkc, htc]
  · rw [hasDoubleDash_append_of_not_mem (by simp [ha.dash_not_mem, hjd]), hasDoubleDash_dash_cons
      (by simpa using hb.head?_ne_dash (k ++ tail)),
      hasDoubleDash_append_of_not_mem (by simp [hb.dash_not_mem, hkd]), htd]
  · have hhead := ha.head?_ne_dash (j ++ '-' :: (b ++ k ++ tail))
    rw [← List.append_assoc, h] at hhead
    exact hhead rfl

/-- `from_chars` stops at the first non-digit and nothing checks where it stopped, and the pieces
of an item after its second `-` are never read: for numerals `a`, `b`, junk `j`, `k`, and a tail
that is empty or a third numeral piece, `bytes=a j-b k` followed by the tail reads as `bytes=a-b`,
though only the latter is an RFC 7233 header.
-/
theorem parserHttpRanges_ignores_junk (N : UInt64)
    : parserHttpRanges ("bytes=".toList ++ (a ++ j ++ '-' :: (b ++ k ++ tail))) N
      = parserHttpRanges ("bytes=".toList ++ (a ++ '-' :: b)) N := by
  obtain ⟨hs1, hc1, hd1, hn1⟩ := junkItem_plain ha hb hj hk htail
  obtain ⟨hs0, hc0, hd0, hn0⟩ := junkItem_plain ha hb Junk.nil Junk.nil (.inl rfl)
  simp only [List.append_nil] at hs0 hc0 hd0 hn0
  rw [parserHttpRanges_item N hs1 hc1 hd1 hn1, parserHttpRanges_item N hs0 hc0 hd0 hn0,
    parseRange_junk ha hb hj hk htail]

end Junk

/-- `bytes=1x-2` and `bytes=1-2-3` read as `bytes=1-2` for a file of 10 bytes: `[(1, 2)]`. -/
theorem parserHttpRanges_one_x_two
    : IsNumeral ['1'] ∧ IsNumeral ['2'] ∧ Junk ['x'] ∧ Junk []
      ∧ parserHttpRanges ("bytes=".toList ++ (['1'] ++ ['x'] ++ '-' :: (['2'] ++ [] ++ []))) 10
        = parserHttpRanges ("bytes=".toList ++ (['1'] ++ '-' :: ['2'])) 10
      ∧ parserHttpRanges ("bytes=".toList ++ (['1'] ++ [] ++ '-' :: (['2'] ++ [] ++ ['-', '3'])))
          10
        = parserHttpRanges ("bytes=".toList ++ (['1'] ++ '-' :: ['2'])) 10
      ∧ parserHttpRanges ("bytes=".toList ++ (['1'] ++ '-' :: ['2'])) 10 = some [(1, 2)] :=
  ⟨by decide, by decide, by decide, Junk.nil,
    parserHttpRanges_ignores_junk (by decide) (by decide) (by decide) Junk.nil (.inl rfl) 10,
    parserHttpRanges_ignores_junk (by decide) (by decide) Junk.nil Junk.nil
      (.inr ⟨['3'], by decide, rfl⟩) 10,
    by decide⟩

end Httplib.Html
