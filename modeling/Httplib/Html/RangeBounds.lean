import Httplib.Html.RangeAccept

/-! What `parser_http_ranges` hands the file server. For a file of at most `INT_MAX` bytes no
accepted pair is negative or past the file, but the code never compares the first byte with the
last, so a reversed `first-last` spec is passed through.
-/

namespace Httplib.Html

-----------------------------------------------------------------------------------------
-- Inside the file
-----------------------------------------------------------------------------------------

/-- The range check leaves a first byte from `0` to `n` and a last byte from `0` to `n - 1`,
for a first byte that is `-1` or a number and an end that is a number.
-/
theorem checkRange_bounds {n s e a b : Int} (hn : 1 ≤ n) (hN : n ≤ intMax) (hs : s = -1 ∨ 0 ≤ s)
    (he : 0 ≤ e) (h : checkRange n s e = some (a, b))
    : 0 ≤ a ∧ a ≤ n ∧ 0 ≤ b ∧ b ≤ n - 1 := by
  have hmax : n < 2147483648 := by simp only [intMax] at hN; omega
  have hn1 : toInt (n - 1) = n - 1 := toInt_of_bounds (by omega) (by omega)
  simp only [checkRange] at h
  split_ifs at h with hrefuse hsuffix hclamp hclamp <;>
    simp only [Option.some.injEq, Prod.mk.injEq] at h <;> obtain ⟨rfl, rfl⟩ := h <;>
    try simp only [hn1]
  · rw [toInt_of_bounds (by omega) (by omega)]; omega
  · rw [toInt_of_bounds (by omega) (by omega)]; omega
  · omega
  · omega

/-- Every pair the loop body accepts for a file of `1 ≤ N ≤ INT_MAX` bytes starts in `[0, N]`
and ends in `[0, N - 1]`.
-/
theorem parseRange_bounds {N : UInt64} (hn : 1 ≤ N.toNat) (hN : N.toNat ≤ 2147483647)
    {item : List Char} {a b : Int} (h : parseRange N item = some (a, b))
    : 0 ≤ a ∧ a ≤ N.toNat ∧ 0 ≤ b ∧ b ≤ N.toNat - 1 := by
  obtain ⟨y, -, -, -, -, s, e, hs, he, hc⟩ := parseRange_read h
  have hdefault : toInt ((N.toNat : Int) - 1) = N.toNat - 1 :=
    toInt_of_bounds (by omega) (by omega)
  have hs' : s = -1 ∨ 0 ≤ s := by
    rcases hs with ⟨rfl, -⟩ | rfl
    · exact Or.inl rfl
    · exact Or.inr (Int.ofNat_nonneg _)
  exact checkRange_bounds (by omega) (by simp only [intMax]; omega) hs' (by omega) hc

theorem toInt64_of_bounds {x : Int} (h1 : -9223372036854775808 ≤ x)
    (h2 : x < 9223372036854775808) : toInt64 x = x := by
  simp only [toInt64, Int.bmod]
  split <;> omega

theorem exists_of_mem_mapM {α β : Type} {f : α → Option β}
    : ∀ {l : List α} {l' : List β}, l.mapM f = some l' → ∀ y ∈ l', ∃ x ∈ l, f x = some y
  | [], l', h, y, hy => by
      cases h
      exact absurd hy (List.not_mem_nil y)
  | x :: xs, l', h, y, hy => by
      simp only [List.mapM_cons, Option.bind_eq_bind, Option.bind_eq_some, Option.pure_def,
        Option.some.injEq] at h
      obtain ⟨b, hb, bs, hbs, rfl⟩ := h
      rcases List.mem_cons.mp hy with rfl | hy
      · exact ⟨x, List.mem_cons_self x xs, hb⟩
      · obtain ⟨x', hx', hfx'⟩ := exists_of_mem_mapM hbs y hy
        exact ⟨x', List.mem_cons_of_mem x hx', hfx'⟩

/-- For a file of `1 ≤ N ≤ INT_MAX` bytes, whatever the header, every pair the parser accepts
starts in `[0, N]` and ends in `[0, N - 1]`: nothing negative and nothing past the file, but
the start may pass the end. The bound on `N` is needed: at `N = 2^31`, `bytes=-0` narrows the
start `N - 0` to `-2^31`.
-/
theorem parserHttpRanges_bounds (s : List Char) {N : UInt64} (hn : 1 ≤ N.toNat)
    (hN : N.toNat ≤ 2147483647) {rs : HttpRanges} (h : parserHttpRanges s N = some rs)
    : ∀ p ∈ rs, 0 ≤ p.1 ∧ p.1 ≤ N.toNat ∧ 0 ≤ p.2 ∧ p.2 ≤ N.toNat - 1 := by
  unfold parserHttpRanges at h
  dsimp only at h
  split at h
  · cases h; intro p hp; cases hp
  split at h
  · cases h
  split at h
  · cases h
  split at h
  · cases h
    intro p hp
    rw [List.mem_singleton.mp hp, toInt64_of_bounds (by omega) (by omega)]
    omega
  · intro p hp
    obtain ⟨item, -, hitem⟩ := exists_of_mem_mapM h p hp
    exact parseRange_bounds hn hN hitem

-----------------------------------------------------------------------------------------
-- Out of order
-----------------------------------------------------------------------------------------

/-- A suffix longer than a file of 10 bytes and an open range. -/
theorem parserHttpRanges_bounds_ten
    : 1 ≤ (10 : UInt64).toNat ∧ (10 : UInt64).toNat ≤ 2147483647
      ∧ parserHttpRanges "bytes=-20,2-".toList 10 = some [(1, 9), (2, 9)]
      ∧ ∀ p ∈ ([(1, 9), (2, 9)] : HttpRanges),
          0 ≤ p.1 ∧ p.1 ≤ (10 : UInt64).toNat ∧ 0 ≤ p.2 ∧ p.2 ≤ (10 : UInt64).toNat - 1 :=
  have h : parserHttpRanges "bytes=-20,2-".toList 10 = some [(1, 9), (2, 9)] := by decide
  ⟨by decide, by decide, h, parserHttpRanges_bounds _ (by decide) (by decide) h⟩

/-- For a file of `1 ≤ N ≤ 2^31` bytes, a header `bytes=a-b` with `b < a < N` is accepted and
returned as the reversed pair `(a, b)`.
-/
theorem parserHttpRanges_reversed {N : UInt64} (hn : 1 ≤ N.toNat) (hN : N.toNat ≤ 2147483648)
    {a b : List Char} (ha : IsNumeral a) (hb : IsNumeral b) (hba : digitsValue b < digitsValue a)
    (haN : digitsValue a < N.toNat)
    : parserHttpRanges (rangeHeader ⟨[], .closed a b, []⟩ []) N
      = some [((digitsValue a : Int), (digitsValue b : Int))] := by
  have hwf : ∀ x ∈ [(⟨[], .closed a b, []⟩ : PaddedSpec)], x.WellFormed := by
    simp [PaddedSpec.WellFormed, ByteRangeSpec.WellFormed, ha, hb]
  rw [parserHttpRanges_rangeHeader hn hN hwf (by simp [ByteRangeSpec.LongSuffix])]
  simp only [List.mapM_cons, List.mapM_nil, ByteRangeSpec.expected, ByteRangeSpec.Bounded,
    ByteRangeSpec.Accepted, ByteRangeSpec.reference, intMax]
  rw [if_pos (by omega)]
  simp only [Option.pure_def, Option.bind_eq_bind, Option.some_bind, Option.some.injEq,
    List.cons.injEq, Prod.mk.injEq, and_true, true_and]
  omega

/-- `bytes=5-3` for a file of 10 bytes. -/
theorem parserHttpRanges_five_three
    : (1 ≤ (10 : UInt64).toNat ∧ (10 : UInt64).toNat ≤ 2147483648 ∧ IsNumeral ['5']
        ∧ IsNumeral ['3'] ∧ digitsValue ['3'] < digitsValue ['5'] ∧ digitsValue ['5'] < 10)
      ∧ parserHttpRanges (rangeHeader ⟨[], .closed ['5'] ['3'], []⟩ []) 10 = some [(5, 3)] :=
  ⟨by decide, @parserHttpRanges_reversed 10 (by decide) (by decide) ['5'] ['3'] (by decide)
    (by decide) (by decide) (by decide)⟩

end Httplib.Html
