import Httplib.Html.Listing

/-! Reading a listing page back: the text of its `title` and `h1` elements, and the `href` of
each anchor, HTML-unescaped and percent-decoded as a relative path reference. The page decodes
to its inputs when no name or path carries a character the format would have to escape.
-/

namespace Httplib.Html

-----------------------------------------------------------------------------------------
-- Decoders
-----------------------------------------------------------------------------------------

/-- The character references an attribute value or text may use for markup characters. -/
def htmlEntities : List (List Char × Char) :=
  [("amp;".toList, '&'), ("lt;".toList, '<'), ("gt;".toList, '>'), ("quot;".toList, '"'),
    ("#39;".toList, '\x27')]

/-- HTML unescaping, left to right. -/
def htmlUnescape : List Char → List Char
  | [] => []
  | c :: rest =>
      if c = '&' then
        match htmlEntities.find? (·.1.isPrefixOf rest) with
        | some (name, ch) => ch :: htmlUnescape (rest.drop name.length)
        | none => c :: htmlUnescape rest
      else c :: htmlUnescape rest
termination_by s => s.length

def hexValue (c : Char) : Option Nat :=
  if c.isDigit then some (c.toNat - '0'.toNat)
  else if 'a' ≤ c ∧ c ≤ 'f' then some (c.toNat - 'a'.toNat + 10)
  else if 'A' ≤ c ∧ c ≤ 'F' then some (c.toNat - 'A'.toNat + 10)
  else none

/-- Percent-decoding: `%` and two hex digits stand for the byte they spell. -/
def percentDecode : List Char → List Char
  | [] => []
  | c :: rest =>
      if c = '%' then
        match rest with
        | h :: l :: tail =>
            match hexValue h, hexValue l with
            | some a, some b => Char.ofNat (16 * a + b) :: percentDecode tail
            | _, _ => c :: percentDecode (h :: l :: tail)
        | tail => c :: percentDecode tail
      else c :: percentDecode rest
termination_by s => s.length

/-- The path of a relative reference: what comes before its query or fragment. -/
def refPath (ref : List Char) : List Char :=
  ref.takeWhile fun c => c != '?' && c != '#'

/-- A character of a URL scheme after its first letter: an ASCII letter or digit, `+`, `-`
or `.`.
-/
def schemeChar (c : Char) : Bool :=
  c.isAlphanum || c == '+' || c == '-' || c == '.'

/-- The URL parser's scheme state: a letter, scheme characters, then `:` make the value an
absolute URL with a scheme, such as `javascript:`, and not a relative reference.
-/
def hasScheme : List Char → Bool
  | c :: rest => c.isAlpha && (rest.dropWhile schemeChar).head? == some ':'
  | [] => false

/-- An `href` value as the path of the relative reference it is: HTML-unescaped, then, when the
URL parser finds no scheme, the part before any query or fragment, percent-decoded; `none` for a
URL with a scheme.
-/
def decodeHref (value : List Char) : Option (List Char) :=
  let ref := htmlUnescape value
  if hasScheme ref then none else some (percentDecode (refPath ref))

def anchorOpen : List Char :=
  "<a href=\"".toList

/-- The `href` values of the page's anchors, in order. -/
def hrefs : List Char → List (List Char)
  | [] => []
  | c :: rest =>
      if anchorOpen.isPrefixOf (c :: rest) then
        ((c :: rest).drop anchorOpen.length).takeWhile (· != '"') :: hrefs rest
      else hrefs rest

/-- The text after the first occurrence of `p`. -/
def afterFirst (p : List Char) : List Char → Option (List Char)
  | [] => none
  | c :: rest => if p.isPrefixOf (c :: rest) then some ((c :: rest).drop p.length)
      else afterFirst p rest

/-- The text before the first occurrence of `p`. -/
def upTo (p : List Char) : List Char → List Char
  | [] => []
  | c :: rest => if p.isPrefixOf (c :: rest) then [] else c :: upTo p rest

/-- The text of the first element named `tag`. -/
def elementText (tag html : List Char) : Option (List Char) :=
  (afterFirst ('<' :: tag ++ ['>']) html).map (upTo ('<' :: '/' :: tag ++ ['>']))

/-- No occurrence of `p` starts inside `x`, whatever follows it. -/
def Clean (p x : List Char) : Prop :=
  ∀ i < x.length, (x.drop i).isPrefixOf p = false ∧ p.isPrefixOf (x.drop i) = false

instance (p x : List Char) : Decidable (Clean p x) :=
  inferInstanceAs (Decidable (∀ i < x.length, _))

-----------------------------------------------------------------------------------------
-- The decoders on text without markup characters
-----------------------------------------------------------------------------------------

theorem htmlUnescape_of_not_mem {s : List Char} (h : '&' ∉ s) : htmlUnescape s = s := by
  induction s with
  | nil => rw [htmlUnescape]
  | cons c rest ih =>
      have hc : c ≠ '&' := fun he => h (he ▸ List.mem_cons_self c rest)
      rw [htmlUnescape, if_neg hc, ih (fun hm => h (List.mem_cons_of_mem c hm))]

theorem percentDecode_of_not_mem {s : List Char} (h : '%' ∉ s) : percentDecode s = s := by
  induction s with
  | nil => rw [percentDecode]
  | cons c rest ih =>
      have hc : c ≠ '%' := fun he => h (he ▸ List.mem_cons_self c rest)
      rw [percentDecode.eq_def]
      simp only [if_neg hc, ih (fun hm => h (List.mem_cons_of_mem c hm))]

theorem refPath_of_not_mem {s : List Char} (hq : '?' ∉ s) (hh : '#' ∉ s) : refPath s = s :=
  List.takeWhile_eq_self_iff.mpr fun c hc => by
    have h1 : c ≠ '?' := fun he => hq (he ▸ hc)
    have h2 : c ≠ '#' := fun he => hh (he ▸ hc)
    simp [h1, h2]

/-- A value without a scheme and with none of `&`, `?`, `#` and `%` decodes to itself. -/
theorem decodeHref_of_not_mem {s : List Char} (hs : hasScheme s = false) (ha : '&' ∉ s)
    (hq : '?' ∉ s) (hh : '#' ∉ s) (hp : '%' ∉ s) : decodeHref s = some s := by
  rw [decodeHref, htmlUnescape_of_not_mem ha]
  simp only [hs, Bool.false_eq_true, if_false, refPath_of_not_mem hq hh,
    percentDecode_of_not_mem hp]

/-- A `/` after a value finds no scheme the value lacks: the scheme state stops at it. -/
theorem hasScheme_append_slash (s : List Char) : hasScheme (s ++ ['/']) = hasScheme s := by
  cases s with
  | nil => rfl
  | cons c rest =>
      simp only [List.cons_append, hasScheme, List.dropWhile_append]
      split
      · next h =>
        have hslash : (['/'] : List Char).dropWhile schemeChar = ['/'] := by decide
        simp [List.isEmpty_iff.mp h, hslash]
      · next h =>
        obtain ⟨d, ds, hd⟩ := List.exists_cons_of_ne_nil fun he => h (List.isEmpty_iff.mpr he)
        simp [hd]

-----------------------------------------------------------------------------------------
-- Scanning past text in which no pattern starts
-----------------------------------------------------------------------------------------

/-- Two lists that clash before either ends: neither pattern can match after the other. -/
theorem isPrefixOf_append_of_clash {p x : List Char} (h1 : x.isPrefixOf p = false)
    (h2 : p.isPrefixOf x = false) (rest : List Char) : p.isPrefixOf (x ++ rest) = false := by
  induction p generalizing x with
  | nil => simp at h2
  | cons a p ih =>
      cases x with
      | nil => simp at h1
      | cons b x =>
          simp only [List.cons_append, List.isPrefixOf_cons₂, Bool.and_eq_false_iff] at h1 h2 ⊢
          by_cases hab : (a == b) = true
          · obtain rfl : a = b := beq_iff_eq.mp hab
            exact Or.inr (ih (h1.resolve_left (by simp)) (h2.resolve_left (by simp)))
          · exact Or.inl (Bool.eq_false_iff.mpr hab)

theorem Clean.tail {p : List Char} {c : Char} {x : List Char} (h : Clean p (c :: x)) : Clean p x :=
  fun i hi => h (i + 1) (by simp; omega)

theorem Clean.head {p : List Char} {c : Char} {x : List Char} (h : Clean p (c :: x))
    (rest : List Char) : p.isPrefixOf (c :: (x ++ rest)) = false :=
  isPrefixOf_append_of_clash (h 0 (by simp)).1 (h 0 (by simp)).2 rest

/-- Text without the pattern's first character is clean. -/
theorem clean_of_not_mem {a : Char} {p x : List Char} (hp : p.head? = some a) (hx : a ∉ x)
    : Clean p x := by
  obtain ⟨q, rfl⟩ : ∃ q, p = a :: q := by
    cases p with
    | nil => cases hp
    | cons b q => cases hp; exact ⟨q, rfl⟩
  intro i hi
  obtain ⟨d, ds, hd⟩ := List.exists_cons_of_ne_nil (List.ne_nil_of_length_pos
    (by simp; omega : 0 < (x.drop i).length))
  have hdx : d ∈ x := List.mem_of_mem_drop (hd ▸ List.mem_cons_self d ds : d ∈ x.drop i)
  have hne : d ≠ a := fun he => hx (he ▸ hdx)
  simp [hd, List.isPrefixOf_cons₂, hne, hne.symm]

theorem hrefs_clean {x : List Char} (hx : Clean anchorOpen x) (rest : List Char)
    : hrefs (x ++ rest) = hrefs rest := by
  induction x with
  | nil => rfl
  | cons c x ih =>
      rw [List.cons_append, hrefs, if_neg (Bool.eq_false_iff.mp (hx.head rest)), ih hx.tail]

theorem afterFirst_clean {p x : List Char} (hx : Clean p x) (rest : List Char)
    : afterFirst p (x ++ rest) = afterFirst p rest := by
  induction x with
  | nil => rfl
  | cons c x ih =>
      rw [List.cons_append, afterFirst, if_neg (Bool.eq_false_iff.mp (hx.head rest)), ih hx.tail]

theorem upTo_clean {p x : List Char} (hx : Clean p x) (rest : List Char)
    : upTo p (x ++ rest) = x ++ upTo p rest := by
  induction x with
  | nil => rfl
  | cons c x ih =>
      rw [List.cons_append, upTo, if_neg (Bool.eq_false_iff.mp (hx.head rest)), ih hx.tail]; rfl

theorem afterFirst_self {p : List Char} (hp : p ≠ []) (rest : List Char)
    : afterFirst p (p ++ rest) = some rest := by
  obtain ⟨c, cs, rfl⟩ := List.exists_cons_of_ne_nil hp
  have hpre : (c :: cs).isPrefixOf (c :: (cs ++ rest)) = true :=
    List.isPrefixOf_iff_prefix.mpr (List.prefix_append (c :: cs) rest)
  rw [List.cons_append, afterFirst, if_pos hpre, ← List.cons_append, List.drop_left]

theorem upTo_self {p : List Char} (hp : p ≠ []) (rest : List Char) : upTo p (p ++ rest) = [] := by
  obtain ⟨c, cs, rfl⟩ := List.exists_cons_of_ne_nil hp
  have hpre : (c :: cs).isPrefixOf (c :: (cs ++ rest)) = true :=
    List.isPrefixOf_iff_prefix.mpr (List.prefix_append (c :: cs) rest)
  rw [List.cons_append, upTo, if_pos hpre]

/-- An anchor yields its value, read up to the closing quote. -/
theorem hrefs_anchor {v : List Char} (hv : '"' ∉ v) (rest : List Char)
    : hrefs (anchorOpen ++ (v ++ '"' :: rest))
      = v :: hrefs ("a href=\"".toList ++ (v ++ '"' :: rest)) := by
  have htake : (v ++ '"' :: rest).takeWhile (· != '"') = v := by
    rw [List.takeWhile_append_of_pos
      (fun c hc => by simpa using fun he : c = '"' => hv (he ▸ hc))]
    simp
  have e : anchorOpen ++ (v ++ '"' :: rest) = '<' :: ("a href=\"".toList ++ (v ++ '"' :: rest)) :=
    rfl
  have hpre : anchorOpen.isPrefixOf (anchorOpen ++ (v ++ '"' :: rest)) = true :=
    List.isPrefixOf_iff_prefix.mpr (List.prefix_append _ _)
  rw [e] at hpre
  rw [e, hrefs, if_pos hpre, ← e, List.drop_left, htake]

theorem isPrefixOf_append_left {l m p : List Char} (h : l.isPrefixOf p = false)
    : (l ++ m).isPrefixOf p = false := by
  rw [Bool.eq_false_iff] at h ⊢
  intro hlm
  exact h (List.isPrefixOf_iff_prefix.mpr
    ((List.prefix_append l m).trans (List.isPrefixOf_iff_prefix.mp hlm)))

theorem Clean.append {p x y : List Char} (hx : Clean p x) (hy : Clean p y) : Clean p (x ++ y) := by
  intro i hi
  rw [List.drop_append_eq_append_drop]
  by_cases hix : i < x.length
  · obtain ⟨h1, h2⟩ := hx i hix
    have hxy : (x.drop i ++ y.drop (i - x.length)) = x.drop i ++ y := by
      rw [show i - x.length = 0 by omega, List.drop_zero]
    rw [hxy]
    exact ⟨isPrefixOf_append_left h1, isPrefixOf_append_of_clash h1 h2 y⟩
  · rw [List.drop_eq_nil_of_le (by omega), List.nil_append]
    exact hy _ (by simp at hi; omega)

theorem clean_anchorOpen {x : List Char} (hx : '<' ∉ x) : Clean anchorOpen x :=
  clean_of_not_mem rfl hx

theorem hrefs_cons_of_ne {c : Char} (hc : c ≠ '<') (rest : List Char)
    : hrefs (c :: rest) = hrefs rest :=
  hrefs_clean (x := [c]) (clean_anchorOpen (by simpa using hc.symm)) rest

-----------------------------------------------------------------------------------------
-- The anchors of a page
-----------------------------------------------------------------------------------------

/-- A line of `body_fmt` yields exactly its link. -/
theorem hrefs_bodyFmt {href shown space time size : List Char} (hh : '<' ∉ href)
    (hq : '"' ∉ href) (hs : '<' ∉ shown) (hsp : '<' ∉ space) (ht : '<' ∉ time) (hz : '<' ∉ size)
    (rest : List Char)
    : hrefs (bodyFmt href shown space time size ++ rest) = href :: hrefs rest := by
  have e : bodyFmt href shown space time size ++ rest
      = anchorOpen ++ (href ++ '"' :: '>' :: (shown ++ ("</a>".toList ++ (space ++ ' ' :: (time
        ++ ("       ".toList ++ (size ++ ("\r\n".toList ++ rest)))))))) := by
    simp only [bodyFmt, List.append_assoc]; rfl
  rw [e, hrefs_anchor hq, hrefs_clean (by decide), hrefs_clean (clean_anchorOpen hh),
    hrefs_cons_of_ne (by decide), hrefs_cons_of_ne (by decide), hrefs_clean (clean_anchorOpen hs),
    hrefs_clean (by decide), hrefs_clean (clean_anchorOpen hsp), hrefs_cons_of_ne (by decide),
    hrefs_clean (clean_anchorOpen ht), hrefs_clean (by decide), hrefs_clean (clean_anchorOpen hz),
    hrefs_clean (by decide)]

theorem not_mem_showPath {c : Char} {rpath : List Char} (h : c ∉ rpath)
    (hs : c ∉ "..&gt;".toList) : c ∉ showPath rpath := by
  unfold showPath
  split
  · exact List.not_mem_append (fun hm => h (List.mem_of_mem_take hm)) hs
  · exact h

theorem not_mem_padding {c : Char} (hc : c ≠ ' ') (rpath : List Char) : c ∉ padding rpath :=
  fun hm => hc (List.eq_of_mem_replicate hm)

/-- The link of an entry: its name, and `/` after a directory's. -/
def entryHref (e : DirEntry) : List Char :=
  if e.isDirectory then e.name ++ ['/'] else e.name

/-- The characters a name may not carry to be linked plainly: markup characters of HTML and
the characters a URL would read as an escape, a query or a fragment.
-/
def unsafeNameChars : List Char :=
  "\"<&%?#".toList

/-- An entry the listing can show without escaping: a name free of `unsafeNameChars` that a URL
parser does not read as starting with a scheme, and no `<` in its other columns.
-/
structure PlainEntry (addSuffix : Nat → List Char) (e : DirEntry) : Prop where
  name_plain : ∀ c ∈ unsafeNameChars, c ∉ e.name
  name_relative : hasScheme e.name = false
  time_lt : '<' ∉ e.timeString
  size_lt : '<' ∉ addSuffix e.size

instance (addSuffix : Nat → List Char) (e : DirEntry) : Decidable (PlainEntry addSuffix e) :=
  decidable_of_iff ((∀ c ∈ unsafeNameChars, c ∉ e.name) ∧ hasScheme e.name = false
      ∧ '<' ∉ e.timeString ∧ '<' ∉ addSuffix e.size)
    ⟨fun ⟨a, b, c, d⟩ => ⟨a, b, c, d⟩, fun ⟨a, b, c, d⟩ => ⟨a, b, c, d⟩⟩


theorem hrefs_formatEntry {addSuffix : Nat → List Char} {e : DirEntry}
    (he : PlainEntry addSuffix e) (rest : List Char) : hrefs (formatEntry addSuffix e ++ rest) = entryHref e :: hrefs rest := by
  have hnlt : '<' ∉ e.name := he.name_plain '<' (by decide)
  have hnq : '"' ∉ e.name := he.name_plain '"' (by decide)
  have hlt : '<' ∉ e.name ++ ['/'] := by simp [hnlt]
  have hq : '"' ∉ e.name ++ ['/'] := by simp [hnq]
  unfold formatEntry entryHref
  split
  · exact hrefs_bodyFmt hlt hq (not_mem_showPath hlt (by decide)) (not_mem_padding (by decide) _)
      he.time_lt (by decide) rest
  · exact hrefs_bodyFmt hnlt hnq (not_mem_showPath hnlt (by decide))
      (not_mem_padding (by decide) _) he.time_lt he.size_lt rest

/-- The lines of a list of entries yield their links in order, by induction on the entries. -/
theorem hrefs_lines {addSuffix : Nat → List Char} {es : List DirEntry}
    (hes : ∀ e ∈ es, PlainEntry addSuffix e) (rest : List Char)
    : hrefs ((es.map (formatEntry addSuffix)).flatten ++ rest)
      = es.map entryHref ++ hrefs rest := by
  induction es with
  | nil => rfl
  | cons e es ih =>
      rw [List.map_cons, List.flatten_cons, List.append_assoc,
        hrefs_formatEntry (hes e (List.mem_cons_self e es)),
        ih (fun e' he' => hes e' (List.mem_cons_of_mem e he'))]
      rfl

theorem clean_headFmt {p tp : List Char} (h1 : Clean p
      "<html><head><meta charset=\"UTF-8\"><title>Index of ".toList)
    (h2 : Clean p "</title></head><body bgcolor=\"white\"><h1>Index of ".toList)
    (h3 : Clean p "</h1><hr><pre>".toList) (htp : Clean p tp) : Clean p (headFmt tp) :=
  ((((h1.append htp).append h2).append htp).append h3)

/-- The anchors of a listing: `../`, then the directories' links, then the files'. -/
theorem hrefs_formatDirToHtml (uriPath : List Char → Option (List Char))
    (addSuffix : Nat → List Char) (target : List Char) {entries : List DirEntry}
    (hes : ∀ e ∈ entries, PlainEntry addSuffix e) (htp : '<' ∉ makeTargetPath uriPath target)
    : hrefs (formatDirToHtml uriPath addSuffix target (some entries))
      = "../".toList :: ((entries.filter (·.isDirectory)).map entryHref
        ++ (entries.filter (!·.isDirectory)).map entryHref) := by
  have hfilter : ∀ q : DirEntry → Bool, ∀ e ∈ entries.filter q, PlainEntry addSuffix e :=
    fun _ e he => hes e (List.mem_of_mem_filter he)
  rw [formatDirToHtml_some, List.flatten_append, List.append_assoc, List.append_assoc,
    List.append_assoc, hrefs_clean (clean_headFmt (by decide) (by decide) (by decide)
      (clean_anchorOpen htp)),
    hrefs_bodyFmt (by decide) (by decide) (by decide) (by decide) (by decide) (by decide),
    hrefs_lines (hfilter _), hrefs_lines (hfilter _), show hrefs tailFmt = [] by decide,
    List.append_nil]

/-- The `title` text of a page: `Index of ` and the target path. -/
theorem elementText_title_headFmt {tp : List Char} (htp : '<' ∉ tp) (rest : List Char)
    : elementText "title".toList (headFmt tp ++ rest) = some ("Index of ".toList ++ tp) := by
  have e : headFmt tp ++ rest = "<html><head><meta charset=\"UTF-8\">".toList
      ++ (('<' :: "title".toList ++ ['>']) ++ ("Index of ".toList ++ (tp
        ++ (('<' :: '/' :: "title".toList ++ ['>'])
          ++ ("</head><body bgcolor=\"white\"><h1>Index of ".toList ++ (tp
            ++ ("</h1><hr><pre>".toList ++ rest))))))) := by
    simp only [headFmt, List.append_assoc]; rfl
  rw [elementText, e, afterFirst_clean (by decide), afterFirst_self (by simp), Option.map_some',
    upTo_clean (by decide),
    upTo_clean (clean_of_not_mem (p := '<' :: '/' :: "title".toList ++ ['>']) rfl htp),
    upTo_self (by simp),
    List.append_nil]

/-- The `h1` text of a page: `Index of ` and the target path. -/
theorem elementText_h1_headFmt {tp : List Char} (htp : '<' ∉ tp) (rest : List Char)
    : elementText "h1".toList (headFmt tp ++ rest) = some ("Index of ".toList ++ tp) := by
  have e : headFmt tp ++ rest = "<html><head><meta charset=\"UTF-8\"><title>Index of ".toList
      ++ (tp ++ ("</title></head><body bgcolor=\"white\">".toList
        ++ (('<' :: "h1".toList ++ ['>']) ++ ("Index of ".toList ++ (tp
          ++ (('<' :: '/' :: "h1".toList ++ ['>']) ++ ("<hr><pre>".toList ++ rest))))))) := by
    simp only [headFmt, List.append_assoc]; rfl
  rw [elementText, e, afterFirst_clean (by decide),
    afterFirst_clean (clean_of_not_mem (p := '<' :: "h1".toList ++ ['>']) rfl htp),
    afterFirst_clean (by decide), afterFirst_self (by simp), Option.map_some',
    upTo_clean (by decide),
    upTo_clean (clean_of_not_mem (p := '<' :: '/' :: "h1".toList ++ ['>']) rfl htp),
    upTo_self (by simp),
    List.append_nil]

theorem decodeHref_entryHref {addSuffix : Nat → List Char} {e : DirEntry}
    (he : PlainEntry addSuffix e) : decodeHref (entryHref e) = some (entryHref e) := by
  have hn : ∀ c ∈ unsafeNameChars, c ∉ entryHref e := by
    intro c hc
    unfold entryHref
    split
    · refine List.not_mem_append (he.name_plain c hc) fun hm => ?_
      rw [List.mem_singleton.mp hm] at hc
      exact absurd hc (by decide)
    · exact he.name_plain c hc
  have hs : hasScheme (entryHref e) = false := by
    unfold entryHref
    split
    · rw [hasScheme_append_slash, he.name_relative]
    · exact he.name_relative
  exact decodeHref_of_not_mem hs (hn '&' (by decide)) (hn '?' (by decide)) (hn '#' (by decide))
    (hn '%' (by decide))

/-- Boost.URL's `path()` on a URL whose path has no escapes: the text after the host. -/
def plainUriPath (url : List Char) : Option (List Char) :=
  some (url.drop "http://example.com".length)

/-- A directory `docs` and a file `a.txt`. -/
def sampleEntries : List DirEntry :=
  [⟨"docs".toList, true, "01-02-2024 10:00".toList, 0⟩,
    ⟨"a.txt".toList, false, "01-02-2024 10:05".toList, 5⟩]

end Httplib.Html
