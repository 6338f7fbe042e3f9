import Mathlib.Data.List.DropRight
import Mathlib.Data.List.Basic

/-! The string helpers the server code leans on: `util::split`, `boost::trim_copy` and
Beast's case-insensitive `iequals`. A `Char` stands for one byte of a `std::string_view`.
-/

namespace Httplib.Util

/-- `std::isspace` in the "C" locale, the class `boost::trim_copy` strips by default. -/
def isSpace (c : Char) : Bool :=
  c = ' ' || c = '\t' || c = '\n' || c = '\x0B' || c = '\x0C' || c = '\r'

/-- `boost::trim_copy`: the string without its leading and trailing white space. -/
def trim (s : List Char) : List Char :=
  (s.dropWhile isSpace).rdropWhile isSpace

/-- Modelled from the spec: `util::split` is not under src/. Every call under src/ passes a
one-character delimiter; the pieces between delimiters are returned, empty ones included,
so `split "" ','` is `[""]` and the result is never empty.
-/
def split (s : List Char) (delimiter : Char) : List (List Char) :=
  s.splitOn delimiter

/-- `beast::iequals`: equality up to ASCII case. -/
def iequals (a b : List Char) : Bool :=
  a.map Char.toLower = b.map Char.toLower

theorem isSpace_digit {c : Char} (h : c.isDigit) : isSpace c = false := by
  by_contra hs
  simp only [isSpace, Bool.not_eq_false, Bool.or_eq_true, decide_eq_true_eq] at hs
  rcases hs with (((((rfl | rfl) | rfl) | rfl) | rfl) | rfl) <;> exact absurd h (by decide)

theorem dropWhile_of_not {p : Char → Bool} {l : List Char} (h : ∀ c ∈ l, p c = false)
    : l.dropWhile p = l := by
  cases l with
  | nil => rfl
  | cons c cs => simp [List.dropWhile_cons, h c (List.mem_cons_self c cs)]

theorem rdropWhile_of_not {p : Char → Bool} {l : List Char} (h : ∀ c ∈ l, p c = false)
    : l.rdropWhile p = l := by
  rw [List.rdropWhile, dropWhile_of_not (fun c hc => h c (List.mem_reverse.mp hc)),
    List.reverse_reverse]

theorem rdropWhile_append_of_pos {p : Char → Bool} {l₁ l₂ : List Char} (h : ∀ c ∈ l₂, p c)
    : (l₁ ++ l₂).rdropWhile p = l₁.rdropWhile p := by
  simp only [List.rdropWhile, List.reverse_append,
    List.dropWhile_append_of_pos (fun c hc => h c (List.mem_reverse.mp hc))]

/-- White space around a word without white space is exactly what `trim` removes. -/
theorem trim_pad {pre word post : List Char} (hpre : ∀ c ∈ pre, isSpace c)
    (hword : ∀ c ∈ word, isSpace c = false) (hpost : ∀ c ∈ post, isSpace c)
    : trim (pre ++ word ++ post) = word := by
  have hdrop : (pre ++ word ++ post).dropWhile isSpace = (word ++ post).dropWhile isSpace := by
    rw [List.append_assoc, List.dropWhile_append_of_pos hpre]
  cases word with
  | nil =>
      rw [trim, hdrop, List.nil_append, List.dropWhile_eq_nil_iff.mpr hpost]
      rfl
  | cons c cs =>
      have hc : isSpace c = false := hword c (List.mem_cons_self c cs)
      rw [trim, hdrop, List.cons_append, List.dropWhile_cons, hc, if_neg Bool.false_ne_true,
        ← List.cons_append, rdropWhile_append_of_pos hpost, rdropWhile_of_not hword]

theorem mem_of_mem_trim {s : List Char} {c : Char} (h : c ∈ trim s) : c ∈ s :=
  ((List.rdropWhile_prefix _ _).isInfix.trans (List.dropWhile_suffix _).isInfix).subset h

/-- No piece of a split holds the delimiter, by induction on the string. -/
theorem not_mem_of_mem_split {s x : List Char} {d : Char} (hx : x ∈ split s d) : d ∉ x := by
  induction s generalizing x with
  | nil => simp_all [split]
  | cons c cs ih =>
      obtain ⟨y, ys, hys⟩ := List.exists_cons_of_ne_nil (List.splitOnP_ne_nil (· == d) cs)
      simp only [split, List.splitOn, List.splitOnP_cons] at hx ih
      by_cases hcd : (c == d) = true
      · rw [if_pos hcd] at hx
        rcases List.mem_cons.mp hx with rfl | hx
        · exact List.not_mem_nil d
        · exact ih hx
      · rw [if_neg hcd, hys, List.modifyHead_cons] at hx
        rw [hys] at ih
        rcases List.mem_cons.mp hx with rfl | hx
        · rintro (_ | ⟨_, hy⟩)
          · exact hcd (beq_self_eq_true _)
          · exact ih (List.mem_cons_self y ys) hy
        · exact ih (List.mem_cons_of_mem y hx)

end Httplib.Util
