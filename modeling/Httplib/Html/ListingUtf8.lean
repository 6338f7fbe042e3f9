import Httplib.Html.Listing
import Httplib.Util.Utf8

/-! The listing page as UTF-8. A name holds the bytes `util::wstring_to_string` gives, one `Char`
a byte, and `format_path_list` cuts a name of more than 50 bytes to its first 47, where a
character can be cut in two.
-/

namespace Httplib.Html

open Httplib.Util

/-- `rpath` of the loop body: the name, with `/` after a directory's. -/
def DirEntry.rpath (e : DirEntry) : List Char :=
  if e.isDirectory then e.name ++ ['/'] else e.name

/-- The size column: `-` for a directory, `util::add_suffix` of the size for a file. -/
def DirEntry.sizeText (addSuffix : Nat → List Char) (e : DirEntry) : List Char :=
  if e.isDirectory then ['-'] else addSuffix e.size

/-- Both branches of the loop body format the same five columns. -/
theorem formatEntry_eq (addSuffix : Nat → List Char) (e : DirEntry)
    : formatEntry addSuffix e
      = bodyFmt e.rpath (showPath e.rpath) (padding e.rpath) e.timeString
          (e.sizeText addSuffix) := by
  unfold formatEntry DirEntry.rpath DirEntry.sizeText
  split <;> rfl

-----------------------------------------------------------------------------------------
-- The pieces of the page
-----------------------------------------------------------------------------------------

/-- Every column of a line is followed by an ASCII literal, so the line is valid exactly when
each column is.
-/
theorem validUtf8_bodyFmt (href shown space time size r : List Char)
    : ValidUtf8 (bodyFmt href shown space time size ++ r)
      ↔ ValidUtf8 href ∧ ValidUtf8 shown ∧ ValidUtf8 space ∧ ValidUtf8 time ∧ ValidUtf8 size
        ∧ ValidUtf8 r := by
  simp only [bodyFmt, List.append_assoc, List.cons_append]
  simp (disch := decide) only [validUtf8_ascii_append, validUtf8_append_lit,
    validUtf8_append_cons]

theorem validUtf8_headFmt (tp r : List Char)
    : ValidUtf8 (headFmt tp ++ r) ↔ ValidUtf8 tp ∧ ValidUtf8 r := by
  simp only [headFmt, List.append_assoc]
  simp (disch := decide) only [validUtf8_ascii_append, validUtf8_append_lit, and_self_left]

theorem validUtf8_padding (rpath : List Char) : ValidUtf8 (padding rpath) :=
  validUtf8_of_ascii fun c hc => by simp [padding, List.eq_of_mem_replicate hc]

/-- A shown name is valid exactly when its cut is. -/
theorem validUtf8_showPath {rpath : List Char} (h : ValidUtf8 rpath)
    : ValidUtf8 (showPath rpath) ↔ (50 < rpath.length → ValidUtf8 (rpath.take 47)) := by
  unfold showPath
  split
  · simp (disch := decide) only [validUtf8_append_ascii, forall_const, *]
  · simp only [*, false_implies]

-----------------------------------------------------------------------------------------
-- Lines and page
-----------------------------------------------------------------------------------------

/-- What one entry's line needs to be valid once its name is: valid time and size texts, and a
cut of a long name that ends between two characters.
-/
def LineValid (addSuffix : Nat → List Char) (e : DirEntry) : Prop :=
  ValidUtf8 e.timeString ∧ (e.isDirectory = false → ValidUtf8 (addSuffix e.size))
    ∧ (50 < e.rpath.length → ValidUtf8 (e.rpath.take 47))

theorem validUtf8_rpath {e : DirEntry} (h : ValidUtf8 e.name) : ValidUtf8 e.rpath := by
  unfold DirEntry.rpath
  split
  · exact h.append (validUtf8_of_ascii (by decide))
  · exact h

theorem validUtf8_formatEntry (addSuffix : Nat → List Char) {e : DirEntry}
    (hname : ValidUtf8 e.name) (r : List Char)
    : ValidUtf8 (formatEntry addSuffix e ++ r) ↔ LineValid addSuffix e ∧ ValidUtf8 r := by
  have hrpath := validUtf8_rpath hname
  rw [formatEntry_eq, validUtf8_bodyFmt, validUtf8_showPath hrpath, LineValid, DirEntry.sizeText]
  cases e.isDirectory <;>
    simp [hrpath, validUtf8_padding, validUtf8_of_ascii (l := ['-']) (by decide), and_assoc,
      and_left_comm]

/-- The lines of a list of entries are valid exactly when each entry's line is. -/
theorem validUtf8_lines (addSuffix : Nat → List Char) {es : List DirEntry}
    (hnames : ∀ e ∈ es, ValidUtf8 e.name) (r : List Char)
    : ValidUtf8 ((es.map (formatEntry addSuffix)).flatten ++ r)
      ↔ (∀ e ∈ es, LineValid addSuffix e) ∧ ValidUtf8 r := by
  induction es with
  | nil => simp
  | cons e es ih =>
    rw [List.map_cons, List.flatten_cons, List.append_assoc,
      validUtf8_formatEntry addSuffix (hnames e (List.mem_cons_self _ _)),
      ih fun e' he' => hnames e' (List.mem_cons_of_mem _ he'), List.forall_mem_cons, and_assoc]

theorem forall_filter_isDirectory {P : DirEntry → Prop} (l : List DirEntry)
    : ((∀ e ∈ l.filter (·.isDirectory), P e) ∧ ∀ e ∈ l.filter (!·.isDirectory), P e)
      ↔ ∀ e ∈ l, P e := by
  simp only [List.mem_filter, Bool.not_eq_true']
  refine ⟨fun ⟨hd, hf⟩ e he => ?_, fun h => ⟨fun e he => h e he.1, fun e he => h e he.1⟩⟩
  cases hde : e.isDirectory
  · exact hf e ⟨he, hde⟩
  · exact hd e ⟨he, hde⟩

/-- **The page is valid UTF-8 exactly when the target path, every time and size text, and every
cut of a long name are.** With valid names, a name of more than 50 bytes whose first 47 end
inside a character makes the page invalid.
-/
theorem formatDirToHtml_validUtf8 (uriPath : List Char → Option (List Char))
    (addSuffix : Nat → List Char) (target : List Char) (entries : List DirEntry)
    (hnames : ∀ e ∈ entries, ValidUtf8 e.name)
    : ValidUtf8 (formatDirToHtml uriPath addSuffix target (some entries))
      ↔ ValidUtf8 (makeTargetPath uriPath target)
        ∧ ∀ e ∈ entries, ValidUtf8 e.timeString
          ∧ (e.isDirectory = false → ValidUtf8 (addSuffix e.size))
          ∧ (50 < e.rpath.length → ValidUtf8 (e.rpath.take 47)) := by
  have hsub : ∀ p : DirEntry → Bool, ∀ e ∈ entries.filter p, ValidUtf8 e.name :=
    fun p e he => hnames e (List.mem_of_mem_filter he)
  rw [formatDirToHtml_some, List.append_assoc, List.append_assoc, validUtf8_headFmt,
    validUtf8_bodyFmt, List.flatten_append, List.append_assoc, validUtf8_lines _ (hsub _),
    validUtf8_lines _ (hsub _), validUtf8_of_ascii (l := tailFmt) (by decide) |> iff_true_intro,
    and_true, ← and_assoc, forall_filter_isDirectory]
  simp [validUtf8_nil, validUtf8_of_ascii (l := ['.', '.', '/']) (by decide), LineValid]

/-- A file named with 17 times U+4E00, 51 bytes: its first 47 end two bytes into the 16th
character.
-/
def cjkFile : DirEntry :=
  ⟨(utf8Encode (List.replicate 17 (Char.ofNat 0x4E00))).map Char.ofNat, false,
    "01-02-2024 10:00".toList, 51⟩

theorem formatDirToHtml_cjk_name
    : (∀ e ∈ [cjkFile], ValidUtf8 e.name)
      ∧ ¬ValidUtf8 (formatDirToHtml (fun _ => none) (fun _ => "51 B".toList) "/".toList
          (some [cjkFile])) := by
  have hnames : ∀ e ∈ [cjkFile], ValidUtf8 e.name := by decide
  refine ⟨hnames, fun h => ?_⟩
  have hcut := (((formatDirToHtml_validUtf8 _ _ _ _ hnames).1 h).2 cjkFile
    (List.mem_singleton_self _)).2.2 (by decide)
  have hrpath : ValidUtf8 cjkFile.rpath := hnames cjkFile (List.mem_singleton_self _)
  -- the byte after the cut is the last byte of the 16th character, a continuation byte
  have hbyte : Char.ofNat 0x80 ∈ cjkFile.rpath[47]? := by decide
  exact (validUtf8_take_iff hrpath 47).1 hcut _ hbyte ⟨by decide, by decide⟩

end Httplib.Html
