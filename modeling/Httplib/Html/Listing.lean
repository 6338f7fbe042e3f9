import Httplib.Util.String

/-! `html::format_dir_to_html`, the directory listing page: `format_path_list` turns the
entries into lines, directories first, and `make_target_path` gives the title its path. The
file system and Boost.URL are the entries and the `uriPath` parameter.
-/

namespace Httplib.Html

/-- One `directory_iterator` entry as the loop body sees it: the file name, what
`fs::is_directory` answered (`false` on error), the `file_last_wirte_time` text (empty on
error) and `fs::file_size` (`0` on error).
-/
structure DirEntry where
  name : List Char
  isDirectory : Bool
  timeString : List Char
  size : Nat
  deriving DecidableEq, Repr

/-- `detail::head_fmt` with the target path in both places. -/
def headFmt (targetPath : List Char) : List Char :=
  "<html><head><meta charset=\"UTF-8\"><title>Index of ".toList ++ targetPath
    ++ "</title></head><body bgcolor=\"white\"><h1>Index of ".toList ++ targetPath
    ++ "</h1><hr><pre>".toList

/-- `detail::tail_fmt`. -/
def tailFmt : List Char :=
  "</pre><hr></body></html>".toList

/-- `detail::body_fmt`: one anchor and the columns after it. -/
def bodyFmt (href shown space time size : List Char) : List Char :=
  "<a href=\"".toList ++ href ++ "\">".toList ++ shown ++ "</a>".toList ++ space ++ ' ' :: time
    ++ "       ".toList ++ size ++ "\r\n".toList

/-- The shown name: cut to 47 characters and `..&gt;` past 50. -/
def showPath (rpath : List Char) : List Char :=
  if 50 < rpath.length then rpath.take 47 ++ "..&gt;".toList else rpath

/-- `std::string space(width, ' ')` with `width = max 0 (50 - rpath.size())`. -/
def padding (rpath : List Char) : List Char :=
  List.replicate (50 - rpath.length) ' '

/-- The line of one entry: a directory links to its name and `/` with `-` for a size, a file
to its name with `util::add_suffix` of its size.
-/
def formatEntry (addSuffix : Nat → List Char) (e : DirEntry) : List Char :=
  if e.isDirectory then
    let rpath := e.name ++ ['/']
    bodyFmt rpath (showPath rpath) (padding rpath) e.timeString ['-']
  else
    let rpath := e.name
    bodyFmt rpath (showPath rpath) (padding rpath) e.timeString (addSuffix e.size)

/-- The loop body of `format_path_list` on its two lists. -/
def formatPathListStep (addSuffix : Nat → List Char)
    (acc : List (List Char) × List (List Char)) (e : DirEntry)
    : List (List Char) × List (List Char) :=
  if e.isDirectory then (acc.1 ++ [formatEntry addSuffix e], acc.2)
  else (acc.1, acc.2 ++ [formatEntry addSuffix e])

/-- `detail::format_path_list` once the iterator opened: `path_list` then `file_list`. -/
def formatPathList (addSuffix : Nat → List Char) (entries : List DirEntry) : List (List Char) :=
  let lists := entries.foldl (formatPathListStep addSuffix) ([], [])
  lists.1 ++ lists.2

/-- `detail::make_target_path`: the path Boost.URL parses out of `http://example.com` and the
target, or the target itself when `parse_uri` fails.
-/
def makeTargetPath (uriPath : List Char → Option (List Char)) (target : List Char) : List Char :=
  let url := "http://example.com".toList
    ++ (if "/".toList.isPrefixOf target then target else '/' :: target)
  match uriPath url with
  | some path => path
  | none => target

/-- `html::format_dir_to_html`; `none` entries is a `directory_iterator` that failed to open,
for which the page is empty.
-/
def formatDirToHtml (uriPath : List Char → Option (List Char)) (addSuffix : Nat → List Char)
    (target : List Char) (entries : Option (List DirEntry)) : List Char :=
  match entries with
  | none => []
  | some entries =>
      let targetPath := makeTargetPath uriPath target
      let head := headFmt targetPath
      let body := (formatPathList addSuffix entries).foldl (· ++ ·) (bodyFmt "../".toList
        "../".toList [] [] [])
      head ++ body ++ tailFmt

-----------------------------------------------------------------------------------------
-- Directories first, iteration order kept
-----------------------------------------------------------------------------------------

/-- The two lists after the loop: the directories' lines and the files' lines, each in
iteration order, by induction on the entries.
-/
theorem foldl_formatPathListStep (addSuffix : Nat → List Char) (entries : List DirEntry)
    (acc : List (List Char) × List (List Char))
    : entries.foldl (formatPathListStep addSuffix) acc
      = (acc.1 ++ (entries.filter (·.isDirectory)).map (formatEntry addSuffix),
         acc.2 ++ (entries.filter (!·.isDirectory)).map (formatEntry addSuffix)) := by
  induction entries generalizing acc with
  | nil => simp
  | cons e es ih =>
      rw [List.foldl_cons, ih]
      cases hd : e.isDirectory <;> simp [formatPathListStep, hd]

theorem formatPathList_eq (addSuffix : Nat → List Char) (entries : List DirEntry)
    : formatPathList addSuffix entries
      = (entries.filter (·.isDirectory)).map (formatEntry addSuffix)
        ++ (entries.filter (!·.isDirectory)).map (formatEntry addSuffix) := by
  simp [formatPathList, foldl_formatPathListStep]

theorem foldl_append_eq (init : List Char) (ls : List (List Char))
    : ls.foldl (· ++ ·) init = init ++ ls.flatten := by
  induction ls generalizing init with
  | nil => simp
  | cons l ls ih => simp [ih]

/-- The page around its lines. -/
theorem formatDirToHtml_some (uriPath : List Char → Option (List Char))
    (addSuffix : Nat → List Char) (target : List Char) (entries : List DirEntry)
    : formatDirToHtml uriPath addSuffix target (some entries)
      = headFmt (makeTargetPath uriPath target) ++ bodyFmt "../".toList "../".toList [] [] []
        ++ ((entries.filter (·.isDirectory)).map (formatEntry addSuffix)
          ++ (entries.filter (!·.isDirectory)).map (formatEntry addSuffix)).flatten
        ++ tailFmt := by
  simp only [formatDirToHtml, foldl_append_eq, formatPathList_eq, List.append_assoc]

end Httplib.Html
