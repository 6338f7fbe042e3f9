import Httplib.Util.String

/-! `html::parser_http_ranges`, the reader of a `Range` header. The C++ `int` locals are
`Int` values kept in range by the conversions the code performs: assigning a `size_t`
expression to an `int` wraps to 32 bits, and `http_ranges` holds `int64_t` pairs.
-/

namespace Httplib.Html

open Httplib.Util

/-- An `int` assigned from a wider integer: two's complement, 32 bits. -/
def toInt (x : Int) : Int :=
  x.bmod 4294967296

/-- An `int64_t` initialised from a `size_t`: two's complement, 64 bits. -/
def toInt64 (x : Int) : Int :=
  x.bmod 18446744073709551616

/-- `INT_MAX`. -/
def intMax : Int :=
  2147483647

/-- The value of a run of decimal digits. -/
def digitsValue (ds : List Char) : Nat :=
  ds.foldl (fun n d => 10 * n + (d.toNat - '0'.toNat)) 0

/-- The value of the longest run of digits at the front of `body`, negated when `negative`;
`none` without a digit or outside `int`.
-/
def leadingValue (negative : Bool) (body : List Char) : Option Int :=
  let ds := body.takeWhile Char.isDigit
  if ds.isEmpty then none
  else
    let value : Int := if negative then -(digitsValue ds : Int) else digitsValue ds
    if -intMax - 1 ≤ value ∧ value ≤ intMax then some value else none

/-- `std::from_chars` into an `int`, base 10: an optional minus sign, then the longest run of
digits; `none` when there is no digit (`invalid_argument`) or the value is outside `int`
(`result_out_of_range`). The callers ignore `ptr`, so what follows the digits is not read.
-/
def fromChars (s : List Char) : Option Int :=
  if s.head? = some '-' then leadingValue true s.tail else leadingValue false s

/-- `find("--") != npos`. -/
def hasDoubleDash : List Char → Bool
  | c :: rest => (c == '-' && rest.head? == some '-') || hasDoubleDash rest
  | [] => false

/-- `http_ranges`: `(start, end)` pairs. -/
abbrev HttpRanges := List (Int × Int)

/-- Lines 301-319 of the loop body: refuse a first byte past the file or equal to the end,
clamp the end into the file, and resolve a suffix (`start == -1`).
-/
def checkRange (fileSize : Int) (start end_ : Int) : Option (Int × Int) :=
  if 0 < start ∧ (fileSize ≤ start ∨ start = end_) then none
  else
    let end_ := if 0 < end_ ∧ fileSize ≤ end_ then toInt (fileSize - 1) else end_
    if start = -1 then some (toInt (fileSize - end_), toInt (fileSize - 1))
    else some (start, end_)

/-- The body of the loop over the comma-separated ranges: one pair, or `none` where the code
sets `is_valid = false` and returns.
-/
def parseRange (fileSize : UInt64) (range : List Char) : Option (Int × Int) := do
  let n : Int := fileSize.toNat
  let subRange := split range '-'
  let fistRange := trim (subRange.headD [])
  let start ← if fistRange.isEmpty then pure (-1) else fromChars fistRange
  let end_ ←
    if subRange.length = 1 then pure (toInt (n - 1))
    else
      let secondRange := trim (subRange.getD 1 [])
      if secondRange.isEmpty then pure (toInt (n - 1)) else fromChars secondRange
  checkRange n start end_

/-- `parser_http_ranges(range_str, file_size, is_valid)`: `none` is `is_valid == false` with
`{}` returned.
-/
def parserHttpRanges (rangeStr : List Char) (fileSize : UInt64) : Option HttpRanges :=
  let rangeStr := trim rangeStr
  if rangeStr.isEmpty then some []
  else if !"bytes=".toList.isPrefixOf rangeStr then none
  else
    let rangeStr := rangeStr.drop 6
    if hasDoubleDash rangeStr then none
    else if rangeStr = ['-'] then some [(0, toInt64 ((fileSize.toNat : Int) - 1))]
    else (split rangeStr ',').mapM (parseRange fileSize)

end Httplib.Html
