import Httplib.Util.Utf8
import Mathlib.Data.Nat.Digits

/-! `html::fromat_error_content`, the HTML body of an error response: the status and reason in
the title and the heading, the server name under a rule. `fmt::format` writes the `int` status in
decimal, so the page is valid UTF-8 exactly when the reason and the server name are.
-/

namespace Httplib.Html

open Httplib.Util

/-- `fmt::format("{}", status)` of an `int`: decimal digits, after a minus sign when negative. -/
def formatInt (status : Int) : List Char :=
  (toString status).toList

/-- `html::fromat_error_content`, its raw string with the arguments in place. -/
def fromatErrorContent (status : Int) (reason server : List Char) : List Char :=
  "<html>\n<head><title>".toList ++ formatInt status ++ ' ' :: reason
    ++ "</title></head>\n<body bgcolor=\"white\">\n<center><h1>".toList
    ++ formatInt status ++ ' ' :: reason ++ "</h1></center>\n<hr><center>".toList ++ server
    ++ "</center>\n</body>\n</html>".toList

theorem digitChar_ascii {k : Nat} (hk : k < 10) : (Nat.digitChar k).toNat < 0x80 := by
  have h : ∀ k < 10, (Nat.digitChar k).toNat < 0x80 := by decide
  exact h k hk

/-- Decimal digits are ASCII, by induction on the fuel of `Nat.toDigitsCore`. -/
theorem ascii_toDigitsCore (fuel n : Nat) {ds : List Char} (hds : Ascii ds)
    : Ascii (Nat.toDigitsCore 10 fuel n ds) := by
  induction fuel generalizing n ds with
  | zero => exact hds
  | succ fuel ih =>
      have hd : Ascii (Nat.digitChar (n % 10) :: ds) := fun c hc =>
        (List.mem_cons.mp hc).elim (· ▸ digitChar_ascii (Nat.mod_lt _ (by decide))) (hds c)
      simp only [Nat.toDigitsCore]
      split
      · exact hd
      · exact ih _ hd

theorem ascii_formatInt (status : Int) : Ascii (formatInt status) := by
  have hnat : ∀ m : Nat, Ascii (toString m).toList := fun m =>
    ascii_toDigitsCore (m + 1) m (List.forall_mem_nil _)
  cases status with
  | ofNat m => exact hnat m
  | negSucc m =>
      show Ascii ("-" ++ toString (m + 1)).toList
      intro c hc
      simp only [String.toList, String.data_append, List.mem_append] at hc
      rcases hc with hc | hc
      · rw [List.mem_singleton.mp hc]; decide
      · exact hnat _ c hc

/-- The error page is valid UTF-8 exactly when the reason and the server name are, whatever the
status.
-/
theorem fromatErrorContent_validUtf8 (status : Int) (reason server : List Char)
    : ValidUtf8 (fromatErrorContent status reason server) ↔ ValidUtf8 reason ∧ ValidUtf8 server := by
  have hs := ascii_formatInt status
  have hsp : ∀ r, ValidUtf8 (' ' :: r) ↔ ValidUtf8 r := validUtf8_ascii_append (l := [' ']) (by decide)
  simp only [fromatErrorContent, List.append_assoc, List.cons_append]
  simp (disch := first | decide | exact hs) only [validUtf8_ascii_append, validUtf8_append_lit,
    validUtf8_append_ascii, hsp, and_self_left]

end Httplib.Html
