import Mathlib.Data.List.Forall2
import Mathlib.Data.List.Pairwise
import Mathlib.Algebra.Group.Nat.Basic

/-! UTF-8 for the model's byte strings, where a `Char` stands for one byte: a string is valid
UTF-8 when its bytes are the encoding of some text, as `String.toUTF8` writes it, and the byte
machine of RFC 3629 section 4 decides that.
-/

namespace Httplib.Util

-----------------------------------------------------------------------------------------
-- Lean's encoder, byte by byte
-----------------------------------------------------------------------------------------

/-- The bytes of the scalar value `v` as RFC 3629 section 3 lays out its bits. -/
def encodeNat (v : Nat) : List Nat :=
  if v ≤ 0x7F then [v]
  else if v ≤ 0x7FF then [0xC0 + v / 64 % 32, 0x80 + v % 64]
  else if v ≤ 0xFFFF then [0xE0 + v / 4096 % 16, 0x80 + v / 64 % 64, 0x80 + v % 64]
  else [0xF0 + v / 262144 % 8, 0x80 + v / 4096 % 64, 0x80 + v / 64 % 64, 0x80 + v % 64]

theorem toNat_and_or (x m t : UInt8) (i : Nat) (hm : m.toNat = 2 ^ i - 1)
    (ht : t.toNat % 2 ^ i = 0)
    : (x &&& m ||| t).toNat = t.toNat + x.toNat % 2 ^ i := by
  show (x.toBitVec &&& m.toBitVec ||| t.toBitVec).toNat = _
  rw [BitVec.toNat_or, BitVec.toNat_and]
  change x.toNat &&& m.toNat ||| t.toNat = _
  rw [hm, Nat.and_pow_two_sub_one_eq_mod, Nat.or_comm, ← Nat.div_add_mod t.toNat (2 ^ i), ht,
    Nat.add_zero, ← Nat.mul_add_lt_is_or (Nat.mod_lt _ (Nat.two_pow_pos i))]

theorem toNat_toUInt8 (v : UInt32) : v.toUInt8.toNat = v.toNat % 256 :=
  BitVec.toNat_ofNat _ _

theorem toNat_shiftRight (v k : UInt32) (hk : k.toNat < 32)
    : (v >>> k).toNat = v.toNat / 2 ^ k.toNat := by
  show (v.toBitVec >>> (k.mod 32).toBitVec).toNat = _
  rw [BitVec.ushiftRight_eq', BitVec.toNat_ushiftRight, Nat.shiftRight_eq_div_pow]
  exact congrArg (fun n => v.toNat / 2 ^ n) (Nat.mod_eq_of_lt hk)

/-- `String.utf8EncodeChar`, read as numbers, is the RFC 3629 layout of the character's value. -/
theorem utf8EncodeChar_toNat (c : Char)
    : (String.utf8EncodeChar c).map UInt8.toNat = encodeNat c.toNat := by
  have hv : c.val.toBitVec.toNat = c.toNat := rfl
  have hv' : c.val.toNat = c.toNat := rfl
  have h1 : (UInt32.toBitVec 127).toNat = 127 := rfl
  have h2 : (UInt32.toBitVec 2047).toNat = 2047 := rfl
  have h3 : (UInt32.toBitVec 65535).toNat = 65535 := rfl
  simp only [String.utf8EncodeChar, encodeNat, UInt32.le_def, BitVec.le_def, hv, h1, h2, h3]
  split_ifs <;>
    simp (disch := decide) only [List.map_cons, List.map_nil, toNat_and_or _ 63 128 6 rfl rfl,
      toNat_and_or _ 31 192 5 rfl rfl, toNat_and_or _ 15 224 4 rfl rfl,
      toNat_and_or _ 7 240 3 rfl rfl, toNat_toUInt8, toNat_shiftRight, UInt8.reduceToNat,
      UInt32.reduceToNat, List.cons.injEq, and_true, hv', Nat.reducePow] <;> omega

/-- The UTF-8 bytes of a text, as `String.toUTF8` writes them. -/
def utf8Encode (text : List Char) : List Nat :=
  (text.flatMap String.utf8EncodeChar).map UInt8.toNat

theorem utf8Encode_data (s : String) : utf8Encode s.data = s.toUTF8.data.toList.map UInt8.toNat :=
  rfl

@[simp] theorem utf8Encode_nil : utf8Encode [] = [] := rfl

@[simp] theorem utf8Encode_cons (c : Char) (text : List Char)
    : utf8Encode (c :: text) = encodeNat c.toNat ++ utf8Encode text := by
  simp [utf8Encode, utf8EncodeChar_toNat]

theorem utf8Encode_append (t u : List Char)
    : utf8Encode (t ++ u) = utf8Encode t ++ utf8Encode u := by
  simp [utf8Encode]

/-- A byte string is valid UTF-8 when its bytes encode some text. -/
def ValidUtf8 (s : List Char) : Prop :=
  ∃ text : List Char, utf8Encode text = s.map Char.toNat

-----------------------------------------------------------------------------------------
-- One character's bytes
-----------------------------------------------------------------------------------------

/-- A continuation byte, `UTF8-tail = %x80-BF`. -/
def Tail (x : Nat) : Prop := 0x80 ≤ x ∧ x ≤ 0xBF

/-- `UTF8-char` of RFC 3629 section 4: one, two, three or four bytes, with the narrower second
byte after `E0`, `ED`, `F0` and `F4` that keeps out overlong forms, surrogates and values past
`10FFFF`.
-/
def CharBytes : List Nat → Prop
  | [] => False
  | [b] => b ≤ 0x7F
  | [b, x] => 0xC2 ≤ b ∧ b ≤ 0xDF ∧ Tail x
  | [b, x, y] => 0xE0 ≤ b ∧ b ≤ 0xEF ∧ (b = 0xE0 → 0xA0 ≤ x) ∧ (b = 0xED → x ≤ 0x9F)
      ∧ Tail x ∧ Tail y
  | [b, x, y, z] => 0xF0 ≤ b ∧ b ≤ 0xF4 ∧ (b = 0xF0 → 0x90 ≤ x) ∧ (b = 0xF4 → x ≤ 0x8F)
      ∧ Tail x ∧ Tail y ∧ Tail z
  | _ :: _ :: _ :: _ :: _ :: _ => False

theorem charBytes_encodeNat {v : Nat} (hv : v.isValidChar) : CharBytes (encodeNat v) := by
  simp only [Nat.isValidChar] at hv
  unfold encodeNat
  split_ifs <;> simp only [CharBytes, Tail] <;> omega

theorem exists_char {v : Nat} (hv : v.isValidChar) : ∃ c : Char, c.toNat = v :=
  ⟨Char.ofNatAux v hv, rfl⟩

/-- Every character's bytes decode: they are the encoding of one scalar value. -/
theorem exists_encodeNat {bs : List Nat} (h : CharBytes bs)
    : ∃ c : Char, encodeNat c.toNat = bs := by
  match bs, h with
  | [b], h =>
    simp only [CharBytes] at h
    obtain ⟨c, hc⟩ := exists_char (v := b) (.inl (by omega))
    exact ⟨c, by rw [hc, encodeNat, if_pos h]⟩
  | [b, x], h =>
    simp only [CharBytes, Tail] at h
    obtain ⟨c, hc⟩ := exists_char (v := (b - 0xC0) * 64 + (x - 0x80)) (.inl (by omega))
    refine ⟨c, ?_⟩
    rw [hc, encodeNat, if_neg (by omega), if_pos (by omega)]
    simp only [List.cons.injEq, and_true]; omega
  | [b, x, y], h =>
    simp only [CharBytes, Tail] at h
    obtain ⟨c, hc⟩ := exists_char (v := (b - 0xE0) * 4096 + (x - 0x80) * 64 + (y - 0x80))
      (by simp only [Nat.isValidChar]; omega)
    refine ⟨c, ?_⟩
    rw [hc, encodeNat, if_neg (by omega), if_neg (by omega), if_pos (by omega)]
    simp only [List.cons.injEq, and_true]; omega
  | [b, x, y, z], h =>
    simp only [CharBytes, Tail] at h
    obtain ⟨c, hc⟩ := exists_char
      (v := (b - 0xF0) * 262144 + (x - 0x80) * 4096 + (y - 0x80) * 64 + (z - 0x80))
      (by simp only [Nat.isValidChar]; omega)
    refine ⟨c, ?_⟩
    rw [hc, encodeNat, if_neg (by omega), if_neg (by omega), if_neg (by omega)]
    simp only [List.cons.injEq, and_true]; omega

-----------------------------------------------------------------------------------------
-- The byte machine
-----------------------------------------------------------------------------------------

/-- `lo ≤ b ≤ hi`. -/
def InRange (r : Nat × Nat) (b : Nat) : Prop := r.1 ≤ b ∧ b ≤ r.2

instance (r : Nat × Nat) (b : Nat) : Decidable (InRange r b) :=
  inferInstanceAs (Decidable (_ ∧ _))

/-- The alternatives of `UTF8-char`, one row each: the range of the first byte and the ranges
of the continuation bytes it asks for.
-/
def leadTable : List ((Nat × Nat) × List (Nat × Nat)) :=
  [((0x00, 0x7F), []),
   ((0xC2, 0xDF), [(0x80, 0xBF)]),
   ((0xE0, 0xE0), [(0xA0, 0xBF), (0x80, 0xBF)]),
   ((0xE1, 0xEC), [(0x80, 0xBF), (0x80, 0xBF)]),
   ((0xED, 0xED), [(0x80, 0x9F), (0x80, 0xBF)]),
   ((0xEE, 0xEF), [(0x80, 0xBF), (0x80, 0xBF)]),
   ((0xF0, 0xF0), [(0x90, 0xBF), (0x80, 0xBF), (0x80, 0xBF)]),
   ((0xF1, 0xF3), [(0x80, 0xBF), (0x80, 0xBF), (0x80, 0xBF)]),
   ((0xF4, 0xF4), [(0x80, 0x8F), (0x80, 0xBF), (0x80, 0xBF)])]

/-- The table is the grammar: a character's bytes are a first byte of some row, then one byte
in each range the row asks for.
-/
theorem charBytes_iff (b : Nat) (xs : List Nat)
    : CharBytes (b :: xs)
      ↔ ∃ row ∈ leadTable, InRange row.1 b ∧ List.Forall₂ InRange row.2 xs := by
  simp only [leadTable, List.mem_cons, List.not_mem_nil, or_false, exists_eq_or_imp,
    exists_eq_left]
  rcases xs with _ | ⟨x, _ | ⟨y, _ | ⟨z, _ | ⟨w, xs⟩⟩⟩⟩ <;>
    simp only [CharBytes, InRange, Tail, List.forall₂_cons, List.forall₂_nil_right_iff,
      List.forall₂_nil_left_iff, reduceCtorEq, and_false, false_and, or_false, false_or,
      and_true] <;> omega

theorem leadTable_disjoint
    : leadTable.Pairwise fun r r' => r.1.2 < r'.1.1 ∨ r'.1.2 < r.1.1 := by
  decide

/-- The continuation bytes the first byte `b` asks for, or `none` when no character starts
with `b`.
-/
def first (b : Nat) : Option (List (Nat × Nat)) :=
  (leadTable.find? fun row => decide (InRange row.1 b)).map Prod.snd

/-- One byte: between characters (`[]`) a first byte, otherwise the next continuation byte. -/
def step : List (Nat × Nat) → Nat → Option (List (Nat × Nat))
  | [], b => first b
  | r :: owed, b => if InRange r b then some owed else none

/-- The state after every byte, or `none` once one is refused. -/
def run (owed : List (Nat × Nat)) : List Nat → Option (List (Nat × Nat))
  | [] => some owed
  | b :: l => (step owed b).bind (run · l)

theorem first_eq_some {b : Nat} {rs : List (Nat × Nat)}
    : first b = some rs ↔ ∃ row ∈ leadTable, InRange row.1 b ∧ row.2 = rs := by
  constructor
  · intro h
    obtain ⟨row, hfind, rfl⟩ := Option.map_eq_some'.1 h
    exact ⟨row, List.mem_of_find?_eq_some hfind, by simpa using List.find?_some hfind, rfl⟩
  · rintro ⟨row, hrow, hb, rfl⟩
    obtain ⟨row', hfind⟩
        : ∃ row', leadTable.find? (fun row => decide (InRange row.1 b)) = some row' :=
      Option.isSome_iff_exists.1 (List.find?_isSome.2 ⟨row, hrow, decide_eq_true hb⟩)
    have hb' : InRange row'.1 b := by
      have := List.find?_some hfind
      exact of_decide_eq_true this
    have hrow' : row' = row := by
      by_contra hne
      have := leadTable_disjoint.forall (fun _ _ h => h.symm)
        (List.mem_of_find?_eq_some hfind) hrow hne
      simp only [InRange] at hb hb'; omega
    rw [first, hfind, hrow']; rfl

theorem run_append (owed : List (Nat × Nat)) (l s : List Nat)
    : run owed (l ++ s) = (run owed l).bind (run · s) := by
  induction l generalizing owed with
  | nil => rfl
  | cons b l ih =>
    simp only [List.cons_append, run]
    cases step owed b <;> simp [ih]

/-- Owed bytes in their ranges take the machine back between characters. -/
theorem run_forall₂ {owed : List (Nat × Nat)} {xs : List Nat} (h : List.Forall₂ InRange owed xs)
    (l : List Nat) : run owed (xs ++ l) = run [] l := by
  induction h with
  | nil => rfl
  | cons hr _ ih => simp [run, step, hr, ih]

/-- From any state the machine ends between characters exactly when it first reads the owed
bytes and then ends between characters from there.
-/
theorem run_eq_nil_iff (owed : List (Nat × Nat)) (l : List Nat)
    : run owed l = some []
      ↔ ∃ xs l', l = xs ++ l' ∧ List.Forall₂ InRange owed xs ∧ run [] l' = some [] := by
  constructor
  · induction owed generalizing l with
    | nil => exact fun h => ⟨[], l, rfl, .nil, h⟩
    | cons r owed ih =>
      intro h
      cases l with
      | nil => simp [run] at h
      | cons x l =>
        simp only [run, step] at h
        split at h
        · obtain ⟨xs, l', rfl, hxs, hl'⟩ := ih l (by simpa using h)
          exact ⟨x :: xs, l', rfl, .cons ‹_› hxs, hl'⟩
        · simp at h
  · rintro ⟨xs, l', rfl, hxs, hl'⟩
    rw [run_forall₂ hxs, hl']

/-- The machine reads one character's bytes back to between characters. -/
theorem run_charBytes {bs : List Nat} (h : CharBytes bs) (l : List Nat)
    : run [] (bs ++ l) = run [] l := by
  cases bs with
  | nil => exact absurd h id
  | cons b xs =>
    obtain ⟨row, hrow, hb, hxs⟩ := (charBytes_iff b xs).1 h
    show (first b).bind (run · (xs ++ l)) = run [] l
    rw [first_eq_some.2 ⟨row, hrow, hb, rfl⟩, Option.some_bind, run_forall₂ hxs]

theorem run_utf8Encode (text : List Char) (l : List Nat)
    : run [] (utf8Encode text ++ l) = run [] l := by
  induction text with
  | nil => rfl
  | cons c text ih =>
    rw [utf8Encode_cons, List.append_assoc,
      run_charBytes (charBytes_encodeNat (v := c.toNat) c.valid), ih]

/-- What the machine accepts decodes. -/
theorem exists_utf8Encode : ∀ {l : List Nat}, run [] l = some [] → ∃ text, utf8Encode text = l
  | [], _ => ⟨[], rfl⟩
  | b :: l, h => by
    simp only [run, step, Option.bind_eq_some] at h
    obtain ⟨rs, hrs, h⟩ := h
    obtain ⟨row, hrow, hb, rfl⟩ := first_eq_some.1 hrs
    obtain ⟨xs, l', hl, hxs, hl'⟩ := (run_eq_nil_iff _ _).1 h
    obtain ⟨c, hc⟩ := exists_encodeNat ((charBytes_iff b xs).2 ⟨row, hrow, hb, hxs⟩)
    obtain ⟨text, htext⟩ := exists_utf8Encode hl'
    exact ⟨c :: text, by rw [utf8Encode_cons, hc, htext, hl, List.cons_append]⟩
termination_by l => l.length
decreasing_by simp only [hl, List.length_cons, List.length_append]; omega

/-- The machine decides UTF-8: it ends between characters exactly on the encodings of texts. -/
theorem validUtf8_iff_run (s : List Char) : ValidUtf8 s ↔ run [] (s.map Char.toNat) = some [] := by
  constructor
  · rintro ⟨text, htext⟩
    simpa [← htext] using run_utf8Encode text []
  · exact exists_utf8Encode

instance : DecidablePred ValidUtf8 :=
  fun s => decidable_of_iff _ (validUtf8_iff_run s).symm

-----------------------------------------------------------------------------------------
-- Splitting at ASCII bytes
-----------------------------------------------------------------------------------------

/-- Bytes below `80`, each a character of its own. -/
def Ascii (s : List Char) : Prop := ∀ c ∈ s, c.toNat < 0x80

instance (s : List Char) : Decidable (Ascii s) :=
  inferInstanceAs (Decidable (∀ c ∈ s, _))

/-- What a state owes: continuation bytes only. -/
def Owing (owed : List (Nat × Nat)) : Prop := ∀ r ∈ owed, 0x80 ≤ r.1 ∧ r.2 ≤ 0xBF

instance (owed : List (Nat × Nat)) : Decidable (Owing owed) :=
  inferInstanceAs (Decidable (∀ r ∈ owed, _))

/-- Every range a row asks for is one of continuation bytes. -/
theorem leadTable_owed : ∀ row ∈ leadTable, Owing row.2 := by
  decide

/-- The states the machine reaches from a state owing continuation bytes owe continuation bytes
only.
-/
theorem run_owed {owed q : List (Nat × Nat)} {l : List Nat} (h : run owed l = some q)
    (ho : Owing owed) : Owing q := by
  induction l generalizing owed with
  | nil => cases h; exact ho
  | cons b l ih =>
    simp only [run, Option.bind_eq_some] at h
    obtain ⟨owed', hstep, h⟩ := h
    refine ih h ?_
    cases owed with
    | nil =>
      obtain ⟨row, hrow, -, rfl⟩ := first_eq_some.1 hstep
      exact leadTable_owed row hrow
    | cons r owed =>
      simp only [step] at hstep
      split at hstep
      · cases hstep; exact fun r' hr' => ho r' (List.mem_cons_of_mem _ hr')
      · cases hstep

/-- No character starts with a continuation byte. -/
theorem leadTable_first : ∀ row ∈ leadTable, row.1.2 < 0x80 ∨ 0xBF < row.1.1 := by
  decide

theorem first_tail {b : Nat} (hb : Tail b) : first b = none := by
  cases h : first b with
  | none => rfl
  | some rs =>
    obtain ⟨row, hrow, hin, -⟩ := first_eq_some.1 h
    have := leadTable_first row hrow
    simp only [Tail, InRange] at hb hin; omega

theorem first_ascii {b : Nat} (hb : b < 0x80) : first b = some [] :=
  first_eq_some.2 ⟨_, List.mem_cons_self _ _, ⟨Nat.zero_le b, show b ≤ 0x7F by omega⟩, rfl⟩

theorem run_ascii {l : List Char} (hl : Ascii l) (r : List Nat)
    : run [] (l.map Char.toNat ++ r) = run [] r := by
  induction l with
  | nil => rfl
  | cons c l ih =>
    simp only [List.map_cons, List.cons_append, run, step,
      first_ascii (hl c (List.mem_cons_self _ _)), Option.some_bind]
    exact ih fun c' hc' => hl c' (List.mem_cons_of_mem _ hc')

theorem validUtf8_nil : ValidUtf8 [] := ⟨[], rfl⟩

theorem ValidUtf8.append {a b : List Char} (ha : ValidUtf8 a) (hb : ValidUtf8 b)
    : ValidUtf8 (a ++ b) := by
  obtain ⟨ta, hta⟩ := ha
  obtain ⟨tb, htb⟩ := hb
  exact ⟨ta ++ tb, by rw [utf8Encode_append, hta, htb, List.map_append]⟩

/-- An ASCII prefix is characters of its own. -/
theorem validUtf8_ascii_append {l : List Char} (hl : Ascii l) (r : List Char)
    : ValidUtf8 (l ++ r) ↔ ValidUtf8 r := by
  rw [validUtf8_iff_run, validUtf8_iff_run, List.map_append, run_ascii hl]

/-- An ASCII byte cannot continue a character, so a valid string splits before it. -/
theorem validUtf8_append_cons {a r : List Char} {x : Char} (hx : x.toNat < 0x80)
    : ValidUtf8 (a ++ x :: r) ↔ ValidUtf8 a ∧ ValidUtf8 r := by
  have hr : ValidUtf8 (x :: r) ↔ ValidUtf8 r :=
    validUtf8_ascii_append (l := [x]) (by simpa [Ascii] using hx) r
  rw [← hr, validUtf8_iff_run, validUtf8_iff_run, validUtf8_iff_run, List.map_append, run_append]
  constructor
  · intro h
    cases ha : run [] (a.map Char.toNat) with
    | none => simp [ha] at h
    | some q =>
      rw [ha, Option.some_bind] at h
      cases q with
      | nil => exact ⟨rfl, h⟩
      | cons o q =>
        have ho := (run_owed ha (by simp [Owing]) o (List.mem_cons_self _ _)).1
        simp only [List.map_cons, run, step] at h
        rw [if_neg (by simp only [InRange]; omega)] at h
        cases h
  · rintro ⟨ha, h⟩
    rw [ha, Option.some_bind, h]

/-- A string that a nonempty ASCII literal follows splits before the literal. -/
theorem validUtf8_append_lit {a l r : List Char} (hl : Ascii l) (hne : l ≠ [])
    : ValidUtf8 (a ++ (l ++ r)) ↔ ValidUtf8 a ∧ ValidUtf8 r := by
  obtain ⟨x, l, rfl⟩ := List.exists_cons_of_ne_nil hne
  rw [List.cons_append, validUtf8_append_cons (hl x (List.mem_cons_self _ _)),
    validUtf8_ascii_append (fun c hc => hl c (List.mem_cons_of_mem _ hc))]

theorem validUtf8_of_ascii {l : List Char} (hl : Ascii l) : ValidUtf8 l := by
  simpa using (validUtf8_ascii_append hl []).2 validUtf8_nil

/-- An ASCII suffix is characters of its own. -/
theorem validUtf8_append_ascii {a l : List Char} (hl : Ascii l)
    : ValidUtf8 (a ++ l) ↔ ValidUtf8 a := by
  cases l with
  | nil => rw [List.append_nil]
  | cons x l =>
    rw [validUtf8_append_cons (hl x (List.mem_cons_self _ _)), and_iff_left_iff_imp]
    exact fun _ => validUtf8_of_ascii fun c hc => hl c (List.mem_cons_of_mem _ hc)

/-- A prefix of a valid string is valid exactly when the byte after it, if there is one, is not
a continuation byte: UTF-8 finds the start of a character from any byte.
-/
theorem validUtf8_take_iff {s : List Char} (hs : ValidUtf8 s) (k : Nat)
    : ValidUtf8 (s.take k) ↔ ∀ c ∈ s[k]?, ¬Tail c.toNat := by
  rw [validUtf8_iff_run] at hs ⊢
  rw [← List.take_append_drop k s, List.map_append, run_append] at hs
  rw [← List.head?_drop]
  cases ht : run [] ((s.take k).map Char.toNat) with
  | none => rw [ht, Option.none_bind] at hs; cases hs
  | some q =>
    rw [ht, Option.some_bind] at hs
    cases hd : s.drop k with
    | nil =>
      rw [hd] at hs
      cases hs
      simp
    | cons x rest =>
      rw [hd, List.map_cons, run, Option.bind_eq_some] at hs
      obtain ⟨q', hq', -⟩ := hs
      simp only [List.head?_cons, Option.mem_def, Option.some.injEq, forall_eq']
      cases q with
      | nil => exact iff_of_true rfl fun hx => by rw [step, first_tail hx] at hq'; cases hq'
      | cons o q =>
        have ho := run_owed ht (by simp [Owing]) o (List.mem_cons_self _ _)
        simp only [step] at hq'
        split at hq'
        · exact iff_of_false (by simp) (not_not.2 ⟨by simp only [InRange] at *; omega,
            by simp only [InRange] at *; omega⟩)
        · cases hq'

end Httplib.Util
