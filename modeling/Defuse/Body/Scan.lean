import Defuse.Body.Cursor
import Defuse.Body.Error
import Defuse.Instances
import Defuse.Text.Blank
import Defuse.Text.Letter
import Defuse.Text.Utf16

/-!
# From a source text to tokens

White space and comments separate tokens.  A comment goes from `//` to the end of the line
or from `/*` to the next `*/`.

* `skipGap` — white space and comments;
* `readEscape`, `readString`, `readCharacter` — literals in quotes, read as UTF-16 units;
* `readNumber` — whole numbers and floating-point numbers;
* `readWord` — names and keywords;
* `readToken` — one token, by its first characters;
* `tokenize` — all tokens of a source text, the last one `endOfInput`.

What a token starts with decides what reads it (`readToken_cases`), and every reader moves forward
only (`readToken_passes`), which is why `tokenize` ends.
-/

namespace Defuse

namespace Scan

open Text

/-- Why and where a source text has no further token. -/
structure Failure where
  /-- The place. -/
  position : Position
  /-- The cause. -/
  cause : ScanError
deriving DecidableEq, Repr

/-- What was read, and the cursor behind it. -/
abbrev Read (α : Type) := Except Failure (α × Cursor)

/-- A failure at a place. -/
def fail {α : Type} (p : Position) (cause : ScanError) : Except Failure α := .error ⟨p, cause⟩

/-! ### Gaps -/

/-- What a gap is in the middle of. -/
inductive Gap where
  /-- White space. -/
  | blank
  /-- A comment up to the end of the line. -/
  | line
  /-- A comment up to its closing mark. -/
  | block
deriving DecidableEq, Repr

/-- Moves over white space and comments. -/
def skipGap : Gap → Position → List Char → Except Failure Cursor
  | .blank, p, [] => .ok ⟨p, []⟩
  | .line, p, [] => .ok ⟨p, []⟩
  | .block, p, [] => fail p .unterminatedComment
  | .blank, p, '/' :: '/' :: cs => skipGap .line (p.afterAll ['/', '/']) cs
  | .blank, p, '/' :: '*' :: cs => skipGap .block (p.afterAll ['/', '*']) cs
  | .blank, p, c :: cs =>
    if isBlank c then skipGap .blank (p.after c) cs else .ok ⟨p, c :: cs⟩
  | .line, p, c :: cs => skipGap (if c = '\n' then .blank else .line) (p.after c) cs
  | .block, p, '*' :: '/' :: cs => skipGap .blank (p.afterAll ['*', '/']) cs
  | .block, p, c :: cs => skipGap .block (p.after c) cs

/-! ### Literals in quotes -/

/-- The unit of an escape of one letter. -/
def letterEscape? : Char → Option UInt16
  | 'n' => some 0x0A
  | 't' => some 0x09
  | 'r' => some 0x0D
  | 'b' => some 0x08
  | 'f' => some 0x0C
  | 's' => some 0x20
  | '\'' => some 0x27
  | '"' => some 0x22
  | '\\' => some 0x5C
  | _ => none

/-- The value of a hexadecimal digit. -/
def hexDigit? (c : Char) : Option Nat :=
  if c.isDigit then some (c.toNat - '0'.toNat)
  else if 'a' ≤ c ∧ c ≤ 'f' then some (c.toNat - 'a'.toNat + 10)
  else if 'A' ≤ c ∧ c ≤ 'F' then some (c.toNat - 'A'.toNat + 10)
  else none

/-- The value of an octal digit. -/
def octalDigit? (c : Char) : Option Nat :=
  if '0' ≤ c ∧ c ≤ '7' then some (c.toNat - '0'.toNat) else none

/-- Reads as many hexadecimal digits as told, behind digits of the given value. -/
def readHexDigits : Nat → Nat → Position → List Char → Read UInt16
  | 0, value, p, cs => .ok (value.toUInt16, ⟨p, cs⟩)
  | _ + 1, _, p, [] => fail p .illegalUnicodeEscape
  | left + 1, value, p, c :: cs =>
    match hexDigit? c with
    | some digit => readHexDigits left (16 * value + digit) (p.after c) cs
    | none => fail (p.after c) .illegalUnicodeEscape

/-- Reads at most as many octal digits as told, behind digits of the given value. -/
def readOctalDigits : Nat → Nat → Position → List Char → UInt16 × Cursor
  | left + 1, value, p, c :: cs =>
    match octalDigit? c with
    | some digit => readOctalDigits left (8 * value + digit) (p.after c) cs
    | none => (value.toUInt16, ⟨p, c :: cs⟩)
  | _, value, p, cs => (value.toUInt16, ⟨p, cs⟩)

/-- Reads the unit of an escape, behind its backslash.  Any number of `u` may stand in front
of four hexadecimal digits; octal digits go on while the value stays below 256. -/
def readEscape (p : Position) : List Char → Read UInt16
  | [] => fail p .unterminatedEscape
  | c :: cs =>
    match letterEscape? c, octalDigit? c with
    | some unit, _ => .ok (unit, ⟨p.after c, cs⟩)
    | none, some digit =>
      .ok (readOctalDigits (if c ≤ '3' then 2 else 1) digit (p.after c) cs)
    | none, none =>
      if c = 'u' then
        let marks := cs.takeWhile (· = 'u')
        readHexDigits 4 0 ((p.after c).afterAll marks) (cs.dropWhile (· = 'u'))
      else fail (p.after c) (.illegalEscape c)

/-- Hexadecimal digits are read forward. -/
theorem readHexDigits_reaches {n value : Nat} {p : Position} {cs : List Char} {u : UInt16}
    {k : Cursor} (h : readHexDigits n value p cs = .ok (u, k)) : Cursor.Reaches ⟨p, cs⟩ k := by
  induction n generalizing value p cs with
  | zero =>
    simp only [readHexDigits, Except.ok.injEq, Prod.mk.injEq] at h
    exact h.2 ▸ .refl _
  | succ n ih =>
    cases cs with
    | nil => simp [readHexDigits, fail] at h
    | cons c cs =>
      simp only [readHexDigits] at h
      split at h
      · exact (ih h).step
      · simp [fail] at h

/-- Octal digits are read forward. -/
theorem readOctalDigits_reaches (n value : Nat) (p : Position) (cs : List Char) :
    Cursor.Reaches ⟨p, cs⟩ (readOctalDigits n value p cs).2 := by
  induction n generalizing value p cs with
  | zero => cases cs <;> exact .refl _
  | succ n ih =>
    cases cs with
    | nil => exact .refl _
    | cons c cs =>
      unfold readOctalDigits
      split
      · exact (ih ..).step
      · exact .refl _

/-- An escape takes at least one character. -/
theorem readEscape_passes {p : Position} {cs : List Char} {u : UInt16} {k : Cursor}
    (h : readEscape p cs = .ok (u, k)) : Cursor.Passes ⟨p, cs⟩ k := by
  cases cs with
  | nil => simp [readEscape, fail] at h
  | cons c cs =>
    simp only [readEscape] at h
    split at h
    · simp only [Except.ok.injEq, Prod.mk.injEq] at h
      exact h.2 ▸ (Cursor.Reaches.refl _).passes
    · next digit _ _ =>
      simp only [Except.ok.injEq] at h
      have := readOctalDigits_reaches (if c ≤ '3' then 2 else 1) digit (p.after c) cs
      rw [h] at this
      exact this.passes
    · split at h
      -- the mark may be repeated before the digits
      · have skip := Cursor.Reaches.skip (p.after c) (cs.takeWhile (· = 'u'))
          (cs.dropWhile (· = 'u'))
        rw [List.takeWhile_append_dropWhile] at skip
        exact (skip.trans (readHexDigits_reaches h)).passes
      · simp [fail] at h

/-- Reads a string literal to its closing quote, behind already read units, which are given
backwards.  The literal may not go over the end of the line. -/
def readString (acc : List UInt16) (p : Position) (cs : List Char) : Read String :=
  match cs with
  | [] => fail p .unterminatedString
  | c :: cs =>
    if c = '\n' then fail p .unterminatedString
    else if c = '"' then .ok (String.ofList (ofUnits acc.reverse), ⟨p.after c, cs⟩)
    else if c = '\\' then
      match _h : readEscape (p.after c) cs with
      | .error e => .error e
      | .ok (unit, k) => readString (unit :: acc) k.position k.rest
    else readString ((unitsOfChar c).reverse ++ acc) (p.after c) cs
termination_by cs.length
decreasing_by
  · have := (readEscape_passes ‹_›).length_lt
    simp only [List.length_cons] at this ⊢
    omega
  · simp

/-- A string is read forward. -/
theorem readString_reaches {acc : List UInt16} {p : Position} {cs : List Char} {s : String}
    {k : Cursor} (h : readString acc p cs = .ok (s, k)) : Cursor.Reaches ⟨p, cs⟩ k := by
  -- one case for each kind of character; the string goes on behind an escape and behind a character
  fun_induction readString acc p cs with
  | case1 => simp [fail] at h
  | case2 => simp [fail] at h
  | case3 =>
    simp only [Except.ok.injEq, Prod.mk.injEq] at h
    exact h.2 ▸ (Cursor.Reaches.refl _).step
  | case4 => simp at h
  | case5 acc p cs _ _ unit j hj ih =>
    exact ((readEscape_passes hj).reaches.trans (ih h)).step
  | case6 acc p c cs _ _ _ ih => exact (ih h).step

/-- Reads the unit of a character literal and the closing quote. -/
def readCharacter (p : Position) (cs : List Char) : Read UInt16 :=
  let close (unit : UInt16) (k : Cursor) : Read UInt16 :=
    match k.rest with
    | '\'' :: rest => .ok (unit, ⟨k.position.after '\'', rest⟩)
    | _ => fail k.position .unclosedCharacter
  match cs with
  | [] => fail p .emptyCharacter
  | c :: cs =>
    if c = '\'' ∨ c = '\n' then fail p .emptyCharacter
    else if c = '\\' then
      match readEscape (p.after c) cs with
      | .error e => .error e
      | .ok (unit, k) => close unit k
    else
      match unitsOfChar c with
      | [unit] => close unit ⟨p.after c, cs⟩
      | _ => fail (p.after c) .wideCharacter

/-- A character literal is an escape or a character of one unit, and then the closing quote. -/
theorem readCharacter_eq_ok {p : Position} {cs : List Char} {u : UInt16} {k : Cursor} :
    readCharacter p cs = .ok (u, k) ↔
      ∃ c rest j, cs = c :: rest ∧ ¬ (c = '\'' ∨ c = '\n') ∧
        (c = '\\' ∧ readEscape (p.after c) rest = .ok (u, j) ∨
          c ≠ '\\' ∧ unitsOfChar c = [u] ∧ j = ⟨p.after c, rest⟩) ∧
        j.rest = '\'' :: k.rest ∧ k.position = j.position.after '\'' := by
  have hclose (v : UInt16) (j : Cursor) :
      (match j.rest with
        | '\'' :: rest => (.ok (v, ⟨j.position.after '\'', rest⟩) : Read UInt16)
        | _ => fail j.position .unclosedCharacter) = .ok (u, k) ↔
      v = u ∧ j.rest = '\'' :: k.rest ∧ k.position = j.position.after '\'' := by
    split
    · next rest hrest =>
      obtain ⟨q, back⟩ := k
      simp [hrest, eq_comm, and_comm]
    · next hne =>
      constructor
      · intro h
        cases h
      · intro h
        exact absurd h.2.1 (hne k.rest)
  constructor
  · intro h
    cases cs with
    | nil => cases h
    | cons c cs =>
      rw [readCharacter] at h
      by_cases hempty : c = '\'' ∨ c = '\n'
      · rw [if_pos hempty] at h
        cases h
      · rw [if_neg hempty] at h
        by_cases hbackslash : c = '\\'
        · simp only [if_pos hbackslash] at h
          split at h
          · cases h
          · next v j hread =>
            obtain ⟨rfl, hrest, hposition⟩ := (hclose v j).mp h
            exact ⟨c, cs, j, rfl, hempty, .inl ⟨hbackslash, hread⟩, hrest, hposition⟩
        · simp only [if_neg hbackslash] at h
          split at h
          · next v hunits =>
            obtain ⟨rfl, hrest, hposition⟩ := (hclose v ⟨p.after c, cs⟩).mp h
            exact ⟨c, cs, _, rfl, hempty, .inr ⟨hbackslash, hunits, rfl⟩, hrest, hposition⟩
          · cases h
  · rintro ⟨c, rest, j, rfl, hempty, hunit, hclosed⟩
    rw [readCharacter, if_neg hempty]
    obtain ⟨hbackslash, hread⟩ | ⟨hbackslash, hunits, rfl⟩ := hunit
    · simp only [if_pos hbackslash, hread]
      exact (hclose u j).mpr ⟨rfl, hclosed⟩
    · simp only [if_neg hbackslash, hunits]
      exact (hclose u ⟨p.after c, rest⟩).mpr ⟨rfl, hclosed⟩

/-- A character literal is read forward. -/
theorem readCharacter_reaches {p : Position} {cs : List Char} {u : UInt16} {k : Cursor}
    (h : readCharacter p cs = .ok (u, k)) : Cursor.Reaches ⟨p, cs⟩ k := by
  obtain ⟨c, rest, j, rfl, -, hunit, hrest, hposition⟩ := readCharacter_eq_ok.mp h
  have hclosed : j.Reaches k := ⟨['\''], hrest, hposition⟩
  obtain ⟨-, hescape⟩ | ⟨-, -, rfl⟩ := hunit
  · exact ((readEscape_passes hescape).reaches.trans hclosed).step
  · exact hclosed.step

/-! ### Numbers -/

/-- Whether a decimal digit comes next. -/
def startsWithDigit : List Char → Bool
  | [] => false
  | c :: _ => c.isDigit

/-- Reads digits, the first point, and every power of ten that digits follow, behind already
read ones, which are given backwards.  Underscores are left out.  Tells too whether there
was a point or a power. -/
def readNumeral (floating : Bool) (acc : List Char) (p : Position) :
    List Char → (List Char × Bool) × Cursor
  | [] => ((acc.reverse, floating), ⟨p, []⟩)
  | c :: cs =>
    if c.isDigit then readNumeral floating (c :: acc) (p.after c) cs
    -- a second point ends the number
    else if c = '.' ∧ floating = false then readNumeral true (c :: acc) (p.after c) cs
    else if c = '_' then readNumeral floating acc (p.after c) cs
    -- a power without digits is left for what follows the number
    else if Decimal.isPowerMark c then
      match cs with
      | [] => ((acc.reverse, floating), ⟨p, [c]⟩)
      | d :: ds =>
        if d.isDigit then readNumeral true (c :: acc) (p.after c) (d :: ds)
        else if (d = '+' ∨ d = '-') ∧ startsWithDigit ds = true then
          readNumeral true (d :: c :: acc) ((p.after c).after d) ds
        else ((acc.reverse, floating), ⟨p, c :: d :: ds⟩)
    else ((acc.reverse, floating), ⟨p, c :: cs⟩)

/-- A whole number, `long` where the letter for it follows. -/
def withSuffix (value : Nat) (k : Cursor) : Token × Cursor :=
  match k.rest with
  | c :: rest =>
    if c = 'l' ∨ c = 'L' then (.long value, ⟨k.position.after c, rest⟩) else (.int value, k)
  | [] => (.int value, k)

/-- A whole number, if 64 bits hold it. -/
def ofWhole (value? : Option Nat) (cause : ScanError) (k : Cursor) : Read Token :=
  match value? with
  | some value => if value < 2 ^ 64 then .ok (withSuffix value k) else fail k.position cause
  | none => fail k.position cause

/-- The whole number that hexadecimal digits denote, underscores left out. -/
def ofHexDigits? (cs : List Char) : Option Nat :=
  match cs.filterMap hexDigit? with
  | [] => none
  | digits => some (digits.foldl (fun n d => 16 * n + d) 0)

/-- A floating-point number in one of the two formats. -/
def ofDecimal (text : List Char) (f : Binary.Format) (make : Nat → Token) (k : Cursor) :
    Read Token :=
  match Decimal.Scientific.ofChars? text with
  | some s => .ok (make (s.toBits f), k)
  | none => fail k.position .malformedFloating

/-- The `float` of a bit pattern. -/
def floatToken (bits : Nat) : Token := .float bits.toUInt32

/-- The `double` of a bit pattern. -/
def doubleToken (bits : Nat) : Token := .double bits.toUInt64

/-- Whether a character goes on with a hexadecimal number. -/
def isHexPart (c : Char) : Bool := (hexDigit? c).isSome || c = '_'

/-- Reads a hexadecimal number behind its mark. -/
def readHexadecimal (p : Position) (cs : List Char) : Read Token :=
  let digits := cs.takeWhile isHexPart
  ofWhole (ofHexDigits? digits) .malformedHexadecimal
    ⟨p.afterAll digits, cs.dropWhile isHexPart⟩

/-- Reads a decimal number: `float` and `double` by their letter, `double` too with a point
or a power of ten, else a whole number. -/
def readDecimal (p : Position) (cs : List Char) : Read Token :=
  let ((text, floating), k) := readNumeral false [] p cs
  let whole : Read Token :=
    if floating then ofDecimal text Binary.double doubleToken k
    else ofWhole (Decimal.naturalOfChars? text) .integerTooLarge k
  match k.rest with
  | c :: rest =>
    if c = 'f' ∨ c = 'F' then
      ofDecimal text Binary.single floatToken ⟨k.position.after c, rest⟩
    else if c = 'd' ∨ c = 'D' then
      ofDecimal text Binary.double doubleToken ⟨k.position.after c, rest⟩
    else whole
  | [] => whole

/-- Reads a number; `0x` marks a hexadecimal one. -/
def readNumber (p : Position) (cs : List Char) : Read Token :=
  match cs with
  | '0' :: 'x' :: rest => readHexadecimal (p.afterAll ['0', 'x']) rest
  | '0' :: 'X' :: rest => readHexadecimal (p.afterAll ['0', 'X']) rest
  | cs => readDecimal p cs

/-! ### Words and single characters -/

/-- Whether a name can start with a character. -/
def isNameStart (c : Char) : Bool := isLetter c || c = '_' || c = '$'

/-- Whether a name can go on with a character. -/
def isNamePart (c : Char) : Bool := isLetterOrDigit c || c = '_' || c = '$'

/-- Reads a name or a keyword. -/
def readWord (p : Position) (cs : List Char) : Token × Cursor :=
  let word := cs.takeWhile isNamePart
  (.ofWord (String.ofList word), ⟨p.afterAll word, cs.dropWhile isNamePart⟩)

/-- The tokens of a single character.  A point in front of a digit belongs to a number. -/
def single? (c : Char) (cs : List Char) : Option Token :=
  match c with
  | '(' => some .leftParen
  | ')' => some .rightParen
  | '{' => some .leftBrace
  | '}' => some .rightBrace
  | ';' => some .semicolon
  | ',' => some .comma
  | '+' => some .plus
  | '-' => some .minus
  | '.' => if startsWithDigit cs then none else some .dot
  | _ => none

/-- Reads one token; `c` is its first character. -/
def readToken (p : Position) (c : Char) (cs : List Char) : Read Token :=
  match single? c cs with
  | some token => .ok (token, ⟨p.after c, cs⟩)
  | none =>
    if c = '"' then (readString [] (p.after c) cs).map fun (s, k) => (.string s, k)
    else if c = '\'' then (readCharacter (p.after c) cs).map fun (u, k) => (.char u, k)
    else if c.isDigit || c = '.' then readNumber p (c :: cs)
    else if isNameStart c then .ok (readWord p (c :: cs))
    else fail p (.unexpectedCharacter c)

/-! ### Moving forward only -/

/-- A gap is passed forward. -/
theorem skipGap_reaches {g : Gap} {p : Position} {cs : List Char} {k : Cursor}
    (h : skipGap g p cs = .ok k) : Cursor.Reaches ⟨p, cs⟩ k := by
  fun_induction skipGap g p cs with
  | case1 | case2 =>
    simp only [Except.ok.injEq] at h
    exact h ▸ .refl _
  | case3 => simp [fail] at h
  | case4 p cs ih => exact (Cursor.Reaches.skip p ['/', '/'] cs).trans (ih h)
  | case5 p cs ih => exact (Cursor.Reaches.skip p ['/', '*'] cs).trans (ih h)
  | case6 p c cs _ _ _ ih => exact (ih h).step
  | case7 =>
    simp only [Except.ok.injEq] at h
    exact h ▸ .refl _
  | case8 p c cs ih => exact (ih h).step
  | case9 p cs ih => exact (Cursor.Reaches.skip p ['*', '/'] cs).trans (ih h)
  | case10 p c cs _ ih => exact (ih h).step

/-- A numeral is read forward. -/
theorem readNumeral_reaches (floating : Bool) (acc : List Char) (p : Position)
    (cs : List Char) : Cursor.Reaches ⟨p, cs⟩ (readNumeral floating acc p cs).2 := by
  fun_induction readNumeral floating acc p cs with
  | case1 | case5 | case8 | case9 => exact .refl _
  | case2 _ _ _ _ _ _ ih => exact ih.step
  | case3 _ _ _ _ _ _ _ ih => exact ih.step
  | case4 _ _ _ _ _ _ ih => exact ih.step
  | case6 _ _ _ _ _ _ _ _ _ _ _ ih => exact ih.step
  | case7 _ _ _ _ _ _ _ _ _ _ _ _ ih => exact ih.step.step

/-- A suffix is read forward. -/
theorem withSuffix_reaches (value : Nat) (k : Cursor) : k.Reaches (withSuffix value k).2 := by
  obtain ⟨p, cs⟩ := k
  cases cs with
  | nil => exact .refl _
  | cons c cs =>
    simp only [withSuffix]
    split
    · exact (Cursor.Reaches.refl _).step
    · exact .refl _

/-- A whole number is read forward. -/
theorem ofWhole_reaches {value? : Option Nat} {cause : ScanError} {k j : Cursor} {t : Token}
    (h : ofWhole value? cause k = .ok (t, j)) : k.Reaches j := by
  unfold ofWhole at h
  split at h
  · next value =>
    split at h
    · have := withSuffix_reaches value k
      simp only [Except.ok.injEq] at h
      rwa [h] at this
    · simp [fail] at h
  · simp [fail] at h

/-- A floating-point number has been read already when its value is asked for. -/
theorem ofDecimal_eq {text : List Char} {f : Binary.Format} {make : Nat → Token} {k j : Cursor}
    {t : Token} (h : ofDecimal text f make k = .ok (t, j)) : j = k := by
  unfold ofDecimal at h
  split at h
  · simp only [Except.ok.injEq, Prod.mk.injEq] at h
    exact h.2.symm
  · simp [fail] at h

/-- A hexadecimal number is read forward. -/
theorem readHexadecimal_reaches {p : Position} {cs : List Char} {t : Token} {k : Cursor}
    (h : readHexadecimal p cs = .ok (t, k)) : Cursor.Reaches ⟨p, cs⟩ k := by
  have skip := Cursor.Reaches.skip p (cs.takeWhile isHexPart) (cs.dropWhile isHexPart)
  rw [List.takeWhile_append_dropWhile] at skip
  exact skip.trans (ofWhole_reaches h)

/-- What stands behind a numeral decides which number it is. -/
theorem readDecimal_cases {p : Position} {cs text : List Char} {floating : Bool} {k : Cursor}
    (h : readNumeral false [] p cs = ((text, floating), k)) :
    (∃ c rest, k.rest = c :: rest ∧ (c = 'f' ∨ c = 'F') ∧
      readDecimal p cs = ofDecimal text Binary.single floatToken ⟨k.position.after c, rest⟩) ∨
    (∃ c rest, k.rest = c :: rest ∧ (c = 'd' ∨ c = 'D') ∧
      readDecimal p cs = ofDecimal text Binary.double doubleToken ⟨k.position.after c, rest⟩) ∨
    (floating = true ∧ readDecimal p cs = ofDecimal text Binary.double doubleToken k) ∨
    (floating = false ∧
      readDecimal p cs = ofWhole (Decimal.naturalOfChars? text) .integerTooLarge k) := by
  obtain ⟨q, rest⟩ := k
  unfold readDecimal
  rw [h]
  cases rest with
  | nil =>
    cases floating with
    | true => exact .inr (.inr (.inl ⟨rfl, rfl⟩))
    | false => exact .inr (.inr (.inr ⟨rfl, rfl⟩))
  | cons c rest =>
    by_cases hsingle : c = 'f' ∨ c = 'F'
    · exact .inl ⟨c, rest, rfl, hsingle, if_pos hsingle⟩
    · by_cases hdouble : c = 'd' ∨ c = 'D'
      · exact .inr (.inl ⟨c, rest, rfl, hdouble, (if_neg hsingle).trans (if_pos hdouble)⟩)
      · simp only [if_neg hsingle, if_neg hdouble]
        cases floating with
        | true => exact .inr (.inr (.inl ⟨rfl, rfl⟩))
        | false => exact .inr (.inr (.inr ⟨rfl, rfl⟩))

/-- What follows the numeral is read forward. -/
theorem readDecimal_reaches {p : Position} {cs : List Char} {t : Token} {k : Cursor}
    (h : readDecimal p cs = .ok (t, k)) : (readNumeral false [] p cs).2.Reaches k := by
  rcases hnumeral : readNumeral false [] p cs with ⟨⟨text, floating⟩, q, rest⟩
  obtain ⟨c, back, rfl, -, hread⟩ | ⟨c, back, rfl, -, hread⟩ | ⟨-, hread⟩ | ⟨-, hread⟩ :=
    readDecimal_cases hnumeral
  all_goals rw [hread] at h
  · exact ofDecimal_eq h ▸ (Cursor.Reaches.refl _).step
  · exact ofDecimal_eq h ▸ (Cursor.Reaches.refl _).step
  · exact ofDecimal_eq h ▸ .refl _
  · exact ofWhole_reaches h

/-- A digit or a point in front belongs to the numeral. -/
theorem readNumeral_passes {p : Position} {c : Char} {cs : List Char}
    (hc : (c.isDigit || c = '.') = true) :
    Cursor.Passes ⟨p, c :: cs⟩ (readNumeral false [] p (c :: cs)).2 := by
  simp only [Bool.or_eq_true, decide_eq_true_eq] at hc
  unfold readNumeral
  split
  · exact (readNumeral_reaches ..).passes
  · rw [if_pos ⟨hc.resolve_left ‹_›, rfl⟩]
    exact (readNumeral_reaches ..).passes

/-- A number takes at least one character. -/
theorem readNumber_passes {p : Position} {c : Char} {cs : List Char} {t : Token} {k : Cursor}
    (hc : (c.isDigit || c = '.') = true) (h : readNumber p (c :: cs) = .ok (t, k)) :
    Cursor.Passes ⟨p, c :: cs⟩ k := by
  unfold readNumber at h
  split at h
  · next rest heq =>
    rw [heq]
    exact ((Cursor.Reaches.skip _ ['x'] rest).trans (readHexadecimal_reaches h)).passes
  · next rest heq =>
    rw [heq]
    exact ((Cursor.Reaches.skip _ ['X'] rest).trans (readHexadecimal_reaches h)).passes
  · exact (readNumeral_passes hc).trans (readDecimal_reaches h)

/-- What starts a name can be a part of it. -/
theorem isNamePart_of_isNameStart {c : Char} (h : isNameStart c = true) :
    isNamePart c = true := by
  simp only [isNameStart, isNamePart, isLetter, isLetterOrDigit, Bool.or_eq_true] at h ⊢
  exact h.imp_left (.imp_left .inl)

/-- A word takes at least one character. -/
theorem readWord_passes {p : Position} {c : Char} {cs : List Char} (hc : isNameStart c = true) :
    Cursor.Passes ⟨p, c :: cs⟩ (readWord p (c :: cs)).2 := by
  have skip := Cursor.Reaches.skip (p.after c) (cs.takeWhile isNamePart)
    (cs.dropWhile isNamePart)
  rw [List.takeWhile_append_dropWhile] at skip
  simpa [readWord, isNamePart_of_isNameStart hc] using skip.passes

/-- What a token starts with decides what reads it. -/
theorem readToken_cases (p : Position) (c : Char) (cs : List Char) :
    (∃ t, single? c cs = some t ∧ readToken p c cs = .ok (t, ⟨p.after c, cs⟩)) ∨
    (c = '"' ∧
      readToken p c cs = (readString [] (p.after c) cs).map fun (s, k) => (.string s, k)) ∨
    (c = '\'' ∧
      readToken p c cs = (readCharacter (p.after c) cs).map fun (u, k) => (.char u, k)) ∨
    ((c.isDigit || c = '.') = true ∧ readToken p c cs = readNumber p (c :: cs)) ∨
    (isNameStart c = true ∧ readToken p c cs = .ok (readWord p (c :: cs))) ∨
    readToken p c cs = fail p (.unexpectedCharacter c) := by
  unfold readToken
  cases hsingle : single? c cs with
  | some t => exact .inl ⟨t, rfl, rfl⟩
  | none =>
    by_cases hstring : c = '"'
    · exact .inr (.inl ⟨hstring, if_pos hstring⟩)
    · by_cases hchar : c = '\''
      · exact .inr (.inr (.inl ⟨hchar, by simp only [if_neg hstring, if_pos hchar]⟩))
      · simp only [if_neg hstring, if_neg hchar]
        by_cases hnumber : (c.isDigit || c = '.') = true
        · exact .inr (.inr (.inr (.inl ⟨hnumber, if_pos hnumber⟩)))
        · rw [if_neg hnumber]
          by_cases hname : isNameStart c = true
          · exact .inr (.inr (.inr (.inr (.inl ⟨hname, if_pos hname⟩))))
          · exact .inr (.inr (.inr (.inr (.inr (if_neg hname)))))

/-- A token is made of what was read. -/
theorem map_eq_ok {α : Type} {r : Read α} {make : α → Token} {t : Token} {k : Cursor} :
    (r.map fun (a, j) => (make a, j)) = .ok (t, k) ↔ ∃ a, r = .ok (a, k) ∧ make a = t := by
  rcases r with e | ⟨a, j⟩
  · simp [Except.map]
  · constructor
    · intro h
      cases h
      exact ⟨a, rfl, rfl⟩
    · rintro ⟨_, h, rfl⟩
      cases h
      rfl

/-- Where nothing was read, no token is made. -/
theorem map_eq_error {α : Type} {r : Read α} {make : α → Token} {e : Failure} :
    (r.map fun (a, j) => (make a, j)) = .error e ↔ r = .error e := by
  rcases r with f | ⟨a, j⟩
  · simp [Except.map]
  · simp [Except.map]

/-- A token takes at least one character. -/
theorem readToken_passes {p : Position} {c : Char} {cs : List Char} {t : Token} {k : Cursor}
    (h : readToken p c cs = .ok (t, k)) : Cursor.Passes ⟨p, c :: cs⟩ k := by
  obtain ⟨_, -, hread⟩ | ⟨-, hread⟩ | ⟨-, hread⟩ | ⟨hc, hread⟩ | ⟨hc, hread⟩ | hread :=
    readToken_cases p c cs
  all_goals rw [hread] at h
  · cases h
    exact (Cursor.Reaches.refl _).passes
  · obtain ⟨_, hstring, -⟩ := map_eq_ok.mp h
    exact (readString_reaches hstring).passes
  · obtain ⟨_, hchar, -⟩ := map_eq_ok.mp h
    exact (readCharacter_reaches hchar).passes
  · exact readNumber_passes hc h
  · have hword : Cursor.Passes ⟨p, c :: cs⟩ (readWord p (c :: cs)).2 := readWord_passes hc
    rwa [Except.ok.inj h] at hword
  · cases h

/-! ### All tokens -/

/-- Reads tokens behind already read ones, which are given backwards. -/
def tokensOnto (acc : List Located) (p : Position) (cs : List Char) :
    Except Failure (List Located) :=
  match _hs : skipGap .blank p cs with
  | .error e => .error e
  | .ok ⟨q, []⟩ => .ok (⟨.endOfInput, q⟩ :: acc).reverse
  | .ok ⟨q, c :: rest⟩ =>
    match _ht : readToken q c rest with
    | .error e => .error e
    | .ok (token, k) => tokensOnto (⟨token, q⟩ :: acc) k.position k.rest
termination_by cs.length
decreasing_by
  have := (skipGap_reaches _hs).length_le
  have := (readToken_passes _ht).length_lt
  simp only [List.length_cons] at *
  omega

end Scan

/-- The tokens of a source text, the last of them the end of the input. -/
def tokenize (source : String) : Except CompileError (List Located) :=
  match Scan.tokensOnto [] .start source.toList with
  | .ok tokens => .ok tokens
  | .error e => .error (.scan e.position e.cause)

end Defuse
