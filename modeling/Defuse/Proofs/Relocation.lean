import Defuse.Proofs.Lexemes
import Defuse.Proofs.SourceText

namespace Defuse

/-!
# Texts further down

What a reader reads in a text, it reads too when the text stands some lines further down, and
when a line end and more text stand behind it: no token goes over the end of a line, and no reader
looks further ahead than that.

* `Position.down`, `Cursor.moved` — the same place further down, with more text behind;
* `Scan.IsBreak` — nothing, or a text that starts with a line end: what may stand behind;
* `Scan.skipGap_moved`, `Scan.readToken_moved` — gaps and tokens, from the lemma of each reader;
* `Scan.Yields`, `Scan.yields_of_tokensOnto` — the tokens of a text, wherever it stands.
-/

namespace Position

/-- The same column, some lines further down. -/
def down (p : Position) (n : Nat) : Position := ⟨p.line + n, p.column⟩

/-- Moving down twice is moving down once. -/
theorem down_down (p : Position) (m n : Nat) : (p.down m).down n = p.down (m + n) :=
  congrArg (Position.mk · p.column) (Nat.add_assoc ..)

/-- A character moves a lower position as it moves the higher one. -/
@[simp] theorem after_down (p : Position) (n : Nat) (c : Char) :
    (p.down n).after c = (p.after c).down n := by
  unfold after
  split
  · exact congrArg (Position.mk · 1) (Nat.add_right_comm ..)
  · rfl

/-- Characters move a lower position as they move the higher one. -/
@[simp] theorem afterAll_down (p : Position) (n : Nat) (cs : List Char) :
    (p.down n).afterAll cs = (p.afterAll cs).down n := by
  induction cs generalizing p with
  | nil => rfl
  | cons c cs ih => rw [afterAll_cons, afterAll_cons, after_down, ih]

end Position

/-- A token some lines further down. -/
def Located.down (t : Located) (n : Nat) : Located := ⟨t.token, t.position.down n⟩

theorem Located.down_down (t : Located) (m n : Nat) : (t.down m).down n = t.down (m + n) :=
  congrArg (Located.mk t.token) (t.position.down_down m n)

namespace Cursor

/-- The cursor some lines further down, with more text behind what is left. -/
def moved (k : Cursor) (n : Nat) (tail : List Char) : Cursor :=
  ⟨k.position.down n, k.rest ++ tail⟩

/-- Wherever a cursor is on its way, the text ends at the same place. -/
theorem Reaches.afterAll_eq {a b : Cursor} (h : a.Reaches b) :
    a.position.afterAll a.rest = b.position.afterAll b.rest := by
  obtain ⟨taken, hrest, hposition⟩ := h
  rw [hrest, hposition, Position.afterAll_append]

end Cursor

namespace Scan

open Text

/-! ### Line ends -/

/-- What may stand behind a text: nothing, or a line end in front of anything. -/
inductive IsBreak : List Char → Prop where
  | nothing : IsBreak []
  | line (rest : List Char) : IsBreak ('\n' :: rest)

namespace IsBreak

variable {tail : List Char} {f : Char → Bool}

/-- What line ends are not part of goes no further than the text. -/
theorem takeWhile_append (ht : IsBreak tail) (hf : f '\n' = false) (cs : List Char) :
    (cs ++ tail).takeWhile f = cs.takeWhile f := by
  induction cs with
  | nil =>
    cases ht with
    | nothing => rfl
    | line rest => rw [List.nil_append, List.takeWhile_cons, hf]; rfl
  | cons c cs ih => rw [List.cons_append, List.takeWhile_cons, List.takeWhile_cons, ih]

/-- What is left of the text is followed by what follows the text. -/
theorem dropWhile_append (ht : IsBreak tail) (hf : f '\n' = false) (cs : List Char) :
    (cs ++ tail).dropWhile f = cs.dropWhile f ++ tail := by
  induction cs with
  | nil =>
    cases ht with
    | nothing => rfl
    | line rest => rw [List.nil_append, List.dropWhile_cons, hf]; rfl
  | cons c cs ih =>
    rw [List.cons_append, List.dropWhile_cons, List.dropWhile_cons, ih]
    split <;> rfl

/-- Characters of one line that a text with more behind it starts with are its own. -/
theorem eq_append (ht : IsBreak tail) (front : List Char) {cs rest : List Char}
    (hfront : '\n' ∉ front) (h : cs ++ tail = front ++ rest) : ∃ back, cs = front ++ back := by
  induction front generalizing cs with
  | nil => exact ⟨cs, rfl⟩
  | cons c front ih =>
    rw [List.mem_cons, not_or] at hfront
    cases cs with
    | nil =>
      -- the line end would be among the characters
      rw [List.nil_append] at h
      subst h
      cases ht
      exact absurd rfl hfront.1
    | cons d cs =>
      obtain ⟨rfl, hrest⟩ := List.cons.inj h
      obtain ⟨back, rfl⟩ := ih hfront.2 hrest
      exact ⟨back, rfl⟩

/-- Whether a digit stands in front does not depend on what follows a line end. -/
theorem startsWithDigit_append (ht : IsBreak tail) (cs : List Char) :
    startsWithDigit (cs ++ tail) = startsWithDigit cs := by
  cases cs with
  | nil => cases ht <;> rfl
  | cons c cs => rfl

/-- A mark is told from its own characters. -/
theorem single?_append (ht : IsBreak tail) (c : Char) (cs : List Char) :
    single? c (cs ++ tail) = single? c cs := by
  unfold single?
  rw [ht.startsWithDigit_append]

end IsBreak

variable {n : Nat} {tail : List Char} {p : Position} {cs : List Char} {t : Token} {k : Cursor}

/-! ### Gaps -/

/-- A gap that goes to the end of a text goes on behind it; any other ends where it did. -/
theorem skipGap_moved (ht : IsBreak tail) {g : Gap} (h : skipGap g p cs = .ok k) :
    skipGap g (p.down n) (cs ++ tail) =
      if k.rest = [] then skipGap .blank (k.position.down n) tail else .ok (k.moved n tail) := by
  -- the second character of a mark is not found behind the text
  have second {c first d : Char} {ds : List Char} (hd : d ≠ '\n')
      (hmark : ∀ rest, c = first → ds = d :: rest → False) (rest : List Char) (hc : c = first)
      (heq : ds ++ tail = d :: rest) : False := by
    obtain ⟨back, hback⟩ := ht.eq_append [d] (by simpa using hd.symm) heq
    exact hmark back hc hback
  fun_induction skipGap g p cs with
  | case1 p =>
    cases h
    rfl
  | case2 p =>
    -- the line end closes the comment
    cases h
    cases ht <;> rfl
  | case3 => cases h
  | case4 p cs ih =>
    show skipGap .line ((p.down n).afterAll ['/', '/']) (cs ++ tail) = _
    rw [Position.afterAll_down]
    exact ih h
  | case5 p cs ih =>
    show skipGap .block ((p.down n).afterAll ['/', '*']) (cs ++ tail) = _
    rw [Position.afterAll_down]
    exact ih h
  | case6 p c cs hline hblock hblank ih =>
    rw [List.cons_append, skipGap, if_pos hblank, Position.after_down]
    · exact ih h
    · exact second (by decide) hline
    · exact second (by decide) hblock
  | case7 p c cs hline hblock hblank =>
    cases h
    rw [List.cons_append, skipGap, if_neg hblank]
    · rfl
    · exact second (by decide) hline
    · exact second (by decide) hblock
  | case8 p c cs ih =>
    rw [List.cons_append, skipGap, Position.after_down]
    exact ih h
  | case9 p cs ih =>
    show skipGap .blank ((p.down n).afterAll ['*', '/']) (cs ++ tail) = _
    rw [Position.afterAll_down]
    exact ih h
  | case10 p c cs hclose ih =>
    rw [List.cons_append, skipGap, Position.after_down]
    · exact ih h
    · exact second (by decide) hclose

/-! ### Literals in quotes -/

/-- Hexadecimal digits are read from a lower position alike. -/
theorem readHexDigits_moved {left value : Nat} {u : UInt16}
    (h : readHexDigits left value p cs = .ok (u, k)) :
    readHexDigits left value (p.down n) (cs ++ tail) = .ok (u, k.moved n tail) := by
  induction left generalizing value p cs with
  | zero =>
    cases h
    rfl
  | succ left ih =>
    cases cs with
    | nil => cases h
    | cons c cs =>
      rw [readHexDigits] at h
      rw [List.cons_append, readHexDigits]
      cases hdigit : hexDigit? c with
      | none =>
        rw [hdigit] at h
        cases h
      | some digit =>
        simp only [hdigit, Position.after_down] at h ⊢
        exact ih h

/-- Octal digits end where they did, since none stands behind a line end. -/
theorem readOctalDigits_moved (ht : IsBreak tail) (left value : Nat) (p : Position)
    (cs : List Char) :
    readOctalDigits left value (p.down n) (cs ++ tail) =
      ((readOctalDigits left value p cs).1, (readOctalDigits left value p cs).2.moved n tail) := by
  induction left generalizing value p cs with
  | zero => cases cs <;> cases tail <;> rfl
  | succ left ih =>
    cases cs with
    | nil => cases ht <;> rfl
    | cons c cs =>
      rw [List.cons_append, readOctalDigits, readOctalDigits]
      cases octalDigit? c with
      | none => rfl
      | some digit =>
        simp only [Position.after_down]
        exact ih ..

/-- An escape is read from a lower position alike. -/
theorem readEscape_moved (ht : IsBreak tail) {u : UInt16} (h : readEscape p cs = .ok (u, k)) :
    readEscape (p.down n) (cs ++ tail) = .ok (u, k.moved n tail) := by
  cases cs with
  | nil => cases h
  | cons c cs =>
    rw [readEscape] at h
    rw [List.cons_append, readEscape, Position.after_down]
    cases hletter : letterEscape? c with
    | some unit =>
      rw [hletter] at h
      cases h
      rfl
    | none =>
      rw [hletter] at h
      cases hdigit : octalDigit? c with
      | some digit =>
        simp only [hdigit, Except.ok.injEq] at h ⊢
        rw [readOctalDigits_moved ht, h]
      | none =>
        simp only [hdigit] at h ⊢
        by_cases hc : c = 'u'
        · rw [if_pos hc] at h ⊢
          rw [ht.takeWhile_append (by decide), ht.dropWhile_append (by decide),
            Position.afterAll_down]
          exact readHexDigits_moved h
        · rw [if_neg hc] at h
          cases h

/-- A string is read from a lower position alike. -/
theorem readString_moved (ht : IsBreak tail) {acc : List UInt16} {s : String}
    (h : readString acc p cs = .ok (s, k)) :
    readString acc (p.down n) (cs ++ tail) = .ok (s, k.moved n tail) := by
  fun_induction readString acc p cs with
  | case1 => cases h
  | case2 => cases h
  | case3 acc p cs hnewline =>
    cases h
    rw [List.cons_append, readString.eq_def]
    simp only [hnewline, ↓reduceIte, Position.after_down]
    rfl
  | case4 => cases h
  | case5 acc p cs _ _ unit j hescape ih =>
    have hmoved := readEscape_moved (n := n) ht hescape
    rw [← Position.after_down] at hmoved
    rw [List.cons_append, readString_escape hmoved]
    exact ih h
  | case6 acc p c cs hnewline hquote hbackslash ih =>
    rw [List.cons_append, readString.eq_def]
    simp only [hnewline, hquote, hbackslash, ↓reduceIte, Position.after_down]
    exact ih h

/-- A character literal is read from a lower position alike. -/
theorem readCharacter_moved (ht : IsBreak tail) {u : UInt16}
    (h : readCharacter p cs = .ok (u, k)) :
    readCharacter (p.down n) (cs ++ tail) = .ok (u, k.moved n tail) := by
  obtain ⟨c, rest, j, rfl, hempty, hunit, hrest, hposition⟩ := readCharacter_eq_ok.mp h
  refine readCharacter_eq_ok.mpr ⟨c, rest ++ tail, j.moved n tail, rfl, hempty, ?_, ?_, ?_⟩
  · rw [Position.after_down]
    obtain ⟨hbackslash, hread⟩ | ⟨hbackslash, hunits, rfl⟩ := hunit
    · exact .inl ⟨hbackslash, readEscape_moved ht hread⟩
    · exact .inr ⟨hbackslash, hunits, rfl⟩
  · -- the closing quote stands in the text itself
    show j.rest ++ tail = '\'' :: (k.rest ++ tail)
    rw [hrest, List.cons_append]
  · show k.position.down n = (j.position.down n).after '\''
    rw [hposition, Position.after_down]

/-! ### Numbers -/

/-- A numeral goes no further than the line, and needs no character behind it to end. -/
theorem readNumeral_moved (ht : IsBreak tail) (floating : Bool) (acc : List Char) (p : Position)
    (cs : List Char) :
    readNumeral floating acc (p.down n) (cs ++ tail) =
      ((readNumeral floating acc p cs).1, (readNumeral floating acc p cs).2.moved n tail) := by
  fun_induction readNumeral floating acc p cs with
  | case1 floating acc p =>
    cases ht with
    | nothing => rfl
    | line rest => rw [List.nil_append, readNumeral.eq_def]; rfl
  | case2 floating acc p c cs hdigit ih =>
    rw [List.cons_append, readNumeral.eq_def]
    simp only [if_pos hdigit, Position.after_down]
    exact ih
  | case3 floating acc p c cs hdigit hpoint ih =>
    rw [List.cons_append, readNumeral.eq_def]
    simp only [if_neg hdigit, if_pos hpoint, Position.after_down]
    exact ih
  | case4 floating acc p cs hdigit hpoint ih =>
    rw [List.cons_append, readNumeral.eq_def]
    simp only [if_neg hdigit, if_neg hpoint, if_pos, Position.after_down]
    exact ih
  | case5 floating acc p c hdigit hpoint hscore hpower =>
    -- no digit follows the mark of a power, whether the input ends there or the line
    rw [List.cons_append, List.nil_append, readNumeral.eq_def]
    simp only [if_neg hdigit, if_neg hpoint, if_neg hscore, if_pos hpower]
    cases ht <;> rfl
  | case6 floating acc p c hdigit hpoint hscore hpower d ds hd ih =>
    rw [List.cons_append, List.cons_append, readNumeral.eq_def]
    simp only [if_neg hdigit, if_neg hpoint, if_neg hscore, if_pos hpower, if_pos hd,
      Position.after_down]
    exact ih
  | case7 floating acc p c hdigit hpoint hscore hpower d ds hd hsign ih =>
    rw [← ht.startsWithDigit_append] at hsign
    rw [List.cons_append, List.cons_append, readNumeral.eq_def]
    simp only [if_neg hdigit, if_neg hpoint, if_neg hscore, if_pos hpower, if_neg hd,
      if_pos hsign, Position.after_down]
    exact ih
  | case8 floating acc p c hdigit hpoint hscore hpower d ds hd hsign =>
    rw [← ht.startsWithDigit_append] at hsign
    rw [List.cons_append, List.cons_append, readNumeral.eq_def]
    simp only [if_neg hdigit, if_neg hpoint, if_neg hscore, if_pos hpower, if_neg hd,
      if_neg hsign]
    rfl
  | case9 floating acc p c cs hdigit hpoint hscore hpower =>
    rw [List.cons_append, readNumeral.eq_def]
    simp only [if_neg hdigit, if_neg hpoint, if_neg hscore, if_neg hpower]
    rfl

/-- A suffix is looked for behind the digits only. -/
theorem withSuffix_moved (ht : IsBreak tail) (value : Nat) (k : Cursor) :
    withSuffix value (k.moved n tail) =
      ((withSuffix value k).1, (withSuffix value k).2.moved n tail) := by
  obtain ⟨p, cs⟩ := k
  cases cs with
  | nil => cases ht <;> rfl
  | cons c cs =>
    simp only [withSuffix, Cursor.moved, List.cons_append, Position.after_down]
    split <;> rfl

/-- A whole number is read from a lower position alike. -/
theorem ofWhole_moved (ht : IsBreak tail) {value? : Option Nat} {cause : ScanError} {j : Cursor}
    (h : ofWhole value? cause j = .ok (t, k)) :
    ofWhole value? cause (j.moved n tail) = .ok (t, k.moved n tail) := by
  unfold ofWhole at h ⊢
  split at h
  · split at h
    · next hsmall => rw [if_pos hsmall, withSuffix_moved ht, Except.ok.inj h]
    · cases h
  · cases h

/-- A floating-point number is read from a lower position alike. -/
theorem ofDecimal_moved {text : List Char} {f : Binary.Format} {make : Nat → Token} {j : Cursor}
    (h : ofDecimal text f make j = .ok (t, k)) :
    ofDecimal text f make (j.moved n tail) = .ok (t, k.moved n tail) := by
  unfold ofDecimal at h ⊢
  split at h
  · cases h
    rfl
  · cases h

theorem readHexadecimal_moved (ht : IsBreak tail) (h : readHexadecimal p cs = .ok (t, k)) :
    readHexadecimal (p.down n) (cs ++ tail) = .ok (t, k.moved n tail) := by
  have hend : isHexPart '\n' = false := by decide
  rw [readHexadecimal] at h ⊢
  simp only [ht.takeWhile_append hend, ht.dropWhile_append hend, Position.afterAll_down]
  exact ofWhole_moved ht h

/-- A decimal number is read from a lower position alike. -/
theorem readDecimal_moved (ht : IsBreak tail) (h : readDecimal p cs = .ok (t, k)) :
    readDecimal (p.down n) (cs ++ tail) = .ok (t, k.moved n tail) := by
  unfold readDecimal at h ⊢
  rw [readNumeral_moved ht]
  generalize readNumeral false [] p cs = r at h ⊢
  obtain ⟨⟨text, floating⟩, j⟩ := r
  -- a number without a letter behind it
  have whole (hw : (if floating then ofDecimal text Binary.double doubleToken j
      else ofWhole (Decimal.naturalOfChars? text) .integerTooLarge j) = .ok (t, k)) :
      (if floating then ofDecimal text Binary.double doubleToken (j.moved n tail)
        else ofWhole (Decimal.naturalOfChars? text) .integerTooLarge (j.moved n tail)) =
        .ok (t, k.moved n tail) := by
    cases floating with
    | true => exact ofDecimal_moved hw
    | false => exact ofWhole_moved ht hw
  obtain ⟨q, rest⟩ := j
  cases rest with
  | nil => cases ht <;> exact whole h
  | cons c rest =>
    simp only [Cursor.moved, List.cons_append, Position.after_down] at h ⊢
    by_cases hsingle : c = 'f' ∨ c = 'F'
    · rw [if_pos hsingle] at h ⊢
      exact ofDecimal_moved h
    · rw [if_neg hsingle] at h ⊢
      by_cases hdouble : c = 'd' ∨ c = 'D'
      · rw [if_pos hdouble] at h ⊢
        exact ofDecimal_moved h
      · rw [if_neg hdouble] at h ⊢
        exact whole h

/-- Without the mark of a hexadecimal number in front, a number is decimal. -/
theorem readNumber_decimal (hx : ∀ rest, cs ≠ ['0', 'x'] ++ rest)
    (hX : ∀ rest, cs ≠ ['0', 'X'] ++ rest) : readNumber p cs = readDecimal p cs := by
  unfold readNumber
  split
  · next rest => exact absurd rfl (hx rest)
  · next rest => exact absurd rfl (hX rest)
  · rfl

theorem readNumber_moved (ht : IsBreak tail) (h : readNumber p cs = .ok (t, k)) :
    -- the mark of a hexadecimal number stands in the text itself, so it is there with more behind
    -- it
    readNumber (p.down n) (cs ++ tail) = .ok (t, k.moved n tail) := by
  by_cases hx : ∃ rest, cs = ['0', 'x'] ++ rest
  · obtain ⟨rest, rfl⟩ := hx
    show readHexadecimal ((p.down n).afterAll ['0', 'x']) (rest ++ tail) = _
    rw [Position.afterAll_down]
    exact readHexadecimal_moved ht h
  · by_cases hX : ∃ rest, cs = ['0', 'X'] ++ rest
    · obtain ⟨rest, rfl⟩ := hX
      show readHexadecimal ((p.down n).afterAll ['0', 'X']) (rest ++ tail) = _
      rw [Position.afterAll_down]
      exact readHexadecimal_moved ht h
    · rw [readNumber_decimal (not_exists.mp hx) (not_exists.mp hX)] at h
      rw [readNumber_decimal]
      · exact readDecimal_moved ht h
      · intro rest heq
        exact hx (ht.eq_append _ (by decide) heq)
      · intro rest heq
        exact hX (ht.eq_append _ (by decide) heq)

/-! ### Tokens -/

/-- A word ends where it did, since no line end is part of one. -/
theorem readWord_moved (ht : IsBreak tail) (p : Position) (cs : List Char) :
    readWord (p.down n) (cs ++ tail) = ((readWord p cs).1, (readWord p cs).2.moved n tail) := by
  have hend : isNamePart '\n' = false := by decide +kernel
  simp only [readWord, ht.takeWhile_append hend, ht.dropWhile_append hend,
    Position.afterAll_down]
  rfl

/-- **A token is read the same** further down, with a line end or nothing behind its text. -/
theorem readToken_moved (ht : IsBreak tail) {c : Char} (h : readToken p c cs = .ok (t, k)) :
    readToken (p.down n) c (cs ++ tail) = .ok (t, k.moved n tail) := by
  unfold readToken at h ⊢
  rw [ht.single?_append, Position.after_down]
  -- the kinds of tokens are tried in the order of the scanner
  cases hsingle : single? c cs with
  | some token =>
    rw [hsingle] at h
    cases h
    rfl
  | none =>
    simp only [hsingle] at h ⊢
    by_cases hstring : c = '"'
    · rw [if_pos hstring] at h ⊢
      obtain ⟨s, hread, hs⟩ := map_eq_ok.mp h
      exact map_eq_ok.mpr ⟨s, readString_moved ht hread, hs⟩
    · rw [if_neg hstring] at h ⊢
      by_cases hchar : c = '\''
      · rw [if_pos hchar] at h ⊢
        obtain ⟨u, hread, hu⟩ := map_eq_ok.mp h
        exact map_eq_ok.mpr ⟨u, readCharacter_moved ht hread, hu⟩
      · rw [if_neg hchar] at h ⊢
        by_cases hnumber : (c.isDigit || c = '.') = true
        · rw [if_pos hnumber] at h ⊢
          exact readNumber_moved ht h
        · rw [if_neg hnumber] at h ⊢
          by_cases hname : isNameStart c = true
          · rw [if_pos hname] at h ⊢
            rw [← List.cons_append, readWord_moved ht, Except.ok.inj h]
          · rw [if_neg hname] at h
            cases h

/-! ### All tokens -/

/-- The tokens of a text that starts at a place, in front of what stands behind it, wherever both
stand. -/
structure Yields (p : Position) (cs : List Char) (ts : List Located) : Prop where
  proper : ∀ t ∈ ts, t.token ≠ .endOfInput
  moved : ∀ n tail acc, IsBreak tail →
    tokensOnto acc (p.down n) (cs ++ tail) =
      tokensOnto ((ts.map (·.down n)).reverse ++ acc) ((p.afterAll cs).down n) tail

/-- What is read depends on what stands behind the gap. -/
theorem tokensOnto_congr {acc : List Located} {q : Position} {ds : List Char}
    (h : skipGap .blank p cs = skipGap .blank q ds) :
    tokensOnto acc p cs = tokensOnto acc q ds := by
  rw [tokensOnto.eq_def, h, ← tokensOnto.eq_def]

/-- A text without tokens. -/
theorem Yields.gap {q : Position} (h : skipGap .blank p cs = .ok ⟨q, []⟩) : Yields p cs [] where
  proper := by simp
  moved := by
    intro n tail acc ht
    have hq : p.afterAll cs = q := (skipGap_reaches h).afterAll_eq
    have hgap := skipGap_moved (n := n) ht h
    rw [if_pos rfl] at hgap
    rw [tokensOnto_congr hgap, hq]
    rfl

/-- A text that starts with a token, behind a gap. -/
theorem Yields.cons {q : Position} {c : Char} {rest : List Char} {ts : List Located}
    (hgap : skipGap .blank p cs = .ok ⟨q, c :: rest⟩)
    (htoken : readToken q c rest = .ok (t, k)) (hts : Yields k.position k.rest ts) :
    Yields p cs (⟨t, q⟩ :: ts) where
  proper := by
    rintro u (_ | ⟨_, hu⟩)
    · obtain ⟨text, -, hlexeme⟩ := readToken_ok htoken
      exact hlexeme.ne_end
    · exact hts.proper u hu
  moved := by
    intro n tail acc ht
    have hq : p.afterAll cs = k.position.afterAll k.rest :=
      ((skipGap_reaches hgap).trans (readToken_passes htoken).reaches).afterAll_eq
    have hgap' := skipGap_moved (n := n) ht hgap
    rw [if_neg (List.cons_ne_nil _ _)] at hgap'
    rw [tokensOnto_token hgap' (readToken_moved ht htoken), hq, List.map_cons,
      List.reverse_cons, List.append_assoc]
    exact hts.moved n tail _ ht

/-- What is read of a text are its tokens, and behind them the end of the input. -/
theorem yields_of_tokensOnto {acc ts : List Located} (h : tokensOnto acc p cs = .ok ts) :
    ∃ us, Yields p cs us ∧ ts = acc.reverse ++ us ++ [⟨.endOfInput, p.afterAll cs⟩] := by
  fun_induction tokensOnto acc p cs with
  | case1 => cases h
  | case2 acc p cs q hgap =>
    cases h
    have hq : p.afterAll cs = q := (skipGap_reaches hgap).afterAll_eq
    exact ⟨[], .gap hgap, by simp [hq]⟩
  | case3 => cases h
  | case4 acc p cs q c rest hgap token k htoken ih =>
    obtain ⟨us, hus, rfl⟩ := ih h
    have hq : p.afterAll cs = k.position.afterAll k.rest :=
      ((skipGap_reaches hgap).trans (readToken_passes htoken).reaches).afterAll_eq
    exact ⟨⟨token, q⟩ :: us, .cons hgap htoken hus, by simp [hq]⟩

end Scan

end Defuse
