import Defuse.Proofs.QuotedLiterals

namespace Defuse

open Text

namespace Scan

/-!
# Lexemes

The characters that tokens are written with.

* `Number` — the spellings of numbers;
* `Lexeme` — the spellings of all tokens;
* `readNumeral_eq` — what is left of a numeral, and whether it is a floating-point one;
* `readNumber_ok`, `readToken_ok` — what is read as a token is a spelling of it;
* `Lexeme.ne_end` — so no reader yields the token that marks the end of the input.
-/

/-! ### Spellings -/

/-- A mark of floating-point numbers. -/
def isFloatMark (c : Char) : Bool := c = '.' || Decimal.isPowerMark c

/-- A digit or a point stands in front. -/
def StartsNumber (cs : List Char) : Prop := ∃ c ∈ cs.head?, (c.isDigit || c = '.') = true

/-- What stands behind the digits of a whole number, and the token of its value. -/
inductive WholeSuffix : List Char → (Nat → Token) → Prop where
  | none : WholeSuffix [] .int
  | small : WholeSuffix ['l'] .long
  | capital : WholeSuffix ['L'] .long

/-- The spellings of numbers.  Underscores do not count. -/
inductive Number : List Char → Token → Prop where
  | hexadecimal {x : Char} {digits suffix : List Char} {ds : List Nat} {make : Nat → Token}
      (hx : x = 'x' ∨ x = 'X') (hne : ds ≠ []) (hdigits : SpellsDigits 16 digits ds)
      (hsmall : Nat.ofDigits 16 ds.reverse < 2 ^ 64) (hsuffix : WholeSuffix suffix make) :
      Number ('0' :: x :: (digits ++ suffix)) (make (Nat.ofDigits 16 ds.reverse))
  | decimal {digits suffix : List Char} {ds : List Nat} {make : Nat → Token}
      (hstart : StartsNumber digits) (hne : ds ≠ []) (hdigits : SpellsDigits 10 digits ds)
      (hsmall : Nat.ofDigits 10 ds.reverse < 2 ^ 64) (hsuffix : WholeSuffix suffix make) :
      Number (digits ++ suffix) (make (Nat.ofDigits 10 ds.reverse))
  | float {c : Char} {numeral : List Char} {s : Decimal.Scientific} (hstart : StartsNumber numeral)
      (hvalue : Decimal.Scientific.ofChars? (numeral.filter (· ≠ '_')) = some s)
      (hc : c = 'f' ∨ c = 'F') : Number (numeral ++ [c]) (floatToken (s.toBits Binary.single))
  | double {c : Char} {numeral : List Char} {s : Decimal.Scientific} (hstart : StartsNumber numeral)
      (hvalue : Decimal.Scientific.ofChars? (numeral.filter (· ≠ '_')) = some s)
      (hc : c = 'd' ∨ c = 'D') : Number (numeral ++ [c]) (doubleToken (s.toBits Binary.double))
  | plain {numeral : List Char} {s : Decimal.Scientific} (hstart : StartsNumber numeral)
      (hvalue : Decimal.Scientific.ofChars? (numeral.filter (· ≠ '_')) = some s)
      (hmark : numeral.any isFloatMark = true) :
      Number numeral (doubleToken (s.toBits Binary.double))

/-- The tokens of a single character. -/
def marks : List (Char × Token) :=
  [('(', .leftParen), (')', .rightParen), ('\x7b', .leftBrace), ('\x7d', .rightBrace),
    (';', .semicolon), (',', .comma), ('+', .plus), ('-', .minus), ('.', .dot)]

/-- The spellings of tokens. -/
inductive Lexeme : List Char → Token → Prop where
  | mark {c : Char} {t : Token} (h : (c, t) ∈ marks) : Lexeme [c] t
  | word {c : Char} {cs : List Char} (hc : isNameStart c = true)
      (hcs : ∀ d ∈ cs, isNamePart d = true) :
      Lexeme (c :: cs) (.ofWord (String.ofList (c :: cs)))
  | string {body : List Char} {us : List UInt16} (h : Denotes '"' body us) :
      Lexeme ('"' :: (body ++ ['"'])) (.string (String.ofList (ofUnits us)))
  | char {body : List Char} {u : UInt16} (h : Denotes '\'' body [u]) :
      Lexeme ('\'' :: (body ++ ['\''])) (.char u)
  | number {cs : List Char} {t : Token} (h : Number cs t) : Lexeme cs t

variable {p : Position} {c : Char} {cs : List Char} {t : Token} {k : Cursor}

/-- A number with its suffix is not the end of the input. -/
theorem WholeSuffix.ne_end {make : Nat → Token} (h : WholeSuffix cs make) (value : Nat) :
    make value ≠ .endOfInput := by
  cases h <;> exact Token.noConfusion

theorem Number.ne_end (h : Number cs t) : t ≠ .endOfInput := by
  cases h with
  | hexadecimal _ _ _ _ hsuffix => exact hsuffix.ne_end _
  | decimal _ _ _ _ hsuffix => exact hsuffix.ne_end _
  | float _ _ _ => exact Token.noConfusion
  | double _ _ _ => exact Token.noConfusion
  | plain _ _ _ => exact Token.noConfusion

theorem ofWord_ne_end (text : String) : Token.ofWord text ≠ .endOfInput := by
  unfold Token.ofWord Token.keyword?
  split <;> exact Token.noConfusion

/-- The end of the input is spelled by no characters. -/
theorem Lexeme.ne_end (h : Lexeme cs t) : t ≠ .endOfInput := by
  cases h with
  | mark h =>
    have hall : ∀ x ∈ marks, x.2 ≠ .endOfInput := by decide
    exact hall _ h
  | word _ _ => exact ofWord_ne_end _
  | string _ => exact Token.noConfusion
  | char _ => exact Token.noConfusion
  | number h => exact h.ne_end

/-! ### Reading numbers -/

/-- A digit is no underscore, and no mark. -/
theorem not_isFloatMark (hc : c.isDigit = true) : c ≠ '_' ∧ isFloatMark c = false := by
  have hne (d : Char) (hd : d.isDigit = false) : c ≠ d := by
    rintro rfl
    rw [hc] at hd
    cases hd
  simp [isFloatMark, Decimal.isPowerMark, hne '_' rfl, hne '.' rfl, hne 'e' rfl, hne 'E' rfl]

/-- **A numeral** is what it is read as without its underscores, and it is a floating-point one
if it has a mark of these. -/
theorem readNumeral_eq (floating : Bool) (acc : List Char) (p : Position) (cs : List Char) :
    ∃ front, cs = front ++ (readNumeral floating acc p cs).2.rest ∧
      (readNumeral floating acc p cs).1 =
        (acc.reverse ++ front.filter (· ≠ '_'), floating || front.any isFloatMark) := by
  -- one case for each character that goes on a numeral: a digit, a point, an underscore, an
  -- exponent with or without a sign
  fun_induction readNumeral floating acc p cs with
  | case1 => exact ⟨[], by simp⟩
  | case2 floating acc p c cs hdigit ih =>
    obtain ⟨front, hfront, hread⟩ := ih
    refine ⟨c :: front, congrArg (c :: ·) hfront, ?_⟩
    rw [hread]
    simp [not_isFloatMark hdigit]
  | case3 floating acc p c cs _ hpoint ih =>
    obtain ⟨rfl, rfl⟩ := hpoint
    obtain ⟨front, hfront, hread⟩ := ih
    refine ⟨'.' :: front, congrArg ('.' :: ·) hfront, ?_⟩
    rw [hread]
    simp [isFloatMark]
  | case4 floating acc p cs _ _ ih =>
    obtain ⟨front, hfront, hread⟩ := ih
    refine ⟨'_' :: front, congrArg ('_' :: ·) hfront, ?_⟩
    rw [hread]
    simp [isFloatMark, Decimal.isPowerMark]
  | case5 | case8 | case9 => exact ⟨[], by simp⟩
  | case6 floating acc p c _ _ hscore hpower d ds _ ih =>
    obtain ⟨front, hfront, hread⟩ := ih
    refine ⟨c :: front, congrArg (c :: ·) hfront, ?_⟩
    rw [hread]
    simp [isFloatMark, hpower, hscore]
  | case7 floating acc p c _ _ hscore hpower d ds _ hsign ih =>
    have hd : d ≠ '_' := by
      rintro rfl
      exact absurd hsign.1 (by decide)
    obtain ⟨front, hfront, hread⟩ := ih
    refine ⟨c :: d :: front, congrArg (c :: d :: ·) hfront, ?_⟩
    rw [hread]
    simp [isFloatMark, hpower, hscore, hd]

/-! ### Whole numbers and floating-point ones -/

/-- A suffix is read off what follows a whole number, if one stands there. -/
theorem withSuffix_eq (value : Nat) (k : Cursor) :
    ∃ suffix make, k.rest = suffix ++ (withSuffix value k).2.rest ∧ WholeSuffix suffix make ∧
      (withSuffix value k).1 = make value := by
  obtain ⟨q, rest⟩ := k
  cases rest with
  | nil => exact ⟨[], .int, rfl, .none, rfl⟩
  | cons c rest =>
    simp only [withSuffix]
    split
    · next hc =>
      rcases hc with rfl | rfl
      · exact ⟨['l'], .long, rfl, .small, rfl⟩
      · exact ⟨['L'], .long, rfl, .capital, rfl⟩
    · exact ⟨[], .int, rfl, .none, rfl⟩

/-- A whole number is below the bound, and what is read behind it is its suffix. -/
theorem ofWhole_ok {value? : Option Nat} {cause : ScanError} {j : Cursor}
    (h : ofWhole value? cause j = .ok (t, k)) :
    ∃ value suffix make, value? = some value ∧ value < 2 ^ 64 ∧ j.rest = suffix ++ k.rest ∧
      WholeSuffix suffix make ∧ t = make value := by
  unfold ofWhole at h
  split at h
  · next value =>
    split at h
    · next hsmall =>
      obtain ⟨suffix, make, hrest, hsuffix, ht⟩ := withSuffix_eq value j
      rw [Except.ok.inj h] at hrest ht
      exact ⟨value, suffix, make, rfl, hsmall, hrest, hsuffix, ht⟩
    · cases h
  · cases h

/-- A floating-point number is what its text says in scientific notation. -/
theorem ofDecimal_ok {text : List Char} {f : Binary.Format} {make : Nat → Token} {j : Cursor}
    (h : ofDecimal text f make j = .ok (t, k)) :
    ∃ s, Decimal.Scientific.ofChars? text = some s ∧ t = make (s.toBits f) ∧ j = k := by
  unfold ofDecimal at h
  split at h
  · next s hs =>
    cases h
    exact ⟨s, hs, rfl, rfl⟩
  · cases h

/-- What is read as a hexadecimal number spells it. -/
theorem readHexadecimal_ok {x : Char} (hx : x = 'x' ∨ x = 'X')
    (h : readHexadecimal p cs = .ok (t, k)) :
    ∃ text, '0' :: x :: cs = text ++ k.rest ∧ Number text t := by
  have hparts : ∀ c ∈ cs.takeWhile isHexPart, isHexPart c = true :=
    List.all_eq_true.mp List.all_takeWhile
  obtain ⟨value, suffix, make, hvalue, hsmall, hrest, hsuffix, rfl⟩ := ofWhole_ok h
  obtain ⟨ds, hne, hdigits, rfl⟩ := (ofHexDigits?_eq_some hparts).mp hvalue
  refine ⟨_, ?_, .hexadecimal hx hne hdigits hsmall hsuffix⟩
  rw [List.cons_append, List.cons_append, List.append_assoc, ← hrest,
    List.takeWhile_append_dropWhile]

/-- A numeral starts with its first character. -/
theorem startsNumber_of_readNumeral (hc : (c.isDigit || c = '.') = true) {front : List Char}
    (hfront : c :: cs = front ++ (readNumeral false [] p (c :: cs)).2.rest) :
    StartsNumber front := by
  have hpasses : Cursor.Passes ⟨p, c :: cs⟩ (readNumeral false [] p (c :: cs)).2 :=
    readNumeral_passes hc
  obtain ⟨d, taken, hrest, -⟩ := hpasses
  have hsame : front = d :: taken := List.append_cancel_right (hfront.symm.trans hrest)
  subst hsame
  obtain ⟨rfl, -⟩ := List.cons.inj hfront
  exact ⟨c, rfl, hc⟩

/-- What is read as a decimal number spells it. -/
theorem readDecimal_ok (hc : (c.isDigit || c = '.') = true)
    (h : readDecimal p (c :: cs) = .ok (t, k)) :
    ∃ text, c :: cs = text ++ k.rest ∧ Number text t := by
  obtain ⟨front, hfront, htext⟩ := readNumeral_eq false [] p (c :: cs)
  have hstart := startsNumber_of_readNumeral hc hfront
  rw [List.reverse_nil, List.nil_append, Bool.false_or] at htext
  generalize hj : (readNumeral false [] p (c :: cs)).2 = j at hfront
  have hnumeral : readNumeral false [] p (c :: cs) =
      ((front.filter (· ≠ '_'), front.any isFloatMark), j) := Prod.ext htext hj
  -- the letter behind the digits, a point or an exponent decide which kind of number it is
  rw [hfront]
  obtain ⟨d, rest, hrest, hd, hread⟩ | ⟨d, rest, hrest, hd, hread⟩ | ⟨hmark, hread⟩ | ⟨-, hread⟩ :=
    readDecimal_cases hnumeral
  all_goals rw [hread] at h
  · obtain ⟨s, hs, rfl, rfl⟩ := ofDecimal_ok h
    exact ⟨front ++ [d], by simp [hrest], .float hstart hs hd⟩
  · obtain ⟨s, hs, rfl, rfl⟩ := ofDecimal_ok h
    exact ⟨front ++ [d], by simp [hrest], .double hstart hs hd⟩
  · obtain ⟨s, hs, rfl, rfl⟩ := ofDecimal_ok h
    exact ⟨front, rfl, .plain hstart hs hmark⟩
  · obtain ⟨value, suffix, make, hvalue, hsmall, hrest, hsuffix, rfl⟩ := ofWhole_ok h
    obtain ⟨ds, hne, hdigits, rfl⟩ := naturalOfChars?_eq_some.mp hvalue
    refine ⟨front ++ suffix, ?_, .decimal hstart hne hdigits hsmall hsuffix⟩
    rw [hrest, List.append_assoc]

/-- **What is read as a number is a spelling of it.** -/
theorem readNumber_ok (hc : (c.isDigit || c = '.') = true)
    (h : readNumber p (c :: cs) = .ok (t, k)) :
    ∃ text, c :: cs = text ++ k.rest ∧ Number text t := by
  unfold readNumber at h
  split at h
  · next rest heq =>
    rw [heq]
    exact readHexadecimal_ok (.inl rfl) h
  · next rest heq =>
    rw [heq]
    exact readHexadecimal_ok (.inr rfl) h
  · exact readDecimal_ok hc h

/-! ### Reading tokens -/

/-- Each mark of one character is in the table of marks. -/
theorem mem_marks (h : single? c cs = some t) : (c, t) ∈ marks := by
  unfold single? at h
  split at h
  case h_9 =>
    -- a point that is no part of a number
    split at h <;> cases h
    decide
  case h_10 => cases h
  all_goals
    cases h
    decide

/-- A word goes as far as the characters of names do. -/
theorem readWord_ok (hc : isNameStart c = true) (h : readWord p (c :: cs) = (t, k)) :
    ∃ text, c :: cs = text ++ k.rest ∧ Lexeme text t := by
  have hpart := isNamePart_of_isNameStart hc
  have hparts : ∀ d ∈ cs.takeWhile isNamePart, isNamePart d = true :=
    List.all_eq_true.mp List.all_takeWhile
  rw [readWord, List.takeWhile_cons_of_pos hpart, List.dropWhile_cons_of_pos hpart] at h
  obtain ⟨rfl, rfl⟩ := Prod.mk.inj h
  refine ⟨_, ?_, .word hc hparts⟩
  rw [List.cons_append, List.takeWhile_append_dropWhile]

/-- **What is read as a token is a spelling of it.** -/
theorem readToken_ok (h : readToken p c cs = .ok (t, k)) :
    ∃ text, c :: cs = text ++ k.rest ∧ Lexeme text t := by
  obtain ⟨_, hmark, hread⟩ | ⟨rfl, hread⟩ | ⟨rfl, hread⟩ | ⟨hc, hread⟩ | ⟨hc, hread⟩ | hread :=
    readToken_cases p c cs
  -- one case for each way in which a token is read
  all_goals rw [hread] at h
  · cases h
    exact ⟨[c], rfl, .mark (mem_marks hmark)⟩
  · obtain ⟨_, hstring, rfl⟩ := map_eq_ok.mp h
    obtain ⟨body, us, rfl, hbody, rfl⟩ := readString_ok hstring
    exact ⟨'"' :: (body ++ ['"']), by simp, .string hbody⟩
  · obtain ⟨u, hchar, rfl⟩ := map_eq_ok.mp h
    obtain ⟨body, rfl, hbody⟩ := readCharacter_ok hchar
    exact ⟨'\'' :: (body ++ ['\'']), by simp, .char hbody⟩
  · obtain ⟨text, hrest, htext⟩ := readNumber_ok hc h
    exact ⟨text, hrest, .number htext⟩
  · exact readWord_ok hc (Except.ok.inj h)
  · cases h

end Scan

end Defuse
