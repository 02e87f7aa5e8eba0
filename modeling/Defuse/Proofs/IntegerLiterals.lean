import Defuse.Proofs.Grammar
import Defuse.Proofs.LoadedValues
import Defuse.Proofs.Relocation

namespace Defuse

open Scan

/-!
# Integer literals

* `IntegerLiteral` — the integer literals of Java: decimal, hexadecimal and octal ones, with
  underscores between their digits, and the letter of a `long` behind them;
* `IntegerLiteral.value?` — the value that such a literal has there;
* `IntegerLiteral.reading` — the number that is read, which for octal digits is that of the same
  decimal ones;
* `readNumber_literal`, `tokenize_literal` — a literal is a single token;
* `integer_literals` — which literals are expressions with a value, and when it is the right one.
-/

/-! ### Literals -/

/-- Digits of a radix, with underscores only between two of them. -/
structure Grouped (radix : Nat) (cs : List Char) (ds : List Nat) : Prop where
  digits : SpellsDigits radix cs ds
  first : cs.head? ≠ some '_'
  last : cs.getLast? ≠ some '_'

/-- The spellings of numbers: the characters, the radix and the digits. -/
inductive IntegerNumeral : List Char → Nat → List Nat → Prop where
  | zero : IntegerNumeral ['0'] 10 [0]
  | decimal {cs : List Char} {d : Nat} {ds : List Nat} (hd : d ≠ 0) (h : Grouped 10 cs (d :: ds)) :
      IntegerNumeral cs 10 (d :: ds)
  | hexadecimal {x : Char} {cs : List Char} {ds : List Nat} (hx : x = 'x' ∨ x = 'X') (hne : ds ≠ [])
      (h : Grouped 16 cs ds) : IntegerNumeral ('0' :: x :: cs) 16 ds
  | octal {cs : List Char} {ds : List Nat} (hne : ds ≠ []) (h : Grouped 8 cs (0 :: ds)) :
      IntegerNumeral cs 8 (0 :: ds)

/-- A numeral, and behind it nothing or the letter of a `long`. -/
structure IntegerLiteral where
  /-- The characters of the numeral. -/
  numeral : List Char
  /-- Its radix. -/
  radix : Nat
  /-- Its digits, the first one counting most. -/
  digits : List Nat
  /-- What stands behind it. -/
  suffix : List Char
  spelled : IntegerNumeral numeral radix digits
  marked : suffix = [] ∨ suffix = ['l'] ∨ suffix = ['L']

namespace IntegerLiteral

/-- The characters of the literal. -/
def chars (l : IntegerLiteral) : List Char := l.numeral ++ l.suffix

/-- The literal as a text. -/
def text (l : IntegerLiteral) : String := String.ofList l.chars

/-- Whether it is a `long`. -/
def isLong (l : IntegerLiteral) : Bool := l.suffix ≠ []

/-- The width of its type. -/
def bits (l : IntegerLiteral) : Nat := if l.isLong then 64 else 32

/-- The number that its digits denote. -/
def number (l : IntegerLiteral) : Nat := Nat.ofDigits l.radix l.digits.reverse

/-- The value that the literal has in Java, if its type has it: decimal digits denote a number of
the type, and all others spell the bits of one, the sign among them. -/
def value? (l : IntegerLiteral) : Option Int :=
  if l.radix = 10 then
    if l.number < 2 ^ (l.bits - 1) then some l.number else none
  else if l.number < 2 ^ l.bits then some ((l.number : Int).bmod (2 ^ l.bits))
  else none

/-- The number that is read: the digits of an octal literal count as decimal ones. -/
def reading (l : IntegerLiteral) : Nat :=
  Nat.ofDigits (if l.radix = 8 then 10 else l.radix) l.digits.reverse

/-- The token of a literal. -/
def token (l : IntegerLiteral) : Token := if l.isLong then .long l.reading else .int l.reading

/-- The expression of a literal. -/
def expression (l : IntegerLiteral) : Expression :=
  if l.isLong then .long l.reading else .int l.reading

/-- The value of this expression, if its type has the number. -/
def constant (l : IntegerLiteral) : Value :=
  if l.isLong then .long (Int64.ofNat l.reading) else .int (Int32.ofNat l.reading)

end IntegerLiteral

/-- A source text whose tokens, up to the end of the input, are read as an expression wherever one
may stand. -/
def IsExpression (source : String) (e : Expression) : Prop :=
  ∃ ts last, tokenize source = .ok (ts ++ [last]) ∧
    ∀ n, Juncture.Goes (.operand n .none) (ts.map (·.token)) (.operator n e)

/-! ### Octal digits -/

/-- Octal digits that count as decimal ones denote at least as much, and the same number just where
it has a single digit. -/
theorem ofDigits_ten {ds : List Nat} (h : ∀ d ∈ ds, d < 8) :
    Nat.ofDigits 8 ds ≤ Nat.ofDigits 10 ds ∧
      (Nat.ofDigits 10 ds = Nat.ofDigits 8 ds ↔ Nat.ofDigits 8 ds < 8) := by
  induction ds with
  | nil => simp
  | cons d ds ih =>
    obtain ⟨hd, hds⟩ := List.forall_mem_cons.mp h
    obtain ⟨hle, hiff⟩ := ih hds
    rw [Nat.ofDigits_cons, Nat.ofDigits_cons]
    refine ⟨by omega, ?_, ?_⟩
    · intro hsame
      omega
    · intro hsmall
      have hzero : Nat.ofDigits 8 ds = 0 := by omega
      have hsame := hiff.mpr (by omega)
      omega

/-! ### What literals are made of -/

variable {cs rest : List Char} {ds : List Nat} {radix : Nat} {p : Position}

/-- Digits start with a digit. -/
theorem Grouped.exists_cons (h : Grouped radix cs ds) (hne : ds ≠ []) :
    ∃ c rest d, cs = c :: rest ∧ IsDigit radix c d := by
  cases cs with
  | nil => exact absurd (List.forall₂_nil_left_iff.mp h.digits) hne
  | cons c rest =>
    have hc : c ≠ '_' := by simpa using h.first
    obtain ⟨d, ds', hd, -, -⟩ := (spellsDigits_cons hc).mp h.digits
    exact ⟨c, rest, d, rfl, hd⟩

/-- A numeral starts with a digit and has digits, which are hexadecimal behind a mark and can be
taken for decimal ones otherwise. -/
theorem IntegerNumeral.digits (h : IntegerNumeral cs radix ds) :
    ds ≠ [] ∧ (∃ c rest, cs = c :: rest ∧ c.isDigit = true) ∧
      ((radix = 10 ∨ radix = 8) ∧ SpellsDigits 10 cs ds ∨
        radix = 16 ∧ ∃ x body, cs = '0' :: x :: body ∧ (x = 'x' ∨ x = 'X') ∧
          SpellsDigits 16 body ds) := by
  cases h with
  | zero =>
    have hzero : SpellsDigits 10 ['0'] [0] := .cons ⟨by decide, .inl rfl⟩ .nil
    exact ⟨List.cons_ne_nil _ _, ⟨'0', [], rfl, rfl⟩, .inl ⟨.inl rfl, hzero⟩⟩
  | @decimal _ d ds _ h =>
    obtain ⟨c, rest, v, hcs, hc⟩ := h.exists_cons (List.cons_ne_nil d ds)
    exact ⟨List.cons_ne_nil d ds, ⟨c, rest, hcs, isDigit_iff.mpr ⟨v, hc⟩⟩,
      .inl ⟨.inl rfl, h.digits⟩⟩
  | hexadecimal hx hne h =>
    exact ⟨hne, ⟨'0', _, rfl, rfl⟩, .inr ⟨rfl, _, _, rfl, hx, h.digits⟩⟩
  | @octal _ ds _ h =>
    have hten : 8 ≤ 10 := by decide
    obtain ⟨c, rest, v, hcs, hlt, hc⟩ := h.exists_cons (List.cons_ne_nil 0 ds)
    have hdigit : c.isDigit = true := isDigit_iff.mpr ⟨v, Nat.lt_of_lt_of_le hlt hten, hc⟩
    exact ⟨List.cons_ne_nil 0 ds, ⟨c, rest, hcs, hdigit⟩, .inl ⟨.inr rfl, h.digits.mono hten⟩⟩

/-- An octal numeral has octal digits. -/
theorem IntegerNumeral.lt_eight (h : IntegerNumeral cs 8 ds) : ∀ d ∈ ds, d < 8 := by
  cases h with
  | octal _ h => exact h.digits.forall_lt

/-! ### Reading literals -/

/-- Digits and underscores are read up to what no numeral goes on with. -/
theorem readNumeral_digits (h : SpellsDigits 10 cs ds)
    (hrest : ∀ acc p, readNumeral false acc p rest = ((acc.reverse, false), ⟨p, rest⟩))
    (acc : List Char) (p : Position) :
    readNumeral false acc p (cs ++ rest) =
      ((acc.reverse ++ cs.filter (· ≠ '_'), false), ⟨p.afterAll cs, rest⟩) := by
  induction cs generalizing ds acc p with
  | nil => simpa using hrest acc p
  | cons c cs ih =>
    rw [List.cons_append, readNumeral.eq_def]
    by_cases hc : c = '_'
    · subst hc
      have hdigits : SpellsDigits 10 cs ds := h
      simp [ih hdigits]
    · obtain ⟨d, ds', hd, hdigits, rfl⟩ := (spellsDigits_cons hc).mp h
      have hdigit : c.isDigit = true := isDigit_iff.mpr ⟨d, hd⟩
      simp [hdigit, hc, ih hdigits]

/-- A digit belongs to no gap. -/
theorem skipGap_digit {c : Char} (hc : c.isDigit = true) :
    skipGap .blank p (c :: cs) = .ok ⟨p, c :: cs⟩ := by
  have hblank : Text.isBlank c = false := by
    have hall : ∀ d < 10, Text.isBlank (Nat.digitChar d) = false ∧
        Text.isBlank (Nat.digitChar d).toUpper = false := by decide
    obtain ⟨d, hd, rfl | rfl⟩ := isDigit_iff.mp hc
    · exact (hall d hd).1
    · exact (hall d hd).2
  have hslash : c ≠ '/' := by
    rintro rfl
    cases hc
  rw [skipGap, hblank]
  · rfl
  · exact fun _ h _ => hslash h
  · exact fun _ h _ => hslash h

/-- What starts with a digit is a number. -/
theorem readToken_digit {c : Char} (hc : c.isDigit = true) :
    readToken p c cs = readNumber p (c :: cs) := by
  have hsingle : single? c cs = none := by
    unfold single?
    split
    case h_10 => rfl
    all_goals cases hc
  have hquote : c ≠ '"' ∧ c ≠ '\'' := by
    constructor
    all_goals
      rintro rfl
      cases hc
  unfold readToken
  simp [hsingle, hquote, hc]

namespace IntegerLiteral

/-- No numeral goes on with a suffix. -/
theorem readNumeral_suffix (l : IntegerLiteral) (acc : List Char) (p : Position) :
    readNumeral false acc p l.suffix = ((acc.reverse, false), ⟨p, l.suffix⟩) := by
  rcases l.marked with h | h | h
  all_goals
    rw [h]
    rfl

/-- A whole number is read with the suffix behind it. -/
theorem ofWhole_suffix (l : IntegerLiteral) (cause : ScanError) (p : Position) :
    ofWhole (some l.reading) cause ⟨p, l.suffix⟩ =
      if l.reading < 2 ^ 64 then .ok (l.token, ⟨p.afterAll l.suffix, []⟩) else fail p cause := by
  have hsuffix : withSuffix l.reading ⟨p, l.suffix⟩ = (l.token, ⟨p.afterAll l.suffix, []⟩) := by
    unfold token isLong
    rcases l.marked with h | h | h
    all_goals
      rw [h]
      rfl
  rw [← hsuffix]
  rfl

/-- A decimal or octal literal is read as the number that its digits have in radix ten. -/
theorem readDecimal_literal (l : IntegerLiteral) (hradix : l.radix = 10 ∨ l.radix = 8)
    (hdigits : SpellsDigits 10 l.numeral l.digits) (p : Position) :
    readDecimal p l.chars =
      ofWhole (some l.reading) .integerTooLarge ⟨p.afterAll l.numeral, l.suffix⟩ := by
  have hreading : l.reading = Nat.ofDigits 10 l.digits.reverse := by
    unfold reading
    rcases hradix with h | h
    all_goals
      -- the digits in front of the suffix are all that is read of the number
      rw [h]
      rfl
  have hvalue : Decimal.naturalOfChars? (l.numeral.filter (· ≠ '_')) = some l.reading :=
    naturalOfChars?_eq_some.mpr ⟨l.digits, l.spelled.digits.1, hdigits, hreading⟩
  unfold readDecimal chars
  rw [readNumeral_digits hdigits l.readNumeral_suffix]
  simp only [List.reverse_nil, List.nil_append, hvalue]
  -- the letter of a `long` is none of those that make a floating-point number
  rcases l.marked with h | h | h
  all_goals
    rw [h]
    rfl

/-- A hexadecimal literal is read as the number that its digits have in radix sixteen. -/
theorem readHexadecimal_literal (l : IntegerLiteral) (hradix : l.radix = 16) {body : List Char}
    (hdigits : SpellsDigits 16 body l.digits) (p : Position) :
    readHexadecimal p (body ++ l.suffix) =
      ofWhole (some l.reading) .malformedHexadecimal ⟨p.afterAll body, l.suffix⟩ := by
  have hreading : l.reading = Nat.ofDigits 16 l.digits.reverse := by
    unfold reading
    rw [hradix]
    rfl
  have hparts : ∀ c ∈ body, isHexPart c = true := by
    intro c hc
    rcases hdigits.forall_mem c hc with rfl | ⟨d, hd⟩
    · rfl
    · rw [isHexPart, hexDigit?_eq_some.mpr hd]
      rfl
  have hvalue : ofHexDigits? body = some l.reading :=
    (ofHexDigits?_eq_some hparts).mpr ⟨l.digits, l.spelled.digits.1, hdigits, hreading⟩
  -- the suffix is no hexadecimal digit
  have hstop : l.suffix.takeWhile isHexPart = [] ∧ l.suffix.dropWhile isHexPart = l.suffix := by
    rcases l.marked with h | h | h
    all_goals
      rw [h]
      exact ⟨rfl, rfl⟩
  rw [readHexadecimal, List.takeWhile_append_of_pos hparts, List.dropWhile_append_of_pos hparts,
    hstop.1, hstop.2, List.append_nil, hvalue]

/-- The mark of hexadecimal numerals stands in no other one. -/
theorem not_mem_chars (l : IntegerLiteral) (hdigits : SpellsDigits 10 l.numeral l.digits) {x : Char}
    (hx : x = 'x' ∨ x = 'X') : x ∉ l.chars := by
  -- the mark is neither a digit nor an underscore, and no suffix
  have hdigit : x.isDigit = false ∧ x ≠ '_' ∧ x ≠ 'l' ∧ x ≠ 'L' := by
    rcases hx with rfl | rfl
    all_goals decide
  obtain ⟨hdigit, hscore, hsmall, hcapital⟩ := hdigit
  intro hmem
  rcases List.mem_append.mp hmem with hnumeral | hsuffix
  · rcases hdigits.forall_mem x hnumeral with h | h
    · exact hscore h
    · rw [← isDigit_iff, hdigit] at h
      cases h
  · rcases l.marked with h | h | h
    · rw [h] at hsuffix
      cases hsuffix
    · rw [h] at hsuffix
      exact hsmall (List.mem_singleton.mp hsuffix)
    · rw [h] at hsuffix
      exact hcapital (List.mem_singleton.mp hsuffix)

/-- **A literal is read as a number** if 64 bits hold it, and otherwise not at all. -/
theorem readNumber_literal (l : IntegerLiteral) (p : Position) :
    ∃ cause, readNumber p l.chars =
      if l.reading < 2 ^ 64 then .ok (l.token, ⟨p.afterAll l.chars, []⟩)
      else fail (p.afterAll l.numeral) cause := by
  obtain ⟨-, -, ⟨hradix, hdigits⟩ | ⟨hradix, x, body, hnumeral, hx, hdigits⟩⟩ := l.spelled.digits
  · refine ⟨.integerTooLarge, ?_⟩
    -- no literal of these radices starts with the mark of a hexadecimal one
    have hmark (x : Char) (hx : x = 'x' ∨ x = 'X') (rest : List Char) :
        l.chars ≠ ['0', x] ++ rest := by
      intro hchars
      apply l.not_mem_chars hdigits hx
      rw [hchars]
      exact List.mem_cons_of_mem _ List.mem_cons_self
    rw [readNumber_decimal (hmark 'x' (.inl rfl)) (hmark 'X' (.inr rfl)),
      l.readDecimal_literal hradix hdigits, l.ofWhole_suffix, ← Position.afterAll_append]
    rfl
  · refine ⟨.malformedHexadecimal, ?_⟩
    have hchars : l.chars = '0' :: x :: (body ++ l.suffix) := by
      rw [chars, hnumeral]
      rfl
    have hread : readNumber p l.chars =
        readHexadecimal (p.afterAll ['0', x]) (body ++ l.suffix) := by
      rw [hchars]
      rcases hx with rfl | rfl
      all_goals rfl
    rw [hread, l.readHexadecimal_literal hradix hdigits, l.ofWhole_suffix,
      ← Position.afterAll_append, ← Position.afterAll_append, ← Position.afterAll_append, hchars,
      hnumeral]
    rfl

/-! ### Literals as expressions -/

/-- The token of a literal is the literal of its expression. -/
theorem literal (l : IntegerLiteral) : Grammar.Literal l.token l.expression := by
  unfold token expression
  split
  · exact .long _
  · exact .int _

/-- **A literal is a token by itself**, if 64 bits hold what is read. -/
theorem tokenize_literal (l : IntegerLiteral) {ts : List Located} :
    tokenize l.text = .ok ts ↔
      l.reading < 2 ^ 64 ∧
        ts = [⟨l.token, .start⟩, ⟨.endOfInput, Position.start.afterAll l.chars⟩] := by
  obtain ⟨cause, hnumber⟩ := l.readNumber_literal .start
  obtain ⟨-, ⟨c, rest, hnumeral, hc⟩, -⟩ := l.spelled.digits
  have hchars : l.chars = c :: (rest ++ l.suffix) := by
    rw [chars, hnumeral]
    rfl
  have hgap : skipGap .blank .start l.chars = .ok ⟨.start, c :: (rest ++ l.suffix)⟩ := by
    rw [hchars]
    exact skipGap_digit hc
  have htoken : readToken .start c (rest ++ l.suffix) = readNumber .start l.chars := by
    rw [hchars]
    exact readToken_digit hc
  have htext : l.text.toList = l.chars := by simp [text]
  rw [hnumber] at htoken
  unfold tokenize
  rw [htext]
  -- a number that is too large is refused by the scanner already
  by_cases hsmall : l.reading < 2 ^ 64
  · rw [if_pos hsmall] at htoken
    rw [tokensOnto_token hgap htoken, tokensOnto_end rfl]
    simp [hsmall, eq_comm]
  · rw [if_neg hsmall] at htoken
    rw [tokensOnto_token_error hgap htoken]
    simp [hsmall]

/-- A text with just the literal in it stands for the expression of the literal, unless the number
is too large for any token. -/
theorem isExpression_literal (l : IntegerLiteral) {e : Expression} :
    IsExpression l.text e ↔ l.reading < 2 ^ 64 ∧ e = l.expression := by
  have hgoes : ∀ n, Juncture.Goes (.operand n .none) [l.token] (.operator n l.expression) :=
    (Grammar.Sum.operand (.primary (.literal l.literal))).goes
  constructor
  · rintro ⟨ts, last, htokens, hread⟩
    obtain ⟨hsmall, hts⟩ := l.tokenize_literal.mp htokens
    obtain rfl : ts = [⟨l.token, .start⟩] := by simpa using congrArg List.dropLast hts
    -- the machine reads the token in one way only
    have hboth := (hread ⟨.return, []⟩ [] 0).symm.trans (hgoes ⟨.return, []⟩ [] 0)
    cases hboth
    exact ⟨hsmall, rfl⟩
  · rintro ⟨hsmall, rfl⟩
    exact ⟨[⟨l.token, .start⟩], _, l.tokenize_literal.mpr ⟨hsmall, rfl⟩, hgoes⟩

/-- The expression of a literal has a value if its type has the number that is read. -/
theorem value_expression (l : IntegerLiteral) {v : Value} :
    l.expression.value = .ok v ↔ l.reading < 2 ^ (l.bits - 1) ∧ v = l.constant := by
  unfold expression bits constant
  cases l.isLong
  · show (if l.reading < 2 ^ 31 then Except.ok _ else _) = _ ↔ l.reading < 2 ^ 31 ∧ _
    by_cases hsmall : l.reading < 2 ^ 31
    · simp [hsmall, eq_comm]
    · simp [hsmall]
  · show (if l.reading < 2 ^ 63 then Except.ok _ else _) = _ ↔ l.reading < 2 ^ 63 ∧ _
    by_cases hsmall : l.reading < 2 ^ 63
    · simp [hsmall, eq_comm]
    · simp [hsmall]

/-- It is this number, with the type of the literal. -/
theorem constant_eq (l : IntegerLiteral) (h : l.reading < 2 ^ (l.bits - 1)) :
    l.constant.type = (if l.isLong then .long else .int) ∧
      l.constant.whole? = some (l.reading : Int) := by
  unfold bits at h
  unfold constant
  cases hlong : l.isLong
  · rw [hlong] at h
    exact ⟨rfl, congrArg some (Int32.toInt_ofNat_of_lt h)⟩
  · rw [hlong] at h
    exact ⟨rfl, congrArg some (Int64.toInt_ofNat_of_lt h)⟩

/-! ### The right value -/

/-- What is read is at least the number, and the number itself unless an octal literal has more than
one digit that counts. -/
theorem reading_number (l : IntegerLiteral) :
    l.number ≤ l.reading ∧ (l.reading = l.number ↔ l.radix = 8 → l.number < 8) := by
  unfold reading number
  by_cases hradix : l.radix = 8
  · have hdigits : ∀ d ∈ l.digits.reverse, d < 8 := by
      intro d hd
      have hspelled := l.spelled
      rw [hradix] at hspelled
      exact hspelled.lt_eight d (List.mem_reverse.mp hd)
    obtain ⟨hle, hiff⟩ := ofDigits_ten hdigits
    rw [if_pos hradix, hradix]
    exact ⟨hle, hiff.trans ⟨fun h _ => h, fun h => h rfl⟩⟩
  · rw [if_neg hradix]
    exact ⟨Nat.le_refl _, iff_of_true rfl (fun h => absurd h hradix)⟩

/-- A number that the type has, sign or no sign, is the value. -/
theorem value?_eq (l : IntegerLiteral) (h : l.number < 2 ^ (l.bits - 1)) :
    l.value? = some (l.number : Int) := by
  have hbits : (2 ^ l.bits : Nat) = 2 * 2 ^ (l.bits - 1) := by
    unfold bits
    split <;> rfl
  have hmod : (l.number : Int).bmod (2 ^ l.bits) = l.number := by
    apply Int.bmod_eq_of_le <;> omega
  have hwide : l.number < 2 ^ l.bits := by omega
  unfold value?
  rw [if_pos h, hmod, if_pos hwide, ite_self]

end IntegerLiteral

/-- **Integer literals.** A literal is an expression with a value just where the number that is read
is one of its type, without a sign: an `int` of 31 bits, or a `long` of 63 bits behind which its
letter stands.  The value is then this number, and it is the value that the literal has in Java
unless the literal is octal and its number has more than one digit. -/
theorem integer_literals (l : IntegerLiteral) :
    ((∃ e v, IsExpression l.text e ∧ e.value = .ok v) ↔ l.reading < 2 ^ (l.bits - 1)) ∧
    ∀ e v, IsExpression l.text e → e.value = .ok v →
      v.type = (if l.isLong then .long else .int) ∧ v.whole? = some (l.reading : Int) ∧
        (v.whole? = l.value? ↔ (l.radix = 8 → l.number < 8)) := by
  obtain ⟨hle, hsame⟩ := l.reading_number
  constructor
  · constructor
    · rintro ⟨e, v, hexpression, hvalue⟩
      obtain ⟨-, rfl⟩ := l.isExpression_literal.mp hexpression
      exact (l.value_expression.mp hvalue).1
    -- a number that fits in its type fits in the token too
    · intro hsmall
      have hwide : l.reading < 2 ^ 64 := by
        refine Nat.lt_of_lt_of_le hsmall (Nat.pow_le_pow_right (by decide) ?_)
        unfold IntegerLiteral.bits
        split <;> decide
      exact ⟨_, _, l.isExpression_literal.mpr ⟨hwide, rfl⟩, l.value_expression.mpr ⟨hsmall, rfl⟩⟩
  · intro e v hexpression hvalue
    obtain ⟨-, rfl⟩ := l.isExpression_literal.mp hexpression
    obtain ⟨hsmall, rfl⟩ := l.value_expression.mp hvalue
    obtain ⟨htype, hwhole⟩ := l.constant_eq hsmall
    refine ⟨htype, hwhole, ?_⟩
    rw [hwhole, l.value?_eq (Nat.lt_of_le_of_lt hle hsmall), Option.some.injEq, Int.ofNat_inj]
    exact hsame

/-- The mask of a byte, as a `long`. -/
def byteMask : IntegerLiteral where
  numeral := ['0', 'x', 'F', '_', 'f']
  radix := 16
  digits := [15, 15]
  suffix := ['L']
  spelled := .hexadecimal (.inl rfl) (List.cons_ne_nil _ _)
    ⟨.cons ⟨by decide, .inr rfl⟩ (.cons ⟨by decide, .inl rfl⟩ .nil), by decide, by decide⟩
  marked := .inr (.inr rfl)

/-- A literal with a mark, an underscore and a letter has its value. -/
theorem integer_literals_byteMask :
    byteMask.text = "0xF_fL" ∧ IsExpression "0xF_fL" (.long 255) ∧
    (Expression.long 255).value = .ok (.long 255) ∧
    (Value.long 255).type = .long ∧ (Value.long 255).whole? = some 255 ∧
    (Value.long 255).whole? = byteMask.value? := by
  have htext : byteMask.text = "0xF_fL" := rfl
  have hreading : byteMask.reading = 255 := rfl
  have hexpression : IsExpression byteMask.text (.long 255) :=
    byteMask.isExpression_literal.mpr ⟨by rw [hreading]; decide, rfl⟩
  have hvalue : (Expression.long 255).value = .ok (.long 255) := rfl
  obtain ⟨htype, hwhole, hright⟩ := (integer_literals byteMask).2 _ _ hexpression hvalue
  refine ⟨htext, hexpression, hvalue, htype, hwhole, hright.mpr ?_⟩
  intro hoctal
  cases hoctal

/-- The permissions of a file that anyone may write. -/
def permissions : IntegerLiteral where
  numeral := ['0', '7', '7', '7']
  radix := 8
  digits := [0, 7, 7, 7]
  suffix := []
  spelled := .octal (List.cons_ne_nil _ _)
    ⟨.cons ⟨by decide, .inl rfl⟩ (.cons ⟨by decide, .inl rfl⟩
      (.cons ⟨by decide, .inl rfl⟩ (.cons ⟨by decide, .inl rfl⟩ .nil))), by decide, by decide⟩
  marked := .inl rfl

/-- The value of an octal literal is that of its digits as decimal ones. -/
theorem octal_literal_decimal :
    permissions.text = "0777" ∧ permissions.value? = some 511 ∧ IsExpression "0777" (.int 777) ∧
    (Expression.int 777).value = .ok (.int 777) ∧ (Value.int 777).whole? = some 777 := by
  have htext : permissions.text = "0777" := rfl
  have hreading : permissions.reading = 777 := rfl
  have hexpression : IsExpression permissions.text (.int 777) :=
    permissions.isExpression_literal.mpr ⟨by rw [hreading]; decide, rfl⟩
  exact ⟨htext, rfl, hexpression, rfl, rfl⟩

end Defuse
