import Defuse.Proofs.Gaps
import Defuse.Proofs.JoinedSources

namespace Defuse

open Scan

/-!
# Where tokens and errors stand

A source text is a row of gaps and tokens that leaves nothing out, and the place of a token is the
place of its first character: its line is counted by the line ends in front of it, and its column by
the characters behind the last one of these.

* `Position.ofOffset` — the place of a character, counted in the text in front of it;
* `Tiles` — gaps and spelled tokens, one behind the other, from an offset to the end of a text;
* `Scan.Failure.Within` — a failure at a place that the cursor reaches, for each reader;
* `token_positions` — all tokens of a source text, or an error at one of its places.
-/

/-! ### Places -/

/-- The place of the character at an offset, or of the end of the text: its line is one more than
the number of line ends in front, its column one more than the number of characters behind the last
line end in front. -/
def Position.ofOffset (source : List Char) (o : Nat) : Position where
  line := 1 + (source.take o).count '\n'
  column := 1 + ((source.take o).reverse.takeWhile (· ≠ '\n')).length

/-- The column behind some characters counts those behind the last line end. -/
theorem Position.column_afterAll_reverse (cs : List Char) :
    (start.afterAll cs.reverse).column = 1 + (cs.takeWhile (· ≠ '\n')).length := by
  induction cs with
  | nil => rfl
  | cons c cs ih =>
    rw [List.reverse_cons, afterAll_append, afterAll_cons, afterAll_nil, after]
    by_cases hc : c = '\n'
    · simp [hc]
    · simp [hc, ih, Nat.add_assoc]

/-- The place behind the first characters of a text is the place of the next one. -/
theorem Position.afterAll_take (source : List Char) (o : Nat) :
    start.afterAll (source.take o) = ofOffset source o := by
  have hline := line_afterAll start (source.take o)
  have hcolumn := column_afterAll_reverse (source.take o).reverse
  rw [List.reverse_reverse] at hcolumn
  exact congrArg₂ Position.mk hline hcolumn

/-- Behind a text stands what follows it. -/
theorem Position.ofOffset_length (before rest : List Char) :
    ofOffset (before ++ rest) before.length = start.afterAll before := by
  rw [← afterAll_take, List.take_left]

/-! ### Gaps and tokens -/

/-- Where a token stands: from its first character to behind its last one. -/
structure Span where
  /-- The offset of its first character. -/
  start : Nat
  /-- The offset behind its last character. -/
  stop : Nat
  /-- The token. -/
  token : Token

/-- The token with its place. -/
def Span.located (source : List Char) (s : Span) : Located := ⟨s.token, .ofOffset source s.start⟩

/-- From an offset to the end, a text is a gap, then a token, and so on, and a gap at the end. -/
inductive Tiles (source : List Char) : Nat → List Span → Prop where
  | last {o : Nat} (hle : o ≤ source.length) (hgap : IsGap [] (source.drop o)) : Tiles source o []
  | cons {o : Nat} {s : Span} {spans : List Span} (hle : o ≤ s.start) (hlt : s.start < s.stop)
      (hgap : IsGap (source.drop s.start) (source.extract o s.start))
      (htext : Lexeme (source.extract s.start s.stop) s.token) :
      Tiles source s.stop spans → Tiles source o (s :: spans)

namespace Tiles

variable {source : List Char} {o : Nat} {spans : List Span}

/-- Tokens stand from the offset on that they start at. -/
theorem le_start (h : Tiles source o spans) : ∀ s ∈ spans, o ≤ s.start := by
  induction h with
  -- by induction on the tokens: each stands behind the one before it
  | last _ _ => exact List.forall_mem_nil _
  | cons hle hlt _ _ _ ih =>
    refine List.forall_mem_cons.mpr ⟨hle, ?_⟩
    intro s hs
    exact Nat.le_trans hle (Nat.le_trans (Nat.le_of_lt hlt) (ih s hs))

/-- The tokens stand one behind the other. -/
theorem pairwise (h : Tiles source o spans) : spans.Pairwise (·.start < ·.start) := by
  induction h with
  | last _ _ => exact .nil
  | cons _ hlt _ _ hrest ih =>
    refine .cons ?_ ih
    intro s hs
    exact Nat.lt_of_lt_of_le hlt (hrest.le_start s hs)

/-- The end of the input is none of them. -/
theorem ne_end (h : Tiles source o spans) : ∀ s ∈ spans, s.token ≠ .endOfInput := by
  induction h with
  | last _ _ => exact List.forall_mem_nil _
  | cons _ _ _ htext _ ih => exact List.forall_mem_cons.mpr ⟨htext.ne_end, ih⟩

/-- The text between two others. -/
theorem extract_middle (a b c : List Char) :
    (a ++ b ++ c).extract a.length (a ++ b).length = b := by
  rw [List.extract_eq_take_drop, List.append_assoc, List.drop_left, List.length_append,
    Nat.add_sub_cancel_left, List.take_left]

/-- A gap, the spelling of a token, and what stands behind these. -/
theorem append {before gap text rest : List Char} {t : Token} (hgap : IsGap (text ++ rest) gap)
    (htext : Lexeme text t) (hne : text ≠ [])
    (h : Tiles (before ++ gap ++ text ++ rest) (before ++ gap ++ text).length spans) :
    Tiles (before ++ gap ++ text ++ rest) before.length
      (⟨(before ++ gap).length, (before ++ gap ++ text).length, t⟩ :: spans) := by
  refine .cons ?_ ?_ ?_ ?_ h
  · simp
  · have hlength : 0 < text.length := List.length_pos_iff.mpr hne
    simp only [List.length_append]
    omega
  · show IsGap (List.drop (before ++ gap).length _) _
    rw [List.append_assoc, List.drop_left, extract_middle]
    exact hgap
  · show Lexeme (List.extract _ (before ++ gap).length (before ++ gap ++ text).length) t
    rw [extract_middle]
    exact htext

end Tiles

namespace Scan

variable {p : Position} {cs : List Char} {acc ts : List Located}

/-- Where a cursor is that has moved over some characters. -/
theorem position_of_reaches {a b : Cursor} (h : a.Reaches b) {text : List Char}
    (hrest : a.rest = text ++ b.rest) : b.position = a.position.afterAll text := by
  obtain ⟨taken, htaken, hposition⟩ := h
  have hsame : taken = text := List.append_cancel_right (htaken.symm.trans hrest)
  rw [hposition, hsame]

/-- What is read of a text is what it is made of. -/
theorem tiles_of_tokensOnto (h : tokensOnto acc p cs = .ok ts) (before : List Char)
    (hp : p = Position.start.afterAll before) :
    ∃ spans, Tiles (before ++ cs) before.length spans ∧
      ts = acc.reverse ++ spans.map (·.located (before ++ cs)) ++
        [⟨.endOfInput, .ofOffset (before ++ cs) (before ++ cs).length⟩] := by
  fun_induction tokensOnto acc p cs generalizing before with
  | case1 => cases h
  | case2 acc p cs q hgap =>
    cases h
    obtain ⟨gap, hcs, htaken⟩ := skipGap_isGap hgap
    have hq : q = p.afterAll gap := position_of_reaches (skipGap_reaches hgap) hcs
    rw [List.append_nil] at hcs
    subst hcs hp hq
    refine ⟨[], .last ?_ ?_, ?_⟩
    · simp
    · rw [List.drop_left]
      exact htaken
    · rw [← Position.afterAll_take, List.take_length, Position.afterAll_append]
      simp
  | case3 => cases h
  | case4 acc p cs q c rest hgap token k htoken ih =>
    obtain ⟨gap, hcs, htaken⟩ := skipGap_isGap hgap
    obtain ⟨text, htext, hlexeme⟩ := readToken_ok htoken
    have hq : q = p.afterAll gap := position_of_reaches (skipGap_reaches hgap) hcs
    have hk : k.position = q.afterAll text :=
      position_of_reaches (readToken_passes htoken).reaches htext
    have hne : text ≠ [] := by
      -- a reader that reads a token moves forward
      rintro rfl
      have hlt := (readToken_passes htoken).length_lt
      dsimp only at hlt
      rw [htext] at hlt
      exact Nat.lt_irrefl _ hlt
    dsimp only at hcs
    rw [htext] at hcs htaken
    have hsource : before ++ cs = before ++ gap ++ text ++ k.rest := by
      rw [hcs, List.append_assoc, List.append_assoc]
    have hplace : k.position = Position.start.afterAll (before ++ gap ++ text) := by
      rw [hk, hq, hp, Position.afterAll_append, Position.afterAll_append]
    obtain ⟨spans, hspans, rfl⟩ := ih h (before ++ gap ++ text) hplace
    rw [hsource]
    refine ⟨_, hspans.append htaken hlexeme hne, ?_⟩
    have hstart : q = .ofOffset (before ++ gap ++ text ++ k.rest) (before ++ gap).length := by
      rw [List.append_assoc, Position.ofOffset_length, Position.afterAll_append, ← hp, hq]
    rw [List.map_cons, Span.located, ← hstart, List.reverse_cons]
    simp

/-! ### Errors -/

/-- A failure at a place that the cursor reaches. -/
def Failure.Within (e : Failure) (a : Cursor) : Prop :=
  ∃ k : Cursor, a.Reaches k ∧ e.position = k.position

namespace Failure.Within

variable {e : Failure} {a b : Cursor} {c : Char}

/-- A failure at the first character is inside the text. -/
theorem here (p : Position) (cs : List Char) (cause : ScanError) : Within ⟨p, cause⟩ ⟨p, cs⟩ :=
  ⟨⟨p, cs⟩, .refl _, rfl⟩

/-- What fails behind something that was read fails inside the text. -/
theorem behind (hab : a.Reaches b) (h : e.Within b) : e.Within a := by
  obtain ⟨k, hk, hposition⟩ := h
  exact ⟨k, hab.trans hk, hposition⟩

/-- What fails behind one character fails inside the text. -/
theorem step (h : e.Within ⟨p.after c, cs⟩) : e.Within ⟨p, c :: cs⟩ :=
  h.behind (Cursor.Reaches.refl _).step

end Failure.Within

variable {e : Failure} {k : Cursor}

/-- A comment that does not end fails inside the text. -/
theorem skipGap_error {g : Gap} (h : skipGap g p cs = .error e) : e.Within ⟨p, cs⟩ := by
  fun_induction skipGap g p cs with
  | case1 => cases h
  | case2 => cases h
  | case3 p =>
    cases h
    exact .here ..
  | case4 p cs ih => exact (ih h).behind (.skip p ['/', '/'] cs)
  | case5 p cs ih => exact (ih h).behind (.skip p ['/', '*'] cs)
  | case6 p c cs _ _ _ ih => exact (ih h).step
  | case7 => cases h
  | case8 p c cs ih => exact (ih h).step
  | case9 p cs ih => exact (ih h).behind (.skip p ['*', '/'] cs)
  | case10 p c cs _ ih => exact (ih h).step

/-- A digit that is missing fails inside the text. -/
theorem readHexDigits_error {left value : Nat} (h : readHexDigits left value p cs = .error e) :
    e.Within ⟨p, cs⟩ := by
  induction left generalizing value p cs with
  | zero => cases h
  | succ left ih =>
    cases cs with
    | nil =>
      cases h
      exact .here ..
    | cons c cs =>
      rw [readHexDigits] at h
      split at h
      · exact (ih h).step
      · cases h
        exact .step (.here ..)

/-- An escape that cannot be read fails inside the text. -/
theorem readEscape_error (h : readEscape p cs = .error e) : e.Within ⟨p, cs⟩ := by
  cases cs with
  | nil =>
    cases h
    exact .here ..
  | cons c cs =>
    rw [readEscape] at h
    split at h
    · cases h
    · cases h
    · by_cases hc : c = 'u'
      · rw [if_pos hc] at h
        have hmarks := Cursor.Reaches.skip (p.after c) (cs.takeWhile (· = 'u'))
          (cs.dropWhile (· = 'u'))
        rw [List.takeWhile_append_dropWhile] at hmarks
        exact ((readHexDigits_error h).behind hmarks).step
      · rw [if_neg hc] at h
        cases h
        exact .step (.here ..)

/-- A string that cannot be read fails inside the text. -/
theorem readString_error {units : List UInt16} (h : readString units p cs = .error e) :
    e.Within ⟨p, cs⟩ := by
  fun_induction readString units p cs with
  | case1 =>
    cases h
    exact .here ..
  | case2 =>
    cases h
    exact .here ..
  | case3 => cases h
  | case4 units p cs f _ _ hescape =>
    cases h
    exact (readEscape_error hescape).step
  | case5 units p cs _ _ unit j hescape ih =>
    exact ((ih h).behind (readEscape_passes hescape).reaches).step
  | case6 units p c cs _ _ _ ih => exact (ih h).step

/-- A character literal that cannot be read fails inside the text. -/
theorem readCharacter_error (h : readCharacter p cs = .error e) : e.Within ⟨p, cs⟩ := by
  cases cs with
  | nil =>
    cases h
    exact .here ..
  | cons c cs =>
    rw [readCharacter] at h
    by_cases hempty : c = '\'' ∨ c = '\n'
    · rw [if_pos hempty] at h
      cases h
      exact .here ..
    · rw [if_neg hempty] at h
      -- what fails is the unit, or the closing quote behind it
      by_cases hbackslash : c = '\\'
      · simp only [if_pos hbackslash] at h
        cases hread : readEscape (p.after c) cs with
        | error f =>
          rw [hread] at h
          cases h
          exact (readEscape_error hread).step
        | ok r =>
          obtain ⟨unit, ⟨q, rest⟩⟩ := r
          rw [hread] at h
          dsimp only at h
          split at h
          · cases h
          · cases h
            exact ((Failure.Within.here ..).behind (readEscape_passes hread).reaches).step
      · simp only [if_neg hbackslash] at h
        split at h
        · split at h
          · cases h
          · cases h
            exact .step (.here ..)
        · cases h
          exact .step (.here ..)

/-- A whole number that is missing or too large fails behind its digits. -/
theorem ofWhole_error {value? : Option Nat} {cause : ScanError}
    (h : ofWhole value? cause k = .error e) : e.Within k := by
  unfold ofWhole at h
  split at h
  · split at h
    · cases h
    · cases h
      exact .here ..
  · cases h
    exact .here ..

/-- A number that is none in scientific notation fails behind its digits. -/
theorem ofDecimal_error {text : List Char} {f : Binary.Format} {make : Nat → Token}
    (h : ofDecimal text f make k = .error e) : e.Within k := by
  unfold ofDecimal at h
  split at h
  · cases h
  · cases h
    exact .here ..

theorem readHexadecimal_error (h : readHexadecimal p cs = .error e) : e.Within ⟨p, cs⟩ := by
  have hdigits := Cursor.Reaches.skip p (cs.takeWhile isHexPart) (cs.dropWhile isHexPart)
  rw [List.takeWhile_append_dropWhile] at hdigits
  exact (ofWhole_error h).behind hdigits

theorem readDecimal_error (h : readDecimal p cs = .error e) : e.Within ⟨p, cs⟩ := by
  apply Failure.Within.behind (readNumeral_reaches false [] p cs)
  rcases hnumeral : readNumeral false [] p cs with ⟨⟨text, floating⟩, q, rest⟩
  obtain ⟨c, back, rfl, -, hread⟩ | ⟨c, back, rfl, -, hread⟩ | ⟨-, hread⟩ | ⟨-, hread⟩ :=
    readDecimal_cases hnumeral
  all_goals rw [hread] at h
  · exact (ofDecimal_error h).step
  · exact (ofDecimal_error h).step
  · exact ofDecimal_error h
  · exact ofWhole_error h

theorem readNumber_error (h : readNumber p cs = .error e) : e.Within ⟨p, cs⟩ := by
  unfold readNumber at h
  split at h
  · next rest => exact (readHexadecimal_error h).behind (.skip p ['0', 'x'] rest)
  · next rest => exact (readHexadecimal_error h).behind (.skip p ['0', 'X'] rest)
  · exact readDecimal_error h

/-- A token that cannot be read fails inside the text. -/
theorem readToken_error {c : Char} (h : readToken p c cs = .error e) : e.Within ⟨p, c :: cs⟩ := by
  obtain ⟨_, -, hread⟩ | ⟨-, hread⟩ | ⟨-, hread⟩ | ⟨-, hread⟩ | ⟨-, hread⟩ | hread :=
    readToken_cases p c cs
  all_goals rw [hread] at h
  · cases h
  · exact (readString_error (map_eq_error.mp h)).step
  · exact (readCharacter_error (map_eq_error.mp h)).step
  · exact readNumber_error h
  · cases h
  · cases h
    exact .here ..

/-- A text that cannot be read fails inside it. -/
theorem tokensOnto_error (h : tokensOnto acc p cs = .error e) : e.Within ⟨p, cs⟩ := by
  -- by induction along the reading: the gap fails, or the token behind it, or one that follows
  fun_induction tokensOnto acc p cs with
  | case1 acc p cs f hgap =>
    cases h
    exact skipGap_error hgap
  | case2 => cases h
  | case3 acc p cs q c rest hgap f htoken =>
    cases h
    exact (readToken_error htoken).behind (skipGap_reaches hgap)
  | case4 acc p cs q c rest hgap token k htoken ih =>
    exact ((ih h).behind (readToken_passes htoken).reaches).behind (skipGap_reaches hgap)

/-- An error stands at a place of the source text. -/
theorem Failure.Within.exists_offset {source : List Char} (h : e.Within ⟨.start, source⟩) :
    ∃ o ≤ source.length, e.position = .ofOffset source o := by
  obtain ⟨k, ⟨taken, rfl, hposition⟩, he⟩ := h
  refine ⟨taken.length, ?_, ?_⟩
  · simp
  · rw [he, hposition, Position.ofOffset_length]

end Scan

/-- **Tokens and errors are where they say.**  A source text that has tokens is a row of gaps and
tokens, each spelled by the characters from its offset on and standing at the place of the first
one, which comes later from token to token; the end of the input comes last and stands at the end of
the text.  A source text without tokens has an error at the place of some character, or at its
end. -/
theorem token_positions (source : String) :
    (∀ ts, tokenize source = .ok ts →
      ∃ spans, Tiles source.toList 0 spans ∧ spans.Pairwise (·.start < ·.start) ∧
        (∀ s ∈ spans, s.token ≠ .endOfInput) ∧
        ts = spans.map (·.located source.toList) ++
          [⟨.endOfInput, .ofOffset source.toList source.toList.length⟩]) ∧
    ∀ e, tokenize source = .error e →
      ∃ o ≤ source.toList.length, ∃ cause, e = .scan (.ofOffset source.toList o) cause := by
  constructor
  · intro ts h
    unfold tokenize at h
    split at h
    · next tokens htokens =>
      cases h
      obtain ⟨spans, hspans, hts⟩ := tiles_of_tokensOnto htokens [] rfl
      exact ⟨spans, hspans, hspans.pairwise, hspans.ne_end, hts⟩
    · cases h
  · intro e h
    unfold tokenize at h
    split at h
    · cases h
    · next f hfailure =>
      cases h
      obtain ⟨o, ho, hposition⟩ := (tokensOnto_error hfailure).exists_offset
      rw [hposition]
      exact ⟨o, ho, _, rfl⟩

/-- A text whose tokens stand below a comment, and a comment that never ends. -/
theorem token_positions_comment :
    tokenize "// a\nreturn;" =
      .ok [⟨.return, ⟨2, 1⟩⟩, ⟨.semicolon, ⟨2, 7⟩⟩, ⟨.endOfInput, ⟨2, 8⟩⟩] ∧
    (∃ spans, Tiles "// a\nreturn;".toList 0 spans ∧ spans.Pairwise (·.start < ·.start) ∧
      (∀ s ∈ spans, s.token ≠ .endOfInput) ∧
      [⟨.return, ⟨2, 1⟩⟩, ⟨.semicolon, ⟨2, 7⟩⟩, ⟨.endOfInput, ⟨2, 8⟩⟩] =
        spans.map (·.located "// a\nreturn;".toList) ++
          [⟨.endOfInput, .ofOffset "// a\nreturn;".toList "// a\nreturn;".toList.length⟩]) ∧
    tokenize "/* a\n" = .error (.scan ⟨2, 1⟩ .unterminatedComment) ∧
    ∃ o ≤ "/* a\n".toList.length, ∃ cause, CompileError.scan ⟨2, 1⟩ .unterminatedComment =
      .scan (.ofOffset "/* a\n".toList o) cause := by
  have htokens : tokenize "// a\nreturn;" =
      .ok [⟨.return, ⟨2, 1⟩⟩, ⟨.semicolon, ⟨2, 7⟩⟩, ⟨.endOfInput, ⟨2, 8⟩⟩] := by
    have hchars : "// a\nreturn;".toList =
        ['/', '/', ' ', 'a', '\n', 'r', 'e', 't', 'u', 'r', 'n', ';'] := by
      simp
    rw [tokenize, hchars]
    iterate 2 rw [tokensOnto_token rfl rfl]
    rw [tokensOnto_end rfl]
    rfl
  have herror : tokenize "/* a\n" = .error (.scan ⟨2, 1⟩ .unterminatedComment) := by
    have hchars : "/* a\n".toList = ['/', '*', ' ', 'a', '\n'] := by simp
    have hgap : skipGap .blank .start ['/', '*', ' ', 'a', '\n'] =
        .error ⟨⟨2, 1⟩, .unterminatedComment⟩ := rfl
    rw [tokenize, hchars, tokensOnto_gap_error hgap]
  exact ⟨htokens, (token_positions _).1 _ htokens, herror, (token_positions _).2 _ herror⟩

end Defuse
