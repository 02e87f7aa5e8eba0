import Defuse.Body.Parse
import Defuse.Proofs.QuotedLiterals
import Defuse.Proofs.TextRoundTrip

namespace Defuse

/-!
# Source texts

* `Scan.tokensOnto_token`, `Scan.tokensOnto_end` — one token after another;
* `Scan.IsPlain` — a text that a literal can hold as it is;
* `Scan.IsPlain.denotes` — such a literal denotes its units;
* `parseBody_returnString` — the source text that returns it;
* `parseBody_throwLetters` — the source text that throws a new object of a class with a name of
  so many letters.
-/

/-- No keyword is longer than `return`. -/
theorem Token.ofWord_of_length {text : String} (h : 6 < text.length) :
    Token.ofWord text = .name text := by
  have hnone : Token.keyword? text = none := by
    unfold Token.keyword?
    split
    case h_7 => rfl
    all_goals exact absurd h (by decide)
  rw [Token.ofWord, hnone]
  rfl

namespace Scan

open Text

/-! ### One token after another -/

/-- Behind a gap stands a token, and the others stand behind it. -/
theorem tokensOnto_token {acc : List Located} {p q : Position} {cs rest : List Char} {c : Char}
    {token : Token} {k : Cursor} (hgap : skipGap .blank p cs = .ok ⟨q, c :: rest⟩)
    (htoken : readToken q c rest = .ok (token, k)) :
    tokensOnto acc p cs = tokensOnto (⟨token, q⟩ :: acc) k.position k.rest := by
  rw [tokensOnto.eq_def acc p cs]
  split
  · next e he =>
    rw [hgap] at he
    cases he
  · next he =>
    rw [hgap] at he
    cases he
  · next q' c' rest' he =>
    rw [hgap] at he
    cases he
    split
    · next e he =>
      rw [htoken] at he
      cases he
    · next token' k' he =>
      rw [htoken] at he
      cases he
      rfl

/-- Behind the last gap the input ends. -/
theorem tokensOnto_end {acc : List Located} {p q : Position} {cs : List Char}
    (hgap : skipGap .blank p cs = .ok ⟨q, []⟩) :
    tokensOnto acc p cs = .ok (⟨.endOfInput, q⟩ :: acc).reverse := by
  rw [tokensOnto.eq_def]
  split
  · next e he =>
    rw [hgap] at he
    cases he
  · next he =>
    rw [hgap] at he
    cases he
    rfl
  · next he =>
    rw [hgap] at he
    cases he

/-- Where a gap cannot be passed over, no token is read. -/
theorem tokensOnto_gap_error {acc : List Located} {p : Position} {cs : List Char} {e : Failure}
    (hgap : skipGap .blank p cs = .error e) :
    tokensOnto acc p cs = .error e := by
  rw [tokensOnto.eq_def]
  split
  · next f hf =>
    rw [hgap] at hf
    cases hf
    rfl
  · next hk =>
    rw [hgap] at hk
    cases hk
  · next hk =>
    rw [hgap] at hk
    cases hk

/-- Where no token can be read behind the gap, none is. -/
theorem tokensOnto_token_error {acc : List Located} {p q : Position} {cs rest : List Char}
    {c : Char} {e : Failure} (hgap : skipGap .blank p cs = .ok ⟨q, c :: rest⟩)
    (htoken : readToken q c rest = .error e) : tokensOnto acc p cs = .error e := by
  rw [tokensOnto.eq_def]
  split
  · next f hf =>
    rw [hgap] at hf
    cases hf
  · next hk =>
    rw [hgap] at hk
    cases hk
  · next hk =>
    rw [hgap] at hk
    cases hk
    split
    · next f hf =>
      rw [htoken] at hf
      cases hf
      rfl
    · next hf =>
      rw [htoken] at hf
      cases hf

/-! ### String literals -/

/-- A text that a literal can hold as it is. -/
def IsPlain (cs : List Char) : Prop := ∀ c ∈ cs, c ≠ '"' ∧ c ≠ '\\' ∧ c ≠ '\n'

/-- A plain text denotes its units. -/
theorem IsPlain.denotes {cs : List Char} (h : IsPlain cs) : Denotes '"' cs (unitsOf cs) := by
  induction cs with
  | nil => exact .nil
  | cons c cs ih =>
    obtain ⟨hc, hcs⟩ := List.forall_mem_cons.mp h
    exact .raw hc (ih hcs)

/-- A quotation mark starts a string literal. -/
theorem readToken_string {body : List Char} {us : List UInt16} (h : Denotes '"' body us)
    (p : Position) (rest : List Char) :
    readToken p '"' (body ++ '"' :: rest) =
      .ok (.string (String.ofList (ofUnits us)),
        ⟨((p.after '"').afterAll body).after '"', rest⟩) := by
  have hread := readString_append h [] (p.after '"') rest
  rw [List.reverse_nil, List.nil_append] at hread
  unfold readToken
  simp only [single?, hread, ↓reduceIte]
  rfl

/-- An apostrophe starts a character literal. -/
theorem readToken_character {body : List Char} {u : UInt16} (h : Denotes '\'' body [u])
    (p : Position) (rest : List Char) :
    readToken p '\'' (body ++ '\'' :: rest) =
      .ok (.char u, ⟨((p.after '\'').afterAll body).after '\'', rest⟩) := by
  have hread := readCharacter_append h (p.after '\'') rest
  unfold readToken
  simp only [single?, hread, ↓reduceIte]
  rfl

/-! ### Names of letters -/

/-- A name of equal letters goes as far as they do. -/
theorem readWord_letters (n : Nat) (p : Position) (rest : List Char) :
    readWord p (List.replicate n 'a' ++ '(' :: rest) =
      (.ofWord (String.ofList (List.replicate n 'a')),
        ⟨p.afterAll (List.replicate n 'a'), '(' :: rest⟩) := by
  have hpart : ∀ c ∈ List.replicate n 'a', isNamePart c = true := by
    intro c hc
    rw [List.eq_of_mem_replicate hc]
    decide
  have hstop : isNamePart '(' = false := by decide +kernel
  rw [readWord, List.takeWhile_append_of_pos hpart, List.dropWhile_append_of_pos hpart]
  simp [hstop]

/-- A letter starts a name. -/
theorem readToken_letters {n : Nat} (h : 6 < n + 1) (p : Position) (rest : List Char) :
    readToken p 'a' (List.replicate n 'a' ++ '(' :: rest) =
      .ok (.name (String.ofList (List.replicate (n + 1) 'a')),
        ⟨p.afterAll (List.replicate (n + 1) 'a'), '(' :: rest⟩) := by
  have hstart : isNameStart 'a' = true := by decide
  have hname : Token.ofWord (String.ofList (List.replicate (n + 1) 'a')) =
      .name (String.ofList (List.replicate (n + 1) 'a')) := by
    apply Token.ofWord_of_length
    simpa using h
  have hword := readWord_letters (n + 1) p rest
  rw [hname, List.replicate_succ, List.cons_append] at hword
  unfold readToken
  simp only [single?, hstart, hword]
  rfl

end Scan

open Scan Text

/-- The source text that returns a plain text. -/
def returnString (text : String) : String := "return \"" ++ text ++ "\";"

/-- Its tokens. -/
theorem tokenize_returnString {text : String} (h : IsPlain text.toList) :
    ∃ p q r, tokenize (returnString text) =
      .ok [⟨.return, .start⟩, ⟨.string text, p⟩, ⟨.semicolon, q⟩, ⟨.endOfInput, r⟩] := by
  have hchars : (returnString text).toList =
      'r' :: 'e' :: 't' :: 'u' :: 'r' :: 'n' :: ' ' :: '"' :: (text.toList ++ '"' :: [';']) := by
    simp [returnString]
  have hword (rest : List Char) :
      readToken .start 'r' ('e' :: 't' :: 'u' :: 'r' :: 'n' :: ' ' :: rest) =
        .ok (.return, ⟨⟨1, 7⟩, ' ' :: rest⟩) := rfl
  have hunits : ofUnits (unitsOf text.toList) = text.toList := ofUnits_unitsOf _
  have hstring := readToken_string h.denotes ⟨1, 8⟩ [';']
  rw [hunits, String.ofList_toList] at hstring
  -- where the literal ends depends on the text
  generalize (((⟨1, 8⟩ : Position).after '"').afterAll text.toList).after '"' = q at hstring
  have hsemicolon : readToken q ';' [] = .ok (.semicolon, ⟨q.after ';', []⟩) := rfl
  refine ⟨⟨1, 8⟩, q, q.after ';', ?_⟩
  rw [tokenize, hchars, tokensOnto_token rfl (hword _), tokensOnto_token rfl hstring,
    tokensOnto_token rfl hsemicolon, tokensOnto_end rfl]
  rfl

/-- The source text is a single statement. -/
theorem parseBody_returnString {text : String} (h : IsPlain text.toList) :
    parseBody (returnString text) = .ok [.return (some (.string text))] := by
  obtain ⟨p, q, r, htokens⟩ := tokenize_returnString h
  rw [parseBody, htokens]
  rfl

/-- The source text that throws a new object of a class with a name of `n` letters. -/
def throwLetters (n : Nat) : String :=
  "throw new " ++ String.ofList (List.replicate n 'a') ++ "();"

/-- Its tokens. -/
theorem tokenize_throwLetters {n : Nat} (h : 6 < n) :
    ∃ p q r s, tokenize (throwLetters n) =
      .ok [⟨.throw, .start⟩, ⟨.new, ⟨1, 7⟩⟩,
        ⟨.name (String.ofList (List.replicate n 'a')), ⟨1, 11⟩⟩, ⟨.leftParen, p⟩,
        ⟨.rightParen, q⟩, ⟨.semicolon, r⟩, ⟨.endOfInput, s⟩] := by
  obtain ⟨m, rfl⟩ : ∃ m, n = m + 1 := Nat.exists_eq_add_one.mpr (by omega)
  have hchars : (throwLetters (m + 1)).toList =
      't' :: 'h' :: 'r' :: 'o' :: 'w' :: ' ' :: 'n' :: 'e' :: 'w' :: ' ' ::
        'a' :: (List.replicate m 'a' ++ '(' :: [')', ';']) := by
    simp [throwLetters, List.replicate_succ]
  have hthrow (rest : List Char) :
      readToken .start 't' ('h' :: 'r' :: 'o' :: 'w' :: ' ' :: rest) =
        .ok (.throw, ⟨⟨1, 6⟩, ' ' :: rest⟩) := rfl
  have hnew (rest : List Char) :
      readToken ⟨1, 7⟩ 'n' ('e' :: 'w' :: ' ' :: rest) = .ok (.new, ⟨⟨1, 10⟩, ' ' :: rest⟩) := rfl
  have hname := readToken_letters h ⟨1, 11⟩ [')', ';']
  -- where the name ends depends on its length
  generalize (⟨1, 11⟩ : Position).afterAll (List.replicate (m + 1) 'a') = p at hname
  refine ⟨p, p.after '(', (p.after '(').after ')', ((p.after '(').after ')').after ';', ?_⟩
  rw [tokenize, hchars, tokensOnto_token rfl (hthrow _), tokensOnto_token rfl (hnew _),
    tokensOnto_token rfl hname]
  iterate 3 rw [tokensOnto_token rfl rfl]
  rw [tokensOnto_end rfl]
  rfl

/-- The source text is a single statement. -/
theorem parseBody_throwLetters {n : Nat} (h : 6 < n) :
    parseBody (throwLetters n) =
      .ok [.throw (.new (String.ofList (List.replicate n 'a')) [])] := by
  obtain ⟨p, q, r, s, htokens⟩ := tokenize_throwLetters h
  rw [parseBody, htokens]
  show Except.ok [Statement.throw (.new ("" ++ _) [])] = _
  rw [String.empty_append]

end Defuse
