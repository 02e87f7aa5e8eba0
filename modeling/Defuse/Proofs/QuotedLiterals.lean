import Defuse.Proofs.Digits

namespace Defuse

open Text

namespace Scan

/-!
# Literals in quotes

What stands between the quotes of a literal, and the UTF-16 code units that it denotes.

* `Escape` — what may stand behind a backslash: a letter, octal digits, or `u` and four
  hexadecimal digits;
* `Denotes` — characters as they are, and escapes, each with its units;
* `readEscape_append`, `readEscape_ok` — the scanner reads exactly these escapes, octal ones as far
  as they go;
* `readString_append`, `readString_ok`, `readCharacter_append`, `readCharacter_ok` — and exactly
  these literals.
-/

/-! ### Escapes -/

/-- The escapes of a single character. -/
def escapeLetters : List (Char × UInt16) :=
  [('n', 0x0A), ('t', 0x09), ('r', 0x0D), ('b', 0x08), ('f', 0x0C), ('s', 0x20),
    ('\'', 0x27), ('"', 0x22), ('\\', 0x5C)]

/-- One to three octal digits of a number below 256. -/
structure IsOctal (cs : List Char) (n : Nat) : Prop where
  nonempty : cs ≠ []
  short : cs.length ≤ 3
  small : n < 256
  digits : ∃ ds, List.Forall₂ (IsDigit 8) cs ds ∧ n = Nat.ofDigits 8 ds.reverse

/-- What may stand behind a backslash, and the unit that it denotes. -/
inductive Escape : List Char → UInt16 → Prop where
  | letter {c : Char} {u : UInt16} (h : (c, u) ∈ escapeLetters) : Escape [c] u
  | octal {cs : List Char} {n : Nat} (h : IsOctal cs n) : Escape cs n.toUInt16
  | unicode {marks cs : List Char} {ds : List Nat} (hne : marks ≠ [])
      (hmarks : ∀ c ∈ marks, c = 'u') (hlength : cs.length = 4)
      (hdigits : List.Forall₂ (IsDigit 16) cs ds) :
      Escape (marks ++ cs) (Nat.ofDigits 16 ds.reverse).toUInt16

/-- The next character, if there is one, makes no longer octal number. -/
def Longest (e rest : List Char) : Prop := ∀ c ∈ rest.head?, ∀ n, ¬ IsOctal (e ++ [c]) n

/-- What may stand between two quotes, and the units that it denotes. -/
inductive Denotes (quote : Char) : List Char → List UInt16 → Prop where
  | nil : Denotes quote [] []
  | raw {c : Char} {cs : List Char} {us : List UInt16}
      (hc : c ≠ quote ∧ c ≠ '\\' ∧ c ≠ '\n') :
      Denotes quote cs us → Denotes quote (c :: cs) (unitsOfChar c ++ us)
  | escape {e cs : List Char} {u : UInt16} {us : List UInt16} (he : Escape e u)
      (hlongest : Longest e cs) :
      Denotes quote cs us → Denotes quote ('\\' :: (e ++ cs)) (u :: us)

variable {c q : Char} {cs e rest : List Char} {u : UInt16} {us : List UInt16} {p : Position}
  {k : Cursor}

/-! ### Octal escapes -/

/-- An octal number starts with an octal digit. -/
theorem IsOctal.head {n : Nat} (h : IsOctal (c :: cs) n) : ∃ d, IsDigit 8 c d := by
  obtain ⟨ds, hdigits, -⟩ := h.digits
  cases hdigits with
  | cons hc _ => exact ⟨_, hc⟩

/-- How many octal digits may follow the first one. -/
def octalRoom (c : Char) : Nat := if c ≤ '3' then 2 else 1

/-- Two more octal digits may follow one up to three, and one more any other. -/
theorem octalRoom_eq {d : Nat} (h : IsDigit 8 c d) : octalRoom c = if d ≤ 3 then 2 else 1 := by
  have hall : ∀ d < 8, octalRoom (Nat.digitChar d) = (if d ≤ 3 then 2 else 1) ∧
      octalRoom (Nat.digitChar d).toUpper = if d ≤ 3 then 2 else 1 := by decide
  obtain ⟨hlt, rfl | rfl⟩ := h
  · exact (hall d hlt).1
  · exact (hall d hlt).2

/-- Behind the first digit, as many digits as there is room for make an octal number. -/
theorem IsOctal.of_digits {d : Nat} {ds : List Nat} (hc : IsDigit 8 c d)
    (hcs : List.Forall₂ (IsDigit 8) cs ds) (hroom : cs.length ≤ octalRoom c) :
    IsOctal (c :: cs) (Nat.ofDigits 8 (d :: ds).reverse) := by
  have hd : d < 8 := hc.1
  rw [octalRoom_eq hc] at hroom
  have hshort : cs.length ≤ 2 := by
    refine Nat.le_trans hroom ?_
    split <;> omega
  refine ⟨List.cons_ne_nil _ _, Nat.succ_le_succ hshort, ?_, _, .cons hc hcs, rfl⟩
  rw [← foldl_digits]
  -- there are at most two more digits; behind a first one above 3 there is at most one
  rcases hcs with _ | ⟨h₁, _ | ⟨h₂, _ | _⟩⟩
  · simp only [List.foldl_cons, List.foldl_nil]
    omega
  · have := h₁.1
    simp only [List.foldl_cons, List.foldl_nil]
    omega
  · have := h₁.1
    have := h₂.1
    have hsmall : d ≤ 3 := by
      by_contra hlarge
      rw [if_neg hlarge] at hroom
      exact absurd hroom (by simp)
    simp only [List.foldl_cons, List.foldl_nil]
    omega
  · simp only [List.length_cons] at hshort
    omega

/-- Behind the first digit, an octal number has no more digits than there is room for. -/
theorem IsOctal.length_le {n : Nat} (h : IsOctal (c :: cs) n) : cs.length ≤ octalRoom c := by
  obtain ⟨-, hshort, hsmall, ds, hdigits, rfl⟩ := h
  rw [← foldl_digits] at hsmall
  rcases hdigits with _ | ⟨hc, hcs⟩
  rw [octalRoom_eq hc]
  rcases hcs with _ | ⟨h₁, _ | ⟨h₂, _ | _⟩⟩
  · exact Nat.zero_le _
  · simp only [List.length_cons, List.length_nil]
    split <;> omega
  · -- with a first digit above 3, three digits are too large a number
    simp only [List.foldl_cons, List.foldl_nil] at hsmall
    rw [if_pos (by omega)]
    rfl
  · simp only [List.length_cons] at hshort
    omega

/-- The last character of an octal escape is an octal digit. -/
theorem octalDigit?_of_isOctal {n : Nat} (h : IsOctal (e ++ [c]) n) :
    ∃ d, octalDigit? c = some d := by
  obtain ⟨ds, hdigits, -⟩ := h.digits
  have hlast : List.Forall₂ (IsDigit 8) [c] (ds.drop e.length) := by
    simpa using List.forall₂_drop e.length hdigits
  obtain ⟨d, _, hc, -⟩ := List.forall₂_cons_left_iff.mp hlast
  exact ⟨d, octalDigit?_eq_some.mpr hc⟩

/-- What is no octal digit ends an escape. -/
theorem Longest.of_noOctal (h : NoOctal rest) : Longest e rest := by
  intro c hc n hoctal
  obtain ⟨d, hd⟩ := octalDigit?_of_isOctal hoctal
  rw [h c hc] at hd
  cases hd

/-- An escape that starts with no octal digit ends where it ends. -/
theorem Longest.of_head (h : octalDigit? c = none) : Longest (c :: e) rest := by
  intro d _ n hoctal
  obtain ⟨v, hv⟩ := hoctal.head
  rw [← octalDigit?_eq_some, h] at hv
  cases hv

/-- Between quotes, an escape is as long as in front of them. -/
theorem longest_append_iff (hq : octalDigit? q = none) :
    Longest e (cs ++ q :: rest) ↔ Longest e cs := by
  cases cs with
  | nil =>
    have hstop : NoOctal (q :: rest) := by simpa [NoOctal] using hq
    have hnone : NoOctal [] := by simp [NoOctal]
    exact iff_of_true (.of_noOctal hstop) (.of_noOctal hnone)
  | cons c cs => rfl

/-! ### Reading escapes -/

/-- The letters that stand for units in escapes are those of the table. -/
theorem letterEscape?_eq_some : letterEscape? c = some u ↔ (c, u) ∈ escapeLetters := by
  constructor
  · intro h
    unfold letterEscape? at h
    split at h <;> cases h <;> decide
  · intro h
    have hall : ∀ x ∈ escapeLetters, letterEscape? x.1 = some x.2 := by decide
    exact hall _ h

theorem octalDigit?_of_letter (h : (c, u) ∈ escapeLetters) : octalDigit? c = none := by
  have hall : ∀ x ∈ escapeLetters, octalDigit? x.1 = none := by decide
  exact hall _ h

/-- No octal digit is one of these letters. -/
theorem letterEscape?_of_isDigit {d : Nat} (h : IsDigit 8 c d) : letterEscape? c = none := by
  have hall : ∀ d < 8, letterEscape? (Nat.digitChar d) = none ∧
      letterEscape? (Nat.digitChar d).toUpper = none := by decide
  obtain ⟨hlt, rfl | rfl⟩ := h
  · exact (hall d hlt).1
  · exact (hall d hlt).2

/-- A hexadecimal digit is no mark. -/
theorem ne_u_of_isDigit {d : Nat} (h : IsDigit 16 c d) : c ≠ 'u' := by
  rintro rfl
  rw [← hexDigit?_eq_some] at h
  cases h

/-- The marks end where the digits start. -/
theorem span_marks {marks : List Char} {ds : List Nat} (hmarks : ∀ c ∈ marks, c = 'u')
    (hdigits : List.Forall₂ (IsDigit 16) cs ds) (hlength : cs.length = 4) (rest : List Char) :
    (marks ++ (cs ++ rest)).takeWhile (· = 'u') = marks ∧
      (marks ++ (cs ++ rest)).dropWhile (· = 'u') = cs ++ rest := by
  have hpos : ∀ c ∈ marks, decide (c = 'u') = true := by simpa using hmarks
  rw [List.takeWhile_append_of_pos hpos, List.dropWhile_append_of_pos hpos]
  cases hdigits with
  | nil => cases hlength
  | cons hc _ => simp [ne_u_of_isDigit hc]

/-- **An escape is read**, in front of any text that makes no longer one of it. -/
theorem readEscape_append (h : Escape e u) (hlongest : Longest e rest) (p : Position) :
    readEscape p (e ++ rest) = .ok (u, ⟨p.afterAll e, rest⟩) := by
  cases h with
  | @letter c u hletter =>
    rw [List.singleton_append, readEscape, letterEscape?_eq_some.mpr hletter]
    rfl
  | @octal cs n hoctal =>
    obtain ⟨ds, hdigits, rfl⟩ := hoctal.digits
    cases hdigits with
    | nil => exact absurd rfl hoctal.nonempty
    | @cons c d cs ds hc hcs =>
      have hroom : cs.length ≤ octalRoom c := hoctal.length_le
      have hstop : cs.length = octalRoom c ∨ NoOctal rest := by
        by_contra hmore
        rw [not_or] at hmore
        apply hmore.2
        intro next hnext
        cases hdigit : octalDigit? next with
        | none => rfl
        | some d' =>
          -- one more digit would make the escape longer
          have hlast : List.Forall₂ (IsDigit 8) [next] [d'] :=
            .cons (octalDigit?_eq_some.mp hdigit) .nil
          have hlonger := IsOctal.of_digits hc (List.rel_append hcs hlast) (by
            rw [List.length_append, List.length_singleton]
            omega)
          exact absurd hlonger (hlongest next hnext _)
      have hread := readOctalDigits_append hcs hroom hstop d (p.after c)
      rw [← foldl_digits, List.foldl_cons, Nat.mul_zero, Nat.zero_add, List.cons_append, readEscape,
        letterEscape?_of_isDigit hc, octalDigit?_eq_some.mpr hc]
      exact congrArg Except.ok hread
  | @unicode marks cs ds hne hmarks hlength hdigits =>
    obtain ⟨first, others, rfl⟩ := List.exists_cons_of_ne_nil hne
    rw [List.forall_mem_cons] at hmarks
    obtain ⟨rfl, hothers⟩ := hmarks
    obtain ⟨htake, hdrop⟩ := span_marks hothers hdigits hlength rest
    have hread := readHexDigits_append hdigits 0 ((p.after 'u').afterAll others) rest
    rw [hlength, foldl_digits] at hread
    rw [List.cons_append, List.cons_append, List.append_assoc, readEscape]
    show readHexDigits 4 0 _ _ = _
    rw [htake, hdrop, hread]
    simp

/-- **What is read is an escape**, and no longer one stands there. -/
theorem readEscape_ok (h : readEscape p cs = .ok (u, k)) :
    ∃ e, cs = e ++ k.rest ∧ Escape e u ∧ Longest e k.rest := by
  cases cs with
  | nil => cases h
  | cons c cs =>
    rw [readEscape] at h
    -- an escape is a letter, octal digits, or the mark of four hexadecimal digits
    cases hletter : letterEscape? c with
    | some v =>
      rw [hletter] at h
      cases h
      have hc := letterEscape?_eq_some.mp hletter
      exact ⟨[c], rfl, .letter hc, .of_head (octalDigit?_of_letter hc)⟩
    | none =>
      cases hdigit : octalDigit? c with
      | some d =>
        simp only [hletter, hdigit, Except.ok.injEq] at h
        have hc : IsDigit 8 c d := octalDigit?_eq_some.mp hdigit
        obtain ⟨front, ds, back, rfl, hdigits, hroom, hstop⟩ :=
          exists_octal_split (octalRoom c) cs
        have hread := readOctalDigits_append hdigits hroom hstop d (p.after c)
        obtain ⟨rfl, rfl⟩ := Prod.mk.inj (h.symm.trans hread)
        have hoctal := IsOctal.of_digits hc hdigits hroom
        rw [← foldl_digits, List.foldl_cons, Nat.mul_zero, Nat.zero_add] at hoctal
        refine ⟨c :: front, rfl, .octal hoctal, ?_⟩
        rcases hstop with hfull | hnone
        · -- there is no room for one more digit
          intro next _ n hlonger
          have hle : (front ++ [next]).length ≤ octalRoom c := hlonger.length_le
          rw [List.length_append, List.length_singleton] at hle
          omega
        · exact .of_noOctal hnone
      | none =>
        simp only [hletter, hdigit] at h
        by_cases hc : c = 'u'
        · rw [if_pos hc] at h
          obtain ⟨digits, ds, hcs, hlength, hdigits, rfl⟩ := readHexDigits_ok h
          have hmarks : ∀ d ∈ c :: cs.takeWhile (· = 'u'), d = 'u' := by
            intro d hd
            rcases List.mem_cons.mp hd with rfl | hd
            · exact hc
            · simpa using List.all_eq_true.mp List.all_takeWhile d hd
          refine ⟨c :: cs.takeWhile (· = 'u') ++ digits, ?_, ?_, .of_head hdigit⟩
          · rw [List.cons_append, List.cons_append, List.append_assoc, ← hcs,
              List.takeWhile_append_dropWhile]
          · rw [foldl_digits]
            exact .unicode (List.cons_ne_nil _ _) hmarks hlength hdigits
        · rw [if_neg hc] at h
          cases h

/-! ### Literals -/

/-- Behind a backslash stands an escape. -/
theorem readString_escape {acc : List UInt16}
    (h : readEscape (p.after '\\') cs = .ok (u, k)) :
    readString acc p ('\\' :: cs) = readString (u :: acc) k.position k.rest := by
  rw [readString.eq_def]
  simp only [↓reduceIte, Char.reduceEq]
  split
  · next e he =>
    rw [h] at he
    cases he
  · next unit' k' he =>
    rw [h] at he
    cases he
    rfl

/-- **A string literal is read** as the text of the units that it denotes. -/
theorem readString_append (h : Denotes '"' cs us) (acc : List UInt16) (p : Position)
    (rest : List Char) :
    readString acc p (cs ++ '"' :: rest) =
      .ok (String.ofList (ofUnits (acc.reverse ++ us)), ⟨(p.afterAll cs).after '"', rest⟩) := by
  induction h generalizing acc p with
  | nil =>
    rw [List.nil_append, readString.eq_def]
    simp
  | @raw c cs us hc _ ih =>
    obtain ⟨hquote, hbackslash, hline⟩ := hc
    rw [List.cons_append, readString.eq_def]
    simp only [hquote, hbackslash, hline, ↓reduceIte]
    rw [ih]
    simp
  | @escape e cs u us he hlongest _ ih =>
    have hread : readEscape (p.after '\\') (e ++ (cs ++ '"' :: rest)) = _ :=
      readEscape_append he ((longest_append_iff rfl).mpr hlongest) _
    rw [List.cons_append, List.append_assoc, readString_escape hread, ih]
    simp

/-- **What is read is a string literal.** -/
theorem readString_ok {acc : List UInt16} {s : String} (h : readString acc p cs = .ok (s, k)) :
    ∃ body us, cs = body ++ '"' :: k.rest ∧ Denotes '"' body us ∧
      s = String.ofList (ofUnits (acc.reverse ++ us)) := by
  fun_induction readString acc p cs with
  | case1 => cases h
  | case2 => cases h
  | case3 acc p cs =>
    cases h
    exact ⟨[], [], rfl, .nil, by simp⟩
  | case4 => cases h
  | case5 acc p cs unit j _ _ hescape ih =>
    obtain ⟨body, us, hrest, hbody, rfl⟩ := ih h
    obtain ⟨e, rfl, he, hlongest⟩ := readEscape_ok hescape
    rw [hrest, longest_append_iff rfl] at hlongest
    exact ⟨'\\' :: (e ++ body), unit :: us, by simp [hrest], .escape he hlongest hbody, by simp⟩
  | case6 acc p c cs hline hquote hbackslash ih =>
    obtain ⟨body, us, rfl, hbody, rfl⟩ := ih h
    exact ⟨c :: body, unitsOfChar c ++ us, rfl, .raw ⟨hquote, hbackslash, hline⟩ hbody, by simp⟩

/-- Every character has units. -/
theorem unitsOfChar_ne_nil (c : Char) : unitsOfChar c ≠ [] := by
  unfold unitsOfChar
  split <;> exact List.cons_ne_nil _ _

/-- Only nothing denotes nothing. -/
theorem Denotes.eq_nil (h : Denotes q cs []) : cs = [] := by
  generalize hus : ([] : List UInt16) = us at h
  cases h with
  | nil => rfl
  | raw _ _ => exact absurd (List.append_eq_nil_iff.mp hus.symm).1 (unitsOfChar_ne_nil _)
  | escape _ _ _ => cases hus

/-- **A character literal is read** if it denotes a single unit. -/
theorem readCharacter_append (h : Denotes '\'' cs [u]) (p : Position) (rest : List Char) :
    readCharacter p (cs ++ '\'' :: rest) = .ok (u, ⟨(p.afterAll cs).after '\'', rest⟩) := by
  generalize hus : [u] = us at h
  cases h with
  | nil => cases hus
  | @raw c cs us hc hcs =>
    obtain ⟨hquote, hbackslash, hline⟩ := hc
    -- a character has a unit, so there is no other character
    obtain ⟨v, vs, hunits⟩ := List.exists_cons_of_ne_nil (unitsOfChar_ne_nil c)
    rw [hunits, List.cons_append] at hus
    obtain ⟨rfl, hnil⟩ := List.cons.inj hus
    obtain ⟨rfl, rfl⟩ := List.append_eq_nil_iff.mp hnil.symm
    obtain rfl := hcs.eq_nil
    apply readCharacter_eq_ok.mpr
    exact ⟨c, _, _, rfl, not_or.mpr ⟨hquote, hline⟩, .inr ⟨hbackslash, hunits, rfl⟩, rfl, rfl⟩
  | @escape e cs v us he hlongest hcs =>
    obtain ⟨rfl, rfl⟩ := List.cons.inj hus
    obtain rfl := hcs.eq_nil
    have hlongest' : Longest e ([] ++ '\'' :: rest) := (longest_append_iff rfl).mpr hlongest
    have hread := readEscape_append he hlongest' (p.after '\\')
    rw [List.append_nil]
    apply readCharacter_eq_ok.mpr
    exact ⟨'\\', _, _, rfl, by decide, .inl ⟨rfl, hread⟩, rfl, rfl⟩

/-- **What is read is a character literal** of a single unit. -/
theorem readCharacter_ok (h : readCharacter p cs = .ok (u, k)) :
    ∃ body, cs = body ++ '\'' :: k.rest ∧ Denotes '\'' body [u] := by
  obtain ⟨c, rest, j, rfl, hempty, hunit, hrest, -⟩ := readCharacter_eq_ok.mp h
  obtain ⟨hquote, hline⟩ := not_or.mp hempty
  obtain ⟨rfl, hread⟩ | ⟨hbackslash, hunits, rfl⟩ := hunit
  · obtain ⟨e, rfl, he, hlongest⟩ := readEscape_ok hread
    have hnone : octalDigit? '\'' = none := rfl
    have hend : Longest e [] := by
      rw [hrest] at hlongest
      exact (longest_append_iff hnone).mp hlongest
    have hbody : Denotes '\'' ('\\' :: (e ++ [])) [u] := .escape he hend .nil
    rw [List.append_nil] at hbody
    exact ⟨'\\' :: e, by rw [hrest, List.cons_append], hbody⟩
  · have hbody : Denotes '\'' [c] (unitsOfChar c ++ []) := .raw ⟨hquote, hbackslash, hline⟩ .nil
    rw [hunits] at hbody
    exact ⟨[c], congrArg (c :: ·) hrest, hbody⟩

end Scan

end Defuse
