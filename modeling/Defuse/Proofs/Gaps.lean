import Defuse.Body.Scan

namespace Defuse

open Text

namespace Scan

/-!
# What stands between tokens

* `IsGap` — white space and complete comments, in front of some text;
* `skipGap_isGap` — what is passed over is a gap;
* `skipGap_append` — a gap is passed over;
* `IsGap.isNamePart_head` — a name in front of a gap ends there.
-/

/-- White space and complete comments.  A comment that starts with `//` goes to the next line end,
or, where no text stands behind it, to the end of the input; a comment that starts with a slash and
a star goes to the next star and slash. -/
inductive IsGap (behind : List Char) : List Char → Prop where
  | nothing : IsGap behind []
  | blank {c : Char} {rest : List Char} (hc : isBlank c = true) :
      IsGap behind rest → IsGap behind (c :: rest)
  | line {body rest : List Char} (hbody : '\n' ∉ body) :
      IsGap behind rest → IsGap behind ('/' :: '/' :: (body ++ '\n' :: rest))
  | lastLine {body : List Char} (hbody : '\n' ∉ body) (hend : behind = []) :
      IsGap behind ('/' :: '/' :: body)
  | block {body rest : List Char} (hbody : ¬ ['*', '/'] <:+: body) :
      IsGap behind rest → IsGap behind ('/' :: '*' :: (body ++ '*' :: '/' :: rest))

/-- The characters that a gap is in the middle of starts with. -/
def Gap.mark : Gap → List Char
  | .blank => []
  | .line => ['/', '/']
  | .block => ['/', '*']

namespace IsGap

variable {behind taken : List Char} {c : Char}

/-- A comment up to the end of the line takes one more character. -/
theorem line_cons (h : IsGap behind ('/' :: '/' :: taken)) (hc : c ≠ '\n') :
    IsGap behind ('/' :: '/' :: c :: taken) := by
  cases h with
  | blank hblank _ => exact absurd hblank (by decide)
  | @line body rest hbody hrest =>
    show IsGap behind ('/' :: '/' :: (c :: body ++ '\n' :: rest))
    refine line ?_ hrest
    rw [List.mem_cons, not_or]
    exact ⟨hc.symm, hbody⟩
  | lastLine hbody hend =>
    refine lastLine ?_ hend
    rw [List.mem_cons, not_or]
    exact ⟨hc.symm, hbody⟩

/-- A comment up to its closing mark takes one more character, which does not close it. -/
theorem block_cons (h : IsGap behind ('/' :: '*' :: taken))
    (hclose : ∀ rest, c = '*' → taken = '/' :: rest → False) :
    IsGap behind ('/' :: '*' :: c :: taken) := by
  cases h with
  | blank hblank _ => exact absurd hblank (by decide)
  | @block body rest hbody hrest =>
    show IsGap behind ('/' :: '*' :: (c :: body ++ '*' :: '/' :: rest))
    refine block ?_ hrest
    rw [List.infix_cons_iff, not_or]
    refine ⟨?_, hbody⟩
    -- a closing mark in front would go on with the next character
    intro hmark
    obtain ⟨after, hafter⟩ := hmark
    obtain ⟨hstar, hslash⟩ := List.cons.inj hafter
    rw [← hslash] at hclose
    exact hclose _ hstar.symm rfl

end IsGap

variable {p : Position} {cs : List Char}

/-- **What is passed over is a gap**, to which the mark belongs that it is in the middle of. -/
theorem skipGap_isGap {g : Gap} {k : Cursor} (h : skipGap g p cs = .ok k) :
    ∃ taken, cs = taken ++ k.rest ∧ IsGap k.rest (g.mark ++ taken) := by
  -- one case for each step of the scanner: between comments, in one of a line, in one of a block
  fun_induction skipGap g p cs with
  | case1 p =>
    cases h
    exact ⟨[], rfl, .nothing⟩
  | case2 p =>
    cases h
    exact ⟨[], rfl, .lastLine List.not_mem_nil rfl⟩
  | case3 => cases h
  | case4 p cs ih =>
    obtain ⟨taken, rfl, hgap⟩ := ih h
    exact ⟨'/' :: '/' :: taken, rfl, hgap⟩
  | case5 p cs ih =>
    obtain ⟨taken, rfl, hgap⟩ := ih h
    exact ⟨'/' :: '*' :: taken, rfl, hgap⟩
  | case6 p c cs _ _ hblank ih =>
    obtain ⟨taken, rfl, hgap⟩ := ih h
    exact ⟨c :: taken, rfl, .blank hblank hgap⟩
  | case7 p c cs =>
    cases h
    exact ⟨[], rfl, .nothing⟩
  | case8 p c cs ih =>
    obtain ⟨taken, rfl, hgap⟩ := ih h
    refine ⟨c :: taken, rfl, ?_⟩
    by_cases hc : c = '\n'
    · -- the line ends here, and the comment with it
      subst hc
      show IsGap k.rest ('/' :: '/' :: ([] ++ '\n' :: taken))
      exact .line List.not_mem_nil hgap
    · rw [if_neg hc] at hgap
      exact .line_cons hgap hc
  | case9 p cs ih =>
    obtain ⟨taken, rfl, hgap⟩ := ih h
    have hempty : ¬ ['*', '/'] <:+: [] := by decide
    refine ⟨'*' :: '/' :: taken, rfl, ?_⟩
    show IsGap k.rest ('/' :: '*' :: ([] ++ '*' :: '/' :: taken))
    exact .block hempty hgap
  | case10 p c cs hclose ih =>
    obtain ⟨taken, rfl, hgap⟩ := ih h
    refine ⟨c :: taken, rfl, .block_cons hgap ?_⟩
    rintro rest hc rfl
    exact hclose (rest ++ k.rest) hc rfl

/-! ### Passing over a gap -/

/-- A comment up to the end of the line is passed over with its line end. -/
theorem skipGap_line {body : List Char} (hbody : '\n' ∉ body) (p : Position) (rest : List Char) :
    skipGap .line p (body ++ '\n' :: rest) =
      skipGap .blank (p.afterAll (body ++ ['\n'])) rest := by
  induction body generalizing p with
  | nil => rfl
  | cons c body ih =>
    rw [List.mem_cons, not_or] at hbody
    rw [List.cons_append, skipGap, if_neg (Ne.symm hbody.1), ih hbody.2]
    rfl

/-- A comment on the last line is passed over with all that is left. -/
theorem skipGap_lastLine {body : List Char} (hbody : '\n' ∉ body) (p : Position) :
    skipGap .line p body = .ok ⟨p.afterAll body, []⟩ := by
  induction body generalizing p with
  | nil => rfl
  | cons c body ih =>
    rw [List.mem_cons, not_or] at hbody
    rw [skipGap, if_neg (Ne.symm hbody.1), ih hbody.2]
    rfl

/-- A comment up to its closing mark is passed over with the mark. -/
theorem skipGap_block {body : List Char} (hbody : ¬ ['*', '/'] <:+: body) (p : Position)
    (rest : List Char) :
    skipGap .block p (body ++ '*' :: '/' :: rest) =
      skipGap .blank (p.afterAll (body ++ ['*', '/'])) rest := by
  induction body generalizing p with
  | nil => rfl
  | cons c body ih =>
    rw [List.infix_cons_iff, not_or] at hbody
    rw [List.cons_append, skipGap]
    · rw [ih hbody.2]
      rfl
    · -- no mark starts in the body: behind a star there is no slash
      intro tail hc hslash
      subst hc
      cases body with
      | nil => cases hslash
      | cons d body =>
        obtain ⟨rfl, -⟩ := List.cons.inj hslash
        exact hbody.1 ⟨body, rfl⟩

/-- **A gap is passed over**, whatever stands behind it. -/
theorem skipGap_append {gap rest : List Char} (h : IsGap rest gap) (p : Position) :
    skipGap .blank p (gap ++ rest) = skipGap .blank (p.afterAll gap) rest := by
  -- by induction on the gap, which goes on with a blank, a comment of a line, or a block comment
  induction h generalizing p with
  | nothing => rfl
  | @blank c gap hc _ ih =>
    have hslash : c ≠ '/' := by
      rintro rfl
      exact absurd hc (by decide)
    rw [List.cons_append, skipGap, if_pos hc]
    · exact ih _
    · exact fun _ hc' _ => hslash hc'
    · exact fun _ hc' _ => hslash hc'
  | @line body gap hbody _ ih =>
    have hchars : '/' :: '/' :: (body ++ '\n' :: gap) ++ rest =
        '/' :: '/' :: (body ++ '\n' :: (gap ++ rest)) := by simp
    rw [hchars, skipGap, skipGap_line hbody, ih]
    simp
  | @lastLine body hbody hend =>
    subst hend
    rw [List.append_nil]
    show skipGap .line (p.afterAll ['/', '/']) body = _
    rw [skipGap_lastLine hbody]
    rfl
  | @block body gap hbody _ ih =>
    have hchars : '/' :: '*' :: (body ++ '*' :: '/' :: gap) ++ rest =
        '/' :: '*' :: (body ++ '*' :: '/' :: (gap ++ rest)) := by simp
    rw [hchars, skipGap, skipGap_block hbody, ih]
    simp

/-! ### Gaps and names -/

/-- The code points of a set that ends before the last one of an even number of bounds. -/
def points : List Nat → List Nat
  | a :: b :: bs => List.range' a (b - a) ++ points bs
  | _ => []

/-- A number behind an odd number of bounds lies between the two of a pair. -/
theorem mem_points {n : Nat} {bs : List Nat} (heven : bs.length % 2 = 0)
    (h : flipped n bs false = true) : n ∈ points bs := by
  -- the bounds are taken off in pairs: a number lies before the pair, inside it, or behind it
  fun_induction points bs with
  | case1 a b bs ih =>
    rw [flipped, flipped] at h
    rw [List.mem_append, List.mem_range'_1]
    by_cases ha : n < a
    · rw [if_pos ha] at h
      cases h
    · rw [if_neg ha] at h
      by_cases hb : n < b
      · exact .inl (by omega)
      · rw [if_neg hb] at h
        have hrest : bs.length % 2 = 0 := by
          simp only [List.length_cons] at heven
          omega
        exact .inr (ih hrest h)
  | case2 bs hpair =>
    cases bs with
    | nil => cases h
    | cons a bs =>
      cases bs with
      | nil => cases heven
      | cons b bs => exact (hpair a b bs rfl).elim

/-- White space is no part of a name. -/
theorem isNamePart_of_isBlank {c : Char} (h : isBlank c = true) : isNamePart c = false := by
  have hall : ∀ n ∈ points blank.bounds, isNamePart (Char.ofNat n) = false := by decide +kernel
  have hpart := hall _ (mem_points rfl h)
  rwa [Char.ofNat_toNat] at hpart

/-- A gap starts with no part of a name. -/
theorem IsGap.isNamePart_head {behind gap : List Char} (h : IsGap behind gap) :
    ∀ c ∈ gap.head?, isNamePart c = false := by
  have hslash : isNamePart '/' = false := by decide +kernel
  cases h with
  | nothing => simp
  | blank hc _ => simpa using isNamePart_of_isBlank hc
  | line _ _ => simpa using hslash
  | lastLine _ _ => simpa using hslash
  | block _ _ => simpa using hslash

end Scan

end Defuse
