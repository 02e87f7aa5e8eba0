import Mathlib.Data.List.Forall2
import Mathlib.Data.Nat.Digits.Defs
import Defuse.Body.Scan

namespace Defuse

namespace Scan

/-!
# Digits

* `IsDigit` — the digits of a radix, letters in either case;
* `hexDigit?_eq_some`, `octalDigit?_eq_some` — the digits that the scanner knows;
* `foldl_digits` — digits read one by one are the number that they denote;
* `SpellsDigits`, `naturalOfChars?_eq_some`, `ofHexDigits?_eq_some` — digits with underscores among
  them, and the whole number that they are read as;
* `readHexDigits_append`, `readHexDigits_ok` — so many hexadecimal digits are read as their number;
* `readOctalDigits_append`, `exists_octal_split` — octal digits are read as far as they go.
-/

/-- A character is the digit of a radix with this value.  Digits from ten on are letters, small or
capital. -/
def IsDigit (radix : Nat) (c : Char) (d : Nat) : Prop :=
  d < radix ∧ (c = Nat.digitChar d ∨ c = (Nat.digitChar d).toUpper)

/-! ### The digits of the scanner -/

/-- A hexadecimal digit is known in either case. -/
theorem hexDigit?_digitChar : ∀ d < 16, hexDigit? (Nat.digitChar d) = some d ∧
    hexDigit? (Nat.digitChar d).toUpper = some d := by
  decide

/-- An octal digit is known. -/
theorem octalDigit?_digitChar : ∀ d < 8, octalDigit? (Nat.digitChar d) = some d ∧
    octalDigit? (Nat.digitChar d).toUpper = some d := by
  decide

/-- The ten digits stand behind the zero, in order. -/
theorem ofNat_digit : ∀ d < 10, Char.ofNat ('0'.toNat + d) = Nat.digitChar d := by
  decide

/-- The six letters stand behind the small one, in order. -/
theorem ofNat_small : ∀ d < 6, Char.ofNat ('a'.toNat + d) = Nat.digitChar (d + 10) := by
  decide

/-- The six letters stand behind the capital one, in order. -/
theorem ofNat_capital : ∀ d < 6, Char.ofNat ('A'.toNat + d) = (Nat.digitChar (d + 10)).toUpper := by
  decide

/-- A character between two others, by the distance from the first one. -/
theorem ofNat_add_sub {c first last : Char} (h : first ≤ c ∧ c ≤ last) :
    Char.ofNat (first.toNat + (c.toNat - first.toNat)) = c ∧
      c.toNat - first.toNat ≤ last.toNat - first.toNat := by
  have hfirst : first.toNat ≤ c.toNat := h.1
  have hlast : c.toNat ≤ last.toNat := h.2
  rw [Nat.add_sub_cancel' hfirst, Char.ofNat_toNat]
  exact ⟨rfl, Nat.sub_le_sub_right hlast _⟩

/-- A digit stands between zero and nine. -/
theorem isDigit_between {c : Char} (h : c.isDigit = true) : '0' ≤ c ∧ c ≤ '9' := by
  simp only [Char.isDigit, Bool.and_eq_true, decide_eq_true_eq] at h
  exact h

/-- A decimal digit. -/
theorem exists_isDigit {c : Char} (h : c.isDigit = true) :
    IsDigit 10 c (c.toNat - '0'.toNat) := by
  obtain ⟨hc, hle⟩ := ofNat_add_sub (isDigit_between h)
  have hlt : c.toNat - '0'.toNat < 10 := Nat.lt_succ_of_le hle
  rw [ofNat_digit _ hlt] at hc
  exact ⟨hlt, .inl hc.symm⟩

/-- The hexadecimal digits are those of the radix, in either case. -/
theorem hexDigit?_eq_some {c : Char} {d : Nat} : hexDigit? c = some d ↔ IsDigit 16 c d := by
  constructor
  -- one case for each of the three ranges that the character can be in
  · intro h
    unfold hexDigit? at h
    split at h
    · next hdigit =>
      cases h
      obtain ⟨hlt, hc⟩ := exists_isDigit hdigit
      exact ⟨Nat.lt_trans hlt (by decide), hc⟩
    · split at h
      · next hsmall =>
        cases h
        obtain ⟨hc, hle⟩ := ofNat_add_sub hsmall
        have hlt : c.toNat - 'a'.toNat < 6 := Nat.lt_succ_of_le hle
        rw [ofNat_small _ hlt] at hc
        exact ⟨Nat.add_lt_add_right hlt 10, .inl hc.symm⟩
      · split at h
        · next hcapital =>
          cases h
          obtain ⟨hc, hle⟩ := ofNat_add_sub hcapital
          have hlt : c.toNat - 'A'.toNat < 6 := Nat.lt_succ_of_le hle
          rw [ofNat_capital _ hlt] at hc
          exact ⟨Nat.add_lt_add_right hlt 10, .inr hc.symm⟩
        · cases h
  · intro h
    obtain ⟨hlt, hc⟩ := h
    rcases hc with rfl | rfl
    · exact (hexDigit?_digitChar d hlt).1
    · exact (hexDigit?_digitChar d hlt).2

/-- The octal digits are those of the radix. -/
theorem octalDigit?_eq_some {c : Char} {d : Nat} : octalDigit? c = some d ↔ IsDigit 8 c d := by
  constructor
  · intro h
    unfold octalDigit? at h
    split at h
    · next hbetween =>
      cases h
      obtain ⟨hc, hle⟩ := ofNat_add_sub hbetween
      have hlt : c.toNat - '0'.toNat < 8 := Nat.lt_succ_of_le hle
      rw [ofNat_digit _ (Nat.lt_trans hlt (by decide))] at hc
      exact ⟨hlt, .inl hc.symm⟩
    · cases h
  · intro h
    obtain ⟨hlt, hc⟩ := h
    rcases hc with rfl | rfl
    · exact (octalDigit?_digitChar d hlt).1
    · exact (octalDigit?_digitChar d hlt).2

/-! ### Numbers -/

/-- Digits read one by one, the first one counting most, are the number that they denote. -/
theorem foldl_digits (radix : Nat) (ds : List Nat) :
    ds.foldl (fun n d => radix * n + d) 0 = Nat.ofDigits radix ds.reverse := by
  rw [Nat.ofDigits_eq_foldr, List.foldr_reverse]
  congr 1
  funext n d
  exact Nat.add_comm ..

/-! ### Whole numbers -/

/-- The digits of a text, where underscores are left out. -/
def SpellsDigits (radix : Nat) (cs : List Char) (ds : List Nat) : Prop :=
  List.Forall₂ (IsDigit radix) (cs.filter (· ≠ '_')) ds

/-- A digit is a digit of radix ten. -/
theorem isDigit_iff {c : Char} : c.isDigit = true ↔ ∃ d, IsDigit 10 c d := by
  constructor
  · intro h
    exact ⟨_, exists_isDigit h⟩
  · rintro ⟨d, hlt, hc⟩
    have hall : ∀ d < 10, (Nat.digitChar d).isDigit = true ∧
        (Nat.digitChar d).toUpper.isDigit = true := by decide
    rcases hc with rfl | rfl
    · exact (hall d hlt).1
    · exact (hall d hlt).2

/-- The value of a decimal digit. -/
theorem toNat_sub_of_isDigit {c : Char} {d : Nat} (h : IsDigit 10 c d) :
    c.toNat - '0'.toNat = d := by
  have hall : ∀ d < 10, (Nat.digitChar d).toNat - '0'.toNat = d ∧
      (Nat.digitChar d).toUpper.toNat - '0'.toNat = d := by decide
  obtain ⟨hlt, rfl | rfl⟩ := h
  · exact (hall d hlt).1
  · exact (hall d hlt).2

/-- Digits are the digits of some number. -/
theorem all_isDigit_iff {cs : List Char} :
    cs.all Char.isDigit = true ↔ ∃ ds, List.Forall₂ (IsDigit 10) cs ds := by
  rw [List.all_eq_true]
  constructor
  · intro h
    induction cs with
    | nil => exact ⟨[], .nil⟩
    | cons c cs ih =>
      obtain ⟨hc, hcs⟩ := List.forall_mem_cons.mp h
      obtain ⟨ds, hds⟩ := ih hcs
      exact ⟨_ :: ds, .cons (exists_isDigit hc) hds⟩
  · rintro ⟨ds, hds⟩
    induction hds with
    | nil => exact List.forall_mem_nil _
    | cons hc _ ih => exact List.forall_mem_cons.mpr ⟨isDigit_iff.mpr ⟨_, hc⟩, ih⟩

/-- Decimal digits are read as the number that they denote. -/
theorem ofDigits_eq {cs : List Char} {ds : List Nat} (h : List.Forall₂ (IsDigit 10) cs ds) :
    Decimal.ofDigits cs = Nat.ofDigits 10 ds.reverse := by
  have hfold (n : Nat) :
      cs.foldl Decimal.pushDigit n = ds.foldl (fun n d => 10 * n + d) n := by
    induction h generalizing n with
    | nil => rfl
    | cons hc _ ih =>
      rw [List.foldl_cons, List.foldl_cons, ih, Decimal.pushDigit, toNat_sub_of_isDigit hc]
  rw [Decimal.ofDigits, hfold, foldl_digits]

/-- Decimal digits are read as the number that they denote, and nothing else is read. -/
theorem naturalOfChars?_eq_some {cs : List Char} {n : Nat} :
    Decimal.naturalOfChars? cs = some n ↔
      ∃ ds, ds ≠ [] ∧ List.Forall₂ (IsDigit 10) cs ds ∧ n = Nat.ofDigits 10 ds.reverse := by
  -- there are as many digits as characters
  have hempty {ds : List Nat} (hds : List.Forall₂ (IsDigit 10) cs ds) : cs = [] ↔ ds = [] := by
    rw [← List.length_eq_zero_iff, hds.length_eq, List.length_eq_zero_iff]
  unfold Decimal.naturalOfChars?
  constructor
  · intro h
    split at h
    · next hcs =>
      rw [Bool.and_eq_true, all_isDigit_iff] at hcs
      obtain ⟨hne, ds, hds⟩ := hcs
      rw [ofDigits_eq hds, Option.some.injEq] at h
      refine ⟨ds, ?_, hds, h.symm⟩
      rw [Ne, ← hempty hds]
      simpa using hne
    · cases h
  · rintro ⟨ds, hne, hds, rfl⟩
    have hcs : (!cs.isEmpty && cs.all Char.isDigit) = true := by
      rw [Bool.and_eq_true, all_isDigit_iff]
      rw [Ne, ← hempty hds] at hne
      exact ⟨by simpa using hne, ds, hds⟩
    rw [if_pos hcs, ofDigits_eq hds]

/-- A character that is no underscore is the first digit. -/
theorem spellsDigits_cons {radix : Nat} {c : Char} {cs : List Char} {ds : List Nat}
    (hc : c ≠ '_') :
    SpellsDigits radix (c :: cs) ds ↔
      ∃ d ds', IsDigit radix c d ∧ SpellsDigits radix cs ds' ∧ ds = d :: ds' := by
  rw [SpellsDigits, List.filter_cons_of_pos (by simpa using hc), List.forall₂_cons_left_iff]
  rfl

/-- The digits of a text stand in it, and besides them underscores. -/
theorem SpellsDigits.forall_mem {radix : Nat} {cs : List Char} {ds : List Nat}
    (h : SpellsDigits radix cs ds) : ∀ c ∈ cs, c = '_' ∨ ∃ d, IsDigit radix c d := by
  induction cs generalizing ds with
  | nil => exact List.forall_mem_nil _
  | cons c cs ih =>
    by_cases hc : c = '_'
    · subst hc
      exact List.forall_mem_cons.mpr ⟨.inl rfl, ih h⟩
    · obtain ⟨d, ds', hd, hrest, -⟩ := (spellsDigits_cons hc).mp h
      exact List.forall_mem_cons.mpr ⟨.inr ⟨d, hd⟩, ih hrest⟩

/-- Digits are below their radix. -/
theorem SpellsDigits.forall_lt {radix : Nat} {cs : List Char} {ds : List Nat}
    (h : SpellsDigits radix cs ds) : ∀ d ∈ ds, d < radix := by
  unfold SpellsDigits at h
  generalize cs.filter (· ≠ '_') = front at h
  induction h with
  | nil => exact List.forall_mem_nil _
  | cons hd _ ih => exact List.forall_mem_cons.mpr ⟨hd.1, ih⟩

/-- The digits of a radix are digits of any larger one. -/
theorem SpellsDigits.mono {a b : Nat} (hab : a ≤ b) {cs : List Char} {ds : List Nat}
    (h : SpellsDigits a cs ds) : SpellsDigits b cs ds :=
  List.Forall₂.imp (fun _ _ hd => ⟨Nat.lt_of_lt_of_le hd.1 hab, hd.2⟩) h

/-- Hexadecimal digits and underscores spell the digits among them. -/
theorem spellsDigits_iff {cs : List Char} {ds : List Nat} (hcs : ∀ c ∈ cs, isHexPart c = true) :
    SpellsDigits 16 cs ds ↔ cs.filterMap hexDigit? = ds := by
  induction cs generalizing ds with
  | nil =>
    show List.Forall₂ _ [] ds ↔ [] = ds
    rw [List.forall₂_nil_left_iff, eq_comm]
  | cons c cs ih =>
    obtain ⟨hc, hrest⟩ := List.forall_mem_cons.mp hcs
    by_cases hscore : c = '_'
    -- an underscore stands for no digit
    · subst hscore
      exact ih hrest
    · obtain ⟨d, hd⟩ : ∃ d, hexDigit? c = some d := by
        simpa [isHexPart, hscore, Option.isSome_iff_exists] using hc
      rw [List.filterMap_cons_some hd, spellsDigits_cons hscore]
      constructor
      · rintro ⟨d', ds', hd', hds', rfl⟩
        rw [← hexDigit?_eq_some, hd, Option.some.injEq] at hd'
        rw [hd', (ih hrest).mp hds']
      · rintro rfl
        exact ⟨d, _, hexDigit?_eq_some.mp hd, (ih hrest).mpr rfl, rfl⟩

/-- Hexadecimal digits are read as the number that they denote. -/
theorem ofHexDigits?_eq_some {cs : List Char} {n : Nat} (hcs : ∀ c ∈ cs, isHexPart c = true) :
    ofHexDigits? cs = some n ↔
      ∃ ds, ds ≠ [] ∧ SpellsDigits 16 cs ds ∧ n = Nat.ofDigits 16 ds.reverse := by
  -- what is no digit is an underscore, and is left out
  have hread : ofHexDigits? cs = if cs.filterMap hexDigit? = [] then none
      else some (Nat.ofDigits 16 (cs.filterMap hexDigit?).reverse) := by
    unfold ofHexDigits?
    split
    · next hnil => rw [if_pos hnil]
    · next hne => rw [if_neg hne, foldl_digits]
  rw [hread]
  constructor
  · intro h
    split at h
    · cases h
    · next hne =>
      rw [Option.some.injEq] at h
      exact ⟨_, hne, (spellsDigits_iff hcs).mpr rfl, h.symm⟩
  · rintro ⟨ds, hne, hds, rfl⟩
    rw [spellsDigits_iff hcs] at hds
    rw [hds, if_neg hne]

/-! ### So many hexadecimal digits -/

/-- As many hexadecimal digits as are asked for are read off the front, onto the value so far. -/
theorem readHexDigits_append {cs : List Char} {ds : List Nat}
    (h : List.Forall₂ (IsDigit 16) cs ds) (value : Nat) (p : Position) (rest : List Char) :
    readHexDigits cs.length value p (cs ++ rest) =
      .ok ((ds.foldl (fun n d => 16 * n + d) value).toUInt16, ⟨p.afterAll cs, rest⟩) := by
  induction h generalizing value p with
  | nil => rfl
  | @cons c d cs ds hc _ ih =>
    rw [List.length_cons, List.cons_append, readHexDigits, hexDigit?_eq_some.mpr hc]
    exact ih _ _

/-- What is read are so many digits. -/
theorem readHexDigits_ok {n value : Nat} {p : Position} {cs : List Char} {u : UInt16} {k : Cursor}
    (h : readHexDigits n value p cs = .ok (u, k)) :
    ∃ front ds, cs = front ++ k.rest ∧ front.length = n ∧ List.Forall₂ (IsDigit 16) front ds ∧
      u = (ds.foldl (fun n d => 16 * n + d) value).toUInt16 := by
  induction n generalizing value p cs with
  | zero =>
    cases h
    exact ⟨[], [], rfl, rfl, .nil, rfl⟩
  | succ n ih =>
    cases cs with
    | nil => cases h
    | cons c cs =>
      rw [readHexDigits] at h
      split at h
      · next d hd =>
        obtain ⟨front, ds, rfl, hlength, hdigits, hu⟩ := ih h
        have hc : IsDigit 16 c d := hexDigit?_eq_some.mp hd
        exact ⟨c :: front, d :: ds, rfl, congrArg (· + 1) hlength, .cons hc hdigits, hu⟩
      · cases h

/-! ### Octal digits as far as they go -/

/-- No octal digit stands in front. -/
def NoOctal (cs : List Char) : Prop := ∀ c ∈ cs.head?, octalDigit? c = none

/-- Octal digits are read as far as they go, or as many as are allowed, onto the value so far. -/
theorem readOctalDigits_append {cs : List Char} {ds : List Nat}
    (h : List.Forall₂ (IsDigit 8) cs ds) {left : Nat} {rest : List Char}
    (hlength : cs.length ≤ left) (hstop : cs.length = left ∨ NoOctal rest) (value : Nat)
    (p : Position) :
    readOctalDigits left value p (cs ++ rest) =
      ((ds.foldl (fun n d => 8 * n + d) value).toUInt16, ⟨p.afterAll cs, rest⟩) := by
  induction h generalizing left value p with
  | nil =>
    rcases hstop with hzero | hnone
    · subst hzero
      cases rest <;> rfl
    · -- digits are left to be read, but none stands here
      cases rest with
      | nil => cases left <;> rfl
      | cons c rest =>
        cases left with
        | zero => rfl
        | succ left =>
          rw [List.nil_append, readOctalDigits, hnone c rfl]
          rfl
  | @cons c d cs ds hc _ ih =>
    cases left with
    | zero => exact absurd hlength (Nat.not_succ_le_zero _)
    | succ left =>
      have hlength' : cs.length ≤ left := Nat.le_of_succ_le_succ hlength
      have hstop' : cs.length = left ∨ NoOctal rest := hstop.imp_left Nat.succ.inj
      rw [List.cons_append, readOctalDigits, octalDigit?_eq_some.mpr hc]
      exact ih hlength' hstop' _ _

/-- A text starts with octal digits, at most as many as told, and with no more of them unless
these are as many as told. -/
theorem exists_octal_split (left : Nat) (cs : List Char) :
    ∃ front ds back, cs = front ++ back ∧ List.Forall₂ (IsDigit 8) front ds ∧
      front.length ≤ left ∧ (front.length = left ∨ NoOctal back) := by
  -- by induction on the number of digits that are allowed
  induction left generalizing cs with
  | zero => exact ⟨[], [], cs, rfl, .nil, Nat.le_refl 0, .inl rfl⟩
  | succ left ih =>
    cases cs with
    | nil =>
      have hnone : NoOctal [] := by simp [NoOctal]
      exact ⟨[], [], [], rfl, .nil, Nat.zero_le _, .inr hnone⟩
    | cons c cs =>
      cases hc : octalDigit? c with
      | none =>
        have hnone : NoOctal (c :: cs) := by simpa [NoOctal] using hc
        exact ⟨[], [], c :: cs, rfl, .nil, Nat.zero_le _, .inr hnone⟩
      | some d =>
        obtain ⟨front, ds, back, rfl, hdigits, hlength, hstop⟩ := ih cs
        have hdigit : IsDigit 8 c d := octalDigit?_eq_some.mp hc
        exact ⟨c :: front, d :: ds, back, rfl, .cons hdigit hdigits, Nat.succ_le_succ hlength,
          hstop.imp_left (congrArg (· + 1))⟩

end Scan

end Defuse
