import Defuse.Backup
import Defuse.Proofs.Paths

namespace Defuse

/-!
# Names of backups

The name of a backup is one text without marks between its parts, and still says what it was made
from: the stem and the suffix are those of the archive, the parts of the stamp are digits with
other characters between them, and so is the number.

* `append_inj_of_all` — characters of a kind end where those of other kinds begin;
* `Stamp.chars_append_inj` — a stamp is read off the front of a text;
* `Backup.nameOf_eq_iff` — so a name says which stamp and which number it was made from;
* `Backup.isName_nameOf` — it is a name that a path can end in, whatever the stamp;
* `Backup.backup_names` — hence the same of the paths; all lie in the directory of the archive, and
  none is its own.
-/

/-- Characters of a kind, with none of that kind behind them, are cut off a text in one way. -/
theorem append_inj_of_all {f : Char → Bool} {cs ds x y : List Char} (hcs : ∀ c ∈ cs, f c = true)
    (hds : ∀ c ∈ ds, f c = true) (hx : ∀ c ∈ x.head?, f c = false)
    (hy : ∀ c ∈ y.head?, f c = false) (h : cs ++ x = ds ++ y) : cs = ds ∧ x = y := by
  have htake {zs : List Char} (hz : ∀ c ∈ zs.head?, f c = false) : zs.takeWhile f = [] := by
    cases zs with
    | nil => rfl
    | cons c zs => rw [List.takeWhile_cons, hz c rfl]; rfl
  have hfront := congrArg (List.takeWhile f) h
  rw [List.takeWhile_append_of_pos hcs, List.takeWhile_append_of_pos hds, htake hx, htake hy,
    List.append_nil, List.append_nil] at hfront
  exact ⟨hfront, List.append_cancel_left (hfront ▸ h)⟩

/-! ### Stamps -/

namespace Stamp

/-- A text that does not go on with a digit. -/
def NoDigit (cs : List Char) : Prop := ∀ c ∈ cs.head?, c.isDigit = false

/-- What starts with another character than a digit does not go on a number in front of it. -/
theorem noDigit_cons {c : Char} (h : c.isDigit = false) (cs : List Char) : NoDigit (c :: cs) := by
  rintro d hd
  obtain rfl := Option.some.inj hd
  exact h

/-- A padded number has digits only. -/
theorem isDigit_padded {width n : Nat} : ∀ c ∈ padded width n, c.isDigit = true := by
  intro c hc
  rcases List.mem_append.mp hc with hzero | hdigit
  · rw [List.eq_of_mem_replicate hzero]
    rfl
  · exact Nat.isDigit_of_mem_toDigits (by decide) (by decide) hdigit

/-- The zeros in front of a number do not change it. -/
theorem ofDigitChars_padded (width n : Nat) : Nat.ofDigitChars 10 (padded width n) 0 = n := by
  rw [padded, Nat.ofDigitChars_append, Nat.ofDigitChars_replicate_zero, Nat.mul_zero,
    Nat.ofDigitChars_ten_toDigits]

/-- A number is read off the front of a text, however many zeros stand in front of it. -/
theorem padded_append_inj {width m n : Nat} {x y : List Char} (hx : NoDigit x) (hy : NoDigit y)
    (h : padded width m ++ x = padded width n ++ y) : m = n ∧ x = y := by
  obtain ⟨hdigits, hrest⟩ := append_inj_of_all isDigit_padded isDigit_padded hx hy h
  refine ⟨?_, hrest⟩
  calc m = Nat.ofDigitChars 10 (padded width m) 0 := (ofDigitChars_padded width m).symm
    _ = Nat.ofDigitChars 10 (padded width n) 0 := by rw [hdigits]
    _ = n := ofDigitChars_padded width n

/-- The sign in front of a year. -/
def sign (year : Int) : List Char :=
  if year < 0 then ['-'] else if 9999 < year then ['+'] else []

/-- A year is written as its sign, where it has one, and at least four digits. -/
theorem yearText_eq (year : Int) : yearText year = sign year ++ padded 4 year.natAbs := by
  unfold yearText sign
  dsimp only
  split
  · rfl
  · split <;> rfl

/-- A sign is a minus, a plus or nothing. -/
theorem eq_of_mem_sign {year : Int} {c : Char} (h : c ∈ sign year) : c = '-' ∨ c = '+' := by
  unfold sign at h
  split at h
  · exact .inl (List.mem_singleton.mp h)
  · split at h
    · exact .inr (List.mem_singleton.mp h)
    · cases h

/-- The sign and the size of a year say which year it is: the plus sign depends on the size
alone. -/
theorem eq_of_sign_eq {a b : Int} (hsign : sign a = sign b) (habs : a.natAbs = b.natAbs) :
    a = b := by
  have hneg : a < 0 ↔ b < 0 := by
    have hminus (year : Int) : sign year = ['-'] ↔ year < 0 := by
      unfold sign
      split
      · next h => simp [h]
      · next h => split <;> simp [h]
    rw [← hminus, ← hminus, hsign]
  omega

/-- A year and what follows it can be told apart, as long as no digit follows. -/
theorem yearText_append_inj {a b : Int} {x y : List Char} (hx : NoDigit x) (hy : NoDigit y)
    (h : yearText a ++ x = yearText b ++ y) : a = b ∧ x = y := by
  -- the sign ends at the first digit, and the digits end where the rest starts
  have hsign (year : Int) : ∀ c ∈ sign year, (!c.isDigit) = true := by
    intro c hc
    rcases eq_of_mem_sign hc with rfl | rfl <;> rfl
  have hdigits (n : Nat) (z : List Char) : ∀ c ∈ (padded 4 n ++ z).head?, (!c.isDigit) = false := by
    intro c hc
    have hne : padded 4 n ≠ [] := by simp [padded, Nat.toDigits_ne_nil]
    obtain ⟨d, ds, hcons⟩ := List.exists_cons_of_ne_nil hne
    have hd : d.isDigit = true := isDigit_padded d (hcons ▸ List.mem_cons_self)
    rw [hcons] at hc
    obtain rfl : d = c := Option.some.inj hc
    rw [hd]
    rfl
  rw [yearText_eq, yearText_eq, List.append_assoc, List.append_assoc] at h
  obtain ⟨hsame, hrest⟩ := append_inj_of_all (hsign a) (hsign b) (hdigits _ x) (hdigits _ y) h
  obtain ⟨habs, hrest⟩ := padded_append_inj hx hy hrest
  exact ⟨eq_of_sign_eq hsame habs, hrest⟩

/-- A stamp is read off the front of a text. -/
theorem chars_append_inj {s t : Stamp} {x y : List Char} (hx : NoDigit x) (hy : NoDigit y)
    (h : s.chars ++ x = t.chars ++ y) : s = t ∧ x = y := by
  have hdot (cs : List Char) : NoDigit ('.' :: cs) := noDigit_cons rfl cs
  have hscore (cs : List Char) : NoDigit ('_' :: cs) := noDigit_cons rfl cs
  simp only [chars, List.append_assoc, List.cons_append] at h
  obtain ⟨hyear, h⟩ := yearText_append_inj (hdot _) (hdot _) h
  obtain ⟨hmonth, h⟩ := padded_append_inj (hdot _) (hdot _) (List.cons.inj h).2
  obtain ⟨hday, h⟩ := padded_append_inj (hscore _) (hscore _) (List.cons.inj h).2
  obtain ⟨hhour, h⟩ := padded_append_inj (hdot _) (hdot _) (List.cons.inj h).2
  obtain ⟨hminute, h⟩ := padded_append_inj (hdot _) (hdot _) (List.cons.inj h).2
  obtain ⟨hsecond, h⟩ := padded_append_inj hx hy (List.cons.inj h).2
  refine ⟨?_, h⟩
  cases s
  cases t
  simp_all

/-- A stamp has digits, signs and separators, but no slash. -/
theorem slash_not_mem_chars (s : Stamp) : '/' ∉ s.chars := by
  have hpadded (width n : Nat) : '/' ∉ padded width n := by
    intro h
    have hdigit := isDigit_padded _ h
    cases hdigit
  have hsign : '/' ∉ sign s.year := by
    intro h
    rcases eq_of_mem_sign h with h | h <;> exact absurd h (by decide)
  simp [chars, yearText_eq, hpadded, hsign]

end Stamp

/-! ### Names -/

namespace Backup

open Stamp (NoDigit noDigit_cons)

/-- What the number of a backup adds to its name. -/
def numberChars (n : Nat) : List Char := if n = 0 then [] else '_' :: Nat.toDigits 10 n

/-- The parts of a backup name in their order, as characters. -/
theorem toList_nameOf (stem : String) (suffix? : Option String) (s : Stamp) (n : Nat) :
    (nameOf stem suffix? s n).toList = stem.toList ++
      '_' :: (s.chars ++ (numberChars n ++ (".orig".toList ++ Path.suffixChars suffix?))) := by
  have hnumber : (if n = 0 then "" else "_" ++ n.repr).toList = numberChars n := by
    unfold numberChars
    split
    · rfl
    · rw [String.toList_append, Nat.toList_repr]
      rfl
  have hscore : "_".toList = ['_'] := rfl
  unfold nameOf
  cases suffix? with
  | none => simp [hnumber, hscore, Path.suffixChars, Stamp.text]
  | some suffix => simp [hnumber, hscore, Path.suffixChars, Stamp.text]

/-- Behind the stamp, the number is told from what follows it. -/
theorem numberChars_inj {m n : Nat} (h : numberChars m = numberChars n) : m = n := by
  unfold numberChars at h
  split at h
  · next hm =>
    split at h
    · next hn => rw [hm, hn]
    · cases h
  · split at h
    · cases h
    · calc m = Nat.ofDigitChars 10 (Nat.toDigits 10 m) 0 := Nat.ofDigitChars_ten_toDigits.symm
        _ = Nat.ofDigitChars 10 (Nat.toDigits 10 n) 0 := by rw [(List.cons.inj h).2]
        _ = n := Nat.ofDigitChars_ten_toDigits

/-- The number of a backup starts with an underscore or is left out, so it does not go on the digits
of the stamp. -/
theorem noDigit_numberChars (n : Nat) : NoDigit (numberChars n) := by
  unfold numberChars
  split
  · simp [NoDigit]
  · exact noDigit_cons rfl _

/-- A name says which stamp and which number it was made from. -/
theorem nameOf_eq_iff {stem : String} {suffix? : Option String} {s t : Stamp} {m n : Nat} :
    nameOf stem suffix? s m = nameOf stem suffix? t n ↔ s = t ∧ m = n := by
  constructor
  · intro h
    have hchars := congrArg String.toList h
    rw [toList_nameOf, toList_nameOf] at hchars
    generalize ".orig".toList ++ Path.suffixChars suffix? = rest at hchars
    have hbehind := (List.cons.inj (List.append_cancel_left hchars)).2
    rw [← List.append_assoc, ← List.append_assoc] at hbehind
    obtain ⟨hstamp, hnumber⟩ := Stamp.chars_append_inj (noDigit_numberChars m)
      (noDigit_numberChars n) (List.append_cancel_right hbehind)
    exact ⟨hstamp, numberChars_inj hnumber⟩
  · rintro ⟨rfl, rfl⟩
    rfl

/-- The name of a backup is longer than the name of the archive. -/
theorem length_nameOf (name : String) (s : Stamp) (n : Nat) :
    name.toList.length + 6 ≤
      (nameOf (Path.stem name) (Path.suffix? name) s n).toList.length := by
  have hname := congrArg List.length (Path.toList_eq_stem_suffix name)
  have hown := congrArg List.length
    (toList_nameOf (Path.stem name) (Path.suffix? name) s n)
  have horig : ".orig".toList.length = 5 := rfl
  simp only [List.length_append, List.length_cons, horig] at hname hown
  omega

/-- The name of a backup is one. -/
theorem isName_nameOf {name : String} (h : Path.IsName name) (s : Stamp) (n : Nat) :
    Path.IsName (nameOf (Path.stem name) (Path.suffix? name) s n) := by
  have hlength := length_nameOf name s n
  -- the names that stand for directories are shorter than any backup name
  have hshort {short : String} (hs : short.toList.length < 6) :
      nameOf (Path.stem name) (Path.suffix? name) s n ≠ short := by
    rintro rfl
    omega
  refine ⟨hshort (by decide), hshort (by decide), hshort (by decide), ?_⟩
  have hno := h.no_slash
  rw [Path.toList_eq_stem_suffix name, List.mem_append, not_or] at hno
  have hnumber : '/' ∉ numberChars n := by
    unfold numberChars
    split
    · simp
    · rw [List.mem_cons, not_or]
      refine ⟨by decide, fun hdigit => ?_⟩
      cases Nat.isDigit_of_mem_toDigits (by decide) (by decide) hdigit
  have horig : '/' ∉ ".orig".toList := by decide
  rw [toList_nameOf]
  simp only [List.mem_append, List.mem_cons, not_or]
  exact ⟨hno.1, by decide, s.slash_not_mem_chars, hnumber, horig, hno.2⟩

/-! ### Paths -/

/-- **Names of backups.** The paths of two backups of an archive are the same exactly if their
stamps and numbers are, and so are the names they end in.  None is that of the archive, but all are
in its directory: what is split off them is the same, and in every file system in which the
archive's path leads anywhere, they lead to a place beside it. -/
theorem backup_names {archive directory name : String}
    (h : Path.split archive = some (directory, name)) :
    (∀ (s t : Stamp) (m n : Nat), path archive s m = path archive t n ↔ s = t ∧ m = n) ∧
    ∃ own : Stamp → Nat → String,
      (∀ (s t : Stamp) (m n : Nat), own s m = own t n ↔ s = t ∧ m = n) ∧
      ∀ (s : Stamp) (n : Nat), path archive s n ≠ archive ∧ own s n ≠ name ∧
        Path.split (path archive s n) = some (directory, own s n) ∧
        ∀ (fs : FileSystem) (p : Place), fs.resolve archive = some p →
          ∃ around, p = name :: around ∧
            fs.resolve (path archive s n) = some (own s n :: around) := by
  have hpath (s : Stamp) (n : Nat) : path archive s n =
      Path.join directory (nameOf (Path.stem name) (Path.suffix? name) s n) := by
    rw [path, h]
  have hname : Path.IsName name := (Path.split_eq_some.mp h).1
  have hsplit (s : Stamp) (n : Nat) : Path.split (path archive s n) =
      some (directory, nameOf (Path.stem name) (Path.suffix? name) s n) := by
    rw [hpath]
    exact Path.split_join (Path.isTrimmed_of_split h) (isName_nameOf hname s n)
  -- a backup name is longer than the one it is made from
  have hother (s : Stamp) (n : Nat) :
      nameOf (Path.stem name) (Path.suffix? name) s n ≠ name := by
    intro heq
    have hlength := length_nameOf name s n
    rw [heq] at hlength
    omega
  constructor
  · intro s t m n
    -- the name is what the path ends with, and tells the stamp and the number
    constructor
    · intro heq
      have hsame := (hsplit s m).symm.trans (heq ▸ hsplit t n)
      exact nameOf_eq_iff.mp (Prod.mk.inj (Option.some.inj hsame)).2
    · rintro ⟨rfl, rfl⟩
      rfl
  · refine ⟨nameOf (Path.stem name) (Path.suffix? name), fun _ _ _ _ => nameOf_eq_iff, ?_⟩
    intro s n
    refine ⟨?_, hother s n, hsplit s n, ?_⟩
    -- both paths end with their names, which differ
    · intro heq
      have hsame := (hsplit s n).symm.trans (heq ▸ h)
      exact hother s n (Prod.mk.inj (Option.some.inj hsame)).2
    · intro fs p hp
      rw [hpath]
      exact FileSystem.resolve_join h (isName_nameOf hname s n) hp

/-- An archive that is named like a backup itself, with slashes and dots that do not count. -/
theorem backup_names_stamped :
    let archive := "srv//a_2022.10.21_09.05.03_1.orig.jar/./"
    let name := "a_2022.10.21_09.05.03_1.orig.jar"
    Path.split archive = some ("srv", name) ∧
    (∀ (s t : Stamp) (m n : Nat), path archive s m = path archive t n ↔ s = t ∧ m = n) ∧
    ∃ own : Stamp → Nat → String,
      (∀ (s t : Stamp) (m n : Nat), own s m = own t n ↔ s = t ∧ m = n) ∧
      ∀ (s : Stamp) (n : Nat), path archive s n ≠ archive ∧ own s n ≠ name ∧
        Path.split (path archive s n) = some ("srv", own s n) ∧
        ∀ (fs : FileSystem) (p : Place), fs.resolve archive = some p →
          ∃ around, p = name :: around ∧
            fs.resolve (path archive s n) = some (own s n :: around) := by
  have hsplit : Path.split "srv//a_2022.10.21_09.05.03_1.orig.jar/./" =
      some ("srv", "a_2022.10.21_09.05.03_1.orig.jar") := by decide +kernel
  exact ⟨hsplit, backup_names hsplit⟩

/-- A year of more than four digits, and a number. -/
example : path "srv/app.jar" ⟨12022, 10, 21, 9, 5, 3⟩ 2 =
    "srv/app_+12022.10.21_09.05.03_2.orig.jar" := by decide +kernel

end Backup

end Defuse
