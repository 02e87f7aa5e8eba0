import Defuse.Disk.FileSystem
import Defuse.Path
import Defuse.Proofs.Descriptors

namespace Defuse

/-!
# Names and directories

* `Path.IsName` — what can stand between the slashes of a path and leads into no other directory;
* `Path.split_eq_some` — a path that ends in a name, as the characters in front of it and the name;
* `Path.split_join` — a name joined to the directory of a path is split off again;
* `Path.toList_eq_stem_suffix` — a name is its stem, a dot and its suffix;
* `FileSystem.walk` — where names one after another lead, from a place on;
* `FileSystem.resolve_join` — in any file system, a name joined to the directory of a path leads to
  a place in the same directories as the path itself.
-/

namespace Path

/-! ### Slashes and dots that do not count -/

/-- Trimming a second time takes nothing off. -/
theorem trimEnd_trimEnd (cs : List Char) : trimEnd (trimEnd cs) = trimEnd cs := by
  fun_induction trimEnd cs with
  | case1 c cs ih => exact ih
  | case2 cs ih => exact ih
  | case3 cs hslash hdot => rw [trimEnd.eq_3 cs hslash hdot]

/-- The first character of a path stays. -/
theorem getLast?_trimEnd (cs : List Char) : (trimEnd cs).getLast? = cs.getLast? := by
  fun_induction trimEnd cs with
  | case1 c cs ih => rw [ih, List.getLast?_cons_cons]
  | case2 cs ih => rw [ih, List.getLast?_cons_cons]
  | case3 cs hslash hdot => rfl

/-- Only the empty path is trimmed to nothing. -/
theorem trimEnd_eq_nil {cs : List Char} : trimEnd cs = [] ↔ cs = [] := by
  rw [← List.getLast?_eq_none_iff, getLast?_trimEnd, List.getLast?_eq_none_iff]

/-- The slashes in front of a directory are trimmed away, but for the one of the root. -/
theorem trimEnd_slash {cs : List Char} (h : cs ≠ []) : trimEnd ('/' :: cs) = trimEnd cs := by
  obtain ⟨c, cs, rfl⟩ := List.exists_cons_of_ne_nil h
  rfl

/-! ### Names -/

/-- The names that a path can end in: not empty, without a slash, and neither the directory itself
nor the one above it. -/
structure IsName (name : String) : Prop where
  ne_empty : name ≠ ""
  ne_dot : name ≠ "."
  ne_dots : name ≠ ".."
  no_slash : '/' ∉ name.toList

/-- Nothing of a name is trimmed away. -/
theorem IsName.trimEnd_eq {name : String} (h : IsName name) (back : List Char) :
    trimEnd (name.toList.reverse ++ back) = name.toList.reverse ++ back := by
  have hslash : '/' ∉ name.toList.reverse := by simpa using h.no_slash
  have hempty : name.toList.reverse ≠ [] := by simpa using h.ne_empty
  have hdot : name.toList.reverse ≠ ['.'] := by
    intro heq
    refine h.ne_dot (String.toList_inj.mp ?_)
    rw [← List.reverse_reverse name.toList, heq]
    rfl
  generalize name.toList.reverse = cs at hslash hempty hdot
  apply trimEnd.eq_3
  · intro c rest heq
    cases cs with
    | nil => exact hempty rfl
    | cons d cs =>
      obtain ⟨rfl, -⟩ := List.cons.inj heq
      exact hslash List.mem_cons_self
  · intro rest heq
    -- a dot in front of a slash would be the whole name
    match cs with
    | [] => exact hempty rfl
    | [d] =>
      obtain ⟨rfl, -⟩ := List.cons.inj heq
      exact hdot rfl
    | d :: e :: cs =>
      obtain ⟨rfl, -⟩ := List.cons.inj (List.cons.inj heq).2
      exact hslash (by simp)

/-- A path ends in a name, and the directory stands in front of it. -/
theorem split_eq_some {path directory name : String} :
    split path = some (directory, name) ↔
      IsName name ∧ ∃ back, trimEnd path.toList.reverse = name.toList.reverse ++ back ∧
        (back = [] ∨ ∃ more, back = '/' :: more) ∧
        directory = String.ofList (trimEnd back).reverse := by
  unfold split
  constructor
  · intro h
    dsimp only at h
    split at h
    · cases h
    -- the name is what stands behind the last slash, if it is the name of anything
    · next hname =>
      obtain ⟨hdirectory, rfl⟩ := Prod.mk.inj (Option.some.inj h)
      obtain ⟨hempty, hdot, hdots⟩ : _ ≠ "" ∧ _ ≠ "." ∧ _ ≠ ".." := by
        simpa only [not_or] using hname
      refine ⟨⟨hempty, hdot, hdots, ?_⟩, _, ?_, ?_, hdirectory.symm⟩
      · intro hslash
        rw [String.toList_ofList, List.mem_reverse] at hslash
        simpa using List.all_eq_true.mp List.all_takeWhile _ hslash
      · rw [String.toList_ofList, List.reverse_reverse, List.takeWhile_append_dropWhile]
      · cases hback : (trimEnd path.toList.reverse).dropWhile (· ≠ '/') with
        | nil => exact .inl rfl
        | cons c more => exact .inr ⟨more, by rw [head_dropWhile_ne hback]⟩
  · rintro ⟨hname, back, htrim, hback, rfl⟩
    have hfront : ∀ c ∈ name.toList.reverse, decide (c ≠ '/') = true := by
      intro c hc
      rw [List.mem_reverse] at hc
      exact decide_eq_true fun h : c = '/' => hname.no_slash (h ▸ hc)
    -- the name ends at the slash behind it, or at the end
    have htake : back.takeWhile (· ≠ '/') = [] := by
      rcases hback with rfl | ⟨more, rfl⟩ <;> rfl
    have hdrop : back.dropWhile (· ≠ '/') = back := by
      rcases hback with rfl | ⟨more, rfl⟩ <;> rfl
    dsimp only
    rw [htrim, List.takeWhile_append_of_pos hfront, List.dropWhile_append_of_pos hfront, htake,
      hdrop, List.append_nil, List.reverse_reverse, String.ofList_toList, if_neg]
    rintro (h | h | h)
    · exact hname.ne_empty h
    · exact hname.ne_dot h
    · exact hname.ne_dots h

/-! ### Joining -/

/-- A directory without slashes and dots at its end that do not count. -/
def IsTrimmed (directory : String) : Prop :=
  trimEnd directory.toList.reverse = directory.toList.reverse

/-- The directory in front of a name has no slash and no dot at its end. -/
theorem isTrimmed_of_split {path directory name : String}
    (h : split path = some (directory, name)) : IsTrimmed directory := by
  obtain ⟨-, back, -, -, rfl⟩ := split_eq_some.mp h
  rw [IsTrimmed, String.toList_ofList, List.reverse_reverse, trimEnd_trimEnd]

/-- What stands between the name and the front of a joined path. -/
theorem reverse_join (directory name : String) :
    ∃ back, (join directory name).toList.reverse = name.toList.reverse ++ back ∧
      (back = [] ∨ ∃ more, back = '/' :: more) ∧
      trimEnd back = trimEnd directory.toList.reverse := by
  unfold join
  split
  · next hempty =>
    subst hempty
    exact ⟨[], by simp, .inl rfl, rfl⟩
  · next hempty =>
    have hne : directory.toList.reverse ≠ [] := by simpa using hempty
    split
    · next hlast =>
      rw [← List.head?_reverse] at hlast
      obtain ⟨more, hmore⟩ := List.head?_eq_some_iff.mp hlast
      exact ⟨_, by rw [String.toList_append, List.reverse_append], .inr ⟨more, hmore⟩, rfl⟩
    · refine ⟨'/' :: directory.toList.reverse, ?_, .inr ⟨_, rfl⟩, trimEnd_slash hne⟩
      simp

/-- A name joined to the directory of a path is split off again. -/
theorem split_join {directory name : String} (hd : IsTrimmed directory) (hn : IsName name) :
    split (join directory name) = some (directory, name) := by
  obtain ⟨back, hjoin, hback, htrim⟩ := reverse_join directory name
  refine split_eq_some.mpr ⟨hn, back, ?_, hback, ?_⟩
  · rw [hjoin, hn.trimEnd_eq]
  · rw [htrim, hd, List.reverse_reverse, String.ofList_toList]

/-! ### Stems and suffixes -/

/-- What a suffix adds to a name. -/
def suffixChars : Option String → List Char
  | some suffix => '.' :: suffix.toList
  | none => []

/-- A name is its stem and what its suffix adds to it. -/
theorem toList_eq_stem_suffix (name : String) :
    name.toList = (stem name).toList ++ suffixChars (suffix? name) := by
  have hsplit := List.takeWhile_append_dropWhile (p := (· ≠ '.')) (l := name.toList.reverse)
  unfold stem suffix?
  dsimp only
  cases hback : name.toList.reverse.dropWhile (· ≠ '.') with
  | nil => simp [suffixChars]
  | cons dot front =>
    cases front with
    | nil => simp [suffixChars]
    | cons c cs =>
      rw [hback, head_dropWhile_ne hback] at hsplit
      refine (List.reverse_eq_iff.mp hsplit.symm).trans ?_
      simp [suffixChars]

end Path

/-! ### Where paths lead -/

namespace FileSystem

open Defuse.Path

variable {fs : FileSystem} {p q : Place}

/-- In front of a slash without a name stands an empty one. -/
theorem namesOf_slash (cs : List Char) :
    namesOf (String.ofList ('/' :: cs)) = "" :: namesOf (String.ofList cs) := by
  simp [namesOf]

/-- A character that is no slash belongs to the first name. -/
theorem namesOf_cons {c : Char} (hc : c ≠ '/') (cs : List Char) :
    ∃ name names, namesOf (String.ofList cs) = name :: names ∧
      namesOf (String.ofList (c :: cs)) = String.ofList (c :: name.toList) :: names := by
  unfold namesOf
  rw [String.toList_ofList, String.toList_ofList, List.foldr_cons]
  generalize hparts : List.foldr _ _ cs = parts
  cases parts with
  | nil =>
    cases cs with
    | nil => cases hparts
    | cons d cs =>
      rw [List.foldr_cons] at hparts
      split at hparts <;> cases hparts
  | cons part parts =>
    refine ⟨_, _, rfl, ?_⟩
    simp

/-- Names in front of a slash come before those behind it. -/
theorem namesOf_append (cs ds : List Char) :
    namesOf (String.ofList (cs ++ '/' :: ds)) =
      namesOf (String.ofList cs) ++ namesOf (String.ofList ds) := by
  induction cs with
  | nil => exact namesOf_slash ds
  | cons c cs ih =>
    by_cases hc : c = '/'
    · subst hc
      rw [List.cons_append, namesOf_slash, namesOf_slash, ih, List.cons_append]
    · obtain ⟨name, names, hnames, hcons⟩ := namesOf_cons hc cs
      obtain ⟨name', names', hnames', hcons'⟩ := namesOf_cons hc (cs ++ '/' :: ds)
      rw [ih, hnames, List.cons_append] at hnames'
      obtain ⟨rfl, rfl⟩ := List.cons.inj hnames'
      rw [List.cons_append, hcons', hcons, List.cons_append]

/-- A text without a slash is one name. -/
theorem namesOf_of_no_slash {cs : List Char} (h : '/' ∉ cs) :
    namesOf (String.ofList cs) = [String.ofList cs] := by
  induction cs with
  | nil => rfl
  | cons c cs ih =>
    obtain ⟨hc, hcs⟩ : '/' ≠ c ∧ '/' ∉ cs := by simpa using h
    obtain ⟨name, names, hnames, hcons⟩ := namesOf_cons hc.symm cs
    rw [ih hcs] at hnames
    obtain ⟨rfl, rfl⟩ := List.cons.inj hnames
    rw [hcons, String.toList_ofList]

/-- Where the names of a text lead, from a place on. -/
def walk (fs : FileSystem) (p : Place) (cs : List Char) : Option Place :=
  (namesOf (String.ofList cs)).foldlM fs.follow p

/-- A walk along two paths is a walk along the first one, then along the second one. -/
theorem walk_append {cs ds : List Char} :
    fs.walk p (cs ++ '/' :: ds) = some q ↔
      ∃ mid, fs.walk p cs = some mid ∧ fs.walk mid ds = some q := by
  rw [walk, namesOf_append, List.foldlM_append, Option.bind_eq_bind, Option.bind_eq_some_iff]
  rfl

/-- One name leads as far as one step goes. -/
theorem walk_of_no_slash {cs : List Char} (h : '/' ∉ cs) :
    fs.walk p cs = fs.follow p (String.ofList cs) := by
  rw [walk, namesOf_of_no_slash h, List.foldlM_cons]
  exact bind_pure _

/-- Nothing, or a single dot, leads on to where it stands. -/
theorem walk_self {cs : List Char} (h : cs = [] ∨ cs = ['.']) :
    fs.walk p cs = some q ↔ fs.isDirectory p = true ∧ q = p := by
  have hslash : '/' ∉ cs := by
    rcases h with rfl | rfl <;> decide
  have hname : String.ofList cs = "" ∨ String.ofList cs = "." := by
    rcases h with rfl | rfl
    · exact .inl rfl
    · exact .inr rfl
  rw [walk_of_no_slash hslash, follow, if_pos hname, Option.ite_none_right_eq_some,
    Option.some.injEq, eq_comm (a := p)]

/-- A name leads into a directory. -/
theorem walk_name {name : String} (h : IsName name) :
    fs.walk p name.toList = some q ↔ fs.isDirectory p = true ∧ q = name :: p := by
  have hskip : ¬(name = "" ∨ name = ".") := by
    rintro (hempty | hdot)
    · exact h.ne_empty hempty
    · exact h.ne_dot hdot
  rw [walk_of_no_slash h.no_slash, String.ofList_toList, follow, if_neg hskip, if_neg h.ne_dots,
    Option.ite_none_right_eq_some, Option.some.injEq, eq_comm (a := name :: p)]

/-- A slash behind a text asks for a directory. -/
theorem walk_slash {cs : List Char} :
    fs.walk p (cs ++ ['/']) = some q ↔ fs.walk p cs = some q ∧ fs.isDirectory q = true := by
  rw [walk_append]
  constructor
  · rintro ⟨mid, hmid, hend⟩
    obtain ⟨hdirectory, rfl⟩ := (walk_self (.inl rfl)).mp hend
    exact ⟨hmid, hdirectory⟩
  · rintro ⟨hwalk, hdirectory⟩
    exact ⟨q, hwalk, (walk_self (.inl rfl)).mpr ⟨hdirectory, rfl⟩⟩

/-- What is trimmed away asks for a directory at most. -/
theorem walk_trimEnd {cs : List Char} (h : fs.walk p cs.reverse = some q) :
    fs.walk p (trimEnd cs).reverse = some q := by
  fun_induction trimEnd cs with
  | case1 c cs ih =>
    rw [List.reverse_cons] at h
    exact ih (walk_slash.mp h).1
  | case2 cs ih =>
    rw [List.reverse_cons, List.reverse_cons, List.append_assoc] at h
    obtain ⟨mid, hmid, hend⟩ := walk_append.mp h
    obtain ⟨hdirectory, rfl⟩ := (walk_self (.inr rfl)).mp hend
    apply ih
    rw [List.reverse_cons]
    exact walk_slash.mpr ⟨hmid, hdirectory⟩
  | case3 cs hslash hdot => exact h

/-- To a directory, a text leads with what is trimmed away as well. -/
theorem walk_of_trimEnd {cs : List Char} (hq : fs.isDirectory q = true)
    (h : fs.walk p (trimEnd cs).reverse = some q) : fs.walk p cs.reverse = some q := by
  fun_induction trimEnd cs with
  | case1 c cs ih =>
    rw [List.reverse_cons]
    exact walk_slash.mpr ⟨ih h, hq⟩
  | case2 cs ih =>
    have hslash := ih h
    rw [List.reverse_cons] at hslash
    rw [List.reverse_cons, List.reverse_cons, List.append_assoc]
    exact walk_append.mpr ⟨q, (walk_slash.mp hslash).1, (walk_self (.inr rfl)).mpr ⟨hq, rfl⟩⟩
  | case3 cs hslash hdot => exact h

/-! ### The directory that a path lies in -/

/-- Where a path starts whose first character is known. -/
def start (fs : FileSystem) (first? : Option Char) : Place :=
  if first? = some '/' then [] else fs.working

/-- A path leads somewhere if it is not empty and can be walked from its start. -/
theorem resolve_eq_some {path : String} :
    fs.resolve path = some p ↔
      path ≠ "" ∧ fs.walk (fs.start path.toList.head?) path.toList = some p := by
  rw [resolve, Option.ite_none_left_eq_some, walk, String.ofList_toList]
  rfl

/-- Where the characters in front of a name lead.  They are given backwards. -/
def lead (fs : FileSystem) (back : List Char) : Option Place :=
  if back = [] then some fs.working else fs.walk (fs.start back.getLast?) back.reverse

/-- What is trimmed off leads nowhere else, if all of it leads to a directory. -/
theorem lead_trimEnd {back : List Char} (hq : fs.isDirectory q = true) :
    fs.lead (trimEnd back) = some q ↔ fs.lead back = some q := by
  by_cases hempty : back = []
  · subst hempty
    rfl
  · rw [lead, lead, if_neg (mt trimEnd_eq_nil.mp hempty), if_neg hempty, getLast?_trimEnd]
    exact ⟨walk_of_trimEnd hq, walk_trimEnd⟩

/-- A path that ends in a name leads to this name, in the directory that the characters in front of
it lead to. -/
theorem resolve_eq_some_cons {path name : String} {back : List Char} (hname : IsName name)
    (hpath : path.toList = back.reverse ++ name.toList)
    (hback : back = [] ∨ ∃ more, back = '/' :: more) :
    fs.resolve path = some p ↔
      ∃ around, fs.lead back = some around ∧ fs.isDirectory around = true ∧ p = name :: around := by
  have hne : name.toList ≠ [] := by simpa using hname.ne_empty
  have hpne : path ≠ "" := by
    rintro rfl
    exact hne (List.append_eq_nil_iff.mp hpath.symm).2
  rw [resolve_eq_some, hpath]
  -- the name stands alone, and is looked for in the working directory, or it stands behind a slash
  rcases hback with rfl | ⟨more, rfl⟩
  · have hstart : fs.start name.toList.head? = fs.working := by
      rw [start, if_neg]
      intro hslash
      exact hname.no_slash (List.mem_of_head? hslash)
    rw [List.reverse_nil, List.nil_append, hstart, walk_name hname, lead, if_pos rfl]
    simp [hpne]
  · have hhead : (('/' :: more).reverse ++ name.toList).head? = ('/' :: more).getLast? := by
      rw [List.head?_append, List.head?_reverse, List.getLast?_cons]
      rfl
    rw [hhead, lead, if_neg (List.cons_ne_nil _ _), List.reverse_cons, List.append_assoc]
    generalize fs.start ('/' :: more).getLast? = first
    show _ ∧ fs.walk first (more.reverse ++ '/' :: name.toList) = some p ↔ _
    rw [walk_append]
    simp only [walk_name hname, walk_slash]
    constructor
    · rintro ⟨-, around, hlead, hdirectory, rfl⟩
      exact ⟨around, ⟨hlead, hdirectory⟩, hdirectory, rfl⟩
    · rintro ⟨around, ⟨hlead, hdirectory⟩, -, rfl⟩
      exact ⟨hpne, around, hlead, hdirectory, rfl⟩

/-- A path without what is trimmed away leads where the path leads. -/
theorem resolve_trimEnd {path : String} (h : fs.resolve path = some p) :
    fs.resolve (String.ofList (trimEnd path.toList.reverse).reverse) = some p := by
  obtain ⟨hne, hwalk⟩ := resolve_eq_some.mp h
  rw [← List.reverse_reverse path.toList, List.head?_reverse, ← getLast?_trimEnd] at hwalk
  refine resolve_eq_some.mpr ⟨?_, ?_⟩
  · rw [Ne, String.ofList_eq_empty_iff, List.reverse_eq_nil_iff, trimEnd_eq_nil,
      List.reverse_eq_nil_iff]
    simpa using hne
  · rw [String.toList_ofList, List.head?_reverse]
    exact walk_trimEnd hwalk

/-- A name joined to the directory of a path leads to a place in the same directories as the path
itself, whatever is there. -/
theorem resolve_join {path directory name own : String}
    (hsplit : split path = some (directory, name)) (hown : IsName own)
    (hp : fs.resolve path = some p) :
    ∃ around, p = name :: around ∧ fs.resolve (join directory own) = some (own :: around) := by
  obtain ⟨hname, back, htrim, hback, rfl⟩ := split_eq_some.mp hsplit
  obtain ⟨behind, hjoin, hbehind, hsame⟩ := reverse_join (String.ofList (trimEnd back).reverse) own
  rw [String.toList_ofList, List.reverse_reverse, trimEnd_trimEnd] at hsame
  -- the path and its trimmed form lead to the same place
  have hshape : (String.ofList (trimEnd path.toList.reverse).reverse).toList =
      back.reverse ++ name.toList := by
    rw [htrim]
    simp
  obtain ⟨around, hlead, hdirectory, rfl⟩ :=
    (resolve_eq_some_cons hname hshape hback).mp (resolve_trimEnd hp)
  refine ⟨around, rfl, ?_⟩
  have hjoined : (join (String.ofList (trimEnd back).reverse) own).toList =
      behind.reverse ++ own.toList := by
    rw [← List.reverse_reverse (join _ _).toList, hjoin]
    simp
  -- neither do the dots and slashes that were taken off the directory matter
  rw [← lead_trimEnd hdirectory, ← hsame, lead_trimEnd hdirectory] at hlead
  exact (resolve_eq_some_cons hown hjoined hbehind).mpr ⟨around, hlead, hdirectory, rfl⟩

end FileSystem

end Defuse
