import Defuse.Disk.FileSystem

namespace Defuse

/-!
# Files that come and go

What a change of one place does to a file system.

* `FileSystem.at?_clear`, `FileSystem.at?_put` — what is where after a change;
* `FileSystem.put_put`, `FileSystem.clear_put`, `FileSystem.clear_eq_self` — the last change of
  a place decides, and clearing a free place is no change;
* `FileSystem.resolve_put` — paths lead where they led, unless a directory goes;
* `World.fileAt_put_self`, `World.fileAt_put_of_free` — the files that paths lead to after a
  file has come to a free place.
-/

namespace FileSystem

variable {fs : FileSystem} {p q : Place} {n : Node}

/-! ### Places -/

/-- Below the root, a place holds what stands in the table. -/
theorem at?_of_ne_nil (hp : p ≠ []) : fs.at? p = fs.nodes.lookup p := by
  unfold at?
  split
  · exact absurd rfl hp
  · rfl

/-- The outermost directory is not free. -/
theorem ne_nil_of_at?_eq_none (h : fs.at? p = none) : p ≠ [] := by
  rintro rfl
  cases h

/-- What is left of a table without a place. -/
theorem lookup_filter_ne (nodes : List (Place × Node)) (p q : Place) :
    (nodes.filter (·.1 ≠ p)).lookup q = if q = p then none else nodes.lookup q := by
  induction nodes with
  | nil => simp
  | cons node nodes ih =>
    obtain ⟨place, found⟩ := node
    by_cases hplace : place = p
    · -- a row of the place is dropped, and no other place is looked up in it
      subst hplace
      rw [List.filter_cons_of_neg (by simp), ih]
      by_cases hq : q = place
      · rw [if_pos hq, if_pos hq]
      · have hne : (q == place) = false := by simpa using hq
        rw [if_neg hq, if_neg hq, List.lookup_cons, hne]
    · rw [List.filter_cons_of_pos (by simpa using hplace), List.lookup_cons, List.lookup_cons, ih]
      by_cases hq : q = place
      · subst hq
        simp [hplace]
      · have hne : (q == place) = false := by simpa using hq
        rw [hne]

/-- What is where once a place is cleared. -/
theorem at?_clear (hp : p ≠ []) : (fs.clear p).at? q = if q = p then none else fs.at? q := by
  by_cases hq : q = []
  · subst hq
    rw [if_neg (Ne.symm hp)]
    rfl
  · rw [at?_of_ne_nil hq, at?_of_ne_nil hq]
    exact lookup_filter_ne fs.nodes p q

/-- What is where once something is put at a place. -/
theorem at?_put (hp : p ≠ []) : (fs.put p n).at? q = if q = p then some n else fs.at? q := by
  by_cases hq : q = p
  · subst hq
    rw [if_pos rfl, at?_of_ne_nil hp, put, List.lookup_cons_self]
  · -- elsewhere the new row is passed over
    have hrest : (fs.put p n).at? q = (fs.clear p).at? q := by
      by_cases hnil : q = []
      · subst hnil
        rfl
      · have hne : (q == p) = false := by simpa using hq
        rw [at?_of_ne_nil hnil, at?_of_ne_nil hnil, put, List.lookup_cons, hne]
        rfl
    rw [hrest, at?_clear hp, if_neg hq, if_neg hq]

/-- What was put at a place stands there. -/
theorem at?_put_self (hp : p ≠ []) : (fs.put p n).at? p = some n := by
  rw [at?_put hp, if_pos rfl]

theorem at?_put_of_ne (hp : p ≠ []) (hq : q ≠ p) : (fs.put p n).at? q = fs.at? q := by
  rw [at?_put hp, if_neg hq]

/-- What comes to a free place does not displace anything. -/
theorem at?_put_of_free (hp : fs.at? p = none) {found : Node} (hq : fs.at? q = some found) :
    (fs.put p n).at? q = some found := by
  have hne : q ≠ p := by
    rintro rfl
    rw [hp] at hq
    cases hq
  rw [at?_put_of_ne (ne_nil_of_at?_eq_none hp) hne, hq]

/-- Putting something at a place does not touch the rest of the table. -/
theorem filter_nodes_put :
    (fs.put p n).nodes.filter (·.1 ≠ p) = fs.nodes.filter (·.1 ≠ p) := by
  rw [put, List.filter_cons_of_neg (by simp), List.filter_filter]
  simp only [Bool.and_self]

/-- What is put at a place again takes the place of what was put there. -/
theorem put_put (n' : Node) : (fs.put p n).put p n' = fs.put p n' := by
  show FileSystem.mk fs.working ((p, n') :: (fs.put p n).nodes.filter (·.1 ≠ p)) = _
  rw [filter_nodes_put]
  rfl

/-- Clearing a place undoes putting something there. -/
theorem clear_put : (fs.put p n).clear p = fs.clear p := by
  show FileSystem.mk fs.working ((fs.put p n).nodes.filter (·.1 ≠ p)) = _
  rw [filter_nodes_put]
  rfl

/-- Clearing a free place changes nothing. -/
theorem clear_eq_self (h : fs.at? p = none) : fs.clear p = fs := by
  rw [at?_of_ne_nil (ne_nil_of_at?_eq_none h), List.lookup_eq_none_iff] at h
  have hfilter : fs.nodes.filter (·.1 ≠ p) = fs.nodes := by
    rw [List.filter_eq_self]
    intro node hnode
    have hne : p ≠ node.1 := by simpa using h node hnode
    exact decide_eq_true hne.symm
  rw [clear, hfilter]

/-- What came to a free place is gone once the place is cleared. -/
theorem clear_put_of_free (h : fs.at? p = none) : (fs.put p n).clear p = fs := by
  rw [clear_put, clear_eq_self h]

/-! ### Paths -/

/-- What is free is no directory. -/
theorem isDirectory_of_free (h : fs.at? p = none) : fs.isDirectory p = false := by
  rw [isDirectory, h]

/-- A place that is no directory is not the root. -/
theorem ne_nil_of_isDirectory_eq_false (h : fs.isDirectory p = false) : p ≠ [] := by
  rintro rfl
  cases h

/-- A file where there is no directory makes none and removes none. -/
theorem isDirectory_put (h : fs.isDirectory p = false) (bytes : Bytes) (mode : Nat) :
    (fs.put p (.file bytes mode)).isDirectory = fs.isDirectory := by
  have hp : p ≠ [] := ne_nil_of_isDirectory_eq_false h
  funext q
  by_cases hq : q = p
  · rw [hq, h, isDirectory, at?_put_self hp]
  · rw [isDirectory, isDirectory, at?_put_of_ne hp hq]

/-- Paths lead where they led once a file has come to a place that is no directory. -/
theorem resolve_put (h : fs.isDirectory p = false) (bytes : Bytes) (mode : Nat) (path : String) :
    (fs.put p (.file bytes mode)).resolve path = fs.resolve path := by
  have hfollow : (fs.put p (.file bytes mode)).follow = fs.follow := by
    funext place name
    rw [follow, follow, isDirectory_put h]
  rw [resolve, resolve, hfollow]
  rfl

/-- A path makes something new where nothing is. -/
theorem free?_eq_ok {path : String} :
    fs.free? path = .ok p ↔ fs.resolve path = some p ∧ fs.at? p = none := by
  unfold free?
  cases fs.resolve path with
  | none => simp
  | some place =>
    dsimp only
    split
    · next hsome =>
      simp only [Option.some.injEq, reduceCtorEq, false_iff]
      rintro ⟨rfl, hfree⟩
      rw [hfree] at hsome
      cases hsome
    · next hnone =>
      have hfree : fs.at? place = none := by simpa using hnone
      simp only [Except.ok.injEq, Option.some.injEq]
      constructor
      · rintro rfl
        exact ⟨rfl, hfree⟩
      · exact And.left

end FileSystem

namespace World

open FileSystem

variable {fs : FileSystem} {p a : Place} {path : String} {bytes found : Bytes} {mode : Nat}

/-- A path leads to a file. -/
theorem fileAt_eq_ok :
    fileAt fs path = .ok (p, bytes, mode) ↔
      fs.resolve path = some p ∧ fs.at? p = some (.file bytes mode) := by
  unfold fileAt find?
  cases fs.resolve path with
  | none => simp
  | some place =>
    simp only [Option.some.injEq]
    constructor
    · intro h
      split at h
      · cases h
      · cases h
      · next place' bytes' mode' hfound =>
        obtain ⟨node, hnode, hpair⟩ := Option.map_eq_some_iff.mp hfound
        cases hpair
        cases h
        exact ⟨rfl, hnode⟩
    · rintro ⟨rfl, hnode⟩
      rw [hnode]
      rfl

/-- A file that is put where a path leads is what the path leads to. -/
theorem fileAt_put_of_resolve (hp : fs.isDirectory p = false) (h : fs.resolve path = some p)
    (bytes : Bytes) (mode : Nat) :
    fileAt (fs.put p (.file bytes mode)) path = .ok (p, bytes, mode) := by
  rw [fileAt_eq_ok, resolve_put hp]
  exact ⟨h, at?_put_self (ne_nil_of_isDirectory_eq_false hp)⟩

/-- Paths to other files lead to them still. -/
theorem fileAt_put_of_ne (hp : fs.isDirectory p = false) (hne : a ≠ p)
    (h : fileAt fs path = .ok (a, found, mode)) (bytes : Bytes) (mode' : Nat) :
    fileAt (fs.put p (.file bytes mode')) path = .ok (a, found, mode) := by
  obtain ⟨hresolve, hfile⟩ := fileAt_eq_ok.mp h
  rw [fileAt_eq_ok, resolve_put hp, at?_put_of_ne (ne_nil_of_isDirectory_eq_false hp) hne]
  exact ⟨hresolve, hfile⟩

/-- A file is no directory. -/
theorem isDirectory_of_fileAt (h : fileAt fs path = .ok (p, found, mode)) :
    fs.isDirectory p = false := by
  rw [isDirectory, (fileAt_eq_ok.mp h).2]

/-- A file is not where nothing is. -/
theorem ne_of_fileAt (h : fileAt fs path = .ok (a, found, mode)) (hfree : fs.at? p = none) :
    a ≠ p := by
  rintro rfl
  obtain ⟨-, hfile⟩ := fileAt_eq_ok.mp h
  rw [hfree] at hfile
  cases hfile

/-- The file that has come to a free place is what the path leads to. -/
theorem fileAt_put_self (h : fs.free? path = .ok p) (bytes : Bytes) (mode : Nat) :
    fileAt (fs.put p (.file bytes mode)) path = .ok (p, bytes, mode) := by
  obtain ⟨hresolve, hfree⟩ := free?_eq_ok.mp h
  exact fileAt_put_of_resolve (isDirectory_of_free hfree) hresolve bytes mode

/-- Other paths lead to the files that they led to. -/
theorem fileAt_put_of_free (h : fileAt fs path = .ok (a, found, mode)) (hfree : fs.at? p = none)
    (bytes : Bytes) (mode' : Nat) :
    fileAt (fs.put p (.file bytes mode')) path = .ok (a, found, mode) :=
  fileAt_put_of_ne (isDirectory_of_free hfree) (ne_of_fileAt h hfree) h bytes mode'

end World

end Defuse
