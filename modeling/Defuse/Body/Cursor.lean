import Defuse.Body.Token

/-!
# Cursors

A scanner moves over a source text one character at a time and keeps its place.

* `Cursor` — a place and the text from there on;
* `Cursor.Reaches` — moving forward over some characters: reflexive, transitive, and the
  place always the one that the characters lead to;
* `Cursor.Reaches.length_le`, `Cursor.Passes.length_lt` — what is left gets shorter.
-/

namespace Defuse

/-- A place in a source text, with the text from there on. -/
structure Cursor where
  /-- The place. -/
  position : Position
  /-- The text from there on. -/
  rest : List Char
deriving DecidableEq, Repr

namespace Cursor

/-- The cursor at the start of a source text. -/
def start (source : List Char) : Cursor := ⟨.start, source⟩

/-- Moving forward from one cursor leads to the other. -/
def Reaches (a b : Cursor) : Prop :=
  ∃ taken, a.rest = taken ++ b.rest ∧ b.position = a.position.afterAll taken

/-- Moving forward over at least one character leads to the other cursor. -/
def Passes (a b : Cursor) : Prop :=
  ∃ c taken, a.rest = c :: taken ++ b.rest ∧ b.position = a.position.afterAll (c :: taken)

/-- A cursor is reached by not moving. -/
theorem Reaches.refl (a : Cursor) : a.Reaches a := ⟨[], by simp⟩

/-- Moving forward twice is moving forward. -/
theorem Reaches.trans {a b c : Cursor} : a.Reaches b → b.Reaches c → a.Reaches c
  | ⟨s, hs, ps⟩, ⟨t, ht, pt⟩ => ⟨s ++ t, by simp [hs, ht], by simp [ps, pt]⟩

/-- Over one character, and on. -/
theorem Reaches.step {p : Position} {c : Char} {cs : List Char} {b : Cursor}
    (h : Reaches ⟨p.after c, cs⟩ b) : Reaches ⟨p, c :: cs⟩ b := by
  obtain ⟨t, ht, pt⟩ := h
  exact ⟨c :: t, by simpa using ht, by simpa using pt⟩

/-- Over the characters in front. -/
theorem Reaches.skip (p : Position) (taken rest : List Char) :
    Reaches ⟨p, taken ++ rest⟩ ⟨p.afterAll taken, rest⟩ := ⟨taken, rfl, rfl⟩

/-- Moving forward leaves no more characters than there were. -/
theorem Reaches.length_le {a b : Cursor} (h : a.Reaches b) :
    b.rest.length ≤ a.rest.length := by
  obtain ⟨t, ht, -⟩ := h
  simp [ht]

/-- Over one character, and on. -/
theorem Reaches.passes {p : Position} {c : Char} {cs : List Char} {b : Cursor}
    (h : Reaches ⟨p.after c, cs⟩ b) : Passes ⟨p, c :: cs⟩ b := by
  obtain ⟨t, ht, pt⟩ := h
  exact ⟨c, t, by simpa using ht, by simpa using pt⟩

/-- Moving forward over a character is moving forward. -/
theorem Passes.reaches {a b : Cursor} : a.Passes b → a.Reaches b
  | ⟨c, t, ht, pt⟩ => ⟨c :: t, ht, pt⟩

/-- Moving on from behind a character is still moving over it. -/
theorem Passes.trans {a b c : Cursor} : a.Passes b → b.Reaches c → a.Passes c
  | ⟨d, s, hs, ps⟩, ⟨t, ht, pt⟩ => ⟨d, s ++ t, by simp [hs, ht], by simp [ps, pt]⟩

/-- Moving forward over a character leaves fewer of them. -/
theorem Passes.length_lt {a b : Cursor} (h : a.Passes b) : b.rest.length < a.rest.length := by
  obtain ⟨c, t, ht, -⟩ := h
  rw [ht, List.length_append, List.length_cons]
  omega

end Cursor

end Defuse
