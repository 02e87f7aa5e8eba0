import Defuse.Text.CharSet

namespace Defuse.Text

/-!
# White space

The characters that separate tokens and that are trimmed from a number typed by an
operator: the Unicode property `White_Space`, twenty-five code points.

* `blank` — the set;
* `isBlank` — membership.
-/

/-- The Unicode property `White_Space`. -/
def blank : CharSet where
  bounds := [
    9, 0xE, 0x20, 0x21, 0x85, 0x86, 0xA0, 0xA1, 0x1680, 0x1681, 0x2000, 0x200B, 0x2028, 0x202A,
    0x202F, 0x2030, 0x205F, 0x2060, 0x3000, 0x3001]

/-- Whether a character is white space. -/
def isBlank (c : Char) : Bool := blank.contains c

example : isBlank '\n' = true := rfl

end Defuse.Text
