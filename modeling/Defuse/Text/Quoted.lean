import Defuse.Text.Printable

/-!
# Quoted text

A message shows a text between double quotes.  Quotes, backslashes and the common controls
have short escapes, every other character that does not show by itself is written as its
code point in hexadecimal digits between braces.

* `escape` — one character;
* `quoted` — a text.
-/

namespace Defuse.Text

/-- A character as it stands between quotes. -/
def escape (c : Char) : List Char :=
  match c with
  | '"' => ['\\', '"']
  | '\\' => ['\\', '\\']
  | '\n' => ['\\', 'n']
  | '\r' => ['\\', 'r']
  | '\t' => ['\\', 't']
  | '\x00' => ['\\', '0']
  | c =>
    if isPrintable c then [c]
    else '\\' :: 'u' :: '\x7b' :: Nat.toDigits 16 c.toNat ++ ['\x7d']

/-- A text between quotes. -/
def quoted (s : String) : String :=
  String.ofList ('"' :: s.toList.flatMap escape ++ ['"'])

end Defuse.Text
