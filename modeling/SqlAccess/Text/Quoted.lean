/-
**Quoted texts.**

A text is shown between double quotes, so that its ends and every character without a visible form
of its own can be read off.

Main definitions:

* `SqlAccess.Text.escaped` — how one character is written between the quotes;
* `SqlAccess.Text.quoted` — a whole text between quotes.
-/

import SqlAccess.Text.Unprintable
import SqlAccess.Text.Combining

set_option autoImplicit false

namespace SqlAccess.Text

/-- A character by its code point in lower-case hexadecimal digits. -/
def codePointEscape (c : Char) : List Char :=
  ['\\', 'u', '{'] ++ Nat.toDigits 16 c.toNat ++ ['}']

/-- A character as it stands between double quotes: the quote and the backslash after a backslash,
the common controls by letter, other characters without a form of their own by code point. -/
def escaped (c : Char) : List Char :=
  if c = '"' then ['\\', '"']
  else if c = '\\' then ['\\', '\\']
  else if c = '\n' then ['\\', 'n']
  else if c = '\r' then ['\\', 'r']
  else if c = '\t' then ['\\', 't']
  else if c = '\x00' then ['\\', '0']
  else if isCombining c || isUnprintable c then codePointEscape c
  else [c]

/-- A text between double quotes, with escapes. -/
def quoted (s : String) : String :=
  String.ofList ('"' :: s.toList.flatMap escaped ++ ['"'])

end SqlAccess.Text
