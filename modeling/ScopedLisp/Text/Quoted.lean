import ScopedLisp.Text.Invisible

/-!
# Quoted text

How a message shows a name that may hold any character: between double quotes, with the quote,
the backslash and every invisible character written as an escape.
-/

namespace ScopedLisp.Text

/-- The form of one character between the quotes. Four control characters have a letter of their
own; the other invisible ones are written as their code point in lower-case hexadecimal. -/
def escaped (c : Char) : List Char :=
  if c = '"' then ['\\', '"']
  else if c = '\\' then ['\\', '\\']
  else if c = '\x00' then ['\\', '0']
  else if c = '\t' then ['\\', 't']
  else if c = '\n' then ['\\', 'n']
  else if c = '\r' then ['\\', 'r']
  else if isInvisible c then ['\\', 'u', '\x7b'] ++ Nat.toDigits 16 c.toNat ++ ['\x7d']
  else [c]

/-- `text` in double quotes. -/
def quoted (text : String) : String :=
  String.ofList ('"' :: text.toList.flatMap escaped ++ ['"'])

end ScopedLisp.Text
