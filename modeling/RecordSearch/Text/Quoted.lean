import RecordSearch.Text.Unseen

/-!
# Quoted text

A text between double quotes, with a backslash before a quote or a backslash,
short escapes for NUL, tab and the two line ends, and the code point in
lower-case hexadecimal for every other character that would not be seen. A
single quote stays as it is.
-/
namespace RecordSearch.Text

def hexadecimal (n : Nat) : List Char := Nat.toDigits 16 n

/-- One character between the quotes. -/
def quotedChar (c : Char) : List Char :=
  if c = '"' then ['\\', '"']
  else if c = '\\' then ['\\', '\\']
  else if c = '\n' then ['\\', 'n']
  else if c = '\r' then ['\\', 'r']
  else if c = '\t' then ['\\', 't']
  else if c = '\x00' then ['\\', '0']
  else if isUnseen c then ['\\', 'u', '{'] ++ hexadecimal c.toNat ++ ['}']
  else [c]

def quoted (s : String) : String :=
  String.ofList ('"' :: s.toList.flatMap quotedChar ++ ['"'])

end RecordSearch.Text
