import RecordSearch.Json.Value

/-!
# Compact JSON text

No blanks, members in their order. In a string only the quote, the backslash and
the characters below U+0020 are escaped.
-/
namespace RecordSearch.Json

def hexDigit (n : Nat) : Char := Nat.digitChar n

/-- One character between the quotes of a JSON string. -/
def escaped (c : Char) : List Char :=
  if c = '"' then ['\\', '"']
  else if c = '\\' then ['\\', '\\']
  else if c = '\x08' then ['\\', 'b']
  else if c = '\x0c' then ['\\', 'f']
  else if c = '\n' then ['\\', 'n']
  else if c = '\r' then ['\\', 'r']
  else if c = '\t' then ['\\', 't']
  else if c.toNat < 0x20 then
    ['\\', 'u', '0', '0', hexDigit (c.toNat / 16), hexDigit (c.toNat % 16)]
  else [c]

def stringText (s : String) : List Char :=
  '"' :: s.toList.flatMap escaped ++ ['"']

def boolText : Bool → List Char
  | true => ['t', 'r', 'u', 'e']
  | false => ['f', 'a', 'l', 's', 'e']

def nullText : List Char := ['n', 'u', 'l', 'l']

mutual
def Value.chars : Value → List Char
  | .null => nullText
  | .bool b => boolText b
  | .number n => n.text
  | .string s => stringText s
  | .array [] => ['[', ']']
  | .array (v :: rest) => '[' :: v.chars ++ itemsAfter rest
  | .object [] => ['{', '}']
  | .object ((k, v) :: rest) => '{' :: stringText k ++ ':' :: v.chars ++ membersAfter rest

/-- The rest of an array, once an item is written. -/
def itemsAfter : List Value → List Char
  | [] => [']']
  | v :: rest => ',' :: v.chars ++ itemsAfter rest

def membersAfter : List (String × Value) → List Char
  | [] => ['}']
  | (k, v) :: rest => ',' :: stringText k ++ ':' :: v.chars ++ membersAfter rest
end

def Value.compact (v : Value) : String := String.ofList v.chars

end RecordSearch.Json
