import RecordSearch.Json.Value
import RecordSearch.Text.Quoted

/-!
# Outlined values

A text of a value that names the kind of each part, with strings quoted.
-/
namespace RecordSearch.Json

def quotedChars (s : String) : List Char := (Text.quoted s).toList

mutual
def Value.outline : Value → List Char
  | .null => "Null".toList
  | .bool true => "Bool(true)".toList
  | .bool false => "Bool(false)".toList
  | .number n => "Number(".toList ++ n.text ++ [')']
  | .string s => "String(".toList ++ quotedChars s ++ [')']
  | .array items => "Array ".toList ++ outlineItems items
  | .object [] => "Object ".toList ++ ['{', '}']
  | .object ((k, v) :: rest) =>
    "Object ".toList ++ '{' :: quotedChars k ++ ": ".toList ++ v.outline ++ outlineMembers rest

def outlineItems : List Value → List Char
  | [] => ['[', ']']
  | v :: rest => '[' :: v.outline ++ outlineAfter rest

def outlineAfter : List Value → List Char
  | [] => [']']
  | v :: rest => ", ".toList ++ v.outline ++ outlineAfter rest

def outlineMembers : List (String × Value) → List Char
  | [] => ['}']
  | (k, v) :: rest =>
    ", ".toList ++ quotedChars k ++ ": ".toList ++ v.outline ++ outlineMembers rest
end

def outlineList (values : List Value) : String := String.ofList (outlineItems values)

end RecordSearch.Json
