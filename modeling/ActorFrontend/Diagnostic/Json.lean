/-!
# Structured text

Values made of numbers, truth values, texts, lists and named members, and the indented form of
JSON in which they are written.
-/

namespace ActorFrontend

/-- A structured value; members keep their order. -/
inductive JsonValue where
  | number (n : Nat)
  | bool (b : Bool)
  | string (s : String)
  | array (elems : List JsonValue)
  | object (members : List (String × JsonValue))

namespace JsonValue

def hexDigit (n : Nat) : Char :=
  if n < 10 then Char.ofNat (n + '0'.toNat) else Char.ofNat (n - 10 + 'a'.toNat)

/-- How a character is written in a string: only quotes, backslashes and control characters need
an escape. -/
def escapeChar (c : Char) : List Char :=
  match c with
  | '"' => ['\\', '"']
  | '\\' => ['\\', '\\']
  | '\x08' => ['\\', 'b']
  | '\t' => ['\\', 't']
  | '\n' => ['\\', 'n']
  | '\x0c' => ['\\', 'f']
  | '\r' => ['\\', 'r']
  | c =>
      if c.toNat < 0x20 then
        ['\\', 'u', '0', '0', hexDigit (c.toNat / 16), hexDigit (c.toNat % 16)]
      else [c]

/-- A string in quotes. -/
def quote (s : String) : String :=
  String.ofList ('"' :: s.toList.flatMap escapeChar ++ ['"'])

/-- The start of a line at a depth of indentation. -/
def newLine (depth : Nat) : String := String.ofList ('\n' :: List.replicate (2 * depth) ' ')

mutual

/-- The value, written at a depth of indentation: every element and every member stands on a line
of its own, an empty list is closed at once. -/
def renderAt (depth : Nat) : JsonValue → String
  | .number n => toString n
  | .bool b => if b then "true" else "false"
  | .string s => quote s
  | .array [] => "[]"
  | .array (elem :: elems) =>
      "[" ++ newLine (depth + 1) ++ renderAt (depth + 1) elem ++ renderElems (depth + 1) elems ++
        newLine depth ++ "]"
  | .object [] => "\x7b\x7d"
  | .object ((key, value) :: members) =>
      "\x7b" ++ newLine (depth + 1) ++ quote key ++ ": " ++ renderAt (depth + 1) value ++
        renderMembers (depth + 1) members ++ newLine depth ++ "\x7d"

/-- Further elements, each after a comma. -/
def renderElems (depth : Nat) : List JsonValue → String
  | [] => ""
  | elem :: elems => "," ++ newLine depth ++ renderAt depth elem ++ renderElems depth elems

/-- Further members, each after a comma. -/
def renderMembers (depth : Nat) : List (String × JsonValue) → String
  | [] => ""
  | (key, value) :: members =>
      "," ++ newLine depth ++ quote key ++ ": " ++ renderAt depth value ++
        renderMembers depth members

end

/-- The value as a text of its own. -/
def render (v : JsonValue) : String := renderAt 0 v

end JsonValue

end ActorFrontend
