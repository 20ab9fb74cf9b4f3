import Registrar.Text.Digits

/-!
# Writing JSON

Values as JSON texts, either laid out over lines with an indentation of two blanks or on one line.
Only the quote, the backslash and the controls are escaped.
-/

namespace Registrar.Text

inductive Json where
  | text (value : String)
  | number (value : Nat)
  | array (items : List Json)
  | object (members : List (String × Json))

namespace Json

def controlDigits (n : Nat) : List Char := padLeft 4 '0' (Nat.toDigits 16 n)

def escapeChar (c : Char) : List Char :=
  if c = '"' then ['\\', '"']
  else if c = '\\' then ['\\', '\\']
  else if c = '\n' then ['\\', 'n']
  else if c = '\r' then ['\\', 'r']
  else if c = '\t' then ['\\', 't']
  else if c = '\x08' then ['\\', 'b']
  else if c = '\x0c' then ['\\', 'f']
  else if c.toNat < 32 then ['\\', 'u'] ++ controlDigits c.toNat
  else [c]

def quote (s : String) : String :=
  String.ofList ('"' :: s.toList.flatMap escapeChar ++ ['"'])

def indent (level : Nat) : String := String.ofList (List.replicate (2 * level) ' ')

/-- Items on lines of their own between two brackets, which stand close together without items. -/
def layOut (opening closing : String) (level : Nat) (items : List String) : String :=
  if items.isEmpty then opening ++ closing
  else opening ++ "\n" ++ indent (level + 1) ++
    (",\n" ++ indent (level + 1)).intercalate items ++ "\n" ++ indent level ++ closing

mutual

def render (level : Nat) : Json → String
  | text value => quote value
  | number value => toString value
  | array items => layOut "[" "]" level (renderItems (level + 1) items)
  | object members => layOut "\x7b" "\x7d" level (renderMembers (level + 1) members)

def renderItems (level : Nat) : List Json → List String
  | [] => []
  | item :: rest => item.render level :: renderItems level rest

def renderMembers (level : Nat) : List (String × Json) → List String
  | [] => []
  | (name, value) :: rest => (quote name ++ ": " ++ value.render level) :: renderMembers level rest

end

mutual

/-- The same on one line, without blanks. -/
def compact : Json → String
  | text value => quote value
  | number value => toString value
  | array items => "[" ++ ",".intercalate (compactItems items) ++ "]"
  | object members => "\x7b" ++ ",".intercalate (compactMembers members) ++ "\x7d"

def compactItems : List Json → List String
  | [] => []
  | item :: rest => item.compact :: compactItems rest

def compactMembers : List (String × Json) → List String
  | [] => []
  | (name, value) :: rest => (quote name ++ ":" ++ value.compact) :: compactMembers rest

end

end Json

end Registrar.Text
