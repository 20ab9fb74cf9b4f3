import Registrar.Text.Printable

/-!
# Quoted texts

A text between double quotes, in which every character can be seen: a quote and a backslash are
escaped, a few controls have letters of their own, and whatever is not plain is given by its
number in hexadecimal. A list of texts is written between square brackets.
-/

namespace Registrar.Text

def hexDigits (n : Nat) : List Char := Nat.toDigits 16 n

def escapeChar (c : Char) : List Char :=
  if c = '\x00' then ['\\', '0']
  else if c = '\t' then ['\\', 't']
  else if c = '\r' then ['\\', 'r']
  else if c = '\n' then ['\\', 'n']
  else if c = '"' then ['\\', '"']
  else if c = '\\' then ['\\', '\\']
  else if isPlain c then [c]
  else ['\\', 'u', '\x7b'] ++ hexDigits c.toNat ++ ['\x7d']

def quote (s : String) : String :=
  String.ofList ('"' :: s.toList.flatMap escapeChar ++ ['"'])

def bracketed (items : List String) : String := "[" ++ ", ".intercalate items ++ "]"

def quoteList (items : List String) : String := bracketed (items.map quote)

end Registrar.Text
