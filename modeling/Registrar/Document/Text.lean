/-!
# Texts in a document

The four forms of a text in a configuration document: between double quotes, with escapes, or
between single quotes, as it stands; and either of them over several lines, between three quotes,
where a line break directly after the opening is not part of the text and a line break counts as
one character. Each reader starts after the opening quotes and returns the rest after the closing
ones.
-/

namespace Registrar.Document

/-- A text and what follows it. -/
abbrev Rest (α : Type) := Option (α × List Char)

def isSpace (c : Char) : Bool := c = ' ' || c = '\t'

/-- All characters but the controls; the tabulator is allowed. -/
def isAllowed (c : Char) : Bool := c = '\t' || (32 ≤ c.toNat && c.toNat ≠ 127)

def hexValue? (c : Char) : Option Nat :=
  if '0' ≤ c ∧ c ≤ '9' then some (c.toNat - '0'.toNat)
  else if 'a' ≤ c ∧ c ≤ 'f' then some (c.toNat - 'a'.toNat + 10)
  else if 'A' ≤ c ∧ c ≤ 'F' then some (c.toNat - 'A'.toNat + 10)
  else none

def hexNumber? (digits : List Char) : Option Nat :=
  digits.foldlM (fun n c => (hexValue? c).map (16 * n + ·)) 0

/-- The character with a number in hexadecimal; surrogates are none. -/
def numbered? (digits : List Char) : Option Char := do
  let n ← hexNumber? digits
  if h : n.isValidChar then some (Char.ofNatAux n h) else none

/-- The escapes of a backslash and one character. -/
def escaped? (c : Char) : Option Char :=
  match c with
  | 'b' => some '\x08'
  | 't' => some '\t'
  | 'n' => some '\n'
  | 'f' => some '\x0c'
  | 'r' => some '\r'
  | '"' => some '"'
  | '\\' => some '\\'
  | _ => none

def push (c : Char) (r : Rest (List Char)) : Rest (List Char) := r.map fun (cs, rest) => (c :: cs, rest)

def readQuoted : List Char → Rest (List Char)
  | [] => none
  | '"' :: rest => some ([], rest)
  | '\\' :: 'u' :: a :: b :: c :: d :: rest =>
    match numbered? [a, b, c, d] with
    | some x => push x (readQuoted rest)
    | none => none
  | '\\' :: 'U' :: a :: b :: c :: d :: e :: f :: g :: h :: rest =>
    match numbered? [a, b, c, d, e, f, g, h] with
    | some x => push x (readQuoted rest)
    | none => none
  | '\\' :: c :: rest =>
    match escaped? c with
    | some x => push x (readQuoted rest)
    | none => none
  | c :: rest => if c ≠ '\\' && isAllowed c then push c (readQuoted rest) else none

def readVerbatim : List Char → Rest (List Char)
  | [] => none
  | '\'' :: rest => some ([], rest)
  | c :: rest => if isAllowed c then push c (readVerbatim rest) else none

/-- A backslash that only blanks separate from the end of its line takes them away, with the line
break and all blanks and breaks that follow. -/
def endsLine (rest : List Char) : Bool :=
  match rest.dropWhile isSpace with
  | '\n' :: _ => true
  | '\r' :: '\n' :: _ => true
  | _ => false

/-- `skipping` holds after a backslash that has ended a line. -/
def readQuotedLines (skipping : Bool) : List Char → Rest (List Char)
  | [] => none
  | '"' :: '"' :: '"' :: '"' :: '"' :: rest => some (['"', '"'], rest)
  | '"' :: '"' :: '"' :: '"' :: rest => some (['"'], rest)
  | '"' :: '"' :: '"' :: rest => some ([], rest)
  | '\r' :: '\n' :: rest =>
    if skipping then readQuotedLines true rest else push '\n' (readQuotedLines false rest)
  | '\\' :: 'u' :: a :: b :: c :: d :: rest =>
    match numbered? [a, b, c, d] with
    | some x => push x (readQuotedLines false rest)
    | none => none
  | '\\' :: 'U' :: a :: b :: c :: d :: e :: f :: g :: h :: rest =>
    match numbered? [a, b, c, d, e, f, g, h] with
    | some x => push x (readQuotedLines false rest)
    | none => none
  | '\\' :: c :: rest =>
    match escaped? c with
    | some x => push x (readQuotedLines false rest)
    | none => if endsLine (c :: rest) then readQuotedLines true (c :: rest) else none
  | c :: rest =>
    if c = '\n' then
      if skipping then readQuotedLines true rest else push '\n' (readQuotedLines false rest)
    else if skipping && isSpace c then readQuotedLines true rest
    else if c ≠ '\\' && isAllowed c then push c (readQuotedLines false rest)
    else none

def readVerbatimLines : List Char → Rest (List Char)
  | [] => none
  | '\'' :: '\'' :: '\'' :: '\'' :: '\'' :: rest => some (['\'', '\''], rest)
  | '\'' :: '\'' :: '\'' :: '\'' :: rest => some (['\''], rest)
  | '\'' :: '\'' :: '\'' :: rest => some ([], rest)
  | '\r' :: '\n' :: rest => push '\n' (readVerbatimLines rest)
  | c :: rest => if c = '\n' || isAllowed c then push c (readVerbatimLines rest) else none

def dropBreak : List Char → List Char
  | '\n' :: rest => rest
  | '\r' :: '\n' :: rest => rest
  | rest => rest

def asString (r : Rest (List Char)) : Rest String := r.map fun (cs, rest) => (String.ofList cs, rest)

/-- A text in any of the forms. -/
def readText : List Char → Rest String
  | '"' :: '"' :: '"' :: rest => asString (readQuotedLines false (dropBreak rest))
  | '"' :: rest => asString (readQuoted rest)
  | '\'' :: '\'' :: '\'' :: rest => asString (readVerbatimLines (dropBreak rest))
  | '\'' :: rest => asString (readVerbatim rest)
  | _ => none

end Registrar.Document
