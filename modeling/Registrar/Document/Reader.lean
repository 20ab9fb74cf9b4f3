import Registrar.Document.Value

/-!
# Documents

A document is a list of statements, one a line: a header, which opens a table or adds one to a
list of tables, or a key with its value, which belongs to the table opened last. `read` finds the
statements and `build` puts them together; a document that breaks the rules of either has no
value.
-/

namespace Registrar.Document

inductive Statement where
  | openTable (path : List String)
  | addTable (path : List String)
  | assign (key : List String) (value : Value)

/-- The rest of a line may hold a comment only. -/
def endLine (cs : List Char) : Option (List Char) := do
  let rest ← match skipSpaces cs with
    | '#' :: rest => skipComment rest
    | rest => some rest
  match rest with
  | [] => some []
  | '\n' :: rest => some rest
  | '\r' :: '\n' :: rest => some rest
  | _ => none

def readHeader (cs : List Char) : Option (List String × List Char) := do
  let (path, rest) ← readKey (skipSpaces cs)
  match skipSpaces rest with
  | ']' :: rest => some (path, rest)
  | _ => none

/-- The statement that a line starts with. -/
def readStatement (cs : List Char) : Option (Statement × List Char) :=
  match cs with
  | '[' :: '[' :: rest => do
    let (path, rest) ← readHeader rest
    match rest with
    | ']' :: rest => return (.addTable path, rest)
    | _ => none
  | '[' :: rest => do
    let (path, rest) ← readHeader rest
    return (.openTable path, rest)
  | _ => do
    let (key, rest) ← readKey cs
    match skipSpaces rest with
    | '=' :: rest =>
      let start := skipSpaces rest
      let (v, rest) ← readValue nestingLimit (start.length + 1) start
      return (.assign key v, rest)
    | _ => none

def readStatements : Nat → List Char → Option (List Statement)
  | 0, _ => none
  | fuel + 1, cs =>
    match skipSpaces cs with
    | [] => some []
    | '\n' :: rest => readStatements fuel rest
    | '\r' :: '\n' :: rest => readStatements fuel rest
    | '#' :: rest => do readStatements fuel (← endLine ('#' :: rest))
    | start => do
      let (statement, rest) ← readStatement start
      let statements ← readStatements fuel (← endLine rest)
      return statement :: statements

/-- Applies `f` to the table at the end of a path. Tables on the way that are missing are made, and
of a list of tables the last one is meant. -/
def updateAt (f : Node.Members → Option Node.Members) : List String → Node.Members → Option Node.Members
  | [], members => f members
  | part :: path, members =>
    match members.lookup part with
    | none => do return members ++ [(part, .table .implicit (← updateAt f path []))]
    | some (.table kind inner) => do
      return Node.replace part (.table kind (← updateAt f path inner)) members
    | some (.tables items) => do
      let last ← items.getLast?
      return Node.replace part (.tables (items.dropLast ++ [← updateAt f path last])) members
    | some (.value _) => none

/-- A table has one header; before it, only headers of tables inside it may have named it. -/
def openMember (name : String) (members : Node.Members) : Option Node.Members :=
  match members.lookup name with
  | none => some (members ++ [(name, .table .explicit [])])
  | some (.table .implicit inner) => some (Node.replace name (.table .explicit inner) members)
  | some _ => none

def addMember (name : String) (members : Node.Members) : Option Node.Members :=
  match members.lookup name with
  | none => some (members ++ [(name, .tables [[]])])
  | some (.tables items) => some (Node.replace name (.tables (items ++ [[]])) members)
  | some _ => none

/-- A document with the path of the table that was opened last. -/
structure Draft where
  current : List String
  root : Node.Members

def Draft.apply (d : Draft) : Statement → Option Draft
  | .openTable path => do
    let name ← path.getLast?
    return ⟨path, ← updateAt (openMember name) path.dropLast d.root⟩
  | .addTable path => do
    let name ← path.getLast?
    return ⟨path, ← updateAt (addMember name) path.dropLast d.root⟩
  | .assign key v => do
    let name ← key.getLast?
    return ⟨d.current, ← updateAt (Node.assign name v key.dropLast) d.current d.root⟩

def build (statements : List Statement) : Option Node.Members :=
  (statements.foldlM Draft.apply ⟨[], []⟩).map (·.root)

def dropMark : List Char → List Char
  | '\ufeff' :: rest => rest
  | cs => cs

/-- The members of the table that a document stands for. -/
def read (text : String) : Option Value.Members := do
  let cs := dropMark text.toList
  return Node.toMembers (← build (← readStatements (cs.length + 1) cs))

end Registrar.Document
