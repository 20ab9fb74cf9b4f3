import Registrar.Event
import Registrar.Text.Blank
import Registrar.Text.Digits
import Registrar.Text.Split

/-!
# Log filters

A filter is a list of directives, each of which lets events through from some level on, if their
targets begin with a given text and they have a given field. Of the directives that care about an
event the most specific one decides: a longer target goes before a shorter one, one with a field
before one without, and the later directive before an earlier one for the same target and field.
Directives for spans never decide, for no event happens inside a span.
-/

namespace Registrar

/-- The least severity that is let through; nothing at all if there is none. -/
abbrev Threshold := Option Severity

def Threshold.admits (t : Threshold) (s : Severity) : Bool :=
  match t with
  | some least => least.rank ≤ s.rank
  | none => false

/-- What a filter looks at. -/
structure Metadata where
  severity : Severity
  target : String
  fields : List String
deriving DecidableEq, Repr

/-- The message counts as a field. -/
def Event.metadata (e : Event) : Metadata :=
  ⟨e.severity, e.target, "message" :: e.fields.map (·.1)⟩

structure Directive where
  threshold : Threshold
  target : Option String
  field : Option String
deriving DecidableEq, Repr

namespace Directive

/-- A directive as it is read; it decides events if it names no span and no value of a field. -/
structure Draft where
  directive : Directive
  decides : Bool

def ofLevel (s : Severity) : Directive := ⟨some s, none, none⟩

/-- What is let through if nothing is said. -/
def fallback : Directive := ofLevel .error

def equalFold (a b : String) : Bool := a.toLower = b.toLower

def thresholdNames : List (String × Threshold) :=
  [("error", some .error), ("warn", some .warn), ("info", some .info), ("debug", some .debug),
    ("trace", some .trace), ("off", none)]

def thresholdNumbers : List Threshold :=
  [none, some .error, some .warn, some .info, some .debug, some .trace]

/-- A level by its number or by its name in any case. -/
def readThreshold? (text : String) : Option Threshold :=
  match (Text.natural? text.toList).bind (thresholdNumbers[·]?) with
  | some t => some t
  | none => (thresholdNames.find? (equalFold text ·.1)).map (·.2)

def isTargetStart (c : Char) : Bool := c ∈ ['-', ':', '_'] || c.isAlphanum || 127 < c.toNat

/-- A place in a directive. Its parts are found in the directive without the blanks around it, but
they are cut from the directive as it stands. -/
structure Cursor where
  seen : List Char
  given : List Char

/-- The part up to the next mark, the mark, and the place after it. -/
def Cursor.cut (c : Cursor) (isMark : Char → Bool) : Option (String × Char × Cursor) :=
  match c.seen.dropWhile (!isMark ·) with
  | [] => none
  | mark :: rest =>
    let n := c.seen.length - (rest.length + 1)
    some (String.ofList (c.given.take n), mark, ⟨rest, c.given.drop (n + 1)⟩)

/-- The level after an equals sign; everything if nothing follows. -/
def readLevel (text : String) : Option Threshold :=
  if text = "" then some (some .trace) else readThreshold? text

/-- After a closing bracket. -/
def readEnd (c : Cursor) : Option Threshold :=
  match c.seen with
  | [] => some (some .trace)
  | '=' :: _ => readLevel (String.ofList (c.given.drop 1))
  | _ => none

/-- After an opening bracket: a span, and a field between braces, which may have a value. -/
def readBracket (target : Option String) (c : Cursor) : Option Draft := do
  let (span, mark, c) ← c.cut fun ch => ch = ']' || ch = '\x7b'
  if mark = ']' then return ⟨⟨← readEnd c, target, none⟩, false⟩
  let (field, _, c) ← c.cut (· = '\x7d')
  let name := field.toList.takeWhile (· ≠ '=')
  match c.seen with
  | ']' :: rest =>
    if field = "" then none
    let threshold ← readEnd ⟨rest, c.given.drop 1⟩
    return ⟨⟨threshold, target, some (String.ofList name)⟩,
      span = "" && name.length = field.length⟩
  | _ => none

/-- A single directive: a level, a target, or a target with a level. -/
def read (text : String) : Option Draft :=
  let c : Cursor := ⟨Text.trimChars text.toList, text.toList⟩
  match c.seen with
  | [] => none
  | '[' :: rest => readBracket none ⟨rest, c.given.drop 1⟩
  | first :: _ =>
    if !isTargetStart first then none
    else match c.cut fun ch => ch = '=' || ch = '[' with
      | none =>
        match readThreshold? text with
        | some t => some ⟨⟨t, none, none⟩, true⟩
        | none => some ⟨⟨some .trace, some text, none⟩, true⟩
      | some (target, '=', c) => do
        return ⟨⟨← readLevel (String.ofList c.given), some target, none⟩, true⟩
      | some (target, _, c) => readBracket (some target) c

def caresAbout (d : Directive) (e : Metadata) : Bool :=
  (match d.target with
    | some target => target.isPrefixOf e.target
    | none => true) && d.field.all (· ∈ e.fields)

/-- How specific a directive is; longer targets come first, then a field. -/
def specificity (d : Directive) : Nat × Nat :=
  (match d.target with
    | some target => target.utf8ByteSize + 1
    | none => 0, d.field.toList.length)

def moreSpecific (a b : Directive) : Bool :=
  let (x, m) := a.specificity
  let (y, n) := b.specificity
  y < x || (x = y && (n < m || (m = n && (
    b.target.getD "" < a.target.getD "" ||
      (a.target = b.target && b.field.getD "" < a.field.getD "")))))

def sameScope (a b : Directive) : Bool := a.target = b.target && a.field = b.field

end Directive

structure Filter where
  directives : List Directive

namespace Filter

/-- A later directive takes the place of an earlier one for the same events. -/
def add (f : Filter) (d : Directive) : Filter :=
  ⟨f.directives.filter (!d.sameScope ·) ++ [d]⟩

def ofDirectives (ds : List Directive) : Filter := ds.foldl add ⟨[]⟩

def standard : Filter := ofDirectives [.fallback]

def ofLevel (s : Severity) : Filter := standard.add (.ofLevel s)

def deciding? (f : Filter) (e : Metadata) : Option Directive :=
  (f.directives.filter (·.caresAbout e)).foldl
    (fun best d => match best with
      | some b => if d.moreSpecific b then some d else some b
      | none => some d) none

def admits (f : Filter) (e : Metadata) : Bool :=
  match f.deciding? e with
  | some d => d.threshold.admits e.severity
  | none => false

/-- A filter from directives with commas between them. -/
def read (text : String) : Option Filter := do
  let parts := (Text.splitAt ',' text.toList).filter (!·.isEmpty)
  let drafts ← parts.mapM fun part => Directive.read (String.ofList part)
  if drafts.isEmpty then return standard
  else return ofDirectives ((drafts.filter (·.decides)).map (·.directive))

/-- The level of a filter that makes no difference between targets, as a word. -/
def text (f : Filter) : String :=
  ",".intercalate (f.directives.map fun d => match d.threshold with
    | some s => s.word
    | none => "off")

end Filter

/-- The filter for a configured level. -/
def levelFilter (level : String) : Except Fault Filter := (Severity.parse level).map .ofLevel

end Registrar
