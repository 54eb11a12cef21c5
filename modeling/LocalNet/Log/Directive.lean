import LocalNet.Bytes
import LocalNet.Log.FieldPattern

/-!
Directives, the parts of a filter for what is logged. A directive is written
`target[span{field=value}]=level`, and every part of it may be missing.
-/

namespace LocalNet.Log

/-- Without a level a directive lets everything pass. -/
def fullVerbosity : Nat := 5

structure Directive where
  target : Option String := none
  span : Option String := none
  field : Option FieldPattern := none
  verbosity : Nat := fullVerbosity
  deriving DecidableEq, Repr

namespace Directive

/-- Levels by name, in any case of its letters; the place of a name is its number. -/
def levelNames : List String :=
  ["off", "error", "warn", "info", "debug", "trace"]

/-- A level by its number, which may have a plus sign, or by its name. -/
def levelOf? (text : String) : Option Nat :=
  let chars := text.toList
  let digits := if chars.head? = some '+' then chars.drop 1 else chars
  if areDigits digits then (String.ofList digits).toNat?.filter (· ≤ fullVerbosity)
  else levelNames.idxOf? (String.ofList (chars.map asciiLowercase))

/-- How far the reading of a directive has come. A place is that of the byte where a part begins. -/
inductive Reading where
  | start
  /-- A level or a target. -/
  | word (place : Nat)
  | span (place : Nat)
  | field (place : Nat)
  | afterField
  | afterSpan
  | level (place : Nat)
  deriving DecidableEq, Repr

def startsWord (char : Char) : Bool :=
  char = '-' || char = ':' || char = '_' || Text.isLetterOrNumber char

def slice (text : Bytes) (start stop : Nat) : Option String :=
  Bytes.toText? ((text.take stop).drop start)

/-- Goes past a character at a place; the parts of `text` that it ends are put into the directive. A
field without the name of a span is asked of every span. -/
def readCharacter (text : Bytes) (place : Nat) (char : Char) (directive : Directive) :
    Reading → Option (Directive × Reading)
  | .start =>
    if char = '[' then some (directive, .span (place + 1))
    else if startsWord char then some (directive, .word place)
    else none
  | .word start =>
    let toTarget := fun (next : Reading) =>
      (slice text start place).map fun target => ({ directive with target := some target }, next)
    if char = '=' then toTarget (.level (place + 1))
    else if char = '[' then toTarget (.span (place + 1))
    else some (directive, .word start)
  | .span start =>
    if char = ']' then
      (slice text start place).map fun span => ({ directive with span := some span }, .afterSpan)
    else if char = '\x7b' then
      (slice text start place).map fun span =>
        ({ directive with span := if span.isEmpty then none else some span }, .field (place + 1))
    else some (directive, .span start)
  | .field start =>
    if char = '\x7d' then
      ((slice text start place).bind FieldPattern.ofText?).map fun field =>
        ({ directive with field := some field }, .afterField)
    else some (directive, .field start)
  | .afterField => if char = ']' then some (directive, .afterSpan) else none
  | .afterSpan => if char = '=' then some (directive, .level (place + 1)) else none
  | .level start => some (directive, .level start)

/-- Ends a directive with its level, or with a word that is a level if it can be read as one, and a
target if not. -/
def finish (text : Bytes) (directive : Directive) : Reading → Option Directive
  | .word start =>
    (slice text start text.length).map fun word =>
      match levelOf? word with
      | some verbosity => { directive with verbosity := verbosity }
      | none => { directive with target := some word }
  | .level start =>
    (slice text start text.length).bind fun level =>
      if level.isEmpty then some directive
      else (levelOf? level).map fun verbosity => { directive with verbosity := verbosity }
  | .afterSpan => some directive
  | _ => none

def readFrom (text : Bytes) (place : Nat) (directive : Directive) (reading : Reading) :
    List Char → Option Directive
  | [] => directive.finish text reading
  | char :: rest =>
    match directive.readCharacter text place char reading with
    | some (next, reading) => readFrom text (place + char.utf8Size) next reading rest
    | none => none

/-- Reads a directive. Places are counted without the blanks around it, and then used with them:
what begins with a blank has its parts shifted. -/
def ofText (text : String) : Option Directive :=
  readFrom (Bytes.ofText text) 0 {} .start (Text.trimmed text.toList)

def targetSize (directive : Directive) : Nat :=
  directive.target.elim 0 fun target => target.utf8ByteSize + 1

def fieldName (directive : Directive) : String :=
  directive.field.elim "" FieldPattern.name

/-- A longer target is more special; of two as long, the one with a field is, and then the one whose
field comes later in the alphabet. -/
def yieldsTo (directive other : Directive) : Bool :=
  if directive.targetSize ≠ other.targetSize then directive.targetSize < other.targetSize
  else if directive.field.isSome ≠ other.field.isSome then other.field.isSome
  else directive.fieldName ≤ other.fieldName

def coversTarget (directive : Directive) (target : String) : Bool :=
  directive.target.all fun start => start.toList.isPrefixOf target.toList

/-- Whether the directive can be judged before any value is known. -/
def isStatic (directive : Directive) : Bool :=
  directive.span.isNone && directive.field.all (·.value.isNone)

def isDynamic (directive : Directive) : Bool :=
  directive.span.isSome || directive.field.isSome

def asksAlike (directive other : Directive) : Bool :=
  directive.target = other.target && directive.span = other.span && directive.field = other.field

def asksFor (directive : Directive) (span : Span) : Bool :=
  directive.isDynamic && directive.coversTarget span.target &&
    directive.span.all (· = span.name) && directive.field.all (·.names span)

def holdsIn (directive : Directive) (span : Span) : Bool :=
  directive.asksFor span && directive.field.all (·.fits span)

end Directive

end LocalNet.Log
