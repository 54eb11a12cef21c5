import LocalNet.Log.Event
import LocalNet.Pattern.Reader

/-!
What a directive asks of a field: that it is there, and perhaps what its text ends with.
-/

namespace LocalNet.Log

def asciiLowercase (char : Char) : Char :=
  if 'A' ≤ char && char ≤ 'Z' then Char.ofNat (char.toNat + 32) else char

/-! ### Texts that are taken for numbers -/

def withoutSign (chars : List Char) : List Char :=
  match chars with
  | '+' :: rest => rest
  | '-' :: rest => rest
  | _ => chars

def areDigits (chars : List Char) : Bool :=
  !chars.isEmpty && chars.all Char.isDigit

/-- Nothing, or the letter of an exponent with its digits. -/
def isExponent (chars : List Char) : Bool :=
  match chars with
  | [] => true
  | mark :: rest => (mark = 'e' || mark = 'E') && areDigits (withoutSign rest)

/-- Digits with at most one point among or next to them, and perhaps an exponent. -/
def isDecimal (chars : List Char) : Bool :=
  let whole := chars.takeWhile Char.isDigit
  match chars.drop whole.length with
  | '.' :: rest =>
    let fraction := rest.takeWhile Char.isDigit
    (!whole.isEmpty || !fraction.isEmpty) && isExponent (rest.drop fraction.length)
  | rest => !whole.isEmpty && isExponent rest

/-- A number in decimal digits, or one of the words for those that have none. -/
def isNumeral (text : String) : Bool :=
  let body := withoutSign text.toList
  isDecimal body ||
    ["inf", "infinity", "nan"].contains (String.ofList (body.map asciiLowercase))

inductive ValuePattern where
  /-- A number or a truth value, which no text is. -/
  | noText (source : String)
  | text (source : String) (expression : Pattern.Expression)
  deriving DecidableEq, Repr

namespace ValuePattern

def ofText? (source : String) : Option ValuePattern :=
  if source = "true" || source = "false" || isNumeral source then some (.noText source)
  else (Pattern.Expression.ofText? source).map (.text source)

def fits (text : String) : ValuePattern → Bool
  | .noText _ => false
  | .text _ expression => expression.endsIn text.toList

end ValuePattern

structure FieldPattern where
  name : String
  value : Option ValuePattern := none
  deriving DecidableEq, Repr

namespace FieldPattern

/-- Reads a name, and a value behind an equals sign; what follows a second one counts for
nothing. -/
def ofText? (text : String) : Option FieldPattern :=
  let chars := text.toList
  let name := chars.takeWhile (· ≠ '=')
  match chars.drop name.length with
  | [] => if name.isEmpty then none else some { name := text }
  | _ :: rest =>
    (ValuePattern.ofText? (String.ofList (rest.takeWhile (· ≠ '=')))).map fun value =>
      { name := String.ofList name, value := some value }

def names (pattern : FieldPattern) (span : Span) : Bool :=
  pattern.name = span.field

def fits (pattern : FieldPattern) (span : Span) : Bool :=
  pattern.names span && pattern.value.all (·.fits span.value)

end FieldPattern

end LocalNet.Log
