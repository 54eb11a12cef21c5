import LocalNet.Pattern.Machine
import LocalNet.Text.Blank
import LocalNet.Text.Letter

/-!
Reading regular expressions. Sets of characters that would need a table of Unicode are refused, and
so are letters of either case outside ASCII, word edges outside ASCII, references back and looks
around. Counted repetitions are refused too: no closing brace can stand in a pattern.
-/

namespace LocalNet.Pattern

/-- What can be switched on and off within an expression. -/
structure Flags where
  caseless : Bool := false
  manyLines : Bool := false
  dotTakesAll : Bool := false
  swapsGreed : Bool := false
  unicode : Bool := true
  carriageReturns : Bool := false
  verbose : Bool := false
  deriving DecidableEq, Repr

namespace Flags

def set (flags : Flags) (letter : Char) (value : Bool) : Option Flags :=
  match letter with
  | 'i' => some { flags with caseless := value }
  | 'm' => some { flags with manyLines := value }
  | 's' => some { flags with dotTakesAll := value }
  | 'U' => some { flags with swapsGreed := value }
  | 'u' => some { flags with unicode := value }
  | 'R' => some { flags with carriageReturns := value }
  | 'x' => some { flags with verbose := value }
  | _ => none

/-- Reads letters of flags up to a colon or a closing parenthesis, each of them once at most; those
behind a hyphen are switched off. `letters` are those read, the latest first. -/
def read (flags : Flags) (letters : List Char) : List Char → Option (Flags × List Char)
  | [] => none
  | char :: rest =>
    if char = ':' || char = ')' then
      if letters.head? = some '-' then none else some (flags, char :: rest)
    else if letters.contains char then none
    else if char = '-' then flags.read (char :: letters) rest
    else
      (flags.set char !(letters.contains '-')).bind fun changed =>
        changed.read (char :: letters) rest

end Flags

/-- Without the blanks and the remark that a verbose expression may begin with. -/
def skipRemarks (inRemark : Bool) : List Char → List Char
  | [] => []
  | char :: rest =>
    if inRemark then skipRemarks (char ≠ '\n') rest
    else if char = '#' then skipRemarks true rest
    else if Text.isBlank char then skipRemarks false rest
    else char :: rest

def skip (flags : Flags) (chars : List Char) : List Char :=
  if flags.verbose then skipRemarks false chars else chars

inductive Atom where
  /-- `isByte` tells that the character was written by two digits of its number. -/
  | char (char : Char) (isByte : Bool)
  | set (set : CharSet)
  | look (what : Look)
  deriving DecidableEq, Repr

def hexDigit? (char : Char) : Option Nat :=
  if '0' ≤ char && char ≤ '9' then some (char.toNat - 0x30)
  else if 'a' ≤ char && char ≤ 'f' then some (char.toNat - 0x61 + 10)
  else if 'A' ≤ char && char ≤ 'F' then some (char.toNat - 0x41 + 10)
  else none

def readCode : (digits : Nat) → (value : Nat) → List Char → Option (Char × List Char)
  | 0, value, rest =>
    if value.isValidChar then some (Char.ofNat value, rest) else none
  | digits + 1, value, char :: rest =>
    (hexDigit? char).bind fun digit => readCode digits (value * 16 + digit) rest
  | _ + 1, _, [] => none

def wordSet : CharSet := (CharSet.named? "word").getD .none

def digitSet : CharSet := (CharSet.named? "digit").getD .none

def spaceSet : CharSet := (CharSet.named? "space").getD .none

/-- Any ASCII character but a letter, a digit and an angle stands for itself behind a backslash. -/
def isPlainEscape (char : Char) : Bool :=
  char.toNat < 0x80 && !char.isAlphanum && char ≠ '<' && char ≠ '>'

def readEscape (flags : Flags) : List Char → Option (Atom × List Char)
  | [] => none
  | char :: rest =>
    let plain := fun (code : Nat) => some (Atom.char (Char.ofNat code) false, rest)
    let ascii := fun (atom : Atom) => if flags.unicode then none else some (atom, rest)
    match char with
    | 'x' => (readCode 2 0 rest).map fun read => (.char read.1 true, read.2)
    | 'u' => (readCode 4 0 rest).map fun read => (.char read.1 false, read.2)
    | 'U' => (readCode 8 0 rest).map fun read => (.char read.1 false, read.2)
    | 'a' => plain 0x07
    | 't' => plain 0x09
    | 'n' => plain 0x0A
    | 'v' => plain 0x0B
    | 'f' => plain 0x0C
    | 'r' => plain 0x0D
    | 'A' => some (.look .textStart, rest)
    | 'z' => some (.look .textEnd, rest)
    | 'b' => ascii (.look .wordEdge)
    | 'B' => ascii (.look .noWordEdge)
    | '<' => ascii (.look .wordStart)
    | '>' => ascii (.look .wordEnd)
    | 'd' => ascii (.set digitSet)
    | 's' => ascii (.set spaceSet)
    | 'w' => ascii (.set wordSet)
    | _ => if isPlainEscape char then some (.char char false, rest) else none

def expressionOfChar (flags : Flags) (char : Char) (isByte : Bool) : Option Expression :=
  if flags.unicode then
    if flags.caseless then none else some (.one (.single char))
  else if isByte && 0x7F < char.toNat then none
  else if flags.caseless then some (.one (.caseless (.single char)))
  else some (.one (.single char))

def expressionOfAtom (flags : Flags) : Atom → Option Expression
  | .char char isByte => expressionOfChar flags char isByte
  | .set set => some (.one set)
  | .look what => some (.look what)

/-- What a dot takes; without Unicode it could take parts of characters, and is refused. -/
def dot? (flags : Flags) : Option Expression :=
  let all := CharSet.complement .none
  if !flags.unicode then none
  else if flags.dotTakesAll then some (.one all)
  else if flags.carriageReturns then
    some (.one (.difference all (.union (.single '\r') (.single '\n'))))
  else some (.one (.difference all (.single '\n')))

def caret (flags : Flags) : Expression :=
  if !flags.manyLines then .look .textStart
  else if flags.carriageReturns then .look .anyLineStart
  else .look .lineStart

def dollar (flags : Flags) : Expression :=
  if !flags.manyLines then .look .textEnd
  else if flags.carriageReturns then .look .anyLineEnd
  else .look .lineEnd

/-! ### Sets in brackets -/

inductive SetOperator where
  | intersection
  | difference
  | symmetricDifference
  deriving DecidableEq, Repr

def SetOperator.apply (left : CharSet) : SetOperator → CharSet → CharSet
  | .intersection, right => .intersection left right
  | .difference, right => .difference left right
  | .symmetricDifference, right => .symmetricDifference left right

/-- A set whose bracket is open: the operand and operator in front, and what has been listed since
then. -/
structure OpenSet where
  negated : Bool
  pending : Option (CharSet × SetOperator) := none
  listed : CharSet := .none
  deriving DecidableEq, Repr

namespace OpenSet

def add (draft : OpenSet) (set : CharSet) : OpenSet :=
  { draft with listed := .union draft.listed set }

def value (draft : OpenSet) : CharSet :=
  match draft.pending with
  | none => draft.listed
  | some (left, operator) => operator.apply left draft.listed

def operate (draft : OpenSet) (operator : SetOperator) : OpenSet :=
  { draft with pending := some (draft.value, operator), listed := .none }

end OpenSet

/-- Sets outside ASCII, and other cases of letters outside of it, need a table. -/
def finishSet (flags : Flags) (negated : Bool) (set : CharSet) : Option CharSet :=
  if flags.unicode then
    if flags.caseless then none
    else some (if negated then .complement set else set)
  else if negated then none
  else some (if flags.caseless then .caseless set else set)

def setCode? (flags : Flags) : Atom → Option Nat
  | .char char _ => if flags.unicode || char.toNat < 0x80 then some char.toNat else none
  | _ => none

def setOfAtom? (flags : Flags) : Atom → Option CharSet
  | .set set => some set
  | atom => (setCode? flags atom).map fun code => .ranges [(code, code)]

def readSetAtom (flags : Flags) : List Char → Option (Atom × List Char)
  | [] => none
  | '\\' :: rest => readEscape flags rest
  | char :: rest => some (.char char false, rest)

/-- Reads a character, a range or an escape within brackets. A hyphen makes a range unless it is the
last character of the set or doubled. -/
def readSetItem (flags : Flags) (chars : List Char) : Option (CharSet × List Char) :=
  (readSetAtom flags chars).bind fun (first, rest) =>
    let rest := skip flags rest
    let alone := (setOfAtom? flags first).map fun set => (set, rest)
    match rest with
    | '-' :: behind =>
      let next := (skip flags behind).head?
      if next = some ']' || next = some '-' then alone
      else
        (readSetAtom flags (skip flags behind)).bind fun (last, after) =>
          match setCode? flags first, setCode? flags last with
          | some low, some high => if low ≤ high then some (.ranges [(low, high)], after) else none
          | _, _ => none
    | _ => alone

/-- A named set, as in `[:alpha:]`, and whether it is negated. The text begins behind the opening
bracket. -/
def readNamedSet (chars : List Char) : Option (CharSet × Bool × List Char) :=
  match chars with
  | ':' :: rest =>
    let negated : Bool := rest.head? = some '^'
    let rest := if negated then rest.drop 1 else rest
    let name := rest.takeWhile (· ≠ ':')
    match rest.drop name.length with
    | ':' :: ']' :: after =>
      (CharSet.named? (String.ofList name)).map fun set => (set, negated, after)
    | _ => none
  | _ => none

/-- Begins a set behind its opening bracket. Hyphens in front stand for themselves, and so does a
closing bracket at the very front. -/
def beginSet (flags : Flags) (chars : List Char) : OpenSet × List Char :=
  let chars := skip flags chars
  let negated : Bool := chars.head? = some '^'
  let chars := if negated then skip flags (chars.drop 1) else chars
  let hyphens := chars.takeWhile (· = '-')
  let rest := skip flags (chars.drop hyphens.length)
  let draft : OpenSet := { negated := negated }
  if !hyphens.isEmpty then (draft.add (.single '-'), rest)
  else
    match rest with
    | ']' :: behind => (draft.add (.single ']'), behind)
    | _ => (draft, rest)

/-- Reads a set up to its closing bracket; `outer` are the sets it stands in, the nearest first. -/
def readSet (flags : Flags) :
    (fuel : Nat) → (draft : OpenSet) → (outer : List OpenSet) → List Char →
      Option (CharSet × List Char)
  | 0, _, _, _ => none
  | fuel + 1, draft, outer, chars =>
    match skip flags chars with
    | [] => none
    | '[' :: rest =>
      match readNamedSet rest with
      | some (set, negated, after) =>
        (finishSet flags negated set).bind fun named =>
          readSet flags fuel (draft.add named) outer after
      | none =>
        let (inner, after) := beginSet flags rest
        readSet flags fuel inner (draft :: outer) after
    | ']' :: rest =>
      (finishSet flags draft.negated draft.value).bind fun set =>
        match outer with
        | [] => some (set, rest)
        | nearest :: others => readSet flags fuel (nearest.add set) others rest
    | '&' :: '&' :: rest => readSet flags fuel (draft.operate .intersection) outer rest
    | '-' :: '-' :: rest => readSet flags fuel (draft.operate .difference) outer rest
    | '~' :: '~' :: rest => readSet flags fuel (draft.operate .symmetricDifference) outer rest
    | shown =>
      (readSetItem flags shown).bind fun (set, after) =>
        readSet flags fuel (draft.add set) outer after

/-! ### Expressions -/

structure Draft where
  flags : Flags := {}
  /-- The ways in front of the bar, the latest first. -/
  ways : List Expression := []
  /-- What the present way consists of, the latest first; a switch of flags is absent. -/
  parts : List (Option Expression) := []
  deriving DecidableEq, Repr

namespace Draft

def add (draft : Draft) (expression : Expression) : Draft :=
  { draft with parts := some expression :: draft.parts }

def way (draft : Draft) : Expression :=
  match draft.parts.filterMap id with
  | [] => .empty
  | last :: earlier => earlier.foldl (fun rest part => .seq part rest) last

def bar (draft : Draft) : Draft :=
  { draft with ways := draft.way :: draft.ways, parts := [] }

def value (draft : Draft) : Expression :=
  draft.ways.foldl (fun rest way => .either way rest) draft.way

/-- Repeats the latest part; there has to be one. -/
def again (draft : Draft) (wrap : Expression → Expression) : Option Draft :=
  match draft.parts with
  | some part :: earlier => some { draft with parts := some (wrap part) :: earlier }
  | _ => none

end Draft

inductive Opening where
  | group (flags : Flags) (rest : List Char)
  | named (name : List Char) (rest : List Char)
  | switch (flags : Flags) (rest : List Char)

def isNameCharacter (char : Char) (isFirst : Bool) : Bool :=
  if isFirst then char = '_' || Text.isLetter char
  else char = '_' || char = '.' || char = '[' || char = ']' || Text.isLetterOrNumber char

def readName (chars : List Char) : Option Opening :=
  let name := chars.takeWhile (· ≠ '>')
  match name, chars.drop name.length with
  | first :: others, _ :: rest =>
    if isNameCharacter first true && others.all (isNameCharacter · false) then
      some (.named name rest)
    else none
  | _, _ => none

def readOpening (flags : Flags) (chars : List Char) : Option Opening :=
  match skip flags chars with
  | '?' :: 'P' :: '<' :: rest => readName rest
  | '?' :: '<' :: rest => readName rest
  | '?' :: rest =>
    (flags.read [] rest).bind fun (changed, after) =>
      match after with
      | ')' :: behind => if rest.head? = some ')' then none else some (.switch changed behind)
      | _ => some (.group changed (after.drop 1))
  | rest => some (.group flags rest)

def repetition? (greedy : Bool) : Char → Option (Expression → Expression)
  | '?' => some (.optional greedy)
  | '*' => some (.star greedy)
  | '+' => some (.plus greedy)
  | _ => none

def readPart (flags : Flags) : List Char → Option (Expression × List Char)
  | [] => none
  | '[' :: rest =>
    let (draft, after) := beginSet flags rest
    (readSet flags (rest.length + 1) draft [] after).map fun (set, behind) => (.one set, behind)
  | '.' :: rest => (dot? flags).map fun dot => (dot, rest)
  | '^' :: rest => some (caret flags, rest)
  | '$' :: rest => some (dollar flags, rest)
  | '\\' :: rest =>
    (readEscape flags rest).bind fun (atom, after) =>
      (expressionOfAtom flags atom).map fun expression => (expression, after)
  | char :: rest =>
    if char = '\x7b' then none
    else (expressionOfChar flags char false).map fun expression => (expression, rest)

/-- Reads an expression; `outer` are the groups that the draft stands in, the nearest first, and
`names` the names of groups so far. -/
def read : (fuel : Nat) → (draft : Draft) → (outer : List Draft) → (names : List (List Char)) →
    List Char → Option Expression
  | 0, _, _, _, _ => none
  | fuel + 1, draft, outer, names, chars =>
    match skip draft.flags chars with
    | [] => if outer.isEmpty then some draft.value else none
    | '(' :: rest =>
      (readOpening draft.flags rest).bind fun opening =>
        match opening with
        | .switch flags after =>
          read fuel { draft with flags := flags, parts := none :: draft.parts } outer names after
        | .group flags after => read fuel { flags := flags } (draft :: outer) names after
        | .named name after =>
          if names.contains name then none
          else read fuel { flags := draft.flags } (draft :: outer) (name :: names) after
    | ')' :: rest =>
      match outer with
      | [] => none
      | nearest :: others => read fuel (nearest.add draft.value) others names rest
    | '|' :: rest => read fuel draft.bar outer names rest
    | char :: rest =>
      match repetition? true char with
      | some _ =>
        let isLazy : Bool := rest.head? = some '?'
        let after := if isLazy then rest.drop 1 else rest
        ((repetition? (isLazy == draft.flags.swapsGreed) char).bind draft.again).bind fun next =>
          read fuel next outer names after
      | none =>
        (readPart draft.flags (char :: rest)).bind fun (expression, after) =>
          read fuel (draft.add expression) outer names after

/-- The expression that a text writes down. Every step of reading takes a character. -/
def Expression.ofText? (text : String) : Option Expression :=
  read (text.toList.length + 1) {} [] [] text.toList

end LocalNet.Pattern
