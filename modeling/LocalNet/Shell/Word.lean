/-!
Words of a shell script. A script is cut into words and operators; a word keeps which of its parts
were quoted, and where parameters stand in it.
-/

namespace LocalNet.Shell

inductive Piece where
  | plain (text : String) (quoted : Bool)
  | parameter (name : String) (quoted : Bool)
  deriving DecidableEq, Repr

abbrev Word := List Piece

inductive Token where
  | word (word : Word)
  | operator (text : String)
  deriving DecidableEq, Repr

inductive Mode where
  | bare
  | single
  | double
  | comment
  | escape (quoted : Bool)
  | dollar (quoted : Bool)
  | name (quoted : Bool) (chars : List Char)
  | braced (quoted : Bool) (chars : List Char)
  | operator (char : Char)
  deriving DecidableEq, Repr

/-- Everything collected so far stands in reverse. -/
structure Lexer where
  tokens : List Token := []
  /-- Whether a word has begun, even an empty one. -/
  begun : Bool := false
  pieces : List Piece := []
  text : List Char := []
  mode : Mode := .bare

namespace Lexer

def isNameStart (char : Char) : Bool :=
  char.isAlpha || char = '_'

def isNameRest (char : Char) : Bool :=
  char.isAlphanum || char = '_'

/-- Parameters of one character that need no braces. -/
def isSpecial (char : Char) : Bool :=
  char.isDigit || ['@', '*', '#', '?', '$', '!', '-'].contains char

def isOperator (char : Char) : Bool :=
  [';', '&', '|', '<', '>', '(', ')', '\n'].contains char

/-- Operators of two characters. -/
def pairs : List String :=
  [";;", "&&", "||", ">>", ">&", "<&"]

def closeText (quoted : Bool) (lexer : Lexer) : Lexer :=
  if lexer.text.isEmpty then lexer
  else
    { lexer with
      pieces := .plain (String.ofList lexer.text.reverse) quoted :: lexer.pieces
      text := [] }

def closeWord (lexer : Lexer) : Lexer :=
  let closed := lexer.closeText false
  if closed.begun then
    { tokens := .word closed.pieces.reverse :: closed.tokens }
  else { tokens := closed.tokens }

def push (char : Char) (lexer : Lexer) : Lexer :=
  { lexer with text := char :: lexer.text, begun := true }

def addParameter (name : String) (quoted : Bool) (lexer : Lexer) : Lexer :=
  let closed := lexer.closeText quoted
  { closed with pieces := .parameter name quoted :: closed.pieces, begun := true }

def after (quoted : Bool) : Mode :=
  if quoted then .double else .bare

def bareStep (char : Char) (lexer : Lexer) : Lexer :=
  if char = ' ' || char = '\t' then lexer.closeWord
  else if isOperator char then { lexer.closeWord with mode := .operator char }
  else if char = '#' && !lexer.begun then { lexer with mode := .comment }
  else if char = '\'' then { lexer.closeText false with mode := .single, begun := true }
  else if char = '"' then { lexer.closeText false with mode := .double, begun := true }
  else if char = '\\' then { lexer with mode := .escape false }
  else if char = '$' then { lexer with mode := .dollar false, begun := true }
  else lexer.push char

def doubleStep (char : Char) (lexer : Lexer) : Lexer :=
  if char = '"' then
    let closed := lexer.closeText true
    { closed with
      mode := .bare
      pieces := if closed.pieces.isEmpty then [.plain "" true] else closed.pieces }
  else if char = '\\' then { lexer with mode := .escape true }
  else if char = '$' then { lexer with mode := .dollar true }
  else lexer.push char

/-- Goes on in the mode that a closed parameter returns to. -/
def resume (quoted : Bool) (char : Char) (lexer : Lexer) : Lexer :=
  let back := { lexer with mode := after quoted }
  if quoted then back.doubleStep char else back.bareStep char

def step (lexer : Lexer) (char : Char) : Lexer :=
  match lexer.mode with
  | .bare => lexer.bareStep char
  | .double => lexer.doubleStep char
  | .single =>
    if char = '\'' then
      let closed := lexer.closeText true
      { closed with
        mode := .bare
        pieces := if closed.pieces.isEmpty then [.plain "" true] else closed.pieces }
    else lexer.push char
  | .comment =>
    if char = '\n' then { lexer with mode := .bare }.bareStep char else lexer
  | .escape quoted =>
    let back := { lexer with mode := after quoted }
    if char = '\n' then back
    else if quoted then
      if ['$', '"', '\\', Char.ofNat 96].contains char then back.push char
      else (back.push '\\').push char
    else
      let closed := back.closeText false
      { closed with pieces := .plain (String.singleton char) true :: closed.pieces, begun := true }
  | .dollar quoted =>
    if char = '\x7b' then { lexer with mode := .braced quoted [] }
    else if isNameStart char then { lexer with mode := .name quoted [char] }
    else if isSpecial char then
      { lexer.addParameter (String.singleton char) quoted with mode := after quoted }
    else (lexer.push '$').resume quoted char
  | .name quoted chars =>
    if isNameRest char then { lexer with mode := .name quoted (char :: chars) }
    else (lexer.addParameter (String.ofList chars.reverse) quoted).resume quoted char
  | .braced quoted chars =>
    if char = '\x7d' then
      { lexer.addParameter (String.ofList chars.reverse) quoted with mode := after quoted }
    else { lexer with mode := .braced quoted (char :: chars) }
  | .operator first =>
    let both := String.ofList [first, char]
    if pairs.contains both then
      { lexer with tokens := .operator both :: lexer.tokens, mode := .bare }
    else
      { lexer with
        tokens := .operator (String.singleton first) :: lexer.tokens
        mode := .bare }.bareStep char

end Lexer

def tokens (script : String) : List Token :=
  let read := (script.toList ++ ['\n']).foldl Lexer.step {}
  (match read.mode with
    | .operator char => Token.operator (String.singleton char) :: read.tokens
    | _ => read.closeWord.tokens).reverse

end LocalNet.Shell
