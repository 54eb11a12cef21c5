import LocalNet.Shell.Word

/-!
Commands of a shell script: simple commands with redirections, loops, conditionals, and lists of
commands. Anything else is no script that can be run.
-/

namespace LocalNet.Shell

inductive Redirect where
  /-- A descriptor goes where another one goes. -/
  | duplicate (descriptor target : Nat)
  | file (descriptor : Nat) (path : Word) (append : Bool)
  | input (path : Word)
  deriving DecidableEq, Repr

def Redirect.isInput : Redirect → Bool
  | .input _ => true
  | _ => false

inductive Command where
  | simple (assignments : List (String × Word)) (words : List Word) (redirects : List Redirect)
  | forEach (name : String) (words : List Word) (body : List Command)
  | conditional (test yes no : List Command)
  /-- Goes on as long as the test succeeds, or fails where it is not `wanted`. -/
  | repeated (wanted : Bool) (test body : List Command)
  | redirected (command : Command) (redirects : List Redirect)
  | both (first second : Command)
  | either (first second : Command)
  deriving Repr

namespace Parser

def isBreak : Token → Bool
  | .operator text => text = ";" || text = "\n"
  | _ => false

def skipBreaks (tokens : List Token) : List Token :=
  tokens.dropWhile isBreak

def bareText? : Token → Option String
  | .word [.plain text false] => some text
  | _ => none

def isReserved (text : String) (token : Token) : Bool :=
  bareText? token = some text

def digits? (text : String) : Option Nat :=
  if !text.isEmpty && text.toList.all Char.isDigit then text.toNat? else none

/-- Cuts a name and an equals sign off the front of a word. -/
def assignment? : Word → Option (String × Word)
  | .plain text false :: rest =>
    let name := text.toList.takeWhile (· ≠ '=')
    match text.toList.drop name.length, name with
    | '=' :: value, first :: _ =>
      if Lexer.isNameStart first && name.all Lexer.isNameRest then
        some (String.ofList name,
          if value.isEmpty then rest else .plain (String.ofList value) false :: rest)
      else none
    | _, _ => none
  | _ => none

structure Draft where
  assignments : List (String × Word) := []
  words : List Word := []
  redirects : List Redirect := []

def Draft.command (draft : Draft) : Command :=
  .simple draft.assignments draft.words draft.redirects

def Draft.addWord (draft : Draft) (word : Word) : Draft :=
  match assignment? word with
  | some assignment =>
    if draft.words.isEmpty then
      { draft with assignments := draft.assignments ++ [assignment] }
    else { draft with words := draft.words ++ [word] }
  | none => { draft with words := draft.words ++ [word] }

def redirectMarks : List String :=
  [">", ">>", ">&", "<"]

def redirect? (operator : String) (descriptor : Option Nat) (word : Word) : Option Redirect :=
  if operator = ">" then some (.file (descriptor.getD 1) word false)
  else if operator = ">>" then some (.file (descriptor.getD 1) word true)
  else if operator = ">&" then
    match word with
    | [.plain text false] => (digits? text).map (.duplicate (descriptor.getD 1))
    | _ => none
  else if operator = "<" then some (.input word)
  else none

def simple : List Token → Draft → Option (Draft × List Token)
  | .word number :: .operator text :: .word word :: rest, draft =>
    if redirectMarks.contains text then
      match (bareText? (.word number)).bind digits? with
      | some descriptor =>
        match redirect? text (some descriptor) word with
        | some redirect => simple rest { draft with redirects := draft.redirects ++ [redirect] }
        | none => none
      | none =>
        match redirect? text none word with
        | some redirect =>
          let added := draft.addWord number
          simple rest { added with redirects := added.redirects ++ [redirect] }
        | none => none
    else some (draft.addWord number, .operator text :: .word word :: rest)
  | .operator text :: .word word :: rest, draft =>
    if redirectMarks.contains text then
      match redirect? text none word with
      | some redirect => simple rest { draft with redirects := draft.redirects ++ [redirect] }
      | none => none
    else some (draft, .operator text :: .word word :: rest)
  | .word word :: rest, draft => simple rest (draft.addWord word)
  | rest, draft => some (draft, rest)

def wordsUntilBreak : List Token → List Word × List Token
  | .word word :: rest =>
    let (words, after) := wordsUntilBreak rest
    (word :: words, after)
  | rest => ([], rest)

def redirected : Command × List Token → Option (Command × List Token)
  | (command, tokens) =>
    match simple tokens {} with
    | none => none
    | some (draft, rest) =>
      if !draft.assignments.isEmpty || !draft.words.isEmpty then none
      else if draft.redirects.isEmpty then some (command, rest)
      else some (.redirected command draft.redirects, rest)

def endsBranch (token : Token) : Bool :=
  isReserved "fi" token || isReserved "else" token || isReserved "elif" token

mutual

def command (fuel : Nat) (tokens : List Token) : Option (Command × List Token) :=
  match fuel with
  | 0 => none
  | fuel + 1 =>
    match tokens with
    | [] => none
    | token :: rest =>
      if isReserved "for" token then (loop fuel rest).bind redirected
      else if isReserved "if" token then (conditional fuel rest).bind redirected
      else if isReserved "while" token then (repeated fuel true rest).bind redirected
      else if isReserved "until" token then (repeated fuel false rest).bind redirected
      else
        match simple tokens {} with
        | some (draft, after) =>
          if draft.assignments.isEmpty && draft.words.isEmpty && draft.redirects.isEmpty then none
          else some (draft.command, after)
        | none => none

def loop (fuel : Nat) (tokens : List Token) : Option (Command × List Token) :=
  match fuel with
  | 0 => none
  | fuel + 1 =>
    match tokens with
    | name :: rest =>
      match bareText? name with
      | none => none
      | some name =>
        let (words, after) := match rest with
          | token :: more =>
            if isReserved "in" token then wordsUntilBreak more
            else ([[.parameter "@" true]], rest)
          | [] => ([[.parameter "@" true]], rest)
        match skipBreaks after with
        | opening :: body =>
          if isReserved "do" opening then
            match list fuel (isReserved "done") body with
            | some (commands, _ :: others) => some (.forEach name words commands, others)
            | _ => none
          else none
        | [] => none
    | [] => none

def conditional (fuel : Nat) (tokens : List Token) : Option (Command × List Token) :=
  match fuel with
  | 0 => none
  | fuel + 1 =>
    match list fuel (isReserved "then") tokens with
    | some (test, _ :: branch) =>
      match list fuel endsBranch branch with
      | some (yes, closing :: rest) =>
        if isReserved "fi" closing then some (.conditional test yes [], rest)
        else if isReserved "else" closing then
          match list fuel (isReserved "fi") rest with
          | some (no, _ :: others) => some (.conditional test yes no, others)
          | _ => none
        else
          (conditional fuel rest).map fun (other, others) =>
            (.conditional test yes [other], others)
      | _ => none
    | _ => none

def repeated (fuel : Nat) (wanted : Bool) (tokens : List Token) :
    Option (Command × List Token) :=
  match fuel with
  | 0 => none
  | fuel + 1 =>
    match list fuel (isReserved "do") tokens with
    | some (test, _ :: rest) =>
      match list fuel (isReserved "done") rest with
      | some (body, _ :: others) => some (.repeated wanted test body, others)
      | _ => none
    | _ => none

def list (fuel : Nat) (isEnd : Token → Bool) (tokens : List Token) :
    Option (List Command × List Token) :=
  match fuel with
  | 0 => none
  | fuel + 1 =>
    match skipBreaks tokens with
    | [] => some ([], [])
    | token :: rest =>
      if isEnd token then some ([], token :: rest)
      else
        match command fuel (token :: rest) with
        | none => none
        | some (first, after) =>
          match chain fuel first after with
          | none => none
          | some (whole, others) =>
            match others with
            | [] => some ([whole], [])
            | next :: _ =>
              if isBreak next || isEnd next then
                (list fuel isEnd others).map fun (commands, left) => (whole :: commands, left)
              else none

def chain (fuel : Nat) (first : Command) (tokens : List Token) : Option (Command × List Token) :=
  match fuel with
  | 0 => none
  | fuel + 1 =>
    match tokens with
    | .operator text :: rest =>
      if text = "&&" || text = "||" then
        match command fuel (skipBreaks rest) with
        | none => none
        | some (second, after) =>
          chain fuel (if text = "&&" then .both first second else .either first second) after
      else some (first, tokens)
    | _ => some (first, tokens)

end

def parse (script : String) : Option (List Command) :=
  let all := tokens script
  (list (4 * all.length + 4) (fun _ => false) all).map Prod.fst

end Parser

end LocalNet.Shell
