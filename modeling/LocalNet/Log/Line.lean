import LocalNet.Log.Filter

/-!
Log lines for people: time, level, spans, target and message, in colour or without.
-/

namespace LocalNet.Log

namespace Line

/-- Characters that a terminal would take for commands are spelled out. -/
def escapedCharacter (char : Char) : List Char :=
  let two := fun (value : Nat) =>
    ['\\', 'x', (Nat.digitChar (value / 16)), (Nat.digitChar (value % 16))]
  if [7, 8, 12, 27, 127].contains char.toNat then two char.toNat
  else if 128 ≤ char.toNat && char.toNat ≤ 159 then
    ['\\', 'u', '\x7b'] ++ Nat.toDigits 16 char.toNat ++ ['\x7d']
  else [char]

def escaped (message : String) : String :=
  String.ofList (message.toList.flatMap escapedCharacter)

/-- Level names are five characters wide. -/
def levelName (level : Level) : String :=
  (if level.name.length < 5 then " " else "") ++ level.name

def colourOf : Level → Nat
  | .error => 31
  | .warn => 33
  | .info => 32
  | .debug => 34
  | .trace => 35

def bold : Nat := 1

def dimmed : Nat := 2

def italic : Nat := 3

def styled (colour : Bool) (style : Nat) (text : String) : String :=
  if colour then "\x1b[" ++ toString style ++ "m" ++ text ++ "\x1b[0m" else text

def spanText (colour : Bool) (span : Span) : String :=
  styled colour bold span.name ++ styled colour bold "\x7b" ++
    styled colour italic span.field ++ styled colour dimmed "=" ++ span.value ++
    styled colour bold "\x7d" ++ styled colour dimmed ":"

def spansText (colour : Bool) (spans : List Span) : String :=
  if spans.isEmpty then "" else String.join (spans.map (spanText colour)) ++ " "

def text (colour : Bool) (time : String) (event : Event) : String :=
  styled colour dimmed time ++ " " ++
    styled colour (colourOf event.level) (levelName event.level) ++ " " ++
    spansText colour event.spans ++
    styled colour dimmed event.target ++ styled colour dimmed ":" ++ " " ++
    escaped event.message

end Line

end LocalNet.Log
