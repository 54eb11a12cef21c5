import LocalNet.Pem.Base64
import LocalNet.Text.Lossy
import LocalNet.Text.Quoted

/-!
PEM files, line by line. A section starts at a begin line, and ends at the end line of the same
label; text outside sections counts for nothing. A begin line inside a section starts over with its
own label, but keeps the lines gathered so far. Sections of labels that nobody uses are dropped
without a look at what they hold.
-/

namespace LocalNet.Pem

structure Section where
  label : Bytes
  content : Bytes
  deriving DecidableEq, Repr

inductive Fault where
  | illegalStart (line : Bytes)
  | missingEnd (label : Bytes)
  | undecodable (reason : Base64Fault)
  deriving DecidableEq, Repr

def Fault.message : Fault → String
  | .illegalStart line => "illegal section start: " ++ Text.quoted (Text.lossy line)
  | .missingEnd label => "section end " ++ Text.quoted (Text.lossy label) ++ " missing"
  | .undecodable reason => reason.message

/-- Line feeds and carriage returns each end a line, and stay on it. -/
def splitLines (text : Bytes) (backwards : Bytes) : List Bytes :=
  match text with
  | [] => if backwards.isEmpty then [] else [backwards.reverse]
  | byte :: rest =>
    if byte = 0x0A || byte = 0x0D then (byte :: backwards).reverse :: splitLines rest []
    else splitLines rest (byte :: backwards)

def beginMark : Bytes := Bytes.ofText "-----BEGIN "

def endMark : Bytes := Bytes.ofText "-----END "

def dashes : Bytes := Bytes.ofText "-----"

def isTrailer (byte : UInt8) : Bool :=
  byte = 0x2D || byte = 0x0A || byte = 0x0D || byte = 0x20

/-- The label of a begin line, which closes with exactly five dashes and may have blanks among and
after them. -/
def labelOf? (line : Bytes) : Option Bytes :=
  let trailer := (line.reverse.takeWhile isTrailer).reverse
  let closing := trailer.dropWhile (· ≠ 0x2D)
  if closing.count 0x2D = 5 then
    some ((line.take (line.length - closing.length)).drop beginMark.length)
  else none

def isEnd (label line : Bytes) : Bool :=
  (endMark ++ label ++ dashes).isPrefixOf line

def labels : List Bytes :=
  ["CERTIFICATE", "PUBLIC KEY", "RSA PRIVATE KEY", "PRIVATE KEY", "EC PRIVATE KEY", "X509 CRL",
    "CERTIFICATE REQUEST", "ECHCONFIG"].map Bytes.ofText

/-- The sections in their order, up to the first fault. `opened` is the label of the section that
the lines stand in, `gathered` holds its lines. -/
def scan : (lines : List Bytes) → (opened : Option Bytes) → (gathered : Bytes) →
    List (Except Fault Section)
  | [], none, _ => []
  | [], some label, _ => [.error (.missingEnd label)]
  | line :: rest, opened, gathered =>
    if beginMark.isPrefixOf line then
      match labelOf? line with
      | some label => scan rest (some label) gathered
      | none => [.error (.illegalStart line)]
    else
      match opened with
      | none => scan rest none gathered
      | some label =>
        if isEnd label line then
          if labels.contains label then
            match decodeBase64 gathered with
            | .ok content => .ok ⟨label, content⟩ :: scan rest none []
            | .error reason => [.error (.undecodable reason)]
          else scan rest none []
        else scan rest (some label) (gathered ++ line)

def sections (text : Bytes) : List (Except Fault Section) :=
  scan (splitLines text []) none []

end LocalNet.Pem
