/-!
Paths as they are written. A path names a place by the components that lead to it; empty components
and single dots lead nowhere.
-/

namespace LocalNet.Files

/-- Where something stands, from the top of the tree down. -/
abbrev Place := List String

structure Path where
  absolute : Bool
  components : List String
  /-- Whether the path is written so that it can only name a directory. -/
  directoryOnly : Bool
  endsInSlash : Bool
  deriving DecidableEq, Repr

namespace Path

def pieces : List Char → List (List Char)
  | [] => [[]]
  | char :: rest =>
    if char = '/' then [] :: pieces rest
    else
      match pieces rest with
      | [] => [[char]]
      | piece :: others => (char :: piece) :: others

def isStep (piece : List Char) : Bool :=
  piece ≠ [] && piece ≠ ['.']

def isName (piece : List Char) : Bool :=
  isStep piece && piece ≠ ['.', '.']

def ofText (text : String) : Path where
  absolute := text.toList.head? = some '/'
  components := ((pieces text.toList).filter isStep).map String.ofList
  directoryOnly := !isStep ((pieces text.toList).getLast?.getD [])
  endsInSlash :=
    text.toList.getLast? = some '/' &&
      (((pieces text.toList).filter (· ≠ [])).getLast?).any isName

def join (directory name : String) : String :=
  if name.toList.head? = some '/' then name
  else if directory = "" || directory.toList.getLast? = some '/' then directory ++ name
  else directory ++ "/" ++ name

def textOfPlace (place : Place) : String :=
  "/" ++ String.intercalate "/" place

end Path

end LocalNet.Files
