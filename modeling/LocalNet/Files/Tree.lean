import LocalNet.Bytes
import LocalNet.Files.Path
import LocalNet.Process.Error

/-!
A tree of files and directories without links, symbolic or hard, in which names differ by case. Whoever
works on it owns everything in it, and may do with a file what its access grants.
-/

namespace LocalNet.Files

/-- What the owner of a file may do with it. -/
structure Access where
  readable : Bool := true
  writable : Bool := true
  executable : Bool := false
  deriving DecidableEq, Repr

inductive Entry where
  | directory
  | file (content : Bytes) (access : Access)
  deriving DecidableEq, Repr

structure Tree where
  entries : List (Place × Entry) := []
  deriving DecidableEq, Repr

namespace Tree

/-- What stands at a place; the top is always a directory. -/
def entry? (tree : Tree) (place : Place) : Option Entry :=
  if place = [] then some .directory else tree.entries.lookup place

def put (tree : Tree) (place : Place) (entry : Entry) : Tree :=
  ⟨(place, entry) :: tree.entries.filter (·.1 ≠ place)⟩

def remove (tree : Tree) (place : Place) : Tree :=
  ⟨tree.entries.filter fun entry => !place.isPrefixOf entry.1⟩

/-- The longest name a directory can hold, in bytes. -/
def longestName : Nat := 255

def tooLongPath : Nat := 4096

def enter (tree : Tree) (place : Place) (component : String) : Except OsError Place :=
  match tree.entry? place with
  | none => .error .notFound
  | some (.file _ _) => .error .notDirectory
  | some .directory =>
    if component = "." then .ok place
    else if component = ".." then .ok place.dropLast
    else if longestName < component.utf8ByteSize then .error .nameTooLong
    else .ok (place ++ [component])

/-- Follows components. All but the last one have to be there. -/
def follow (tree : Tree) : Place → List String → Except OsError Place
  | place, [] => .ok place
  | place, component :: rest =>
    match tree.enter place component with
    | .error reason => .error reason
    | .ok next => tree.follow next rest

def locate (tree : Tree) (base : Place) (path : Path) : Except OsError Place :=
  let start := if path.absolute then [] else base
  tree.follow start (path.components ++ if path.directoryOnly then ["."] else [])

/-- The place that a path names where a file may be made; one that ends in a slash names none. -/
def locateFile (tree : Tree) (base : Place) (path : Path) : Except OsError Place :=
  if path.endsInSlash then
    let start := if path.absolute then [] else base
    match tree.follow start (path.components.dropLast ++ ["."]) with
    | .error reason => .error reason
    | .ok _ => .error .isDirectory
  else tree.locate base path

/-- The place that a text names, if `locate` finds one; no file name holds a zero byte. -/
def resolveBy (locate : Path → Except OsError Place) (text : String) : Except IoFault Place :=
  if text.toList.contains '\x00' then .error .zeroInPath
  else if text = "" then .error (.refused .notFound)
  else if tooLongPath ≤ text.utf8ByteSize then .error (.refused .nameTooLong)
  else
    match locate (Path.ofText text) with
    | .error reason => .error (.refused reason)
    | .ok place => .ok place

def resolve (tree : Tree) (base : Place) (text : String) : Except IoFault Place :=
  resolveBy (tree.locate base) text

def find (tree : Tree) (base : Place) (text : String) : Except IoFault (Place × Entry) :=
  match tree.resolve base text with
  | .error reason => .error reason
  | .ok place =>
    match tree.entry? place with
    | none => .error (.refused .notFound)
    | some entry => .ok (place, entry)

def pathExists (tree : Tree) (base : Place) (text : String) : Bool :=
  (tree.find base text).isOk

def isDirectory (tree : Tree) (base : Place) (text : String) : Bool :=
  match tree.find base text with
  | .ok (_, .directory) => true
  | _ => false

def makeDirectory (tree : Tree) (base : Place) (text : String) : Except IoFault Tree :=
  match tree.resolve base text with
  | .error reason => .error reason
  | .ok place =>
    match tree.entry? place with
    | some _ => .error (.refused .alreadyExists)
    | none => .ok (tree.put place .directory)

/-- The texts of the paths above one whose components are given from the last to the first; the
nearest comes first. -/
def above (absolute : Bool) : (reversed : List String) → List String
  | [] => []
  | _ :: parents =>
    ((if absolute then "/" else "") ++ String.intercalate "/" parents.reverse) ::
      above absolute parents

def ancestors (path : Path) : List String :=
  above path.absolute path.components.reverse

/-- Makes a directory after the ones that lead to it; what was made before a failure stays. -/
def makeAll (tree : Tree) (base : Place) : (text : String) → (ancestors : List String) →
    Except IoFault Unit × Tree
  | text, ancestors =>
    if text = "" then (.ok (), tree)
    else
      match tree.makeDirectory base text with
      | .ok made => (.ok (), made)
      | .error (.refused .notFound) =>
        match ancestors with
        | [] => (.error (.refused .notFound), tree)
        | parent :: others =>
          match makeAll tree base parent others with
          | (.error reason, made) => (.error reason, made)
          | (.ok (), made) =>
            match made.makeDirectory base text with
            | .ok last => (.ok (), last)
            | .error reason =>
              if made.isDirectory base text then (.ok (), made) else (.error reason, made)
      | .error reason =>
        if tree.isDirectory base text then (.ok (), tree) else (.error reason, tree)

def makeDirectories (tree : Tree) (base : Place) (text : String) : Except IoFault Unit × Tree :=
  tree.makeAll base text (ancestors (Path.ofText text))

/-- Opens a file and changes its content; a file that is not there is made. -/
def change (tree : Tree) (base : Place) (text : String) (update : Bytes → Bytes) :
    Except IoFault (Place × Tree) :=
  match resolveBy (tree.locateFile base) text with
  | .error reason => .error reason
  | .ok place =>
    match tree.entry? place with
    | some .directory => .error (.refused .isDirectory)
    | some (.file content access) =>
      if access.writable then .ok (place, tree.put place (.file (update content) access))
      else .error (.refused .permissionDenied)
    | none => .ok (place, tree.put place (.file (update []) {}))

def read (tree : Tree) (base : Place) (text : String) : Except IoFault Bytes :=
  match tree.find base text with
  | .error reason => .error reason
  | .ok (_, .directory) => .error (.refused .isDirectory)
  | .ok (_, .file content access) =>
    if access.readable then .ok content else .error (.refused .permissionDenied)

def write (tree : Tree) (base : Place) (text : String) (content : Bytes) :
    Except IoFault Unit × Tree :=
  match tree.change base text fun _ => content with
  | .error reason => (.error reason, tree)
  | .ok (_, written) => (.ok (), written)

def openEnd (tree : Tree) (base : Place) (text : String) : Except IoFault (Place × Tree) :=
  tree.change base text id

def appendAt (tree : Tree) (place : Place) (bytes : Bytes) : Tree :=
  match tree.entry? place with
  | some (.file content access) => tree.put place (.file (content ++ bytes) access)
  | _ => tree

def removeAll (tree : Tree) (base : Place) (text : String) : Except IoFault Tree :=
  match tree.find base text with
  | .error reason => .error reason
  | .ok (_, .file _ _) => .error (.refused .notDirectory)
  | .ok (place, .directory) => .ok (tree.remove place)

def below (tree : Tree) (place : Place) : List (Place × Entry) :=
  tree.entries.filterMap fun (other, entry) =>
    if place.isPrefixOf other && other ≠ place then some (other.drop place.length, entry)
    else none

def namesIn (tree : Tree) (place : Place) : List String :=
  (tree.below place).filterMap fun (components, _) =>
    match components with
    | [name] => some name
    | _ => none

end Tree

end LocalNet.Files
