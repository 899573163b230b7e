import SemiLex.Fault
import SemiLex.Text.Utf8

/-!
# File trees

The files and directories below the working directory, found by the components of a path.
Nothing exists outside of the tree: an absolute path, or one that climbs above the working
directory, meets only empty directories.
-/

namespace SemiLex

inductive Entry where
  | file (bytes : List UInt8)
  | directory
  deriving DecidableEq, Repr

/-- Entries by location.  A location is the list of components that leads to it. -/
structure FileTree where
  entries : List (List Text × Entry) := []
  deriving DecidableEq, Repr

namespace FileTree

/-! ## Faults -/

def missing : Fault := ⟨.notFound, "No such file or directory (os error 2)"⟩

def belowFile : Fault := ⟨.notADirectory, "Not a directory (os error 20)"⟩

def nameTooLong : Fault := ⟨.invalidFilename, "File name too long (os error 36)"⟩

def nulInName : Fault := ⟨.invalidInput, "file name contained an unexpected NUL byte"⟩

def scannedDirectory : Fault := ⟨.invalidInput, "is a directory"⟩

def readDirectory : Fault := ⟨.isADirectory, "Is a directory (os error 21)"⟩

def notUtf8 : Fault := ⟨.invalidData, "stream did not contain valid UTF-8"⟩

/-! ## Locations -/

def components : Text → List Text
  | [] => [[]]
  | c :: path =>
    if c = '/' then [] :: components path
    else match components path with
      | [] => [[c]]
      | component :: rest => (c :: component) :: rest

def entry? (tree : FileTree) (location : List Text) : Option Entry :=
  if location = [] then some .directory
  else tree.entries.lookup location

/-- Puts a directory at a location, and one at each location on the way to it. -/
def addDirectory (tree : FileTree) (location : List Text) : FileTree :=
  { entries := (List.range location.length).foldr
      (fun n entries =>
        let place := location.take (n + 1)
        if (entries.lookup place).isSome then entries else (place, .directory) :: entries)
      tree.entries }

def addFile (tree : FileTree) (location : List Text) (bytes : List UInt8) : FileTree :=
  { entries := (location, .file bytes) :: (tree.addDirectory location.dropLast).entries }

/-- The most bytes that a component may have. -/
def maxComponent : Nat := 255

def maxPath : Nat := 4095

def walk (tree : FileTree) (location : List Text) : List Text → Except Fault Entry
  | [] => match tree.entry? location with
    | some entry => .ok entry
    | none => .error missing
  | component :: rest => match tree.entry? location with
    | none => .error missing
    | some (.file _) => .error belowFile
    | some .directory =>
      if component = [] ∨ component = ['.'] then walk tree location rest
      else if component = ['.', '.'] then
        if location = [] then walk {} [] rest else walk tree location.dropLast rest
      else if (Utf8.encode component).length > maxComponent then .error nameTooLong
      else walk tree (location ++ [component]) rest

def find (tree : FileTree) (path : Text) : Except Fault Entry :=
  if path.contains '\x00' then .error nulInName
  else if path = [] then .error missing
  else if (Utf8.encode path).length > maxPath then .error nameTooLong
  else (if path.head? = some '/' then {} else tree).walk [] (components path)

/-! ## Contents -/

/-- The bytes of a file that is to be scanned. -/
def scanned (tree : FileTree) (path : Text) : Except Fault (List UInt8) := do
  match ← tree.find path with
  | .file bytes => return bytes
  | .directory => throw scannedDirectory

/-- The text of a file that is to be read as a whole. -/
def text (tree : FileTree) (path : Text) : Except Fault Text := do
  match ← tree.find path with
  | .file bytes =>
    match Utf8.decode? bytes with
    | some text => return text
    | none => throw notUtf8
  | .directory => throw readDirectory

end FileTree

end SemiLex
