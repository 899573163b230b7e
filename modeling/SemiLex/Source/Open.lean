import SemiLex.FileTree
import SemiLex.Source

/-!
# Opening a file as a source

Opening closes the source first.  A file that cannot be opened leaves it closed, with its line
and its pending failure as they were.
-/

namespace SemiLex.Source

def tryOpen (files : FileTree) (path : String) (s : Source) :
    Logged (Except ScanError Unit × Source) := do
  let s ← s.close
  match files.scanned path.toList with
  | .error cause => return (.error (.cannotOpen path cause), s)
  | .ok bytes =>
    .report (.sourceOpened path)
    let s ← ofBytes bytes
    return (.ok (), s)

/-- Attaches to the file at `path`, and logs why if that fails. -/
def openFile (files : FileTree) (path : String) (s : Source) : Logged (Bool × Source) := do
  match ← s.tryOpen files path with
  | (.ok (), s) => return (true, s)
  | (.error error, s) =>
    .report (.sourceNotOpened error)
    return (false, s)

end SemiLex.Source
