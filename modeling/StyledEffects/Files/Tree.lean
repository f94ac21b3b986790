import StyledEffects.Files.Place

/-! A tree of files, in which paths of up to 4095 bytes lead somewhere. -/

namespace StyledEffects.Files

structure Tree where
  root : Node
  /-- The names on the way from the root to the folder that relative paths start from. -/
  home : List String

namespace Tree

def allows (path : String) : Bool := path ≠ "" && path.utf8ByteSize ≤ 4095

def origin? (tree : Tree) (absolute : Bool) : Option Place :=
  (Place.atRoot tree.root).walk? (if absolute then [] else tree.home)

def find? (tree : Tree) (path : String) : Option Place := do
  guard (allows path)
  (Log.parts path).foldlM Place.follow (← tree.origin? (Log.isAbsolute path))

/-- The place of a file that can be written to. The file is made if it is missing, and so are
its folders. -/
def openFile (tree : Tree) (path : Log.FilePath) : Option Place := do
  guard (allows path.text)
  let origin ← tree.origin? (Log.isAbsolute path.folder)
  (← origin.makeFolders (Log.parts path.folder)).makeFile path.name

end Tree

end StyledEffects.Files
