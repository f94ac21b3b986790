import StyledEffects.Files.Node

/-! Places in a tree of files. Paths are followed part by part: an empty part or a dot stays
where it is, two dots go to the folder around, and only a folder leads anywhere. -/

namespace StyledEffects.Files

/-- A node and the folders around it, the innermost first, each with the name that leads on
from there. What has changed in the node has yet to reach them. -/
structure Place where
  node : Node
  around : List (String × Node)

namespace Place

def atRoot (root : Node) : Place := ⟨root, []⟩

/-- The place around; the root is in itself. -/
def up (p : Place) : Place :=
  match p.around with
  | [] => p
  | (name, folder) :: around => ⟨Node.set name p.node folder, around⟩

def root (p : Place) : Node :=
  p.around.foldl (fun node (name, folder) => Node.set name node folder) p.node

/-- A new node in the folder at a place, or one that takes the place of another. -/
def put (name : String) (node : Node) (p : Place) : Place := ⟨node, (name, p.node) :: p.around⟩

def enter? (p : Place) (name : String) : Option Place :=
  (p.node.child? name).map fun node => p.put name node

def walk? (p : Place) (names : List String) : Option Place := names.foldlM enter? p

/-- The place of an entry or, if that is a link, the place it stands for. -/
def down? (p : Place) (name : String) : Option Place :=
  match p.node.child? name with
  | some (.link target) => (atRoot p.root).walk? target
  | _ => p.enter? name

def follow (p : Place) (part : String) : Option Place :=
  if !p.node.isFolder then none
  else if part = "" ∨ part = "." then some p
  else if part = ".." then some p.up
  else p.down? part

theorem root_up (p : Place) : p.up.root = p.root := by
  obtain ⟨node, _ | ⟨_, _⟩⟩ := p <;> rfl

theorem root_enter? {name : String} {p q : Place} (h : p.enter? name = some q) :
    q.root = p.root := by
  obtain ⟨child, hc, rfl⟩ := Option.map_eq_some_iff.1 h
  simp [root, put, Node.set_of_child? hc]

theorem root_walk? {names : List String} {p q : Place} (h : p.walk? names = some q) :
    q.root = p.root := by
  induction names generalizing p with
  | nil =>
    obtain rfl := Option.some.inj h
    rfl
  | cons name names ih =>
    rw [walk?, List.foldlM_cons] at h
    obtain ⟨r, hr, h⟩ := Option.bind_eq_some_iff.1 h
    exact (ih h).trans (root_enter? hr)

theorem root_down? {name : String} {p q : Place} (h : p.down? name = some q) :
    q.root = p.root := by
  unfold down? at h
  split at h
  · exact root_walk? (p := atRoot p.root) h
  · exact root_enter? h

theorem root_follow {part : String} {p q : Place} (h : p.follow part = some q) :
    q.root = p.root := by
  unfold follow at h
  split at h
  · simp at h
  · split at h
    · obtain rfl := Option.some.inj h
      rfl
    · split at h
      · obtain rfl := Option.some.inj h
        exact root_up p
      · exact root_down? h

/-- Follows a path of folders and makes those that are missing. -/
def makeFolders : List String → Place → Option Place
  | [], p => if p.node.isFolder then some p else none
  | part :: rest, p =>
    match p.follow part with
    | some p => makeFolders rest p
    | none =>
      if p.node.accepts part then makeFolders rest (p.put part .emptyFolder) else none

/-- The place of a file in a folder, which is made if it is missing. It can be written to. -/
def makeFile (name : String) (p : Place) : Option Place :=
  match p.down? name with
  | some p => if p.node.takesBytes then some p else none
  | none => if p.node.accepts name then some (p.put name (.file .empty)) else none

end Place

end StyledEffects.Files
