import StyledEffects.Log.Config

/-! What a file system holds. -/

namespace StyledEffects.Files

inductive Node where
  /-- A folder has its entries by name. In a closed one nothing can be made. -/
  | folder (closed : Bool) (entries : List (String × Node))
  | file (bytes : ByteArray)
  /-- A device that is always empty and keeps nothing. -/
  | nothing
  /-- A device that cannot be opened. -/
  | locked
  /-- One of the standard streams. -/
  | input
  | display (display : Log.Display)
  /-- Stands for another node, which is given by the names on the way from the root. -/
  | link (target : List String)

def setEntry (name : String) (node : Node) : List (String × Node) → List (String × Node)
  | [] => [(name, node)]
  | entry :: rest =>
    if entry.1 = name then (name, node) :: rest else entry :: setEntry name node rest

theorem lookup_setEntry (name other : String) (node : Node) (entries : List (String × Node)) :
    (setEntry name node entries).lookup other =
      if other = name then some node else entries.lookup other := by
  induction entries with
  | nil =>
    by_cases h : other = name
    · simp [setEntry, h]
    · simp [setEntry, List.lookup_cons, h, beq_false_of_ne h]
  | cons entry rest ih =>
    obtain ⟨key, value⟩ := entry
    by_cases he : key = name
    · rw [setEntry, if_pos he]
      by_cases h : other = name
      · simp [h]
      · rw [List.lookup_cons, List.lookup_cons, beq_false_of_ne h, he, beq_false_of_ne h, if_neg h]
    · rw [setEntry, if_neg he, List.lookup_cons, List.lookup_cons, ih]
      by_cases h : other = name
      · rw [h, beq_false_of_ne (Ne.symm he)]
      · rw [if_neg h, if_neg h]

theorem setEntry_of_lookup {name : String} {node : Node} {entries : List (String × Node)}
    (h : entries.lookup name = some node) : setEntry name node entries = entries := by
  induction entries with
  | nil => simp at h
  | cons entry rest ih =>
    obtain ⟨key, value⟩ := entry
    by_cases he : key = name
    · subst he
      rw [List.lookup_cons_self] at h
      obtain rfl := Option.some.inj h
      simp [setEntry]
    · rw [List.lookup_cons, beq_false_of_ne (Ne.symm he)] at h
      simp [setEntry, he, ih h]

namespace Node

def isFolder : Node → Bool
  | folder .. => true
  | _ => false

def child? (name : String) : Node → Option Node
  | folder _ entries => entries.lookup name
  | _ => none

def set (name : String) (child : Node) : Node → Node
  | folder closed entries => folder closed (setEntry name child entries)
  | other => other

theorem set_of_child? {name : String} {node child : Node} (h : node.child? name = some child) :
    set name child node = node := by
  cases node with
  | folder closed entries =>
    rw [set, setEntry_of_lookup h]
  | _ => simp [child?] at h

/-- Whether something with this name can be made in a folder: names have from 1 to 255 bytes,
none of them zero. -/
def accepts (name : String) : Node → Bool
  | folder closed _ =>
    !closed && name ≠ "" && name.utf8ByteSize ≤ 255 && !name.toList.contains (Char.ofNat 0)
  | _ => false

def takesBytes : Node → Bool
  | folder .. | locked | link _ => false
  | _ => true

def emptyFolder : Node := folder false []

end Node

end StyledEffects.Files
