import StyleMacros.Text.Basic

/-!
# File trees

A file tree holds directories and files, with no links among them. It says what lies at each
location, the names from the root down; the invariants make it a tree: a location holds one
thing, and whatever is not the root lies in a directory.

The lemmas say what lies where after each change.
-/

set_option autoImplicit false

namespace StyleMacros

/-- The names on the way from the root to a node. -/
abbrev Location := List Text

inductive FileContent where
  | text (content : Text)
  /-- Bytes that are the UTF-8 form of no text. -/
  | bytes (content : List UInt8)
  deriving DecidableEq

inductive FileNode where
  | directory
  | file (content : FileContent)
  deriving DecidableEq

inductive FileFault where
  | notFound
  | notADirectory
  | isADirectory
  | notText
  | other (message : Text)
  deriving DecidableEq

def FileFault.message : FileFault → Text
  | .notFound => "no such file or directory"
  | .notADirectory => "not a directory"
  | .isADirectory => "is a directory"
  | .notText => "stream did not contain valid UTF-8"
  | .other message => message

structure FileTree where
  nodes : List (Location × FileNode)
  distinct : (nodes.map Prod.fst).Nodup
  root : ([], FileNode.directory) ∈ nodes
  closed : ∀ location name node, (location ++ [name], node) ∈ nodes →
    (location, FileNode.directory) ∈ nodes

namespace FileTree

/-! ## Looking -/

def node? (tree : FileTree) (location : Location) : Option FileNode :=
  tree.nodes.lookup location

theorem lookup_eq_some_iff {nodes : List (Location × FileNode)}
    (distinct : (nodes.map Prod.fst).Nodup) {location : Location} {node : FileNode} :
    nodes.lookup location = some node ↔ (location, node) ∈ nodes := by
  induction nodes with
  | nil => simp
  | cons head rest inductionHypothesis =>
      obtain ⟨key, value⟩ := head
      simp only [List.map_cons, List.nodup_cons] at distinct
      by_cases same : location = key
      · subst same
        have absent : ∀ other, (location, other) ∉ rest := fun other found =>
          distinct.1 (List.mem_map.mpr ⟨_, found, rfl⟩)
        simp [absent, eq_comm]
      · have different : (location == key) = false := by simpa using same
        simp [List.lookup_cons, different, same, inductionHypothesis distinct.2]

theorem lookup_eq_none_iff {nodes : List (Location × FileNode)} {location : Location} :
    nodes.lookup location = none ↔ location ∉ nodes.map Prod.fst := by
  induction nodes with
  | nil => simp
  | cons head rest inductionHypothesis =>
      obtain ⟨key, value⟩ := head
      by_cases same : location = key
      · subst same
        simp
      · have different : (location == key) = false := by simpa using same
        simp only [List.lookup_cons, different, inductionHypothesis, List.map_cons,
          List.mem_cons, same, false_or]

theorem node?_eq_some_iff {tree : FileTree} {location : Location} {node : FileNode} :
    tree.node? location = some node ↔ (location, node) ∈ tree.nodes :=
  lookup_eq_some_iff tree.distinct

theorem node?_root (tree : FileTree) : tree.node? [] = some .directory :=
  node?_eq_some_iff.mpr tree.root

theorem node?_parent {tree : FileTree} {location : Location} {name : Text} {node : FileNode}
    (found : tree.node? (location ++ [name]) = some node) :
    tree.node? location = some .directory :=
  node?_eq_some_iff.mpr (tree.closed location name node (node?_eq_some_iff.mp found))

def filesBelow (tree : FileTree) (location : Location) : List Location :=
  tree.nodes.filterMap fun (place, node) =>
    match node, List.isPrefixOf? location place with
    | .file _, some (name :: names) => some (name :: names)
    | _, _ => none

/-! ## Changing -/

def empty : FileTree where
  nodes := [([], .directory)]
  distinct := by simp
  root := by simp
  closed := by simp

def insert (tree : FileTree) (location : Location) (name : Text) (node : FileNode)
    (inside : tree.node? location = some .directory)
    (fresh : tree.node? (location ++ [name]) = none) : FileTree where
  nodes := tree.nodes ++ [(location ++ [name], node)]
  distinct := by
    have absent := lookup_eq_none_iff.mp fresh
    rw [List.map_append, List.nodup_append]
    refine ⟨tree.distinct, by simp, ?_⟩
    intro place placed other single same
    simp only [List.map_cons, List.map_nil, List.mem_singleton] at single
    exact absent (single ▸ same ▸ placed)
  root := List.mem_append_left _ tree.root
  closed := by
    intro place other found member
    rcases List.mem_append.mp member with member | member
    · exact List.mem_append_left _ (tree.closed place other found member)
    · simp only [List.mem_singleton, Prod.mk.injEq] at member
      have same := (List.append_inj' member.1 rfl).1
      exact List.mem_append_left _ (same ▸ node?_eq_some_iff.mp inside)

theorem node?_insert (tree : FileTree) (location : Location) (name : Text) (node : FileNode)
    (inside : tree.node? location = some .directory)
    (fresh : tree.node? (location ++ [name]) = none) (place : Location) :
    (tree.insert location name node inside fresh).node? place =
      if place = location ++ [name] then some node else tree.node? place := by
  unfold node? insert at *
  rw [List.lookup_append]
  by_cases same : place = location ++ [name]
  · subst same
    simp [fresh]
  · have different : (place == location ++ [name]) = false := by simpa using same
    simp [same, different, List.lookup_cons]

def replace (tree : FileTree) (location : Location) (content : FileContent)
    (file : ∀ node, tree.node? location = some node → node ≠ .directory) : FileTree where
  nodes := tree.nodes.map fun entry =>
    (entry.1, if entry.1 = location then .file content else entry.2)
  distinct := by
    simpa [List.map_map, Function.comp_def] using tree.distinct
  root := by
    refine List.mem_map.mpr ⟨_, tree.root, ?_⟩
    have other : [] ≠ location := fun same => file _ (same ▸ tree.node?_root) rfl
    simp [other]
  closed := by
    intro place name node member
    obtain ⟨entry, present, same⟩ := List.mem_map.mp member
    have at_place : (place ++ [name], entry.2) ∈ tree.nodes := by
      have key := congrArg Prod.fst same
      simp only at key
      exact key ▸ present
    have holder := tree.closed place name entry.2 at_place
    have other : place ≠ location := fun same =>
      file _ (same ▸ node?_eq_some_iff.mpr holder) rfl
    exact List.mem_map.mpr ⟨_, holder, by simp [other]⟩

theorem node?_replace (tree : FileTree) (location : Location) (content : FileContent)
    (file : ∀ node, tree.node? location = some node → node ≠ .directory) (place : Location) :
    (tree.replace location content file).node? place =
      (tree.node? place).map fun node => if place = location then .file content else node := by
  unfold node? replace
  simp only
  induction tree.nodes with
  | nil => simp
  | cons head rest inductionHypothesis =>
      obtain ⟨key, value⟩ := head
      by_cases same : place = key
      · subst same
        simp
      · have different : (place == key) = false := by simpa using same
        simp only [List.map_cons, List.lookup_cons, different, inductionHypothesis]

def remove (tree : FileTree) (location : Location)
    (file : ∀ node, tree.node? location = some node → node ≠ .directory) : FileTree where
  nodes := tree.nodes.filter fun entry => entry.1 ≠ location
  distinct := tree.distinct.sublist (List.filter_sublist.map _)
  root := by
    have other : [] ≠ location := fun same => file _ (same ▸ tree.node?_root) rfl
    simp [List.mem_filter, tree.root, other]
  closed := by
    intro place name node member
    have holder := tree.closed place name node (List.mem_filter.mp member).1
    have other : place ≠ location := fun same =>
      file _ (same ▸ node?_eq_some_iff.mpr holder) rfl
    simp [List.mem_filter, holder, other]

/-! ## Writing and removing files, making directories -/

/-- Writes a file under a name in a directory, over the file that has the name already. -/
def write (tree : FileTree) (location : Location) (name : Text) (content : FileContent) :
    Except FileFault FileTree :=
  match found : tree.node? (location ++ [name]) with
  | some (.file _) =>
    .ok (tree.replace (location ++ [name]) content (by
      intro node same
      rw [found] at same
      cases same
      simp))
  | some .directory => .error .isADirectory
  | none =>
    match inside : tree.node? location with
    | some .directory => .ok (tree.insert location name (.file content) inside found)
    | some (.file _) => .error .notADirectory
    | none => .error .notFound

theorem node?_write {tree written : FileTree} {location : Location} {name : Text}
    {content : FileContent} (success : tree.write location name content = .ok written)
    (place : Location) :
    written.node? place =
      if place = location ++ [name] then some (.file content) else tree.node? place := by
  unfold write at success
  split at success
  · rename_i found
    cases success
    rw [node?_replace]
    by_cases same : place = location ++ [name]
    · subst same
      simp [found]
    · simp [same]
  · cases success
  · split at success
    · cases success
      exact node?_insert ..
    · cases success
    · cases success

/-- Removes the file at a location; there is no change if none is there. -/
def removeFile (tree : FileTree) (location : Location) : Option FileTree :=
  match found : tree.node? location with
  | some (.file _) =>
    some (tree.remove location (by
      intro node same
      rw [found] at same
      cases same
      simp))
  | _ => none

def makeDirectory (tree : FileTree) (location : Location) (name : Text) :
    Except FileFault FileTree :=
  match found : tree.node? (location ++ [name]) with
  | some .directory => .ok tree
  | some (.file _) => .error .notADirectory
  | none =>
    match inside : tree.node? location with
    | some .directory => .ok (tree.insert location name .directory inside found)
    | some (.file _) => .error .notADirectory
    | none => .error .notFound

end FileTree

end StyleMacros
