/-
A tree of files held in memory.

The tree stands for the directory that a command is started in.  Paths are taken
relative to it, component by component: an empty component and a single point stay
where they are, two points go up, and anything but a directory has nothing below it.
Nothing outside the tree can be found.
-/
import ChartScript.Files.Basic

namespace ChartScript

/-- What stands at a place in a tree. -/
inductive FileTree.Node where
  | file (bytes : ByteArray)
  | directory

/-- The files and directories below the root, each with the names that lead to it, the
last one first. -/
structure FileTree where
  nodes : List (List String × FileTree.Node)

namespace FileTree

/-- A tree with nothing in it. -/
def empty : FileTree := ⟨[]⟩

/-- The components of a path between its slashes, the first apart from the others. -/
def componentsFrom : List Char → List Char × List (List Char)
  | [] => ([], [])
  | c :: cs =>
      let (first, others) := componentsFrom cs
      if c == '/' then ([], first :: others) else (c :: first, others)

/-- The components of a path between its slashes. -/
def components (path : String) : List String :=
  let (first, others) := componentsFrom path.toList
  (first :: others).map String.ofList

/-- What stands at a place that is not the root. -/
def below? (tree : FileTree) (place : List String) : Option Node :=
  (tree.nodes.find? fun node => node.1 == place).map (·.2)

/-- What stands at a place. -/
def at? (tree : FileTree) : List String → Option Node
  | [] => some .directory
  | place => tree.below? place

/-- Put something at a place, unless something is there. -/
def put (tree : FileTree) (place : List String) (node : Node) : FileTree :=
  if (tree.at? place).isSome then tree else ⟨(place, node) :: tree.nodes⟩

/-- Make the directories on the way to a place, and the place itself a directory. -/
def makeDirectory (tree : FileTree) : List String → FileTree
  | [] => tree
  | name :: above => (tree.makeDirectory above).put (name :: above) .directory

/-- The place that a path in canonical form leads to. -/
def place (path : String) : List String :=
  ((components path).filter fun name => name != "" && name != ".").reverse

/-- Add a directory. -/
def addDirectory (tree : FileTree) (path : String) : FileTree :=
  tree.makeDirectory (place path)

/-- Add a file. -/
def addFile (tree : FileTree) (path : String) (bytes : ByteArray) : FileTree :=
  match place path with
  | [] => tree
  | name :: above => (tree.makeDirectory above).put (name :: above) (.file bytes)

/-- Follow components from a place where `node` stands. -/
def follow (tree : FileTree) (place : List String) (node : Node) :
    List String → Except ReadFault (List String × Node)
  | [] => .ok (place, node)
  | name :: names =>
      match node with
      | .file _ => .error .notDirectory
      | .directory =>
          if name == "" || name == "." then tree.follow place .directory names
          else if name == ".." then
            match place with
            | [] => .error .notFound
            | _ :: above => tree.follow above .directory names
          else
            match tree.at? (name :: place) with
            | none => .error .notFound
            | some node => tree.follow (name :: place) node names

/-- The place that a path leads to, and what stands there. -/
def resolve (tree : FileTree) (path : String) : Except ReadFault (List String × Node) :=
  if path.isEmpty || path.toList.head? == some '/' then .error .notFound
  else tree.follow [] .directory (components path)

/-- The text of a file. -/
def readText (tree : FileTree) (path : String) : Except ReadFault String :=
  match tree.resolve path with
  | .error fault => .error fault
  | .ok (_, .directory) => .error .isDirectory
  | .ok (_, .file bytes) =>
      match String.fromUTF8? bytes with
      | some text => .ok text
      | none => .error .notText

/-- The names directly below a place. -/
def namesBelow (tree : FileTree) (place : List String) : List String :=
  tree.nodes.filterMap fun node =>
    match node.1 with
    | name :: above => if above == place then some name else none
    | [] => none

/-- The names in a directory. -/
def listNames (tree : FileTree) (path : String) : Except ReadFault (List String) :=
  match tree.resolve path with
  | .error fault => .error fault
  | .ok (_, .file _) => .error .notDirectory
  | .ok (place, .directory) => .ok (tree.namesBelow place)

/-- The operations of a tree as a file system. -/
def fileSystem (tree : FileTree) : FileSystem Id where
  readText := tree.readText
  listNames := tree.listNames

end FileTree

end ChartScript
