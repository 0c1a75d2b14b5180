import LiveTopology.Text.Utf8

/-!
# Reading files by path

A tree of files is given by the paths of its files, taken from the current directory. A path is
walked name by name: it may only go on below a directory, and a path that ends in a slash must lead
to one. Reading as text needs a file whose content is UTF-8.
-/

namespace LiveTopology

/-- Why a file cannot be read as text. -/
inductive FileError where
  | notFound
  | accessDenied
  | notDirectory
  | isDirectory
  | nameTooLong
  /-- The path contains a NUL character, which ends a name. -/
  | nulInPath
  | notUtf8
  /-- Another refusal with its wording. -/
  | other (message : String)
  deriving DecidableEq, Repr

/-- The wording of a file error. -/
def FileError.message : FileError → String
  | .notFound => "No such file or directory (os error 2)"
  | .accessDenied => "Permission denied (os error 13)"
  | .notDirectory => "Not a directory (os error 20)"
  | .isDirectory => "Is a directory (os error 21)"
  | .nameTooLong => "File name too long (os error 36)"
  | .nulInPath => "file name contained an unexpected NUL byte"
  | .notUtf8 => "stream did not contain valid UTF-8"
  | .other message => message

/-- The names of a path that lead on: empty names and single dots stay where they are. -/
def pathNames (path : String) : List String :=
  (path.toList.splitOn '/').map String.ofList |>.filter fun name => name ≠ "" && name ≠ "."

/-- A file of a tree: the names that lead to it, and its content. -/
structure FileNode where
  names : List String
  content : List UInt8

/-- The files at and below the current directory. -/
structure FileTree where
  nodes : List FileNode

namespace FileTree

/-- The tree of the files with the given paths. -/
def ofPaths (files : List (String × List UInt8)) : FileTree :=
  ⟨files.map fun (path, content) => ⟨pathNames path, content⟩⟩

/-- The content of the file to which names lead. -/
def file? (tree : FileTree) (names : List String) : Option (List UInt8) :=
  (tree.nodes.find? fun node => node.names == names).map FileNode.content

/-- Whether names lead to a directory: some file lies below it. -/
def isDirectory (tree : FileTree) (names : List String) : Bool :=
  names.isEmpty || tree.nodes.any fun node =>
    names.length < node.names.length && names.isPrefixOf node.names

/-- How many bytes a name may have. -/
def nameLimit : Nat := 255

/-- How many bytes a path may have. -/
def pathLimit : Nat := 4095

/-- A place to which a path leads. -/
inductive Place where
  /-- A file or directory of the tree, or what might be one. -/
  | inside (names : List String)
  /-- A directory above the tree, of which nothing else is known. -/
  | above
  deriving DecidableEq, Repr

/-- Follows names from a place. Two dots lead back up. -/
def walk (tree : FileTree) : Place → List String → Except FileError Place
  | place, [] => .ok place
  | .above, name :: rest => if name = ".." then tree.walk .above rest else .error .notFound
  | .inside names, name :: rest =>
    if !tree.isDirectory names then
      .error (if (tree.file? names).isSome then .notDirectory else .notFound)
    else if name = ".." then
      tree.walk (if names.isEmpty then .above else .inside names.dropLast) rest
    else if nameLimit < name.utf8ByteSize then .error .nameTooLong
    else tree.walk (.inside (names ++ [name])) rest

/-- The content of the file at a path. -/
def read (tree : FileTree) (path : String) : Except FileError (List UInt8) :=
  if path.contains '\x00' then .error .nulInPath
  else if path.isEmpty then .error .notFound
  else if pathLimit < path.utf8ByteSize then .error .nameTooLong
  else
    let start : Place := if path.startsWith "/" then .above else .inside []
    let needsDirectory := path.endsWith "/" || path.endsWith "/."
    match tree.walk start (pathNames path) with
    | .error error => .error error
    | .ok .above => .error .isDirectory
    | .ok (.inside names) =>
      if tree.isDirectory names then .error .isDirectory
      else
        match tree.file? names with
        | none => .error .notFound
        | some content => if needsDirectory then .error .notDirectory else .ok content

end FileTree

/-- The text of a content. -/
def textOf (content : List UInt8) : Except FileError String :=
  match Text.decode? content with
  | some text => .ok text
  | none => .error .notUtf8

end LiveTopology
