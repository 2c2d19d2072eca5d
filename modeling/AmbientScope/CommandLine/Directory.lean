/-!
# Directories

Paths, and a directory held in memory. A path is followed part by part: an empty part and a dot stay, two dots go
up but not out of the directory, and a part after a file leads nowhere.
-/

set_option autoImplicit false

namespace AmbientScope.CommandLine

namespace Path

/-- Drop separators, and single dots behind one, from the end of a reversed path. -/
def trimReversed : List Char → List Char
  | ['/'] => ['/']
  | '/' :: cs => trimReversed cs
  | '.' :: '/' :: cs => trimReversed ('/' :: cs)
  | cs => cs

/-- The directory that a path lies in; empty if the path is a mere name. -/
def parent (path : String) : String :=
  String.ofList (trimReversed (path.toList.reverse.dropWhile (· ≠ '/'))).reverse

/-- A path as seen from a directory: an absolute one stands for itself. -/
def within (directory path : String) : String :=
  if path.toList.head? = some '/' ∨ directory.isEmpty then path
  else if directory.toList.getLast? = some '/' then directory ++ path
  else directory ++ "/" ++ path

end Path

/-- A directory: the folders in it and its files with their texts, each by the parts of its path. -/
structure Directory where
  folders : List (List String) := []
  files : List (List String × String) := []
  deriving Inhabited

namespace Directory

def partsOf (path : String) : List String := path.splitOn "/"

/-- Whether parts lead to a folder; no parts lead to the directory itself. -/
def isFolder (d : Directory) (parts : List String) : Bool := parts.isEmpty || d.folders.contains parts

/-- The parts reached by following a path from the given ones. -/
def follow (d : Directory) (reached : List String) : List String → Option (List String)
  | [] => some reached
  | part :: rest =>
    if !d.isFolder reached then none
    else if part = "" ∨ part = "." then d.follow reached rest
    else if part = ".." then
      if reached.isEmpty then none else d.follow reached.dropLast rest
    else d.follow (reached ++ [part]) rest

/-- The parts that a path leads to; an empty path leads nowhere and an absolute one out of the directory. -/
def locate (d : Directory) (path : String) : Option (List String) :=
  if path.isEmpty ∨ path.toList.head? = some '/' then none else d.follow [] (partsOf path)

def read? (d : Directory) (path : String) : Option String :=
  (d.locate path).bind fun parts => d.files.lookup parts

def has (d : Directory) (path : String) : Bool :=
  match d.locate path with
  | none => false
  | some parts => d.isFolder parts || (d.files.lookup parts).isSome

/-- Make the folders along a path that are not there yet; answers with the parts of the last one. -/
def makeFolders (d : Directory) (reached : List String) : List String → List String × Directory
  | [] => (reached, d)
  | part :: rest =>
    if part = "" ∨ part = "." then d.makeFolders reached rest
    else if part = ".." then d.makeFolders reached.dropLast rest
    else
      let inner := reached ++ [part]
      let folders := if d.folders.contains inner then d.folders else inner :: d.folders
      makeFolders { d with folders := folders } inner rest

/-- Put a text into a file in place of what it held. -/
def write (d : Directory) (path text : String) : Directory :=
  let parts := partsOf path
  let (folder, d) := d.makeFolders [] parts.dropLast
  let file := folder ++ parts.getLast?.toList
  { d with files := (file, text) :: d.files.filter (·.1 ≠ file) }

def ofFiles (files : List (String × String)) : Directory :=
  files.foldl (fun d f => d.write f.1 f.2) {}

end Directory

end AmbientScope.CommandLine
