/-
  `CommandLine.Disk`: files, folders and the paths that lead to them.

  A disk is a snapshot: the folders and the files that matter for one call, each
  at its location.  A path is followed name by name from the working folder or
  from the root; it leads to a folder, to a file, to a place where a file could
  be made, or nowhere.
-/
import RelCalc.Fault

set_option autoImplicit false

namespace RelCalc.CommandLine

/-- A place on a disk: the names that lead there, from the root or from the working folder. -/
structure Location where
  absolute : Bool
  names : List String
  deriving DecidableEq, Repr, Inhabited

namespace Location

/-- The root or the working folder. -/
def start (absolute : Bool) : Location := ⟨absolute, []⟩

/-- One name further. -/
def below (location : Location) (name : String) : Location :=
  ⟨location.absolute, location.names ++ [name]⟩

/-- One folder up.  The root is its own parent. -/
def parent (location : Location) : Location :=
  match location.names.getLast? with
  | none => if location.absolute then location else location.below ".."
  | some ".." => location.below ".."
  | some _ => ⟨location.absolute, location.names.dropLast⟩

/-- The shortest path to a location. -/
def path (location : Location) : String :=
  (if location.absolute then "/" else "") ++ Text.joinWith "/" location.names

end Location

/-- The pieces of a path between its slashes. -/
def splitPath : List Char → List (List Char)
  | [] => [[]]
  | '/' :: rest => [] :: splitPath rest
  | c :: rest =>
      match splitPath rest with
      | [] => [[c]]
      | piece :: pieces => (c :: piece) :: pieces

/-- The names on a path, in order. -/
def pathNames (path : String) : List String :=
  ((splitPath path.toList).filter fun piece => !piece.isEmpty).map String.ofList

/-- The path ends with a slash. -/
def endsInSlash (path : String) : Bool := path.toList.getLast? = some '/'

/-- Folders and files at their locations. -/
structure Disk where
  folders : List Location
  files : List (Location × String)
  deriving DecidableEq, Repr, Inhabited

/-- Where a path leads. -/
inductive Target where
  | folder
  | file (location : Location) (content : String)
  /-- No file is there, but one could be made. -/
  | vacant (location : Location)
  | unreachable (failure : OpenFailure)
  deriving DecidableEq, Repr, Inhabited

/-- The most bytes a name may have. -/
def maxNameBytes : Nat := 255

/-- The most bytes a path may have. -/
def maxPathBytes : Nat := 4095

namespace Disk

/-- There is a folder at a location.  The start is one, and so is everything above it. -/
def isFolder (disk : Disk) (location : Location) : Bool :=
  location.names.all (fun name => name = "..") || decide (location ∈ disk.folders)

/-- The content of the file at a location. -/
def file? (disk : Disk) (location : Location) : Option String :=
  (disk.files.find? fun entry => entry.1 = location).map Prod.snd

/-- Follow names from a folder on. -/
def follow (disk : Disk) : Location → List String → Target
  | _, [] => .folder
  | here, "." :: rest => disk.follow here rest
  | here, ".." :: rest => disk.follow here.parent rest
  | here, name :: rest =>
      let there := here.below name
      if maxNameBytes < name.utf8ByteSize then .unreachable .nameTooLong
      else if disk.isFolder there then disk.follow there rest
      else
        match disk.file? there with
        | some content => if rest = [] then .file there content else .unreachable .belowFile
        | none => if rest = [] then .vacant there else .unreachable .missing

/-- Where a path leads. -/
def target (disk : Disk) (path : String) : Target :=
  if path = "" then .unreachable .missing
  else if maxPathBytes < path.utf8ByteSize then .unreachable .nameTooLong
  else disk.follow (.start (path.toList.head? = some '/')) (pathNames path)

/-- The content of the file that a path leads to.  A slash at the end asks for a folder. -/
def read (disk : Disk) (path : String) : Except OpenFailure String :=
  match disk.target path with
  | .file _ content => if endsInSlash path then .error .belowFile else .ok content
  | .folder => .error .folder
  | .vacant _ => .error .missing
  | .unreachable failure => .error failure

/-- The disk with a content at a location, in place of the file there or as a new file. -/
def put (disk : Disk) (location : Location) (content : String) : Disk :=
  if (disk.file? location).isSome then
    ⟨disk.folders, disk.files.map fun entry =>
      if entry.1 = location then (location, content) else entry⟩
  else ⟨disk.folders, disk.files ++ [(location, content)]⟩

/-- Where a file is written that a path leads to.  A path that ends in a slash names a folder. -/
def place (disk : Disk) (path : String) : Except OpenFailure Location :=
  match disk.target path with
  | .folder => .error .folder
  | .unreachable failure => .error failure
  | .file location _ => if endsInSlash path then .error .folder else .ok location
  | .vacant location => if endsInSlash path then .error .folder else .ok location

/-- The disk after a file is written. -/
def write (disk : Disk) (path content : String) : Except OpenFailure Disk :=
  (disk.place path).map fun location => disk.put location content

/-- The files that are on this disk and not, with the same content, on an earlier one. -/
def changes (disk earlier : Disk) : List (String × String) :=
  (disk.files.filter fun entry => decide (earlier.file? entry.1 ≠ some entry.2)).map
    fun entry => (entry.1.path, entry.2)

/-- The places on the way along some names, the last one where they lead. -/
def places (here : Location) : List String → List Location
  | [] => []
  | "." :: rest => places here rest
  | ".." :: rest => places here.parent rest
  | name :: rest => here.below name :: places (here.below name) rest

/-- The places on the way along a path. -/
def placesOn (path : String) : List Location :=
  places (.start (path.toList.head? = some '/')) (pathNames path)

/-- A disk with a folder where a path leads, and folders on the way. -/
def withFolder (disk : Disk) (path : String) : Disk :=
  ⟨disk.folders ++ placesOn path, disk.files⟩

/-- A disk with folders on the way along a path. -/
def withWay (disk : Disk) (path : String) : Disk :=
  ⟨disk.folders ++ (placesOn path).dropLast, disk.files⟩

/-- A disk with a file where a path leads, and folders on the way. -/
def withFile (disk : Disk) (path content : String) : Disk :=
  match (placesOn path).getLast? with
  | none => disk
  | some location => (disk.withWay path).put location content

/-- The working folder with files in it; a name with slashes makes the folders on its way. -/
def ofFiles (files : List (String × String)) : Disk :=
  files.foldl (fun disk file => disk.withFile file.1 file.2) ⟨[], []⟩

end Disk

end RelCalc.CommandLine
