import ScopedConfig.File

/-!
A small file tree held in memory, with a root and a working directory in it. Paths are walked one
component at a time from the root or from the working directory, and every component that is
passed through must be a directory.
-/

namespace ScopedConfig

/-- The names that lead to a place, innermost first; the root has none. -/
abbrev Location := List Text

structure Disk where
  nodes : List (Location × FileNode)

namespace Disk

def workingDirectory : Location := [['w', 'o', 'r', 'k']]

def empty : Disk := ⟨[([], .directory), (workingDirectory, .directory)]⟩

def node? (disk : Disk) (location : Location) : Option FileNode := disk.nodes.lookup location

def isDirectory (disk : Disk) (location : Location) : Bool :=
  match disk.node? location with
  | some .directory => true
  | _ => false

def origin : Text → Location
  | '/' :: _ => []
  | _ => workingDirectory

def child (here : Location) (component : Text) : Location :=
  if component = [] || component = ['.'] then here
  else if component = ['.', '.'] then here.tail
  else component :: here

def walk (disk : Disk) (here : Location) (component : Text) : Option Location :=
  if disk.isDirectory here then some (child here component) else none

def locate? (disk : Disk) (path : Text) : Option Location :=
  if path.isEmpty || path.contains '\x00' then none
  else (path.splitOn '/').foldlM disk.walk (origin path)

def files (disk : Disk) : Files := fun path => (disk.locate? path).bind disk.node?

def put (disk : Disk) (location : Location) (node : FileNode) : Disk :=
  ⟨(location, node) :: disk.nodes.filter fun entry => entry.1 != location⟩

def walkMaking (place : Disk × Location) (component : Text) : Disk × Location :=
  let next := child place.2 component
  match place.1.node? next with
  | some _ => (place.1, next)
  | none => (place.1.put next .directory, next)

def makeDirectories (disk : Disk) (path : Text) : Disk :=
  ((path.splitOn '/').foldl walkMaking (disk, origin path)).1

/-- Writes a file, replacing one that is there and making the directories that it needs. A
directory is not replaced. -/
def write (disk : Disk) (path : Text) (bytes : ByteArray) : Disk :=
  let components := path.splitOn '/'
  let (made, parent) := components.dropLast.foldl walkMaking (disk, origin path)
  let location := child parent (components.getLast?.getD [])
  if made.isDirectory location then made else made.put location (.file bytes)

def remove (disk : Disk) (path : Text) : Disk :=
  match disk.locate? path with
  | none => disk
  | some location =>
    if disk.isDirectory location then disk
    else ⟨disk.nodes.filter fun entry => entry.1 != location⟩

end Disk

end ScopedConfig
