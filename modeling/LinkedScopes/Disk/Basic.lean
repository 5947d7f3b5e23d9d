import LinkedScopes.Disk.Location

/-! Folders and files as a program sees them from its working folder. Paths are walked
the way a file system walks them, name by name, so that a path through a file or
through nothing fails where the walk does. Links, devices and permissions are left out,
and nothing is known of the folders around the working folder but that they are there. -/
namespace LinkedScopes

inductive DiskEntry where
  | folder
  | file (bytes : ByteArray)

/-- The entries below the anchors; an anchor is always a folder. -/
structure Disk where
  entries : List (Location × DiskEntry)

inductive DiskFailure where
  | notFound | notFolder | isFolder
  | notText
deriving DecidableEq

def DiskFailure.message : DiskFailure → String
  | notFound => "No such file or directory (os error 2)"
  | notFolder => "Not a directory (os error 20)"
  | isFolder => "Is a directory (os error 21)"
  | notText => "stream did not contain valid UTF-8"

namespace Disk

def empty : Disk := ⟨[]⟩

def lookup (disk : Disk) (l : Location) : Option DiskEntry :=
  if l.names = [] then some .folder else disk.entries.lookup l

def put (disk : Disk) (l : Location) (content : DiskEntry) : Disk :=
  ⟨(l, content) :: disk.entries.filter fun entry => entry.1 ≠ l⟩

def append (disk : Disk) (l : Location) (bytes : ByteArray) : Disk :=
  ⟨disk.entries.map fun entry =>
    if entry.1 = l then
      match entry.2 with
      | .file content => (entry.1, .file (content ++ bytes))
      | .folder => entry
    else entry⟩

/-- Follows names from a place; every step needs a folder to start from. -/
def walk (disk : Disk) : Location → List String → Except DiskFailure Location
  | l, [] => .ok l
  | l, name :: names =>
    match disk.lookup l with
    | some .folder => disk.walk (l.step name) names
    | some (.file _) => .error .notFolder
    | none => .error .notFound

/-- Where a path starts, and the names to follow from there. -/
def route (path : String) : Location × List String :=
  let names := pathNames path
  match names with
  | "" :: rest => (⟨.top, []⟩, rest)
  | _ => (.working, names)

/-- The bytes of the file at a path. -/
def bytes (disk : Disk) (path : String) : Except DiskFailure ByteArray := do
  if path = "" then throw .notFound
  let (start, names) := route path
  match disk.lookup (← disk.walk start names) with
  | some (.file bytes) => return bytes
  | some .folder => throw .isFolder
  | none => throw .notFound

def text (disk : Disk) (path : String) : Except DiskFailure String := do
  match String.fromUTF8? (← disk.bytes path) with
  | some text => return text
  | none => throw .notText

/-- The place at which a path would have a file written. A path that ends with a slash
or in a dotted name can only mean a folder. -/
def target (disk : Disk) (path : String) : Except DiskFailure Location := do
  if path = "" then throw .notFound
  let (start, names) := route path
  match names.reverse.dropWhile (· = "") with
  | [] => throw .isFolder
  | last :: parents =>
    let folder ← disk.walk start parents.reverse
    match disk.lookup folder with
    | some .folder =>
      let place := folder.step last
      if names.getLast? = some "" ∨ last = "." ∨ last = ".." then throw .isFolder
      else match disk.lookup place with
        | some .folder => throw .isFolder
        | _ => return place
    | some (.file _) => throw .notFolder
    | none => throw .notFound

/-- Opens an empty file at a path, dropping what the file held before. -/
def create (disk : Disk) (path : String) : Except DiskFailure (Location × Disk) := do
  let place ← disk.target path
  return (place, disk.put place (.file ByteArray.empty))

/-- Puts a file below the working folder, and the folders on the way that are missing. -/
def install (disk : Disk) (path : String) (bytes : ByteArray) : Disk :=
  go disk .working (pathNames path)
where
  go (disk : Disk) (l : Location) : List String → Disk
    | [] => disk
    | [name] => disk.put (l.step name) (.file bytes)
    | name :: names =>
      let folder := l.step name
      let disk := if (disk.lookup folder).isNone then disk.put folder .folder else disk
      go disk folder names

end Disk
end LinkedScopes
