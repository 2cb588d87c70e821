import ImageCartridge.CommandLine.Action

/-! A store to try commands on: a directory that holds only files, and where paths from
it lead. Nothing is known of the directories around it, except that they are directories.
No command knows of this store or of its limits. -/
namespace ImageCartridge.CommandLine

/-- The files of a directory by their names. The first entry of a name counts. -/
abbrev Directory := List (String × Bytes)

def nameLimit : Nat := 255

def pathLimit : Nat := 4095

/-- Where a path has led so far. A name that no file has is a place too, since a
file can be made there. -/
inductive Place where
  | directory
  | outside
  | file (name : String) (content : Bytes)
  | vacant (name : String)

namespace Directory

def entry (files : Directory) (name : String) : Place :=
  match files.lookup name with
  | some content => .file name content
  | none => .vacant name

/-- Follow one component of a path, which is what stands between its slashes.
An empty one and a dot stay; nothing leads on from a file. -/
def follow (files : Directory) (place : Place) (component : String) :
    Except FileError Place :=
  match place with
  | .file _ _ => .error .notDirectory
  | .vacant _ => .error .notFound
  | .directory | .outside =>
      if component = "" ∨ component = "." then .ok place
      else if component = ".." then .ok .outside
      else if nameLimit < component.utf8ByteSize then .error .nameTooLong
      else
        match place with
        | .directory => .ok (files.entry component)
        | _ => .error .notFound

/-- The place a path leads to. A path that starts with a slash starts outside. -/
def resolve (files : Directory) (path : String) : Except FileError Place :=
  if path = "" then .error .notFound
  else if pathLimit < path.utf8ByteSize then .error .nameTooLong
  else
    (path.splitOn "/").foldlM files.follow
      (if path.startsWith "/" then .outside else .directory)

def put (files : Directory) (name : String) (content : Bytes) : Directory :=
  (name, content) :: files.filter fun file => file.1 ≠ name

def read (files : Directory) (path : String) : Except FileError Bytes :=
  match files.resolve path with
  | .ok (.file _ content) => .ok content
  | .ok (.vacant _) => .error .notFound
  | .ok .directory | .ok .outside => .error .isDirectory
  | .error cause => .error cause

def write (files : Directory) (path : String) (content : Bytes) : Except FileError Directory :=
  match files.resolve path with
  | .ok (.file name _) | .ok (.vacant name) => .ok (files.put name content)
  | .ok .directory | .ok .outside => .error .isDirectory
  | .error cause => .error cause

def store : FileStore Directory where
  read := read
  write := write

end Directory

end ImageCartridge.CommandLine
