import ImageCartridge.Bytes
import ImageCartridge.Text.Quoted

/-! What a command does to the world: it reads and writes files, and in the end
gives a report. An action is data, so it can be carried out on real files and
just as well on any other store of files. -/
namespace ImageCartridge.CommandLine

/-- Why a file could not be read or written. -/
inductive FileError where
  | notFound
  | notDirectory
  | isDirectory
  | nameTooLong
  | other (text : String)

def FileError.message : FileError → String
  | notFound => "No such file or directory (os error 2)"
  | notDirectory => "Not a directory (os error 20)"
  | isDirectory => "Is a directory (os error 21)"
  | nameTooLong => "File name too long (os error 36)"
  | other text => text

/-- Files as a command sees them, whatever keeps them. A write that fails gives no files back,
since it leaves those that were there. -/
structure FileStore (σ : Type) where
  read : σ → String → Except FileError Bytes
  write : σ → String → Bytes → Except FileError σ

/-- Why a command failed: a sentence of its own, or the message of a failure it
passes on. -/
inductive Complaint where
  | sentence (text : String)
  | failure (message : String)

/-- The line a complaint is written as. A sentence is quoted. -/
def Complaint.line : Complaint → String
  | sentence text => "Error: " ++ Text.Quoted.encode text
  | failure message => "Error: " ++ message

/-- What a finished command leaves: its exit status, what it printed, and what
it complained about. -/
structure Report where
  status : Nat := 0
  output : String := ""
  complaint : Option Complaint := none

/-- A command that failed prints nothing. -/
def Report.failed (complaint : Complaint) : Report :=
  { status := 1, complaint := some complaint }

/-- A command as far as it has been decided. -/
inductive Action where
  | finish (report : Report)
  | read (path : String) (next : Except FileError Bytes → Action)
  | write (path : String) (content : Bytes) (next : Except FileError Unit → Action)

namespace Action

/-- Carry out an action on a store. A write that fails leaves the files as they are. -/
def replay {σ : Type} (store : FileStore σ) (files : σ) : Action → Report × σ
  | finish report => (report, files)
  | read path next => (next (store.read files path)).replay store files
  | write path content next =>
      match store.write files path content with
      | .ok after => (next (.ok ())).replay store after
      | .error cause => (next (.error cause)).replay store files

end Action

end ImageCartridge.CommandLine
