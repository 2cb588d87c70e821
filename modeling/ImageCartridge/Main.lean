import ImageCartridge.CommandLine.Commands

/-! The program: carries out the command of its arguments on real files. -/
namespace ImageCartridge.CommandLine

/-- The cause of a failed access to a file. The system gives its number for the
cause, or the negation of it. -/
def fileError : IO.Error → FileError
  | .noFileOrDirectory _ _ _ => .notFound
  | cause@(.inappropriateType _ code _) =>
      if min code (-code) = 20 then .notDirectory
      else if min code (-code) = 21 then .isDirectory
      else .other cause.toString
  | cause@(.invalidArgument _ code _) =>
      if min code (-code) = 36 then .nameTooLong else .other cause.toString
  | cause => .other cause.toString

def Action.perform : Action → IO Report
  | finish report => return report
  | read path next => do
      let content ← (IO.FS.readBinFile path).toBaseIO
      (next (content.mapError fileError |>.map fun bytes => bytes.data.toList)).perform
  | write path content next => do
      let done ← (IO.FS.writeBinFile path ⟨content.toArray⟩).toBaseIO
      (next (done.mapError fileError)).perform

end ImageCartridge.CommandLine

open ImageCartridge.CommandLine

def main (args : List String) : IO UInt32 := do
  let environment ← IO.getEnv "PIXELCART_CONFIG"
  let report ← (run "pixelcart" args environment).perform
  IO.print report.output
  if let some complaint := report.complaint then
    IO.eprintln complaint.line
  return UInt32.ofNat report.status
