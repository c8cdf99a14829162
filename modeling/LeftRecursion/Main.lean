import LeftRecursion.CommandLine.Program

/-!
The command line program. It takes the arguments, reads the file or the standard
input to its end, and writes what the program answers. Prompts are wanted as well
when the standard input is a terminal.
-/

namespace LeftRecursion.CommandLine

section Devices

def deviceFault : IO.Error → Batch.DeviceFault
  | .noFileOrDirectory .. => .notFound
  | .permissionDenied .. => .permissionDenied
  | .inappropriateType _ 21 _ => .isDirectory
  | .inappropriateType .. => .notDirectory
  | .invalidArgument .. => .longName
  | error => ⟨.other, toString error⟩

/-- Whether a failure comes up when a file is opened, before anything is read. -/
def isOpening : IO.Error → Bool
  | .inappropriateType _ 21 _ => false
  | .noFileOrDirectory .. | .permissionDenied .. | .inappropriateType .. | .invalidArgument .. =>
      true
  | _ => false

def readFile (name : String) : IO (Except Batch.DeviceFault Batch.LineStream) := do
  try
    let bytes ← IO.FS.readBinFile name
    return .ok (.ofBytes bytes.toList none)
  catch error =>
    if isOpening error then return .error (deviceFault error)
    else return .ok (.ofBytes [] (some (deviceFault error)))

def readStandardInput : IO Batch.LineStream := do
  let stream ← IO.getStdin
  try
    let bytes ← stream.readBinToEnd
    return .ofBytes bytes.toList none
  catch error => return .ofBytes [] (some (deviceFault error))

def write (response : Response) : IO UInt32 := do
  (← IO.getStderr).putStr response.errors
  (← IO.getStdout).putStr response.output
  return response.status.toUInt32

end Devices

end LeftRecursion.CommandLine

open LeftRecursion LeftRecursion.CommandLine

def main (arguments : List String) : IO UInt32 := do
  match readArguments arguments with
  | .error stop => write stop.response
  | .ok settings =>
      match settings.file with
      | some name => write (settings.work (← readFile name))
      | none =>
          let terminal ← (← IO.getStdin).isTty
          let stream ← readStandardInput
          let asked := settings.interactive || terminal
          write ({ settings with interactive := asked }.work (.ok stream))
