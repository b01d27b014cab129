import RipInterpreter.CommandLine.Report

namespace RipInterpreter

/-- How reading a file failed. -/
def readingFailure : IO.Error → Look
  | .noFileOrDirectory .. => FileTree.absent
  | .inappropriateType .. => .notFile "Is a directory (os error 21)"
  | .permissionDenied .. => .unreadable "Permission denied (os error 13)"
  | other => .notFile (toString other)

def lookAt (path : String) : IO Look := do
  try
    return .file (← IO.FS.readBinFile path)
  catch failure => return readingFailure failure

/-- Carries a command out with the paths looked at so far, and looks at more of them as long as it
asks for more. -/
partial def perform (around : Surroundings) (command : Option Command)
    (seen : List (String × Look)) : IO Report := do
  let known : Surroundings := { around with look := fun path => (seen.lookup path).getD .unseen }
  match known.run command with
  | .finished report => return report
  | .unseen path => perform around command ((path, ← lookAt path) :: seen)

end RipInterpreter

open RipInterpreter

def main (arguments : List String) : IO UInt32 := do
  let command := Command.ofArguments arguments
  let needed := match command with
    | some command => command.readsStandardInput
    | none => false
  let input ← if needed then (← IO.getStdin).readBinToEnd else pure ByteArray.empty
  let around : Surroundings :=
    { standardInput := decodeText input
      look := fun _ => .unseen
      workingDirectory := toString (← IO.currentDir)
      moduleDirectories := ← IO.getEnv "RIP_PATH" }
  let report ← perform around command []
  (← IO.getStdout).putStr report.output
  (← IO.getStderr).putStr report.errors
  return report.code.toUInt32
