import Specimen.CommandLine.Report

/-!
The program: collects the files that its arguments name, runs the command line, and writes what the run
leaves behind.
-/
namespace Specimen.Main

open CommandLine

private def stringOf (text : Text) : String := String.ofList (text.map Char.ofNat)

private def bytesOf (bytes : ByteArray) : List Nat := bytes.toList.map UInt8.toNat

private def parentOf (path : String) : String :=
  String.intercalate "/" ((path.splitOn "/").dropLast)

def collect (workspace : Workspace) (path : String) : IO Workspace := do
  match ← (IO.FS.readBinFile path).toBaseIO with
  | .ok bytes =>
    return { workspace with others := ⟨Text.ofString path, bytesOf bytes⟩ :: workspace.others }
  | .error (.inappropriateType ..) =>
    return { workspace with directories := Text.ofString path :: workspace.directories }
  | .error _ => return workspace

def collectAround (workspace : Workspace) (path : String) : IO Workspace := do
  let parent := parentOf path
  collect (← if parent.isEmpty then pure workspace else collect workspace parent) path

partial def readAll (stream : IO.FS.Stream) (found : ByteArray) : IO ByteArray := do
  let chunk ← stream.read 65536
  if chunk.isEmpty then return found
  readAll stream (found ++ chunk)

def deliver (report : Report) : IO UInt32 := do
  for (path, bytes) in report.console.files do
    IO.FS.writeBinFile (stringOf path) ⟨(bytes.map Nat.toUInt8).toArray⟩
  IO.print (stringOf report.console.output)
  IO.eprint (stringOf report.console.errors)
  if let some failure := report.failure then IO.eprintln (stringOf failure.text)
  return report.exit.toUInt32

end Specimen.Main

open Specimen in
def main (arguments : List String) : IO UInt32 := do
  let texts := arguments.map Text.ofString
  let request := CommandLine.request texts
  let (sources, output) := (request.toOption.map (·.paths)).getD ([], none)
  let mut workspace : Workspace := ⟨.ofModules [], [], []⟩
  for path in sources ++ output.toList do
    workspace ← Main.collectAround workspace (String.ofList (path.map Char.ofNat))
  let input ← match request with
    | .ok (.generate path _ _ _) =>
      if path = ("-" : Text) then
        let bytes ← Main.readAll (← IO.getStdin) .empty
        pure (bytes.toList.map UInt8.toNat)
      else pure []
    | _ => pure []
  Main.deliver (CommandLine.run ⟨workspace, input⟩ texts)
