import DecoratorVeil.CommandLine.Run
import DecoratorVeil.Formatter.External

/-!
# The program

Reads the arguments, takes up the files they name, runs the request and writes what it changed.  The
program starts no other programs, so a formatter command is reported as not found.
-/

namespace DecoratorVeil.Program
open FileSystem

def usage : String :=
  "Usage: as-prettier [OPTIONS] [FILES]...\n\n" ++
  "  -c, --check             Check if the given files are formatted.\n" ++
  "  -w, --write             Edit files in-place. (Beware!)\n" ++
  "  --config TEXT           Path to a Prettier configuration file.\n" ++
  "  --stdin-filepath TEXT   Path to the file to pretend that stdin comes from.\n" ++
  "  -j, --jobs INTEGER      Files to process concurrently with --check/--write.\n" ++
  "  -v, --verbose           Log debug output to stderr.\n" ++
  "  -h, --help              Show this message and exit.\n"

def putParents (files : FileSystem) (location : Location) : FileSystem :=
  (List.range location.length).foldl (fun files count =>
    let place := location.take count
    if (files.entry? place).isSome then files else files.put place .directory) files

/-- Adds the file that a path names to what is known of the file system. -/
def takeUp (directory : Location) (files : FileSystem) (path : String) : IO FileSystem := do
  let given := normalize (if isAbsolute path then [] else directory) (names path)
  try
    let found := (← IO.FS.realPath path).toString
    let place := normalize [] (names found)
    let entry ← try
        let content ← IO.FS.readBinFile path
        pure (Entry.file content.toList false)
      catch _ => pure Entry.directory
    let files := (putParents files place).put place entry
    if given = place then return files
    else return (putParents files given).put given (.link found)
  catch _ => return putParents files given

def writeBack (before after : FileSystem) : IO Unit := do
  for (place, entry) in after.entries do
    match entry with
    | .file content _ =>
      if before.entry? place ≠ some entry then
        IO.FS.writeBinFile (render place) ⟨content.toArray⟩
    | _ => pure ()

partial def readAll (stream : IO.FS.Stream) (read : ByteArray) : IO ByteArray := do
  let chunk ← stream.read 65536
  if chunk.isEmpty then return read else readAll stream (read ++ chunk)

def showLog (trace : List Event) : IO Unit := do
  for event in trace do
    match event with
    | .log message => IO.eprintln message
    | _ => pure ()

def runRequest (request : CommandLine.Request) : IO UInt32 := do
  let stdin ← IO.getStdin
  let interactive ← stdin.isTty
  let directory := names (← IO.currentDir).toString
  let files ← request.files.foldlM (takeUp directory) (putParents ⟨[]⟩ (directory ++ [""]))
  let isRead := request.files.isEmpty && (request.stdinPath.isSome || !interactive)
  let input ← if isRead then readAll stdin .empty else pure .empty
  let host : Host := ⟨files, directory, [], fun _ _ _ => ⟨[], [], 0⟩⟩
  let setting ← IO.getEnv "AS_PRETTIER_COMMAND"
  let session : CommandLine.Session :=
    { host := host
      reader := SourceReader.standard
      formatter := Formatter.External.ofSetting host setting
      input := input.toList
      interactive := interactive
      processors := 1
      lineEnds := .kept }
  let report := CommandLine.run session request
  if request.verbose then showLog report.trace
  IO.print report.output
  IO.eprint report.errors
  writeBack files report.files
  match report.unread, report.ending with
  | some error, _ => IO.eprintln error.message
  | none, .escaped failure => IO.eprintln failure.message
  | none, .exit _ => pure ()
  return report.ending.status.toUInt32

end DecoratorVeil.Program

open DecoratorVeil in
def main (arguments : List String) : IO UInt32 := do
  match CommandLine.parse arguments with
  | .usageError =>
    IO.eprint Program.usage
    return 2
  | .help =>
    IO.print Program.usage
    return 0
  | .request request => Program.runRequest request
