import JitTrace.CommandLine.Run

/-!
# The program

The outer layer: read the files that a run can ask for, plan the run, and carry
the plan out.
-/

namespace JitTrace.CommandLine

/-- The fault behind an error of the file system. -/
def ioFault (path : String) : IO.Error → IoFault
  | .noFileOrDirectory .. => .notFound
  | .permissionDenied .. => .permissionDenied
  | .inappropriateType .. => .notDirectory
  | .invalidArgument .. => if path.length > FileTree.longestName then .nameTooLong else .nulInName
  | _ => .isDirectory

/-- Read a file. -/
def readFile (path : String) : IO (Except IoFault (List UInt8)) := do
  try
    let bytes ← IO.FS.readBinFile path
    return .ok bytes.toList
  catch error => return .error (ioFault path error)

/-- Files that have been read. -/
abbrev Snapshot := List (String × Except IoFault (List UInt8))

/-- Files that have been read, as a view. -/
def Snapshot.view (snapshot : Snapshot) : FileView where
  read := fun path => (snapshot.lookup path).getD (.error .notFound)

/-- Read files. -/
def Snapshot.take (paths : List String) : IO Snapshot :=
  paths.eraseDups.mapM fun path => return (path, ← readFile path)

/-- Read every file that a run can ask for. -/
def Invocation.snapshot (invocation : Invocation) : IO Snapshot := do
  let named ← Snapshot.take (invocation.config.toList ++ [invocation.log])
  match invocation.settings (Snapshot.view named), (Snapshot.view named).read invocation.log with
  | .ok settings, .ok bytes =>
    let mentioned ← Snapshot.take (mentionedPaths bytes invocation.log settings)
    return named ++ mentioned
  | _, _ => return named

/-- Carry a plan out. -/
def Plan.carryOut : Plan → IO Outcome
  | .print printed => return Outcome.ofPrinted printed
  | .write path content printed => do
    try
      IO.FS.writeFile path content
      return Outcome.ofPrinted printed
    catch error => return Outcome.ofFault (.write path (ioFault path error))

/-- Run a command. -/
def execute (arguments : List String) : IO Outcome := do
  match readArguments arguments with
  | .error stop => return Outcome.ofStop stop
  | .ok invocation =>
    let snapshot ← invocation.snapshot
    match invocation.plan snapshot.view with
    | .error fault => return Outcome.ofFault fault
    | .ok plan => plan.carryOut

end JitTrace.CommandLine

/-- Run the command that the arguments ask for. -/
def main (arguments : List String) : IO UInt32 := do
  let outcome ← JitTrace.CommandLine.execute arguments
  IO.print outcome.printed.output
  IO.eprint outcome.printed.diagnostics
  return outcome.exitCode.toUInt32
