import JitTrace.CommandLine.Arguments
import JitTrace.CommandLine.Report
import JitTrace.CpuProfile.Export
import JitTrace.Files.Tree

/-!
# Running a command

A run is planned on a view of the file system. The plan is a text to print, or a
file to write with what is printed afterwards; carrying it out gives the outcome.
-/

namespace JitTrace.CommandLine

/-- Why a command could not do its work. -/
inductive CommandFault where
  | configuration (path : String) (cause : Fault)
  | versionOverride (raw : String) (cause : Fault)
  | analysis (path : String) (cause : Fault)
  | exportProfile (cause : Fault)
  | write (path : String) (cause : IoFault)

/-- What a command was doing when it failed. -/
def CommandFault.message : CommandFault → String
  | .configuration path _ => "failed to load config " ++ path
  | .versionOverride raw _ => "invalid --version-override " ++ raw
  | .analysis path _ => "failed to analyze " ++ path
  | .exportProfile cause => cause.message
  | .write path _ => "failed to write " ++ path

/-- Why it failed. -/
def CommandFault.cause : CommandFault → Option Fault
  | .configuration _ cause | .versionOverride _ cause | .analysis _ cause => some cause
  | .exportProfile _ => none
  | .write _ cause => some (.io cause)

/-- What a command prints. -/
structure Printed where
  output : String := ""
  diagnostics : String := ""
deriving DecidableEq, Repr

/-- What a command does besides reading. -/
inductive Plan where
  | print (text : Printed)
  /-- Write a file; `text` is printed when that has succeeded. -/
  | write (path content : String) (text : Printed)
deriving DecidableEq, Repr

/-- How a command ends. -/
structure Outcome where
  exitCode : UInt8
  printed : Printed := {}
deriving DecidableEq, Repr

namespace Outcome

/-- A success. -/
def ofPrinted (printed : Printed) : Outcome where
  exitCode := 0
  printed := printed

/-- A failure. -/
def ofFault (fault : CommandFault) : Outcome where
  exitCode := 1
  printed.diagnostics :=
    let cause :=
      match fault.cause with
      | none => ""
      | some cause => "\n\nCaused by:\n    " ++ cause.message
    "Error: " ++ fault.message ++ cause ++ "\n"

/-- The name and version of the program. -/
def versionText : String := "v8lens 0.1.0\n"

/-- The forms of a command. -/
def usageText : String :=
  "Usage: summary|export|folded|deopts|ics [OPTIONS] <LOG>\n"

/-- Arguments that call for no work. -/
def ofStop : Stop → Outcome
  | .usage => { exitCode := 2, printed.diagnostics := usageText }
  | .help => { exitCode := 0, printed.output := usageText }
  | .version => { exitCode := 0, printed.output := versionText }

end Outcome

namespace Invocation

/-- Settings with what the arguments say in their place. -/
def override (invocation : Invocation) (settings : Settings) : Settings :=
  let profile := settings.profile
  { settings with
    profile :=
      { profile with
        separateInlineCaches :=
          invocation.separateInlineCaches.getD profile.separateInlineCaches
        separateBytecodes := invocation.separateBytecodes.getD profile.separateBytecodes
        separateBuiltins := invocation.separateBuiltins.getD profile.separateBuiltins
        separateStubs := invocation.separateStubs.getD profile.separateStubs }
    reader :=
      { timedRange := settings.reader.timedRange || invocation.timedRange
        pairwiseTimedRange :=
          settings.reader.pairwiseTimedRange || invocation.pairwiseTimedRange }
    version := invocation.versionOverride.or settings.version
    symbolsDirectory := invocation.symbolsDirectory.or settings.symbolsDirectory }

/-- The settings of a run: those of the configuration file, if one is named, with
what the arguments say in their place. -/
def settings (invocation : Invocation) (files : FileView) : Except CommandFault Settings :=
  let loaded : Except CommandFault Settings :=
    match invocation.config with
    | none => .ok {}
    | some path => (Settings.ofFile files path).mapError (.configuration path)
  match loaded with
  | .error fault => .error fault
  | .ok loaded =>
    let settings := invocation.override loaded
    match invocation.versionOverride with
    | none => .ok settings
    | some raw =>
      match settings.versionOverride with
      | .ok _ => .ok settings
      | .error cause => .error (.versionOverride raw cause)

/-- The plan of a command for an analyzed log. -/
def planFor (invocation : Invocation) (analysis : Analysis) : Except CommandFault Plan :=
  let diagnostics := Report.failures analysis
  match invocation.command with
  | .summary top => .ok (.print ⟨Report.summary analysis top, diagnostics⟩)
  | .folded => .ok (.print ⟨analysis.profile.tree.foldedStacks, diagnostics⟩)
  | .deopts => .ok (.print ⟨Report.deopts analysis, diagnostics⟩)
  | .ics => .ok (.print ⟨Report.ics analysis, diagnostics⟩)
  | .exportProfile out =>
    let path := out.getD (Path.withExtension invocation.log "cpuprofile")
    match analysis.profile.cpuProfile with
    | .error fault => .error (.exportProfile fault)
    | .ok document => .ok (.write path document.text ⟨"wrote " ++ path ++ "\n", diagnostics⟩)

/-- The plan of a run. -/
def plan (invocation : Invocation) (files : FileView) : Except CommandFault Plan :=
  match invocation.settings files with
  | .error fault => .error fault
  | .ok settings =>
    match Analysis.ofFile files invocation.log settings false with
    | .error fault => .error (.analysis invocation.log fault)
    | .ok analysis => invocation.planFor analysis

end Invocation

/-- Run a command in a tree of files. -/
def run (arguments : List String) (tree : FileTree) : Outcome × FileTree :=
  match readArguments arguments with
  | .error stop => (Outcome.ofStop stop, tree)
  | .ok invocation =>
    match invocation.plan tree.view with
    | .error fault => (Outcome.ofFault fault, tree)
    | .ok (.print printed) => (Outcome.ofPrinted printed, tree)
    | .ok (.write path content printed) =>
      match tree.write path (Text.encodeUtf8 content) with
      | .error cause => (Outcome.ofFault (.write path cause), tree)
      | .ok tree => (Outcome.ofPrinted printed, tree)

end JitTrace.CommandLine
