import JitTrace.Source.Position
import JitTrace.Text.Cut
import JitTrace.Version.Enumerations

/-!
# Code entries

A code entry is a unit of code that a sample can be attributed to: generated
code, a native library or one of its symbols, a function behind several pieces
of generated code, or one of the engine's own pseudo functions.
-/

namespace JitTrace

/-- Names an entry for good; ids are never reused. -/
structure CodeId where
  index : Nat
deriving DecidableEq, Repr, Hashable, Inhabited

/-- The shapes that an entry can have. -/
inductive CodeFlavor where
  /-- Code that is never moved or deleted. -/
  | plain
  /-- Generated code of no known function. -/
  | dynamic
  /-- Generated code of a known function, in one of its tiers. -/
  | compiled (function : CodeId) (state : FunctionState)
  /-- The function behind any number of compiled pieces. -/
  | sharedFunction
deriving DecidableEq, Repr, Inhabited

/-- A unit of code. -/
structure CodeEntry where
  size : UInt64
  name : String
  /-- The tag that the log gives the code, such as `JS` or `Builtin`. -/
  codeType : String
  flavor : CodeFlavor
  kind : Option CodeKind := none
  timestamp : Option UInt64 := none
  source : Option SourceInfo := none
  deoptReasons : List String := []
  /-- Why the engine gave up optimizing the function, if it did. -/
  optimizationDisabled : Option String := none
  /-- Whether a distinguishing number has been considered for the name. -/
  numbered : Bool := false
deriving Repr, Inhabited

namespace CodeEntry

/-- The tag of native code inside a library. -/
def nativeType : String := "CPP"

/-- The tag of a whole library. -/
def libraryType : String := "SHARED_LIB"

/-- The tag of pseudo functions. -/
def virtualMachineType : String := "VM"

/-- The tag of shared functions. -/
def sharedFunctionType : String := "SharedFunctionInfo"

/-- Library or static code. -/
def plain (size : UInt64) (name codeType : String) : CodeEntry :=
  { size, name, codeType, flavor := .plain }

/-- Generated code of no known function. -/
def dynamic (size : UInt64) (name codeType : String) : CodeEntry :=
  { size, name, codeType, flavor := .dynamic }

/-- Generated code of a known function; its name is the function's. -/
def compiled (size : UInt64) (codeType : String) (function : CodeId) (state : FunctionState) :
    CodeEntry :=
  { size, name := "", codeType, flavor := .compiled function state }

/-- A shared function. It occupies no address range. -/
def sharedFunction (name : String) : CodeEntry :=
  { size := 0, name, codeType := sharedFunctionType, flavor := .sharedFunction }

/-- A pseudo function of the engine, such as `(program)`. -/
def pseudo (name : String) : CodeEntry :=
  { size := 0, name, codeType := virtualMachineType, flavor := .plain }

/-- Whether the entry is generated code of a known function. -/
def isCompiledFunction (entry : CodeEntry) : Bool :=
  match entry.flavor with
  | .compiled .. => true
  | _ => false

/-- Whether the entry is a shared function. -/
def isSharedFunction (entry : CodeEntry) : Bool :=
  entry.flavor == .sharedFunction

/-- Whether the entry was registered as generated code. -/
def isDynamic (entry : CodeEntry) : Bool :=
  match entry.flavor with
  | .plain => false
  | _ => true

/-- Whether the entry is a library or native code inside one. -/
def isNative (entry : CodeEntry) : Bool :=
  entry.codeType == nativeType || entry.codeType == libraryType

/-- The function that generated code was compiled from. -/
def function? (entry : CodeEntry) : Option CodeId :=
  match entry.flavor with
  | .compiled function _ => some function
  | _ => none

/-- The tier of generated code of a known function. -/
def state? (entry : CodeEntry) : Option FunctionState :=
  match entry.flavor with
  | .compiled _ state => some state
  | _ => none

/-- A function's name as shown to users. The engine writes an anonymous function
as an empty name, or as a blank followed by its location. -/
def functionName (entry : CodeEntry) : String :=
  match entry.name.toList with
  | [] => "<anonymous>"
  | ' ' :: _ => "<anonymous>" ++ entry.name
  | _ => entry.name

/-- A function's name without the location behind it. -/
def bareName (entry : CodeEntry) : String :=
  match Text.cutFirst (· == ' ') entry.name.toList with
  | some (bare, _) => String.ofList bare
  | none => entry.name

end CodeEntry

/-- What two entries are compared by to decide whether they are one function. -/
inductive EntryIdentity where
  | script (scriptId : UInt32) (start : UInt64)
  | named (name codeType : String)
deriving DecidableEq, Repr

/-- The identity of an entry: its place in a script where that is known. -/
def CodeEntry.identity (entry : CodeEntry) : EntryIdentity :=
  match entry.source with
  | some source => .script source.scriptId source.start
  | none => .named entry.name entry.codeType

end JitTrace
