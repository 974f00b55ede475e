import JitTrace.Version.Encoding

/-!
# The enumerations of the log

The five enumerations whose encodings depend on the engine's version, with
their encodings and the rankings that reports use. Bounds stand newest first,
and each list ends with the bound that admits every version.
-/

namespace JitTrace

/-- Why and how optimized code was abandoned. -/
inductive DeoptimizeKind where
  | eager
  | soft
  | lazy
  | eagerWithResume
deriving DecidableEq, Repr, Hashable, Inhabited

namespace DeoptimizeKind

/-- Every variant. -/
def variants : List DeoptimizeKind :=
  [.eager, .soft, .lazy, .eagerWithResume]

/-- The name that reports give a variant. -/
def name : DeoptimizeKind → String
  | .eager => "Eager"
  | .soft => "Soft"
  | .lazy => "Lazy"
  | .eagerWithResume => "EagerWithResume"

/-- The encodings in force over time. -/
def encodings : VersionedEnum DeoptimizeKind where
  name := "DeoptimizeKind"
  encodings :=
    [⟨.atLeast ⟨10, 1, 0⟩,
         [⟨0, "Eager", .eager⟩, ⟨1, "Lazy", .lazy⟩]⟩,
      ⟨.atLeast ⟨9, 6, 0⟩,
         [⟨0, "Eager", .eager⟩, ⟨1, "Soft", .soft⟩, ⟨2, "Lazy", .lazy⟩,
          ⟨3, "EagerWithResume", .eagerWithResume⟩]⟩,
      ⟨.atLeast ⟨8, 6, 79⟩,
         [⟨0, "Eager", .eager⟩, ⟨1, "Soft", .soft⟩, ⟨2, "Lazy", .lazy⟩]⟩,
      ⟨.any,
         [⟨0, "eager", .eager⟩, ⟨1, "soft", .soft⟩, ⟨2, "lazy", .lazy⟩]⟩]

/-- The rank among deopts; eager ones throw away the most work. -/
def severity : DeoptimizeKind → Nat
  | .lazy => 0
  | .soft => 1
  | .eagerWithResume => 2
  | .eager => 3

/-- Read a bailout type as `version` writes it. -/
def decode (raw : String) (version : Version) : Except Fault DeoptimizeKind :=
  encodings.decode raw version

end DeoptimizeKind

/-- Which part of the engine produced a piece of code. -/
inductive CodeKind where
  | bytecodeHandler
  | forTesting
  | builtin
  | regExp
  | wasmFunction
  | wasmToCapiFunction
  | wasmToJsFunction
  | jsToWasmFunction
  | jsToJsFunction
  | wasmInterpreterEntry
  | cWasmEntry
  | interpretedFunction
  | baseline
  | nativeContextIndependent
  | turboprop
  | maglev
  | turbofan
  | optimizedFunction
  | stub
deriving DecidableEq, Repr, Hashable, Inhabited

namespace CodeKind

/-- Every variant. -/
def variants : List CodeKind :=
  [.bytecodeHandler, .forTesting, .builtin, .regExp, .wasmFunction, .wasmToCapiFunction,
    .wasmToJsFunction, .jsToWasmFunction, .jsToJsFunction, .wasmInterpreterEntry,
    .cWasmEntry, .interpretedFunction, .baseline, .nativeContextIndependent, .turboprop,
    .maglev, .turbofan, .optimizedFunction, .stub]

/-- The name that reports give a variant. -/
def name : CodeKind → String
  | .bytecodeHandler => "BytecodeHandler"
  | .forTesting => "ForTesting"
  | .builtin => "Builtin"
  | .regExp => "RegExp"
  | .wasmFunction => "WasmFunction"
  | .wasmToCapiFunction => "WasmToCapiFunction"
  | .wasmToJsFunction => "WasmToJsFunction"
  | .jsToWasmFunction => "JsToWasmFunction"
  | .jsToJsFunction => "JsToJsFunction"
  | .wasmInterpreterEntry => "WasmInterpreterEntry"
  | .cWasmEntry => "CWasmEntry"
  | .interpretedFunction => "InterpretedFunction"
  | .baseline => "Baseline"
  | .nativeContextIndependent => "NativeContextIndependent"
  | .turboprop => "Turboprop"
  | .maglev => "Maglev"
  | .turbofan => "Turbofan"
  | .optimizedFunction => "OptimizedFunction"
  | .stub => "Stub"

/-- The encodings in force over time. -/
def encodings : VersionedEnum CodeKind where
  name := "CodeKind"
  encodings :=
    [⟨.atLeast ⟨11, 0, 0⟩,
         [⟨0, "BYTECODE_HANDLER", .bytecodeHandler⟩, ⟨1, "FOR_TESTING", .forTesting⟩,
          ⟨2, "BUILTIN", .builtin⟩, ⟨3, "REGEXP", .regExp⟩,
          ⟨4, "WASM_FUNCTION", .wasmFunction⟩,
          ⟨5, "WASM_TO_CAPI_FUNCTION", .wasmToCapiFunction⟩,
          ⟨6, "WASM_TO_JS_FUNCTION", .wasmToJsFunction⟩,
          ⟨7, "JS_TO_WASM_FUNCTION", .jsToWasmFunction⟩,
          ⟨8, "JS_TO_JS_FUNCTION", .jsToJsFunction⟩, ⟨9, "C_WASM_ENTRY", .cWasmEntry⟩,
          ⟨10, "INTERPRETED_FUNCTION", .interpretedFunction⟩, ⟨11, "BASELINE", .baseline⟩,
          ⟨12, "MAGLEV", .maglev⟩, ⟨13, "TURBOFAN", .turbofan⟩]⟩,
      ⟨.atLeast ⟨9, 2, 0⟩,
         [⟨0, "BYTECODE_HANDLER", .bytecodeHandler⟩, ⟨1, "FOR_TESTING", .forTesting⟩,
          ⟨2, "BUILTIN", .builtin⟩, ⟨3, "REGEXP", .regExp⟩,
          ⟨4, "WASM_FUNCTION", .wasmFunction⟩,
          ⟨5, "WASM_TO_CAPI_FUNCTION", .wasmToCapiFunction⟩,
          ⟨6, "WASM_TO_JS_FUNCTION", .wasmToJsFunction⟩,
          ⟨7, "JS_TO_WASM_FUNCTION", .jsToWasmFunction⟩,
          ⟨8, "JS_TO_JS_FUNCTION", .jsToJsFunction⟩, ⟨9, "C_WASM_ENTRY", .cWasmEntry⟩,
          ⟨10, "INTERPRETED_FUNCTION", .interpretedFunction⟩, ⟨11, "BASELINE", .baseline⟩,
          ⟨12, "TURBOPROP", .turboprop⟩, ⟨13, "TURBOFAN", .turbofan⟩]⟩,
      ⟨.atLeast ⟨8, 9, 0⟩,
         [⟨0, "BYTECODE_HANDLER", .bytecodeHandler⟩, ⟨1, "FOR_TESTING", .forTesting⟩,
          ⟨2, "BUILTIN", .builtin⟩, ⟨3, "REGEXP", .regExp⟩,
          ⟨4, "WASM_FUNCTION", .wasmFunction⟩,
          ⟨5, "WASM_TO_CAPI_FUNCTION", .wasmToCapiFunction⟩,
          ⟨6, "WASM_TO_JS_FUNCTION", .wasmToJsFunction⟩,
          ⟨7, "JS_TO_WASM_FUNCTION", .jsToWasmFunction⟩,
          ⟨8, "JS_TO_JS_FUNCTION", .jsToJsFunction⟩, ⟨9, "C_WASM_ENTRY", .cWasmEntry⟩,
          ⟨10, "INTERPRETED_FUNCTION", .interpretedFunction⟩,
          ⟨11, "NATIVE_CONTEXT_INDEPENDENT", .nativeContextIndependent⟩,
          ⟨12, "TURBOPROP", .turboprop⟩, ⟨13, "TURBOFAN", .turbofan⟩]⟩,
      ⟨.any,
         [⟨0, "OPTIMIZED_FUNCTION", .optimizedFunction⟩,
          ⟨1, "BYTECODE_HANDLER", .bytecodeHandler⟩, ⟨2, "STUB", .stub⟩,
          ⟨3, "BUILTIN", .builtin⟩, ⟨4, "REGEXP", .regExp⟩,
          ⟨5, "WASM_FUNCTION", .wasmFunction⟩,
          ⟨6, "WASM_TO_CAPI_FUNCTION", .wasmToCapiFunction⟩,
          ⟨7, "WASM_TO_JS_FUNCTION", .wasmToJsFunction⟩,
          ⟨8, "JS_TO_WASM_FUNCTION", .jsToWasmFunction⟩,
          ⟨9, "JS_TO_JS_FUNCTION", .jsToJsFunction⟩,
          ⟨10, "WASM_INTERPRETER_ENTRY", .wasmInterpreterEntry⟩,
          ⟨11, "C_WASM_ENTRY", .cWasmEntry⟩]⟩]

/-- Whether an optimizing tier produces this kind of code. -/
def isOptimized : CodeKind → Bool
  | .turbofan | .turboprop | .maglev | .nativeContextIndependent | .optimizedFunction => true
  | _ => false

/-- Read the kind column of a code record as `version` writes it. -/
def decode (raw : String) (version : Version) : Except Fault CodeKind :=
  encodings.decode raw version

end CodeKind

/-- How polymorphic an inline cache is. -/
inductive IcState where
  | noFeedback
  | uninitialized
  | premonomorphic
  | monomorphic
  | recomputeHandler
  | polymorphic
  | megadom
  | megamorphic
  | generic
deriving DecidableEq, Repr, Hashable, Inhabited

namespace IcState

/-- Every variant. -/
def variants : List IcState :=
  [.noFeedback, .uninitialized, .premonomorphic, .monomorphic, .recomputeHandler,
    .polymorphic, .megadom, .megamorphic, .generic]

/-- The name that reports give a variant. -/
def name : IcState → String
  | .noFeedback => "NoFeedback"
  | .uninitialized => "Uninitialized"
  | .premonomorphic => "Premonomorphic"
  | .monomorphic => "Monomorphic"
  | .recomputeHandler => "RecomputeHandler"
  | .polymorphic => "Polymorphic"
  | .megadom => "Megadom"
  | .megamorphic => "Megamorphic"
  | .generic => "Generic"

/-- The encodings in force over time. -/
def encodings : VersionedEnum IcState where
  name := "IcState"
  encodings :=
    [⟨.atLeast ⟨9, 4, 0⟩,
         [⟨0, "X", .noFeedback⟩, ⟨1, "0", .uninitialized⟩, ⟨2, "1", .monomorphic⟩,
          ⟨3, "^", .recomputeHandler⟩, ⟨4, "P", .polymorphic⟩, ⟨5, "D", .megadom⟩,
          ⟨6, "N", .megamorphic⟩, ⟨7, "G", .generic⟩]⟩,
      ⟨.atLeast ⟨7, 9, 0⟩,
         [⟨0, "X", .noFeedback⟩, ⟨1, "0", .uninitialized⟩, ⟨2, "1", .monomorphic⟩,
          ⟨3, "^", .recomputeHandler⟩, ⟨4, "P", .polymorphic⟩, ⟨5, "N", .megamorphic⟩,
          ⟨6, "G", .generic⟩]⟩,
      ⟨.any,
         [⟨0, "0", .uninitialized⟩, ⟨1, ".", .premonomorphic⟩, ⟨2, "1", .monomorphic⟩,
          ⟨3, "^", .recomputeHandler⟩, ⟨4, "P", .polymorphic⟩, ⟨5, "N", .megamorphic⟩,
          ⟨6, "G", .generic⟩]⟩]

/-- The rank among states, growing with the number of shapes seen. -/
def severity : IcState → Nat
  | .noFeedback | .uninitialized | .premonomorphic => 0
  | .monomorphic | .recomputeHandler => 1
  | .polymorphic => 2
  | .megadom => 3
  | .megamorphic => 4
  | .generic => 5

/-- Read a state marker as `version` writes it. The markers are single
characters, so a digit is a name here and not a number. -/
def decode (raw : String) (version : Version) : Except Fault IcState :=
  encodings.decodeName (Text.trimmed raw) version

end IcState

/-- What the engine was doing when a tick was taken. -/
inductive VmState where
  | js
  | gc
  | parser
  | bytecodeCompiler
  | compiler
  | other
  | external
  | atomicsWait
  | idle
  | logging
  | idleExternal
deriving DecidableEq, Repr, Hashable, Inhabited

namespace VmState

/-- Every variant. -/
def variants : List VmState :=
  [.js, .gc, .parser, .bytecodeCompiler, .compiler, .other, .external, .atomicsWait, .idle,
    .logging, .idleExternal]

/-- The name that reports give a variant. -/
def name : VmState → String
  | .js => "Js"
  | .gc => "Gc"
  | .parser => "Parser"
  | .bytecodeCompiler => "BytecodeCompiler"
  | .compiler => "Compiler"
  | .other => "Other"
  | .external => "External"
  | .atomicsWait => "AtomicsWait"
  | .idle => "Idle"
  | .logging => "Logging"
  | .idleExternal => "IdleExternal"

/-- The encodings in force over time. -/
def encodings : VersionedEnum VmState where
  name := "VmState"
  encodings :=
    [⟨.atLeast ⟨10, 9, 0⟩,
         [⟨0, "JS", .js⟩, ⟨1, "GC", .gc⟩, ⟨2, "PARSER", .parser⟩,
          ⟨3, "BYTECODE_COMPILER", .bytecodeCompiler⟩, ⟨4, "COMPILER", .compiler⟩,
          ⟨5, "OTHER", .other⟩, ⟨6, "EXTERNAL", .external⟩,
          ⟨7, "ATOMICS_WAIT", .atomicsWait⟩, ⟨8, "IDLE", .idle⟩, ⟨9, "LOGGING", .logging⟩,
          ⟨10, "IDLE_EXTERNAL", .idleExternal⟩]⟩,
      ⟨.atLeast ⟨8, 1, 0⟩,
         [⟨0, "JS", .js⟩, ⟨1, "GC", .gc⟩, ⟨2, "PARSER", .parser⟩,
          ⟨3, "BYTECODE_COMPILER", .bytecodeCompiler⟩, ⟨4, "COMPILER", .compiler⟩,
          ⟨5, "OTHER", .other⟩, ⟨6, "EXTERNAL", .external⟩,
          ⟨7, "ATOMICS_WAIT", .atomicsWait⟩, ⟨8, "IDLE", .idle⟩]⟩,
      ⟨.any,
         [⟨0, "JS", .js⟩, ⟨1, "GC", .gc⟩, ⟨2, "PARSER", .parser⟩,
          ⟨3, "BYTECODE_COMPILER", .bytecodeCompiler⟩, ⟨4, "COMPILER", .compiler⟩,
          ⟨5, "OTHER", .other⟩, ⟨6, "EXTERNAL", .external⟩, ⟨7, "IDLE", .idle⟩]⟩]

/-- Whether the engine had nothing to do. -/
def isIdle : VmState → Bool
  | .idle | .idleExternal => true
  | _ => false

/-- Read the state column of a tick as `version` writes it. -/
def decode (raw : String) (version : Version) : Except Fault VmState :=
  encodings.decode raw version

/-- The state with a number that has been read already. -/
def ofOrdinal (ordinal : Int) (version : Version) : Except Fault VmState :=
  encodings.decodeOrdinal ordinal version

end VmState

/-- The tier a function was running in, shown as a marker before its name. -/
inductive FunctionState where
  | compiled
  | interpreted
  | baseline
  | nativeContextIndependent
  | turboprop
  | maglev
  | turbofan
deriving DecidableEq, Repr, Hashable, Inhabited

namespace FunctionState

/-- Every variant. -/
def variants : List FunctionState :=
  [.compiled, .interpreted, .baseline, .nativeContextIndependent, .turboprop, .maglev,
    .turbofan]

/-- The name that reports give a variant. -/
def name : FunctionState → String
  | .compiled => "Compiled"
  | .interpreted => "Interpreted"
  | .baseline => "Baseline"
  | .nativeContextIndependent => "NativeContextIndependent"
  | .turboprop => "Turboprop"
  | .maglev => "Maglev"
  | .turbofan => "Turbofan"

/-- The encodings in force over time. -/
def encodings : VersionedEnum FunctionState where
  name := "FunctionState"
  encodings :=
    [⟨.atLeast ⟨11, 0, 0⟩,
         [⟨0, "", .compiled⟩, ⟨1, "~", .interpreted⟩, ⟨2, "^", .baseline⟩, ⟨3, "+", .maglev⟩,
          ⟨4, "*", .turbofan⟩]⟩,
      ⟨.atLeast ⟨9, 2, 0⟩,
         [⟨0, "", .compiled⟩, ⟨1, "~", .interpreted⟩, ⟨2, "^", .baseline⟩,
          ⟨3, "+", .turboprop⟩, ⟨4, "*", .turbofan⟩]⟩,
      ⟨.atLeast ⟨8, 9, 0⟩,
         [⟨0, "", .compiled⟩, ⟨1, "~", .interpreted⟩, ⟨2, "-", .nativeContextIndependent⟩,
          ⟨3, "+", .turboprop⟩, ⟨4, "*", .turbofan⟩]⟩,
      ⟨.any,
         [⟨0, "", .compiled⟩, ⟨1, "~", .interpreted⟩, ⟨2, "*", .turbofan⟩]⟩]

/-- The marker shown before a function's name. -/
def marker : FunctionState → String
  | .compiled => ""
  | .interpreted => "~"
  | .baseline => "^"
  | .nativeContextIndependent => "-"
  | .turboprop | .maglev => "+"
  | .turbofan => "*"

/-- Whether an optimizing tier produced the code. -/
def isOptimized : FunctionState → Bool
  | .turbofan | .turboprop | .maglev | .nativeContextIndependent => true
  | _ => false

/-- Read the marker column of a code record as `version` writes it. -/
def decode (raw : String) (version : Version) : Except Fault FunctionState :=
  encodings.decodeName (Text.trimmed raw) version

end FunctionState

end JitTrace
