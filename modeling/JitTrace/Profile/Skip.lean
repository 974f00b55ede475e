import JitTrace.Settings
import JitTrace.Text.Cut
import JitTrace.Text.Property

/-!
# Skipped frames

Which frames a skip filter drops, judged by their labels. Every category has a
test of its own, and a label is dropped when a selected test accepts it.
-/

namespace JitTrace.Skip

/-- Whether `part` occurs in a text. -/
def mentions (label : List Char) (part : String) : Bool :=
  Text.occursIn part.toList label

/-- Whether a text starts with `front`. -/
def startsWith (label : List Char) (front : String) : Bool :=
  front.toList.isPrefixOf label

/-- Inline cache handlers and builtins. Any handler counts, that of a bytecode
too. -/
def isInlineCache (label : List Char) : Bool :=
  startsWith label "LoadGlobalIC: " || mentions label "Handler: " || mentions label "CallIC" ||
    mentions label "LoadIC" || mentions label "StoreIC"

/-- Bytecode handlers. -/
def isBytecode (label : List Char) : Bool :=
  startsWith label "BytecodeHandler: "

/-- Builtins. -/
def isBuiltin (label : List Char) : Bool :=
  startsWith label "Builtin: "

/-- Code stubs. -/
def isStub (label : List Char) : Bool :=
  startsWith label "Stub: "

/-- Whether a reversed text starts with a reversed library extension, after any
number of reversed version parts such as `.6`. -/
def endsLikeLibrary : Nat → List Char → Bool
  | 0, _ => false
  | fuel + 1, reversed =>
    if startsWith reversed "lld." || startsWith reversed "os." || startsWith reversed "bilyd." then
      true
    else
      match reversed.span Text.isDecimalDigit with
      | (_ :: _, '.' :: rest) => endsLikeLibrary fuel rest
      | _ => false

/-- Native libraries, told by the ending of their path. -/
def isNativeLibrary (label : List Char) : Bool :=
  endsLikeLibrary (label.length + 1) label.reverse

/-- Whether a filter drops frames with a label. -/
def skips (filter : SkipFilter) (label : String) : Bool :=
  let cs := label.toList
  (filter.inlineCaches && isInlineCache cs) || (filter.bytecodes && isBytecode cs) ||
    (filter.builtins && isBuiltin cs) || (filter.stubs && isStub cs) ||
    (filter.nativeLibraries && isNativeLibrary cs)

/-- The builtins that call a function on someone's behalf. Where one of them is
running, its real caller cannot be known. -/
def isApplyBuiltin (label : String) : Bool :=
  label == "Builtin: FunctionPrototypeApply" || label == "Builtin: FunctionPrototypeCall" ||
    label == "Builtin: ReflectApply"

end JitTrace.Skip
