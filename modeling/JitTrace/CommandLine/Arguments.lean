import JitTrace.Number.Digits
import JitTrace.Text.Cut

/-!
# Command line arguments

A command with its log and options. Options that concern every command may stand
before the command or behind it; one given on both sides counts as given behind
it. On either side an option is given once at most, the verbosity excepted.
-/

namespace JitTrace.CommandLine

/-- What can be done with a log. -/
inductive CommandName where
  | summary
  | exportProfile
  | folded
  | deopts
  | ics
  /-- Explain a command, or all of them. -/
  | help
deriving DecidableEq, Repr

/-- The commands by the words they are called by. -/
def CommandName.ofWord? : String → Option CommandName
  | "summary" => some .summary
  | "export" => some .exportProfile
  | "folded" => some .folded
  | "deopts" => some .deopts
  | "ics" => some .ics
  | "help" => some .help
  | _ => none

/-- The options. -/
inductive Switch where
  | config
  | separateInlineCaches
  | separateBytecodes
  | separateBuiltins
  | separateStubs
  | timedRange
  | pairwiseTimedRange
  | symbolsDirectory
  | versionOverride
  | verbose
  | help
  | version
  /-- The number of rows of a summary. -/
  | top
  /-- Where an exported profile is written. -/
  | out
deriving DecidableEq, Repr

/-- The kinds of value that options take. -/
inductive SwitchValue where
  /-- No value. -/
  | nothing
  | truth
  | path
  | count
  | text
deriving DecidableEq, Repr

namespace Switch

/-- The word of an option, behind two dashes. -/
def word : Switch → String
  | config => "config"
  | separateInlineCaches => "separate-ic"
  | separateBytecodes => "separate-bytecodes"
  | separateBuiltins => "separate-builtins"
  | separateStubs => "separate-stubs"
  | timedRange => "timed-range"
  | pairwiseTimedRange => "pairwise-timed-range"
  | symbolsDirectory => "symbols-dir"
  | versionOverride => "version-override"
  | verbose => "verbose"
  | help => "help"
  | version => "version"
  | top => "top"
  | out => "out"

/-- The letter of an option, behind one dash. -/
def letter? : Switch → Option Char
  | config => some 'c'
  | verbose => some 'v'
  | help => some 'h'
  | version => some 'V'
  | top => some 'n'
  | out => some 'o'
  | _ => none

/-- The value that an option takes. -/
def value : Switch → SwitchValue
  | config | symbolsDirectory | out => .path
  | separateInlineCaches | separateBytecodes | separateBuiltins | separateStubs => .truth
  | timedRange | pairwiseTimedRange | verbose | help | version => .nothing
  | versionOverride => .text
  | top => .count

/-- The options that may stand before a command as well as behind it. -/
def shared : List Switch :=
  [config, separateInlineCaches, separateBytecodes, separateBuiltins, separateStubs, timedRange,
    pairwiseTimedRange, symbolsDirectory, versionOverride, verbose, help]

/-- The options that may stand behind a command, or, without one, before it. -/
def allowed : Option CommandName → List Switch
  | none => version :: shared
  | some .summary => top :: shared
  | some .exportProfile => out :: shared
  | some .help => []
  | some _ => shared

/-- Whether an option may be given more than once on one side of the command. -/
def repeats (switch : Switch) : Bool :=
  switch == verbose

end Switch

/-- The number that a count stands for. -/
def readCount? (value : String) : Option Nat :=
  Number.unsigned? 10 UInt64.size value.toList

/-- Whether an option can have a value. -/
def SwitchValue.admits : SwitchValue → String → Bool
  | .nothing, _ => true
  | .truth, value => value == "true" || value == "false"
  | .path, value => !value.isEmpty
  | .count, value => (readCount? value).isSome
  | .text, _ => true

/-- Why arguments call for no work. -/
inductive Stop where
  /-- The arguments make no sense. -/
  | usage
  | help
  | version
deriving DecidableEq, Repr

/-- The options on one side of the command, with their values. -/
abbrev Given := List (Switch × String)

/-- The arguments read so far. -/
structure ArgumentState where
  command : Option CommandName := none
  /-- The options before the command. -/
  outer : Given := []
  /-- The options behind it. -/
  inner : Given := []
  /-- The log, or what to explain. -/
  log : Option String := none
  /-- An option whose value comes next. -/
  pending : Option Switch := none
  /-- Whether dashes have lost their meaning. -/
  operandsOnly : Bool := false

namespace ArgumentState

/-- The options on the side of the command that is being read. -/
def given (state : ArgumentState) : Given :=
  if state.command.isSome then state.inner else state.outer

/-- Give an option a value. -/
def give (state : ArgumentState) (switch : Switch) (value : String) :
    Except Stop ArgumentState :=
  if switch == .help then throw .help
  else if switch == .version then throw .version
  else if !switch.value.admits value then throw .usage
  else if !switch.repeats && state.given.any (·.1 == switch) then throw .usage
  else if state.command.isSome then return { state with inner := (switch, value) :: state.inner }
  else return { state with outer := (switch, value) :: state.outer }

/-- Read an option given by its word, with the value that is attached to it. -/
def readWord (state : ArgumentState) (argument : List Char) : Except Stop ArgumentState :=
  let (word, attached) :=
    match Text.cutFirst (· == '=') argument with
    | some (word, value) => (word, some (String.ofList value))
    | none => (argument, none)
  match (Switch.allowed state.command).find? fun switch => switch.word.toList == word with
  | none => throw .usage
  | some switch =>
    match decide (switch.value = .nothing), attached with
    | true, none => state.give switch ""
    | true, some _ => throw .usage
    | false, some value => state.give switch value
    | false, none => return { state with pending := some switch }

/-- Read options given by their letters. What follows the letter of an option with
a value is that value. -/
def readLetters (state : ArgumentState) : List Char → Except Stop ArgumentState
  | [] => return state
  | letter :: rest =>
    match (Switch.allowed state.command).find? fun switch => switch.letter? == some letter with
    | none => throw .usage
    | some switch =>
      if switch.value = .nothing then do
        let state ← state.give switch ""
        state.readLetters rest
      else
        match rest with
        | [] => return { state with pending := some switch }
        | '=' :: value => state.give switch (String.ofList value)
        | value => state.give switch (String.ofList value)

/-- Read an argument that is no option: the command's log. -/
def readOperand (state : ArgumentState) (argument : String) : Except Stop ArgumentState :=
  if state.command.isNone || state.log.isSome || argument.isEmpty then throw .usage
  else return { state with log := some argument }

/-- Read an argument that gives no option. -/
def readWithoutDash (state : ArgumentState) (argument : String) : Except Stop ArgumentState :=
  match state.command, CommandName.ofWord? argument with
  | none, some command => return { state with command := some command }
  | _, _ => state.readOperand argument

/-- Read what to explain: one command at most. Here dashes mean nothing. -/
def readTopic (state : ArgumentState) (argument : String) : Except Stop ArgumentState :=
  if state.log.isNone && (CommandName.ofWord? argument).isSome then
    return { state with log := some argument }
  else throw .usage

/-- Read the next argument of a command, or one before it. -/
def readNext (state : ArgumentState) (argument : String) : Except Stop ArgumentState :=
  match state.operandsOnly, state.pending, argument.toList with
  | true, some _, _ => throw .usage
  | true, none, _ => state.readOperand argument
  | false, _, ['-', '-'] => return { state with operandsOnly := true }
  | false, some _, '-' :: _ :: _ => throw .usage
  | false, none, '-' :: '-' :: option => state.readWord option
  | false, none, '-' :: letter :: letters => state.readLetters (letter :: letters)
  | false, some switch, _ => { state with pending := none }.give switch argument
  | false, none, _ => state.readWithoutDash argument

/-- Read the next argument. -/
def step (state : ArgumentState) (argument : String) : Except Stop ArgumentState :=
  if state.command = some .help then state.readTopic argument else state.readNext argument

/-- The value of an option: the one behind the command, or else the one before. -/
def value? (state : ArgumentState) (switch : Switch) : Option String :=
  (state.inner.lookup switch).or (state.outer.lookup switch)

end ArgumentState

/-- What to do with a log. -/
inductive Command where
  /-- Print the counters and the `top` most expensive functions. -/
  | summary (top : Nat)
  /-- Write a CPU profile document. -/
  | exportProfile (out : Option String)
  | folded
  | deopts
  | ics
deriving DecidableEq, Repr

/-- The rows of a summary that does not say how many. -/
def standardTop : Nat := 20

/-- The arguments of a run. -/
structure Invocation where
  command : Command
  log : String
  config : Option String
  separateInlineCaches : Option Bool
  separateBytecodes : Option Bool
  separateBuiltins : Option Bool
  separateStubs : Option Bool
  timedRange : Bool
  pairwiseTimedRange : Bool
  symbolsDirectory : Option String
  versionOverride : Option String
deriving Repr

/-- What to do, once every argument has been read. -/
def ArgumentState.commandFor (state : ArgumentState) : CommandName → Except Stop Command
  | .summary => return .summary (((state.value? .top).bind readCount?).getD standardTop)
  | .exportProfile => return .exportProfile (state.value? .out)
  | .folded => return .folded
  | .deopts => return .deopts
  | .ics => return .ics
  | .help => throw .help

/-- Conclude reading the arguments. -/
def ArgumentState.finish (state : ArgumentState) : Except Stop Invocation := do
  let some name := state.command | throw .usage
  if state.pending.isSome then throw .usage
  let command ← state.commandFor name
  let some log := state.log | throw .usage
  let truth? (switch : Switch) := (state.value? switch).map (· == "true")
  return {
    command
    log
    config := state.value? .config
    separateInlineCaches := truth? .separateInlineCaches
    separateBytecodes := truth? .separateBytecodes
    separateBuiltins := truth? .separateBuiltins
    separateStubs := truth? .separateStubs
    timedRange := (state.value? .timedRange).isSome
    pairwiseTimedRange := (state.value? .pairwiseTimedRange).isSome
    symbolsDirectory := state.value? .symbolsDirectory
    versionOverride := state.value? .versionOverride }

/-- Read arguments. -/
def readArguments (arguments : List String) : Except Stop Invocation := do
  let state ← arguments.foldlM ArgumentState.step {}
  state.finish

end JitTrace.CommandLine
