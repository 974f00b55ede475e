import JitTrace.Number.Digits
import JitTrace.Record.Value
import JitTrace.Text.Quoted
import JitTrace.Text.Utf8
import JitTrace.Version.Basic

/-!
# Faults

Every way in which reading or querying a log can fail. A fault is a cause; its
wording is produced in one place, `Fault.message`.
-/

namespace JitTrace

/-- A field that could not be converted to what its record expects. -/
inductive ParseFault where
  | integer (raw : String)
  | address (raw : String)
  | unexpectedAfterQuote (rest : String)
  | unterminatedQuote
  | truncatedEscape (digits : String)
  | hexEscape (digits : String)
  | codePoint (code : Nat)
  | unknownEscape (c : Char)
  | danglingBackslash
  | version (raw : String)
  /-- A number inside a compact position list. -/
  | positionNumber (what raw : String)
  /-- A position list without a single well-formed group. -/
  | malformedPositions (what raw : String)
  | sourcePosition (raw : String)
  | missingField (command : String) (available : Nat)
  | negativeVersionPart
  | negative (what : String) (value : Int64)
  | scriptId (value : Int64)
  | undecodable (cause : Text.Utf8Fault)
  | failedLines (count firstLine : Nat) (firstMessage : String)
  /-- A fault of a caller's own field reader or script source. -/
  | custom (message : String)

/-- The wording of a parse fault. -/
def ParseFault.message : ParseFault → String
  | .integer raw => s!"invalid integer '{raw}'"
  | .address raw => s!"invalid address '{raw}'"
  | .unexpectedAfterQuote rest =>
    "unexpected characters after quoted field: " ++ Text.quoted rest
  | .unterminatedQuote => "unterminated quoted field"
  | .truncatedEscape digits => s!"truncated escape '{digits}'"
  | .hexEscape digits => s!"invalid hex escape '{digits}'"
  | .codePoint code =>
    "invalid code point 0x" ++ String.ofList (Text.hexDigits code)
  | .unknownEscape c => "unknown escape sequence '\\" ++ c.toString ++ "'"
  | .danglingBackslash => "dangling backslash at end of field"
  | .version raw => s!"invalid version '{raw}'"
  | .positionNumber what raw => s!"invalid {what} '{raw}'"
  | .malformedPositions what raw => s!"malformed {what} '{raw}'"
  | .sourcePosition raw => s!"invalid source position '{raw}'"
  | .missingField command available =>
    s!"'{command}' expects more fields, got {available}"
  | .negativeVersionPart => "negative version component"
  | .negative what value => "negative " ++ what ++ " " ++ toString value.toInt
  | .scriptId value => "invalid script id " ++ toString value.toInt
  | .undecodable cause => "invalid UTF-8: " ++ cause.message
  | .failedLines count firstLine firstMessage =>
    s!"{count} line(s) failed, first at line {firstLine}: {firstMessage}"
  | .custom message => message

/-- What a finalized profile refuses to do. -/
inductive ProfileOperation where
  | addLibrary
  | addStaticCode
  | addCode
  | addFunctionCode
  | moveCode
  | deleteCode
  | moveFunction
  | addSourcePositions
  | addScript
  | addDeopt
  | disableOptimization
  | recordTick
deriving DecidableEq, Repr

/-- The name of an operation, as the end of "cannot …". -/
def ProfileOperation.text : ProfileOperation → String
  | .addLibrary => "add a library"
  | .addStaticCode => "add static code"
  | .addCode => "add code"
  | .addFunctionCode => "add function code"
  | .moveCode => "move code"
  | .deleteCode => "delete code"
  | .moveFunction => "move a function"
  | .addSourcePositions => "add source positions"
  | .addScript => "add a script"
  | .addDeopt => "add a deopt"
  | .disableOptimization => "disable optimization"
  | .recordTick => "record a tick"

/-- An operation in the wrong phase of a profile's life. -/
inductive StateFault where
  | finalized (operation : ProfileOperation)
  | notFinalized
deriving DecidableEq, Repr

/-- The wording of a phase fault. -/
def StateFault.message : StateFault → String
  | .finalized operation =>
    "cannot " ++ operation.text ++ " after the profile has been finalized"
  | .notFinalized => "a profile must be finalized before it is exported"

/-- The kinds of value that a handler can ask a record for. -/
inductive ExpectedValue where
  | int
  | address
  | text
  | list
  | textList
  | cancellation
deriving DecidableEq, Repr

/-- The name of a kind of value, with its article. -/
def ExpectedValue.description : ExpectedValue → String
  | .int => "an integer"
  | .address => "an address"
  | .text => "a string"
  | .list => "a list"
  | .textList => "a list of strings"
  | .cancellation => "a cancellation token"

/-- A mistake in a record table, a version bound or the settings. -/
inductive ConfigurationFault where
  | unsupportedBound (raw : String)
  | missingTable (enumeration : String) (version : Version)
  | restNotLast (record : String) (position : Nat)
  | restNotScalar (record : String)
  | optionalNotScalar (record : String)
  | requiredAfterOptional (record : String) (position : Nat)
  | fieldMismatch (position : Nat) (command : String) (expected : ExpectedValue)
      (found : Option FieldValue)
  | samplingRate (rate : String)
  /-- A fault of a caller's own handler. -/
  | custom (message : String)

/-- The wording of a configuration fault. -/
def ConfigurationFault.message : ConfigurationFault → String
  | .unsupportedBound raw =>
    s!"unsupported version bound '{raw}', expected '>=X.Y.Z' or '*'"
  | .missingTable enumeration version =>
    enumeration ++ " has no table for V8 " ++ version.text ++ " (missing '*' entry)"
  | .restNotLast record position =>
    s!"'{record}': rest field at position {position} must be last"
  | .restNotScalar record => s!"'{record}': rest field must wrap a scalar parser"
  | .optionalNotScalar record => s!"'{record}': optional field must wrap a scalar parser"
  | .requiredAfterOptional record position =>
    s!"'{record}': required field at position {position} follows an optional field"
  | .fieldMismatch position command expected found =>
    s!"field {position} of '{command}' is not " ++ expected.description ++
      " (found " ++ FieldValue.writtenOption found ++ ")"
  | .samplingRate rate => "sampling_rate must be positive, got " ++ rate
  | .custom message => message

/-- Why a file could not be read or written. -/
inductive IoFault where
  | notFound
  | notDirectory
  | isDirectory
  | permissionDenied
  | nameTooLong
  | nulInName
  | notText
deriving DecidableEq, Repr

/-- The wording of a file fault. -/
def IoFault.message : IoFault → String
  | .notFound => "No such file or directory (os error 2)"
  | .notDirectory => "Not a directory (os error 20)"
  | .isDirectory => "Is a directory (os error 21)"
  | .permissionDenied => "Permission denied (os error 13)"
  | .nameTooLong => "File name too long (os error 36)"
  | .nulInName => "file name contained an unexpected NUL byte"
  | .notText => "stream did not contain valid UTF-8"

/-- A failed operation. -/
inductive Fault where
  | parse (cause : ParseFault)
  | codeNotFound (address : UInt64)
  | illegalState (cause : StateFault)
  | configuration (cause : ConfigurationFault)
  | unknownEnumValue (enumeration value : String) (version : Version)
  | cancelled
  | io (cause : IoFault)
  /-- A document that is not of the expected JSON form. -/
  | json

/-- The wording of a fault. -/
def Fault.message : Fault → String
  | .parse cause => "ParseError: " ++ cause.message
  | .codeNotFound address =>
    "CodeNotFound: no dynamic code entry at " ++ Number.hexText address
  | .illegalState cause => "IllegalState: " ++ cause.message
  | .configuration cause => "ConfigurationError: " ++ cause.message
  | .unknownEnumValue enumeration value version =>
    "UnknownEnumValue: " ++ Text.quoted value ++ " is not a valid " ++ enumeration ++
      " for V8 " ++ version.text
  | .cancelled => "Cancelled: log processing was cancelled"
  | .io cause => "IOError: " ++ cause.message
  | .json => "JsonError: malformed document"

/-- Whether a fault ends a whole read instead of one line. -/
def Fault.isCancellation : Fault → Bool
  | .cancelled => true
  | _ => false

end JitTrace
