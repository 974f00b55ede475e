import JitTrace.Version.Bound

/-!
# Encodings that depend on the version

The engine has renumbered and renamed the enumerations in its log many times. A
`VersionedEnum` lists the encodings of one enumeration, each with the bound from
which on it is in force; the first bound that admits a version decides.
-/

namespace JitTrace

/-- How one value is written in one encoding. -/
structure EncodedValue (Value : Type) where
  ordinal : Int
  name : String
  value : Value

/-- The encoding that is in force where `bound` admits the version. -/
structure Encoding (Value : Type) where
  bound : VersionBound
  values : List (EncodedValue Value)

/-- All encodings of one enumeration, the most specific bound first. -/
structure VersionedEnum (Value : Type) where
  name : String
  encodings : List (Encoding Value)

namespace VersionedEnum

variable {Value : Type}

/-- The encoding in force for a version. -/
def encodingFor (enumeration : VersionedEnum Value) (version : Version) :
    Except Fault (Encoding Value) :=
  match enumeration.encodings.find? fun encoding => encoding.bound.admits version with
  | some encoding => .ok encoding
  | none => .error (.configuration (.missingTable enumeration.name version))

/-- The value that a field satisfying `isMeant` stands for; `shown` is how the
field appears in the fault. -/
def decodeWith (enumeration : VersionedEnum Value) (version : Version) (shown : String)
    (isMeant : EncodedValue Value → Bool) : Except Fault Value :=
  match enumeration.encodingFor version with
  | .error fault => .error fault
  | .ok encoding =>
    match encoding.values.find? isMeant with
    | some encoded => .ok encoded.value
    | none => .error (.unknownEnumValue enumeration.name shown version)

/-- The value with a given number. -/
def decodeOrdinal (enumeration : VersionedEnum Value) (ordinal : Int) (version : Version) :
    Except Fault Value :=
  enumeration.decodeWith version (toString ordinal) fun encoded => encoded.ordinal == ordinal

/-- The value with a given printed name. -/
def decodeName (enumeration : VersionedEnum Value) (name : String) (version : Version) :
    Except Fault Value :=
  enumeration.decodeWith version name fun encoded => encoded.name == name

/-- The value of a field that may hold either: integers are numbers, anything
else is a name. -/
def decode (enumeration : VersionedEnum Value) (raw : String) (version : Version) :
    Except Fault Value :=
  match Number.signed? 10 0x8000000000000000 (Text.trim raw.toList) with
  | some ordinal => enumeration.decodeOrdinal ordinal version
  | none => enumeration.decodeName raw version

/-- How a version writes a value. -/
def encode [BEq Value] (enumeration : VersionedEnum Value) (value : Value)
    (version : Version) : Except Fault (EncodedValue Value) :=
  match enumeration.encodingFor version with
  | .error fault => .error fault
  | .ok encoding =>
    match encoding.values.find? fun encoded => encoded.value == value with
    | some encoded => .ok encoded
    | none =>
      .error (.unknownEnumValue enumeration.name
        ("<no encoding in " ++ encoding.bound.text ++ ">") version)

/-- The printed name of a value in a version. -/
def nameOf [BEq Value] (enumeration : VersionedEnum Value) (value : Value)
    (version : Version) : Except Fault String :=
  (enumeration.encode value version).map (·.name)

/-- The number of a value in a version. -/
def ordinalOf [BEq Value] (enumeration : VersionedEnum Value) (value : Value)
    (version : Version) : Except Fault Int :=
  (enumeration.encode value version).map (·.ordinal)

end VersionedEnum

end JitTrace
