import JitTrace.Text.Utf8
import JitTrace.Trace.Analyzer

/-!
# Analyzing files

Logs, settings, scripts and symbol listings as files. Their paths are texts whose names are
divided by slashes; a path that starts with a slash is absolute, every other one relative to
some directory. Everything reads through a view of the file system, so that an analysis is a
function of what it sees.
-/

/-! ## Paths -/

namespace JitTrace.Path

/-- The names of a path, without the empty ones between adjacent slashes. -/
def names (path : String) : List String :=
  ((path.toList.splitOn '/').filter fun name => !name.isEmpty).map String.ofList

/-- Whether a path starts at the root of the file system. -/
def isAbsolute (path : String) : Bool :=
  path.toList.head? == some '/'

/-- The name that a path ends in. A path without names, or one that ends in its
parent directory, ends in none. -/
def fileName? (path : String) : Option String :=
  match ((names path).filter (· != ".")).getLast? with
  | some ".." => none
  | last => last

/-- The parts of a path up to and behind its last slash. -/
def splitLast (path : String) : List Char × List Char :=
  let reversed := path.toList.reverse
  ((reversed.dropWhile (· != '/')).reverse, (reversed.takeWhile (· != '/')).reverse)

/-- A reversed path without the slashes and dots at its end that lead nowhere
else. The slash of the root stays, and so does a dot that is the whole path. -/
def dropIdle : List Char → List Char
  | ['/'] => ['/']
  | '/' :: rest => dropIdle rest
  | '.' :: '/' :: rest => dropIdle ('/' :: rest)
  | reversed => reversed

/-- The directory that a file's path names before the file itself; empty for the
current one. -/
def directory (path : String) : String :=
  String.ofList (dropIdle (splitLast path).1.reverse).reverse

/-- A path relative to a directory. An absolute path stays as it is. -/
def join (directory path : String) : String :=
  if isAbsolute path || directory.isEmpty then path
  else if directory.toList.getLast? == some '/' then directory ++ path
  else directory ++ "/" ++ path

/-- A name without its extension: what follows the last dot, unless that dot is
the first character. -/
def stem (name : List Char) : List Char :=
  match name.reverse.dropWhile (· != '.') with
  | [] | ['.'] => name
  | _ :: front => front.reverse

/-- A file's path with its extension replaced. A name such as `..x` without its
extension would lead to the parent directory, which has none: then the path is
left at that directory. -/
def withExtension (path extension : String) : String :=
  let (front, name) := splitLast path
  if stem name == ['.'] then String.ofList front ++ ".."
  else String.ofList (front ++ stem name) ++ "." ++ extension

end JitTrace.Path

/-! ## Views -/

namespace JitTrace

/-- What reading a file gives, by path. -/
structure FileView where
  read : String → Except IoFault (List UInt8)

namespace FileView

/-- The view in which there is no file. -/
def empty : FileView where
  read := fun _ => .error .notFound

/-- Read a file that holds text. -/
def readText (files : FileView) (path : String) : Except IoFault String :=
  match files.read path with
  | .error fault => .error fault
  | .ok bytes =>
    match Text.decodeUtf8 bytes with
    | .ok text => .ok text
    | .error _ => .error .notText

/-- Read a file that holds text, if there is such a file. -/
def readTextIfPresent (files : FileView) (path : String) : Except Fault (Option String) :=
  match files.readText path with
  | .ok text => .ok (some text)
  | .error .notFound => .ok none
  | .error fault => .error (.io fault)

end FileView

/-- The path of the script behind a url, when scripts are looked up relative to a
directory. Scripts without a url and the engine's own have none. -/
def scriptPath? (directory url : String) : Option String :=
  if url.isEmpty || "node:".toList.isPrefixOf url.toList then none
  else
    let path :=
      match Text.dropFront? "file://".toList url.toList with
      | some path => String.ofList path
      | none => url
    some (Path.join directory path)

/-- The provider of scripts that are files. -/
def ScriptProvider.ofFiles (files : FileView) (directory : String) : ScriptProvider := fun url =>
  match scriptPath? directory url with
  | .none => .ok .none
  | some path => files.readTextIfPresent path

/-- The path of the symbol listing of a library. -/
def listingPath? (directory library : String) : Option String :=
  (Path.fileName? library).map fun name => Path.join directory (name ++ ".nm")

/-- The provider of symbols from listings in a directory. -/
def SymbolProvider.ofFiles (files : FileView) (directory : String) : SymbolProvider :=
  fun library =>
    match listingPath? directory library with
    | .none => .ok []
    | some path =>
      (files.readTextIfPresent path).map fun text => LibrarySymbol.readListing (text.getD "")

/-- The provider of symbols that the settings ask for. -/
def Settings.symbolProvider (settings : Settings) (files : FileView) : SymbolProvider :=
  match settings.symbolsDirectory with
  | none => SymbolProvider.none
  | some directory => SymbolProvider.ofFiles files directory

/-- Read settings from a file. -/
def Settings.ofFile (files : FileView) (path : String) : Except Fault Settings :=
  match files.readText path with
  | .error fault => .error (.io fault)
  | .ok text => Settings.ofText text

/-- Analyze a log file. Scripts that are not in the log are looked up relative to
the log's directory. -/
def Analysis.ofFile (files : FileView) (path : String) (settings : Settings)
    (cancelled : Bool) : Except Fault Analysis :=
  match files.read path with
  | .error fault => .error (.io fault)
  | .ok bytes =>
    let providers : Providers :=
      { scripts := ScriptProvider.ofFiles files (Path.directory path)
        symbols := settings.symbolProvider files }
    Analysis.ofBytes bytes settings providers cancelled

/-- The paths that an analysis of a log may ask for besides the log: the scripts
and the libraries that it mentions. -/
def mentionedPaths (bytes : List UInt8) (path : String) (settings : Settings) : List String :=
  (LogReader.byteLines bytes).flatMap fun raw =>
    match (Text.decodeUtf8 raw).toOption.bind fun line => (Line.fields line).toOption with
    | some ("script-source" :: _ :: url :: _) | some ("script-details" :: _ :: url :: _) =>
      (scriptPath? (Path.directory path) url).toList
    | some ("shared-library" :: library :: _) =>
      (settings.symbolsDirectory.bind fun directory => listingPath? directory library).toList
    | _ => []

end JitTrace
