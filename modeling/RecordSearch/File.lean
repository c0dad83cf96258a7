import RecordSearch.Config.Toml
import RecordSearch.Request.Json
import RecordSearch.Request.Yaml

/-!
# Files

Requests and settings from the contents of files. What reads the files is
elsewhere; here a file is its bytes, or nothing where there is none. The name of
a request file decides its format. Settings come from the first of several
places whose file can be read and understood.
-/
namespace RecordSearch

abbrev Contents := Option ByteArray

inductive Format where
  | json
  | yaml
  deriving DecidableEq, Repr

namespace Format

/-- The last part of a path; a path that ends in `..` names no file. -/
def fileName? (path : String) : Option (List Char) :=
  let parts := (path.toList.splitOn '/').filter fun p => p ≠ [] && p ≠ ['.']
  match parts.getLast? with
  | some ['.', '.'] => none
  | last => last

/-- What follows the last point of a name that does not begin with it. -/
def extension? (name : List Char) : Option (List Char) :=
  let reversed := name.reverse
  let ending := reversed.takeWhile (· ≠ '.')
  match reversed.drop ending.length with
  | [] => none
  | _ :: [] => none
  | _ :: _ :: _ => some ending.reverse

/-- The format of a request file. Only two endings mean YAML. -/
def ofPath (path : String) : Format :=
  match (fileName? path).bind extension? with
  | some ['y', 'm', 'l'] => .yaml
  | some ['y', 'a', 'm', 'l'] => .yaml
  | _ => .json

end Format

namespace SearchRequest

def ofText (format : Format) (text : String) : Except SearchError SearchRequest :=
  match format with
  | .json => ofJson text
  | .yaml => ofYaml text

def ofFile (path : String) (contents : Contents) : Except SearchError SearchRequest :=
  match contents with
  | none => .error (.file .missing)
  | some bytes =>
    match String.fromUTF8? bytes with
    | none => .error (.file .notText)
    | some text => ofText (Format.ofPath path) text

end SearchRequest

/-- What of the surroundings decides where settings are looked for. -/
structure Environment where
  /-- A file named for this purpose. -/
  configFile : Option String := none
  configHome : Option String := none
  home : Option String := none

/-- The directory of the user's settings. A relative one is not used. -/
def Environment.configDirectory? (env : Environment) : Option String :=
  match env.configHome with
  | some dir => if dir.startsWith "/" then some dir else env.home.map (· ++ "/.config")
  | none => env.home.map (· ++ "/.config")

def Environment.configPaths (env : Environment) : List String :=
  env.configFile.toList ++ ["labelsearch.toml"] ++
    (env.configDirectory?.map (· ++ "/labelsearch/config.toml")).toList

namespace Config

def ofFile (contents : Contents) : Except SearchError Config :=
  match contents.bind String.fromUTF8? with
  | none => .error (.config .read)
  | some text => ofToml text

/-- The settings of the first file that has any, and otherwise the defaults. -/
def ofFirst : List Contents → Config
  | [] => {}
  | contents :: rest =>
    match ofFile contents with
    | .ok config => config
    | .error _ => ofFirst rest

end Config

/-- The statement as it is printed: its text on lines of its own, then a comment
with the values of its placeholders, if there are any. -/
def CompiledSearch.report (c : CompiledSearch) : String :=
  c.sql ++ "\n" ++
    if c.params.isEmpty then ""
    else "-- params: " ++ (Json.Value.array c.params).compact ++ "\n"

/-- What is printed for a request file, with the settings of the first usable file. -/
def reportOfFile (path : String) (contents : Contents) (settings : List Contents) :
    Except SearchError String := do
  let request ← SearchRequest.ofFile path contents
  let compiled ← (Config.ofFirst settings).build .postgres request
  return compiled.report

end RecordSearch
