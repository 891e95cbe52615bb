import Shardway.Config.KeyPath
import Shardway.Config.Reading
import Shardway.Config.Validity
import Shardway.Document.Toml
import Shardway.Document.Yaml

/-!
Where a configuration comes from: a file in one of several formats, and variables of the environment
that go before it.
-/
namespace Shardway.Config

/-! ## Formats -/

inductive Format
  | toml | json | yaml
deriving DecidableEq, Repr

/-- The format that the extension of a file name stands for. -/
def Format.ofExtension? : String → Option Format
  | "toml" => some toml
  | "json" => some json
  | "yaml" | "yml" => some yaml
  | _ => none

def Format.read? : Format → String → Option Document
  | toml => Document.ofToml?
  | json => Document.ofJson?
  | yaml => Document.ofYaml?

/-- What stands after the last point of a file name, unless the point comes first. -/
def extension (fileName : String) : String :=
  match Address.splitLast '.' fileName.toList with
  | some (_ :: _, ext) => String.ofList ext
  | _ => ""

/-- The settings in a text, by their keys. A text must hold a table. -/
def Format.settings (format : Format) (origin : Origin) (text : String) :
    Except ReadFault (List (String × Setting)) :=
  match format.read? text with
  | some (.object members) => .ok (Setting.ofMembers origin members)
  | _ => .error .malformed

/-! ## Files -/

structure File where
  /-- What messages call the file. -/
  label : String
  /-- The name of the file, whose extension tells the format. -/
  name : String
  /-- What the file holds, if there is one. -/
  content : Option String

namespace File

/-- The file at a path, with what it holds. -/
def ofPath (path : String) (content : Option String) : File :=
  ⟨path, ((path.splitOn "/").getLast?).getD path, content⟩

def notFound (f : File) : ReadFault := .source s!"configuration file \"{f.label}\" not found"

def unsupported (f : File) : ReadFault :=
  .source s!"configuration file \"{f.label}\" is not of a supported file format"

/-- A byte order mark before a text does not belong to it. -/
def withoutMark (s : String) : String :=
  match s.toList with
  | '\ufeff' :: r => String.ofList r
  | _ => s

def settings (f : File) : Except ReadFault (List (String × Setting)) :=
  match f.content with
  | none => .error f.notFound
  | some text =>
    match Format.ofExtension? (extension f.name) with
    | none => .error f.unsupported
    | some format => format.settings (some f.label) (withoutMark text)

end File

/-! ## The environment -/

/-- The start of the names of variables that count. -/
def variablePrefix : String := "shardkv__"

def environmentName : String := "the environment"

/-- The keys of a name: two underscores separate them. -/
def dotted : List Char → List Char
  | '_' :: '_' :: r => '.' :: dotted r
  | c :: r => c :: dotted r
  | [] => []

/-- The key path that a variable's name stands for, if the variable counts. -/
def variableKey? (name : String) : Option String :=
  let cs := (Text.lowercase name).toList
  let start := variablePrefix.toList
  if cs.take start.length = start then some (String.ofList (dotted (cs.drop start.length)))
  else none

/-- The value of a variable: a truth value, a number or a text. -/
def variableValue (s : String) : Scalar :=
  let word := Text.lowercase s
  if word = "true" then .bool true
  else if word = "false" then .bool false
  else
    match Text.readSigned? 64 s, Double.read? s with
    | some n, _ => .int n
    | none, some d => .real d
    | none, none => .text s

/-- The settings in the environment, by their keys. -/
def environmentSettings (environment : List (String × String)) : List (String × Setting) :=
  environment.filterMap fun (name, value) =>
    (variableKey? name).map fun key => (key, .scalar (variableValue value) (some environmentName))

/-! ## Configurations -/

/-- The configuration in settings that were put over each other, if it is usable. -/
def Cluster.ofSources (sources : List (List (String × Setting))) : Except Fault Cluster := do
  let settings := sources.foldl (fun s members => s.putAll members) Setting.emptyTable
  let c ← (Cluster.ofSetting settings).mapError .config
  c.check
  return c

/-- The configuration in a TOML text. -/
def Cluster.ofToml (text : String) : Except Fault Cluster := do
  Cluster.ofSources [← (Format.toml.settings none text).mapError .config]

/-- The configuration in a file, as the environment amends it. -/
def Cluster.load (file : File) (environment : List (String × String)) : Except Fault Cluster := do
  Cluster.ofSources [← file.settings.mapError .config, environmentSettings environment]

end Shardway.Config
