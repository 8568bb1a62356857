import ModelRouter.Domain.DynamicValues
import ModelRouter.Domain.Invocation
import ModelRouter.Lib.Posix

/-!
# Configuration files

* `ConfigFiles.loadStructuredFile` : the mapping that a configuration file holds.

The parsers of the two formats and the texts of the exceptions that a message quotes are parameters.
-/

namespace ModelRouter
open Json Posix

/-- A file holds a text, or bytes that are none. -/
structure ConfigFiles where
  fs : FileSystem (Option String)
  /-- The data of a text, or the text of the exception that the parser raises. -/
  yamlSafeLoad : String → Except String PyValue
  jsonLoads : String → Except String PyValue
  pydantic : Pydantic
  /-- The text of the `OSError` of a path that cannot be read. -/
  osError : Path → String
  /-- The text of the `ValidationError` of a model's data. -/
  validationError : String → PyValue → String

namespace ConfigFiles

variable (files : ConfigFiles)

/-- `path.exists()`. -/
def pathExists (path : Path) : Except PyException Bool :=
  match files.fs.locate path with
  | .missing => .ok false
  | .refused => .error (.other "OSError")
  | .found _ => .ok true

/-- `path.read_text(..)`. -/
def openText (path : Path) : Except PyException String :=
  match files.fs.locate path with
  | .found location => match files.fs.node location with
    | some (.file (some text)) => .ok text
    | some (.file none) => .error (.other "UnicodeDecodeError")
    | _ => .error (.other "OSError")
  | _ => .error (.other "OSError")

/-- The text of a file; an `OSError` becomes the loader's exception. -/
def readText (path : Path) : Except PyException String :=
  (files.openText path).mapError fun x =>
    if x = .other "OSError" then
      .configurationError ("Could not read configuration file " ++ path.text ++ ": " ++
        files.osError path)
    else x

def parse (path : Path) (text : String) : Except PyException PyValue :=
  if path.suffix = ".yaml" ∨ path.suffix = ".yml" then
    (files.yamlSafeLoad text).mapError fun exc =>
      .configurationError ("Malformed YAML in " ++ path.text ++ ": " ++ exc)
  else if path.suffix = ".json" then
    (files.jsonLoads text).mapError fun exc =>
      .configurationError ("Malformed JSON in " ++ path.text ++ ": " ++ exc)
  else .error (.configurationError
    ("Unsupported configuration file extension: " ++ path.suffix ++ " (" ++ path.text ++ ")"))

def loadStructuredFile (path : Path) : Except PyException (List (Str × PyValue)) := do
  let text ← files.readText path
  match ← files.parse path text with
  | .object data => pure data
  | _ => .error (.configurationError
    ("Configuration file " ++ path.text ++ " must contain a mapping at the top level"))

end ConfigFiles

end ModelRouter
