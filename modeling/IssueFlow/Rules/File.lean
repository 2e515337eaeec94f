import IssueFlow.Batch.Diagnostic
import IssueFlow.Serial.Rules
import IssueFlow.Toml.Document

/-!
# Classification files

Classifications are kept in a TOML file with one table for each project. A text is accepted if it is
a TOML document of the right form and every classification in it is valid; a file that does not
exist stands for no classifications at all.
-/

namespace IssueFlow.Rules

open IssueFlow.Batch

/-- Why a classification text is rejected. -/
inductive ConfigError where
  /-- It is no TOML document, or a value in it has a wrong form. -/
  | malformed
  | invalid (project : String) (cause : ClassificationError)
  deriving DecidableEq, Repr

namespace ConfigError

def code : ConfigError → ErrorCode
  | malformed => .configParseError
  | invalid _ _ => .invalidClassification

/-- What is wrong, the outermost statement first; syntax errors have no fixed wording. -/
def chain : ConfigError → List String
  | malformed => []
  | invalid project cause => ["project '" ++ project ++ "': " ++ cause.message, cause.message]

end ConfigError

/-- The classifications that a text describes, valid or not. -/
def ClassificationSet.ofToml? (text : String) : Option ClassificationSet :=
  (Toml.parse? text).bind fun fields => ClassificationSet.ofData? .ignored (.record fields)

/-- The valid classifications that a text describes. -/
def ClassificationSet.parse (text : String) : Except ConfigError ClassificationSet :=
  match ClassificationSet.ofToml? text with
  | none => .error .malformed
  | some s =>
    match s.validate with
    | .error (project, cause) => .error (.invalid project cause)
    | .ok () => .ok s

/-- What is found under a path. -/
inductive FileState where
  | missing
  /-- Something that has no content, such as a directory. -/
  | unreadable
  | content (bytes : ByteArray)

/-- Why the file under a path is rejected. -/
inductive LoadError where
  /-- It cannot be read as UTF-8 text. -/
  | unreadable (path : String)
  | rejected (path : String) (cause : ConfigError)
  deriving DecidableEq, Repr

/-- What is wrong, the outermost statement first. -/
def LoadError.chain : LoadError → List String
  | .unreadable path => ["Failed to read " ++ path]
  | .rejected path cause => ("Failed to parse " ++ path) :: cause.chain

/-- The classifications in the file under a path. -/
def ClassificationSet.load (path : String) : FileState → Except LoadError ClassificationSet
  | .missing => .ok {}
  | .unreadable => .error (.unreadable path)
  | .content bytes =>
    match String.fromUTF8? bytes with
    | none => .error (.unreadable path)
    | some text => (ClassificationSet.parse text).mapError (.rejected path)

/-! ## The path of the file -/

/-- Where the file is found below the root of a project. -/
def defaultLocation : String := ".tally/classifications.toml"

/-- A relative path taken from a directory. -/
def below (directory relative : String) : String :=
  if directory = "" then relative
  else if directory.toList.getLast? = some '/' then directory ++ relative
  else directory ++ "/" ++ relative

/-- The path of the classification file: the explicit one, else the trimmed one of the environment
unless it is blank, else the default location. -/
def classificationPath (explicit environment : Option String) (root : String) : String :=
  match explicit with
  | some path => path
  | none =>
    match (environment.map Text.trim).filter fun path => !path.isEmpty with
    | some path => path
    | none => below root defaultLocation

end IssueFlow.Rules
