import BurstRing.Config.Decode
import BurstRing.Config.Validate
import BurstRing.Yaml.Document

/-!
# Loading a configuration

A configuration is one YAML document.  Its settings are read as far as the document goes, so a
finding comes before an error in the YAML after it; then the document has to end the text; then the
settings are checked.
-/

namespace BurstRing

/-- Why a text holds no settings, in words. -/
def parseFailure (detail : String) : Failure := .configParse ("YAML parse error: " ++ detail)

/-- What is wrong with the text after the part that has been read. -/
def endingFailure? : Yaml.Ending → Option Failure
  | .clean => none
  | .broken cause => some (parseFailure cause.message)
  | .more =>
    some (parseFailure "deserializing from YAML containing more than one document is not supported")

/-- The settings that a text holds. -/
def readSettings (text : String) : Except Failure Settings :=
  let document := Yaml.Document.ofText text
  match decodeSettings document.anchors document.aliasLimit document.root with
  | .error (.mismatch finding place) => .error (parseFailure (finding.messageAt place))
  | .error .tooManyAliases => .error (parseFailure "repetition limit exceeded")
  | .error .brokenOff =>
    .error ((endingFailure? document.ending).getD (parseFailure "EOF while parsing a value"))
  | .ok settings =>
    match endingFailure? document.ending with
    | some failure => .error failure
    | none => .ok settings

namespace Config

/-- The configuration that a text holds. -/
def ofText (text : String) : Except Failure Config := do
  let settings ← readSettings text
  settings.validate.mapError .setting

end Config

/-- What a path leads to. -/
inductive FileContent where
  | missing
  | directory
  /-- Something that cannot be read. -/
  | unreadable (detail : String)
  | bytes (data : ByteArray)

/-- The configuration in the file at `path`. -/
def Config.ofFile (path : String) : FileContent → Except Failure Config
  | .missing => .error (.configNotFound path)
  | .directory => .error (.file "reading config file" .isDirectory)
  | .unreadable detail => .error (.file "reading config file" (.other detail))
  | .bytes data =>
    match String.fromUTF8? data with
    | none => .error (.file "reading config file" .notText)
    | some text => Config.ofText text

end BurstRing
