import CommentLint.Config.Basic
import CommentLint.FileTree.Lookup
import CommentLint.Given
import CommentLint.Toml.Document

/-
  Loading a configuration from a file.

  Key definitions include:
    * `LoadError`
    * `Config.ofDocument`
    * `FileTree.loadDefaultConfig`
    * `FileTree.loadConfig`
-/

namespace CommentLint

------------------------------------------------------------
-- Errors
------------------------------------------------------------

/- Why a configuration cannot be loaded. -/
inductive LoadError where
| missing (path : Path)
| access (cause : PathError)
| undecodable
| malformed
| tooManyDigits (count : Nat)
| tooDeep
| setting (cause : SettingError)
deriving DecidableEq, Repr

namespace LoadError

/- The message of an error. -/
def message : LoadError → String
  | .missing path => "Config file not found: " ++ path.text
  | .access cause => cause.message
  | .undecodable => "the configuration is not valid UTF-8"
  | .malformed => "the configuration is not a TOML document"
  | .tooManyDigits count =>
      (SettingError.numeral (.tooManyDigits count)).message
  | .tooDeep => tooDeepText
  | .setting cause => cause.message

end LoadError

------------------------------------------------------------
-- Loading
------------------------------------------------------------

/- The configuration that the bytes of a document give. -/
def Config.ofDocument
    (data : Bytes) : Except LoadError Config :=
  match Utf8.decode? data with
  | none => .error .undecodable
  | some text =>
      match Toml.parse text with
      | .error .malformed => .error .malformed
      | .error (.tooManyDigits count) =>
          .error (.tooManyDigits count)
      | .error .tooDeep => .error .tooDeep
      | .ok s => (Config.ofSetting s).mapError .setting

/- The configuration that is read when none is named. -/
def defaultConfigName : String :=
  "lexlint.toml"

namespace FileTree

/- The configuration in the file at a path. -/
def loadConfigAt
    (t : FileTree)
    (p : Path) : Except LoadError Config :=
  match t.has p with
  | .error cause => .error (.access cause)
  | .ok false => .error (.missing p)
  | .ok true =>
      match t.read p with
      | .error cause => .error (.access cause)
      | .ok data => Config.ofDocument data

/- The configuration in the file of the default name, if it is there. -/
def loadDefaultConfig
    (t : FileTree) : Except LoadError Config :=
  let p := Path.ofString defaultConfigName
  match t.has p with
  | .error cause => .error (.access cause)
  | .ok false => .ok {}
  | .ok true => t.loadConfigAt p

/- The configuration in the file that is named, if one is. -/
def loadConfig
    (t : FileTree) :
    Option (Given String) → Except LoadError Config
  | none => t.loadDefaultConfig
  | some (.value path) => t.loadConfigAt (Path.ofString path)
  | some .nothing => .error (.setting .notPath)

end FileTree

end CommentLint
