import TinyMips.Assembly.Program
import TinyMips.Settings

/-!
# Loading

Programs and settings come from files. A file is its name and its bytes, or the reason why it
could not be read; its bytes must be UTF-8.
-/

namespace TinyMips

/-- Why a file could not be read. -/
inductive ReadError where
  | notFound
  | notText
  /-- Any other reason, in the words of the system. -/
  | other (reason : String)
  deriving DecidableEq

/-- The wording of a reason. -/
def ReadError.message : ReadError → String
  | notFound => "No such file or directory (os error 2)"
  | notText => "stream did not contain valid UTF-8"
  | other reason => reason

/-- A file that was named, with its bytes where it could be read. -/
structure SourceFile where
  name : String
  content : Except ReadError ByteArray

/-- Why a program or settings could not be loaded. -/
inductive LoadError where
  | read (name : String) (error : ReadError)
  | build (error : BuildError)
  | settings (name : String)

/-- The wording of a failure. -/
def LoadError.message : LoadError → String
  | read name error => s!"could not read '{name}': {error.message}"
  | build error => error.message
  | settings name => s!"invalid configuration '{name}': not a settings document"

namespace SourceFile

/-- The text of a file. -/
def text (file : SourceFile) : Except LoadError String :=
  match file.content with
  | .error error => .error (.read file.name error)
  | .ok bytes =>
    match String.fromUTF8? bytes with
    | some text => .ok text
    | none => .error (.read file.name .notText)

/-- The program of a source file. -/
def program (file : SourceFile) : Except LoadError Program :=
  match file.text with
  | .error error => .error error
  | .ok text =>
    match Program.ofSource text with
    | .ok program => .ok program
    | .error error => .error (.build error)

/-- The settings of a settings file. -/
def settings (file : SourceFile) : Except LoadError Settings :=
  match file.text with
  | .error error => .error error
  | .ok text =>
    match Settings.ofText? text with
    | some settings => .ok settings
    | none => .error (.settings file.name)

end SourceFile

end TinyMips
