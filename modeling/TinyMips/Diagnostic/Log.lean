import TinyMips.Diagnostic.Message

/-!
# Logs

Errors and warnings are values that each part of the program collects, in order, with the source
line that they belong to. An assembly with an error in its log has failed.
-/

namespace TinyMips

/-- A message and its source line, if it belongs to one. -/
structure LogEntry where
  line : Option Nat
  message : Message
  deriving DecidableEq

/-- The text of an entry, with its line number in front. -/
def LogEntry.text (entry : LogEntry) : String :=
  match entry.line with
  | some line => s!"LineNo: {line}\t{entry.message.text}"
  | none => entry.message.text

/-- Errors and warnings, each in the order in which they arose. -/
structure Log where
  errors : Array LogEntry := #[]
  warnings : Array LogEntry := #[]
  deriving DecidableEq

namespace Log

/-- The log with one more error. -/
def error (log : Log) (line : Option Nat) (message : Message) : Log :=
  { log with errors := log.errors.push { line, message } }

/-- The log with one more warning. -/
def warn (log : Log) (line : Option Nat) (message : Message) : Log :=
  { log with warnings := log.warnings.push { line, message } }

/-- Whether there is any error. -/
def hasErrors (log : Log) : Bool :=
  !log.errors.isEmpty

/-- Whether there is no entry at all. -/
def isEmpty (log : Log) : Bool :=
  log.errors.isEmpty && log.warnings.isEmpty

end Log

end TinyMips
