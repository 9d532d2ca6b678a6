import TinyMips.Assembly.Layout
import TinyMips.Assembly.Link

/-!
# Programs

A source becomes a program when neither its layout nor its linking reports an error. Only then are
its instructions marked as assembled.
-/

namespace TinyMips

/-- An assembled program: both stores, the labels, and the warnings of its assembly. -/
structure Program where
  text : TextStore := {}
  data : DataStore := {}
  labels : LabelTable := .empty
  log : Log := {}

/-- The log of an assembly that failed. -/
structure BuildError where
  log : Log

/-- The wording of a failed assembly. -/
def BuildError.message (error : BuildError) : String :=
  s!"assembly failed with {error.log.errors.size} error(s)"

namespace Layout

/-- The layout with its label references replaced and the failures in its log. -/
def link (layout : Layout) : Layout :=
  { layout with
    text := layout.text.link layout.labels
    log := { layout.log with
      errors := layout.log.errors ++ layout.text.linkErrors layout.labels } }

/-- The program of a linked layout without errors. -/
def toProgram (layout : Layout) : Except BuildError Program :=
  if layout.log.hasErrors then .error { log := layout.log }
  else .ok
    { text := layout.text.map fun inst => { inst with assembled := true }
      data := layout.data
      labels := layout.labels
      log := layout.log }

end Layout

namespace Program

/-- Assembles lines of source. -/
def ofLines (lines : List SourceLine) : Except BuildError Program :=
  (Layout.ofLines lines).link.toProgram

/-- Assembles a source text. -/
def ofSource (source : String) : Except BuildError Program :=
  ofLines (SourceLine.ofSource source)

end Program

end TinyMips
