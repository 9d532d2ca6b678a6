import TinyMips.Assembly.Item
import TinyMips.Diagnostic.Log
import TinyMips.Store.Data
import TinyMips.Store.Labels
import TinyMips.Store.Text

/-!
# Layout

Items are placed line by line, from the first to the last, each at the next free address of its
region. A label waits for the next line that asks for an item, in whichever region, and takes the
address that this line's item gets; a refused item still takes its labels, so that references to
them do not fail as well. Nothing stops a layout: a full store drops what does not fit, with a
warning.
-/

namespace TinyMips

/-- A label that waits for its item, with the line that defines it. -/
structure WaitingLabel where
  name : String
  line : Nat
  deriving DecidableEq

/-- The state of placing: both stores, the labels defined and waiting, and the log. -/
structure Layout where
  text : TextStore := {}
  data : DataStore := {}
  labels : LabelTable := .empty
  waiting : List WaitingLabel := []
  log : Log := {}

namespace Layout

/-- The address that the next item of a region will get, while there is room. -/
def free? (layout : Layout) : Region → Option Address
  | .text => layout.text.free?
  | .data => layout.data.free?

/-- Whether a name is taken by a label that is defined or waits. -/
def isTaken (layout : Layout) (name : String) : Bool :=
  layout.labels.contains name || layout.waiting.any (·.name == name)

/-- Lets a label wait for the next item. An ill-formed or taken name is an error. -/
def stageLabel (layout : Layout) (name : String) (line : Nat) : Layout :=
  if Label.isValid name.toList = false then
    { layout with log := layout.log.error line (.labelNotValid name) }
  else if layout.isTaken name then
    { layout with log := layout.log.error line (.labelAlreadyDefined name) }
  else { layout with waiting := layout.waiting ++ [{ name, line }] }

/-- Gives the waiting labels an address, or drops them with a warning each where there is none. -/
def settle (layout : Layout) : Option Address → Layout
  | some address =>
    { layout with
      labels := layout.waiting.foldl (fun table label => table.define label.name address)
        layout.labels
      waiting := [] }
  | none =>
    { layout with
      log := layout.waiting.foldl (fun log label => log.warn label.line (.labelDropped label.name))
        layout.log
      waiting := [] }

/-- Adds what a check found to the log. -/
def report {α : Type} (layout : Layout) (line : Nat) (checked : Checked α) : Layout :=
  let log := checked.errors.foldl (fun log message => log.error line message) layout.log
  { layout with
    log := checked.warnings.foldl (fun log message => log.warn line message) log }

/-- Places an item as far as there is room; the keyword stands in the warning when there is
not. -/
def put (layout : Layout) (keyword : String) (line : Nat) : Item → Layout
  | .instruction opcode operands =>
    if layout.text.isFull then
      { layout with log := layout.log.warn line (.textFull keyword) }
    else { layout with text := layout.text.push { opcode, operands, line := some line } }
  | .words values =>
    let room := Region.data.capacity - layout.data.placed
    let data := values.foldl DataStore.push layout.data
    if room < values.length then { layout with data, log := layout.log.warn line .dataFull }
    else { layout with data }

/-- Carries out what a line asks for: the report of its check, the item, and the labels that
waited for it. -/
def fulfil (layout : Layout) (keyword : String) (line : Nat) : Request → Layout
  | .nothing errors =>
    { layout with log := errors.foldl (fun log message => log.error line message) layout.log }
  | .item region checked =>
    let layout := layout.report line checked
    -- the address is taken before the item moves it on, and labels get it also without an item
    let address := layout.free? region
    let layout := match checked.value? with
      | some item => layout.put keyword line item
      | none => layout
    layout.settle address

/-- Places one line. -/
def place (layout : Layout) (line : SourceLine) : Layout :=
  let layout := match line.label with
    | some name => layout.stageLabel name line.number
    | none => layout
  layout.fulfil (line.keyword.getD "") line.number (.ofLine line)

/-- Ends a layout: labels that still wait are warned about. -/
def finish (layout : Layout) : Layout :=
  { layout with
    log := layout.waiting.foldl
      (fun log label => log.warn label.line (.labelNotFollowed label.name)) layout.log
    waiting := [] }

/-- Places all lines of a source and ends the layout. -/
def ofLines (lines : List SourceLine) : Layout :=
  (lines.foldl place {}).finish

end Layout

end TinyMips
