import TinyMips.Architecture.Replay
import TinyMips.Architecture.Semantics
import TinyMips.Main
import TinyMips.Proofs.Address.Region
import TinyMips.Proofs.Isa.Operands
import TinyMips.Proofs.Machine.Step
import TinyMips.Proofs.Machine.Refinement
import TinyMips.Proofs.Assembly.Checked
import TinyMips.Proofs.Assembly.Operand
import TinyMips.Proofs.Assembly.Item
import TinyMips.Proofs.Assembly.Layout
import TinyMips.Proofs.Assembly.Link
import TinyMips.Proofs.Assembly.Program
import TinyMips.Proofs.Assembly.Reference
import TinyMips.Proofs.Machine.Successor
import TinyMips.Proofs.Machine.Reference
import TinyMips.Proofs.Machine.Run
import TinyMips.Proofs.Machine.ControlFlow
import TinyMips.Proofs.Machine.Statistics
import TinyMips.Proofs.Machine.Ending
import TinyMips.Proofs.Machine.Atomicity
import TinyMips.Proofs.Machine.Access
import TinyMips.Proofs.Machine.Discard
import TinyMips.Proofs.Machine.Limit
import TinyMips.Proofs.Machine.Replay
import TinyMips.Proofs.Machine.Counters
import TinyMips.Proofs.Machine.Independence
import TinyMips.Proofs.CommandLine
import TinyMips.Proofs.Assembly.Errors
import TinyMips.Proofs.Assembly.Warnings
import TinyMips.Proofs.Assembly.Attachment
import TinyMips.Proofs.Assembly.Definition
import TinyMips.Proofs.Assembly.Addressing
import TinyMips.Proofs.Assembly.Capacity
import TinyMips.Proofs.Assembly.Hardwired
import TinyMips.Proofs.Assembly.LinkErrors
import TinyMips.Proofs.Assembly.Labels
import TinyMips.Proofs.Numeral.Decimal
import TinyMips.Proofs.Assembly.Pieces
import TinyMips.Proofs.Assembly.Alike
import TinyMips.Proofs.Assembly.Literal
import TinyMips.Proofs.Assembly.Resolved
import TinyMips.Proofs.Machine.Records
import TinyMips.Proofs.Machine.Trace
import TinyMips.Proofs.Assembly.Prefix
import TinyMips.Proofs.Assembly.Renumber
import TinyMips.Proofs.Assembly.Parts
import TinyMips.Proofs.Text.Spelling
import TinyMips.Proofs.Assembly.Spelling
import TinyMips.Proofs.Assembly.Rewrite
import TinyMips.Proofs.Assembly.Diagnostics
import TinyMips.Proofs.Assembly.Grammar
import TinyMips.Proofs.Assembly.Faults
import TinyMips.Proofs.Assembly.Report
import TinyMips.Proofs.Numeral.Hexadecimal
import TinyMips.Proofs.Assembly.Printed
import TinyMips.Proofs.Assembly.Disassembly
import TinyMips.Proofs.Machine.Forward
import TinyMips.Proofs.Assembly.Relinking
import TinyMips.Proofs.Assembly.Shift
import TinyMips.Proofs.Assembly.Exchange
import TinyMips.Proofs.Assembly.Relocation
import TinyMips.Proofs.Store.History
import TinyMips.Proofs.Assembly.Composition
import TinyMips.Proofs.Numeral.Literal
import TinyMips.Proofs.Settings
import TinyMips.Proofs.Register.Token
import TinyMips.Proofs.Address.Bands
