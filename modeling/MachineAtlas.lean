-- SUMMARY: The whole library: the program that records machine functions, and what is proved of it.
import MachineAtlas.Main
import MachineAtlas.Proofs.Json.Spelling
import MachineAtlas.Proofs.Json.Draft
import MachineAtlas.Proofs.Text.Bytes
import MachineAtlas.Proofs.Json.Whole
import MachineAtlas.Proofs.Json.Codec
import MachineAtlas.Proofs.Json.Form
import MachineAtlas.Proofs.Json.Layout
import MachineAtlas.Proofs.Record.Wire
import MachineAtlas.Proofs.Machine.Wire
import MachineAtlas.Proofs.Machine.Forms
import MachineAtlas.Proofs.Files.Lines
import MachineAtlas.Proofs.Record.Framing
import MachineAtlas.Proofs.Record.Successors
import MachineAtlas.Proofs.Command.Summarize
import MachineAtlas.Proofs.Files.System
import MachineAtlas.Proofs.Files.Buffered
import MachineAtlas.Proofs.Files.Stream
import MachineAtlas.Proofs.Record.Note
import MachineAtlas.Proofs.Engine
import MachineAtlas.Proofs.Command.Inspect
import MachineAtlas.Proofs.Command.Pipeline
import MachineAtlas.Proofs.Engine.Notes
import MachineAtlas.Proofs.Files.Delivery
import MachineAtlas.Proofs.Files.Reading
import MachineAtlas.Proofs.Files.Overlay
import MachineAtlas.Proofs.Engine.Isolation
import MachineAtlas.Proofs.Engine.Counters
import MachineAtlas.Proofs.Engine.Opening
import MachineAtlas.Proofs.Command.Observer
import MachineAtlas.Proofs.Command.Interrupted
import MachineAtlas.Proofs.Command.Unstarted
import MachineAtlas.Proofs.Record.Graph
import MachineAtlas.Proofs.Record.Omissions
import MachineAtlas.Proofs.Record.Comparison
import MachineAtlas.Proofs.Record.Renumbering
import MachineAtlas.Proofs.Record.Placement
import MachineAtlas.Proofs.Record.Printing
import MachineAtlas.Proofs.Engine.Exposure
import MachineAtlas.Proofs.Operand
import MachineAtlas.Proofs.Symbol
import MachineAtlas.Proofs.Engine.Demangling
import MachineAtlas.Proofs.Files.Streaming
import MachineAtlas.Proofs.Command.Streaming
import MachineAtlas.Proofs.Command.Totals
import MachineAtlas.Proofs.Record.FrameSummary
import MachineAtlas.Proofs.Record.Consistency
import MachineAtlas.Proofs.Command.Configure
import MachineAtlas.Proofs.Path
