import Reflash.Text.Numeral
import Reflash.Text.Printable
import Reflash.Text.Quoted
import Reflash.Text.Blank
import Reflash.Decimal.Binary
import Reflash.Decimal.Shortest
import Reflash.Toml.SyntaxError
import Reflash.Toml.Token
import Reflash.Toml.Quotation
import Reflash.Toml.Value
import Reflash.Toml.Scalar
import Reflash.Toml.Statement
import Reflash.Toml.Document
import Reflash.Slot
import Reflash.Board.Version
import Reflash.Board.Register
import Reflash.Rom.Geometry
import Reflash.Rom.Command
import Reflash.Update.Step
import Reflash.Update.Failure
import Reflash.Update.Phase
import Reflash.Toml.Decoding
import Reflash.Crate.Config
import Reflash.Crate.Description
import Reflash.Host.OsError
import Reflash.BigEndian
import Reflash.Image
import Reflash.Progress.Event
import Reflash.Progress.Console
import Reflash.Progress.Remark
import Reflash.Dialogue
import Reflash.Routine
import Reflash.Engine
import Reflash.Update.Config
import Reflash.Bus
import Reflash.Bus.Memory
import Reflash.Bus.Script
import Reflash.Board
import Reflash.Registry
import Reflash.Rom.Framing
import Reflash.Rom.Polling
import Reflash.Rom.Session
import Reflash.Rom.Erasing
import Reflash.Rom.Reading
import Reflash.Rom.Programming
import Reflash.Image.Compare
import Reflash.Update.Board
import Reflash.Update.Report
import Reflash.Update.Crate
import Reflash.Simulation.Rom
import Reflash.Simulation.Board
import Reflash.Simulation.Crate
import Reflash.Host.Content
import Reflash.Host.Files
import Reflash.Host.Window
import Reflash.Host.CommandLine
import Reflash.Host.Arguments
import Reflash.Text.Style
import Reflash.Bus.Bench
import Reflash.Host.Workstation
import Reflash.Host.RunError
import Reflash.Host.Tool
import Reflash.Host.Machine
import Reflash.Host.Ending
import Reflash.Main
import Reflash.Proofs.Dialogue
import Reflash.Proofs.Routine
import Reflash.Proofs.Bus.Trace
import Reflash.Proofs.Rom.Conduct
import Reflash.Proofs.Rom.Geometry
import Reflash.Proofs.Rom.Cycles
import Reflash.Proofs.Update.Conduct
import Reflash.Proofs.Update.Steps
import Reflash.Proofs.Image.Mismatches
import Reflash.Proofs.Update.Course
import Reflash.Proofs.Update.Path
import Reflash.Proofs.Update.History
import Reflash.Proofs.Update.Refusal
import Reflash.Proofs.Simulation.Crate
import Reflash.Proofs.Update.Stages
import Reflash.Proofs.Update.Ticks
import Reflash.Proofs.Update.Forward
import Reflash.Proofs.Update.Strand
import Reflash.Proofs.Update.Lockstep
import Reflash.Proofs.Heeding
import Reflash.Proofs.Traces
import Reflash.Proofs.Rom.Frames
import Reflash.Proofs.Rom.Heard
import Reflash.Proofs.Rom.PageDiscipline
import Reflash.Proofs.Registry
import Reflash.Proofs.Update.Isolation
import Reflash.Proofs.Simulation.Command
import Reflash.Proofs.Simulation.Looking
import Reflash.Proofs.Simulation.Outline
import Reflash.Proofs.Simulation.Session
import Reflash.Proofs.Simulation.Erasing
import Reflash.Proofs.Simulation.Programming
import Reflash.Proofs.Simulation.Pages
import Reflash.Proofs.Simulation.Reading
import Reflash.Proofs.Simulation.Steps
import Reflash.Proofs.Simulation.Update
import Reflash.Proofs.Simulation.Diagnosis
import Reflash.Proofs.Simulation.Erasure
import Reflash.Proofs.Simulation.Oversized
import Reflash.Proofs.Update.Entries
import Reflash.Proofs.Update.CrateConduct
import Reflash.Proofs.Update.Shares
import Reflash.Proofs.Update.Barriers
import Reflash.Proofs.Masks
import Reflash.Proofs.Rom.Causes
import Reflash.Proofs.Update.Order
import Reflash.Proofs.Update.Partition
import Reflash.Proofs.Update.Rerun
import Reflash.Proofs.BigEndian
import Reflash.Proofs.Discovery
import Reflash.Proofs.Host.Content
import Reflash.Proofs.Host.Files
import Reflash.Proofs.Host.Window
import Reflash.Proofs.Host.Machine
import Reflash.Proofs.Host.Finding
import Reflash.Proofs.Host.Reading
import Reflash.Proofs.Host.Turns
import Reflash.Proofs.Host.Conduct
import Reflash.Proofs.Host.Backup
import Reflash.Proofs.Host.Permission
import Reflash.Proofs.Host.Inspection
import Reflash.Proofs.Bus.Ticks
import Reflash.Proofs.Image.Codec
import Reflash.Proofs.Image.Verdict
import Reflash.Proofs.Rom.Readback
import Reflash.Proofs.Simulation.Losses
import Reflash.Proofs.Simulation.Readback
import Reflash.Proofs.Simulation.Executions
import Reflash.Proofs.Rom.Polling
import Reflash.Proofs.Update.Return
import Reflash.Proofs.Update.Skipping
import Reflash.Proofs.Host.UpdateAll
import Reflash.Proofs.Crate.Checking
import Reflash.Proofs.Host.Described
import Reflash.Proofs.Simulation.Latch
import Reflash.Proofs.Inserts
import Reflash.Proofs.Host.Search
import Reflash.Proofs.Progress.Groups
import Reflash.Proofs.Progress.Reports
import Reflash.Proofs.Rom.Reports
import Reflash.Proofs.Update.Brackets
import Reflash.Proofs.Update.Progress
import Reflash.Proofs.Rom.Calls
import Reflash.Proofs.Update.Confinement
import Reflash.Proofs.Rom.Counts
import Reflash.Proofs.Simulation.Counts
import Reflash.Proofs.Simulation.Clearing
import Reflash.Proofs.Image.Source
