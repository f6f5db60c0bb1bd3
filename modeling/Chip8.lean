import Chip8.Main
import Chip8.Debugger
import Chip8.Proofs.Config.Width
import Chip8.Proofs.Machine.Atomicity
import Chip8.Proofs.Machine.Composition
import Chip8.Proofs.Machine.Record
import Chip8.Proofs.Memory.Twin
import Chip8.Proofs.Machine.Call
import Chip8.Proofs.Machine.Halt
import Chip8.Proofs.Machine.Successor
import Chip8.Proofs.Machine.Dependence
import Chip8.Proofs.Debugger.Breakpoint
import Chip8.Proofs.Debugger.Run
import Chip8.Proofs.Debugger.Edit
import Chip8.Proofs.Machine.Trace
import Chip8.Proofs.Memory.History
import Chip8.Proofs.Machine.Partition
import Chip8.Proofs.CommandLine.Outcome
import Chip8.Proofs.Machine.Sprite
import Chip8.Proofs.Machine.Arithmetic
import Chip8.Proofs.Machine.RoundTrip
import Chip8.Proofs.Machine.CutShort
import Chip8.Proofs.Machine.Overlay
import Chip8.Proofs.Memory.Image
import Chip8.Proofs.Listing.Range
import Chip8.Proofs.Machine.Operation
import Chip8.Proofs.Machine.Report
import Chip8.Proofs.Machine.Tick
import Chip8.Proofs.Machine.Key
import Chip8.Proofs.Machine.Countdown
import Chip8.Proofs.Machine.Wait
import Chip8.Proofs.Debugger.Course
import Chip8.Proofs.Machine.Random
import Chip8.Proofs.Config.Grammar
import Chip8.Proofs.Config.Start
import Chip8.Proofs.Config.Acceptance
import Chip8.Proofs.Config.Root
import Chip8.Proofs.Machine.Glyph
import Chip8.Proofs.Debugger.History
import Chip8.Proofs.Display.View
