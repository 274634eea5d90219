import Chip8.Host.Script
import Chip8.Main
import Chip8.Proofs.Alias
import Chip8.Proofs.Delivery
import Chip8.Proofs.Fault
import Chip8.Proofs.Screening
import Chip8.Proofs.StraightLine
import Chip8.Proofs.Countdown
import Chip8.Proofs.TimerPlacement
import Chip8.Proofs.RunEnd
import Chip8.Proofs.Stopping
import Chip8.Proofs.Provenance
import Chip8.Proofs.DialectReach
import Chip8.Proofs.Nesting
import Chip8.Proofs.RandomBytes
import Chip8.Proofs.Exchange
import Chip8.Proofs.FaultReport
import Chip8.Proofs.ForeignKeys
import Chip8.Proofs.Footprint
import Chip8.Proofs.Spelling
import Chip8.Proofs.Redraw
import Chip8.Proofs.Arithmetic
import Chip8.Proofs.ControlFlow
import Chip8.Proofs.Transfer
import Chip8.Proofs.KeyWait
import Chip8.Proofs.KeyOrder
import Chip8.Proofs.IndexSum
import Chip8.Proofs.GlyphDrawing
import Chip8.Proofs.Checked.Basic
import Chip8.Proofs.Checked.Cycle
import Chip8.Proofs.Checked.Painting
import Chip8.Proofs.Checked.System
import Chip8.Proofs.Checked.Reading
import Chip8.Proofs.HeldKeys
import Chip8.Proofs.Afterglow
