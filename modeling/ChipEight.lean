import ChipEight.Fault.Report
import ChipEight.Instruction.Assembly
import ChipEight.Memory
import ChipEight.Stack
import ChipEight.Registers
import ChipEight.Framebuffer
import ChipEight.Timers
import ChipEight.Clock.Double
import ChipEight.Clock.Exact
import ChipEight.Machine.Cycle
import ChipEight.Machine.Dump
import ChipEight.Text.Integer
import ChipEight.Loading
import ChipEight.Keypad
import ChipEight.Buzzer
import ChipEight.Window
import ChipEight.CommandLine.Arguments
import ChipEight.Settings
import ChipEight.Directory
import ChipEight.Host
import ChipEight.Main
import ChipEight.Proofs.Faults
import ChipEight.Proofs.Addresses
import ChipEight.Proofs.Subroutines
import ChipEight.Proofs.Picture
import ChipEight.Proofs.Reset
import ChipEight.Proofs.Cadence
import ChipEight.Proofs.Decay
import ChipEight.Proofs.Timeless
import ChipEight.Proofs.Waiting
import ChipEight.Proofs.Footprint
import ChipEight.Proofs.Grammar
import ChipEight.Proofs.Trace
import ChipEight.Proofs.Gate
import ChipEight.Proofs.Bare
import ChipEight.Proofs.Beep
import ChipEight.Proofs.StraightLine
import ChipEight.Proofs.Watching
import ChipEight.Proofs.Arithmetic
import ChipEight.Proofs.Keypad
import ChipEight.Proofs.Sprites
import ChipEight.Proofs.Assembler
import ChipEight.Proofs.Flow
import ChipEight.Proofs.Overlay
import ChipEight.Proofs.Loading
import ChipEight.Proofs.Requests
import ChipEight.Proofs.BoundedStack
import ChipEight.Proofs.KeyOrder
import ChipEight.Proofs.Numerals
import ChipEight.Proofs.LastWritten
import ChipEight.Proofs.Scaling
import ChipEight.Proofs.ReadBack
