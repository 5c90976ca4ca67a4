import Chip8.Keypad.Reader
import Chip8.Main
import Chip8.Proofs.Access
import Chip8.Proofs.Texts
import Chip8.Proofs.Numerals
import Chip8.Proofs.Dispatch
import Chip8.Proofs.Pixels
import Chip8.Proofs.Effects
import Chip8.Proofs.Reachable
import Chip8.Proofs.Stops
import Chip8.Proofs.Drawing
import Chip8.Proofs.Frames
import Chip8.Proofs.Booting
import Chip8.Proofs.Headless
import Chip8.Proofs.Preparing
import Chip8.Proofs.Closing
import Chip8.Proofs.Defaults
import Chip8.Proofs.Palettes
import Chip8.Proofs.Tracing
import Chip8.Proofs.Reports
import Chip8.Proofs.Footprints
import Chip8.Proofs.Timekeeping
import Chip8.Proofs.Independence
import Chip8.Proofs.Calls
import Chip8.Proofs.Firing
import Chip8.Proofs.Pausing
import Chip8.Proofs.Buzzing
import Chip8.Proofs.Counting
import Chip8.Proofs.Pads
import Chip8.Proofs.Displays
import Chip8.Proofs.Refusals
import Chip8.Proofs.Arithmetic
import Chip8.Proofs.Blocks
import Chip8.Proofs.Progress
import Chip8.Proofs.Journal
import Chip8.Proofs.Banks
import Chip8.Proofs.Flips
import Chip8.Proofs.Waiting
import Chip8.Proofs.Dialects
import Chip8.Proofs.Keymaps
import Chip8.Proofs.Polls
import Chip8.Proofs.Pressing
import Chip8.Proofs.Relaying
import Chip8.Proofs.Typing
import Chip8.Proofs.Mnemonics
import Chip8.Proofs.Figures
import Chip8.Proofs.CommandLines
import Chip8.Proofs.Entries
import Chip8.Proofs.Obeying
import Chip8.Proofs.Vetting
