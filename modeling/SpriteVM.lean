import SpriteVM.Debugger
import SpriteVM.Main
import SpriteVM.Proofs.Bus.Bulk
import SpriteVM.Proofs.Command.Runnable
import SpriteVM.Proofs.Command.Traced
import SpriteVM.Proofs.Config.Refused
import SpriteVM.Proofs.Config.Spelled
import SpriteVM.Proofs.Debugger.Edits
import SpriteVM.Proofs.Debugger.Seam
import SpriteVM.Proofs.Host.Compose
import SpriteVM.Proofs.Host.FrameSize
import SpriteVM.Proofs.Host.Ledger
import SpriteVM.Proofs.Instruction.Listing
import SpriteVM.Proofs.Instruction.Unambiguous
import SpriteVM.Proofs.Machine.CallStack
import SpriteVM.Proofs.Machine.Commute
import SpriteVM.Proofs.Machine.ControlFault
import SpriteVM.Proofs.Machine.Course
import SpriteVM.Proofs.Machine.DrawFlag
import SpriteVM.Proofs.Machine.DrawGroup
import SpriteVM.Proofs.Machine.DrawResult
import SpriteVM.Proofs.Machine.Effects
import SpriteVM.Proofs.Machine.FlagArithmetic
import SpriteVM.Proofs.Machine.Halfway
import SpriteVM.Proofs.Machine.Image
import SpriteVM.Proofs.Machine.Registers
import SpriteVM.Proofs.Machine.Remembered
import SpriteVM.Proofs.Machine.Reset
import SpriteVM.Proofs.Machine.RoundTrip
import SpriteVM.Proofs.Machine.Stopped
import SpriteVM.Proofs.Machine.Waiting
import SpriteVM.Proofs.Random
