import RiscBoard.Main
import RiscBoard.Proofs.Pipeline.FetchFault
import RiscBoard.Proofs.Pipeline.Sequential
import RiscBoard.Proofs.Pipeline.Survival
import RiscBoard.Proofs.Protection.Integrity
import RiscBoard.Proofs.Bus.Agreement
import RiscBoard.Proofs.Core.Environment
import RiscBoard.Proofs.Protection.Confidentiality
import RiscBoard.Proofs.Instruction.Encoding
import RiscBoard.Proofs.Instruction.Decoding
import RiscBoard.Proofs.Board.Arrangement
import RiscBoard.Proofs.Board.Copying
import RiscBoard.Proofs.Mmu.Insertion
import RiscBoard.Proofs.Elf.Placement
import RiscBoard.Proofs.Board.ImageView
import RiscBoard.Proofs.Core.Outcome
import RiscBoard.Proofs.Pipeline.Addresses
import RiscBoard.Proofs.Pipeline.DelaySlots
import RiscBoard.Proofs.Instruction.Disassembly
import RiscBoard.Proofs.Elf.Listing
import RiscBoard.Proofs.Board.Fetching
import RiscBoard.Proofs.Protection.Privilege
import RiscBoard.Proofs.Core.Pristine
import RiscBoard.Proofs.Board.Reset
import RiscBoard.Proofs.Bus.Blank
import RiscBoard.Proofs.Bus.Order
import RiscBoard.Proofs.Board.Regions
import RiscBoard.Proofs.Board.Collisions
import RiscBoard.Proofs.Core.Causes
import RiscBoard.Proofs.Console.Output
import RiscBoard.Proofs.Registers.ZeroRegister
import RiscBoard.Proofs.Mmu.Translation
import RiscBoard.Proofs.Bus.Ownership
import RiscBoard.Proofs.Core.Readback
import RiscBoard.Proofs.Board.Capacity
import RiscBoard.Proofs.Protection.Transition
import RiscBoard.Proofs.Core.Cells
import RiscBoard.Proofs.Memory.Overwriting
import RiscBoard.Proofs.Board.PhysicalLoad
import RiscBoard.Proofs.Board.Budget
import RiscBoard.Proofs.CommandLine.Numbers
import RiscBoard.Proofs.CommandLine.Quantities
import RiscBoard.Proofs.Clock.Division
import RiscBoard.Proofs.Mmu.Holes
import RiscBoard.Proofs.Memory.History
import RiscBoard.Proofs.Alu.Arithmetic
