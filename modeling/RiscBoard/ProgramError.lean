import RiscBoard.Board.Layout
import RiscBoard.Text.Number

/-!
Why a program cannot be loaded, listed or run.
-/

namespace RiscBoard

inductive ProgramError where
  | unreadable (path : String)
  | unwritable
  | notElf
  | tooManySegments (count : Nat)
  | segmentOutOfFile (index : Nat)
  | segmentTooLarge (index size : Nat)
  /-- The end of a segment's place is no 64-bit number. -/
  | placeOverflow (index size : Nat)
  | mapFull
  | board (error : BoardError)
  | nothingToRun
  deriving DecidableEq

namespace ProgramError

/-- The most segments that are loaded: one mapping stays free for the port window. -/
def segmentLimit : Nat := 31

def message : ProgramError → String
  | unreadable path => "cannot read " ++ path
  | unwritable => "cannot write output"
  | notElf => "invalid ELF file"
  | tooManySegments count =>
    "ELF file has " ++ toString count ++ " loadable segments, at most " ++
      toString segmentLimit ++ " are supported"
  | segmentOutOfFile index => "segment " ++ toString index ++ " lies outside of the ELF file"
  | segmentTooLarge index size =>
    "segment " ++ toString index ++ " (" ++ Text.hex size ++
      " bytes) does not fit in main memory"
  | placeOverflow index size =>
    "segment " ++ toString index ++ " (" ++ Text.hex size ++
      " bytes) ends past the largest 64-bit number"
  | mapFull => "mapping table is full"
  | board error => error.message
  | nothingToRun => "nothing to run, pass an ELF file or a BIOS image"

end ProgramError

end RiscBoard
