/-!
The fetch pipeline: three instruction words in flight. Each cycle a fetched word enters on one side
and the word on the other side is executed.
-/

namespace RiscBoard

structure Pipeline where
  newest : UInt32
  middle : UInt32
  oldest : UInt32
  deriving DecidableEq

namespace Pipeline

/-- No word in flight. An empty slot holds zero, which decodes to the instruction that does
nothing. -/
def empty : Pipeline := ⟨0, 0, 0⟩

def shiftIn (pipeline : Pipeline) (word : UInt32) : Pipeline :=
  ⟨word, pipeline.newest, pipeline.middle⟩

def executing (pipeline : Pipeline) : UInt32 := pipeline.oldest

def slots (pipeline : Pipeline) : List UInt32 :=
  [pipeline.newest, pipeline.middle, pipeline.oldest]

end Pipeline

end RiscBoard
