import LineShell.Text.Blank

/-!
# Transcripts

A transcript is what has been written to a stream so far.  It keeps the last byte first, so that a
write costs as much as is written, however long the transcript has become.  `bytes_append` states
what a write does to the bytes.
-/

namespace LineShell

structure Transcript where
  /-- The bytes, the last one first. -/
  backwards : Bytes := []
  deriving DecidableEq, Repr

namespace Transcript

/-- The bytes in the order in which they were written. -/
def bytes (transcript : Transcript) : Bytes := transcript.backwards.reverse

def append (transcript : Transcript) (data : Bytes) : Transcript :=
  ⟨data.reverse ++ transcript.backwards⟩

@[simp]
theorem bytes_append (transcript : Transcript) (data : Bytes) :
    (transcript.append data).bytes = transcript.bytes ++ data := by
  simp [bytes, append]

end Transcript

end LineShell
