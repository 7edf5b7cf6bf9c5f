-- Playback instructions of one channel.
import PulseSequencer.Pulse

namespace PulseSequencer

/-- The key of the single zero sample that padding repeats. -/
def zeroKey : Digest := (Waveform.zeros 1).key

structure Entry where
  /-- The waveform to play, turned into its frame. -/
  key : Digest
  /-- The waveform before it was turned. -/
  sourceKey : Digest
  /-- In samples. -/
  length : Nat
  repetitions : Nat := 1
  /-- Play one stored sample for the whole length. -/
  isTimeAmplitude : Bool := false
  hasTrigger : Bool := false
  triggerDelay1 : Nat := 0
  triggerDelay2 : Nat := 0
  phase : Binary64 := .zero
  frameChange : Binary64 := .zero
deriving DecidableEq

namespace Entry

/-- Plays the waveform under `key` for a pulse. -/
def ofPulse (key : Digest) (length : Nat) (pulse : Pulse) : Entry where
  key := key
  sourceKey := key
  length := length
  phase := pulse.phase
  frameChange := pulse.frameChange

/-- Zero output. -/
def padding (length : Nat) : Entry where
  key := zeroKey
  sourceKey := zeroKey
  length := length
  isTimeAmplitude := true

def isPadding (e : Entry) : Bool := e.sourceKey == zeroKey

end Entry

/-- The entries of one channel for one sequence. -/
abbrev LinkList := List Entry

/-- The number of values that a 64-bit counter of the hardware can take. -/
def wordCount : Nat := 0x10000000000000000

/-- The playing time in samples, as such a counter holds it. -/
def LinkList.totalLength (l : LinkList) : Nat :=
  (l.map fun e => e.length * e.repetitions).foldr (· + ·) 0 % wordCount

end PulseSequencer
