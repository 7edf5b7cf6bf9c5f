-- The compiler's settings, and the bounds they are held to.

namespace PulseSequencer

structure Settings where
  /-- Padding shorter than this many samples is merged into the pulse. -/
  paddingCutoff : Nat := 12
  /-- Whether constant waveforms are stored as one sample. -/
  detectConstants : Bool := true
deriving DecidableEq

namespace Settings

def maxPaddingCutoff : Nat := 4096

/-- A setting that was out of bounds. -/
structure Change where
  field : String
  before : String
  after : String
  reason : String
deriving DecidableEq

/-- The changes that bring the settings into bounds. -/
def changes (s : Settings) : List Change :=
  if maxPaddingCutoff < s.paddingCutoff then
    [⟨"padding_cutoff", s!"{s.paddingCutoff}", s!"{maxPaddingCutoff}",
      s!"Larger than {maxPaddingCutoff}."⟩]
  else []

/-- The settings with those changes made. -/
def bounded (s : Settings) : Settings :=
  { s with paddingCutoff := min s.paddingCutoff maxPaddingCutoff }

end Settings

end PulseSequencer
