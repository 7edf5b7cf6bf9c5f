-- Why a sequence could not be compiled, and the sentence that says so.
import PulseSequencer.ChannelError
import PulseSequencer.Digest

namespace PulseSequencer

/-- A channel is known by its label. -/
abbrev Channel := String

/-- How the channels of a later sequence differ from those of the first. -/
inductive ChannelMismatch where
  | missing
  | unexpected
deriving DecidableEq

def ChannelMismatch.description : ChannelMismatch → String
  | .missing => "missing"
  | .unexpected => "not used by the first sequence"

inductive CompileError where
  | channelSetMismatch (sequence : Nat) (channel : Channel) (mismatch : ChannelMismatch)
  | emptyChannelSet (sequence : Nat)
  | invalidAlignment (block : Option String) (policy : String)
  /-- An entry that repeats one sample, but whose waveform is not constant. -/
  | notConstant (channel : Channel) (entry : Nat)
  /-- Two waveforms of different content under one key. -/
  | keyCollision (channel : Channel) (key : Digest)
  | pulseExceedsBlock (pulseLength blockLength : Nat)
  | unknownWaveform (channel : Channel) (key : Digest)
  | unmappedChannel (channel : Channel)
  | physicalConflict (physical first second : Channel)
  /-- Whatever else the channel library has to say. -/
  | channelLibrary (cause : ChannelError)
deriving DecidableEq

namespace CompileError

def describeBlock : Option String → String
  | some label => s!" on block '{label}'"
  | none => ""

def message : CompileError → String
  | channelSetMismatch sequence channel mismatch =>
    s!"Sequence {sequence} does not address the same channels as sequence 0: " ++
      s!"channel '{channel}' is {mismatch.description}."
  | emptyChannelSet sequence => s!"Sequence {sequence} does not address any channel."
  | invalidAlignment block policy =>
    s!"Invalid alignment policy '{policy}'" ++ describeBlock block ++
      ". Expected one of 'left', 'right' or 'center'."
  | notConstant channel entry =>
    s!"Entry {entry} on channel '{channel}' is marked as time-amplitude " ++
      "but its waveform is not constant."
  | keyCollision channel key =>
    s!"Waveform {key.hex} on channel '{channel}' already refers to different samples."
  | pulseExceedsBlock pulseLength blockLength =>
    s!"Pulse of {pulseLength} samples does not fit into a block of {blockLength} samples."
  | unknownWaveform channel key =>
    s!"Waveform {key.hex} referenced on channel '{channel}' is not in the waveform library."
  | unmappedChannel channel =>
    s!"Logical channel '{channel}' is not mapped to a physical channel."
  | physicalConflict physical first second =>
    s!"Logical channels '{first}' and '{second}' both map onto physical channel '{physical}'."
  | channelLibrary cause => cause.message

end CompileError

end PulseSequencer
