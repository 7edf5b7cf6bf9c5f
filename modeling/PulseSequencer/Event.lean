-- What the library reports while it works.
import PulseSequencer.CompileError
import PulseSequencer.Decimal
import PulseSequencer.Settings
import PulseSequencer.Text.Quoted

namespace PulseSequencer

inductive Level where
  | error
  | warn
  | info
  | debug
deriving DecidableEq

inductive Event where
  | settingChanged (change : Settings.Change)
  /-- A block without duration went missing, and its frame changes with it. -/
  | blockDropped (index : Nat) (label : Option String) (frameChanges : Nat)
  | listBuilt (channel : Channel) (entries samples : Nat)
  | entryNotConstant (entry : Nat) (channel : Channel) (samples : Nat)
  | frameReached (channel : Channel) (frame : Binary64) (waveforms : Nat)
  | sequenceCompiled (index blocks : Nat)
  | programCompiled (sequences channels waveforms : Nat)
  | channelMapped (logical physical : Channel)
  | channelsCommitted (logical physical transmitters : Nat)
deriving DecidableEq

namespace Event

def level : Event → Level
  | settingChanged .. | blockDropped .. => .warn
  | listBuilt .. | sequenceCompiled .. => .debug
  | entryNotConstant .. => .error
  | frameReached .. | programCompiled .. | channelMapped .. | channelsCommitted .. => .info

/-- Whether the event is reported only when diagnostics are on. -/
def isDiagnostic : Event → Bool
  | frameReached .. => true
  | _ => false

/-- The events that a reader gets to see. -/
def reported (diagnostics : Bool) (events : List Event) : List Event :=
  events.filter fun e => diagnostics || !e.isDiagnostic

/-- An angle with as few digits as read back the same, never with an exponent; halfway cases
go up. -/
def angleText (x : Binary64) : String :=
  if x.isNaN then "NaN"
  else
    let sign := if x.isNegative then "-" else ""
    if x.isFinite then sign ++ (Decimal.shortest .up x).positional else sign ++ "inf"

def message : Event → String
  | settingChanged change =>
    s!"Setting '{change.field}' changed from {change.before} to {change.after}: {change.reason}"
  | blockDropped index label frameChanges =>
    let name := Text.quoted (label.getD "unlabelled")
    s!"Dropping zero-length block {index} ({name}) with {frameChanges} frame change(s)."
  | listBuilt channel entries samples =>
    s!"Channel '{channel}': {entries} entries, {samples} samples."
  | entryNotConstant entry channel samples =>
    s!"Entry {entry} on channel '{channel}' is time-amplitude " ++
      s!"with {samples} non-constant samples."
  | frameReached channel frame waveforms =>
    s!"Channel '{channel}' ends in frame {angleText frame} with {waveforms} waveform(s)."
  | sequenceCompiled index blocks => s!"Compiled sequence {index} with {blocks} block(s)."
  | programCompiled sequences channels waveforms =>
    s!"Compiled {sequences} sequence(s) on {channels} channel(s) into {waveforms} waveform(s)."
  | channelMapped logical physical => s!"Mapped logical channel '{logical}' onto '{physical}'."
  | channelsCommitted logical physical transmitters =>
    s!"Committed channel library: {logical} logical channels, {physical} physical channels, " ++
      s!"{transmitters} transmitters"

end Event

end PulseSequencer
