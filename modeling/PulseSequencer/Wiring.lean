-- Programs moved from logical channels onto the outputs they are played on.
import PulseSequencer.ChannelLibrary
import PulseSequencer.Program

namespace PulseSequencer

namespace Wiring

/-- The output of a logical channel. A channel that is unknown is as good as one without an
output. -/
def resolve (lib : ChannelLibrary) (logical : Channel) : Except CompileError Channel :=
  match lib.outputOf logical with
  | .ok output => .ok output.label
  | .error (.unknown _ _) | .error (.unmapped _) => .error (.unmappedChannel logical)
  | .error cause => .error (.channelLibrary cause)

/-- The channels that have to be wired: those with link lists, then those that only have
waveforms. -/
def visited (p : Program) : List Channel :=
  p.linkLists.keys ++ p.waveforms.channels.keys.filter (!p.linkLists.contains ·)

/-- A logical channel and its output. -/
structure Wire where
  logical : Channel
  physical : Channel
deriving DecidableEq

/-- Wires the channels one after another onto outputs of their own. A failure keeps the wires
that were laid before it. -/
def lay (lib : ChannelLibrary) : List Wire → List Channel → List Wire × Except CompileError Unit
  | wires, [] => (wires, .ok ())
  | wires, logical :: rest =>
    match resolve lib logical with
    | .error err => (wires, .error err)
    | .ok physical =>
      match wires.find? (·.physical = physical) with
      | some first => (wires, .error (.physicalConflict physical first.logical logical))
      | none => lay lib (wires ++ [⟨logical, physical⟩]) rest

/-- Only channels with link lists are worth a report. -/
def events (p : Program) (wires : List Wire) : List Event :=
  (wires.filter (p.linkLists.contains ·.logical)).map fun w => .channelMapped w.logical w.physical

/-- The program with every logical channel replaced by its output. -/
def rekey (p : Program) (wires : List Wire) : Program where
  linkLists := .ofList <| wires.filterMap fun w =>
    (p.linkLists.get? w.logical).map (w.physical, ·)
  waveforms := ⟨.ofList <| wires.filterMap fun w =>
    (p.waveforms.channels.get? w.logical).map (w.physical, ·)⟩

end Wiring

/-- Moves a program onto the outputs of a channel library. -/
def Program.moveOnto (p : Program) (lib : ChannelLibrary) :
    List Event × Except CompileError Program :=
  let (wires, answer) := Wiring.lay lib [] (Wiring.visited p)
  (Wiring.events p wires, answer.map fun _ => Wiring.rekey p wires)

/-- Compiles a program for the outputs of a channel library. -/
def Program.compileOnto (settings : Settings) (sequences : Sequences)
    (lib : ChannelLibrary) : Compilation Program := do
  let p ← compile settings sequences
  let (events, answer) := p.moveOnto lib
  .report events
  .ofExcept answer

end PulseSequencer
