-- Pulses, and the blocks in which pulses on several channels start together.
import PulseSequencer.CompileError
import PulseSequencer.Table
import PulseSequencer.Waveform

namespace PulseSequencer

/-- Where a pulse sits in a block that is longer than the pulse. -/
inductive Alignment where
  | left
  | right
  | center
deriving DecidableEq

namespace Alignment

def name : Alignment → String
  | left => "left"
  | right => "right"
  | center => "center"

def ofName? (name : String) : Option Alignment :=
  [left, right, center].find? (·.name = name)

/-- The alignment of that name. A failure names the block it was meant for. -/
def parse (policy : String) (block : Option String) : Except CompileError Alignment :=
  match ofName? policy with
  | some alignment => .ok alignment
  | none => .error (.invalidAlignment block policy)

end Alignment

/-- Samples with their place in the rotating frame. -/
structure Pulse where
  samples : Waveform
  /-- Radians, for this pulse alone. -/
  phase : Binary64 := .zero
  /-- Radians, for every later pulse of the channel. -/
  frameChange : Binary64 := .zero
  alignment : Alignment := .left
deriving DecidableEq

namespace Pulse

/-- A pulse without samples that only turns the frame. -/
def frameOnly (frameChange : Binary64) : Pulse := { samples := .empty, frameChange }

def length (p : Pulse) : Nat := p.samples.length

def isEmpty (p : Pulse) : Bool := p.samples.isEmpty

end Pulse

/-- Pulses that play together, at most one per channel. -/
structure Block where
  label : Option String := none
  alignment : Alignment := .left
  pulses : Table Channel Pulse := .empty

namespace Block

/-- The pulse of `channel`, in place of any pulse already there. -/
def withPulse (b : Block) (channel : Channel) (pulse : Pulse) : Block :=
  { b with pulses := b.pulses.insert channel pulse }

def withAlignment (b : Block) (policy : String) : Except CompileError Block :=
  (Alignment.parse policy b.label).map fun alignment => { b with alignment }

/-- A block lasts as long as its longest pulse. -/
def duration (b : Block) : Nat := (b.pulses.values.map Pulse.length).foldl max 0

end Block

/-- What a sequence is written in: blocks, and pulses that stand alone. -/
inductive Item where
  | pulse (channel : Channel) (pulse : Pulse)
  | block (block : Block)

/-- A lone pulse is a block of its own. -/
def Item.toBlock : Item → Block
  | pulse channel p => { alignment := p.alignment, pulses := Table.empty.insert channel p }
  | block b => b

end PulseSequencer
