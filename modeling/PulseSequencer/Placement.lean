-- A pulse placed in a block that is at least as long.
import PulseSequencer.Entry

namespace PulseSequencer

namespace Alignment

/-- How much of the padding comes before the pulse, and how much after. An odd sample goes
behind a centred pulse. -/
def split (padding : Nat) : Alignment → Nat × Nat
  | left => (0, padding)
  | right => (padding, 0)
  | center => (padding / 2, padding - padding / 2)

/-- Padding below this many samples is merged into the pulse. A centred pulse has two sides,
each held against the cutoff; the bound stays within 64 bits. -/
def mergeBound (cutoff : Nat) : Alignment → Nat
  | center => min (2 * cutoff) (wordCount - 1)
  | _ => cutoff

end Alignment

/-- The shape to store, and the entries that fill the block. -/
structure Placement where
  shape : Waveform
  entries : LinkList

namespace Placement

/-- An entry of its own for padding, if there is any. -/
def paddingEntries (length : Nat) : LinkList := if length = 0 then [] else [Entry.padding length]

/-- One entry for the whole block, with the padding part of the shape. -/
def merged (pulse : Pulse) (before after : Nat) : Placement :=
  let shape := pulse.samples.pad before after
  ⟨shape, [Entry.ofPulse shape.key shape.length pulse]⟩

/-- The bare pulse between entries of padding. -/
def separate (pulse : Pulse) (before after : Nat) : Placement :=
  let entry := Entry.ofPulse pulse.samples.key pulse.length pulse
  ⟨pulse.samples, paddingEntries before ++ entry :: paddingEntries after⟩

end Placement

/-- Places a pulse in a block of `blockLength` samples. -/
def Pulse.place (pulse : Pulse) (blockLength : Nat) (alignment : Alignment) (cutoff : Nat) :
    Except CompileError Placement :=
  if blockLength < pulse.length then .error (.pulseExceedsBlock pulse.length blockLength)
  else
    let padding := blockLength - pulse.length
    let (before, after) := alignment.split padding
    if padding = 0 ∨ padding < alignment.mergeBound cutoff then .ok (.merged pulse before after)
    else .ok (.separate pulse before after)

end PulseSequencer
