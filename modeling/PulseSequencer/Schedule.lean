-- The link lists of one sequence before frames are applied: every block gives
-- every channel exactly its own duration.
import PulseSequencer.Compilation
import PulseSequencer.Placement

namespace PulseSequencer

/-- A link list for each channel, in the order in which the channels came up. -/
abbrev ChannelLists := List (Channel × LinkList)

namespace Schedule

/-- The members of a list without the later repetitions. -/
def firstUses : List Channel → List Channel
  | [] => []
  | c :: rest => c :: (firstUses rest).filter (· ≠ c)

theorem mem_firstUses (c : Channel) (l : List Channel) : c ∈ firstUses l ↔ c ∈ l := by
  induction l with
  | nil => simp [firstUses]
  | cons d rest ih =>
    by_cases h : c = d
    · simp [firstUses, h]
    · simp [firstUses, h, ih]

theorem firstUses_nodup (l : List Channel) : (firstUses l).Nodup := by
  induction l with
  | nil => simp [firstUses]
  | cons d rest ih =>
    simp only [firstUses, List.nodup_cons]
    exact ⟨by simp, ih.sublist List.filter_sublist⟩

/-- The channels that some block addresses, in order of first use. -/
def channels (blocks : List Block) : List Channel := firstUses (blocks.flatMap (·.pulses.keys))

/-- The number of pulses of a block that turn the frame. -/
def frameChangeCount (b : Block) : Nat :=
  b.pulses.values.countP fun p => !p.frameChange.numEq .zero

/-- A block without duration plays nothing. Frame changes that go missing with it are
reported. -/
def dropEvents (index : Nat) (b : Block) : List Event :=
  let count := frameChangeCount b
  if count = 0 then [] else [.blockDropped index b.label count]

/-- The entries of one block on one channel. A channel without a pulse idles. -/
def place (cutoff : Nat) (b : Block) (channel : Channel) : Compilation LinkList :=
  match b.pulses.get? channel with
  | none => pure [Entry.padding b.duration]
  | some pulse => do
    let placement ← .ofExcept (pulse.place b.duration b.alignment cutoff)
    let _ ← Compilation.store channel placement.shape
    pure placement.entries

/-- Lengthens the list of every channel by one block. -/
def extend (cutoff : Nat) (b : Block) : ChannelLists → Compilation ChannelLists
  | [] => pure []
  | (channel, list) :: rest => do
    let entries ← place cutoff b channel
    let rest ← extend cutoff b rest
    pure ((channel, list ++ entries) :: rest)

/-- Lengthens the lists by all blocks, the first of which has the number `index`. -/
def extendAll (cutoff : Nat) : Nat → List Block → ChannelLists → Compilation ChannelLists
  | _, [], lists => pure lists
  | index, b :: rest, lists =>
    if b.duration = 0 then do
      .report (dropEvents index b)
      extendAll cutoff (index + 1) rest lists
    else do
      let lists ← extend cutoff b lists
      extendAll cutoff (index + 1) rest lists

def registerAll : List Channel → Compilation Unit
  | [] => pure ()
  | channel :: rest => do
    .register channel
    registerAll rest

def listEvents (lists : ChannelLists) : List Event :=
  lists.map fun (channel, list) => .listBuilt channel list.length (LinkList.totalLength list)

/-- The link lists of a sequence. Its shapes go into the library. -/
def build (cutoff : Nat) (blocks : List Block) : Compilation ChannelLists := do
  registerAll (channels blocks)
  let lists ← extendAll cutoff 0 blocks ((channels blocks).map (·, []))
  .report (listEvents lists)
  pure lists

end Schedule

end PulseSequencer
