-- Programs: several sequences over one set of channels, compiled into one
-- waveform library.
import PulseSequencer.Frame

namespace PulseSequencer

/-- The input of a program: one sequence, or several. -/
inductive Sequences where
  | single (items : List Item)
  | many (sequences : List (List Item))

def Sequences.blocks : Sequences → List (List Block)
  | single items => [items.map Item.toBlock]
  | many sequences => sequences.map (·.map Item.toBlock)

/-- For every channel one link list per sequence, and the waveforms they refer to. -/
structure Program where
  linkLists : Table Channel (List LinkList)
  waveforms : WaveformLibrary

namespace Program

/-- The number of sequences, as its first channel has it. -/
def sequenceCount (p : Program) : Nat := (p.linkLists.values.head?.map List.length).getD 0

/-! ## The channels of a program -/

/-- The first difference of a later sequence's channels from those of the first sequence. -/
def mismatch? (first later : List Channel) : Option (Channel × ChannelMismatch) :=
  match first.find? (!later.contains ·) with
  | some channel => some (channel, .missing)
  | none => (later.find? (!first.contains ·)).map (·, .unexpected)

/-- The first mismatch among the sequences from number `index` on. -/
def findMismatch (first : List Channel) : Nat → List (List Channel) → Option CompileError
  | _, [] => none
  | index, later :: rest =>
    match mismatch? first later with
    | some (channel, mismatch) => some (.channelSetMismatch index channel mismatch)
    | none => findMismatch first (index + 1) rest

/-- The channels of a program, if every sequence addresses some channel and all address the
same ones. -/
def channels (sequences : List (List Block)) : Except CompileError (List Channel) :=
  let sets := sequences.map Schedule.channels
  match sets.findIdx? List.isEmpty with
  | some index => .error (.emptyChannelSet index)
  | none =>
    match sets with
    | [] => .ok []
    | first :: rest =>
      match findMismatch first 1 rest with
      | some err => .error err
      | none => .ok first

/-! ## Compiling -/

/-- One sequence. Only what is played goes into the library; the shapes before turning live in
a library of their own. -/
def compileOne (settings : Settings) (blocks : List Block) : Compilation ChannelLists := do
  let (lists, sources) ← .apart (Schedule.build settings.paddingCutoff blocks)
  Frame.applyAll settings.detectConstants sources lists

/-- The sequences from number `index` on. -/
def compileFrom (settings : Settings) : Nat → List (List Block) → Compilation (List ChannelLists)
  | _, [] => pure []
  | index, blocks :: rest => do
    let lists ← compileOne settings blocks
    .report [.sequenceCompiled index blocks.length]
    let rest ← compileFrom settings (index + 1) rest
    pure (lists :: rest)

/-- For each channel its lists, one per sequence. -/
def gather (channels : List Channel) (compiled : List ChannelLists) :
    Table Channel (List LinkList) :=
  .ofList (channels.map fun channel => (channel, compiled.filterMap (·.lookup channel)))

/-- A whole program. Settings are brought into bounds first, and nothing is compiled unless
all sequences address the same channels. -/
def compile (settings : Settings) (sequences : Sequences) : Compilation Program := do
  .report (settings.changes.map .settingChanged)
  let sequences := sequences.blocks
  let channels ← .ofExcept (channels sequences)
  let compiled ← compileFrom settings.bounded 0 sequences
  let waveforms ← .current
  .report [.programCompiled sequences.length channels.length waveforms.totalCount]
  pure ⟨gather channels compiled, waveforms⟩

end Program

end PulseSequencer
