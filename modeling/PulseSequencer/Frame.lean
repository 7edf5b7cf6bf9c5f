-- Turning the entries of a channel into its frame. The frame of an entry is the
-- sum of the frame changes before it.
import PulseSequencer.Schedule

namespace PulseSequencer

namespace Frame

/-- What an entry is to play, before it is turned: whether one sample is enough for it, and
the samples. -/
structure Source where
  isTimeAmplitude : Bool
  shape : Waveform

/-- A constant shape shrinks to one sample if the entry asks for it, or if constants are
looked for. An entry that asks for it and has another shape is an error. -/
def collapse (detect : Bool) (channel : Channel) (index : Nat) (e : Entry) (shape : Waveform) :
    Except CompileError Source :=
  if e.isTimeAmplitude && !shape.isConstant then .error (.notConstant channel index)
  else if shape.isConstant && (e.isTimeAmplitude || detect) then .ok ⟨true, shape.take 1⟩
  else .ok ⟨e.isTimeAmplitude, shape⟩

/-- The source of an entry, read from the shapes that were stored for it. -/
def source (detect : Bool) (sources : WaveformLibrary) (channel : Channel) (index : Nat)
    (e : Entry) : Except CompileError Source := do
  let shape ← sources.require channel e.sourceKey
  collapse detect channel index e shape

/-- What a failure reports, beside being returned. -/
def failureEvents (sources : WaveformLibrary) (e : Entry) : CompileError → List Event
  | .notConstant channel index =>
    let length := ((sources.get? channel e.sourceKey).map Waveform.length).getD 0
    [.entryNotConstant index channel length]
  | _ => []

/-- What the pass leaves behind: the list and the library as far as it came, and on success
the frame at the end. -/
structure Result where
  list : LinkList
  library : WaveformLibrary
  events : List Event
  answer : Except CompileError Binary64

/-- The rest of the pass, with one finished entry in front. -/
def Result.cons (e : Entry) (r : Result) : Result := { r with list := e :: r.list }

/-- Turns the entries from number `index` on, starting in `frame`. The first entry that fails
stops the pass, and all entries after it stay as they are. -/
def turn (detect : Bool) (sources : WaveformLibrary) (channel : Channel) :
    Nat → Binary64 → LinkList → WaveformLibrary → Result
  | _, frame, [], library => ⟨[], library, [], .ok frame⟩
  | index, frame, e :: rest, library =>
    match source detect sources channel index e with
    | .error err => ⟨e :: rest, library, failureEvents sources e err, .error err⟩
    | .ok src =>
      let marked := { e with isTimeAmplitude := src.isTimeAmplitude }
      match library.insert channel (src.shape.rotate (e.phase + frame)) with
      | (library, .error err) => ⟨marked :: rest, library, [], .error err⟩
      | (library, .ok key) =>
        (turn detect sources channel (index + 1) (frame + e.frameChange) rest library).cons
          { marked with key }

/-- Turns a whole list, starting in frame zero. -/
def apply (detect : Bool) (sources : WaveformLibrary) (channel : Channel) (list : LinkList)
    (library : WaveformLibrary) : Result :=
  let r := turn detect sources channel 0 .zero list (library.register channel)
  match r.answer with
  | .error _ => r
  | .ok frame =>
    { r with events := r.events ++ [.frameReached channel frame (r.library.count channel)] }

/-- The pass as a step of the compiler, which has no use for a list that is half done. -/
def step (detect : Bool) (sources : WaveformLibrary) (channel : Channel) (list : LinkList) :
    Compilation LinkList := fun library =>
  let r := apply detect sources channel list library
  ⟨r.library, r.events, r.answer.map fun _ => r.list⟩

/-- The pass over the lists of all channels, one after another. -/
def applyAll (detect : Bool) (sources : WaveformLibrary) :
    ChannelLists → Compilation ChannelLists
  | [] => pure []
  | (channel, list) :: rest => do
    let list ← step detect sources channel list
    let rest ← applyAll detect sources rest
    pure ((channel, list) :: rest)

end Frame

end PulseSequencer
