-- Changes to a channel library, staged in a transaction.
import PulseSequencer.ChannelLibrary
import PulseSequencer.Event

namespace PulseSequencer

/-- A change to a library, which may fail. The library is whatever the change has made of it
by then. -/
abbrev Edit := ExceptT ChannelError (StateM ChannelLibrary)

namespace Edit

/-- Asks the library as it stands. -/
def ask {α : Type} (question : ChannelLibrary → Except ChannelError α) : Edit α := do
  liftExcept (question (← get))

/-- A label may stand only once in the whole library. -/
def requireFree (label : String) : Edit Unit := do
  if (← get).contains label then throw (.duplicateLabel label)

/-! ## Transmitters -/

inductive Model where
  | aps2
  | aps

def Model.name : Model → String
  | aps2 => "APS2"
  | aps => "APS"

def Model.packer : Model → String
  | aps2 => "APS2Pattern"
  | aps => "APSPattern"

/-- The endings of the output labels, with the number and kind of each output. -/
def Model.outputs : Model → List (String × Nat × OutputKind)
  | aps2 => [("-1", 0, .quadrature), ("-m1", 0, .marker), ("-m2", 1, .marker),
      ("-m3", 2, .marker), ("-m4", 3, .marker)]
  | aps => [("-12", 0, .quadrature), ("-34", 1, .quadrature), ("-1m1", 0, .marker),
      ("-2m1", 1, .marker), ("-3m1", 2, .marker), ("-4m1", 3, .marker)]

/-- The outputs of a new transmitter. -/
def Model.channels (model : Model) (label : String) : List PhysicalChannel :=
  model.outputs.map fun (ending, index, kind) =>
    ⟨label ++ ending, label, index, kind, model.packer⟩

/-- A transmitter with all its outputs. The label of the transmitter is checked first, then
those of the outputs in order, and nothing is added before all are free. -/
def installTransmitter (model : Model) (label address : String) : Edit Transmitter := do
  let outputs := model.channels label
  let t : Transmitter := ⟨label, model.name, address, "external", outputs.map (·.label)⟩
  requireFree label
  outputs.forM (requireFree ·.label)
  modify fun lib => { lib with
    physical := outputs.foldl (fun table o => table.insert o.label o) lib.physical
    transmitters := lib.transmitters.insert label t }
  pure t

/-! ## Logical channels -/

def putLogical (channel : LogicalChannel) : Edit LogicalChannel := do
  modify fun lib => { lib with logical := lib.logical.insert channel.label channel }
  pure channel

def addQubit (label : String) : Edit LogicalChannel := do
  requireFree label
  putLogical ⟨label, .qubit, none⟩

/-- A marker is played on a marker output. -/
def addMarker (label physical : String) : Edit LogicalChannel := do
  let output ← ask (·.physicalChannel physical)
  if output.kind ≠ .marker then throw (.notMarkerOutput label physical)
  requireFree label
  putLogical ⟨label, .marker, some physical⟩

/-- Plays a qubit on the first quadrature output of a transmitter. -/
def driveQubit (qubit transmitter : String) : Edit Unit := do
  let channel ← ask (·.logicalOfKind .qubit qubit)
  let output ← ask (·.firstQuadrature transmitter)
  modify fun lib =>
    { lib with logical := lib.logical.insert qubit { channel with physical := some output.label } }

def measurementLabel (qubit : String) : String := "M-" ++ qubit

/-- A measurement channel may be set anew; any other use of its label is in the way. -/
def requireMeasurable (label : String) : Edit Unit := do
  match (← get).logical.get? label with
  | none => requireFree label
  | some channel => if channel.kind ≠ .measurement then throw (.duplicateLabel label)

/-- Plays the measurement of a qubit on the first quadrature output of a transmitter. -/
def measureQubit (qubit transmitter : String) : Edit LogicalChannel := do
  let _ ← ask (·.logicalOfKind .qubit qubit)
  let output ← ask (·.firstQuadrature transmitter)
  requireMeasurable (measurementLabel qubit)
  putLogical ⟨measurementLabel qubit, .measurement, some output.label⟩

end Edit

/-! ## Transactions -/

/-- Changes under way, and the library they started from. -/
structure Transaction where
  base : ChannelLibrary
  working : ChannelLibrary

namespace Transaction

def start (lib : ChannelLibrary) : Transaction := ⟨lib, lib⟩

/-- Makes one more change. -/
def apply {α : Type} (t : Transaction) (edit : Edit α) : Transaction × Except ChannelError α :=
  let (answer, working) := edit.run.run t.working
  ({ t with working }, answer)

/-- The library with all changes, if they leave it valid. -/
def commit (t : Transaction) : Except ChannelError (ChannelLibrary × Event) := do
  t.working.validate
  let event := .channelsCommitted t.working.logical.size t.working.physical.size
    t.working.transmitters.size
  pure (t.working, event)

/-- The library without the changes. -/
def rollback (t : Transaction) : ChannelLibrary := t.base

end Transaction

end PulseSequencer
