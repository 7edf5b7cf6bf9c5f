-- Which channels a sequence can address, and the outputs they are played on.
import PulseSequencer.ChannelError
import PulseSequencer.Table

namespace PulseSequencer

/-! ## Records -/

inductive OutputKind where
  /-- A pair of outputs for complex samples. -/
  | quadrature
  /-- A digital output. -/
  | marker
deriving DecidableEq

/-- An output of an instrument. -/
structure PhysicalChannel where
  label : String
  instrument : String
  /-- The number of the output among those of its kind. -/
  index : Nat
  kind : OutputKind
  /-- The program that packs what this output is to play. -/
  packer : String
deriving DecidableEq

/-- A channel that sequences address by its label. -/
structure LogicalChannel where
  label : String
  kind : LogicalKind
  /-- The output it is played on, once it has one. -/
  physical : Option String
deriving DecidableEq

/-- An instrument and the labels of its outputs. -/
structure Transmitter where
  label : String
  model : String
  address : String
  triggerSource : String
  channels : List String
deriving DecidableEq

/-! ## The library -/

structure ChannelLibrary where
  logical : Table String LogicalChannel := .empty
  physical : Table String PhysicalChannel := .empty
  transmitters : Table String Transmitter := .empty

namespace ChannelLibrary

def empty : ChannelLibrary := {}

/-- The same records under the same labels, in whatever order they came. -/
def sameAs (g h : ChannelLibrary) : Bool :=
  g.logical.sameContent h.logical && g.physical.sameContent h.physical &&
    g.transmitters.sameContent h.transmitters

def contains (lib : ChannelLibrary) (label : String) : Bool :=
  lib.logical.contains label || lib.physical.contains label || lib.transmitters.contains label

def logicalOfKind (lib : ChannelLibrary) (kind : LogicalKind) (label : String) :
    Except ChannelError LogicalChannel :=
  match (lib.logical.get? label).filter (·.kind = kind) with
  | some channel => .ok channel
  | none => .error (.unknown (.logical kind) label)

def physicalChannel (lib : ChannelLibrary) (label : String) :
    Except ChannelError PhysicalChannel :=
  match lib.physical.get? label with
  | some output => .ok output
  | none => .error (.unknown .physical label)

def transmitter (lib : ChannelLibrary) (label : String) : Except ChannelError Transmitter :=
  match lib.transmitters.get? label with
  | some t => .ok t
  | none => .error (.unknown .transmitter label)

/-- The output that a logical channel is played on. -/
def outputOf (lib : ChannelLibrary) (label : String) : Except ChannelError PhysicalChannel :=
  match lib.logical.get? label with
  | none => .error (.unknown .anyLogical label)
  | some channel =>
    match channel.physical with
    | none => .error (.unmapped label)
    | some physical => lib.physicalChannel physical

/-- The first output of a transmitter that takes complex samples. -/
def firstQuadrature (lib : ChannelLibrary) (label : String) :
    Except ChannelError PhysicalChannel := do
  let t ← lib.transmitter label
  match (t.channels.filterMap lib.physical.get?).find? (·.kind = .quadrature) with
  | some output => .ok output
  | none => .error (.noQuadrature t.label)

/-! ## Listings, in the order of the labels -/

def logicalListing (lib : ChannelLibrary) (kind : LogicalKind) : List LogicalChannel :=
  (lib.logical.values.filter (·.kind = kind)).mergeSort fun a b => a.label ≤ b.label

def physicalListing (lib : ChannelLibrary) : List PhysicalChannel :=
  lib.physical.values.mergeSort fun a b => a.label ≤ b.label

def transmitterListing (lib : ChannelLibrary) : List Transmitter :=
  lib.transmitters.values.mergeSort fun a b => a.label ≤ b.label

/-! ## Validity -/

def checkLogical (lib : ChannelLibrary) (channel : LogicalChannel) : Except ChannelError Unit :=
  match channel.physical with
  | none => .ok ()
  | some physical =>
    if lib.physical.contains physical then .ok ()
    else .error (.danglingOutput channel.label physical)

def checkOutput (lib : ChannelLibrary) (t : Transmitter) (output : String) :
    Except ChannelError Unit :=
  if (lib.physical.get? output).any (·.instrument = t.label) then .ok ()
  else .error (.foreignOutput t.label output)

/-- Every output that is referred to exists, and belongs to the transmitter that lists it. -/
def validate (lib : ChannelLibrary) : Except ChannelError Unit := do
  lib.logical.values.forM lib.checkLogical
  lib.transmitters.values.forM fun t => t.channels.forM (lib.checkOutput t)

end ChannelLibrary

end PulseSequencer
