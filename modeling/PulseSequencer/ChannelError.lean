-- Why a channel library could not answer or be changed, and the sentence that
-- says so.

namespace PulseSequencer

inductive LogicalKind where
  | qubit
  | measurement
  | marker
deriving DecidableEq

/-- What was looked for under a label. -/
inductive Sought where
  | logical (kind : LogicalKind)
  | anyLogical
  | physical
  | transmitter
deriving DecidableEq

def Sought.name : Sought → String
  | logical .qubit => "qubit"
  | logical .measurement => "measurement"
  | logical .marker => "marker"
  | anyLogical => "logical channel"
  | physical => "physical channel"
  | transmitter => "transmitter"

inductive ChannelError where
  | duplicateLabel (label : String)
  | unknown (sought : Sought) (label : String)
  | unmapped (label : String)
  | reservedName (name : String)
  | unknownLibrary (name : String) (index : Nat)
  | notMarkerOutput (label physical : String)
  | noQuadrature (transmitter : String)
  | danglingOutput (logical physical : String)
  | foreignOutput (transmitter output : String)
deriving DecidableEq

def ChannelError.message : ChannelError → String
  | duplicateLabel label => s!"A channel or instrument labelled '{label}' already exists."
  | unknown sought label => s!"Expected to find a single {sought.name} '{label}' but found none."
  | unmapped label => s!"Logical channel '{label}' is not mapped to a physical channel."
  | reservedName name =>
    s!"Cannot save as '{name}' since that is the name of the working library."
  | unknownLibrary name index => s!"No saved channel library '{name}' at index {index}."
  | notMarkerOutput label physical =>
    s!"Cannot attach marker '{label}' to '{physical}', which is not a marker output."
  | noQuadrature transmitter => s!"Transmitter '{transmitter}' has no quadrature channel."
  | danglingOutput logical physical =>
    s!"Logical channel '{logical}' refers to unknown physical channel '{physical}'."
  | foreignOutput transmitter output =>
    s!"Transmitter '{transmitter}' lists channel '{output}' which it does not own."

end PulseSequencer
