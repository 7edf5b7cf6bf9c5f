-- Channel libraries saved under names. Saving again under a name adds a version.
import PulseSequencer.ChannelLibrary

namespace PulseSequencer

/-- The versions of each name, oldest first. -/
structure Archive where
  saved : Table String (List ChannelLibrary) := .empty

namespace Archive

/-- The library being edited has this name, so nothing is saved under it. -/
def workingName : String := "working"

def empty : Archive := {}

def versions (a : Archive) (name : String) : List ChannelLibrary := (a.saved.get? name).getD []

def names (a : Archive) : List String := a.saved.keys

def save (a : Archive) (name : String) (lib : ChannelLibrary) : Except ChannelError Archive :=
  if name = workingName then .error (.reservedName name)
  else .ok ⟨a.saved.insert name (a.versions name ++ [lib])⟩

/-- Version 1 is the newest, 2 the one before it, and so on. -/
def load (a : Archive) (name : String) (index : Nat) : Except ChannelError ChannelLibrary :=
  match index with
  | 0 => .error (.unknownLibrary name index)
  | age + 1 =>
    match (a.versions name).reverse[age]? with
    | some lib => .ok lib
    | none => .error (.unknownLibrary name index)

/-- Forgets all versions of a name, and tells whether there were any. -/
def forget (a : Archive) (name : String) : Archive × Bool :=
  (⟨a.saved.erase name⟩, a.saved.contains name)

end Archive

end PulseSequencer
