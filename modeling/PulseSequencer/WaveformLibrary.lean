-- The waveforms of each channel, stored once under the key of their content.
import PulseSequencer.Entry

namespace PulseSequencer

structure WaveformLibrary where
  channels : Table Channel (Table Digest Waveform)

namespace WaveformLibrary

def empty : WaveformLibrary := ⟨.empty⟩

instance : EmptyCollection WaveformLibrary := ⟨empty⟩

instance : Inhabited WaveformLibrary := ⟨empty⟩

/-! ## Questions -/

def isEmpty (lib : WaveformLibrary) : Bool := lib.channels.isEmpty

def contains (lib : WaveformLibrary) (channel : Channel) : Bool := lib.channels.contains channel

/-- The waveforms of a channel; an unknown channel has none. -/
def waveforms (lib : WaveformLibrary) (channel : Channel) : Table Digest Waveform :=
  (lib.channels.get? channel).getD .empty

def get? (lib : WaveformLibrary) (channel : Channel) (key : Digest) : Option Waveform :=
  (lib.channels.get? channel).bind (·.get? key)

def require (lib : WaveformLibrary) (channel : Channel) (key : Digest) :
    Except CompileError Waveform :=
  match lib.get? channel key with
  | some w => .ok w
  | none => .error (.unknownWaveform channel key)

def count (lib : WaveformLibrary) (channel : Channel) : Nat := (lib.waveforms channel).size

def totalCount (lib : WaveformLibrary) : Nat :=
  (lib.channels.values.map Table.size).foldr (· + ·) 0

/-! ## Changes -/

/-- What a channel starts with. -/
def fresh : Table Digest Waveform := Table.empty.insert zeroKey (.zeros 1)

/-- Registers a channel, and answers whether it is a new one. -/
def enroll (lib : WaveformLibrary) (channel : Channel) : WaveformLibrary × Bool :=
  if lib.contains channel then (lib, false) else (⟨lib.channels.insert channel fresh⟩, true)

def register (lib : WaveformLibrary) (channel : Channel) : WaveformLibrary :=
  (lib.enroll channel).1

/-- Stores a waveform on a channel, which is registered first, and answers with its key.
Content that is already there is not stored again; other content under the same key is an
error. -/
def insert (lib : WaveformLibrary) (channel : Channel) (w : Waveform) :
    WaveformLibrary × Except CompileError Digest :=
  let lib := lib.register channel
  match lib.get? channel w.key with
  | none => (⟨lib.channels.insert channel ((lib.waveforms channel).insert w.key w)⟩, .ok w.key)
  | some stored =>
    if stored.contentEq w then (lib, .ok w.key) else (lib, .error (.keyCollision channel w.key))

/-! ## What a change leaves -/

theorem register_eq (lib : WaveformLibrary) (channel : Channel) :
    lib.register channel =
      if lib.contains channel then lib else ⟨lib.channels.insert channel fresh⟩ := by
  unfold register enroll
  split <;> rfl

theorem keys_register (lib : WaveformLibrary) (channel : Channel) :
    (lib.register channel).channels.keys =
      if channel ∈ lib.channels.keys then lib.channels.keys
      else lib.channels.keys ++ [channel] := by
  rw [register_eq, contains]
  split
  · rename_i h
    rw [if_pos ((Table.contains_iff _ _).mp h)]
  · rw [Table.keys_insert]

theorem contains_register (lib : WaveformLibrary) (channel : Channel) :
    (lib.register channel).contains channel = true := by
  rw [contains, Table.contains_iff, keys_register]
  split <;> simp [*]

/-- Whatever else happens, the answer of an insertion is the key of the content. -/
theorem insert_answer (lib : WaveformLibrary) (channel : Channel) (w : Waveform) :
    (lib.insert channel w).2 = .ok w.key ∨
      (lib.insert channel w).2 = .error (.keyCollision channel w.key) := by
  unfold insert
  dsimp only
  split
  · exact Or.inl rfl
  · split
    · exact Or.inl rfl
    · exact Or.inr rfl

end WaveformLibrary

end PulseSequencer
