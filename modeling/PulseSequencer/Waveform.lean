-- Waveforms: lists of samples, and the key that stands for their content.
import PulseSequencer.Amplitude
import PulseSequencer.Digest

namespace PulseSequencer

structure Waveform where
  samples : List Amplitude
deriving DecidableEq

namespace Waveform

def length (w : Waveform) : Nat := w.samples.length

def isEmpty (w : Waveform) : Bool := w.samples.isEmpty

/-! ## Building waveforms -/

def empty : Waveform := ⟨[]⟩

def constant (value : Amplitude) (length : Nat) : Waveform := ⟨.replicate length value⟩

def zeros (length : Nat) : Waveform := constant .zero length

/-- Real samples, with no imaginary part. -/
def ofReal (values : List Binary64) : Waveform := ⟨values.map (⟨·, .zero⟩)⟩

/-- Zeros in front and behind. -/
def pad (w : Waveform) (before after : Nat) : Waveform :=
  ⟨.replicate before .zero ++ w.samples ++ .replicate after .zero⟩

/-- The first samples, at most `length` of them. -/
def take (w : Waveform) (length : Nat) : Waveform := ⟨w.samples.take length⟩

/-- Every sample turned by `angle`. An angle of zero, of either sign, changes no bit. -/
def rotate (w : Waveform) (angle : Binary64) : Waveform :=
  if angle.isZero then w
  else
    let turn := Amplitude.phasor angle
    ⟨w.samples.map (· * turn)⟩

@[simp] theorem length_pad (w : Waveform) (before after : Nat) :
    (w.pad before after).length = before + w.length + after := by
  simp [pad, length, Nat.add_assoc]

@[simp] theorem length_take (w : Waveform) (n : Nat) : (w.take n).length = min n w.length := by
  simp [take, length]

@[simp] theorem length_rotate (w : Waveform) (angle : Binary64) :
    (w.rotate angle).length = w.length := by
  unfold rotate
  split <;> simp [length]

/-! ## Comparing waveforms -/

/-- Whether all samples equal the first one as numbers. The empty waveform has no first
sample and is not constant; a single sample is, even a NaN. -/
def isConstant (w : Waveform) : Bool :=
  match w.samples with
  | [] => false
  | first :: rest => rest.all (·.numEq first)

/-- Numeric equality, sample by sample. -/
def numEq (v w : Waveform) : Bool := v.samples.isEqv w.samples Amplitude.numEq

/-- The same length, and samples equal up to signs of zeros and payloads of NaNs. -/
def contentEq (v w : Waveform) : Bool := v.samples.isEqv w.samples Amplitude.contentEq

/-! ## Keys -/

/-- The eight bytes of a word, least significant first. -/
def wordBytes (w : UInt64) : List UInt8 :=
  [w.toUInt8, (w >>> 8).toUInt8, (w >>> 16).toUInt8, (w >>> 24).toUInt8,
    (w >>> 32).toUInt8, (w >>> 40).toUInt8, (w >>> 48).toUInt8, (w >>> 56).toUInt8]

/-- The bytes that the key is a digest of: both parts of each sample, in canonical form. -/
def encoding (w : Waveform) : List UInt8 :=
  w.samples.flatMap fun x => wordBytes x.re.canonical ++ wordBytes x.im.canonical

/-- The key under which the content is stored. -/
def key (w : Waveform) : Digest := .ofBytes w.encoding

end Waveform

end PulseSequencer
