-- Complex numbers made of two doubles: one sample of a waveform, or one entry
-- of a gate's matrix.
import PulseSequencer.Binary64

namespace PulseSequencer

structure Amplitude where
  re : Binary64
  im : Binary64
deriving DecidableEq, Inhabited

namespace Amplitude

def zero : Amplitude := ⟨.zero, .zero⟩

def one : Amplitude := ⟨.one, .zero⟩

/-- Numeric equality of both parts. -/
def numEq (x y : Amplitude) : Bool := x.re.numEq y.re && x.im.numEq y.im

/-- Equality up to the signs of zeros and the payloads of NaNs. -/
def contentEq (x y : Amplitude) : Bool :=
  x.re.canonical == y.re.canonical && x.im.canonical == y.im.canonical

instance : Add Amplitude := ⟨fun x y => ⟨x.re + y.re, x.im + y.im⟩⟩

/-- Four products, then one difference and one sum, each rounded on its own. -/
instance : Mul Amplitude :=
  ⟨fun x y => ⟨x.re * y.re - x.im * y.im, x.re * y.im + x.im * y.re⟩⟩

def conj (x : Amplitude) : Amplitude := ⟨x.re, -x.im⟩

/-- Both parts times a real factor. -/
def scale (x : Amplitude) (factor : Binary64) : Amplitude := ⟨x.re * factor, x.im * factor⟩

/-- The number of length one at the given angle. -/
def phasor (angle : Binary64) : Amplitude := ⟨angle.cos, angle.sin⟩

def magnitude (x : Amplitude) : Binary64 := x.re.hypot x.im

end Amplitude

end PulseSequencer
