-- Steps of the compiler. A step works on a waveform library, reports events, and
-- answers or fails; what it stored before a failure stays stored.
import PulseSequencer.Event
import PulseSequencer.WaveformLibrary

namespace PulseSequencer

/-- What a step leaves behind. -/
structure Outcome (α : Type) where
  library : WaveformLibrary
  events : List Event
  answer : Except CompileError α

/-- A step of the compiler, waiting for the library it works on. -/
def Compilation (α : Type) : Type := WaveformLibrary → Outcome α

namespace Compilation

variable {α β : Type}

/-- The next step works on the library of the one before, and only if that one answered. -/
instance : Monad Compilation where
  pure a := fun library => ⟨library, [], .ok a⟩
  bind step next := fun library =>
    let first := step library
    match first.answer with
    | .error e => ⟨first.library, first.events, .error e⟩
    | .ok a =>
      let second := next a first.library
      ⟨second.library, first.events ++ second.events, second.answer⟩

theorem pure_apply (a : α) (library : WaveformLibrary) :
    (pure a : Compilation α) library = ⟨library, [], .ok a⟩ := rfl

theorem bind_apply (step : Compilation α) (next : α → Compilation β) (library : WaveformLibrary) :
    (step >>= next) library =
      match (step library).answer with
      | .error e => ⟨(step library).library, (step library).events, .error e⟩
      | .ok a =>
        ⟨(next a (step library).library).library,
          (step library).events ++ (next a (step library).library).events,
          (next a (step library).library).answer⟩ := rfl

def report (events : List Event) : Compilation Unit := fun library => ⟨library, events, .ok ()⟩

/-- An answer that does not depend on the library. -/
def ofExcept (answer : Except CompileError α) : Compilation α := fun library =>
  ⟨library, [], answer⟩

/-- Reads the library as it stands. -/
def current : Compilation WaveformLibrary := fun library => ⟨library, [], .ok library⟩

def register (channel : Channel) : Compilation Unit := fun library =>
  ⟨library.register channel, [], .ok ()⟩

def store (channel : Channel) (w : Waveform) : Compilation Digest := fun library =>
  let (library, answer) := library.insert channel w
  ⟨library, [], answer⟩

/-- Runs a step on an empty library of its own and answers with that library too. The current
library is left alone. -/
def apart (step : Compilation α) : Compilation (α × WaveformLibrary) := fun library =>
  let scratch := step .empty
  ⟨library, scratch.events, scratch.answer.map (·, scratch.library)⟩

end Compilation

end PulseSequencer
