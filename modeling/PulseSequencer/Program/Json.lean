-- The JSON text of a program. Source keys are left out.
import PulseSequencer.Program
import PulseSequencer.Text.Json

namespace PulseSequencer

open Text

def Amplitude.toJson (x : Amplitude) : Json := .array [.ofDouble x.re, .ofDouble x.im]

def Waveform.toJson (w : Waveform) : Json := .array (w.samples.map Amplitude.toJson)

def Entry.toJson (e : Entry) : Json :=
  .object [("waveform_key", .string e.key.hex), ("length", .nat e.length),
    ("repeat", .nat e.repetitions), ("is_time_amplitude", .bool e.isTimeAmplitude),
    ("has_trigger", .bool e.hasTrigger), ("trigger_delay_1", .nat e.triggerDelay1),
    ("trigger_delay_2", .nat e.triggerDelay2), ("phase", .ofDouble e.phase),
    ("frame_change", .ofDouble e.frameChange)]

def LinkList.toJson (l : LinkList) : Json := .array (l.map Entry.toJson)

def WaveformLibrary.toJson (lib : WaveformLibrary) : Json :=
  .object <| lib.channels.entries.map fun (channel, waveforms) =>
    (channel, .object (waveforms.entries.map fun (key, w) => (key.hex, w.toJson)))

namespace Program

def toJson (p : Program) : Json :=
  .object [
    ("link_lists", .object <| p.linkLists.entries.map fun (channel, lists) =>
      (channel, .array (lists.map LinkList.toJson))),
    ("waveforms", p.waveforms.toJson)]

def jsonText (p : Program) : String := p.toJson.render

end Program

end PulseSequencer
