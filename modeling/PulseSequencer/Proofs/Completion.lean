-- When a compilation gets to its end: where keys tell the contents apart, no
-- step fails.
import Mathlib.Data.List.Nodup
import PulseSequencer.Proofs.Upkeep

namespace PulseSequencer

attribute [local irreducible] Waveform.key

/-! ## Contents that keys tell apart -/

/-- Two waveforms with one key have one content, as far as their contents are in `S`. -/
def KeysTellApart (S : List (UInt64 × UInt64) → Prop) : Prop :=
  ∀ v w : Waveform, S v.content → S w.content → v.key = w.key → v.content = w.content

/-- A list of waveforms with different keys can be told apart. -/
theorem keysTellApart_of_nodup {ws : List Waveform} (h : (ws.map Waveform.key).Nodup) :
    KeysTellApart fun x => ∃ w ∈ ws, w.content = x := by
  rintro v w ⟨a, ha, hva⟩ ⟨b, hb, hwb⟩ hkey
  rw [← Waveform.key_congr hva, ← Waveform.key_congr hwb] at hkey
  rw [← hva, ← hwb, List.inj_on_of_nodup_map h ha hb hkey]

namespace WaveformLibrary

/-- Every waveform is stored under its own key, and its content is in `S`. -/
def Within (lib : WaveformLibrary) (S : List (UInt64 × UInt64) → Prop) : Prop :=
  ∀ channel key w, lib.get? channel key = some w → w.key = key ∧ S w.content

variable {S : List (UInt64 × UInt64) → Prop}

theorem within_empty : Within .empty S := by
  intro channel key w h
  cases h

theorem within_register {lib : WaveformLibrary} (channel : Channel) (h : lib.Within S)
    (hzero : S (Waveform.zeros 1).content) : (lib.register channel).Within S := by
  intro other key w hw
  by_cases hnew : channel ∈ lib.channels.keys
  · rw [register_of_mem hnew] at hw
    exact h other key w hw
  · rw [get?_eq] at hw
    by_cases ho : other = channel
    · subst ho
      rw [waveforms_register_self hnew, fresh, Table.get?_insert] at hw
      split at hw
      · rename_i hkey
        cases hw
        exact ⟨hkey.symm, hzero⟩
      · cases hw
    · rw [waveforms_register_of_ne lib ho, ← get?_eq] at hw
      exact h other key w hw

theorem within_extend {lib : WaveformLibrary} {channel : Channel} {w : Waveform}
    (h : lib.Within S) (hw : S w.content) :
    Within ⟨lib.channels.insert channel ((lib.waveforms channel).insert w.key w)⟩ S := by
  intro other key v hv
  rw [get?_eq, waveforms, Table.get?_insert] at hv
  split at hv
  · rename_i ho
    subst ho
    rw [Option.getD_some, Table.get?_insert] at hv
    split at hv
    · rename_i hkey
      cases hv
      exact ⟨hkey.symm, hw⟩
    · rw [← get?_eq] at hv
      exact h other key v hv
  · rw [← waveforms, ← get?_eq] at hv
    exact h other key v hv

/-- An insertion completes, as what is under the key already is the same content. -/
theorem insert_within {lib : WaveformLibrary} (channel : Channel) {w : Waveform}
    (hS : KeysTellApart S) (h : lib.Within S) (hzero : S (Waveform.zeros 1).content)
    (hw : S w.content) :
    (lib.insert channel w).2 = .ok w.key ∧ (lib.insert channel w).1.Within S := by
  have hreg := within_register channel h hzero
  unfold insert
  dsimp only
  split
  · exact ⟨rfl, within_extend hreg hw⟩
  · rename_i stored hstored
    obtain ⟨hkey, hcontent⟩ := hreg channel w.key stored hstored
    rw [if_pos ((Waveform.contentEq_iff _ _).mpr (hS stored w hcontent hw hkey))]
    exact ⟨rfl, hreg⟩

theorem regime_within (hS : KeysTellApart S) (hzero : S (Waveform.zeros 1).content) :
    Regime S (Within · S) fun _ => False where
  empty := within_empty
  register lib channel h := within_register channel h hzero
  insert lib channel w h hw := by
    obtain ⟨hok, hwithin⟩ := insert_within channel hS h hzero hw
    refine ⟨hwithin, ?_⟩
    intro e he
    rw [hok] at he
    cases he

end WaveformLibrary

namespace Program

/-- A sequence by itself can be compiled if keys tell all contents apart. -/
theorem compileOne_completes {S : List (UInt64 × UInt64) → Prop} (hS : KeysTellApart S)
    (hzero : S (Waveform.zeros 1).content) {settings : Settings} {blocks : List Block}
    {lib : WaveformLibrary} (hcontents : ContentsIn S settings blocks) (hlib : lib.Within S) :
    ∃ lists, (compileOne settings blocks lib).answer = .ok lists := by
  have hkeeps := keeps_compileOne (WaveformLibrary.regime_within hS hzero) hcontents
  cases hanswer : (compileOne settings blocks lib).answer with
  | ok lists => exact ⟨lists, rfl⟩
  | error e => exact ((hkeeps lib hlib).2 e hanswer).elim

/-- A compilation succeeds if the sequences agree on their channels and keys tell all contents
apart. -/
theorem compile_completes {S : List (UInt64 × UInt64) → Prop} (hS : KeysTellApart S)
    (hzero : S (Waveform.zeros 1).content) {settings : Settings} {sequences : Sequences}
    {lib : WaveformLibrary} {cs : List Channel} (hcs : channels sequences.blocks = .ok cs)
    (hcontents : ∀ blocks ∈ sequences.blocks, ContentsIn S settings.bounded blocks)
    (hlib : lib.Within S) : ∃ p, (compile settings sequences lib).answer = .ok p := by
  have hkeeps := keeps_compileFrom (WaveformLibrary.regime_within hS hzero) 0 hcontents
  cases hanswer : (compile settings sequences lib).answer with
  | ok p => exact ⟨p, rfl⟩
  | error e =>
    exfalso
    rcases compile_error hanswer with h | ⟨_, _, h⟩
    · rw [hcs] at h
      cases h
    · exact (hkeeps lib hlib).2 e h

end Program

/-! ## A small program

Two sequences on two channels. In the first one `q1` turns its frame by an infinite angle and
then idles. The second one addresses the channels the other way round. -/

namespace Trial

/-- One sample on `q1`, which loses its frame, beside two samples on `q2`; then `q2` alone. -/
def detuned : List Item :=
  [.block { pulses := .ofList [("q1", { samples := .ofReal [.one], frameChange := .infinity }),
      ("q2", { samples := .ofReal [.one, .zero] })] },
    .pulse "q2" { samples := .ofReal [.one, .zero] }]

def tuned : List Item :=
  [.block { pulses := .ofList [("q2", { samples := .ofReal [.one, .zero] }),
      ("q1", { samples := .ofReal [.one] })] }]

def sequences : Sequences := .many [detuned, tuned]

/-- All that comes up in the two: no output, a pulse of two samples, and a NaN. -/
def shapes : List Waveform :=
  [.zeros 1, .ofReal [.one, .zero], .constant (Amplitude.silence .infinity) 1]

theorem keys_nodup : (shapes.map Waveform.key).Nodup := by decide +kernel

theorem contentsIn : ∀ blocks ∈ sequences.blocks,
    Program.ContentsIn (fun x => ∃ w ∈ shapes, w.content = x) ({} : Settings).bounded blocks := by
  unfold Program.ContentsIn
  decide +kernel

theorem channels_ok : Program.channels sequences.blocks = .ok ["q1", "q2"] := by decide +kernel

/-- The two sequences compile into any library that has nothing else. -/
theorem compiles_within {lib : WaveformLibrary}
    (h : lib.Within fun x => ∃ w ∈ shapes, w.content = x) :
    ∃ p, (Program.compile {} sequences lib).answer = .ok p :=
  Program.compile_completes (keysTellApart_of_nodup keys_nodup) ⟨.zeros 1, by simp [shapes], rfl⟩
    channels_ok contentsIn h

/-- So does any other sequence with the same contents, by itself. -/
theorem compileOne_within {blocks : List Block} {lib : WaveformLibrary}
    (hcontents : Program.ContentsIn (fun x => ∃ w ∈ shapes, w.content = x) {} blocks)
    (h : lib.Within fun x => ∃ w ∈ shapes, w.content = x) :
    ∃ lists, (Program.compileOne {} blocks lib).answer = .ok lists :=
  Program.compileOne_completes (keysTellApart_of_nodup keys_nodup)
    ⟨.zeros 1, by simp [shapes], rfl⟩ hcontents h

theorem sequences_compile : ∃ p, (Program.compile {} sequences .empty).answer = .ok p :=
  compiles_within WaveformLibrary.within_empty

theorem first : sequences.blocks[0]? = some (detuned.map Item.toBlock) := rfl

theorem second : sequences.blocks[1]? = some (tuned.map Item.toBlock) := rfl

theorem contentsIn_detuned : Program.ContentsIn (fun x => ∃ w ∈ shapes, w.content = x) {}
    (detuned.map Item.toBlock) :=
  contentsIn _ (List.mem_of_getElem? first)

/-- Both channels, as the first sequence has them. -/
theorem keys_linkLists {lib : WaveformLibrary} {p : Program}
    (h : (Program.compile {} sequences lib).answer = .ok p) : p.linkLists.keys = ["q1", "q2"] := by
  rw [(Program.plays_of_compile h).channels]
  decide +kernel

theorem mem_keys {p : Program} (h : (Program.compile {} sequences .empty).answer = .ok p)
    {channel : Channel} (hc : channel ∈ ["q1", "q2"]) : channel ∈ p.linkLists.keys := by
  rw [keys_linkLists h]
  exact hc

theorem tuned_compiles : ∃ p, (Program.compile {} (.single tuned) .empty).answer = .ok p := by
  have hchannels : Program.channels (Sequences.single tuned).blocks = .ok ["q2", "q1"] := by
    decide +kernel
  refine Program.compile_completes (keysTellApart_of_nodup keys_nodup) (by decide +kernel) hchannels
    ?_ WaveformLibrary.within_empty
  intro blocks hblocks
  rw [Sequences.blocks, List.mem_singleton] at hblocks
  subst hblocks
  exact contentsIn _ (List.mem_of_getElem? second)

/-- A library may have the pulse of two samples already, on a channel of its own. -/
theorem seeded_within (channel : Channel) :
    (WaveformLibrary.empty.insert channel (.ofReal [.one, .zero])).1.Within
      fun x => ∃ w ∈ shapes, w.content = x :=
  (WaveformLibrary.insert_within channel (keysTellApart_of_nodup keys_nodup)
    WaveformLibrary.within_empty ⟨.zeros 1, by simp [shapes], rfl⟩
    ⟨.ofReal [.one, .zero], by simp [shapes], rfl⟩).2

end Trial

end PulseSequencer
