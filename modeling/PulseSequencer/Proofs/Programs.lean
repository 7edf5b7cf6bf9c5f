-- Whole programs. The link lists of a program are the turned scores of its
-- sequences, and its library holds their samples, whatever library the
-- compilation started from.
import Mathlib.Data.List.Basic
import PulseSequencer.Proofs.Turning
import PulseSequencer.Program

namespace PulseSequencer

open Compilation

attribute [local irreducible] Waveform.key

namespace Program

/-! ## The channels -/

theorem mismatch?_eq_none {first later : List Channel} (h : mismatch? first later = none)
    (c : Channel) : c ∈ later ↔ c ∈ first := by
  unfold mismatch? at h
  split at h
  · cases h
  · rename_i hmissing
    rw [Option.map_eq_none_iff] at h
    rw [List.find?_eq_none] at hmissing h
    constructor
    · intro hc
      simpa using h c hc
    · intro hc
      simpa using hmissing c hc

theorem findMismatch_eq_none {first : List Channel} {index : Nat} {rest : List (List Channel)}
    (h : findMismatch first index rest = none) :
    ∀ later ∈ rest, ∀ c, c ∈ later ↔ c ∈ first := by
  induction rest generalizing index with
  | nil => simp
  | cons later rest ih =>
    unfold findMismatch at h
    split at h
    · cases h
    · rename_i hnone
      intro other hother
      rcases List.mem_cons.mp hother with rfl | hother
      · exact mismatch?_eq_none hnone
      · exact ih h other hother

/-- The channels of the first sequence. -/
def firstChannels (sequences : List (List Block)) : List Channel :=
  (sequences.head?.map Schedule.channels).getD []

theorem firstChannels_nodup (sequences : List (List Block)) : (firstChannels sequences).Nodup := by
  unfold firstChannels
  cases sequences with
  | nil => exact List.nodup_nil
  | cons first rest => exact Schedule.firstUses_nodup _

/-- A program has the channels of its first sequence, and every sequence addresses them all. -/
theorem channels_ok {sequences : List (List Block)} {cs : List Channel}
    (h : channels sequences = .ok cs) :
    cs = firstChannels sequences ∧
      ∀ blocks ∈ sequences, ∀ c, c ∈ Schedule.channels blocks ↔ c ∈ cs := by
  unfold channels at h
  dsimp only at h
  split at h
  · cases h
  · cases sequences with
    | nil =>
      cases h
      exact ⟨rfl, by simp⟩
    | cons first rest =>
      simp only [List.map_cons] at h
      split at h
      · cases h
      · rename_i hnone
        cases h
        refine ⟨rfl, ?_⟩
        intro blocks hblocks c
        rcases List.mem_cons.mp hblocks with rfl | hblocks
        · rfl
        · exact findMismatch_eq_none hnone _ (List.mem_map_of_mem hblocks) c

/-! ## The sequences -/

/-- What a channel plays for a sequence. -/
def played (settings : Settings) (channel : Channel) (blocks : List Block) : List Cue :=
  Frame.turnedScore settings.detectConstants .zero
    (Schedule.score settings.paddingCutoff channel blocks)

/-- The link list of a channel for a sequence. -/
def playedList (settings : Settings) (channel : Channel) (blocks : List Block) : LinkList :=
  (played settings channel blocks).map Cue.entry

/-- The link lists of all channels for a sequence. -/
def playedLists (settings : Settings) (blocks : List Block) : ChannelLists :=
  (Schedule.channels blocks).map fun c => (c, playedList settings c blocks)

/-- The samples of every cue can be found under the key of its entry. -/
def Stocked (lib : WaveformLibrary) (settings : Settings) (blocks : List Block) : Prop :=
  ∀ c ∈ Schedule.channels blocks, ∀ q ∈ played settings c blocks, lib.Holds c q.entry.key q.shape

theorem grows_compileOne (settings : Settings) (blocks : List Block) :
    Grows (compileOne settings blocks) :=
  grows_bind (grows_apart _) fun _ => Frame.grows_applyAll _ _ _

theorem grows_compileFrom (settings : Settings) (index : Nat) (sequences : List (List Block)) :
    Grows (compileFrom settings index sequences) := by
  induction sequences generalizing index with
  | nil => exact grows_pure _
  | cons blocks rest ih =>
    exact grows_bind (grows_compileOne settings blocks) fun _ =>
      grows_bind (grows_report _) fun _ => grows_bind (ih _) fun _ => grows_pure _

theorem compileOne_yields {settings : Settings} {blocks : List Block} {lists : ChannelLists}
    {lib lib' : WaveformLibrary} (h : (compileOne settings blocks).Yields lib lists lib') :
    lists = playedLists settings blocks ∧ Stocked lib' settings blocks := by
  simp only [compileOne, yields_bind_iff] at h
  obtain ⟨⟨built, sources⟩, middle, hapart, happly⟩ := h
  obtain ⟨hbuild, rfl⟩ := yields_apart_iff.mp hapart
  have hlists := Schedule.build_lists hbuild
  subst hlists
  exact Frame.applyAll_yields (Schedule.build_holds hbuild) happly

theorem compileFrom_yields {settings : Settings} {index : Nat} {sequences : List (List Block)}
    {compiled : List ChannelLists} {lib lib' : WaveformLibrary}
    (h : (compileFrom settings index sequences).Yields lib compiled lib') :
    compiled = sequences.map (playedLists settings) ∧
      ∀ blocks ∈ sequences, Stocked lib' settings blocks := by
  induction sequences generalizing index compiled lib with
  | nil =>
    simp only [compileFrom, yields_pure_iff] at h
    obtain ⟨rfl, rfl⟩ := h
    exact ⟨rfl, by simp⟩
  | cons first rest ih =>
    simp only [compileFrom, yields_bind_iff, yields_report_iff, yields_pure_iff] at h
    obtain ⟨lists, middle, hfirst, _, _, rfl, compiled', after, hrest, rfl, rfl⟩ := h
    obtain ⟨rfl, hstocked⟩ := compileOne_yields hfirst
    obtain ⟨rfl, hothers⟩ := ih hrest
    refine ⟨rfl, ?_⟩
    intro blocks hblocks
    rcases List.mem_cons.mp hblocks with rfl | hblocks
    · intro c hc q hq
      exact (hrest.growsTo (grows_compileFrom settings _ rest)).holds (hstocked c hc q hq)
    · exact hothers blocks hblocks

/-! ## The program -/

/-- A program that plays the scores of its sequences. -/
structure Plays (settings : Settings) (sequences : List (List Block)) (p : Program) : Prop where
  channels : p.linkLists.keys = firstChannels sequences
  addressed : ∀ blocks ∈ sequences, ∀ c, c ∈ Schedule.channels blocks ↔ c ∈ p.linkLists.keys
  lists : ∀ c ∈ p.linkLists.keys,
    p.linkLists.get? c = some (sequences.map (playedList settings c))
  stocked : ∀ blocks ∈ sequences, Stocked p.waveforms settings blocks

theorem entries_gather (settings : Settings) {sequences : List (List Block)} {cs : List Channel}
    (hcs : cs.Nodup)
    (haddressed : ∀ blocks ∈ sequences, ∀ c, c ∈ Schedule.channels blocks ↔ c ∈ cs) :
    (gather cs (sequences.map (playedLists settings))).entries =
      cs.map fun c => (c, sequences.map (playedList settings c)) := by
  have hlists : ∀ c ∈ cs, (sequences.map (playedLists settings)).filterMap (·.lookup c) =
      sequences.map (playedList settings c) := by
    intro c hc
    rw [List.filterMap_map, ← List.filterMap_eq_map]
    apply List.filterMap_congr
    intro blocks hblocks
    exact Table.lookup_map_graph _ _ ((haddressed blocks hblocks c).mpr hc)
  unfold gather
  rw [List.map_congr_left fun c hc => congrArg (Prod.mk c) (hlists c hc)]
  apply Table.entries_ofList
  simpa [Function.comp_def] using hcs

/-- What a compilation that succeeds went through. -/
theorem compile_ok {settings : Settings} {sequences : Sequences} {lib : WaveformLibrary}
    {p : Program} (h : (compile settings sequences lib).answer = .ok p) :
    ∃ cs compiled, channels sequences.blocks = .ok cs ∧
      (compileFrom settings.bounded 0 sequences.blocks).Yields lib compiled p.waveforms ∧
      p.linkLists = gather cs compiled := by
  have hrun := yields_of_ok h
  simp only [compile, yields_bind_iff, yields_report_iff, yields_ofExcept_iff, yields_current_iff,
    yields_pure_iff] at hrun
  obtain ⟨_, _, rfl, cs, _, ⟨hcs, rfl⟩, compiled, _, hfrom, _, _, ⟨rfl, rfl⟩, _, _, rfl, rfl, _⟩ :=
    hrun
  exact ⟨cs, compiled, hcs, hfrom, rfl⟩

/-- A compilation that succeeds plays the scores, with the settings in bounds. -/
theorem plays_of_compile {settings : Settings} {sequences : Sequences} {lib : WaveformLibrary}
    {p : Program} (h : (compile settings sequences lib).answer = .ok p) :
    Plays settings.bounded sequences.blocks p := by
  obtain ⟨cs, compiled, hcs, hfrom, hgather⟩ := compile_ok h
  obtain ⟨rfl, haddressed⟩ := channels_ok hcs
  obtain ⟨rfl, hstocked⟩ := compileFrom_yields hfrom
  have hentries := entries_gather settings.bounded (firstChannels_nodup _) haddressed
  rw [← hgather] at hentries
  have hkeys : p.linkLists.keys = firstChannels sequences.blocks := by
    rw [Table.keys, hentries, List.map_map, Function.comp_def, List.map_id']
  refine ⟨hkeys, ?_, ?_, hstocked⟩
  · intro blocks hblocks c
    rw [hkeys]
    exact haddressed blocks hblocks c
  · intro c hc
    rw [hkeys] at hc
    rw [Table.get?, hentries]
    exact Table.lookup_map_graph _ _ hc

end Program

end PulseSequencer
