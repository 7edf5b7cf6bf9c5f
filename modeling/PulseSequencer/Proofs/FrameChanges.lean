-- Where the frame changes of a sequence go. Each pulse of a block that takes
-- time has an entry that carries its frame change, and what goes missing with
-- the other blocks is reported, so none is lost without a word.
import Mathlib.Algebra.BigOperators.Group.List.Basic
import PulseSequencer.Proofs.Elision
import PulseSequencer.Proofs.Placing

namespace PulseSequencer

open Compilation

attribute [local irreducible] Waveform.key

/-! ## Entries that turn the frame -/

def Pulse.turnsFrame (p : Pulse) : Bool := !p.frameChange.numEq .zero

def Entry.turnsFrame (e : Entry) : Bool := !e.frameChange.numEq .zero

/-- Silence turns nothing. -/
def LinkList.StillInSilence (list : LinkList) : Prop :=
  ∀ e ∈ list, e.isTimeAmplitude = true → e.frameChange = .zero

/-- The frame changes of the pulses in a list that was built. There a sample is held for silence,
and for nothing else. -/
def LinkList.frameChanges (list : LinkList) : List Binary64 :=
  (list.filter (!·.isTimeAmplitude)).map Entry.frameChange

theorem LinkList.StillInSilence.countP {list : LinkList} (h : LinkList.StillInSilence list) :
    list.countP Entry.turnsFrame = (LinkList.frameChanges list).countP (!·.numEq .zero) := by
  rw [LinkList.frameChanges, List.countP_map, List.countP_filter]
  apply List.countP_congr
  intro e he
  cases hflag : e.isTimeAmplitude with
  | true =>
    have hzero : Binary64.zero.numEq .zero = true := by decide
    simp [Entry.turnsFrame, h e he hflag, hzero]
  | false => simp [Entry.turnsFrame]

/-- However a pulse is placed, one entry has its frame change. -/
theorem Pulse.frameChanges_cues {p : Pulse} {blockLength : Nat} (h : p.length ≤ blockLength)
    (alignment : Alignment) (cutoff : Nat) :
    LinkList.frameChanges ((p.cues blockLength alignment cutoff).map Cue.entry) = [p.frameChange] ∧
      LinkList.StillInSilence ((p.cues blockLength alignment cutoff).map Cue.entry) := by
  obtain ⟨placement, hplace, hfills, -⟩ := placed_fills h alignment cutoff
  rw [place_eq, if_neg (Nat.not_lt.mpr h), Except.ok.injEq] at hplace
  have hentries : (p.cues blockLength alignment cutoff).map Cue.entry = placement.entries :=
    congrArg Placement.entries hplace
  rw [hentries]
  refine ⟨?_, ?_⟩
  · rw [LinkList.frameChanges, hfills.pulse]
    rfl
  · intro e he hflag
    rw [(hfills.silence e he hflag).2]

theorem Block.frameChanges_cues (cutoff : Nat) (b : Block) (channel : Channel) :
    LinkList.frameChanges ((b.cues cutoff channel).map Cue.entry) =
        ((b.pulses.get? channel).map Pulse.frameChange).toList ∧
      LinkList.StillInSilence ((b.cues cutoff channel).map Cue.entry) := by
  unfold cues
  cases hp : b.pulses.get? channel with
  | none =>
    refine ⟨rfl, ?_⟩
    intro e he _
    rw [List.mem_singleton.mp he]
    rfl
  | some p => exact Pulse.frameChanges_cues (length_le_duration hp) b.alignment cutoff

namespace Schedule

/-! ## The list of a channel -/

theorem frameChanges_score (cutoff : Nat) (channel : Channel) (blocks : List Block) :
    LinkList.frameChanges ((score cutoff channel blocks).map Cue.entry) =
        (lasting blocks).filterMap (fun b => (b.pulses.get? channel).map Pulse.frameChange) ∧
      LinkList.StillInSilence ((score cutoff channel blocks).map Cue.entry) := by
  refine ⟨?_, ?_⟩
  · rw [LinkList.frameChanges, score, List.map_flatMap, List.filter_flatMap, List.map_flatMap,
      List.filterMap_eq_flatMap_toList]
    apply List.flatMap_congr
    intro b _
    exact (b.frameChanges_cues cutoff channel).1
  · intro e he
    rw [score, List.map_flatMap, List.mem_flatMap] at he
    obtain ⟨b, _, he⟩ := he
    exact (b.frameChanges_cues cutoff channel).2 e he

end Schedule

/-! ## What is reported -/

namespace Compilation

variable {α β : Type}

/-- The step reports nothing. -/
def Silent (step : Compilation α) : Prop := ∀ lib, (step lib).events = []

theorem silent_pure (a : α) : Silent (pure a : Compilation α) := fun _ => rfl

theorem silent_bind {step : Compilation α} {next : α → Compilation β} (h : Silent step)
    (hnext : ∀ a, Silent (next a)) : Silent (step >>= next) := by
  intro lib
  rw [bind_apply]
  split
  · exact h lib
  · rename_i a _
    rw [h lib, hnext a]
    rfl

theorem Yields.events_bind {step : Compilation α} {next : α → Compilation β} {a : α}
    {lib middle : WaveformLibrary} (h : step.Yields lib a middle) :
    ((step >>= next) lib).events = (step lib).events ++ (next a middle).events := by
  rw [bind_apply, h.1, h.2]

end Compilation

namespace Schedule

theorem silent_place (cutoff : Nat) (b : Block) (channel : Channel) :
    Silent (place cutoff b channel) := by
  unfold place
  split
  · exact silent_pure _
  · exact silent_bind (fun _ => rfl) fun _ => silent_bind (fun _ => rfl) fun _ => silent_pure _

theorem silent_extend (cutoff : Nat) (b : Block) (lists : ChannelLists) :
    Silent (extend cutoff b lists) := by
  induction lists with
  | nil => exact silent_pure _
  | cons cl rest ih =>
    exact silent_bind (silent_place cutoff b cl.1) fun _ => silent_bind ih fun _ => silent_pure _

theorem silent_registerAll (channels : List Channel) : Silent (registerAll channels) := by
  induction channels with
  | nil => exact silent_pure _
  | cons channel rest ih => exact silent_bind (fun _ => rfl) fun _ => ih

end Schedule

/-- What is to be said about block number `index`: that it takes no time, if some of its pulses
turn a frame. -/
def Block.warning? (index : Nat) (b : Block) : Option Event :=
  let turns := b.pulses.values.countP Pulse.turnsFrame
  if b.duration = 0 ∧ 0 < turns then some (.blockDropped index b.label turns) else none

namespace Schedule

theorem frameChangeCount_eq (b : Block) :
    frameChangeCount b = b.pulses.values.countP Pulse.turnsFrame := rfl

theorem dropEvents_eq {b : Block} (h : b.duration = 0) (index : Nat) :
    dropEvents index b = (b.warning? index).toList := by
  unfold dropEvents Block.warning?
  dsimp only
  rw [frameChangeCount_eq]
  by_cases hnone : b.pulses.values.countP Pulse.turnsFrame = 0
  · simp [hnone]
  · simp [hnone, h, Nat.pos_of_ne_zero hnone]

/-- The warnings of a sequence, the first block of which has the number `index`. -/
def warnings (index : Nat) (blocks : List Block) : List Event :=
  (blocks.zipIdx index).filterMap fun x => x.1.warning? x.2

theorem warnings_cons_of_zero {b : Block} (h : b.duration = 0) (index : Nat) (rest : List Block) :
    warnings index (b :: rest) = dropEvents index b ++ warnings (index + 1) rest := by
  rw [dropEvents_eq h, warnings, List.zipIdx_cons, List.filterMap_cons]
  cases b.warning? index <;> rfl

theorem warnings_cons_of_ne {b : Block} (h : b.duration ≠ 0) (index : Nat) (rest : List Block) :
    warnings index (b :: rest) = warnings (index + 1) rest := by
  rw [warnings, List.zipIdx_cons, List.filterMap_cons_none]
  · rfl
  · exact if_neg fun hzero => h hzero.1

theorem events_extendAll {cutoff index : Nat} {blocks : List Block} {lists lists' : ChannelLists}
    {lib lib' : WaveformLibrary}
    (h : (extendAll cutoff index blocks lists).Yields lib lists' lib') :
    (extendAll cutoff index blocks lists lib).events = warnings index blocks := by
  induction blocks generalizing index lists lib with
  | nil => rfl
  | cons b rest ih =>
    by_cases hb : b.duration = 0
    · simp only [extendAll, hb, if_true] at h ⊢
      obtain ⟨_, _, hreport, hrest⟩ := yields_bind_iff.mp h
      rw [hreport.events_bind, ih hrest, warnings_cons_of_zero hb]
      rfl
    · simp only [extendAll, hb, if_false] at h ⊢
      obtain ⟨lists'', middle, hextend, hrest⟩ := yields_bind_iff.mp h
      rw [hextend.events_bind, silent_extend, ih hrest, warnings_cons_of_ne hb, List.nil_append]

/-- Building warns about the blocks that it drops, and about nothing else. -/
theorem warn_events_build {cutoff : Nat} {blocks : List Block} {lists : ChannelLists}
    {lib lib' : WaveformLibrary} (h : (build cutoff blocks).Yields lib lists lib') :
    (build cutoff blocks lib).events.filter (·.level = .warn) = warnings 0 blocks := by
  obtain ⟨_, registered, hregister, hbuild⟩ := yields_bind_iff.mp h
  obtain ⟨built, after, hextend, hreport⟩ := yields_bind_iff.mp hbuild
  have hwarn : ∀ e ∈ warnings 0 blocks, e.level = .warn := by
    intro e he
    obtain ⟨x, _, hx⟩ := List.mem_filterMap.mp he
    unfold Block.warning? at hx
    dsimp only at hx
    split at hx
    · cases hx
      rfl
    · cases hx
  have hdebug : ∀ e ∈ listEvents built, e.level ≠ .warn := by
    intro e he
    obtain ⟨cl, _, rfl⟩ := List.mem_map.mp he
    exact fun hlevel => nomatch hlevel
  have hevents : (build cutoff blocks lib).events = warnings 0 blocks ++ listEvents built := by
    rw [build, hregister.events_bind, silent_registerAll, hextend.events_bind,
      events_extendAll hextend, List.nil_append]
    congr 1
    exact List.append_nil _
  rw [hevents, List.filter_append, List.filter_eq_self.mpr (by simpa using hwarn),
    List.filter_eq_nil_iff.mpr (by simpa using hdebug), List.append_nil]

end Schedule

/-! ## The balance -/

/-- The frame changes that an event reports missing. -/
def Event.frameChanges : Event → Nat
  | blockDropped _ _ count => count
  | _ => 0

namespace Schedule

theorem sum_dropEvents (index : Nat) (b : Block) :
    ((dropEvents index b).map Event.frameChanges).sum =
      b.pulses.values.countP Pulse.turnsFrame := by
  unfold dropEvents
  dsimp only
  rw [frameChangeCount_eq]
  split
  · rename_i hnone
    rw [hnone]
    rfl
  · exact List.sum_singleton

/-- The pulses of a block that turn a frame are found again among the entries of all channels. -/
theorem sum_countP_cues {cs : List Channel} (hnodup : cs.Nodup) (cutoff : Nat) {b : Block}
    (hkeys : b.pulses.keys ⊆ cs) :
    (cs.map fun c => ((b.cues cutoff c).map Cue.entry).countP Entry.turnsFrame).sum =
      b.pulses.values.countP Pulse.turnsFrame := by
  have hchannel : ∀ c, ((b.cues cutoff c).map Cue.entry).countP Entry.turnsFrame =
      (b.pulses.get? c).toList.countP Pulse.turnsFrame := by
    intro c
    obtain ⟨hchanges, hstill⟩ := b.frameChanges_cues cutoff c
    rw [hstill.countP, hchanges]
    cases b.pulses.get? c <;> rfl
  -- The channels name the pulses in another order than the block does.
  rw [← (b.pulses.filterMap_get?_perm hnodup hkeys).countP_eq, List.filterMap_eq_flatMap_toList,
    List.countP_flatMap]
  simp only [hchannel, Function.comp_def]

/-- One block after another, what turns a frame goes to an entry or into a warning. -/
theorem sum_countP_score {cs : List Channel} (hnodup : cs.Nodup) (cutoff index : Nat)
    {blocks : List Block} (hkeys : ∀ b ∈ blocks, b.pulses.keys ⊆ cs) :
    (blocks.map fun b => b.pulses.values.countP Pulse.turnsFrame).sum =
      (cs.map fun c => ((score cutoff c blocks).map Cue.entry).countP Entry.turnsFrame).sum +
        ((warnings index blocks).map Event.frameChanges).sum := by
  induction blocks generalizing index with
  | nil => simp [score_nil, warnings]
  | cons b rest ih =>
    rw [List.forall_mem_cons] at hkeys
    rw [List.map_cons, List.sum_cons, ih (index + 1) hkeys.2]
    by_cases hb : b.duration = 0
    · simp only [score_cons_of_zero cutoff _ rest hb]
      rw [warnings_cons_of_zero hb, List.map_append, List.sum_append, sum_dropEvents]
      omega
    · simp only [score_cons_of_ne cutoff _ rest hb, List.map_append, List.countP_append]
      rw [warnings_cons_of_ne hb, List.sum_map_add, sum_countP_cues hnodup cutoff hkeys.1]
      omega

end Schedule

/-- A sequence that compiles has been built, with a library of its own. -/
theorem Program.exists_build {settings : Settings} {blocks : List Block} {lib : WaveformLibrary}
    {lists : ChannelLists} (h : (compileOne settings blocks lib).answer = .ok lists) :
    ∃ built, (Schedule.build settings.paddingCutoff blocks .empty).answer = .ok built := by
  obtain ⟨⟨built, sources⟩, _, hapart, _⟩ := yields_bind_iff.mp (yields_of_ok h)
  exact ⟨built, (yields_apart_iff.mp hapart).1.1⟩

namespace Schedule

/-- In the list of a channel, the entries that are no silence have the frame changes of the
channel's pulses in the blocks that take time, one by one, and silence has none. The warnings are
about the blocks that take no time and have pulses that turn a frame. Together they account for
every pulse that turns a frame. -/
theorem no_frame_change_is_lost_without_a_word {cutoff : Nat} {blocks : List Block}
    {lib : WaveformLibrary} {lists : ChannelLists}
    (h : (build cutoff blocks lib).answer = .ok lists) :
    let lasting := blocks.filter (·.duration ≠ 0)
    let warned := (build cutoff blocks lib).events.filter (·.level = .warn)
    lists.map Prod.fst = channels blocks ∧
      (∀ channel ∈ channels blocks, ∃ list, lists.lookup channel = some list ∧
        (list.filter (!·.isTimeAmplitude)).map Entry.frameChange =
          lasting.filterMap (fun b => (b.pulses.get? channel).map Pulse.frameChange) ∧
        ∀ e ∈ list, e.isTimeAmplitude = true → e.frameChange = .zero) ∧
      warned = blocks.zipIdx.filterMap (fun x => x.1.warning? x.2) ∧
      (blocks.map fun b => b.pulses.values.countP Pulse.turnsFrame).sum =
        (lists.map fun cl => cl.2.countP Entry.turnsFrame).sum +
          (warned.map Event.frameChanges).sum := by
  intro lasting warned
  have hrun := yields_of_ok h
  have hwarned : warned = warnings 0 blocks := warn_events_build hrun
  have hlists := build_lists hrun
  subst hlists
  refine ⟨Table.map_fst_graph _ _, ?_, hwarned, ?_⟩
  · intro channel hc
    obtain ⟨hchanges, hstill⟩ := frameChanges_score cutoff channel blocks
    exact ⟨_, Table.lookup_map_graph _ _ hc, hchanges, hstill⟩
  · have hkeys : ∀ b ∈ blocks, b.pulses.keys ⊆ channels blocks := by
      intro b hb c hc
      exact mem_channels.mpr ⟨b, hb, hc⟩
    rw [hwarned, List.map_map]
    exact sum_countP_score (firstUses_nodup _) cutoff 0 hkeys

/-- Three pulses turn a frame by an infinite angle. The first one is found again in a list. The
other two are in a block that takes no time, the second of three, and a warning has them. -/
theorem two_of_three_turns_go_missing_with_a_warning :
    ∃ lists, (build 12 Trial.interrupted .empty).answer = .ok lists ∧
      (build 12 Trial.interrupted .empty).events.filter (·.level = .warn) =
        [.blockDropped 1 none 2] ∧
      (lists.map fun cl => cl.2.countP Entry.turnsFrame).sum = 1 := by
  obtain ⟨_, hcompiles⟩ := Trial.compileOne_within Trial.contentsIn_interrupted
    WaveformLibrary.within_empty
  obtain ⟨lists, h⟩ := Program.exists_build hcompiles
  have hcutoff : ({} : Settings).paddingCutoff = 12 := rfl
  rw [hcutoff] at h
  obtain ⟨-, -, hwarned, hbalance⟩ := no_frame_change_is_lost_without_a_word h
  have hwarnings : Trial.interrupted.zipIdx.filterMap (fun x => x.1.warning? x.2) =
      [.blockDropped 1 none 2] := by decide +kernel
  have hall : (Trial.interrupted.map fun b => b.pulses.values.countP Pulse.turnsFrame).sum = 3 := by
    decide +kernel
  rw [hwarnings] at hwarned
  rw [hwarned, hall] at hbalance
  have hmissing : ([Event.blockDropped 1 none 2].map Event.frameChanges).sum = 2 := rfl
  exact ⟨lists, h, hwarned, by omega⟩

end Schedule

end PulseSequencer
