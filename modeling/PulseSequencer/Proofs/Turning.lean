-- The score of a channel turned into its frames. The pass over a link list
-- gives the entries of the turned score, whatever library it works on, and that
-- library holds the turned samples afterwards.
import PulseSequencer.Proofs.Score
import PulseSequencer.Frame

namespace PulseSequencer

open Compilation

attribute [local irreducible] Waveform.key

/-! ## The turned score -/

namespace Cue

/-- Whether one sample is enough for the entry. -/
def isBrief (detect : Bool) (q : Cue) : Bool :=
  q.entry.isTimeAmplitude || (detect && q.shape.isConstant)

/-- The samples to turn. -/
def kept (detect : Bool) (q : Cue) : Waveform :=
  if q.isBrief detect then q.shape.take 1 else q.shape

/-- The cue in a frame: its entry refers to the turned samples. -/
def turned (detect : Bool) (frame : Binary64) (q : Cue) : Cue :=
  let shape := (q.kept detect).rotate (q.entry.phase + frame)
  ⟨{ q.entry with key := shape.key, isTimeAmplitude := q.isBrief detect }, shape⟩

@[simp] theorem shape_turned (detect : Bool) (frame : Binary64) (q : Cue) :
    (q.turned detect frame).shape = (q.kept detect).rotate (q.entry.phase + frame) := rfl

@[simp] theorem isTimeAmplitude_turned (detect : Bool) (frame : Binary64) (q : Cue) :
    (q.turned detect frame).entry.isTimeAmplitude = q.isBrief detect := rfl

@[simp] theorem length_turned (detect : Bool) (frame : Binary64) (q : Cue) :
    (q.turned detect frame).entry.length = q.entry.length := rfl

end Cue

namespace Frame

/-- The score from one frame on. The frame changes of an entry turn all later ones. -/
def turnedScore (detect : Bool) : Binary64 → List Cue → List Cue
  | _, [] => []
  | frame, q :: rest =>
    q.turned detect frame :: turnedScore detect (frame + q.entry.frameChange) rest

/-! ## One entry -/

theorem source_eq_collapse {detect : Bool} {sources : WaveformLibrary} {channel : Channel}
    {index : Nat} {e : Entry} {stored : Waveform}
    (h : sources.get? channel e.sourceKey = some stored) :
    source detect sources channel index e = collapse detect channel index e stored := by
  unfold source WaveformLibrary.require
  rw [h]
  rfl

/-- A source that is found has the flag and the content of the cue. -/
theorem source_ok {detect : Bool} {sources : WaveformLibrary} {channel : Channel} {index : Nat}
    {q : Cue} {src : Source} (hheld : sources.Holds channel q.entry.sourceKey q.shape)
    (h : source detect sources channel index q.entry = .ok src) :
    src.isTimeAmplitude = q.isBrief detect ∧ src.shape.content = (q.kept detect).content := by
  obtain ⟨stored, hget, hcontent⟩ := hheld
  rw [source_eq_collapse hget, collapse, Waveform.isConstant_congr hcontent] at h
  split at h
  · cases h
  · rename_i hfit
    split at h
    · rename_i hshrink
      have hbrief : q.isBrief detect = true := by
        simp only [Bool.and_eq_true, Bool.or_eq_true] at hshrink
        rcases hshrink with ⟨hconstant, hflag | hdetect⟩
        · simp [Cue.isBrief, hflag]
        · simp [Cue.isBrief, hdetect, hconstant]
      cases h
      rw [Cue.kept, hbrief, if_pos rfl, Waveform.content_take, Waveform.content_take, hcontent]
      exact ⟨rfl, rfl⟩
    · rename_i hshrink
      have hflag : q.entry.isTimeAmplitude = false := by
        rw [Bool.eq_false_iff]
        intro hflag
        cases hconstant : q.shape.isConstant <;> simp [hflag, hconstant] at hfit hshrink
      have hbrief : q.isBrief detect = false := by
        unfold Cue.isBrief
        cases hconstant : q.shape.isConstant <;> cases hdetect : detect <;>
          simp [hflag, hconstant, hdetect] at hshrink ⊢
      cases h
      rw [Cue.kept, hbrief, if_neg Bool.false_ne_true]
      exact ⟨hflag, hcontent⟩

/-! ## The entries of a channel -/

theorem growsTo_turn (detect : Bool) (sources : WaveformLibrary) (channel : Channel) (index : Nat)
    (frame : Binary64) (list : LinkList) (lib : WaveformLibrary) :
    lib.GrowsTo (turn detect sources channel index frame list lib).library := by
  induction list generalizing index frame lib with
  | nil => exact .refl lib
  | cons e rest ih =>
    unfold turn
    split
    · exact .refl lib
    · rename_i src _
      have hinsert := lib.growsTo_insert channel (src.shape.rotate (e.phase + frame))
      dsimp only
      split
      · rename_i after err heq
        rw [heq] at hinsert
        exact hinsert
      · rename_i after key heq
        rw [heq] at hinsert
        exact hinsert.trans (ih _ _ after)

/-- One entry of the pass and then the rest of it, if the whole pass succeeds. -/
theorem turn_cons_ok {detect : Bool} {sources : WaveformLibrary} {channel : Channel} {index : Nat}
    {frame final : Binary64} {e : Entry} {rest : LinkList} {lib : WaveformLibrary}
    (h : (turn detect sources channel index frame (e :: rest) lib).answer = .ok final) :
    ∃ src after, source detect sources channel index e = .ok src ∧
      lib.insert channel (src.shape.rotate (e.phase + frame)) =
        (after, .ok (src.shape.rotate (e.phase + frame)).key) ∧
      turn detect sources channel index frame (e :: rest) lib =
        (turn detect sources channel (index + 1) (frame + e.frameChange) rest after).cons
          { e with
            key := (src.shape.rotate (e.phase + frame)).key
            isTimeAmplitude := src.isTimeAmplitude } := by
  rw [turn] at h
  split at h
  · cases h
  · rename_i src hsrc
    dsimp only at h
    split at h
    · cases h
    · rename_i after key hinsert
      have hok : (lib.insert channel (src.shape.rotate (e.phase + frame))).2 = .ok key := by
        rw [hinsert]
      obtain ⟨rfl, -⟩ := WaveformLibrary.holds_of_insert_ok hok
      refine ⟨src, after, hsrc, hinsert, ?_⟩
      rw [turn, hsrc]
      dsimp only
      rw [hinsert]

/-- A pass that succeeds gives the entries of the turned score and leaves its samples in the
library. -/
theorem turn_ok {detect : Bool} {sources : WaveformLibrary} {channel : Channel} {index : Nat}
    {frame final : Binary64} {cues : List Cue} {lib : WaveformLibrary}
    (hheld : ∀ q ∈ cues, sources.Holds channel q.entry.sourceKey q.shape)
    (h : (turn detect sources channel index frame (cues.map Cue.entry) lib).answer = .ok final) :
    (turn detect sources channel index frame (cues.map Cue.entry) lib).list =
        (turnedScore detect frame cues).map Cue.entry ∧
      ∀ q ∈ turnedScore detect frame cues,
        (turn detect sources channel index frame (cues.map Cue.entry) lib).library.Holds channel
          q.entry.key q.shape := by
  induction cues generalizing index frame lib with
  | nil => exact ⟨rfl, by simp [turnedScore]⟩
  | cons q rest ih =>
    obtain ⟨src, after, hsrc, hinsert, hturn⟩ := turn_cons_ok h
    obtain ⟨hflag, hcontent⟩ := source_ok (hheld q (List.mem_cons_self ..)) hsrc
    have hturned := Waveform.content_rotate (q.entry.phase + frame) hcontent
    rw [List.map_cons, hturn] at h
    obtain ⟨hlist, hrest⟩ := ih (fun p hp => hheld p (List.mem_cons_of_mem _ hp)) h
    rw [List.map_cons, hturn]
    refine ⟨?_, ?_⟩
    · rw [Waveform.key_congr hturned, hflag]
      exact congrArg (_ :: ·) hlist
    · intro p hp
      rcases List.mem_cons.mp hp with rfl | hp
      · have hstored : after.Holds channel (src.shape.rotate (q.entry.phase + frame)).key
            (src.shape.rotate (q.entry.phase + frame)) := by
          have hok := WaveformLibrary.holds_of_insert_ok (congrArg Prod.snd hinsert)
          rw [hinsert] at hok
          exact hok.2
        have hkept := (growsTo_turn detect sources channel (index + 1)
          (frame + q.entry.frameChange) (rest.map Cue.entry) after).holds hstored
        obtain ⟨w, hget, hw⟩ := hkept
        refine ⟨w, ?_, hw.trans hturned⟩
        rw [Waveform.key_congr hturned] at hget
        exact hget
      · exact hrest p hp

/-! ## All channels -/

/-- The report at the end of the pass changes neither the list nor the library. -/
theorem apply_eq (detect : Bool) (sources : WaveformLibrary) (channel : Channel) (list : LinkList)
    (lib : WaveformLibrary) :
    let r := turn detect sources channel 0 .zero list (lib.register channel)
    (apply detect sources channel list lib).list = r.list ∧
      (apply detect sources channel list lib).library = r.library ∧
      (apply detect sources channel list lib).answer = r.answer := by
  unfold apply
  dsimp only
  split
  · exact ⟨rfl, rfl, rfl⟩
  · exact ⟨rfl, rfl, rfl⟩

theorem grows_step (detect : Bool) (sources : WaveformLibrary) (channel : Channel)
    (list : LinkList) : Grows (step detect sources channel list) := by
  intro lib
  have hlibrary := (apply_eq detect sources channel list lib).2.1
  refine (lib.growsTo_register channel).trans ?_
  unfold step
  dsimp only
  rw [hlibrary]
  exact growsTo_turn detect sources channel 0 .zero list _

theorem grows_applyAll (detect : Bool) (sources : WaveformLibrary) (lists : ChannelLists) :
    Grows (applyAll detect sources lists) := by
  induction lists with
  | nil => exact grows_pure _
  | cons cl rest ih =>
    exact grows_bind (grows_step detect sources cl.1 cl.2) fun _ => grows_bind ih fun _ =>
      grows_pure _

theorem step_yields {detect : Bool} {sources : WaveformLibrary} {channel : Channel}
    {cues : List Cue} {list : LinkList} {lib lib' : WaveformLibrary}
    (hheld : ∀ q ∈ cues, sources.Holds channel q.entry.sourceKey q.shape)
    (h : (step detect sources channel (cues.map Cue.entry)).Yields lib list lib') :
    list = (turnedScore detect .zero cues).map Cue.entry ∧
      ∀ q ∈ turnedScore detect .zero cues, lib'.Holds channel q.entry.key q.shape := by
  obtain ⟨hlist, hlibrary, hanswer⟩ := apply_eq detect sources channel (cues.map Cue.entry) lib
  obtain ⟨hok, rfl⟩ := h
  unfold step at hok ⊢
  dsimp only at hok ⊢
  rw [hanswer] at hok
  cases hturn : (turn detect sources channel 0 .zero (cues.map Cue.entry)
      (lib.register channel)).answer with
  | error err =>
    rw [hturn] at hok
    cases hok
  | ok final =>
    rw [hturn, hlist] at hok
    cases hok
    rw [hlibrary]
    exact turn_ok hheld hturn

theorem applyAll_yields {detect : Bool} {sources : WaveformLibrary} {cs : List Channel}
    {cues : Channel → List Cue} {lists : ChannelLists} {lib lib' : WaveformLibrary}
    (hheld : ∀ c ∈ cs, ∀ q ∈ cues c, sources.Holds c q.entry.sourceKey q.shape)
    (h : (applyAll detect sources (cs.map fun c => (c, (cues c).map Cue.entry))).Yields
      lib lists lib') :
    lists = cs.map (fun c => (c, (turnedScore detect .zero (cues c)).map Cue.entry)) ∧
      ∀ c ∈ cs, ∀ q ∈ turnedScore detect .zero (cues c), lib'.Holds c q.entry.key q.shape := by
  induction cs generalizing lists lib with
  | nil =>
    simp only [List.map_nil, applyAll, yields_pure_iff] at h
    obtain ⟨rfl, rfl⟩ := h
    exact ⟨rfl, by simp⟩
  | cons c rest ih =>
    simp only [List.map_cons, applyAll, yields_bind_iff, yields_pure_iff] at h
    obtain ⟨list, middle, hstep, lists', after, hrest, rfl, rfl⟩ := h
    obtain ⟨rfl, hfirst⟩ := step_yields (hheld c (List.mem_cons_self ..)) hstep
    obtain ⟨rfl, hothers⟩ := ih (fun d hd => hheld d (List.mem_cons_of_mem _ hd)) hrest
    refine ⟨rfl, ?_⟩
    intro d hd q hq
    rcases List.mem_cons.mp hd with rfl | hd
    · exact (hrest.growsTo (grows_applyAll detect sources _)).holds (hfirst q hq)
    · exact hothers d hd q hq

end Frame

end PulseSequencer
