-- All channels together. A step for one channel neither helps nor hinders the
-- steps for the others, so a sequence compiles exactly if each of its channels
-- does by itself.
import PulseSequencer.Proofs.Solo

namespace PulseSequencer

open Compilation WaveformLibrary

attribute [local irreducible] Waveform.key

/-! ## Steps that succeed -/

namespace Compilation

variable {α β : Type} {channel : Channel} {step : Compilation α} {lib lib' : WaveformLibrary}

/-- From this library the step comes to its end. -/
def Completes (step : Compilation α) (lib : WaveformLibrary) : Prop :=
  ∃ a after, step.Yields lib a after

theorem Yields.completes {a : α} {after : WaveformLibrary} (h : step.Yields lib a after) :
    step.Completes lib := ⟨a, after, h⟩

theorem Completes.answer (h : step.Completes lib) : ∃ a, (step lib).answer = .ok a := by
  obtain ⟨a, after, hyields⟩ := h
  exact ⟨a, hyields.1⟩

theorem completes_pure (a : α) (lib : WaveformLibrary) : (pure a : Compilation α).Completes lib :=
  (yields_pure_iff.mpr ⟨rfl, rfl⟩).completes

theorem completes_bind_iff {next : α → Compilation β} :
    (step >>= next).Completes lib ↔
      ∃ a middle, step.Yields lib a middle ∧ (next a).Completes middle := by
  unfold Completes
  simp only [yields_bind_iff]
  constructor
  · rintro ⟨b, after, a, middle, hstep, hnext⟩
    exact ⟨a, middle, hstep, b, after, hnext⟩
  · rintro ⟨a, middle, hstep, b, after, hnext⟩
    exact ⟨b, after, a, middle, hstep, hnext⟩

theorem Completes.transfer (h : step.Completes lib) (hlocal : Local channel step)
    (hagree : AgreeOn channel lib lib') : step.Completes lib' := by
  obtain ⟨a, after, hyields⟩ := h
  obtain ⟨after', hyields', _⟩ := hyields.transfer hlocal hagree
  exact hyields'.completes

/-- A step for one channel can wait until a step for others is done. -/
theorem Completes.behind {first : Compilation β} {b : β} (h : step.Completes lib)
    (hlocal : Local channel step) (hfirst : first.Yields lib b lib')
    (hspares : Spares channel first) : step.Completes lib' :=
  h.transfer hlocal (hfirst.spares hspares).symm

end Compilation

/-! ## The builder -/

namespace Schedule

variable {cutoff : Nat}

theorem extend_completes {b : Block} {lists : ChannelLists} {lib : WaveformLibrary}
    (hnodup : (lists.map Prod.fst).Nodup)
    (h : ∀ c ∈ lists.map Prod.fst, (place cutoff b c).Completes lib) :
    (extend cutoff b lists).Completes lib := by
  induction lists generalizing lib with
  | nil => exact completes_pure _ _
  | cons cl rest ih =>
    obtain ⟨channel, list⟩ := cl
    rw [List.map_cons, List.nodup_cons] at hnodup
    rw [List.map_cons, List.forall_mem_cons] at h
    obtain ⟨⟨entries, middle, hplace⟩, hothers⟩ := h
    obtain ⟨rest', after, hrest⟩ : (extend cutoff b rest).Completes middle := by
      apply ih hnodup.2
      intro c hc
      have hne : c ≠ channel := by
        rintro rfl
        exact hnodup.1 hc
      exact (hothers c hc).behind (local_place b) hplace (spares_place hne b)
    exact completes_bind_iff.mpr ⟨entries, middle, hplace, completes_bind_iff.mpr
      ⟨rest', after, hrest, completes_pure _ _⟩⟩

theorem extendAll_completes {index : Nat} {blocks : List Block} {lists : ChannelLists}
    {lib : WaveformLibrary} (hnodup : (lists.map Prod.fst).Nodup)
    (h : ∀ c ∈ lists.map Prod.fst, (solo cutoff c blocks).Completes lib) :
    (extendAll cutoff index blocks lists).Completes lib := by
  induction blocks generalizing index lists lib with
  | nil => exact completes_pure _ _
  | cons b rest ih =>
    by_cases hb : b.duration = 0
    · simp only [solo, hb, if_true] at h
      simp only [extendAll, hb, if_true]
      exact completes_bind_iff.mpr ⟨(), lib, yields_report_iff.mpr rfl, ih hnodup h⟩
    · simp only [solo, hb, if_false, completes_bind_iff] at h
      simp only [extendAll, hb, if_false]
      have hplaced : ∀ c ∈ lists.map Prod.fst, (place cutoff b c).Completes lib := by
        intro c hc
        obtain ⟨_, _, hplace, _⟩ := h c hc
        exact hplace.completes
      obtain ⟨lists', middle, hextend⟩ := extend_completes hnodup hplaced
      refine completes_bind_iff.mpr ⟨lists', middle, hextend, ?_⟩
      have hkeys : lists'.map Prod.fst = lists.map Prod.fst := by
        rw [(extend_yields hextend).1, List.map_map]
        rfl
      rw [← hkeys] at hnodup
      -- A channel finds the library as its own first block left it.
      refine ih hnodup ?_
      intro c hc
      rw [hkeys] at hc
      obtain ⟨entries, first, hplace, later, second, hsolo, _⟩ := h c hc
      obtain ⟨_, first', hplace', hagree⟩ := extend_at (hkeys ▸ hnodup) hc hextend
      obtain ⟨rfl, rfl⟩ := hplace.unique hplace'
      exact hsolo.completes.transfer (local_solo rest) hagree

theorem registerAll_completes (channels : List Channel) (lib : WaveformLibrary) :
    (registerAll channels).Completes lib := by
  induction channels generalizing lib with
  | nil => exact completes_pure _ _
  | cons channel rest ih =>
    exact completes_bind_iff.mpr ⟨(), _, yields_register_iff.mpr rfl, ih _⟩

theorem build_completes {blocks : List Block}
    (h : ∀ c ∈ channels blocks, (soloBuild cutoff c blocks).Completes .empty) :
    (build cutoff blocks).Completes .empty := by
  obtain ⟨_, registered, hregister⟩ := registerAll_completes (channels blocks) .empty
  refine completes_bind_iff.mpr ⟨(), registered, hregister, ?_⟩
  obtain ⟨lists, after, hextend⟩ : (extendAll cutoff 0 blocks
      ((channels blocks).map (·, []))).Completes registered := by
    have hkeys := Table.map_fst_graph (channels blocks) fun _ => ([] : LinkList)
    apply extendAll_completes
    · rw [hkeys]
      exact firstUses_nodup _
    · intro c hc
      rw [hkeys] at hc
      obtain ⟨_, _, hown, hsolo⟩ := completes_bind_iff.mp (h c hc)
      obtain rfl := yields_register_iff.mp hown
      exact hsolo.transfer (local_solo blocks) (agreeOn_registerAll hregister hc).symm
  refine completes_bind_iff.mpr ⟨lists, after, hextend, ?_⟩
  exact completes_bind_iff.mpr ⟨(), after, yields_report_iff.mpr rfl, completes_pure _ _⟩

end Schedule

/-! ## The frame pass -/

theorem Frame.applyAll_completes {detect : Bool} {sources lib : WaveformLibrary}
    {lists : ChannelLists} (hnodup : (lists.map Prod.fst).Nodup)
    (h : ∀ cl ∈ lists, (step detect sources cl.1 cl.2).Completes lib) :
    (applyAll detect sources lists).Completes lib := by
  induction lists generalizing lib with
  | nil => exact completes_pure _ _
  | cons cl rest ih =>
    obtain ⟨channel, list⟩ := cl
    rw [List.map_cons, List.nodup_cons] at hnodup
    rw [List.forall_mem_cons] at h
    obtain ⟨⟨turned, middle, hstep⟩, hothers⟩ := h
    obtain ⟨rest', after, hrest⟩ : (applyAll detect sources rest).Completes middle := by
      apply ih hnodup.2
      intro cl hcl
      have hmem : cl.1 ∈ rest.map Prod.fst := List.mem_map_of_mem hcl
      have hne : cl.1 ≠ channel := by
        rintro rfl
        exact hnodup.1 hmem
      exact (hothers cl hcl).behind (local_step cl.2) hstep (spares_step hne list)
    exact completes_bind_iff.mpr ⟨turned, middle, hstep, completes_bind_iff.mpr
      ⟨rest', after, hrest, completes_pure _ _⟩⟩

/-! ## A sequence -/

/-- A sequence compiles exactly if each of its channels does by itself. -/
theorem Program.compileOne_completes_iff (settings : Settings) (blocks : List Block)
    (lib : WaveformLibrary) :
    (compileOne settings blocks).Completes lib ↔
      ∀ c ∈ Schedule.channels blocks, (solo settings c blocks).Completes lib := by
  constructor
  · rintro ⟨lists, after, h⟩ c hc
    obtain ⟨list, left, hsolo, _⟩ := compileOne_at hc h
    exact hsolo.completes
  · intro h
    have hown : ∀ c ∈ Schedule.channels blocks, ∃ list own,
        (Schedule.soloBuild settings.paddingCutoff c blocks).Yields .empty list own ∧
          (Frame.step settings.detectConstants own c list).Completes lib := by
      intro c hc
      obtain ⟨⟨list, own⟩, _, hapart, hstep⟩ := completes_bind_iff.mp (h c hc)
      obtain ⟨hbuild, rfl⟩ := yields_apart_iff.mp hapart
      exact ⟨list, own, hbuild, hstep⟩
    have hbuilt : ∀ c ∈ Schedule.channels blocks,
        (Schedule.soloBuild settings.paddingCutoff c blocks).Completes .empty := by
      intro c hc
      obtain ⟨_, _, hbuild, _⟩ := hown c hc
      exact hbuild.completes
    obtain ⟨lists, sources, hbuild⟩ := Schedule.build_completes hbuilt
    refine completes_bind_iff.mpr ⟨(lists, sources), lib, yields_apart_iff.mpr ⟨hbuild, rfl⟩, ?_⟩
    have hlists := Schedule.build_lists hbuild
    subst hlists
    apply Frame.applyAll_completes
    · rw [Table.map_fst_graph]
      exact Schedule.firstUses_nodup _
    · intro cl hcl
      obtain ⟨c, hc, rfl⟩ := List.mem_map.mp hcl
      obtain ⟨list, own, hsolo, hstep⟩ := hown c hc
      obtain ⟨own', hsolo', hagree⟩ := Schedule.build_at hc hbuild
      obtain ⟨rfl, rfl⟩ := hsolo.unique hsolo'
      obtain ⟨turned, after, hyields⟩ := hstep
      obtain ⟨_, hyields', _⟩ := Frame.step_transfer hagree hyields
      exact hyields'.completes

end PulseSequencer
