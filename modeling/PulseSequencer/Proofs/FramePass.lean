-- The frame pass over any list. An entry either goes through or stops the
-- pass, and nothing else can happen at it. From these two cases follow what the
-- pass makes of a list, what it leaves of one that it cannot finish, and that a
-- second pass finds nothing to do.
import PulseSequencer.Proofs.Completion

namespace PulseSequencer

attribute [local irreducible] Waveform.key

namespace WaveformLibrary

variable {lib : WaveformLibrary} {channel : Channel} {w : Waveform}

theorem mem_keys_of_get? {key : Digest} {stored : Waveform}
    (h : lib.get? channel key = some stored) : channel ∈ lib.channels.keys := by
  by_contra hnew
  rw [get?_eq, waveforms_eq_empty hnew] at h
  cases h

/-- What an insertion does on a channel that has a waveform under the key. -/
theorem insert_of_get? {stored : Waveform} (h : lib.get? channel w.key = some stored) :
    lib.insert channel w =
      (lib, if stored.contentEq w then .ok w.key else .error (.keyCollision channel w.key)) := by
  unfold insert
  rw [register_of_mem (mem_keys_of_get? h)]
  dsimp only
  rw [h]
  dsimp only
  split <;> rfl

/-- What is there already is not stored again. -/
theorem insert_of_holds (h : lib.Holds channel w.key w) :
    lib.insert channel w = (lib, .ok w.key) := by
  obtain ⟨stored, hget, hcontent⟩ := h
  rw [insert_of_get? hget, if_pos ((Waveform.contentEq_iff _ _).mpr hcontent)]

/-- An insertion answers with the key, unless the channel has another waveform under it. -/
theorem insert_cases (lib : WaveformLibrary) (channel : Channel) (w : Waveform) :
    (∃ after, lib.insert channel w = (after, .ok w.key)) ∨
      ∃ stored, (lib.register channel).get? channel w.key = some stored ∧
        stored.contentEq w = false := by
  unfold insert
  dsimp only
  split
  · exact Or.inl ⟨_, rfl⟩
  · rename_i stored hstored
    split
    · exact Or.inl ⟨_, rfl⟩
    · rename_i hdiffers
      exact Or.inr ⟨stored, hstored, by simpa using hdiffers⟩

end WaveformLibrary

namespace Cue

/-- The cue whose entry says whether one sample is enough. -/
def marked (detect : Bool) (q : Cue) : Cue :=
  ⟨{ q.entry with isTimeAmplitude := q.isBrief detect }, q.shape⟩

variable {detect : Bool} {q : Cue}

/-- Whether one sample is enough does not change once the entry says so. -/
theorem isBrief_marked (detect : Bool) (q : Cue) :
    (q.marked detect).isBrief detect = q.isBrief detect := by
  unfold marked isBrief
  cases q.entry.isTimeAmplitude <;> cases q.shape.isConstant <;> cases detect <;> rfl

theorem marked_marked (detect : Bool) (q : Cue) :
    (q.marked detect).marked detect = q.marked detect := by
  rw [marked, isBrief_marked]
  rfl

theorem turned_marked (detect : Bool) (frame : Binary64) (q : Cue) :
    (q.marked detect).turned detect frame = q.turned detect frame := by
  unfold turned kept
  rw [isBrief_marked]
  rfl

/-- The key of an entry has no part in what it turns into. -/
theorem turned_turned (detect : Bool) (frame : Binary64) (q : Cue) :
    (Cue.mk (q.turned detect frame).entry q.shape).turned detect frame =
      q.turned detect frame :=
  turned_marked detect frame q

/-- An entry that suits its shape is marked only where the shape is constant. -/
theorem isConstant_of_isBrief
    (hfit : q.entry.isTimeAmplitude = true → q.shape.isConstant = true)
    (hbrief : q.isBrief detect = true) : q.shape.isConstant = true := by
  simp only [isBrief, Bool.or_eq_true, Bool.and_eq_true] at hbrief
  rcases hbrief with hflag | ⟨-, hconstant⟩
  · exact hfit hflag
  · exact hconstant

end Cue

namespace Frame

/-! ## One entry -/

section

variable (detect : Bool) (sources : WaveformLibrary) (channel : Channel)

/-- The entry goes through: its shape is found and suits it, and what it turns into can be
stored. It becomes `e'` and the library becomes `after`. -/
def Passes (frame : Binary64) (e : Entry) (lib : WaveformLibrary) (e' : Entry)
    (after : WaveformLibrary) : Prop :=
  ∃ shape, sources.get? channel e.sourceKey = some shape ∧
    (e.isTimeAmplitude = true → shape.isConstant = true) ∧
    lib.insert channel ((Cue.mk e shape).turned detect frame).shape = (after, .ok e'.key) ∧
    e' = ((Cue.mk e shape).turned detect frame).entry

/-- The entry with number `index` stops the pass with an error, and is left as the second
argument says. A collision is met after the entry got its flag. -/
inductive Stops (index : Nat) (frame : Binary64) (e : Entry) (lib : WaveformLibrary) :
    CompileError → Entry → Prop
  | unknown (hnone : sources.get? channel e.sourceKey = none) :
    Stops index frame e lib (.unknownWaveform channel e.sourceKey) e
  | uneven {shape : Waveform} (hshape : sources.get? channel e.sourceKey = some shape)
    (hflag : e.isTimeAmplitude = true) (huneven : shape.isConstant = false) :
    Stops index frame e lib (.notConstant channel index) e
  | collides {shape stored : Waveform} (hshape : sources.get? channel e.sourceKey = some shape)
    (hfit : e.isTimeAmplitude = true → shape.isConstant = true)
    (hstored :
      lib.get? channel ((Cue.mk e shape).turned detect frame).shape.key = some stored)
    (hdiffers : stored.contentEq ((Cue.mk e shape).turned detect frame).shape = false) :
    Stops index frame e lib
      (.keyCollision channel ((Cue.mk e shape).turned detect frame).shape.key)
      ((Cue.mk e shape).marked detect).entry

end

variable {detect : Bool} {sources : WaveformLibrary} {channel : Channel} {index : Nat}
  {frame : Binary64} {e e' : Entry} {lib after : WaveformLibrary} {err : CompileError}

theorem collapse_eq (e : Entry) (shape : Waveform) :
    collapse detect channel index e shape =
      if e.isTimeAmplitude = true ∧ shape.isConstant = false then
        .error (.notConstant channel index)
      else .ok ⟨(Cue.mk e shape).isBrief detect, (Cue.mk e shape).kept detect⟩ := by
  unfold collapse Cue.kept Cue.isBrief
  cases e.isTimeAmplitude <;> cases shape.isConstant <;> cases detect <;> rfl

theorem source_of_fit {shape : Waveform} (hshape : sources.get? channel e.sourceKey = some shape)
    (hfit : e.isTimeAmplitude = true → shape.isConstant = true) :
    source detect sources channel index e =
      .ok ⟨(Cue.mk e shape).isBrief detect, (Cue.mk e shape).kept detect⟩ := by
  rw [source_eq_collapse hshape, collapse_eq, if_neg]
  rintro ⟨hflag, huneven⟩
  rw [hfit hflag] at huneven
  cases huneven

/-- Each entry goes through or stops the pass. -/
theorem passes_or_stops (detect : Bool) (sources : WaveformLibrary) (index : Nat)
    (frame : Binary64) (e : Entry) (hc : channel ∈ lib.channels.keys) :
    (∃ e' after, Passes detect sources channel frame e lib e' after) ∨
      ∃ err e', Stops detect sources channel index frame e lib err e' := by
  cases hshape : sources.get? channel e.sourceKey with
  | none => exact Or.inr ⟨_, _, .unknown hshape⟩
  | some shape =>
    by_cases hfit : e.isTimeAmplitude = true → shape.isConstant = true
    · obtain ⟨after, hinsert⟩ | ⟨stored, hstored, hdiffers⟩ :=
        lib.insert_cases channel ((Cue.mk e shape).turned detect frame).shape
      · exact Or.inl ⟨_, after, shape, hshape, hfit, hinsert, rfl⟩
      · rw [WaveformLibrary.register_of_mem hc] at hstored
        exact Or.inr ⟨_, _, .collides hshape hfit hstored hdiffers⟩
    · rw [Classical.not_imp, Bool.not_eq_true] at hfit
      exact Or.inr ⟨_, _, .uneven hshape hfit.1 hfit.2⟩

theorem turn_of_passes (h : Passes detect sources channel frame e lib e' after) (index : Nat)
    (rest : LinkList) :
    turn detect sources channel index frame (e :: rest) lib =
      (turn detect sources channel (index + 1) (frame + e.frameChange) rest after).cons e' := by
  obtain ⟨shape, hshape, hfit, hinsert, rfl⟩ := h
  rw [Cue.shape_turned] at hinsert
  rw [turn, source_of_fit hshape hfit]
  dsimp only
  rw [hinsert]
  rfl

theorem turn_of_stops (h : Stops detect sources channel index frame e lib err e')
    (rest : LinkList) :
    turn detect sources channel index frame (e :: rest) lib =
      ⟨e' :: rest, lib, failureEvents sources e err, .error err⟩ := by
  cases h with
  | unknown hnone =>
    have hsource : source detect sources channel index e =
        .error (.unknownWaveform channel e.sourceKey) := by
      unfold source WaveformLibrary.require
      rw [hnone]
      rfl
    rw [turn, hsource]
  | uneven hshape hflag huneven =>
    rw [turn, source_eq_collapse hshape, collapse_eq, if_pos ⟨hflag, huneven⟩]
  | @collides shape stored hshape hfit hstored hdiffers =>
    have hinsert := WaveformLibrary.insert_of_get? hstored
    rw [hdiffers, if_neg Bool.false_ne_true, Cue.shape_turned] at hinsert
    rw [turn, source_of_fit hshape hfit]
    dsimp only
    rw [hinsert]
    rfl

/-! ## The same entry once more -/

/-- An entry that went through goes through again as it is, and a library that has what the
first pass stored stays as it is. -/
theorem Passes.again (h : Passes detect sources channel frame e lib e' after)
    {later : WaveformLibrary} (hgrows : after.GrowsTo later) :
    Passes detect sources channel frame e' later e' later := by
  obtain ⟨shape, hshape, hfit, hinsert, rfl⟩ := h
  have hheld := (WaveformLibrary.holds_of_insert_ok (congrArg Prod.snd hinsert)).2
  rw [hinsert] at hheld
  have hagain := Cue.turned_turned detect frame ⟨e, shape⟩
  refine ⟨shape, hshape, Cue.isConstant_of_isBrief hfit, ?_, ?_⟩
  · rw [hagain]
    exact WaveformLibrary.insert_of_holds (hgrows.holds hheld)
  · rw [hagain]

/-- An entry that stopped the pass stops the next one too, in the same way. -/
theorem Stops.again (h : Stops detect sources channel index frame e lib err e') :
    Stops detect sources channel index frame e' lib err e' := by
  cases h with
  | unknown hnone => exact .unknown hnone
  | uneven hshape hflag huneven => exact .uneven hshape hflag huneven
  | @collides shape stored hshape hfit hstored hdiffers =>
    have hleft : ((Cue.mk ((Cue.mk e shape).marked detect).entry shape).marked detect).entry =
        ((Cue.mk e shape).marked detect).entry :=
      congrArg Cue.entry (Cue.marked_marked detect ⟨e, shape⟩)
    rw [← Cue.turned_marked] at hstored hdiffers ⊢
    have hstops : Stops detect sources channel index frame ((Cue.mk e shape).marked detect).entry
        lib _ _ := .collides hshape (Cue.isConstant_of_isBrief hfit) hstored hdiffers
    rw [hleft] at hstops
    exact hstops

theorem Stops.failureEvents_eq (h : Stops detect sources channel index frame e lib err e') :
    failureEvents sources e' err = failureEvents sources e err := by
  cases h <;> rfl

/-! ## A whole list -/

/-- The frame of entry number `k`: the frame changes before it, added up from the left. -/
def frameAt (frame : Binary64) (list : LinkList) (k : Nat) : Binary64 :=
  ((list.take k).map Entry.frameChange).foldl (· + ·) frame

@[simp] theorem frameAt_zero (frame : Binary64) (list : LinkList) : frameAt frame list 0 = frame :=
  rfl

@[simp] theorem frameAt_succ (frame : Binary64) (e : Entry) (rest : LinkList) (k : Nat) :
    frameAt frame (e :: rest) (k + 1) = frameAt (frame + e.frameChange) rest k := rfl

theorem Passes.mem_keys (h : Passes detect sources channel frame e lib e' after) :
    channel ∈ after.channels.keys := by
  obtain ⟨shape, -, -, hinsert, rfl⟩ := h
  have hheld := (WaveformLibrary.holds_of_insert_ok (congrArg Prod.snd hinsert)).2
  rw [hinsert] at hheld
  obtain ⟨stored, hget, -⟩ := hheld
  exact WaveformLibrary.mem_keys_of_get? hget

/-- A pass over what the first one left leaves it as it is, and answers as the first one did. -/
theorem turn_again (detect : Bool) (sources : WaveformLibrary) (index : Nat) (frame : Binary64)
    (list : LinkList) (hc : channel ∈ lib.channels.keys) :
    turn detect sources channel index frame
        (turn detect sources channel index frame list lib).list
        (turn detect sources channel index frame list lib).library =
      turn detect sources channel index frame list lib := by
  induction list generalizing index frame lib with
  | nil => rfl
  | cons e rest ih =>
    obtain ⟨e', after, hpasses⟩ | ⟨err, e', hstops⟩ :=
      passes_or_stops detect sources index frame e hc
    · have hgrows := growsTo_turn detect sources channel (index + 1) (frame + e.frameChange) rest
        after
      have hagain := hpasses.again hgrows
      have hframe : e'.frameChange = e.frameChange := by
        obtain ⟨_, _, _, _, rfl⟩ := hpasses
        rfl
      rw [turn_of_passes hpasses]
      dsimp only [Result.cons]
      rw [turn_of_passes hagain, hframe, ih (index + 1) (frame + e.frameChange) hpasses.mem_keys]
      rfl
    · rw [turn_of_stops hstops]
      dsimp only
      rw [turn_of_stops hstops.again, hstops.failureEvents_eq]

/-- What a pass makes of each entry, if it gets to the end: the entry goes through in its frame,
and what is stored for it is there at the end. -/
theorem turn_passes {final : Binary64} {list : LinkList} (hc : channel ∈ lib.channels.keys)
    (h : (turn detect sources channel index frame list lib).answer = .ok final) :
    final = frameAt frame list list.length ∧
      (turn detect sources channel index frame list lib).list.length = list.length ∧
      ∀ k e, list[k]? = some e → ∃ e' before after,
        Passes detect sources channel (frameAt frame list k) e before e' after ∧
          (turn detect sources channel index frame list lib).list[k]? = some e' ∧
          after.GrowsTo (turn detect sources channel index frame list lib).library := by
  induction list generalizing index frame lib with
  | nil =>
    cases h
    refine ⟨rfl, rfl, ?_⟩
    intro k e hk
    cases hk
  | cons e rest ih =>
    obtain ⟨e', after, hpasses⟩ | ⟨err, e', hstops⟩ :=
      passes_or_stops detect sources index frame e hc
    · rw [turn_of_passes hpasses] at h ⊢
      obtain ⟨hfinal, hlength, hrest⟩ := ih hpasses.mem_keys h
      refine ⟨hfinal, congrArg (· + 1) hlength, ?_⟩
      intro k f hk
      cases k with
      | zero =>
        cases hk
        exact ⟨e', lib, after, hpasses, rfl, growsTo_turn detect sources channel _ _ rest after⟩
      | succ k => exact hrest k f hk
    · rw [turn_of_stops hstops] at h
      cases h

/-- A pass that fails has come to an entry that stops it. The entries before it are as a pass
over them alone leaves them, and so is the library; the entries behind it are as they were. -/
theorem turn_stops {list : LinkList} (hc : channel ∈ lib.channels.keys)
    (h : (turn detect sources channel index frame list lib).answer = .error err) :
    ∃ k e e', list[k]? = some e ∧
      (turn detect sources channel index frame (list.take k) lib).answer =
        .ok (frameAt frame list k) ∧
      Stops detect sources channel (index + k) (frameAt frame list k) e
        (turn detect sources channel index frame (list.take k) lib).library err e' ∧
      (turn detect sources channel index frame list lib).list =
        (turn detect sources channel index frame (list.take k) lib).list ++
          e' :: list.drop (k + 1) ∧
      (turn detect sources channel index frame list lib).library =
        (turn detect sources channel index frame (list.take k) lib).library := by
  induction list generalizing index frame lib with
  | nil => cases h
  | cons e rest ih =>
    obtain ⟨e', after, hpasses⟩ | ⟨err', e', hstops⟩ :=
      passes_or_stops detect sources index frame e hc
    · rw [turn_of_passes hpasses] at h ⊢
      obtain ⟨k, f, f', hk, hok, hstops, hlist, hlibrary⟩ := ih hpasses.mem_keys h
      refine ⟨k + 1, f, f', hk, ?_⟩
      rw [List.take_succ_cons, turn_of_passes hpasses]
      refine ⟨hok, ?_, congrArg (e' :: ·) hlist, hlibrary⟩
      rw [← Nat.add_assoc, Nat.add_right_comm]
      exact hstops
    · rw [turn_of_stops hstops] at h ⊢
      cases h
      exact ⟨0, e, e', rfl, rfl, hstops, rfl, rfl⟩

/-- An entry that stops the pass behind entries that go through stops the pass over the whole
list. -/
theorem turn_error {list : LinkList} {k : Nat} {final : Binary64}
    (hc : channel ∈ lib.channels.keys) (hk : list[k]? = some e)
    (hok : (turn detect sources channel index frame (list.take k) lib).answer = .ok final)
    (hstops : Stops detect sources channel (index + k) final e
      (turn detect sources channel index frame (list.take k) lib).library err e') :
    (turn detect sources channel index frame list lib).answer = .error err := by
  induction list generalizing index frame lib k with
  | nil => cases hk
  | cons f rest ih =>
    cases k with
    | zero =>
      cases hk
      cases hok
      exact congrArg Result.answer (turn_of_stops hstops rest)
    | succ k =>
      rw [List.take_succ_cons] at hok hstops
      obtain ⟨f', after, hpasses⟩ | ⟨_, _, hfirst⟩ :=
        passes_or_stops detect sources index frame f hc
      · rw [turn_of_passes hpasses] at hok hstops ⊢
        rw [← Nat.add_assoc, Nat.add_right_comm] at hstops
        exact ih hpasses.mem_keys hk hok hstops
      · rw [turn_of_stops hfirst] at hok
        cases hok

/-- A pass that gets to the end has got to the end of every beginning of the list. -/
theorem turn_take_ok {list : LinkList} {final : Binary64} (hc : channel ∈ lib.channels.keys)
    (h : (turn detect sources channel index frame list lib).answer = .ok final) (k : Nat) :
    (turn detect sources channel index frame (list.take k) lib).answer =
      .ok (frameAt frame list k) := by
  cases hprefix : (turn detect sources channel index frame (list.take k) lib).answer with
  | ok reached =>
    rw [(turn_passes hc hprefix).1, frameAt, List.take_length]
    rfl
  | error err =>
    obtain ⟨j, e, e', hj, hok, hstops, -, -⟩ := turn_stops hc hprefix
    have hjk : j < k := by
      have hlength := (List.getElem?_eq_some_iff.mp hj).1
      rw [List.length_take] at hlength
      omega
    rw [List.getElem?_take_of_lt hjk] at hj
    rw [List.take_take, Nat.min_eq_left (Nat.le_of_lt hjk)] at hok hstops
    rw [turn_error hc hj hok hstops] at h
    cases h

/-! ## The pass from its start -/

section

variable (detect : Bool) (sources : WaveformLibrary) (channel : Channel) (list : LinkList)
  (library : WaveformLibrary)

theorem list_apply : (apply detect sources channel list library).list =
    (turn detect sources channel 0 .zero list (library.register channel)).list :=
  (apply_eq detect sources channel list library).1

theorem library_apply : (apply detect sources channel list library).library =
    (turn detect sources channel 0 .zero list (library.register channel)).library :=
  (apply_eq detect sources channel list library).2.1

theorem answer_apply : (apply detect sources channel list library).answer =
    (turn detect sources channel 0 .zero list (library.register channel)).answer :=
  (apply_eq detect sources channel list library).2.2

end

theorem apply_again (detect : Bool) (sources : WaveformLibrary) (channel : Channel)
    (list : LinkList) (library : WaveformLibrary) :
    apply detect sources channel (apply detect sources channel list library).list
        (apply detect sources channel list library).library =
      apply detect sources channel list library := by
  have hc := library.mem_keys_register channel
  have hgrows := growsTo_turn detect sources channel 0 .zero list (library.register channel)
  have hregister := WaveformLibrary.register_of_mem (hgrows.channels.subset hc)
  rw [list_apply, library_apply]
  unfold apply
  rw [hregister, turn_again detect sources 0 .zero list hc]

/-- Several passes one after another, one more than the number says. -/
def repeated (detect : Bool) (sources : WaveformLibrary) (channel : Channel) (list : LinkList)
    (library : WaveformLibrary) : Nat → Result
  | 0 => apply detect sources channel list library
  | n + 1 =>
    let r := repeated detect sources channel list library n
    apply detect sources channel r.list r.library

/-- A second pass over the list and the library that the first one left changes neither, and
answers as the first one did, with the same error if it failed. So does every later one. -/
theorem a_second_pass_changes_nothing (detect : Bool) (sources : WaveformLibrary)
    (channel : Channel) (list : LinkList) (library : WaveformLibrary) :
    apply detect sources channel (apply detect sources channel list library).list
        (apply detect sources channel list library).library =
      apply detect sources channel list library ∧
      ∀ n, repeated detect sources channel list library n =
        apply detect sources channel list library := by
  have hagain := apply_again detect sources channel list library
  refine ⟨hagain, ?_⟩
  intro n
  induction n with
  | zero => rfl
  | succ n ih => rw [repeated, ih, hagain]

/-- A pass that succeeds leaves every entry in its place. Only the flag and the key of an entry
change. The flag is set if it was set, or if constants are looked for and the shape is one. The key
is that of the shape, or of its first sample if the flag is set, turned by the phase of the entry
and the frame changes before it; and the library has that content under it. -/
theorem a_pass_turns_every_entry_into_its_frame {detect : Bool} {sources : WaveformLibrary}
    {channel : Channel} {list : LinkList} {library : WaveformLibrary} {final : Binary64}
    (h : (apply detect sources channel list library).answer = .ok final) :
    (apply detect sources channel list library).list.length = list.length ∧
      ∀ k e, list[k]? = some e → ∃ shape, sources.get? channel e.sourceKey = some shape ∧
        let brief := e.isTimeAmplitude || (detect && shape.isConstant)
        let turned := (if brief then shape.take 1 else shape).rotate
          (e.phase + frameAt .zero list k)
        (brief = true → shape.isConstant = true) ∧
          (apply detect sources channel list library).list[k]? =
            some { e with key := turned.key, isTimeAmplitude := brief } ∧
          ∃ stored, (apply detect sources channel list library).library.get? channel turned.key =
            some stored ∧ stored.contentEq turned = true := by
  simp only [list_apply, library_apply, answer_apply] at h ⊢
  obtain ⟨-, hlength, hentries⟩ := turn_passes (library.mem_keys_register channel) h
  refine ⟨hlength, ?_⟩
  intro k e hk
  obtain ⟨e', before, after, ⟨shape, hshape, hfit, hinsert, rfl⟩, hleft, hgrows⟩ := hentries k e hk
  have hheld := (WaveformLibrary.holds_of_insert_ok (congrArg Prod.snd hinsert)).2
  rw [hinsert] at hheld
  obtain ⟨stored, hstored, hcontent⟩ := hgrows.holds hheld
  have hconstant : (Cue.mk e shape).isBrief detect = true → shape.isConstant = true :=
    Cue.isConstant_of_isBrief hfit
  exact ⟨shape, hshape, hconstant, hleft, stored, hstored,
    (Waveform.contentEq_iff _ _).mpr hcontent⟩

/-- Two samples that turn the frame by an infinite angle, and then no output. -/
def drift : List Cue :=
  [.ofPulse { samples := .ofReal [.one, .zero], frameChange := .infinity } (.ofReal [.one, .zero]),
    .padding 3]

theorem exists_drift_sources : ∃ sources : WaveformLibrary,
    sources.get? "q1" zeroKey = some (.zeros 1) ∧
      sources.Holds "q1" (Waveform.ofReal [.one, .zero]).key (.ofReal [.one, .zero]) := by
  have hnew : "q1" ∉ (WaveformLibrary.empty).channels.keys := by simp [WaveformLibrary.empty]
  have hzero : ∃ w ∈ Trial.shapes, w.content = (Waveform.zeros 1).content :=
    ⟨.zeros 1, by simp [Trial.shapes], rfl⟩
  have hpulse : ∃ w ∈ Trial.shapes, w.content = (Waveform.ofReal [.one, .zero]).content :=
    ⟨.ofReal [.one, .zero], by simp [Trial.shapes], rfl⟩
  have hwithin : (WaveformLibrary.empty.register "q1").Within
      fun x => ∃ w ∈ Trial.shapes, w.content = x :=
    WaveformLibrary.within_register "q1" WaveformLibrary.within_empty hzero
  have hstored := WaveformLibrary.insert_within "q1" (keysTellApart_of_nodup Trial.keys_nodup)
    hwithin hzero hpulse
  have hgrows := (WaveformLibrary.empty.register "q1").growsTo_insert "q1" (.ofReal [.one, .zero])
  refine ⟨_, hgrows.get? ?_, (WaveformLibrary.holds_of_insert_ok hstored.1).2⟩
  rw [WaveformLibrary.get?_eq, WaveformLibrary.waveforms_register_self hnew,
    WaveformLibrary.fresh, Table.get?_insert, if_pos rfl]

theorem drift_passes {sources : WaveformLibrary}
    (hheld : ∀ q ∈ drift, sources.Holds "q1" q.entry.sourceKey q.shape) :
    ∃ final, (apply true sources "q1" (drift.map Cue.entry) .empty).answer = .ok final := by
  have hzero : ∃ w ∈ Trial.shapes, w.content = (Waveform.zeros 1).content :=
    ⟨.zeros 1, by simp [Trial.shapes], rfl⟩
  have hregime := WaveformLibrary.regime_within (keysTellApart_of_nodup Trial.keys_nodup) hzero
  have hplain : ∀ q ∈ drift, q.Plain := by
    intro q hq
    simp only [drift, List.mem_cons, List.not_mem_nil, or_false] at hq
    rcases hq with rfl | rfl
    · exact Cue.plain_ofPulse _ _
    · exact Cue.plain_padding (by decide)
  have hcontents : ∀ q ∈ turnedScore true .zero drift,
      ∃ w ∈ Trial.shapes, w.content = q.shape.content := by decide +kernel
  have hkeeps := (keeps_turn hregime 0 hplain hheld hcontents
    (WaveformLibrary.within_register "q1" WaveformLibrary.within_empty hzero)).2
  rw [answer_apply]
  cases hanswer : (turn true sources "q1" 0 .zero (drift.map Cue.entry)
      (WaveformLibrary.empty.register "q1")).answer with
  | ok final => exact ⟨final, rfl⟩
  | error err => exact (hkeeps err hanswer).elim

/-- Silence behind a frame that is lost is turned by it, as one sample. -/
theorem silence_is_turned_by_a_lost_frame : ∃ sources final,
    (apply true sources "q1" (drift.map Cue.entry) .empty).answer = .ok final ∧
      (apply true sources "q1" (drift.map Cue.entry) .empty).list[1]? =
        some { Entry.padding 3 with
          key := (((Waveform.zeros 1).take 1).rotate .infinity).key } := by
  obtain ⟨sources, hzeros, hpulse⟩ := exists_drift_sources
  have hheld : ∀ q ∈ drift, sources.Holds "q1" q.entry.sourceKey q.shape := by
    intro q hq
    simp only [drift, List.mem_cons, List.not_mem_nil, or_false] at hq
    rcases hq with rfl | rfl
    · exact hpulse
    · exact ⟨_, hzeros, rfl⟩
  obtain ⟨final, h⟩ := drift_passes hheld
  obtain ⟨shape, hshape, -, hentry, -⟩ :=
    (a_pass_turns_every_entry_into_its_frame h).2 1 (Entry.padding 3) rfl
  cases hshape.symm.trans hzeros
  have hangle : (Entry.padding 3).phase + frameAt .zero (drift.map Cue.entry) 1 = .infinity := by
    decide +kernel
  rw [hangle] at hentry
  exact ⟨sources, final, h, hentry⟩

/-- A pass fails with an error exactly if there is an entry that stops it with that error, behind
entries that a pass over them alone gets through. Those entries and the library are left as that
pass leaves them, and the entries behind are left as they were. A pass succeeds exactly if there is
no such entry. -/
theorem a_failed_pass_stops_at_the_first_bad_entry (detect : Bool) (sources : WaveformLibrary)
    (channel : Channel) (list : LinkList) (library : WaveformLibrary) :
    let result := apply detect sources channel list library
    let before := fun k => apply detect sources channel (list.take k) library
    (∀ err, result.answer = .error err ↔ ∃ k e e', list[k]? = some e ∧
        (before k).answer = .ok (frameAt .zero list k) ∧ (before k).list.length = k ∧
        Stops detect sources channel k (frameAt .zero list k) e (before k).library err e' ∧
        result.list = (before k).list ++ e' :: list.drop (k + 1) ∧
        result.library = (before k).library) ∧
      ((∃ final, result.answer = .ok final) ↔ ∀ k e, list[k]? = some e → ∀ err e',
        ¬ Stops detect sources channel k (frameAt .zero list k) e (before k).library err e') := by
  simp only [list_apply, library_apply, answer_apply]
  have hc := library.mem_keys_register channel
  refine ⟨?_, ?_, ?_⟩
  · intro err
    constructor
    · intro h
      obtain ⟨k, e, e', hk, hok, hstops, hlist, hlibrary⟩ := turn_stops hc h
      have hlength := (turn_passes hc hok).2.1
      rw [List.length_take_of_le (Nat.le_of_lt (List.getElem?_eq_some_iff.mp hk).1)] at hlength
      rw [Nat.zero_add] at hstops
      exact ⟨k, e, e', hk, hok, hlength, hstops, hlist, hlibrary⟩
    · rintro ⟨k, e, e', hk, hok, -, hstops, -, -⟩
      exact turn_error hc hk hok (by rwa [Nat.zero_add])
  · rintro ⟨final, h⟩ k e hk err e' hstops
    have herror := turn_error hc hk (turn_take_ok hc h k) (by rwa [Nat.zero_add])
    rw [h] at herror
    cases herror
  · intro hgood
    cases hanswer :
        (turn detect sources channel 0 .zero list (library.register channel)).answer with
    | ok final => exact ⟨final, rfl⟩
    | error err =>
      obtain ⟨k, e, e', hk, -, hstops, -, -⟩ := turn_stops hc hanswer
      rw [Nat.zero_add] at hstops
      exact absurd hstops (hgood k e hk err e')

end Frame

end PulseSequencer
