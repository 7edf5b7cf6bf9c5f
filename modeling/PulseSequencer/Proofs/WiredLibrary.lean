-- When a channel library is wired: what is referred to exists, and is what it is
-- taken for. Both writes keep a library wired, and a wired library passes its own
-- validation and answers every question that its labels allow.
import Mathlib.Data.List.Nodup
import PulseSequencer.Proofs.Edits
import PulseSequencer.Proofs.Tables

namespace PulseSequencer

/-- The kind of output that a logical channel is played on. -/
def LogicalKind.output : LogicalKind → OutputKind
  | qubit => .quadrature
  | measurement => .quadrature
  | marker => .marker

namespace ChannelLibrary

/-! ## What a wired library is -/

/-- Each record is stored under its own label. -/
structure Labelled (lib : ChannelLibrary) : Prop where
  logical : ∀ label c, lib.logical.get? label = some c → c.label = label
  physical : ∀ label o, lib.physical.get? label = some o → o.label = label
  transmitters : ∀ label t, lib.transmitters.get? label = some t → t.label = label

/-- A label stands for one thing only. -/
structure Unambiguous (lib : ChannelLibrary) : Prop where
  logical_physical : lib.logical.keys.Disjoint lib.physical.keys
  logical_transmitters : lib.logical.keys.Disjoint lib.transmitters.keys
  physical_transmitters : lib.physical.keys.Disjoint lib.transmitters.keys

/-- If a channel has an output, that exists and is of the kind the channel needs. -/
def Plays (lib : ChannelLibrary) (c : LogicalChannel) : Prop :=
  ∀ output, c.physical = some output →
    ∃ o, lib.physical.get? output = some o ∧ o.kind = c.kind.output

def Played (lib : ChannelLibrary) : Prop :=
  ∀ label c, lib.logical.get? label = some c → lib.Plays c

/-- A transmitter lists its own outputs, one for complex samples among them, and each output is
listed once by the transmitter it belongs to. -/
structure Equipped (lib : ChannelLibrary) : Prop where
  listed : ∀ label t, lib.transmitters.get? label = some t → ∀ output ∈ t.channels,
    ∃ o, lib.physical.get? output = some o ∧ o.instrument = label
  owned : ∀ label o, lib.physical.get? label = some o →
    ∃ t, lib.transmitters.get? o.instrument = some t ∧ t.channels.count label = 1
  quadrature : ∀ label t, lib.transmitters.get? label = some t →
    ∃ output ∈ t.channels, ∃ o, lib.physical.get? output = some o ∧ o.kind = .quadrature

/-- A label that a measurement may have: it is made from the label of a qubit. -/
def NamesQubit (lib : ChannelLibrary) (label : String) : Prop :=
  ∃ qubit q, label = "M-" ++ qubit ∧ lib.logical.get? qubit = some q ∧ q.kind = .qubit

/-- Every measurement is that of a qubit. -/
def Measured (lib : ChannelLibrary) : Prop :=
  ∀ label c, lib.logical.get? label = some c → c.kind = .measurement → lib.NamesQubit label

structure Wired (lib : ChannelLibrary) : Prop where
  labelled : lib.Labelled
  unambiguous : lib.Unambiguous
  played : lib.Played
  equipped : lib.Equipped
  measured : lib.Measured

theorem plays_some {lib : ChannelLibrary} (label : String) (kind : LogicalKind) {output : String}
    {o : PhysicalChannel} (ho : lib.physical.get? output = some o) (hkind : o.kind = kind.output) :
    lib.Plays ⟨label, kind, some output⟩ := by
  intro _ houtput
  cases houtput
  exact ⟨o, ho, hkind⟩

theorem wired_empty : Wired .empty where
  labelled := ⟨nofun, nofun, nofun⟩
  unambiguous := ⟨List.disjoint_nil_left _, List.disjoint_nil_left _, List.disjoint_nil_left _⟩
  played := nofun
  equipped := ⟨nofun, nofun, nofun⟩
  measured := nofun

theorem contains_iff (lib : ChannelLibrary) (label : String) :
    lib.contains label = true ↔
      label ∈ lib.logical.keys ∨ label ∈ lib.physical.keys ∨ label ∈ lib.transmitters.keys := by
  simp only [contains, Bool.or_eq_true, Table.contains_iff, or_assoc]

theorem not_contains_iff (lib : ChannelLibrary) (label : String) :
    lib.contains label = false ↔
      label ∉ lib.logical.keys ∧ label ∉ lib.physical.keys ∧ label ∉ lib.transmitters.keys := by
  rw [← Bool.not_eq_true, contains_iff, not_or, not_or]

/-! ## Putting a logical channel -/

theorem get?_logical_put (lib : ChannelLibrary) (channel : LogicalChannel) (label : String) :
    (lib.put channel).logical.get? label =
      if label = channel.label then some channel else lib.logical.get? label :=
  Table.get?_insert _ _ _ _

theorem mem_keys_logical_put {lib : ChannelLibrary} {channel : LogicalChannel} {label : String} :
    label ∈ (lib.put channel).logical.keys ↔ label = channel.label ∨ label ∈ lib.logical.keys :=
  Table.mem_keys_insert

/-- A logical channel that may be put: its label is free, or that of a channel of its kind; its
output is there and of the right kind; and if it is a measurement, it is named for a qubit. -/
structure Fits (lib : ChannelLibrary) (channel : LogicalChannel) : Prop where
  physical : channel.label ∉ lib.physical.keys
  transmitters : channel.label ∉ lib.transmitters.keys
  logical : ∀ old, lib.logical.get? channel.label = some old → old.kind = channel.kind
  played : lib.Plays channel
  measured : channel.kind = .measurement → lib.NamesQubit channel.label

section Put

variable {lib : ChannelLibrary} {channel : LogicalChannel}

/-- What has a free label need only be played and named as its kind asks. -/
theorem Fits.of_free (hfree : lib.contains channel.label = false) (hplayed : lib.Plays channel)
    (hmeasured : channel.kind = .measurement → lib.NamesQubit channel.label) :
    lib.Fits channel := by
  obtain ⟨hlogical, hphysical, htransmitters⟩ := (not_contains_iff lib _).mp hfree
  refine ⟨hphysical, htransmitters, ?_, hplayed, hmeasured⟩
  intro old hold
  exact absurd (Table.mem_keys_of_get? hold) hlogical

/-- So does what takes the place of a channel of its kind. -/
theorem Fits.of_same_kind (h : lib.Unambiguous) {old : LogicalChannel}
    (hold : lib.logical.get? channel.label = some old) (hkind : old.kind = channel.kind)
    (hplayed : lib.Plays channel)
    (hmeasured : channel.kind = .measurement → lib.NamesQubit channel.label) :
    lib.Fits channel := by
  have hkey := Table.mem_keys_of_get? hold
  refine ⟨h.logical_physical hkey, h.logical_transmitters hkey, ?_, hplayed, hmeasured⟩
  intro other hother
  rw [hold] at hother
  cases hother
  exact hkind

/-- A qubit can be replaced only by a qubit, so a measurement stays that of a qubit. -/
theorem NamesQubit.put {label : String} (h : lib.NamesQubit label) (hfits : lib.Fits channel) :
    (lib.put channel).NamesQubit label := by
  obtain ⟨qubit, q, hlabel, hq, hkind⟩ := h
  by_cases heq : qubit = channel.label
  · subst heq
    refine ⟨_, channel, hlabel, ?_, (hfits.logical q hq).symm.trans hkind⟩
    rw [get?_logical_put, if_pos rfl]
  · refine ⟨qubit, q, hlabel, ?_, hkind⟩
    rw [get?_logical_put, if_neg heq]
    exact hq

theorem Labelled.put (h : lib.Labelled) : (lib.put channel).Labelled where
  logical label c hc := by
    rw [get?_logical_put] at hc
    split at hc
    · rename_i heq
      cases hc
      exact heq.symm
    · exact h.logical label c hc
  physical := h.physical
  transmitters := h.transmitters

theorem Unambiguous.put (h : lib.Unambiguous) (hfits : lib.Fits channel) :
    (lib.put channel).Unambiguous where
  logical_physical label hlabel := by
    rcases mem_keys_logical_put.mp hlabel with rfl | hold
    · exact hfits.physical
    · exact h.logical_physical hold
  logical_transmitters label hlabel := by
    rcases mem_keys_logical_put.mp hlabel with rfl | hold
    · exact hfits.transmitters
    · exact h.logical_transmitters hold
  physical_transmitters := h.physical_transmitters

theorem Played.put (h : lib.Played) (hfits : lib.Fits channel) : (lib.put channel).Played := by
  intro label c hc
  rw [get?_logical_put] at hc
  split at hc
  · cases hc
    exact hfits.played
  · exact h label c hc

theorem Equipped.put (h : lib.Equipped) : (lib.put channel).Equipped :=
  ⟨h.listed, h.owned, h.quadrature⟩

theorem Measured.put (h : lib.Measured) (hfits : lib.Fits channel) :
    (lib.put channel).Measured := by
  intro label c hc hkind
  rw [get?_logical_put] at hc
  split at hc
  · rename_i heq
    cases hc
    subst heq
    exact (hfits.measured hkind).put hfits
  · exact (h label c hc hkind).put hfits

theorem Wired.put (h : lib.Wired) (hfits : lib.Fits channel) : (lib.put channel).Wired where
  labelled := h.labelled.put
  unambiguous := h.unambiguous.put hfits
  played := h.played.put hfits
  equipped := h.equipped.put
  measured := h.measured.put hfits

end Put

end ChannelLibrary

/-! ## The outputs of a new transmitter -/

namespace Edit.Model

/-- The labels made for the outputs differ from each other and from that of the transmitter,
whatever that is: the endings do. -/
theorem labels_nodup (model : Model) (label : String) : (model.labels label).Nodup := by
  have hne (ending : String) (h : ending ≠ "") : label ≠ label ++ ending := by
    symm
    simpa using h
  cases model <;> simp [labels, channels, outputs, hne]

theorem instrument_eq {model : Model} {label : String} {o : PhysicalChannel}
    (h : o ∈ model.channels label) : o.instrument = label := by
  obtain ⟨_, _, rfl⟩ := List.mem_map.mp h
  rfl

theorem exists_quadrature (model : Model) (label : String) :
    ∃ o ∈ model.channels label, o.kind = .quadrature := by
  cases model <;> exact ⟨_, List.mem_cons_self, rfl⟩

end Edit.Model

namespace ChannelLibrary

/-- Nothing has the label of the new transmitter, or of one of its outputs. -/
def Free (lib : ChannelLibrary) (model : Edit.Model) (label : String) : Prop :=
  ∀ l ∈ model.labels label, lib.contains l = false

section Install

variable {lib : ChannelLibrary} {model : Edit.Model} {label : String} {address : String}

theorem Free.transmitter (h : lib.Free model label) : lib.contains label = false :=
  h label List.mem_cons_self

theorem Free.output (h : lib.Free model label) {o : PhysicalChannel}
    (ho : o ∈ model.channels label) : lib.contains o.label = false :=
  h o.label (List.mem_cons_of_mem _ (List.mem_map_of_mem ho))

theorem get?_transmitters_install (l : String) :
    (lib.install model label address).transmitters.get? l =
      if l = label then some (model.transmitter label address) else lib.transmitters.get? l :=
  Table.get?_insert _ _ _ _

theorem mem_keys_transmitters_install {l : String} :
    l ∈ (lib.install model label address).transmitters.keys ↔
      l = label ∨ l ∈ lib.transmitters.keys :=
  Table.mem_keys_insert

/-- No output is lost or replaced, and the new ones are all there. -/
theorem get?_physical_install (hfree : lib.Free model label) {l : String} {o : PhysicalChannel} :
    (lib.install model label address).physical.get? l = some o ↔
      lib.physical.get? l = some o ∨ o ∈ model.channels label ∧ o.label = l := by
  let added := (model.channels label).map fun o => (o.label, o)
  have hkeys : added.map Prod.fst = (model.channels label).map (·.label) := by
    simp [added, Function.comp_def]
  have hnodup : ((lib.physical.entries ++ added).map Prod.fst).Nodup := by
    rw [List.map_append, hkeys]
    refine List.nodup_append.mpr ⟨lib.physical.nodup, (model.labels_nodup label).of_cons, ?_⟩
    rintro l hl _ hadded rfl
    obtain ⟨o, ho, rfl⟩ := List.mem_map.mp hadded
    exact ((not_contains_iff lib _).mp (hfree.output ho)).2.1 hl
  have hentries : (lib.install model label address).physical.entries =
      lib.physical.entries ++ added := by
    rw [← Table.entries_foldl_insert added lib.physical hnodup, List.foldl_map]
    rfl
  rw [← Table.mem_entries_iff, hentries, List.mem_append, Table.mem_entries_iff]
  simp [added, and_comm]

theorem mem_keys_physical_install (hfree : lib.Free model label) {l : String} :
    l ∈ (lib.install model label address).physical.keys ↔
      l ∈ lib.physical.keys ∨ ∃ o ∈ model.channels label, o.label = l := by
  simp only [← Table.get?_isSome, Option.isSome_iff_exists, get?_physical_install hfree, exists_or]

theorem Labelled.install (h : lib.Labelled) (hfree : lib.Free model label) :
    (lib.install model label address).Labelled where
  logical := h.logical
  physical l o ho := by
    rcases (get?_physical_install hfree).mp ho with hold | ⟨_, hl⟩
    · exact h.physical l o hold
    · exact hl
  transmitters l t ht := by
    rw [get?_transmitters_install] at ht
    split at ht
    · rename_i heq
      cases ht
      exact heq.symm
    · exact h.transmitters l t ht

theorem Unambiguous.install (h : lib.Unambiguous) (hfree : lib.Free model label) :
    (lib.install model label address).Unambiguous where
  logical_physical l hlogical hphysical := by
    rcases (mem_keys_physical_install hfree).mp hphysical with hold | ⟨o, ho, rfl⟩
    · exact h.logical_physical hlogical hold
    · exact ((not_contains_iff lib _).mp (hfree.output ho)).1 hlogical
  logical_transmitters l hlogical htransmitter := by
    rcases mem_keys_transmitters_install.mp htransmitter with rfl | hold
    · exact ((not_contains_iff lib _).mp hfree.transmitter).1 hlogical
    · exact h.logical_transmitters hlogical hold
  physical_transmitters l hphysical htransmitter := by
    rcases (mem_keys_physical_install hfree).mp hphysical with hold | ⟨o, ho, rfl⟩ <;>
      rcases mem_keys_transmitters_install.mp htransmitter with heq | hold'
    · subst heq
      exact ((not_contains_iff lib _).mp hfree.transmitter).2.1 hold
    · exact h.physical_transmitters hold hold'
    · -- an output would have the label of its own transmitter
      have hmem : o.label ∈ (model.channels label).map (·.label) := List.mem_map_of_mem ho
      rw [heq] at hmem
      exact (List.nodup_cons.mp (model.labels_nodup label)).1 hmem
    · exact ((not_contains_iff lib _).mp (hfree.output ho)).2.2 hold'

theorem Played.install (h : lib.Played) (hfree : lib.Free model label) :
    (lib.install model label address).Played := by
  intro l c hc output houtput
  obtain ⟨o, ho, hkind⟩ := h l c hc output houtput
  exact ⟨o, (get?_physical_install hfree).mpr (Or.inl ho), hkind⟩

/-- A transmitter that was there is not the new one. -/
theorem get?_transmitters_install_of_get? (hfree : lib.Free model label) {l : String}
    {t : Transmitter} (ht : lib.transmitters.get? l = some t) :
    (lib.install model label address).transmitters.get? l = some t := by
  have hne : l ≠ label := by
    rintro rfl
    exact ((not_contains_iff lib _).mp hfree.transmitter).2.2 (Table.mem_keys_of_get? ht)
  rw [get?_transmitters_install, if_neg hne, ht]

theorem Equipped.install (h : lib.Equipped) (hfree : lib.Free model label) :
    (lib.install model label address).Equipped where
  listed l t ht output houtput := by
    simp only [get?_physical_install hfree]
    rw [get?_transmitters_install] at ht
    split at ht
    · rename_i heq
      cases ht
      subst heq
      obtain ⟨o, ho, rfl⟩ := List.mem_map.mp houtput
      exact ⟨o, Or.inr ⟨ho, rfl⟩, Edit.Model.instrument_eq ho⟩
    · obtain ⟨o, ho, hinstrument⟩ := h.listed l t ht output houtput
      exact ⟨o, Or.inl ho, hinstrument⟩
  owned l o ho := by
    rcases (get?_physical_install hfree).mp ho with hold | ⟨hnew, rfl⟩
    · obtain ⟨t, ht, hcount⟩ := h.owned l o hold
      exact ⟨t, get?_transmitters_install_of_get? hfree ht, hcount⟩
    · refine ⟨model.transmitter label address, ?_, ?_⟩
      · rw [get?_transmitters_install, if_pos (Edit.Model.instrument_eq hnew)]
      · exact List.count_eq_one_of_mem (model.labels_nodup label).of_cons
          (List.mem_map_of_mem hnew)
  quadrature l t ht := by
    simp only [get?_physical_install hfree]
    rw [get?_transmitters_install] at ht
    split at ht
    · cases ht
      obtain ⟨o, ho, hkind⟩ := model.exists_quadrature label
      exact ⟨o.label, List.mem_map_of_mem ho, o, Or.inr ⟨ho, rfl⟩, hkind⟩
    · obtain ⟨output, houtput, o, ho, hkind⟩ := h.quadrature l t ht
      exact ⟨output, houtput, o, Or.inl ho, hkind⟩

theorem Wired.install (h : lib.Wired) (hfree : lib.Free model label) :
    (lib.install model label address).Wired where
  labelled := h.labelled.install hfree
  unambiguous := h.unambiguous.install hfree
  played := h.played.install hfree
  equipped := h.equipped.install hfree
  measured := h.measured

end Install

/-! ## What a wired library answers -/

section Answers

variable {lib : ChannelLibrary}

theorem logicalOfKind_eq_ok {kind : LogicalKind} {label : String} {c : LogicalChannel} :
    lib.logicalOfKind kind label = .ok c ↔ lib.logical.get? label = some c ∧ c.kind = kind := by
  unfold logicalOfKind
  cases lib.logical.get? label with
  | none => simp
  | some d => by_cases hkind : d.kind = kind <;> grind

theorem logicalOfKind_eq_error {kind : LogicalKind} {label : String} {e : ChannelError}
    (h : lib.logicalOfKind kind label = .error e) : e = .unknown (.logical kind) label := by
  unfold logicalOfKind at h
  split at h <;> cases h
  rfl

theorem physicalChannel_eq_ok {label : String} {o : PhysicalChannel} :
    lib.physicalChannel label = .ok o ↔ lib.physical.get? label = some o := by
  unfold physicalChannel
  cases lib.physical.get? label <;> simp

theorem transmitter_eq_ok {label : String} {t : Transmitter} :
    lib.transmitter label = .ok t ↔ lib.transmitters.get? label = some t := by
  unfold transmitter
  cases lib.transmitters.get? label <;> simp

/-- The first output for complex samples is an output of the library. -/
theorem Labelled.firstQuadrature_eq_ok (h : lib.Labelled) {label : String} {o : PhysicalChannel}
    (ho : lib.firstQuadrature label = .ok o) :
    lib.physical.get? o.label = some o ∧ o.kind = .quadrature := by
  unfold firstQuadrature at ho
  cases ht : lib.transmitter label with
  | error e =>
    rw [ht] at ho
    cases ho
  | ok t =>
    rw [ht] at ho
    dsimp only [bind, Except.bind] at ho
    split at ho <;> cases ho
    rename_i hfound
    obtain ⟨output, _, hget⟩ := List.mem_filterMap.mp (List.mem_of_find?_eq_some hfound)
    rw [h.physical output o hget]
    exact ⟨hget, by simpa using List.find?_some hfound⟩

/-- Every transmitter has an output for complex samples, so only its absence is in the way. -/
theorem Equipped.firstQuadrature_eq_error (h : lib.Equipped) {label : String} {e : ChannelError}
    (he : lib.firstQuadrature label = .error e) : e = .unknown .transmitter label := by
  unfold firstQuadrature transmitter at he
  cases ht : lib.transmitters.get? label with
  | none =>
    rw [ht] at he
    cases he
    rfl
  | some t =>
    rw [ht] at he
    dsimp only [bind, Except.bind] at he
    split at he <;> cases he
    rename_i hnone
    obtain ⟨output, houtput, o, ho, hkind⟩ := h.quadrature label t ht
    have hnot := List.find?_eq_none.mp hnone o (List.mem_filterMap.mpr ⟨output, houtput, ho⟩)
    simp [hkind] at hnot

/-- A channel that is there and has an output is played on it. -/
theorem Played.outputOf_eq_error (h : lib.Played) {label : String} {e : ChannelError}
    (he : lib.outputOf label = .error e) : e = .unknown .anyLogical label ∨ e = .unmapped label := by
  unfold outputOf at he
  split at he
  · cases he
    exact Or.inl rfl
  · rename_i c hc
    split at he
    · cases he
      exact Or.inr rfl
    · rename_i output houtput
      obtain ⟨o, ho, _⟩ := h label c hc output houtput
      simp [physicalChannel, ho] at he

theorem Played.checkLogical_eq_ok (h : lib.Played) {label : String} {c : LogicalChannel}
    (hc : lib.logical.get? label = some c) : lib.checkLogical c = .ok () := by
  unfold checkLogical
  split
  · rfl
  · rename_i output houtput
    obtain ⟨o, ho, _⟩ := h label c hc output houtput
    rw [if_pos ((Table.contains_iff _ _).mpr (Table.mem_keys_of_get? ho))]

theorem Wired.checkOutput_eq_ok (h : lib.Wired) {label : String} {t : Transmitter}
    (ht : lib.transmitters.get? label = some t) {output : String} (houtput : output ∈ t.channels) :
    lib.checkOutput t output = .ok () := by
  obtain ⟨o, ho, hinstrument⟩ := h.equipped.listed label t ht output houtput
  rw [checkOutput, ho, h.labelled.transmitters label t ht]
  simp [hinstrument]

theorem forM_eq_ok {α ε : Type} {check : α → Except ε Unit} {l : List α}
    (h : ∀ a ∈ l, check a = .ok ()) : l.forM check = .ok () := by
  induction l with
  | nil => rfl
  | cons a rest ih =>
    have hrest : rest.forM check = .ok () := ih fun b hb => h b (List.mem_cons_of_mem _ hb)
    rw [← hrest]
    show (check a >>= fun _ => rest.forM check) = rest.forM check
    rw [h a List.mem_cons_self]
    rfl

theorem Wired.validate_eq_ok (h : lib.Wired) : lib.validate = .ok () := by
  have hlogical : lib.logical.values.forM lib.checkLogical = .ok () := by
    apply forM_eq_ok
    intro c hc
    obtain ⟨label, hget⟩ := Table.mem_values_iff.mp hc
    exact h.played.checkLogical_eq_ok hget
  have htransmitters : (lib.transmitters.values.forM fun t =>
      t.channels.forM (lib.checkOutput t)) = .ok () := by
    apply forM_eq_ok
    intro t ht
    obtain ⟨label, hget⟩ := Table.mem_values_iff.mp ht
    exact forM_eq_ok fun output houtput => h.checkOutput_eq_ok hget houtput
  unfold validate
  rw [hlogical]
  exact htransmitters

end Answers

end ChannelLibrary

end PulseSequencer
