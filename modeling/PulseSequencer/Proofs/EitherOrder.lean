-- Two changes that do not set the output of the same channel can be made in either
-- order. Where both orders succeed they leave the same records, and no question
-- to the library tells which change came first.
import PulseSequencer.Proofs.WholeChanges

namespace PulseSequencer

/-! ## The same records, whatever their order -/

section Sorted

variable {α : Type} {label : α → String}

theorem pairwise_mergeSort_label (l : List α) :
    (l.mergeSort fun a b => label a ≤ label b).Pairwise fun a b => label a ≤ label b := by
  have htrans (a b c : α) (hab : decide (label a ≤ label b) = true)
      (hbc : decide (label b ≤ label c) = true) : decide (label a ≤ label c) = true :=
    decide_eq_true (String.le_trans (of_decide_eq_true hab) (of_decide_eq_true hbc))
  have htotal (a b : α) : (decide (label a ≤ label b) || decide (label b ≤ label a)) = true := by
    simp [String.le_total]
  exact (List.pairwise_mergeSort htrans htotal l).imp of_decide_eq_true

/-- Sorted by labels that differ, a list does not depend on the order it had. -/
theorem mergeSort_congr {l m : List α} (hperm : l.Perm m)
    (hlabel : ∀ a ∈ l, ∀ b ∈ l, label a = label b → a = b) :
    (l.mergeSort fun a b => label a ≤ label b) = m.mergeSort fun a b => label a ≤ label b := by
  have hsorted := (l.mergeSort_perm fun a b => label a ≤ label b).trans
    (hperm.trans (m.mergeSort_perm fun a b => label a ≤ label b).symm)
  refine List.Perm.eq_of_pairwise ?_ (pairwise_mergeSort_label l) (pairwise_mergeSort_label m)
    hsorted
  intro a b ha hb hab hba
  have ha' : a ∈ l := List.mem_mergeSort.mp ha
  have hb' : b ∈ l := hperm.mem_iff.mpr (List.mem_mergeSort.mp hb)
  exact hlabel a ha' b hb' (String.le_antisymm hab hba)

end Sorted

namespace ChannelLibrary

/-- The same records under the same labels. -/
structure SameRecords (g h : ChannelLibrary) : Prop where
  logical : g.logical.get? = h.logical.get?
  physical : g.physical.get? = h.physical.get?
  transmitters : g.transmitters.get? = h.transmitters.get?

/-- Whatever is asked of the two libraries, the answers are the same. -/
structure Indistinguishable (g h : ChannelLibrary) : Prop where
  records : g.SameRecords h
  sameAs : g.sameAs h = true
  contains : g.contains = h.contains
  logicalOfKind : g.logicalOfKind = h.logicalOfKind
  physicalChannel : g.physicalChannel = h.physicalChannel
  transmitter : g.transmitter = h.transmitter
  outputOf : g.outputOf = h.outputOf
  firstQuadrature : g.firstQuadrature = h.firstQuadrature
  logicalListing : g.logicalListing = h.logicalListing
  physicalListing : g.physicalListing = h.physicalListing
  transmitterListing : g.transmitterListing = h.transmitterListing

section

variable {g h : ChannelLibrary}

theorem SameRecords.sameAs (hsame : g.SameRecords h) : g.sameAs h = true := by
  rw [ChannelLibrary.sameAs, Table.sameContent_of_get? hsame.logical,
    Table.sameContent_of_get? hsame.physical, Table.sameContent_of_get? hsame.transmitters]
  rfl

theorem SameRecords.contains (hsame : g.SameRecords h) : g.contains = h.contains := by
  funext label
  unfold ChannelLibrary.contains
  rw [Table.contains_congr hsame.logical, Table.contains_congr hsame.physical,
    Table.contains_congr hsame.transmitters]

theorem SameRecords.physicalChannel (hsame : g.SameRecords h) :
    g.physicalChannel = h.physicalChannel := by
  funext label
  rw [ChannelLibrary.physicalChannel, hsame.physical, ChannelLibrary.physicalChannel]

theorem SameRecords.transmitter (hsame : g.SameRecords h) : g.transmitter = h.transmitter := by
  funext label
  rw [ChannelLibrary.transmitter, hsame.transmitters, ChannelLibrary.transmitter]

/-- The listings are sorted, so the order in which the records came does not show in them. -/
theorem SameRecords.logicalListing (hsame : g.SameRecords h) (hg : g.Labelled) :
    g.logicalListing = h.logicalListing := by
  funext kind
  refine mergeSort_congr ((Table.values_perm hsame.logical).filter _) ?_
  intro a ha b hb
  exact Table.eq_of_label_eq hg.logical (List.mem_filter.mp ha).1 (List.mem_filter.mp hb).1

theorem SameRecords.physicalListing (hsame : g.SameRecords h) (hg : g.Labelled) :
    g.physicalListing = h.physicalListing :=
  mergeSort_congr (Table.values_perm hsame.physical) fun _ ha _ hb =>
    Table.eq_of_label_eq hg.physical ha hb

theorem SameRecords.transmitterListing (hsame : g.SameRecords h) (hg : g.Labelled) :
    g.transmitterListing = h.transmitterListing :=
  mergeSort_congr (Table.values_perm hsame.transmitters) fun _ ha _ hb =>
    Table.eq_of_label_eq hg.transmitters ha hb

theorem SameRecords.indistinguishable (hsame : g.SameRecords h) (hg : g.Labelled) :
    g.Indistinguishable h where
  records := hsame
  sameAs := hsame.sameAs
  contains := hsame.contains
  logicalOfKind := by
    funext kind label
    rw [ChannelLibrary.logicalOfKind, hsame.logical, ChannelLibrary.logicalOfKind]
  physicalChannel := hsame.physicalChannel
  transmitter := hsame.transmitter
  outputOf := by
    funext label
    rw [ChannelLibrary.outputOf, hsame.logical, hsame.physicalChannel, ChannelLibrary.outputOf]
  firstQuadrature := by
    funext label
    rw [ChannelLibrary.firstQuadrature, hsame.transmitter, hsame.physical,
      ChannelLibrary.firstQuadrature]
  logicalListing := hsame.logicalListing hg
  physicalListing := hsame.physicalListing hg
  transmitterListing := hsame.transmitterListing hg

end

/-- The first output of a transmitter stays the first one while no record is lost: those it lists
are all there already. -/
theorem Equipped.firstQuadrature_of_kept {lib later : ChannelLibrary} (h : lib.Equipped)
    (htransmitters : ∀ label t, lib.transmitters.get? label = some t →
      later.transmitters.get? label = some t)
    (hphysical : ∀ label o, lib.physical.get? label = some o → later.physical.get? label = some o)
    {label : String} {o : PhysicalChannel} (ho : lib.firstQuadrature label = .ok o) :
    later.firstQuadrature label = .ok o := by
  rw [← ho]
  unfold firstQuadrature transmitter at ho ⊢
  cases ht : lib.transmitters.get? label with
  | none =>
    rw [ht] at ho
    cases ho
  | some t =>
    have hlisted : t.channels.filterMap later.physical.get? =
        t.channels.filterMap lib.physical.get? := by
      apply List.filterMap_congr
      intro output houtput
      obtain ⟨p, hp, _⟩ := h.listed label t ht output houtput
      rw [hp, hphysical output p hp]
    rw [htransmitters label t ht]
    dsimp only [bind, Except.bind]
    rw [hlisted]

end ChannelLibrary

/-! ## Two changes -/

namespace Change

/-- The changes do not both set the output of one qubit, nor both that of its measurement. -/
def Independent : Change → Change → Prop
  | driveQubit q _, driveQubit r _ => q ≠ r
  | measureQubit q _, measureQubit r _ => q ≠ r
  | _, _ => True

section Pair

variable {lib : ChannelLibrary} {a b : Change} {first second : Write}

/-- What a change writes depends only on outputs and transmitters that were there. -/
theorem Writes.eq_of_kept {later : ChannelLibrary} {write write' : Write}
    (h : a.Writes lib write) (h' : a.Writes later write')
    (hkept : ∀ t o, lib.firstQuadrature t = .ok o → later.firstQuadrature t = .ok o) :
    write' = write := by
  cases h with
  | install address hfree => cases h'; rfl
  | addQubit hfree => cases h'; rfl
  | addMarker houtput hkind hfree => cases h'; rfl
  | driveQubit hqubit houtput =>
    cases h' with
    | driveQubit hqubit' houtput' =>
      cases houtput'.symm.trans (hkept _ _ houtput)
      rfl
  | measureQubit hqubit houtput hlabel =>
    cases h' with
    | measureQubit hqubit' houtput' hlabel' =>
      cases houtput'.symm.trans (hkept _ _ houtput)
      rfl

theorem ne_of_measurable {qubit label : String} {physical : Option String}
    (hqubit : lib.logical.get? qubit = some ⟨qubit, .qubit, physical⟩)
    (h : lib.Measurable label) : qubit ≠ label := by
  rintro rfl
  rcases h with hfree | ⟨old, hold, hkind⟩
  · exact ne_of_free hqubit hfree rfl
  · cases hqubit.symm.trans hold
    cases hkind

/-- A qubit that is driven is not the measurement of another, so independent changes never set
the output of the same channel. -/
theorem Writes.sets?_ne (ha : a.Writes lib first) (hb : b.Writes lib second)
    (hind : a.Independent b) {l m : String} (hl : a.sets? = some l) (hm : b.sets? = some m) :
    l ≠ m := by
  cases ha with
  | driveQubit hqubit houtput =>
    cases hl
    cases hb with
    | driveQubit hqubit' houtput' =>
      cases hm
      exact hind
    | measureQubit hqubit' houtput' hlabel' =>
      cases hm
      exact ne_of_measurable hqubit hlabel'
    | _ => cases hm
  | measureQubit hqubit houtput hlabel =>
    cases hl
    cases hb with
    | driveQubit hqubit' houtput' =>
      cases hm
      exact (ne_of_measurable hqubit' hlabel).symm
    | measureQubit hqubit' houtput' hlabel' =>
      cases hm
      exact fun heq => hind ((String.append_right_inj "M-").mp heq)
    | _ => cases hm
  | _ => cases hl

/-- A channel is put under a free label, or its output is set. -/
theorem Writes.put_cases {channel : LogicalChannel} (h : a.Writes lib (.put channel)) :
    lib.contains channel.label = false ∨ a.sets? = some channel.label := by
  cases h with
  | addQubit hfree => exact Or.inl hfree
  | addMarker houtput hkind hfree => exact Or.inl hfree
  | driveQubit hqubit houtput => exact Or.inr rfl
  | measureQubit hqubit houtput hlabel => exact Or.inr rfl

theorem ne_of_free_put {channel : LogicalChannel} {label : String}
    (hfree : (lib.put channel).contains label = false) : label ≠ channel.label := by
  rintro rfl
  exact ((ChannelLibrary.not_contains_iff _ _).mp hfree).1
    (ChannelLibrary.mem_keys_logical_put.mpr (Or.inl rfl))

/-- The channels that the two put have labels of their own. -/
theorem Writes.put_label_ne {c d : LogicalChannel} (ha : a.Writes lib (.put c))
    (hb : b.Writes lib (.put d)) (hab : b.Writes (lib.put c) (.put d))
    (hba : a.Writes (lib.put d) (.put c)) (hind : a.Independent b) : c.label ≠ d.label := by
  rcases hba.put_cases with hfree | hset
  · exact ne_of_free_put hfree
  · rcases hab.put_cases with hfree' | hset'
    · exact (ne_of_free_put hfree').symm
    · exact ha.sets?_ne hb hind hset hset'

theorem sameRecords_put_put {c d : LogicalChannel} (hne : c.label ≠ d.label) :
    ((lib.put c).put d).SameRecords ((lib.put d).put c) where
  logical := Table.get?_insert_comm lib.logical hne c d
  physical := rfl
  transmitters := rfl

/-- Both transmitters were installed next to the other, so no label of one is one of the other. -/
theorem sameRecords_install_install {m n : Edit.Model} {label label' address address' : String}
    (hm : lib.Free m label) (hn : lib.Free n label')
    (hmn : (lib.install m label address).Free n label')
    (hnm : (lib.install n label' address').Free m label) :
    ((lib.install m label address).install n label' address').SameRecords
      ((lib.install n label' address').install m label address) where
  logical := rfl
  physical := by
    funext l
    apply Option.ext
    intro o
    rw [ChannelLibrary.get?_physical_install hmn, ChannelLibrary.get?_physical_install hm,
      ChannelLibrary.get?_physical_install hnm, ChannelLibrary.get?_physical_install hn,
      or_right_comm]
  transmitters := by
    have hne : label ≠ label' := by
      rintro rfl
      exact ((ChannelLibrary.not_contains_iff _ _).mp hmn.transmitter).2.2
        (ChannelLibrary.mem_keys_transmitters_install.mpr (Or.inl rfl))
    exact Table.get?_insert_comm lib.transmitters hne _ _

/-- Each write is the same whether it comes first or second, and the two touch different records. -/
theorem Writes.sameRecords (ha : a.Writes lib first) (hb : b.Writes lib second)
    (hab : b.Writes (first.on lib) second) (hba : a.Writes (second.on lib) first)
    (hind : a.Independent b) :
    (second.on (first.on lib)).SameRecords (first.on (second.on lib)) := by
  cases first with
  | put c =>
    cases second with
    | put d => exact sameRecords_put_put (ha.put_label_ne hb hab hba hind)
    | install n label' address' => exact ⟨rfl, rfl, rfl⟩
  | install m label address =>
    cases second with
    | put d => exact ⟨rfl, rfl, rfl⟩
    | install n label' address' =>
      cases ha with
      | install _ hm =>
        cases hb with
        | install _ hn =>
          cases hab with
          | install _ hmn =>
            cases hba with
            | install _ hnm => exact sameRecords_install_install hm hn hmn hnm

theorem Writes.firstQuadrature (h : a.Writes lib first) (hequipped : lib.Equipped) {t : String}
    {o : PhysicalChannel} (ho : lib.firstQuadrature t = .ok o) :
    (first.on lib).firstQuadrature t = .ok o :=
  hequipped.firstQuadrature_of_kept (fun _ _ => h.get?_transmitters) (fun _ _ => h.get?_physical) ho

theorem sameRecords_of_either_order (h : lib.Wired) (hind : a.Independent b)
    (ha : (a.edit.on lib).1 = .ok ()) (hab : (b.edit.on (a.edit.on lib).2).1 = .ok ())
    (hb : (b.edit.on lib).1 = .ok ()) (hba : (a.edit.on (b.edit.on lib).2).1 = .ok ()) :
    (b.edit.on (a.edit.on lib).2).2.SameRecords (a.edit.on (b.edit.on lib).2).2 := by
  obtain ⟨first, hfirst, hona⟩ := writes_of_ok h.labelled ha
  obtain ⟨second, hsecond, honb⟩ := writes_of_ok h.labelled hb
  have hwired : (a.edit.on lib).2.Wired := (a.effect h).wired h
  have hwired' : (b.edit.on lib).2.Wired := (b.effect h).wired h
  obtain ⟨second', hsecond', honab⟩ := writes_of_ok hwired.labelled hab
  obtain ⟨first', hfirst', honba⟩ := writes_of_ok hwired'.labelled hba
  rw [honab, honba]
  rw [hona] at hsecond' ⊢
  rw [honb] at hfirst' ⊢
  cases hsecond.eq_of_kept hsecond' fun _ _ => hfirst.firstQuadrature h.equipped
  cases hfirst.eq_of_kept hfirst' fun _ _ => hsecond.firstQuadrature h.equipped
  exact hfirst.sameRecords hsecond hsecond' hfirst' hind

end Pair

end Change

/-! ## The law -/

theorem Transaction.commit_congr {s t : Transaction} (hs : s.working.Wired) (ht : t.working.Wired)
    (h : s.working.SameRecords t.working) :
    ∃ event, s.commit = .ok (s.working, event) ∧ t.commit = .ok (t.working, event) := by
  unfold Transaction.commit
  rw [hs.validate_eq_ok, ht.validate_eq_ok, Table.size_congr h.logical,
    Table.size_congr h.physical, Table.size_congr h.transmitters]
  exact ⟨_, rfl, rfl⟩

/-- If two independent changes can be made one after the other in both orders, either order leads to
the same library, which is published with the same notice. -/
theorem independent_changes_can_be_made_in_either_order {t : Transaction}
    (h : Stage.Reachable (.staged t)) {a b : Change} (hind : a.Independent b)
    (ha : (t.apply a.edit).2 = .ok ()) (hab : ((t.apply a.edit).1.apply b.edit).2 = .ok ())
    (hb : (t.apply b.edit).2 = .ok ()) (hba : ((t.apply b.edit).1.apply a.edit).2 = .ok ()) :
    let ab := ((t.apply a.edit).1.apply b.edit).1
    let ba := ((t.apply b.edit).1.apply a.edit).1
    ab.working.Indistinguishable ba.working ∧
      ∃ event, ab.commit = .ok (ab.working, event) ∧ ba.commit = .ok (ba.working, event) := by
  intro ab ba
  have hwired : ab.working.Wired := ((h.change a).change b).wired.2
  have hwired' : ba.working.Wired := ((h.change b).change a).wired.2
  have hsame : ab.working.SameRecords ba.working :=
    Change.sameRecords_of_either_order h.wired.2 hind ha hab hb hba
  exact ⟨hsame.indistinguishable hwired.labelled, Transaction.commit_congr hwired hwired' hsame⟩

/-- The records come in another order, and nothing that is asked shows it. -/
theorem a_marker_and_a_qubit_in_either_order :
    let t := (Transaction.start .empty).applyAll Stage.rig
    let a := Change.addQubit "r"
    let b := Change.addMarker "gate" "A-m2"
    let ab := ((t.apply a.edit).1.apply b.edit).1
    let ba := ((t.apply b.edit).1.apply a.edit).1
    Stage.Reachable (.staged t) ∧ a.Independent b ∧
      (t.apply a.edit).2 = .ok () ∧ ((t.apply a.edit).1.apply b.edit).2 = .ok () ∧
      (t.apply b.edit).2 = .ok () ∧ ((t.apply b.edit).1.apply a.edit).2 = .ok () ∧
      ab.working.logical.keys = t.working.logical.keys ++ ["r", "gate"] ∧
      ba.working.logical.keys = t.working.logical.keys ++ ["gate", "r"] ∧
      ab.working.Indistinguishable ba.working := by
  intro t a b ab ba
  have hreachable : Stage.Reachable (.staged t) := Stage.Reachable.empty.start.applyAll Stage.rig
  have hind : a.Independent b := trivial
  have ha : (t.apply a.edit).2 = .ok () := by decide +kernel
  have hab : ((t.apply a.edit).1.apply b.edit).2 = .ok () := by decide +kernel
  have hb : (t.apply b.edit).2 = .ok () := by decide +kernel
  have hba : ((t.apply b.edit).1.apply a.edit).2 = .ok () := by decide +kernel
  have hsame := independent_changes_can_be_made_in_either_order hreachable hind ha hab hb hba
  exact ⟨hreachable, hind, ha, hab, hb, hba, by decide +kernel, by decide +kernel, hsame.1⟩

end PulseSequencer
