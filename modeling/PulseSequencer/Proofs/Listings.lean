-- The listings of a channel library are canonical. Each goes strictly upwards by
-- label and shows every record of its sort once, whatever the order in which they
-- came. A look-up finds what is listed and nothing else, and no label stands in
-- two listings.
import PulseSequencer.Proofs.EitherOrder

namespace PulseSequencer

/-! ## Sorted records -/

/-- The first label comes before the second, code point by code point. -/
def CodePointLT (a b : String) : Prop :=
  List.Lex (· < ·) (a.toList.map Char.toNat) (b.toList.map Char.toNat)

theorem codePointLT_of_lt {a b : String} (h : a < b) : CodePointLT a b :=
  List.map_lt (fun _ _ hlt => hlt) (String.lt_iff.mp h)

/-- A listing of what is stored. -/
structure Canonical {α : Type} [DecidableEq α] (label : α → String) (stored : List α)
    (lookup : String → Except ChannelError α) (listing : List α) : Prop where
  /-- The labels go strictly upwards. -/
  ascending : listing.Pairwise fun a b => CodePointLT (label a) (label b)
  /-- Every record stands there once, and there is nothing else. -/
  once : ∀ a ∈ stored, listing.count a = 1
  only : ∀ a ∈ listing, a ∈ stored
  /-- The labels are those that can be looked up, and what is found is what is listed. -/
  found : ∀ l, l ∈ listing.map label ↔ ∃ a, lookup l = .ok a
  same : ∀ l a, lookup l = .ok a → a ∈ listing ∧ label a = l

section Sorted

variable {α : Type} {label : α → String} {stored : List α}

/-- Labels that differ are sorted strictly. -/
theorem ascending_mergeSort (h : (stored.map label).Nodup) :
    (stored.mergeSort fun a b => label a ≤ label b).Pairwise fun a b =>
      CodePointLT (label a) (label b) := by
  have hperm := stored.mergeSort_perm fun a b => label a ≤ label b
  have hne : (stored.mergeSort fun a b => label a ≤ label b).Pairwise
      fun a b => label a ≠ label b :=
    List.pairwise_map.mp ((hperm.map label).nodup_iff.mpr h)
  refine List.Pairwise.imp₂ ?_ (pairwise_mergeSort_label stored) hne
  intro a b hle hne
  exact codePointLT_of_lt (String.not_le.mp fun hge => hne (String.le_antisymm hle hge))

variable [DecidableEq α]

theorem canonical_mergeSort (h : (stored.map label).Nodup)
    {lookup : String → Except ChannelError α}
    (hlookup : ∀ l a, lookup l = .ok a ↔ a ∈ stored ∧ label a = l) :
    Canonical label stored lookup (stored.mergeSort fun a b => label a ≤ label b) where
  ascending := ascending_mergeSort h
  once a ha := by
    rw [(List.mergeSort_perm _ _).count_eq]
    exact List.count_eq_one_of_mem (.of_map label h) ha
  only a ha := List.mem_mergeSort.mp ha
  found l := by
    simp only [List.mem_map, List.mem_mergeSort, hlookup]
  same l a hfound := by
    obtain ⟨ha, hlabel⟩ := (hlookup l a).mp hfound
    exact ⟨List.mem_mergeSort.mpr ha, hlabel⟩

section Table

variable {t : Table String α} (h : ∀ key a, t.get? key = some a → label a = key)

include h

/-- A table whose records are stored under their labels has no label twice. -/
theorem canonical_values {lookup : String → Except ChannelError α}
    (hlookup : ∀ l a, lookup l = .ok a ↔ t.get? l = some a) :
    Canonical label t.values lookup (t.values.mergeSort fun a b => label a ≤ label b) := by
  refine canonical_mergeSort ?_ ?_
  · rw [Table.map_label_values h]
    exact t.keys_nodup
  · intro l a
    rw [hlookup, Table.get?_eq_some_iff_label h]

omit [DecidableEq α] in
theorem mem_labels_mergeSort (l : String) :
    l ∈ (t.values.mergeSort fun a b => label a ≤ label b).map label ↔ l ∈ t.keys := by
  rw [((List.mergeSort_perm _ _).map label).mem_iff, Table.map_label_values h]

end Table

end Sorted

namespace ChannelLibrary

variable {lib : ChannelLibrary}

/-! ## The listings of a library -/

theorem Labelled.canonical_logical (h : lib.Labelled) (kind : LogicalKind) :
    Canonical (·.label) (lib.logical.values.filter (·.kind = kind)) (lib.logicalOfKind kind)
      (lib.logicalListing kind) := by
  refine canonical_mergeSort ?_ ?_
  · apply List.Nodup.sublist (List.filter_sublist.map _)
    rw [Table.map_label_values h.logical]
    exact lib.logical.keys_nodup
  · intro l c
    rw [logicalOfKind_eq_ok, Table.get?_eq_some_iff_label h.logical, List.mem_filter,
      decide_eq_true_eq, and_right_comm]

theorem Labelled.canonical_physical (h : lib.Labelled) :
    Canonical (·.label) lib.physical.values lib.physicalChannel lib.physicalListing :=
  canonical_values h.physical fun _ _ => physicalChannel_eq_ok

theorem Labelled.canonical_transmitters (h : lib.Labelled) :
    Canonical (·.label) lib.transmitters.values lib.transmitter lib.transmitterListing :=
  canonical_values h.transmitters fun _ _ => transmitter_eq_ok

/-- A logical channel is in the listing of its kind and in no other. -/
theorem Labelled.count_logicalListing (h : lib.Labelled) {c : LogicalChannel}
    (hc : c ∈ lib.logical.values) (kind : LogicalKind) :
    (lib.logicalListing kind).count c = if c.kind = kind then 1 else 0 := by
  have hlisting := h.canonical_logical kind
  split
  · rename_i hkind
    exact hlisting.once c (by simp [hc, hkind])
  · rename_i hkind
    rw [List.count_eq_zero]
    intro hmem
    have hstored := hlisting.only c hmem
    simp [hkind] at hstored

theorem Labelled.count_logical (h : lib.Labelled) {c : LogicalChannel}
    (hc : c ∈ lib.logical.values) :
    (lib.logicalListing .qubit ++ lib.logicalListing .measurement ++
      lib.logicalListing .marker).count c = 1 := by
  simp only [List.count_append, h.count_logicalListing hc]
  cases c.kind <;> rfl

/-! ## The labels of all listings -/

/-- The labels that the five listings show. -/
def labelListings (lib : ChannelLibrary) : List (List String) :=
  [(lib.logicalListing .qubit).map (·.label), (lib.logicalListing .measurement).map (·.label),
    (lib.logicalListing .marker).map (·.label), lib.transmitterListing.map (·.label),
    lib.physicalListing.map (·.label)]

theorem Labelled.mem_labels_logical (h : lib.Labelled) (kind : LogicalKind) (l : String) :
    l ∈ (lib.logicalListing kind).map (·.label) ↔
      (lib.logical.get? l).map (·.kind) = some kind := by
  rw [(h.canonical_logical kind).found, Option.map_eq_some_iff]
  simp only [logicalOfKind_eq_ok]

theorem Labelled.mem_labels_physical (h : lib.Labelled) (l : String) :
    l ∈ lib.physicalListing.map (·.label) ↔ l ∈ lib.physical.keys :=
  mem_labels_mergeSort h.physical l

theorem Labelled.mem_labels_transmitters (h : lib.Labelled) (l : String) :
    l ∈ lib.transmitterListing.map (·.label) ↔ l ∈ lib.transmitters.keys :=
  mem_labels_mergeSort h.transmitters l

/-- A label of the library stands in one listing, and no other label does in any. -/
theorem Wired.countP_labelListings (h : lib.Wired) (l : String) :
    lib.labelListings.countP (·.contains l) = if lib.contains l then 1 else 0 := by
  simp only [labelListings, List.countP_cons, List.countP_nil, List.contains_iff_mem,
    h.labelled.mem_labels_logical, h.labelled.mem_labels_physical,
    h.labelled.mem_labels_transmitters, contains_iff]
  cases hget : lib.logical.get? l with
  | some c =>
    have hkey : l ∈ lib.logical.keys := Table.mem_keys_of_get? hget
    have hphysical : l ∉ lib.physical.keys := h.unambiguous.logical_physical hkey
    have htransmitters : l ∉ lib.transmitters.keys := h.unambiguous.logical_transmitters hkey
    -- Its kind says which of the first three listings has it.
    cases hkind : c.kind <;> simp [hkey, hphysical, htransmitters, hkind]
  | none =>
    have hkey : l ∉ lib.logical.keys := (Table.get?_eq_none_iff _ _).mp hget
    by_cases hphysical : l ∈ lib.physical.keys
    · have htransmitters : l ∉ lib.transmitters.keys :=
        h.unambiguous.physical_transmitters hphysical
      simp [hkey, hphysical, htransmitters]
    · simp [hkey, hphysical]

end ChannelLibrary

/-! ## The law -/

/-- Whatever was changed before, every record is listed once, each logical channel with those of its
kind, and the labels of a library are those that stand in one of its listings and no other. -/
theorem every_listing_is_canonical {lib : ChannelLibrary} (h : Stage.Reachable (.published lib)) :
    (∀ kind, Canonical (·.label) (lib.logical.values.filter (·.kind = kind))
      (lib.logicalOfKind kind) (lib.logicalListing kind)) ∧
    (∀ c ∈ lib.logical.values, (lib.logicalListing .qubit ++ lib.logicalListing .measurement ++
      lib.logicalListing .marker).count c = 1) ∧
    Canonical (·.label) lib.transmitters.values lib.transmitter lib.transmitterListing ∧
    Canonical (·.label) lib.physical.values lib.physicalChannel lib.physicalListing ∧
    ∀ l, lib.contains l = true ↔ lib.labelListings.countP (·.contains l) = 1 := by
  have hwired : lib.Wired := h.wired
  refine ⟨hwired.labelled.canonical_logical, fun c => hwired.labelled.count_logical,
    hwired.labelled.canonical_transmitters, hwired.labelled.canonical_physical, fun l => ?_⟩
  rw [hwired.countP_labelListings]
  cases lib.contains l <;> simp

/-- The qubits came in another order, and in 16-bit units the last two would change places. -/
theorem a_rig_is_listed :
    let changes := .addQubit "😀" :: .addQubit "～" :: Stage.rig
    let lib := ((Transaction.start .empty).applyAll changes).working
    let qubits : List LogicalChannel := [⟨"B-34", .qubit, none⟩, ⟨"q", .qubit, some "A-1"⟩,
      ⟨"～", .qubit, none⟩, ⟨"😀", .qubit, none⟩]
    Stage.Reachable (.published lib) ∧
      lib.logical.keys = ["😀", "～", "q", "B-34", "M-q", "trigger"] ∧
      lib.logicalListing .qubit = qubits ∧
      qubits.Pairwise (fun a b => CodePointLT a.label b.label) ∧
      (∃ c, lib.logicalOfKind .qubit "～" = .ok c) ∧
      lib.contains "A-m2" = true ∧ lib.labelListings.countP (·.contains "A-m2") = 1 := by
  intro changes lib qubits
  have hstaged : Stage.Reachable (.staged ((Transaction.start .empty).applyAll changes)) :=
    Stage.Reachable.empty.start.applyAll changes
  obtain ⟨event, hcommit⟩ := Stage.commit_eq_ok hstaged.wired.2
  have hreachable : Stage.Reachable (.published lib) := hstaged.commit hcommit
  obtain ⟨hlogical, _, _, _, hcontains⟩ := every_listing_is_canonical hreachable
  have hlisting : lib.logicalListing .qubit = qubits := by
    have hperm : (lib.logical.values.filter (·.kind = .qubit)).Perm qubits := by decide +kernel
    rw [ChannelLibrary.logicalListing, mergeSort_congr hperm (by decide +kernel)]
    exact List.mergeSort_of_pairwise (by decide +kernel)
  have hqubits := hlogical .qubit
  rw [hlisting] at hqubits
  have hmember : lib.contains "A-m2" = true := by decide +kernel
  exact ⟨hreachable, by decide +kernel, hlisting, hqubits.ascending,
    (hqubits.found "～").mp (by decide), hmember, (hcontains "A-m2").mp hmember⟩

end PulseSequencer
