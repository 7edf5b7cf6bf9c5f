-- What each change does to a channel library. A change that fails leaves the
-- library as it is; one that succeeds puts one logical channel, or installs one
-- transmitter with its outputs.
import PulseSequencer.ChannelLibrary.Edit

namespace PulseSequencer

/-! ## The two writes -/

/-- A new transmitter, which lists its outputs. -/
def Edit.Model.transmitter (model : Edit.Model) (label address : String) : Transmitter :=
  ⟨label, model.name, address, "external", (model.channels label).map (·.label)⟩

/-- The labels that have to be free for a transmitter. -/
def Edit.Model.labels (model : Edit.Model) (label : String) : List String :=
  label :: (model.channels label).map (·.label)

namespace ChannelLibrary

/-- The library with a logical channel under its label. -/
def put (lib : ChannelLibrary) (channel : LogicalChannel) : ChannelLibrary :=
  { lib with logical := lib.logical.insert channel.label channel }

/-- The library with a transmitter and its outputs. -/
def install (lib : ChannelLibrary) (model : Edit.Model) (label address : String) :
    ChannelLibrary :=
  { lib with
    physical := (model.channels label).foldl (fun table o => table.insert o.label o) lib.physical
    transmitters := lib.transmitters.insert label (model.transmitter label address) }

end ChannelLibrary

/-! ## Running a change -/

namespace Edit

variable {α β : Type}

/-- What a change answers, and what it leaves of a library. -/
def on (edit : Edit α) (lib : ChannelLibrary) : Except ChannelError α × ChannelLibrary :=
  edit.run.run lib

@[simp] theorem on_pure (a : α) (lib : ChannelLibrary) : (pure a : Edit α).on lib = (.ok a, lib) :=
  rfl

@[simp] theorem on_throw (e : ChannelError) (lib : ChannelLibrary) :
    (throw e : Edit α).on lib = (.error e, lib) := rfl

@[simp] theorem on_get (lib : ChannelLibrary) :
    (get : Edit ChannelLibrary).on lib = (.ok lib, lib) := rfl

/-- The next change works on what the one before left, unless that one failed. -/
@[simp] theorem on_bind (edit : Edit α) (next : α → Edit β) (lib : ChannelLibrary) :
    (edit >>= next).on lib =
      match edit.on lib with
      | (.ok a, middle) => (next a).on middle
      | (.error e, middle) => (.error e, middle) := by
  unfold on
  simp only [ExceptT.run_bind, StateT.run_bind]
  rcases edit.run.run lib with ⟨_ | _, _⟩ <;> rfl

@[simp] theorem on_discard (edit : Edit α) (lib : ChannelLibrary) :
    (discard edit : Edit PUnit).on lib =
      ((edit.on lib).1.map fun _ => (), (edit.on lib).2) := by
  have hmap : (discard edit : Edit PUnit) = edit >>= fun _ => pure () := rfl
  rw [hmap, on_bind]
  rcases edit.on lib with ⟨_ | _, _⟩ <;> rfl

@[simp] theorem on_ask (question : ChannelLibrary → Except ChannelError α) (lib : ChannelLibrary) :
    (ask question).on lib = (question lib, lib) := by
  simp only [ask, on_bind, on_get]
  cases question lib <;> rfl

@[simp] theorem on_requireFree (label : String) (lib : ChannelLibrary) :
    (requireFree label).on lib =
      if lib.contains label then (.error (.duplicateLabel label), lib) else (.ok (), lib) := by
  simp only [requireFree, on_bind, on_get]
  split <;> rfl

@[simp] theorem on_putLogical (channel : LogicalChannel) (lib : ChannelLibrary) :
    (putLogical channel).on lib = (.ok channel, lib.put channel) := rfl

/-- Of the labels that are taken, the first is named. -/
theorem on_requireAllFree (outputs : List PhysicalChannel) (lib : ChannelLibrary) :
    (outputs.forM (requireFree ·.label) : Edit PUnit).on lib =
      match (outputs.map (·.label)).find? lib.contains with
      | some taken => (.error (.duplicateLabel taken), lib)
      | none => (.ok (), lib) := by
  induction outputs with
  | nil => rfl
  | cons o rest ih =>
    have hcons : ((o :: rest).forM (requireFree ·.label) : Edit PUnit) =
        requireFree o.label >>= fun _ => rest.forM (requireFree ·.label) := rfl
    rw [hcons, on_bind, on_requireFree, List.map_cons, List.find?_cons]
    cases h : lib.contains o.label
    · exact ih
    · rfl

/-! ## The changes -/

theorem on_installTransmitter (model : Model) (label address : String) (lib : ChannelLibrary) :
    (installTransmitter model label address).on lib =
      match (model.labels label).find? lib.contains with
      | some taken => (.error (.duplicateLabel taken), lib)
      | none => (.ok (model.transmitter label address), lib.install model label address) := by
  unfold installTransmitter
  dsimp only
  rw [on_bind, on_requireFree, Model.labels, List.find?_cons]
  cases h : lib.contains label
  · simp only [Bool.false_eq_true, if_false]
    rw [on_bind, on_requireAllFree]
    cases ((model.channels label).map (·.label)).find? lib.contains <;> rfl
  · rfl

theorem on_addQubit (label : String) (lib : ChannelLibrary) :
    (addQubit label).on lib =
      if lib.contains label then (.error (.duplicateLabel label), lib)
      else (.ok ⟨label, .qubit, none⟩, lib.put ⟨label, .qubit, none⟩) := by
  by_cases h : lib.contains label = true <;> simp [addQubit, h]

theorem on_addMarker (label physical : String) (lib : ChannelLibrary) :
    (addMarker label physical).on lib =
      match lib.physicalChannel physical with
      | .error e => (.error e, lib)
      | .ok output =>
        if output.kind ≠ .marker then (.error (.notMarkerOutput label physical), lib)
        else if lib.contains label then (.error (.duplicateLabel label), lib)
        else (.ok ⟨label, .marker, some physical⟩, lib.put ⟨label, .marker, some physical⟩) := by
  unfold addMarker
  rw [on_bind, on_ask]
  cases lib.physicalChannel physical with
  | error e => rfl
  | ok output =>
    by_cases hkind : output.kind = .marker
    · by_cases hfree : lib.contains label = true <;> simp [hkind, hfree]
    · simp [hkind]

theorem on_driveQubit (qubit transmitter : String) (lib : ChannelLibrary) :
    (driveQubit qubit transmitter).on lib =
      match lib.logicalOfKind .qubit qubit with
      | .error e => (.error e, lib)
      | .ok channel =>
        match lib.firstQuadrature transmitter with
        | .error e => (.error e, lib)
        | .ok output => (.ok (), { lib with
            logical := lib.logical.insert qubit { channel with physical := some output.label } }) := by
  unfold driveQubit
  rw [on_bind, on_ask]
  cases lib.logicalOfKind .qubit qubit with
  | error e => rfl
  | ok channel =>
    dsimp only
    rw [on_bind, on_ask]
    cases lib.firstQuadrature transmitter <;> rfl

/-- A label will do for a measurement if nothing has it, or a measurement. -/
theorem on_requireMeasurable (label : String) (lib : ChannelLibrary) :
    (requireMeasurable label).on lib =
      if lib.contains label ∧ ∀ c, lib.logical.get? label = some c → c.kind ≠ .measurement then
        (.error (.duplicateLabel label), lib)
      else (.ok (), lib) := by
  unfold requireMeasurable
  rw [on_bind, on_get]
  dsimp only
  cases hget : lib.logical.get? label with
  | none => simp
  | some c =>
    have hcontains : lib.contains label = true := by
      simp [ChannelLibrary.contains, Table.contains_iff, ← Table.get?_isSome, hget]
    by_cases hkind : c.kind = .measurement <;> simp [hkind, hcontains]

theorem on_measureQubit (qubit transmitter : String) (lib : ChannelLibrary) :
    (measureQubit qubit transmitter).on lib =
      match lib.logicalOfKind .qubit qubit with
      | .error e => (.error e, lib)
      | .ok _ =>
        match lib.firstQuadrature transmitter with
        | .error e => (.error e, lib)
        | .ok output =>
          if lib.contains (measurementLabel qubit) ∧
              ∀ c, lib.logical.get? (measurementLabel qubit) = some c → c.kind ≠ .measurement then
            (.error (.duplicateLabel (measurementLabel qubit)), lib)
          else (.ok ⟨measurementLabel qubit, .measurement, some output.label⟩,
            lib.put ⟨measurementLabel qubit, .measurement, some output.label⟩) := by
  unfold measureQubit
  rw [on_bind, on_ask]
  cases lib.logicalOfKind .qubit qubit with
  | error e => rfl
  | ok channel =>
    dsimp only
    rw [on_bind, on_ask]
    cases lib.firstQuadrature transmitter with
    | error e => rfl
    | ok output =>
      dsimp only
      rw [on_bind, on_requireMeasurable]
      by_cases htaken : lib.contains (measurementLabel qubit) ∧
          ∀ c, lib.logical.get? (measurementLabel qubit) = some c → c.kind ≠ .measurement
      · rw [if_pos htaken, if_pos htaken]
      · rw [if_neg htaken, if_neg htaken]
        rfl

end Edit

end PulseSequencer
