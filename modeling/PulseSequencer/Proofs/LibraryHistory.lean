-- A waveform library over its whole life. Whatever is done to it, and also where
-- that fails half-way, each channel has the zero sample in front, and every
-- content once, under its own key.
import PulseSequencer.Proofs.Inventory
import PulseSequencer.Wiring

namespace PulseSequencer

attribute [local irreducible] Waveform.key

/-! ## Good order -/

/-- The zero sample comes first, and every waveform is stored under its own key. -/
structure Table.Orderly (ws : Table Digest Waveform) : Prop where
  zero_first : ws.entries.head? = some (zeroKey, .zeros 1)
  own_key : ∀ e ∈ ws.entries, e.2.key = e.1

/-- Keys stand once, so contents do. -/
theorem Table.Orderly.distinct {ws : Table Digest Waveform} (h : ws.Orderly) :
    ws.values.Pairwise fun v w => v.contentEq w = false := by
  have hkeys := ws.nodup
  unfold List.Nodup at hkeys
  rw [List.pairwise_map] at hkeys
  unfold values
  rw [List.pairwise_map]
  refine hkeys.imp_of_mem ?_
  intro a b ha hb hne
  rw [Bool.eq_false_iff]
  intro hcontent
  apply hne
  rw [← h.own_key a ha, ← h.own_key b hb]
  exact Waveform.key_congr ((Waveform.contentEq_iff _ _).mp hcontent)

theorem Table.Orderly.insert {ws : Table Digest Waveform} (h : ws.Orderly) {w : Waveform}
    (hnew : w.key ∉ ws.keys) : (ws.insert w.key w).Orderly := by
  have hentries := entries_insert_of_not_mem ws w.key w hnew
  refine ⟨?_, ?_⟩
  · rw [hentries, List.head?_append, h.zero_first]
    rfl
  · intro e he
    rw [hentries, List.mem_append, List.mem_singleton] at he
    rcases he with he | rfl
    · exact h.own_key e he
    · rfl

namespace WaveformLibrary

theorem orderly_fresh : fresh.Orderly := by
  refine ⟨rfl, ?_⟩
  intro e he
  rw [fresh, Table.entries_insert_of_not_mem _ _ _ (by simp), List.mem_append,
    List.mem_singleton] at he
  rcases he with he | rfl
  · cases he
  · rfl

/-- Every channel is in good order. -/
def Orderly (lib : WaveformLibrary) : Prop :=
  ∀ channel ws, lib.channels.get? channel = some ws → ws.Orderly

theorem orderly_empty : Orderly .empty := by
  intro channel ws h
  cases h

theorem Orderly.set {lib : WaveformLibrary} (h : lib.Orderly) (channel : Channel)
    {ws : Table Digest Waveform} (hws : ws.Orderly) :
    Orderly ⟨lib.channels.insert channel ws⟩ := by
  intro other found hfound
  rw [Table.get?_insert] at hfound
  split at hfound
  · cases hfound
    exact hws
  · exact h other found hfound

theorem Orderly.register {lib : WaveformLibrary} (h : lib.Orderly) (channel : Channel) :
    (lib.register channel).Orderly := by
  rw [WaveformLibrary.register_eq]
  split
  · exact h
  · exact h.set channel orderly_fresh

theorem Orderly.insert {lib : WaveformLibrary} (h : lib.Orderly) (channel : Channel)
    (w : Waveform) : (lib.insert channel w).1.Orderly := by
  have hreg := h.register channel
  unfold WaveformLibrary.insert
  dsimp only
  split
  · rename_i hnone
    obtain ⟨ws, hws⟩ := Table.exists_get? (lib.mem_keys_register channel)
    have hwaveforms : (lib.register channel).waveforms channel = ws := by
      rw [waveforms, hws]
      rfl
    rw [get?_eq, Table.get?_eq_none_iff] at hnone
    apply hreg.set
    rw [hwaveforms] at hnone ⊢
    exact (hreg channel ws hws).insert hnone
  · split
    · exact hreg
    · exact hreg

/-- Good order outlasts every step of the compiler, and every failure of one. -/
theorem regime_orderly : Regime (fun _ => True) Orderly fun _ => True where
  empty := orderly_empty
  register _ channel h := h.register channel
  insert _ channel w h _ := ⟨h.insert channel w, fun _ _ => trivial⟩

end WaveformLibrary

/-! ## Moving a program -/

namespace Program

theorem moveOnto_ok {p q : Program} {channels : ChannelLibrary}
    (h : (p.moveOnto channels).2 = .ok q) : ∃ wires, q = Wiring.rekey p wires := by
  unfold moveOnto at h
  dsimp only at h
  generalize Wiring.lay channels [] (Wiring.visited p) = laid at h
  obtain ⟨wires, answer⟩ := laid
  cases answer with
  | error err => cases h
  | ok u =>
    cases h
    exact ⟨wires, rfl⟩

/-- The waveforms of a channel move as a whole. -/
theorem orderly_rekey {p : Program} (h : p.waveforms.Orderly) (wires : List Wiring.Wire) :
    (Wiring.rekey p wires).waveforms.Orderly := by
  intro channel ws hws
  obtain ⟨wire, _, hwire⟩ := List.mem_filterMap.mp (Table.mem_of_get?_ofList hws)
  obtain ⟨found, hfound, heq⟩ := Option.map_eq_some_iff.mp hwire
  cases heq
  exact h _ _ hfound

end Program

namespace Trial

/-- Three logical channels, each on an output of its own. -/
def outputs : ChannelLibrary where
  logical := .ofList [("q1", ⟨"q1", .qubit, some "a"⟩), ("q2", ⟨"q2", .qubit, some "b"⟩),
    ("q3", ⟨"q3", .qubit, some "c"⟩)]
  physical := .ofList [("a", ⟨"a", "x", 0, .quadrature, ""⟩), ("b", ⟨"b", "x", 1, .quadrature, ""⟩),
    ("c", ⟨"c", "x", 2, .quadrature, ""⟩)]

theorem lay_outputs : Wiring.lay outputs [] ["q1", "q2", "q3"] =
    ([⟨"q1", "a"⟩, ⟨"q2", "b"⟩, ⟨"q3", "c"⟩], .ok ()) := by decide +kernel

/-- The two sequences with a library that has a third channel, and then on the outputs. -/
theorem seeded_moves :
    ∃ p q, (Program.compile {} sequences
        (WaveformLibrary.empty.insert "q3" (.ofReal [.one, .zero])).1).answer = .ok p ∧
      (p.moveOnto outputs).2 = .ok q ∧ q.waveforms.channels.keys = ["a", "b", "c"] := by
  obtain ⟨p, hp⟩ := compiles_within (seeded_within "q3")
  obtain ⟨stored, hreceives, _⟩ := Program.compile_receives hp
  have hlinks := keys_linkLists hp
  have hchannels : p.waveforms.channels.keys = ["q3", "q1", "q2"] := by
    rw [hreceives.channels, (WaveformLibrary.receives_insert .empty "q3" _).channels, hlinks]
    decide
  have hvisited : Wiring.visited p = ["q1", "q2", "q3"] := by
    simp [Wiring.visited, Table.contains, hlinks, hchannels]
  refine ⟨p, Wiring.rekey p [⟨"q1", "a"⟩, ⟨"q2", "b"⟩, ⟨"q3", "c"⟩], hp, ?_, ?_⟩
  · simp [Program.moveOnto, hvisited, lay_outputs, Except.map]
  · have hfound : ∀ c, c ∈ ["q3", "q1", "q2"] → ∃ ws, p.waveforms.channels.get? c = some ws := by
      intro c hc
      rw [← hchannels] at hc
      exact Table.exists_get? hc
    obtain ⟨w1, h1⟩ := hfound "q1" (by decide)
    obtain ⟨w2, h2⟩ := hfound "q2" (by decide)
    obtain ⟨w3, h3⟩ := hfound "q3" (by decide)
    simp only [Wiring.rekey, List.filterMap_cons, List.filterMap_nil, h1, h2, h3, Option.map_some]
    rw [Table.keys, Table.entries_ofList (by simp)]
    rfl

end Trial

/-! ## Every library there can be -/

namespace WaveformLibrary

open Program

/-- What can be made of the empty library: channels are registered, waveforms stored, sequences
compiled in place, each with or without success, and programs compiled and moved with success. -/
inductive Reachable : WaveformLibrary → Prop
  | empty : Reachable .empty
  | register {lib : WaveformLibrary} (channel : Channel) :
      Reachable lib → Reachable (lib.register channel)
  | insert {lib : WaveformLibrary} (channel : Channel) (w : Waveform) :
      Reachable lib → Reachable (lib.insert channel w).1
  | compileOne {lib : WaveformLibrary} (settings : Settings) (blocks : List Block) :
      Reachable lib → Reachable (Program.compileOne settings blocks lib).library
  | compile {lib : WaveformLibrary} {settings : Settings} {sequences : Sequences} {p : Program} :
      Reachable lib → (Program.compile settings sequences lib).answer = .ok p →
        Reachable p.waveforms
  | moveOnto {p q : Program} {channels : ChannelLibrary} :
      Reachable p.waveforms → (p.moveOnto channels).2 = .ok q → Reachable q.waveforms

theorem Reachable.orderly {lib : WaveformLibrary} (h : Reachable lib) : lib.Orderly := by
  induction h with
  | empty => exact orderly_empty
  | register channel _ ih => exact ih.register channel
  | insert channel w _ ih => exact ih.insert channel w
  | compileOne settings blocks _ ih =>
    exact (keeps_compileOne regime_orderly (contentsIn_true settings blocks) _ ih).1
  | @compile lib settings sequences p _ hp ih =>
    obtain ⟨_, _, _, hfrom, _⟩ := compile_ok hp
    rw [← hfrom.2]
    exact (keeps_compileFrom regime_orderly 0 (fun blocks _ => contentsIn_true _ blocks) lib ih).1
  | moveOnto _ hq ih =>
    obtain ⟨wires, rfl⟩ := moveOnto_ok hq
    exact orderly_rekey ih wires

/-- In every library a channel stands once. Its first waveform is the zero sample, every waveform is
under its own key, and no two have the same content. -/
theorem every_library_is_orderly {lib : WaveformLibrary} (h : Reachable lib) :
    lib.channels.keys.Nodup ∧
      ∀ channel ws, lib.channels.get? channel = some ws →
        ws.entries.head? = some (zeroKey, .zeros 1) ∧
          (∀ key w, (key, w) ∈ ws.entries → w.key = key) ∧
          ws.values.Pairwise fun v w => v.contentEq w = false := by
  refine ⟨lib.channels.keys_nodup, ?_⟩
  intro channel ws hws
  have horderly := h.orderly channel ws hws
  refine ⟨horderly.zero_first, ?_, horderly.distinct⟩
  intro key w hw
  exact horderly.own_key (key, w) hw

/-- A library that was filled by hand, then by a program of two sequences, and then moved with it
onto three outputs. -/
theorem a_moved_library_is_orderly :
    ∃ lib, Reachable lib ∧ lib.channels.keys = ["a", "b", "c"] ∧
      ∀ channel ws, lib.channels.get? channel = some ws →
        ws.entries.head? = some (zeroKey, .zeros 1) ∧
          (∀ key w, (key, w) ∈ ws.entries → w.key = key) ∧
          ws.values.Pairwise fun v w => v.contentEq w = false := by
  obtain ⟨p, q, hp, hq, hkeys⟩ := Trial.seeded_moves
  have hreachable := Reachable.moveOnto (.compile (.insert "q3" _ .empty) hp) hq
  exact ⟨q.waveforms, hreachable, hkeys, (every_library_is_orderly hreachable).2⟩

end WaveformLibrary

end PulseSequencer
