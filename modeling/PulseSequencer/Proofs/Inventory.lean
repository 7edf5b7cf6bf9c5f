-- What a compilation adds to its library. The frame pass stores what it plays
-- and nothing else, so the keys of a channel can be read off its link lists:
-- each once, in the order in which they are first played.
import PulseSequencer.Proofs.Completion

namespace PulseSequencer

open Compilation

attribute [local irreducible] Waveform.key

/-! ## Lists without repetition -/

section

variable {α : Type} [DecidableEq α]

/-- The first list, and behind it what is new in the second, each once, where it comes first. -/
def joined (xs ys : List α) : List α := xs ++ (ys.filter (· ∉ xs)).eraseDups

@[simp] theorem joined_nil (xs : List α) : joined xs [] = xs := by
  simp [joined]

theorem mem_joined {a : α} {xs ys : List α} : a ∈ joined xs ys ↔ a ∈ xs ∨ a ∈ ys := by
  by_cases h : a ∈ xs <;> simp [joined, h]

theorem joined_singleton (xs : List α) (y : α) :
    joined xs [y] = if y ∈ xs then xs else xs ++ [y] := by
  by_cases h : y ∈ xs <;> simp [joined, h, List.eraseDups_cons]

theorem joined_append (xs ys zs : List α) :
    joined xs (ys ++ zs) = joined (joined xs ys) zs := by
  unfold joined
  rw [List.filter_append, List.eraseDups_append, List.append_assoc]
  congr 3
  rw [List.removeAll, List.filter_filter]
  apply List.filter_congr
  intro z _
  by_cases h : z ∈ xs <;> simp [h]

theorem joined_of_subset {xs ys : List α} (h : ys ⊆ xs) : joined xs ys = xs := by
  have hnone : ys.filter (· ∉ xs) = [] := by
    rw [List.filter_eq_nil_iff]
    intro y hy
    simpa using h hy
  rw [joined, hnone]
  simp

theorem eraseDups_of_nodup {xs : List α} (h : xs.Nodup) : xs.eraseDups = xs := by
  induction xs with
  | nil => rfl
  | cons x xs ih =>
    rw [List.nodup_cons] at h
    have hkeep : xs.filter (fun y => !y == x) = xs := by
      rw [List.filter_eq_self]
      intro y hy
      by_cases hyx : y = x
      · subst hyx
        exact absurd hy h.1
      · simpa using hyx
    rw [List.eraseDups_cons, hkeep, ih h.2]

end

theorem Table.keys_insert_eq_joined {κ α : Type} [DecidableEq κ] (t : Table κ α) (key : κ)
    (value : α) : (t.insert key value).keys = joined t.keys [key] := by
  rw [keys_insert, joined_singleton]

/-! ## What a library receives -/

namespace WaveformLibrary

/-- The waveforms that a channel starts from: those it has, or else the zero sample alone. -/
def initial (lib : WaveformLibrary) (channel : Channel) : Table Digest Waveform :=
  (lib.channels.get? channel).getD fresh

theorem initial_eq_waveforms {lib : WaveformLibrary} {channel : Channel}
    (h : channel ∈ lib.channels.keys) : lib.initial channel = lib.waveforms channel := by
  obtain ⟨ws, hws⟩ := Table.exists_get? h
  rw [initial, waveforms, hws]
  rfl

/-- From `lib` to `lib'` the channels `touched` were registered, and waveforms stored on them.
`stored` has their keys for each channel, in the order in which they came. -/
structure Receives (lib lib' : WaveformLibrary) (touched : List Channel)
    (stored : Channel → List Digest) : Prop where
  channels : lib'.channels.keys = joined lib.channels.keys touched
  keys : ∀ c, (lib'.initial c).keys = joined (lib.initial c).keys (stored c)
  kept : ∀ c, (lib.initial c).entries <+: (lib'.initial c).entries
  others : ∀ c, c ∉ touched → lib'.channels.get? c = lib.channels.get? c

theorem Receives.refl (lib : WaveformLibrary) : Receives lib lib [] fun _ => [] := by
  refine ⟨?_, ?_, ?_, ?_⟩
  · simp
  · simp
  · intro c
    exact List.prefix_rfl
  · intro c _
    rfl

theorem Receives.trans {a b c : WaveformLibrary} {t t' : List Channel}
    {s s' : Channel → List Digest} (h : Receives a b t s) (h' : Receives b c t' s') :
    Receives a c (t ++ t') fun d => s d ++ s' d := by
  refine ⟨?_, ?_, ?_, ?_⟩
  · rw [h'.channels, h.channels, joined_append]
  · intro d
    rw [h'.keys, h.keys, joined_append]
  · intro d
    exact (h.kept d).trans (h'.kept d)
  · intro d hd
    rw [List.mem_append, not_or] at hd
    rw [h'.others d hd.2, h.others d hd.1]

theorem Receives.congr {lib lib' : WaveformLibrary} {t : List Channel}
    {s s' : Channel → List Digest} (h : Receives lib lib' t s) (hs : ∀ c, s c = s' c) :
    Receives lib lib' t s' := by
  rw [← funext hs]
  exact h

/-- It does not matter that channels are touched again. -/
theorem Receives.absorb {lib lib' : WaveformLibrary} {t t' : List Channel}
    {s : Channel → List Digest} (h : Receives lib lib' (t ++ t') s) (ht : t' ⊆ t) :
    Receives lib lib' t s := by
  refine ⟨?_, h.keys, h.kept, ?_⟩
  · rw [h.channels, joined_append]
    apply joined_of_subset
    intro c hc
    exact mem_joined.mpr (Or.inr (ht hc))
  · intro c hc
    apply h.others
    rw [List.mem_append, not_or]
    exact ⟨hc, fun hc' => hc (ht hc')⟩

/-- A channel that starts now starts from what it was to start from. -/
theorem initial_register (lib : WaveformLibrary) (channel c : Channel) :
    (lib.register channel).initial c = lib.initial c := by
  rw [register_eq, initial, initial]
  split
  · rfl
  · rename_i hnew
    rw [Table.get?_insert]
    split
    · rename_i hc
      subst hc
      have hnone : lib.channels.get? c = none := by
        rw [Table.get?_eq_none_iff, ← Table.contains_iff]
        exact hnew
      rw [hnone]
      rfl
    · rfl

theorem receives_register (lib : WaveformLibrary) (channel : Channel) :
    Receives lib (lib.register channel) [channel] fun _ => [] := by
  refine ⟨?_, ?_, ?_, ?_⟩
  · rw [keys_register, joined_singleton]
  · intro c
    rw [initial_register, joined_nil]
  · intro c
    simp [initial_register]
  · intro c hc
    rw [List.mem_singleton] at hc
    rw [register_eq]
    split
    · rfl
    · rw [Table.get?_insert, if_neg hc]

/-- One more waveform on a channel, under a key that is new to it. -/
theorem receives_extend {lib : WaveformLibrary} {channel : Channel} {key : Digest} (w : Waveform)
    (hc : channel ∈ lib.channels.keys) (hk : lib.get? channel key = none) :
    Receives lib ⟨lib.channels.insert channel ((lib.waveforms channel).insert key w)⟩ [channel]
      fun c => if c = channel then [key] else [] := by
  refine ⟨?_, ?_, ?_, ?_⟩
  · rw [Table.keys_insert_eq_joined]
  · intro c
    by_cases h : c = channel
    · subst h
      rw [initial_eq_waveforms hc, if_pos rfl, initial, Table.get?_insert, if_pos rfl,
        Option.getD_some, Table.keys_insert_eq_joined]
    · rw [if_neg h, joined_nil, initial, Table.get?_insert, if_neg h]
      rfl
  · intro c
    by_cases h : c = channel
    · subst h
      rw [get?_eq] at hk
      rw [initial_eq_waveforms hc, initial, Table.get?_insert, if_pos rfl, Option.getD_some]
      exact Table.entries_prefix_insert _ w hk
    · simp [initial, Table.get?_insert, h]
  · intro c h
    rw [List.mem_singleton] at h
    rw [Table.get?_insert, if_neg h]

/-- The key that a channel has already is not stored again. -/
theorem receives_insert (lib : WaveformLibrary) (channel : Channel) (w : Waveform) :
    Receives lib (lib.insert channel w).1 [channel] fun c => if c = channel then [w.key] else [] := by
  have hreg := receives_register lib channel
  have hmem := mem_keys_register lib channel
  have hheld : ∀ stored, (lib.register channel).get? channel w.key = some stored →
      Receives lib (lib.register channel) [channel] fun c => if c = channel then [w.key] else [] := by
    intro stored hstored
    refine ⟨hreg.channels, ?_, hreg.kept, hreg.others⟩
    intro c
    by_cases h : c = channel
    · subst h
      rw [get?_eq] at hstored
      have hkey : w.key ∈ ((lib.register c).initial c).keys := by
        rw [initial_eq_waveforms hmem]
        exact Table.mem_keys_of_get? hstored
      have hsame := hreg.keys c
      rw [joined_nil] at hsame
      rw [if_pos rfl, hsame, joined_singleton, if_pos (hsame ▸ hkey)]
    · rw [if_neg h]
      exact hreg.keys c
  unfold insert
  dsimp only
  split
  · rename_i hnone
    exact (hreg.trans (receives_extend w hmem hnone)).absorb (List.Subset.refl _)
  · rename_i stored hstored
    split
    · exact hheld stored hstored
    · exact hheld stored hstored

end WaveformLibrary

/-! ## The frame pass -/

/-- The keys that the lists of a channel play, in order. -/
def ChannelLists.keysOn (channel : Channel) (lists : ChannelLists) : List Digest :=
  lists.flatMap fun cl => if cl.1 = channel then cl.2.map Entry.key else []

namespace Frame

open WaveformLibrary

/-- A pass that succeeds stores one waveform for each entry, under the key that the entry gets. -/
theorem turn_receives {detect : Bool} {sources : WaveformLibrary} {channel : Channel} {index : Nat}
    {frame final : Binary64} {list : LinkList} {lib : WaveformLibrary}
    (hc : channel ∈ lib.channels.keys)
    (h : (turn detect sources channel index frame list lib).answer = .ok final) :
    Receives lib (turn detect sources channel index frame list lib).library [channel] fun c =>
      if c = channel then (turn detect sources channel index frame list lib).list.map Entry.key
      else [] := by
  induction list generalizing index frame lib with
  | nil =>
    have hsame := Receives.refl lib
    refine ⟨?_, ?_, hsame.kept, fun c _ => rfl⟩
    · have hsubset : [channel] ⊆ lib.channels.keys := by simpa using hc
      exact (joined_of_subset hsubset).symm
    · intro c
      simp [turn]
  | cons e rest ih =>
    obtain ⟨src, after, _, hinsert, hturn⟩ := turn_cons_ok h
    have hfirst := receives_insert lib channel (src.shape.rotate (e.phase + frame))
    rw [hinsert] at hfirst
    have hc' : channel ∈ after.channels.keys := by
      rw [hfirst.channels]
      exact mem_joined.mpr (Or.inl hc)
    rw [hturn] at h ⊢
    refine ((hfirst.trans (ih hc' h)).absorb (List.Subset.refl _)).congr ?_
    intro c
    by_cases hcc : c = channel <;> simp [hcc, Result.cons]

theorem step_receives {detect : Bool} {sources : WaveformLibrary} {channel : Channel}
    {list list' : LinkList} {lib lib' : WaveformLibrary}
    (h : (step detect sources channel list).Yields lib list' lib') :
    Receives lib lib' [channel] fun c => if c = channel then list'.map Entry.key else [] := by
  obtain ⟨hlist, hlibrary, hanswer⟩ := apply_eq detect sources channel list lib
  obtain ⟨hok, rfl⟩ := h
  unfold step at hok ⊢
  dsimp only at hok ⊢
  rw [hanswer] at hok
  cases hturn : (turn detect sources channel 0 .zero list (lib.register channel)).answer with
  | error err =>
    rw [hturn] at hok
    cases hok
  | ok final =>
    rw [hturn, hlist] at hok
    cases hok
    rw [hlibrary]
    have hreg := receives_register lib channel
    have hrest := turn_receives (mem_keys_register lib channel) hturn
    exact (hreg.trans hrest).absorb (List.Subset.refl _)

theorem applyAll_receives {detect : Bool} {sources : WaveformLibrary} {lists lists' : ChannelLists}
    {lib lib' : WaveformLibrary} (h : (applyAll detect sources lists).Yields lib lists' lib') :
    Receives lib lib' (lists'.map Prod.fst) (lists'.keysOn ·) := by
  induction lists generalizing lists' lib with
  | nil =>
    simp only [applyAll, yields_pure_iff] at h
    obtain ⟨rfl, rfl⟩ := h
    exact .refl lib
  | cons cl rest ih =>
    simp only [applyAll, yields_bind_iff, yields_pure_iff] at h
    obtain ⟨list, middle, hstep, rest', after, hrest, rfl, rfl⟩ := h
    refine ((step_receives hstep).trans (ih hrest)).congr ?_
    intro c
    simp only [ChannelLists.keysOn, List.flatMap_cons, eq_comm]

end Frame

/-! ## Programs -/

namespace Program

open WaveformLibrary

theorem compileOne_receives {settings : Settings} {blocks : List Block} {lists : ChannelLists}
    {lib lib' : WaveformLibrary} (h : (compileOne settings blocks).Yields lib lists lib') :
    Receives lib lib' (lists.map Prod.fst) (lists.keysOn ·) := by
  simp only [compileOne, yields_bind_iff] at h
  obtain ⟨⟨built, sources⟩, middle, hapart, happly⟩ := h
  obtain ⟨_, rfl⟩ := yields_apart_iff.mp hapart
  exact Frame.applyAll_receives happly

theorem compileFrom_receives {settings : Settings} {index : Nat} {sequences : List (List Block)}
    {compiled : List ChannelLists} {lib lib' : WaveformLibrary}
    (h : (compileFrom settings index sequences).Yields lib compiled lib') :
    Receives lib lib' (compiled.flatMap (·.map Prod.fst)) fun c =>
      compiled.flatMap (ChannelLists.keysOn c) := by
  induction sequences generalizing index compiled lib with
  | nil =>
    simp only [compileFrom, yields_pure_iff] at h
    obtain ⟨rfl, rfl⟩ := h
    exact .refl lib
  | cons first rest ih =>
    simp only [compileFrom, yields_bind_iff, yields_report_iff, yields_pure_iff] at h
    obtain ⟨lists, middle, hfirst, _, _, rfl, compiled', after, hrest, rfl, rfl⟩ := h
    simp only [List.flatMap_cons]
    exact (compileOne_receives hfirst).trans (ih hrest)

theorem map_fst_playedLists (settings : Settings) (blocks : List Block) :
    (playedLists settings blocks).map Prod.fst = Schedule.channels blocks := by
  simp [playedLists, Function.comp_def]

theorem keysOn_graph {cs : List Channel} (hcs : cs.Nodup) (f : Channel → LinkList)
    {channel : Channel} (h : channel ∈ cs) :
    ChannelLists.keysOn channel (cs.map fun c => (c, f c)) = (f channel).map Entry.key := by
  induction cs with
  | nil => cases h
  | cons c rest ih =>
    rw [List.nodup_cons] at hcs
    rw [List.map_cons, ChannelLists.keysOn, List.flatMap_cons, ← ChannelLists.keysOn]
    by_cases hc : c = channel
    · subst hc
      have hnone : ChannelLists.keysOn c (rest.map fun d => (d, f d)) = [] := by
        unfold ChannelLists.keysOn
        rw [List.flatMap_eq_nil_iff]
        intro cl hcl
        obtain ⟨d, hd, rfl⟩ := List.mem_map.mp hcl
        have hne : d ≠ c := fun he => hcs.1 (he ▸ hd)
        simp [hne]
      rw [hnone, if_pos rfl, List.append_nil]
    · rw [if_neg hc, List.nil_append]
      exact ih hcs.2 ((List.mem_cons.mp h).resolve_left fun he => hc he.symm)

/-- Every sequence touches the channels of the program, and the first one in their order. -/
theorem Plays.touched {settings : Settings} {sequences : List (List Block)} {p : Program}
    (h : Plays settings sequences p) :
    ∃ again, again ⊆ p.linkLists.keys ∧
      sequences.flatMap Schedule.channels = p.linkLists.keys ++ again := by
  have haddressed := h.addressed
  rw [h.channels] at haddressed ⊢
  cases sequences with
  | nil => exact ⟨[], by simp [firstChannels]⟩
  | cons first rest =>
    refine ⟨rest.flatMap Schedule.channels, ?_, ?_⟩
    · intro c hc
      obtain ⟨blocks, hblocks, hc⟩ := List.mem_flatMap.mp hc
      exact (haddressed blocks (List.mem_cons_of_mem _ hblocks) c).mp hc
    · simp [firstChannels]

/-- What the library of a program got, in terms of the program. -/
theorem compile_receives {settings : Settings} {sequences : Sequences} {lib : WaveformLibrary}
    {p : Program} (h : (compile settings sequences lib).answer = .ok p) :
    ∃ stored, Receives lib p.waveforms p.linkLists.keys stored ∧
      ∀ channel lists, p.linkLists.get? channel = some lists →
        stored channel = lists.flatten.map Entry.key := by
  have hplays := plays_of_compile h
  obtain ⟨_, compiled, _, hfrom, _⟩ := compile_ok h
  have hreceives := compileFrom_receives hfrom
  obtain ⟨rfl, _⟩ := compileFrom_yields hfrom
  simp only [List.flatMap_map, map_fst_playedLists] at hreceives
  obtain ⟨again, hagain, htouched⟩ := hplays.touched
  rw [htouched] at hreceives
  refine ⟨_, hreceives.absorb hagain, ?_⟩
  intro channel lists hlists
  have hchannel := Table.mem_keys_of_get? hlists
  rw [hplays.lists channel hchannel, Option.some.injEq] at hlists
  subst hlists
  rw [List.map_flatten, List.map_map, ← List.flatMap_def]
  apply List.flatMap_congr
  intro blocks hblocks
  exact keysOn_graph (Schedule.firstUses_nodup _) _
    ((hplays.addressed blocks hblocks channel).mpr hchannel)

theorem map_key_turnedScore (detect : Bool) (frame : Binary64) (cues : List Cue) :
    ((Frame.turnedScore detect frame cues).map Cue.entry).map Entry.key =
      ((Frame.turnedScore detect frame cues).map Cue.shape).map Waveform.key := by
  induction cues generalizing frame with
  | nil => rfl
  | cons q rest ih =>
    simp only [Frame.turnedScore, List.map_cons, ih]
    rfl

/-- In both sequences `q1` plays its padded pulse, and in the first it idles behind it as a NaN. -/
theorem keys_played_q1 :
    (Trial.sequences.blocks.map (playedList ({} : Settings).bounded "q1")).flatten.map Entry.key =
      [(Waveform.ofReal [.one, .zero]).key, (Waveform.constant ⟨.nan, .nan⟩ 1).key,
        (Waveform.ofReal [.one, .zero]).key] := by
  have hshapes : (Trial.sequences.blocks.flatMap (played ({} : Settings).bounded "q1")).map
      Cue.shape = [.ofReal [.one, .zero], .constant ⟨.nan, .nan⟩ 1, .ofReal [.one, .zero]] := by
    decide +kernel
  calc (Trial.sequences.blocks.map (playedList ({} : Settings).bounded "q1")).flatten.map Entry.key
      = ((Trial.sequences.blocks.flatMap (played ({} : Settings).bounded "q1")).map
          Cue.shape).map Waveform.key := by
        rw [List.map_flatten, List.map_map, ← List.flatMap_def, List.map_flatMap, List.map_flatMap]
        exact List.flatMap_congr fun blocks _ => map_key_turnedScore _ _ _
    _ = _ := by
        rw [hshapes]
        rfl

/-- A library holds what it held, and what the program plays. New channels come last, in the order
of the program, and a channel that the program does not address is as it was. The keys of every
other channel are those it had, or the key of the zero sample if it is new, and then those of its
entries that were not there, each once, in the order in which they are first played. So a waveform
that was not there is played. -/
theorem a_library_receives_what_is_played {settings : Settings} {sequences : Sequences}
    {lib : WaveformLibrary} {p : Program} (h : (compile settings sequences lib).answer = .ok p) :
    p.waveforms.channels.keys =
        lib.channels.keys ++ p.linkLists.keys.filter (· ∉ lib.channels.keys) ∧
      (∀ channel, channel ∉ p.linkLists.keys →
        p.waveforms.channels.get? channel = lib.channels.get? channel) ∧
      ∀ channel lists, p.linkLists.get? channel = some lists →
        (p.waveforms.waveforms channel).keys = (lib.initial channel).keys ++
            ((lists.flatten.map Entry.key).filter (· ∉ (lib.initial channel).keys)).eraseDups ∧
          (lib.initial channel).entries <+: (p.waveforms.waveforms channel).entries ∧
          ∀ key w, p.waveforms.get? channel key = some w →
            (lib.initial channel).get? key = some w ∨ ∃ list ∈ lists, ∃ e ∈ list, e.key = key := by
  obtain ⟨stored, hreceives, hstored⟩ := compile_receives h
  refine ⟨?_, hreceives.others, ?_⟩
  · have hnodup : (p.linkLists.keys.filter (· ∉ lib.channels.keys)).Nodup :=
      p.linkLists.keys_nodup.sublist List.filter_sublist
    rw [hreceives.channels, joined, eraseDups_of_nodup hnodup]
  · intro channel lists hlists
    have hchannel : channel ∈ p.waveforms.channels.keys := by
      rw [hreceives.channels, mem_joined]
      exact Or.inr (Table.mem_keys_of_get? hlists)
    have hkeys := hreceives.keys channel
    have hkept := hreceives.kept channel
    rw [initial_eq_waveforms hchannel] at hkeys hkept
    rw [hstored channel lists hlists] at hkeys
    refine ⟨hkeys, hkept, ?_⟩
    intro key w hw
    rw [get?_eq] at hw
    have hkey := Table.mem_keys_of_get? hw
    rw [hkeys, mem_joined] at hkey
    rcases hkey with hkey | hkey
    · obtain ⟨v, hv⟩ := Table.exists_get? hkey
      have hsame := Table.get?_of_prefix hkept hv
      rw [hw] at hsame
      exact Or.inl (hsame ▸ hv)
    · obtain ⟨e, he, rfl⟩ := List.mem_map.mp hkey
      obtain ⟨list, hlist, he⟩ := List.mem_flatten.mp he
      exact Or.inr ⟨list, hlist, e, he, rfl⟩

/-- Two sequences in a library that has another channel: that one stays in front and as it is, and
`q1` gets behind its zero sample what its two lists play: the padded pulse of both, once, and the
NaN that it idles at in the first. -/
theorem a_seeded_library_receives_what_is_played :
    ∃ lib p lists, lib.channels.keys = ["q3"] ∧
      (compile {} Trial.sequences lib).answer = .ok p ∧
      p.waveforms.channels.keys = ["q3", "q1", "q2"] ∧
      p.waveforms.channels.get? "q3" = lib.channels.get? "q3" ∧
      p.linkLists.get? "q1" = some lists ∧ lists.length = 2 ∧
      (p.waveforms.waveforms "q1").keys =
        zeroKey :: ((lists.flatten.map Entry.key).filter (· ∉ [zeroKey])).eraseDups ∧
      (p.waveforms.waveforms "q1").keys = [zeroKey, (Waveform.ofReal [.one, .zero]).key,
        (Waveform.constant ⟨.nan, .nan⟩ 1).key] := by
  have hone : joined [] ["q3"] = ["q3"] := by decide
  have hwithin := Trial.seeded_within "q3"
  have hlib := (receives_insert .empty "q3" (.ofReal [.one, .zero])).channels.trans hone
  generalize (WaveformLibrary.empty.insert "q3" (.ofReal [.one, .zero])).1 = lib at hwithin hlib
  obtain ⟨p, hp⟩ := Trial.compiles_within hwithin
  obtain ⟨hkeys, hothers, hplayed⟩ := a_library_receives_what_is_played hp
  have hchannels := Trial.keys_linkLists hp
  have hlists := (plays_of_compile hp).lists "q1" (by simp [hchannels])
  have hinitial : (lib.initial "q1").keys = [zeroKey] := by
    have hnew : lib.channels.get? "q1" = none := by
      rw [Table.get?_eq_none_iff, hlib]
      decide
    rw [initial, hnew]
    rfl
  have hq1 := (hplayed "q1" _ hlists).1
  rw [hinitial] at hq1
  refine ⟨lib, p, _, hlib, hp, ?_, ?_, hlists, rfl, hq1, ?_⟩
  · rw [hkeys, hchannels, hlib]
    decide
  · apply hothers
    rw [hchannels]
    decide
  · have hnodup : [zeroKey, (Waveform.ofReal [.one, .zero]).key,
        (Waveform.constant ⟨.nan, .nan⟩ 1).key].Nodup := Trial.keys_nodup
    rw [hq1, keys_played_q1]
    simp only [List.nodup_cons, List.mem_cons, List.not_mem_nil, or_false, not_or] at hnodup
    obtain ⟨⟨hpulse, hidle⟩, hdiffer, -⟩ := hnodup
    simp [List.eraseDups_cons, Ne.symm hpulse, Ne.symm hidle, Ne.symm hdiffer]

end Program

end PulseSequencer
