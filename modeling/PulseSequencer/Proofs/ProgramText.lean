-- Programs read back from their text. Source keys are not written, and infinities
-- and NaNs are written alike; all else is recovered, whatever the channels are
-- called.
import PulseSequencer.Program.Json
import PulseSequencer.Proofs.JsonReading
import PulseSequencer.Proofs.Likeness

namespace PulseSequencer

open Text

/-! ## What a text tells -/

/-- The same bits, or both not finite. -/
def Binary64.Matches (x y : Binary64) : Prop :=
  x = y ∨ (x.isFinite = false ∧ y.isFinite = false)

structure Amplitude.Matches (x y : Amplitude) : Prop where
  re : x.re.Matches y.re
  im : x.im.Matches y.im

def Waveform.Matches (v w : Waveform) : Prop :=
  List.Forall₂ Amplitude.Matches v.samples w.samples

/-- The same in all but the source key. -/
structure Entry.Matches (e f : Entry) : Prop where
  key : e.key = f.key
  length : e.length = f.length
  repetitions : e.repetitions = f.repetitions
  isTimeAmplitude : e.isTimeAmplitude = f.isTimeAmplitude
  hasTrigger : e.hasTrigger = f.hasTrigger
  triggerDelay1 : e.triggerDelay1 = f.triggerDelay1
  triggerDelay2 : e.triggerDelay2 = f.triggerDelay2
  phase : e.phase.Matches f.phase
  frameChange : e.frameChange.Matches f.frameChange

/-- The same channels in the same order, each with as many lists of as many entries, and the
same waveforms under the same keys. -/
structure Program.Matches (p q : Program) : Prop where
  linkLists : Table.Alike (List.Forall₂ (List.Forall₂ Entry.Matches)) p.linkLists q.linkLists
  waveforms : Table.Alike (Table.Alike Waveform.Matches) p.waveforms.channels q.waveforms.channels

/-! ## What is left of a program in its text

Each value has a form that stands for all that match it. -/

def Binary64.legible (x : Binary64) : Binary64 := if x.isFinite then x else .nan

def Amplitude.legible (x : Amplitude) : Amplitude := ⟨x.re.legible, x.im.legible⟩

def Waveform.legible (w : Waveform) : Waveform := ⟨w.samples.map Amplitude.legible⟩

/-- The key stands for the source key too. -/
def Entry.legible (e : Entry) : Entry :=
  { e with sourceKey := e.key, phase := e.phase.legible, frameChange := e.frameChange.legible }

def Program.legible (p : Program) : Program where
  linkLists := p.linkLists.mapValues fun _ => List.map (List.map Entry.legible)
  waveforms := ⟨p.waveforms.channels.mapValues fun _ => Table.mapValues fun _ => Waveform.legible⟩

theorem Binary64.matches_iff (x y : Binary64) : x.Matches y ↔ x.legible = y.legible := by
  have hnan : Binary64.nan.isFinite = false := by decide
  have hdiffer {u v : Binary64} (hu : u.isFinite = true) (hv : v.isFinite = false) : u ≠ v := by
    rintro rfl
    rw [hu] at hv
    cases hv
  unfold Matches legible
  cases hx : x.isFinite with
  | true =>
    cases hy : y.isFinite with
    | true => simp
    | false => simp [hdiffer hx hy, hdiffer hx hnan]
  | false =>
    cases hy : y.isFinite with
    | true => simp [(hdiffer hy hx).symm, (hdiffer hy hnan).symm]
    | false => simp

theorem Amplitude.matches_iff (x y : Amplitude) : x.Matches y ↔ x.legible = y.legible := by
  rw [legible, legible, Amplitude.mk.injEq, ← Binary64.matches_iff, ← Binary64.matches_iff]
  exact ⟨fun h => ⟨h.re, h.im⟩, fun h => ⟨h.1, h.2⟩⟩

theorem Entry.matches_iff (e f : Entry) : e.Matches f ↔ e.legible = f.legible := by
  rw [legible, legible, Entry.mk.injEq, ← Binary64.matches_iff, ← Binary64.matches_iff]
  constructor
  · intro h
    exact ⟨h.key, h.key, h.length, h.repetitions, h.isTimeAmplitude, h.hasTrigger,
      h.triggerDelay1, h.triggerDelay2, h.phase, h.frameChange⟩
  · rintro ⟨key, -, length, repetitions, isTimeAmplitude, hasTrigger, triggerDelay1,
      triggerDelay2, phase, frameChange⟩
    exact ⟨key, length, repetitions, isTimeAmplitude, hasTrigger, triggerDelay1, triggerDelay2,
      phase, frameChange⟩

section Forms

variable {κ α β : Type} {R : α → α → Prop} {f : α → β}

theorem forall₂_iff_map_eq (hR : ∀ a b, R a b ↔ f a = f b) (l l' : List α) :
    List.Forall₂ R l l' ↔ l.map f = l'.map f := by
  rw [← List.forall₂_eq_eq_eq, List.forall₂_map_left_iff, List.forall₂_map_right_iff]
  simp only [← hR]

theorem Table.alike_iff_mapValues_eq (hR : ∀ a b, R a b ↔ f a = f b) (t t' : Table κ α) :
    Table.Alike R t t' ↔ (t.mapValues fun _ => f) = t'.mapValues fun _ => f := by
  have hentries := forall₂_iff_map_eq (R := fun e e' : κ × α => e.1 = e'.1 ∧ R e.2 e'.2)
    (f := fun e => (e.1, f e.2)) (fun e e' => by rw [Prod.mk.injEq, hR]) t.entries t'.entries
  rw [Alike, hentries, mapValues, mapValues, Table.mk.injEq]

end Forms

theorem Waveform.matches_iff (v w : Waveform) : v.Matches w ↔ v.legible = w.legible := by
  rw [legible, legible, Waveform.mk.injEq]
  exact forall₂_iff_map_eq Amplitude.matches_iff _ _

theorem Program.matches_iff (p q : Program) : p.Matches q ↔ p.legible = q.legible := by
  have hlists := Table.alike_iff_mapValues_eq
    (forall₂_iff_map_eq (forall₂_iff_map_eq Entry.matches_iff)) p.linkLists q.linkLists
  have hwaveforms := Table.alike_iff_mapValues_eq
    (Table.alike_iff_mapValues_eq Waveform.matches_iff) p.waveforms.channels q.waveforms.channels
  rw [legible, legible, Program.mk.injEq, WaveformLibrary.mk.injEq, ← hlists, ← hwaveforms]
  exact ⟨fun h => ⟨h.linkLists, h.waveforms⟩, fun h => ⟨h.1, h.2⟩⟩

/-! ## Writing -/

theorem ofDouble_legible (x : Binary64) : Json.ofDouble x.legible = .ofDouble x := by
  have hnan : Json.ofDouble .nan = .null := rfl
  unfold Binary64.legible
  split
  · rfl
  · rename_i hx
    rw [hnan, Json.ofDouble, if_neg hx]

theorem Amplitude.toJson_legible (x : Amplitude) : x.legible.toJson = x.toJson := by
  rw [toJson, toJson, legible, ofDouble_legible, ofDouble_legible]

theorem Waveform.toJson_legible (w : Waveform) : w.legible.toJson = w.toJson := by
  simp [toJson, legible, Amplitude.toJson_legible, Function.comp_def]

theorem Entry.toJson_legible (e : Entry) : e.legible.toJson = e.toJson := by
  rw [toJson, toJson, legible, ofDouble_legible, ofDouble_legible]

theorem Program.toJson_legible (p : Program) : p.legible.toJson = p.toJson := by
  simp [toJson, legible, WaveformLibrary.toJson, Table.mapValues, LinkList.toJson,
    Entry.toJson_legible, Waveform.toJson_legible, Function.comp_def]

-- What is written of a program is proper: numbers that have no text are not among it.

theorem proper_ofDouble (x : Binary64) : (Json.ofDouble x).Proper := by
  unfold Json.ofDouble
  split
  · rename_i hx
    exact .double hx
  · exact .null

theorem proper_items {α : Type} {f : α → Json} (hf : ∀ a, (f a).Proper) (l : List α) :
    (Json.array (l.map f)).Proper := by
  refine .array fun v hv => ?_
  obtain ⟨a, -, rfl⟩ := List.mem_map.mp hv
  exact hf a

theorem proper_fields {α : Type} {f : α → String × Json} (hf : ∀ a, (f a).2.Proper)
    (l : List α) : (Json.object (l.map f)).Proper := by
  refine .object fun v hv => ?_
  obtain ⟨a, -, rfl⟩ := List.mem_map.mp hv
  exact hf a

theorem Waveform.proper_toJson (w : Waveform) : w.toJson.Proper :=
  proper_items (fun x => .array (by simp [proper_ofDouble])) w.samples

theorem Entry.proper_toJson (e : Entry) : e.toJson.Proper := by
  refine .object ?_
  simp [proper_ofDouble, Json.Proper.nat, Json.Proper.bool, Json.Proper.string]

theorem WaveformLibrary.proper_toJson (lib : WaveformLibrary) : lib.toJson.Proper :=
  proper_fields (fun e => proper_fields (fun e => e.2.proper_toJson) e.2.entries) _

theorem Program.proper_toJson (p : Program) : p.toJson.Proper := by
  refine .object fun f hf => ?_
  simp only [List.mem_cons, List.not_mem_nil, or_false] at hf
  obtain rfl | rfl := hf
  · exact proper_fields (fun e => proper_items (proper_items Entry.proper_toJson) e.2) _
  · exact p.waveforms.proper_toJson

/-! ## Digests -/

namespace Digest

open Text.Json

/-- Words of eight digits each. -/
def hexWords : Nat → List Char → List UInt32
  | 0, _ => []
  | n + 1, cs => .ofNat (hexNumber (cs.take 8)) :: hexWords n (cs.drop 8)

/-- The digest of forty hexadecimal digits. -/
def ofHex? (s : String) : Option Digest :=
  match hexWords 5 s.toList with
  | [a, b, c, d, e] => if s.length = 40 then some ⟨a, b, c, d, e⟩ else none
  | _ => none

def byteHex (byte : UInt8) : List Char := [hexDigit (byte >>> 4), hexDigit (byte &&& 15)]

theorem hexValue_hexDigit : ∀ n < 16, hexValue (hexDigit (UInt8.ofNat n)) = n := by decide

theorem hexValue_high (byte : UInt8) : hexValue (hexDigit (byte >>> 4)) = byte.toNat / 16 := by
  have hnat : (byte >>> 4).toNat = byte.toNat / 16 := by
    rw [UInt8.toNat_shiftRight, Nat.shiftRight_eq_div_pow]
    rfl
  have hlt := byte.toNat_lt
  rw [← UInt8.ofNat_toNat (x := byte >>> 4), hnat]
  exact hexValue_hexDigit _ (by omega)

theorem hexValue_low (byte : UInt8) : hexValue (hexDigit (byte &&& 15)) = byte.toNat % 16 := by
  have hnat : (byte &&& 15).toNat = byte.toNat % 16 := by
    rw [UInt8.toNat_and]
    exact Nat.and_two_pow_sub_one_eq_mod _ 4
  rw [← UInt8.ofNat_toNat (x := byte &&& 15), hnat]
  exact hexValue_hexDigit _ (Nat.mod_lt _ (by decide))

def wordHex (w : UInt32) : List Char := (wordBytes w).flatMap byteHex

theorem hexNumber_wordHex (w : UInt32) : hexNumber (wordHex w) = w.toNat := by
  have hbyte (n : Nat) (byte : UInt8) :
      (byteHex byte).foldl (fun n c => 16 * n + hexValue c) n = 256 * n + byte.toNat := by
    simp only [byteHex, List.foldl_cons, List.foldl_nil, hexValue_high, hexValue_low]
    omega
  have hlt := w.toNat_lt
  rw [hexNumber, wordHex, List.foldl_flatMap]
  simp only [hbyte, wordBytes, List.foldl_cons, List.foldl_nil, UInt32.toNat_toUInt8,
    UInt32.toNat_shiftRight, UInt32.reduceToNat, Nat.reduceMod, Nat.shiftRight_eq_div_pow]
  omega

theorem hexWords_flatMap (ws : List UInt32) : hexWords ws.length (ws.flatMap wordHex) = ws := by
  induction ws with
  | nil => rfl
  | cons w ws ih =>
    have hlength : (wordHex w).length = 8 := rfl
    rw [List.length_cons, List.flatMap_cons, hexWords, List.take_left' hlength,
      List.drop_left' hlength, ih, hexNumber_wordHex, UInt32.ofNat_toNat]

theorem ofHex?_hex (h : Digest) : ofHex? h.hex = some h := by
  have hlist : h.hex.toList = h.words.flatMap wordHex := by
    rw [hex, bytes, String.toList_ofList, List.flatMap_assoc]
    rfl
  have hlength : h.hex.length = 40 := by
    rw [← String.length_toList, hlist]
    rfl
  have hwords : hexWords 5 h.hex.toList = h.words := hlist ▸ hexWords_flatMap h.words
  rw [ofHex?, hwords]
  exact if_pos hlength

end Digest

/-! ## Reading -/

/-- A table is built again from its entries. -/
theorem Table.ofList_entries {κ α : Type} [DecidableEq κ] (t : Table κ α) :
    ofList t.entries = t := by
  have hentries := entries_ofList t.nodup
  generalize ofList t.entries = s at hentries
  cases s
  cases t
  cases hentries
  rfl

namespace Text.Json

def field? (name : String) : Json → Option Json
  | object fields => fields.lookup name
  | _ => none

def toBool? : Json → Option Bool
  | bool b => some b
  | _ => none

def toNat? : Json → Option Nat
  | nat n => some n
  | _ => none

def toText? : Json → Option String
  | string s => some s
  | _ => none

/-- No number is read as NaN. -/
def toDouble? : Json → Option Binary64
  | double x => some x
  | null => some .nan
  | _ => none

def toList? {α : Type} (item : Json → Option α) : Json → Option (List α)
  | array items => items.mapM item
  | _ => none

def toTable? {κ α : Type} [DecidableEq κ] (key : String → Option κ) (value : Json → Option α) :
    Json → Option (Table κ α)
  | object fields =>
    (fields.mapM fun (name, v) => do return (← key name, ← value v)).map Table.ofList
  | _ => none

theorem toDouble?_ofDouble (x : Binary64) : (ofDouble x).toDouble? = some x.legible := by
  unfold ofDouble Binary64.legible
  split <;> rfl

section Lists

variable {κ α β γ : Type} {g : α → β}

theorem mapM_map {f : α → γ} {item : γ → Option β} (h : ∀ a, item (f a) = some (g a))
    (l : List α) : (l.map f).mapM item = some (l.map g) := by
  induction l with
  | nil => rfl
  | cons a l ih => simp [h, ih]

theorem toList?_array {f : α → Json} {item : Json → Option β} (h : ∀ a, item (f a) = some (g a))
    (l : List α) : (array (l.map f)).toList? item = some (l.map g) :=
  mapM_map h l

theorem toTable?_object [DecidableEq κ] {name : κ → String} {key : String → Option κ}
    (hkey : ∀ k, key (name k) = some k) {f : α → Json} {value : Json → Option β}
    (hvalue : ∀ a, value (f a) = some (g a)) (t : Table κ α) :
    (object (t.entries.map fun (k, a) => (name k, f a))).toTable? key value =
      some (t.mapValues fun _ => g) := by
  have hfields : (t.entries.map fun (k, a) => (name k, f a)).mapM
      (fun (n, v) => do return (← key n, ← value v)) =
        some (t.entries.map fun (k, a) => (k, g a)) :=
    mapM_map (fun e => by simp [hkey, hvalue]) t.entries
  rw [toTable?, hfields]
  exact congrArg some (Table.ofList_entries (t.mapValues fun _ => g))

end Lists

end Text.Json

def Amplitude.ofJson? (v : Json) : Option Amplitude := do
  match ← v.toList? Json.toDouble? with
  | [re, im] => return ⟨re, im⟩
  | _ => none

def Waveform.ofJson? (v : Json) : Option Waveform := do
  return ⟨← v.toList? Amplitude.ofJson?⟩

def Entry.ofJson? (v : Json) : Option Entry := do
  let key ← Digest.ofHex? (← (← v.field? "waveform_key").toText?)
  return {
    key := key
    sourceKey := key
    length := ← (← v.field? "length").toNat?
    repetitions := ← (← v.field? "repeat").toNat?
    isTimeAmplitude := ← (← v.field? "is_time_amplitude").toBool?
    hasTrigger := ← (← v.field? "has_trigger").toBool?
    triggerDelay1 := ← (← v.field? "trigger_delay_1").toNat?
    triggerDelay2 := ← (← v.field? "trigger_delay_2").toNat?
    phase := ← (← v.field? "phase").toDouble?
    frameChange := ← (← v.field? "frame_change").toDouble? }

namespace Program

def ofJson? (v : Json) : Option Program := do
  return {
    linkLists := ← (← v.field? "link_lists").toTable? some
      (Json.toList? (Json.toList? Entry.ofJson?))
    waveforms := ⟨← (← v.field? "waveforms").toTable? some
      (Json.toTable? Digest.ofHex? Waveform.ofJson?)⟩ }

/-- The program of a text. -/
def read (text : String) : Option Program := do ofJson? (← Json.read text)

end Program

theorem Amplitude.ofJson?_toJson (x : Amplitude) : ofJson? x.toJson = some x.legible := by
  simp [ofJson?, toJson, Json.toList?, Json.toDouble?_ofDouble, legible]

theorem Waveform.ofJson?_toJson (w : Waveform) : ofJson? w.toJson = some w.legible := by
  rw [ofJson?, toJson, Json.toList?_array Amplitude.ofJson?_toJson]
  rfl

theorem Entry.ofJson?_toJson (e : Entry) : ofJson? e.toJson = some e.legible := by
  simp [ofJson?, toJson, Json.field?, Json.toText?, Json.toNat?, Json.toBool?,
    Json.toDouble?_ofDouble, List.lookup_cons, Digest.ofHex?_hex, legible]

namespace Program

theorem ofJson?_toJson (p : Program) : ofJson? p.toJson = some p.legible := by
  have hfirst : p.toJson.field? "link_lists" = some (.object (p.linkLists.entries.map
      fun e => (e.1, .array (e.2.map LinkList.toJson)))) := rfl
  have hlists : (Json.object (p.linkLists.entries.map
      fun e => (e.1, .array (e.2.map LinkList.toJson)))).toTable? some
        (Json.toList? (Json.toList? Entry.ofJson?)) = some p.legible.linkLists :=
    Json.toTable?_object (fun _ => rfl)
      (Json.toList?_array (Json.toList?_array Entry.ofJson?_toJson)) p.linkLists
  have hsecond : p.toJson.field? "waveforms" = some p.waveforms.toJson := rfl
  have hwaveforms : p.waveforms.toJson.toTable? some
      (Json.toTable? Digest.ofHex? Waveform.ofJson?) = some p.legible.waveforms.channels :=
    Json.toTable?_object (fun _ => rfl)
      (Json.toTable?_object Digest.ofHex?_hex Waveform.ofJson?_toJson) p.waveforms.channels
  simp only [ofJson?, hfirst, hsecond, Option.bind_eq_bind, Option.bind_some, hlists, hwaveforms]
  rfl

/-- Reading undoes writing, up to what is not written. -/
theorem read_jsonText (p : Program) : read p.jsonText = some p.legible := by
  rw [read, jsonText, Json.read_render p.proper_toJson]
  exact p.ofJson?_toJson

theorem jsonText_eq_iff (p q : Program) : p.jsonText = q.jsonText ↔ p.legible = q.legible := by
  constructor
  · intro htext
    have hread := read_jsonText p
    rw [htext, read_jsonText q, Option.some_inj] at hread
    exact hread.symm
  · intro hlegible
    rw [jsonText, jsonText, ← toJson_legible p, hlegible, toJson_legible]

/-- A program can be read from its text. What is read matches it, and so does every program with
the same text: only source keys and the kinds of numbers that are not finite are lost. -/
theorem a_program_is_recovered_from_its_text (p q : Program) :
    (∃ r, read p.jsonText = some r ∧ p.Matches r) ∧ (p.jsonText = q.jsonText ↔ p.Matches q) := by
  have hiff (q : Program) : p.jsonText = q.jsonText ↔ p.Matches q := by
    rw [jsonText_eq_iff, matches_iff]
  have hlegible : p.jsonText = p.legible.jsonText := by
    rw [jsonText, jsonText, toJson_legible]
  exact ⟨⟨p.legible, read_jsonText p, (hiff _).mp hlegible⟩, hiff q⟩

end Program

end PulseSequencer
