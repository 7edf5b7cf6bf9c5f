-- Tables by their entries: what a look-up finds is what stands in the list, and
-- a table that got longer still has what it had. The order of the entries shows
-- in no look-up.
import Mathlib.Data.List.Basic
import PulseSequencer.Table

namespace PulseSequencer

namespace Table

variable {κ α : Type} [DecidableEq κ]

/-! ## Look-ups -/

theorem mem_keys_of_get? {t : Table κ α} {key : κ} {a : α} (h : t.get? key = some a) :
    key ∈ t.keys := by
  rw [← get?_isSome, h]
  rfl

theorem exists_get? {t : Table κ α} {key : κ} (h : key ∈ t.keys) : ∃ a, t.get? key = some a :=
  Option.isSome_iff_exists.mp ((get?_isSome t key).mpr h)

theorem mem_keys_insert {t : Table κ α} {key j : κ} {value : α} :
    j ∈ (t.insert key value).keys ↔ j = key ∨ j ∈ t.keys := by
  rw [← get?_isSome, ← get?_isSome, get?_insert]
  split <;> simp [*]

theorem mem_of_lookup {l : List (κ × α)} {key : κ} {a : α} (h : l.lookup key = some a) :
    (key, a) ∈ l := by
  obtain ⟨before, after, rfl, _⟩ := List.lookup_eq_some_iff.mp h
  simp

theorem lookup_of_mem {l : List (κ × α)} (hl : (l.map Prod.fst).Nodup) {key : κ} {a : α}
    (h : (key, a) ∈ l) : l.lookup key = some a := by
  induction l with
  | nil => cases h
  | cons e rest ih =>
    obtain ⟨k, b⟩ := e
    rw [List.map_cons, List.nodup_cons] at hl
    rcases List.mem_cons.mp h with heq | hrest
    · cases heq
      simp
    · have hne : key ≠ k := by
        rintro rfl
        exact hl.1 (List.mem_map.mpr ⟨(key, a), hrest, rfl⟩)
      have hb : (key == k) = false := by simpa using hne
      rw [List.lookup_cons, hb]
      exact ih hl.2 hrest

/-- A key stands once, so its entry is what a look-up finds. -/
theorem mem_entries_iff {t : Table κ α} {key : κ} {a : α} :
    (key, a) ∈ t.entries ↔ t.get? key = some a :=
  ⟨lookup_of_mem t.nodup, mem_of_lookup⟩

theorem mem_values_iff {t : Table κ α} {a : α} : a ∈ t.values ↔ ∃ key, t.get? key = some a := by
  unfold values
  rw [List.mem_map]
  constructor
  · rintro ⟨⟨key, b⟩, h, rfl⟩
    exact ⟨key, mem_entries_iff.mp h⟩
  · rintro ⟨key, h⟩
    exact ⟨(key, a), mem_entries_iff.mpr h, rfl⟩

/-- Where the records are stored under their labels, a look-up finds the record with that label. -/
theorem get?_eq_some_iff_label {t : Table κ α} {label : α → κ}
    (h : ∀ key a, t.get? key = some a → label a = key) {key : κ} {a : α} :
    t.get? key = some a ↔ a ∈ t.values ∧ label a = key := by
  constructor
  · intro hget
    exact ⟨mem_values_iff.mpr ⟨key, hget⟩, h key a hget⟩
  · rintro ⟨ha, rfl⟩
    obtain ⟨key, hget⟩ := mem_values_iff.mp ha
    rw [h key a hget]
    exact hget

theorem eq_of_label_eq {t : Table κ α} {label : α → κ}
    (h : ∀ key a, t.get? key = some a → label a = key) {a b : α} (ha : a ∈ t.values)
    (hb : b ∈ t.values) (hlabel : label a = label b) : a = b := by
  have hgeta : t.get? (label a) = some a := (get?_eq_some_iff_label h).mpr ⟨ha, rfl⟩
  have hgetb : t.get? (label a) = some b := (get?_eq_some_iff_label h).mpr ⟨hb, hlabel.symm⟩
  exact Option.some.inj (hgeta.symm.trans hgetb)

theorem map_label_values {t : Table κ α} {label : α → κ}
    (h : ∀ key a, t.get? key = some a → label a = key) : t.values.map label = t.keys := by
  rw [values, keys, List.map_map]
  apply List.map_congr_left
  rintro ⟨key, a⟩ he
  exact h key a (mem_entries_iff.mp he)

theorem values_eq_filterMap (t : Table κ α) : t.values = t.keys.filterMap t.get? := by
  rw [values, keys, List.filterMap_map, ← List.filterMap_eq_map]
  apply List.filterMap_congr
  intro e he
  exact (mem_entries_iff.mp he).symm

/-- Looked up key by key, in whatever order, a table shows all its values. -/
theorem filterMap_get?_perm (t : Table κ α) {keys : List κ} (hnodup : keys.Nodup)
    (hkeys : t.keys ⊆ keys) : (keys.filterMap t.get?).Perm t.values := by
  have hfilter : keys.filterMap t.get? = (keys.filter (· ∈ t.keys)).filterMap t.get? := by
    rw [List.filterMap_filter]
    apply List.filterMap_congr
    intro key _
    by_cases hkey : key ∈ t.keys
    · simp [hkey]
    · simp [hkey, (get?_eq_none_iff t key).mpr hkey]
  rw [hfilter, values_eq_filterMap]
  apply List.Perm.filterMap
  rw [List.perm_ext_iff_of_nodup (hnodup.filter _) t.keys_nodup]
  intro key
  simp only [List.mem_filter, decide_eq_true_eq]
  exact ⟨fun h => h.2, fun h => ⟨hkeys h, h⟩⟩

omit [DecidableEq κ] in
theorem map_fst_graph (keys : List κ) (f : κ → α) :
    (keys.map fun k => (k, f k)).map Prod.fst = keys := by
  simp [Function.comp_def]

theorem lookup_map_graph (keys : List κ) (f : κ → α) {key : κ} (h : key ∈ keys) :
    (keys.map fun k => (k, f k)).lookup key = some (f key) := by
  induction keys with
  | nil => cases h
  | cons k rest ih =>
    rw [List.map_cons, List.lookup_cons]
    by_cases hk : key = k
    · subst hk
      simp
    · have hb : (key == k) = false := by simpa using hk
      rw [hb]
      exact ih ((List.mem_cons.mp h).resolve_left hk)

theorem get?_erase (t : Table κ α) (key j : κ) :
    (t.erase key).get? j = if j = key then none else t.get? j := by
  by_cases hj : j = key
  · rw [if_pos hj, get?_eq_none_iff, keys_erase]
    simp [hj]
  · rw [if_neg hj]
    apply Option.ext
    intro a
    rw [← mem_entries_iff, ← mem_entries_iff, erase, List.mem_filter]
    simp [hj]

/-- Under different keys, the insertion that comes first does not show. -/
theorem get?_insert_comm (t : Table κ α) {j k : κ} (h : j ≠ k) (a b : α) :
    ((t.insert j a).insert k b).get? = ((t.insert k b).insert j a).get? := by
  funext key
  simp only [get?_insert]
  by_cases hj : key = j
  · subst hj
    rw [if_neg h, if_pos rfl, if_pos rfl]
  · rw [if_neg hj, if_neg hj]

/-! ## Tables that got longer -/

theorem get?_of_prefix {s t : Table κ α} (h : s.entries <+: t.entries) {key : κ} {a : α}
    (ha : s.get? key = some a) : t.get? key = some a := by
  obtain ⟨r, hr⟩ := h
  unfold get? at *
  rw [← hr, List.lookup_append, ha, Option.some_or]

theorem entries_prefix_insert (t : Table κ α) {key : κ} (value : α) (h : t.get? key = none) :
    t.entries <+: (t.insert key value).entries := by
  rw [entries_insert_of_not_mem t key value ((get?_eq_none_iff t key).mp h)]
  exact List.prefix_append _ _

/-! ## Tables from lists -/

theorem entries_foldl_insert (l : List (κ × α)) (t : Table κ α)
    (h : ((t.entries ++ l).map Prod.fst).Nodup) :
    (l.foldl (fun t e => t.insert e.1 e.2) t).entries = t.entries ++ l := by
  induction l generalizing t with
  | nil => simp
  | cons e rest ih =>
    have hnew : e.1 ∉ t.keys := by
      rw [List.map_append, List.map_cons, List.nodup_append] at h
      intro hmem
      exact h.2.2 e.1 hmem e.1 (List.mem_cons_self ..) rfl
    have hstep : (t.insert e.1 e.2).entries = t.entries ++ [e] :=
      entries_insert_of_not_mem t e.1 e.2 hnew
    rw [List.foldl_cons, ih, hstep, List.append_assoc, List.singleton_append]
    rw [hstep, List.append_assoc, List.singleton_append]
    exact h

/-- A list without repeated keys is kept as it is. -/
theorem entries_ofList {l : List (κ × α)} (h : (l.map Prod.fst).Nodup) :
    (ofList l).entries = l := by
  unfold ofList
  rw [entries_foldl_insert l empty h]
  rfl

theorem get?_foldl_insert (l : List (κ × α)) (t : Table κ α) {key : κ} {a : α}
    (h : (l.foldl (fun t e => t.insert e.1 e.2) t).get? key = some a) :
    (key, a) ∈ l ∨ t.get? key = some a := by
  induction l generalizing t with
  | nil => exact Or.inr h
  | cons e rest ih =>
    rcases ih _ h with h | h
    · exact Or.inl (List.mem_cons_of_mem _ h)
    · rw [get?_insert] at h
      split at h
      · rename_i hkey
        cases h
        subst hkey
        exact Or.inl (List.mem_cons_self ..)
      · exact Or.inr h

/-- A table made of a list has nothing that was not in the list. -/
theorem mem_of_get?_ofList {l : List (κ × α)} {key : κ} {a : α}
    (h : (ofList l).get? key = some a) : (key, a) ∈ l := by
  rcases get?_foldl_insert l _ h with h | h
  · exact h
  · cases h

/-! ## The same entries, whatever their order -/

section SameEntries

variable {s t : Table κ α}

theorem keys_perm (h : s.get? = t.get?) : s.keys.Perm t.keys := by
  rw [List.perm_ext_iff_of_nodup s.keys_nodup t.keys_nodup]
  intro key
  rw [← get?_isSome, h, get?_isSome]

theorem values_perm (h : s.get? = t.get?) : s.values.Perm t.values := by
  rw [values_eq_filterMap, values_eq_filterMap, h]
  exact (keys_perm h).filterMap _

theorem size_congr (h : s.get? = t.get?) : s.size = t.size := by
  simpa [keys, size] using (keys_perm h).length_eq

theorem contains_congr (h : s.get? = t.get?) : s.contains = t.contains := by
  funext key
  rw [Bool.eq_iff_iff, contains_iff, contains_iff, (keys_perm h).mem_iff]

theorem sameContent_of_get? [DecidableEq α] (h : s.get? = t.get?) : s.sameContent t = true := by
  unfold sameContent
  rw [size_congr h, beq_self_eq_true, Bool.true_and, List.all_eq_true]
  rintro ⟨key, a⟩ he
  dsimp only
  rw [← h, mem_entries_iff.mp he]
  exact beq_self_eq_true _

end SameEntries

end Table

end PulseSequencer
