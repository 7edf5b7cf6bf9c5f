-- Maps that remember the order in which their keys came.

namespace PulseSequencer

/-- The entries in order. A key stands at most once. -/
structure Table (κ : Type) (α : Type) where
  entries : List (κ × α)
  nodup : (entries.map Prod.fst).Nodup

namespace Table

variable {κ α β : Type}

def empty : Table κ α := ⟨[], .nil⟩

instance : EmptyCollection (Table κ α) := ⟨empty⟩

instance : Inhabited (Table κ α) := ⟨empty⟩

def keys (t : Table κ α) : List κ := t.entries.map Prod.fst

theorem keys_nodup (t : Table κ α) : t.keys.Nodup := t.nodup

@[simp] theorem keys_empty : (empty : Table κ α).keys = [] := rfl

def values (t : Table κ α) : List α := t.entries.map Prod.snd

def size (t : Table κ α) : Nat := t.entries.length

def isEmpty (t : Table κ α) : Bool := t.entries.isEmpty

/-- Each value replaced by what `f` makes of it, keys and order kept. -/
def mapValues (f : κ → α → β) (t : Table κ α) : Table κ β where
  entries := t.entries.map fun (k, a) => (k, f k a)
  nodup := by
    have h : (t.entries.map fun (k, a) => (k, f k a)).map Prod.fst = t.entries.map Prod.fst := by
      simp [List.map_map, Function.comp_def]
    rw [h]
    exact t.nodup

variable [DecidableEq κ]

def get? (t : Table κ α) (key : κ) : Option α := t.entries.lookup key

def contains (t : Table κ α) (key : κ) : Bool := t.keys.contains key

/-- The entries with the value of `key` replaced where it stands. -/
def replaceIn (key : κ) (value : α) : List (κ × α) → List (κ × α)
  | [] => []
  | (k, a) :: rest => if k = key then (k, value) :: rest else (k, a) :: replaceIn key value rest

theorem map_fst_replaceIn (key : κ) (value : α) (l : List (κ × α)) :
    (replaceIn key value l).map Prod.fst = l.map Prod.fst := by
  induction l with
  | nil => rfl
  | cons e rest ih =>
    unfold replaceIn
    split <;> simp [ih]

/-- A key that is there keeps its place and gets the new value; a new key comes last. -/
def insert (t : Table κ α) (key : κ) (value : α) : Table κ α :=
  if h : t.contains key then
    ⟨replaceIn key value t.entries, by rw [map_fst_replaceIn]; exact t.nodup⟩
  else
    ⟨t.entries ++ [(key, value)], by
      simp only [List.map_append, List.map_cons, List.map_nil]
      refine List.nodup_append.mpr ⟨t.nodup, by simp, ?_⟩
      intro a ha b hb hab
      simp only [List.mem_singleton] at hb
      subst hb hab
      exact h (List.contains_iff_mem.mpr ha)⟩

/-- The table without `key`; the others keep their order. -/
def erase (t : Table κ α) (key : κ) : Table κ α where
  entries := t.entries.filter (·.1 ≠ key)
  nodup := t.nodup.sublist (List.filter_sublist.map Prod.fst)

/-- The entries inserted one after another, so a repeated key keeps its first place and its
last value. -/
def ofList (entries : List (κ × α)) : Table κ α :=
  entries.foldl (fun t e => t.insert e.1 e.2) empty

/-- The same keys with the same values, in whatever order. -/
def sameContent [DecidableEq α] (s t : Table κ α) : Bool :=
  s.size == t.size && s.entries.all fun (k, a) => t.get? k == some a

/-! ## Keys and look-ups -/

theorem contains_iff (t : Table κ α) (key : κ) : t.contains key = true ↔ key ∈ t.keys :=
  List.contains_iff_mem

@[simp] theorem get?_empty (key : κ) : (empty : Table κ α).get? key = none := rfl

theorem lookup_isSome (l : List (κ × α)) (key : κ) :
    (l.lookup key).isSome = true ↔ key ∈ l.map Prod.fst := by
  induction l with
  | nil => simp
  | cons e rest ih =>
    obtain ⟨k, a⟩ := e
    by_cases h : key = k
    · subst h; simp
    · have hb : (key == k) = false := by simpa using h
      simp [List.lookup_cons, hb, ih, h]

theorem get?_isSome (t : Table κ α) (key : κ) : (t.get? key).isSome = true ↔ key ∈ t.keys :=
  lookup_isSome t.entries key

theorem get?_eq_none_iff (t : Table κ α) (key : κ) : t.get? key = none ↔ key ∉ t.keys := by
  rw [← get?_isSome]
  cases t.get? key <;> simp

theorem lookup_replaceIn (key j : κ) (value : α) (l : List (κ × α)) (h : key ∈ l.map Prod.fst) :
    (replaceIn key value l).lookup j = if j = key then some value else l.lookup j := by
  induction l with
  | nil => simp at h
  | cons e rest ih =>
    obtain ⟨k, a⟩ := e
    by_cases hk : k = key
    · subst hk
      by_cases hj : j = k
      · subst hj; simp [replaceIn]
      · have hb : (j == k) = false := by simpa using hj
        simp [replaceIn, List.lookup_cons, hb, hj]
    · have hmem : key ∈ rest.map Prod.fst := by
        simp only [List.map_cons, List.mem_cons] at h
        exact h.resolve_left (fun he => hk he.symm)
      by_cases hj : j = k
      · subst hj; simp [replaceIn, hk]
      · have hb : (j == k) = false := by simpa using hj
        simp [replaceIn, hk, List.lookup_cons, hb, ih hmem]

theorem lookup_snoc (key j : κ) (value : α) (l : List (κ × α)) (h : key ∉ l.map Prod.fst) :
    (l ++ [(key, value)]).lookup j = if j = key then some value else l.lookup j := by
  induction l with
  | nil =>
    by_cases hj : j = key
    · subst hj; simp
    · have hb : (j == key) = false := by simpa using hj
      simp [List.lookup_cons, hb, hj]
  | cons e rest ih =>
    obtain ⟨k, a⟩ := e
    simp only [List.map_cons, List.mem_cons, not_or] at h
    by_cases hj : j = k
    · subst hj
      have hne : j ≠ key := fun he => h.1 he.symm
      simp [hne]
    · have hb : (j == k) = false := by simpa using hj
      simp only [List.cons_append, List.lookup_cons, hb]
      exact ih h.2

/-- An insertion is seen under its own key and nowhere else. -/
theorem get?_insert (t : Table κ α) (key j : κ) (value : α) :
    (t.insert key value).get? j = if j = key then some value else t.get? j := by
  unfold insert
  split
  · rename_i h
    exact lookup_replaceIn key j value t.entries ((contains_iff t key).mp h)
  · rename_i h
    exact lookup_snoc key j value t.entries (fun hm => h ((contains_iff t key).mpr hm))

theorem keys_insert (t : Table κ α) (key : κ) (value : α) :
    (t.insert key value).keys = if key ∈ t.keys then t.keys else t.keys ++ [key] := by
  unfold insert
  split
  · rename_i h
    rw [if_pos ((contains_iff t key).mp h)]
    exact map_fst_replaceIn key value t.entries
  · rename_i h
    rw [if_neg (fun hm => h ((contains_iff t key).mpr hm))]
    simp [keys]

theorem entries_insert_of_not_mem (t : Table κ α) (key : κ) (value : α) (h : key ∉ t.keys) :
    (t.insert key value).entries = t.entries ++ [(key, value)] := by
  have hc : ¬ t.contains key = true := fun hm => h ((contains_iff t key).mp hm)
  simp [insert, hc]

theorem keys_erase (t : Table κ α) (key : κ) : (t.erase key).keys = t.keys.filter (· ≠ key) := by
  unfold keys erase
  simp only [ne_eq]
  rw [List.filter_map]
  rfl

end Table

end PulseSequencer
