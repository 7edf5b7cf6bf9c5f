-- An archive over its whole life. What it answers can be read off the requests
-- that were made to it: a name has the versions that were saved under it since
-- it was last forgotten, and the names stand in the order of their oldest ones.
import Mathlib.Data.List.Induction
import PulseSequencer.ChannelLibrary.Archive
import PulseSequencer.Proofs.Tables

namespace PulseSequencer

namespace Archive

/-! ## Requests -/

inductive Request where
  | save (name : String) (lib : ChannelLibrary)
  | forget (name : String)
  | load (name : String) (index : Nat)

/-- The name that a request is about. -/
def Request.name : Request → String
  | save name _ => name
  | forget name => name
  | load name _ => name

/-- What a request leaves of an archive. One that fails leaves it as it is. -/
def serve (a : Archive) : Request → Archive
  | .save name lib =>
    match a.save name lib with
    | .ok saved => saved
    | .error _ => a
  | .forget name => (a.forget name).1
  | .load _ _ => a

/-- The archive after all requests, from the empty one on. -/
def after (history : List Request) : Archive := history.foldl serve .empty

theorem after_snoc (history : List Request) (r : Request) :
    after (history ++ [r]) = (after history).serve r := by
  simp [after]

/-! ## What a history keeps -/

/-- What a request saves under a name. Nothing is saved under the name of the library that is
being edited. -/
def Request.saved? (name : String) : Request → Option ChannelLibrary
  | save other lib => if other = name ∧ other ≠ workingName then some lib else none
  | _ => none

def Request.forgets (name : String) : Request → Bool
  | forget other => other = name
  | _ => false

/-- The versions that were saved under a name since it was last forgotten, the newest first. Each
comes with its time, which is the number of the request that saved it. -/
def kept (name : String) (history : List Request) : List (ChannelLibrary × Nat) :=
  (history.zipIdx.reverse.takeWhile fun r => !r.1.forgets name).filterMap fun r =>
    (r.1.saved? name).map (·, r.2)

/-- The oldest version of the first name was saved before the oldest version of the second. -/
def SavedBefore (history : List Request) (first second : String) : Prop :=
  ∃ v w, (kept first history).getLast? = some v ∧ (kept second history).getLast? = some w ∧
    v.2 < w.2

theorem kept_nil (name : String) : kept name [] = [] := rfl

theorem kept_snoc (name : String) (history : List Request) (r : Request) :
    kept name (history ++ [r]) =
      if r.forgets name then []
      else ((r.saved? name).map (·, history.length)).toList ++ kept name history := by
  unfold kept
  rw [List.zipIdx_append, List.reverse_append]
  cases hforgets : r.forgets name <;> cases hsaved : r.saved? name <;>
    simp [hforgets, hsaved]

/-- A request does nothing to other names. -/
theorem kept_snoc_of_ne {name : String} (history : List Request) (r : Request)
    (h : r.name ≠ name) : kept name (history ++ [r]) = kept name history := by
  rw [kept_snoc]
  cases r with
  | save other lib =>
    have hne : other ≠ name := h
    simp [Request.forgets, Request.saved?, hne]
  | forget other =>
    have hne : other ≠ name := h
    simp [Request.forgets, Request.saved?, hne]
  | load other index => simp [Request.forgets, Request.saved?]

theorem kept_workingName (history : List Request) : kept workingName history = [] := by
  unfold kept
  rw [List.filterMap_eq_nil_iff]
  rintro ⟨r, time⟩ _
  cases r <;> simp [Request.saved?]

theorem time_lt_of_mem_kept {name : String} {history : List Request} {v : ChannelLibrary × Nat}
    (h : v ∈ kept name history) : v.2 < history.length := by
  unfold kept at h
  rw [List.mem_filterMap] at h
  obtain ⟨⟨r, time⟩, hr, hv⟩ := h
  obtain ⟨lib, _, rfl⟩ := Option.map_eq_some_iff.mp hv
  have hmem := List.takeWhile_subset _ hr
  rw [List.mem_reverse] at hmem
  simpa using List.snd_lt_of_mem_zipIdx hmem

/-! ## An archive and its history -/

/-- The archive has for every name what its history keeps, and lists the names in the order of
their oldest versions. -/
structure Records (a : Archive) (history : List Request) : Prop where
  versions : ∀ name, a.versions name = ((kept name history).map Prod.fst).reverse
  listed : ∀ name, name ∈ a.names ↔ kept name history ≠ []
  ordered : a.names.Pairwise (SavedBefore history)

theorem records_empty : Records .empty [] := by
  refine ⟨?_, ?_, ?_⟩
  · intro name
    rfl
  · intro name
    simp [kept_nil, names, empty]
  · exact List.Pairwise.nil

/-- A request that leaves the archive as it is, and keeps what was kept. -/
theorem Records.same {a : Archive} {history : List Request} (h : Records a history) {r : Request}
    (hkept : ∀ name, kept name (history ++ [r]) = kept name history) :
    Records a (history ++ [r]) := by
  refine ⟨?_, ?_, ?_⟩
  · intro name
    rw [hkept, h.versions]
  · intro name
    rw [hkept, h.listed]
  · refine h.ordered.imp ?_
    rintro m n ⟨v, w, hv, hw, hlt⟩
    exact ⟨v, w, by rw [hkept, hv], by rw [hkept, hw], hlt⟩

theorem save_eq_ok {name : String} (a : Archive) (lib : ChannelLibrary) (h : name ≠ workingName) :
    a.save name lib = .ok ⟨a.saved.insert name (a.versions name ++ [lib])⟩ := by
  rw [save, if_neg h]

theorem Records.forget {a : Archive} {history : List Request} (h : Records a history)
    (name : String) : Records (a.forget name).1 (history ++ [.forget name]) := by
  have hself : kept name (history ++ [.forget name]) = [] := by
    simp [kept_snoc, Request.forgets]
  have hother : ∀ n, n ≠ name → kept n (history ++ [.forget name]) = kept n history :=
    fun n hn => kept_snoc_of_ne history _ hn.symm
  refine ⟨?_, ?_, ?_⟩
  · intro n
    unfold Archive.versions Archive.forget
    rw [Table.get?_erase]
    by_cases hn : n = name
    · subst hn
      rw [if_pos rfl, hself]
      rfl
    · rw [if_neg hn, hother n hn, ← h.versions]
      rfl
  · intro n
    unfold names Archive.forget
    rw [Table.keys_erase, List.mem_filter, decide_eq_true_eq]
    by_cases hn : n = name
    · subst hn
      simp [hself]
    · rw [hother n hn, ← h.listed]
      simp [names, hn]
  · unfold names Archive.forget
    rw [Table.keys_erase]
    refine (h.ordered.filter _).imp_of_mem ?_
    rintro m n hm hn ⟨v, w, hv, hw, hlt⟩
    simp only [ne_eq, List.mem_filter, decide_eq_true_eq] at hm hn
    exact ⟨v, w, by rw [hother m hm.2, hv], by rw [hother n hn.2, hw], hlt⟩

/-- A new version is the newest of its name, so the oldest one stays the same unless there was
none. -/
theorem Records.save {a : Archive} {history : List Request} (h : Records a history)
    {name : String} (hname : name ≠ workingName) (lib : ChannelLibrary) :
    Records ⟨a.saved.insert name (a.versions name ++ [lib])⟩ (history ++ [.save name lib]) := by
  have hself : kept name (history ++ [.save name lib]) =
      (lib, history.length) :: kept name history := by
    simp [kept_snoc, Request.forgets, Request.saved?, hname]
  have hother : ∀ n, n ≠ name → kept n (history ++ [.save name lib]) = kept n history :=
    fun n hn => kept_snoc_of_ne history _ hn.symm
  have holdest : ∀ n v, (kept n history).getLast? = some v →
      (kept n (history ++ [.save name lib])).getLast? = some v := by
    intro n v hv
    by_cases hn : n = name
    · subst hn
      rw [hself, List.getLast?_cons, hv]
      rfl
    · rw [hother n hn, hv]
  have hordered : a.names.Pairwise (SavedBefore (history ++ [.save name lib])) := by
    refine h.ordered.imp ?_
    rintro m n ⟨v, w, hv, hw, hlt⟩
    exact ⟨v, w, holdest m v hv, holdest n w hw, hlt⟩
  refine ⟨?_, ?_, ?_⟩
  · intro n
    unfold Archive.versions
    rw [Table.get?_insert]
    by_cases hn : n = name
    · subst hn
      rw [if_pos rfl, hself, ← Archive.versions, h.versions]
      simp
    · rw [if_neg hn, hother n hn, ← h.versions]
      rfl
  · intro n
    unfold names
    rw [Table.mem_keys_insert]
    by_cases hn : n = name
    · subst hn
      simp [hself]
    · rw [hother n hn, ← h.listed]
      simp [names, hn]
  · unfold names
    rw [Table.keys_insert]
    split
    · exact hordered
    · rename_i hnew
      have hnone : kept name history = [] := by
        by_contra hne
        exact hnew ((h.listed name).mpr hne)
      -- Whatever is listed already has a version that is older than this request.
      refine List.pairwise_append.mpr ⟨hordered, List.pairwise_singleton _ _, ?_⟩
      intro m hm n hn
      rw [List.mem_singleton] at hn
      subst hn
      obtain ⟨v, hv⟩ : ∃ v, (kept m history).getLast? = some v :=
        ⟨_, List.getLast?_eq_some_getLast ((h.listed m).mp hm)⟩
      refine ⟨v, (lib, history.length), holdest m v hv, ?_, ?_⟩
      · rw [hself, hnone]
        rfl
      · exact time_lt_of_mem_kept (List.mem_of_getLast? hv)

theorem Records.serve {a : Archive} {history : List Request} (h : Records a history)
    (r : Request) : Records (a.serve r) (history ++ [r]) := by
  cases r with
  | save name lib =>
    by_cases hname : name = workingName
    · have hfails : a.serve (.save name lib) = a := by
        simp [Archive.serve, Archive.save, hname]
      rw [hfails]
      apply h.same
      intro n
      simp [kept_snoc, Request.forgets, Request.saved?, hname]
    · have hsaves : a.serve (.save name lib) =
          ⟨a.saved.insert name (a.versions name ++ [lib])⟩ := by
        simp [Archive.serve, Archive.save, hname]
      rw [hsaves]
      exact h.save hname lib
  | forget name => exact h.forget name
  | load name index =>
    apply h.same
    intro n
    simp [kept_snoc, Request.forgets, Request.saved?]

theorem records_after (history : List Request) : Records (after history) history := by
  induction history using List.reverseRecOn with
  | nil => exact records_empty
  | append_singleton history r ih =>
    rw [after_snoc]
    exact ih.serve r

/-! ## Loading -/

/-- What a load answers is settled by the versions of its name. -/
theorem load_congr {a b : Archive} {name : String} (h : a.versions name = b.versions name)
    (index : Nat) : a.load name index = b.load name index := by
  unfold load
  rw [h]

theorem load_eq_ok_iff {a : Archive} {name : String} {index : Nat} {lib : ChannelLibrary} :
    a.load name index = .ok lib ↔
      1 ≤ index ∧ (a.versions name).reverse[index - 1]? = some lib := by
  cases index with
  | zero => simp [load]
  | succ age =>
    rw [load, Nat.add_sub_cancel]
    cases (a.versions name).reverse[age]? <;> simp

theorem load_eq_error {a : Archive} {name : String} {index : Nat}
    (h : ¬ (1 ≤ index ∧ index ≤ (a.versions name).length)) :
    a.load name index = .error (.unknownLibrary name index) := by
  cases index with
  | zero => rfl
  | succ age =>
    have hnone : (a.versions name).reverse[age]? = none := by
      rw [List.getElem?_eq_none_iff, List.length_reverse]
      omega
    rw [load, hnone]

theorem Records.length_versions {a : Archive} {history : List Request} (h : Records a history)
    (name : String) : (a.versions name).length = (kept name history).length := by
  rw [h.versions, List.length_reverse, List.length_map]

theorem Records.mem_names_iff {a : Archive} {history : List Request} (h : Records a history)
    (name : String) : name ∈ a.names ↔ (kept name history).length ≠ 0 := by
  rw [h.listed, ne_eq, ne_eq, List.length_eq_zero_iff]

/-- A load finds the version of that age among those that are kept. -/
theorem Records.load_eq_ok_iff {a : Archive} {history : List Request} (h : Records a history)
    (name : String) (index : Nat) (lib : ChannelLibrary) :
    a.load name index = .ok lib ↔
      1 ≤ index ∧ index ≤ (kept name history).length ∧
        ((kept name history)[index - 1]?).map Prod.fst = some lib := by
  rw [Archive.load_eq_ok_iff, h.versions, List.reverse_reverse, List.getElem?_map]
  constructor
  · rintro ⟨hpos, hfound⟩
    obtain ⟨v, hv, _⟩ := Option.map_eq_some_iff.mp hfound
    have hlt := (List.getElem?_eq_some_iff.mp hv).1
    exact ⟨hpos, by omega, hfound⟩
  · rintro ⟨hpos, _, hfound⟩
    exact ⟨hpos, hfound⟩

theorem Records.load_eq_error {a : Archive} {history : List Request} (h : Records a history)
    {name : String} {index : Nat} (hout : ¬ (1 ≤ index ∧ index ≤ (kept name history).length)) :
    a.load name index = .error (.unknownLibrary name index) := by
  apply Archive.load_eq_error
  rw [h.length_versions]
  exact hout

/-! ## The law -/

/-- After any requests a name can be loaded as often as it was saved since it was last forgotten,
the newest version first, and every other load tells what was not found. The names that have
versions are listed once each, those with the older first version in front, and forgetting tells
whether there were any. The name of the library that is being edited is refused, so it is never
among them; and a request leaves what can be loaded under other names. -/
theorem an_archive_answers_from_its_history (history : List Request) :
    let a := after history
    (∀ name index lib, a.load name index = .ok lib ↔
        1 ≤ index ∧ index ≤ (kept name history).length ∧
          ((kept name history)[index - 1]?).map Prod.fst = some lib) ∧
      (∀ name index, ¬ (1 ≤ index ∧ index ≤ (kept name history).length) →
        a.load name index = .error (.unknownLibrary name index)) ∧
      (∀ name, (a.versions name).length = (kept name history).length) ∧
      (∀ name, (a.forget name).2 = true ↔ (kept name history).length ≠ 0) ∧
      (a.names.Nodup ∧ (∀ name, name ∈ a.names ↔ (kept name history).length ≠ 0) ∧
        a.names.Pairwise (SavedBefore history)) ∧
      (∀ lib, a.save "working" lib = .error (.reservedName "working") ∧
        a.serve (.save "working" lib) = a) ∧
      (∀ name lib, name ≠ "working" → ∃ saved, a.save name lib = .ok saved) ∧
      ("working" ∉ a.names ∧
        ∀ index, a.load "working" index = .error (.unknownLibrary "working" index)) ∧
      ∀ request name index, request.name ≠ name →
        (a.serve request).load name index = a.load name index := by
  intro a
  have hrecords : Records a history := records_after history
  have hworking : (kept "working" history).length = 0 :=
    congrArg List.length (kept_workingName history)
  refine ⟨hrecords.load_eq_ok_iff, fun _ _ hout => hrecords.load_eq_error hout,
    hrecords.length_versions, ?_,
    ⟨a.saved.keys_nodup, hrecords.mem_names_iff, hrecords.ordered⟩, fun _ => ⟨rfl, rfl⟩,
    fun _ lib hname => ⟨_, a.save_eq_ok lib hname⟩, ⟨?_, ?_⟩, ?_⟩
  · intro name
    rw [← hrecords.mem_names_iff]
    exact Table.contains_iff _ _
  · rw [hrecords.mem_names_iff, hworking]
    exact fun h => h rfl
  · intro index
    apply hrecords.load_eq_error
    rw [hworking]
    omega
  · intro request name index hname
    apply load_congr
    rw [(hrecords.serve request).versions, hrecords.versions,
      kept_snoc_of_ne history request hname]

/-- Two names, one of which is forgotten and saved again: it loses its old version and its place.
What was to be saved under the reserved name is nowhere. -/
theorem a_name_that_is_saved_again_comes_last :
    let lib : ChannelLibrary := { logical := Table.empty.insert "q" ⟨"q", .qubit, none⟩ }
    let history := [.save "lab" {}, .save "rig" {}, .save "working" {}, .forget "lab",
      .save "lab" lib]
    (after history).names = ["rig", "lab"] ∧ (after history).load "lab" 1 = .ok lib ∧
      (after history).load "lab" 2 = .error (.unknownLibrary "lab" 2) ∧
      ((after history).forget "lab").2 = true ∧
      ((after history).serve (.forget "rig")).load "lab" 1 = .ok lib ∧
      ∃ saved, (after history).save "rig" lib = .ok saved := by
  intro lib history
  obtain ⟨hload, hunknown, _, hforget, _, _, hsave, _, hothers⟩ :=
    an_archive_answers_from_its_history history
  have hnewest : (after history).load "lab" 1 = .ok lib :=
    (hload "lab" 1 lib).mpr ⟨by decide, by decide, rfl⟩
  refine ⟨by decide, hnewest, hunknown "lab" 2 (by decide), (hforget "lab").mpr (by decide), ?_,
    hsave "rig" lib (by decide)⟩
  rw [hothers (.forget "rig") "lab" 1 (by decide)]
  exact hnewest

end Archive

end PulseSequencer
