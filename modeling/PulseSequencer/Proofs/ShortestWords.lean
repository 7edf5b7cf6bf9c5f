-- The shortest words of a gate, for any table of products. All words are looked
-- at, each once and the shortest first, so the first word that makes a gate has
-- the least length, and the others of that length follow in order.
import Mathlib.Data.List.Lex
import PulseSequencer.Clifford.Word

namespace PulseSequencer.Clifford

/-! ## Tables of products -/

/-- A table for `n` gates: each of them followed by each of them is again one of them. -/
structure ProductTable.Closed (table : ProductTable) (n : Nat) : Prop where
  rows : table.length = n
  columns : ∀ row ∈ table, row.length = n
  entries : ∀ row ∈ table, ∀ c ∈ row, c < n

/-- The entry in row `a` and column `b`, of a table that has it. -/
def ProductTable.entry (table : ProductTable) (a b : Nat) : Nat := (table.getD a []).getD b 0

theorem fst_better_lt {n : Nat} {best : Nat × Binary64} {candidate : GateMatrix × Nat}
    (m : GateMatrix) (hbest : best.1 < n) (hcandidate : candidate.2 < n) :
    (better m best candidate).1 < n := by
  unfold better
  dsimp only
  split
  · exact hcandidate
  · exact hbest

/-- Whatever the scores are, numbers or not, the best match is a candidate. -/
theorem bestMatch_lt {candidates : List GateMatrix} (h : candidates ≠ []) (m : GateMatrix) :
    bestMatch candidates m < candidates.length := by
  have hrun : ∀ (rest : List (GateMatrix × Nat)) (best : Nat × Binary64),
      best.1 < candidates.length → (∀ c ∈ rest, c.2 < candidates.length) →
      (rest.foldl (better m) best).1 < candidates.length := by
    intro rest
    induction rest with
    | nil => exact fun _ hbest _ => hbest
    | cons c rest ih =>
      intro best hbest hrest
      exact ih _ (fst_better_lt m hbest (hrest c List.mem_cons_self))
        fun d hd => hrest d (List.mem_cons_of_mem _ hd)
  exact hrun _ _ (List.length_pos_of_ne_nil h) fun c hc => List.snd_lt_of_mem_zipIdx hc

theorem closed_productTable {gates : List GateMatrix} (h : gates ≠ []) :
    (productTable gates).Closed gates.length := by
  refine ⟨List.length_map _, ?_, ?_⟩
  · intro row hrow
    obtain ⟨g1, -, rfl⟩ := List.mem_map.mp hrow
    exact List.length_map _
  · intro row hrow c hc
    obtain ⟨g1, -, rfl⟩ := List.mem_map.mp hrow
    obtain ⟨g2, -, rfl⟩ := List.mem_map.mp hc
    exact bestMatch_lt h _

/-- A look-up among the gates of a closed table succeeds, and finds a gate. -/
theorem ProductTable.Closed.get? {table : ProductTable} {n a b : Nat} (h : table.Closed n)
    (ha : a < n) (hb : b < n) :
    table.get? a b = some (table.entry a b) ∧ table.entry a b < n := by
  have hrow : a < table.length := by rw [h.rows]; exact ha
  have hmem : table[a] ∈ table := List.getElem_mem hrow
  have hcolumn : b < table[a].length := by rw [h.columns _ hmem]; exact hb
  have hget : table.get? a b = some table[a][b] := by
    rw [ProductTable.get?, List.getElem?_eq_getElem hrow, Option.bind_some,
      List.getElem?_eq_getElem hcolumn]
  have hentry : table.entry a b = table[a][b] := by
    rw [ProductTable.entry, List.getD_eq_getElem?_getD, List.getD_eq_getElem?_getD,
      List.getElem?_eq_getElem hrow, Option.getD_some, List.getElem?_eq_getElem hcolumn,
      Option.getD_some]
  rw [hentry]
  exact ⟨hget, h.entries _ hmem _ (List.getElem_mem hcolumn)⟩

/-! ## What a word makes -/

/-- The first letter makes itself, and every further one what the table has for the letters so far
and for it. -/
def Makes (table : ProductTable) (w : Word) (gate : Nat) : Prop :=
  ∃ first rest, w = first :: rest ∧ rest.foldl table.entry first = gate

theorem foldlM_get? {table : ProductTable} {n a : Nat} {w : Word} (h : table.Closed n)
    (ha : a < n) (hw : ∀ g ∈ w, g < n) :
    w.foldlM table.get? a = some (w.foldl table.entry a) ∧ w.foldl table.entry a < n := by
  induction w generalizing a with
  | nil => exact ⟨rfl, ha⟩
  | cons g rest ih =>
    obtain ⟨hget, hlt⟩ := h.get? ha (hw g List.mem_cons_self)
    obtain ⟨hrest, hend⟩ := ih hlt fun d hd => hw d (List.mem_cons_of_mem _ hd)
    refine ⟨?_, hend⟩
    rw [List.foldlM_cons, hget]
    exact hrest

/-- A word of gates never leaves a closed table. -/
theorem exists_reduce {table : ProductTable} {n : Nat} {w : Word} (h : table.Closed n)
    (hne : w ≠ []) (hw : ∀ g ∈ w, g < n) :
    ∃ gate < n, reduce table w = some gate ∧ Makes table w gate := by
  cases w with
  | nil => exact absurd rfl hne
  | cons first rest =>
    obtain ⟨hrest, hend⟩ := foldlM_get? h (hw first List.mem_cons_self)
      fun g hg => hw g (List.mem_cons_of_mem _ hg)
    exact ⟨_, hend, hrest, first, rest, rfl, rfl⟩

theorem Makes.unique {table : ProductTable} {w : Word} {gate gate' : Nat}
    (h : Makes table w gate) (h' : Makes table w gate') : gate = gate' := by
  obtain ⟨first, rest, rfl, rfl⟩ := h
  obtain ⟨first', rest', heq, rfl⟩ := h'
  cases heq
  rfl

theorem Makes.ne_nil {table : ProductTable} {w : Word} {gate : Nat} (h : Makes table w gate) :
    w ≠ [] := by
  obtain ⟨first, rest, rfl, -⟩ := h
  exact List.cons_ne_nil _ _

theorem reduce_eq_some_iff {table : ProductTable} {n gate : Nat} {w : Word} (h : table.Closed n)
    (hw : ∀ g ∈ w, g < n) : reduce table w = some gate ↔ Makes table w gate := by
  by_cases hne : w = []
  · subst hne
    exact ⟨nofun, fun hmakes => absurd rfl hmakes.ne_nil⟩
  · obtain ⟨made, -, hreduce, hmakes⟩ := exists_reduce h hne hw
    rw [hreduce, Option.some.injEq]
    exact ⟨fun heq => heq ▸ hmakes, fun hother => hmakes.unique hother⟩

/-! ## All words -/

/-- All letters can be played directly. -/
def Playable (w : Word) : Prop := ∀ g ∈ w, g ∈ generators

/-- Words in the order of a dictionary, whose alphabet is the list of generators. -/
def Precedes : Word → Word → Prop := List.Lex fun a b => generators.idxOf a < generators.idxOf b

theorem playable_snoc {w : Word} {g : Nat} :
    Playable (w ++ [g]) ↔ Playable w ∧ g ∈ generators := by
  simp [Playable, or_imp, forall_and]

theorem mem_wordsOfLength {n : Nat} {w : Word} :
    w ∈ wordsOfLength n ↔ w.length = n ∧ Playable w := by
  induction n generalizing w with
  | zero =>
    simp only [wordsOfLength, List.mem_singleton, List.length_eq_zero_iff]
    exact ⟨fun h => ⟨h, h ▸ nofun⟩, And.left⟩
  | succ n ih =>
    simp only [wordsOfLength, List.mem_flatMap, List.mem_map, ih]
    constructor
    · rintro ⟨v, ⟨rfl, hv⟩, g, hg, rfl⟩
      exact ⟨List.length_append, playable_snoc.mpr ⟨hv, hg⟩⟩
    · rintro ⟨hlength, hw⟩
      -- A word with a letter to spare ends in one.
      rcases List.eq_nil_or_concat' w with rfl | ⟨v, g, rfl⟩
      · cases hlength
      · obtain ⟨hv, hg⟩ := playable_snoc.mp hw
        exact ⟨v, ⟨by simpa using hlength, hv⟩, g, hg, rfl⟩

theorem Precedes.append {v w : Word} (h : Precedes v w) (hlength : v.length = w.length)
    (x y : Word) : Precedes (v ++ x) (w ++ y) := by
  unfold Precedes at *
  induction h with
  | nil => simp at hlength
  | rel hab => exact .rel hab
  | cons _ ih => exact .cons (ih (Nat.succ.inj hlength))

theorem Precedes.ne {v w : Word} (h : Precedes v w) : v ≠ w := by
  unfold Precedes at h
  induction h with
  | nil => exact nofun
  | rel hab =>
    intro heq
    rw [(List.cons.inj heq).1] at hab
    exact Nat.lt_irrefl _ hab
  | cons _ ih => exact fun heq => ih (List.cons.inj heq).2

theorem pairwise_generators :
    generators.Pairwise fun a b => generators.idxOf a < generators.idxOf b := by decide

/-- Lengthening every word by every generator keeps the order of the dictionary. -/
theorem pairwise_wordsOfLength (n : Nat) : (wordsOfLength n).Pairwise Precedes := by
  induction n with
  | zero => exact List.pairwise_singleton _ _
  | succ n ih =>
    rw [wordsOfLength, List.pairwise_flatMap]
    constructor
    · intro w _
      rw [List.pairwise_map]
      exact pairwise_generators.imp fun hab => List.Lex.append_left _ (.rel hab) w
    · refine ih.imp_of_mem ?_
      intro v w hv hw hvw x hx y hy
      obtain ⟨a, -, rfl⟩ := List.mem_map.mp hx
      obtain ⟨b, -, rfl⟩ := List.mem_map.mp hy
      exact hvw.append ((mem_wordsOfLength.mp hv).1.trans (mem_wordsOfLength.mp hw).1.symm) _ _

/-- The words that are looked at are the playable ones of one to three letters. -/
theorem mem_words {w : Word} :
    w ∈ words ↔ Playable w ∧ 1 ≤ w.length ∧ w.length ≤ maxWordLength := by
  simp only [words, List.mem_flatMap, List.mem_range, mem_wordsOfLength]
  constructor
  · rintro ⟨n, hn, hlength, hw⟩
    exact ⟨hw, by omega, by omega⟩
  · rintro ⟨hw, hpos, hmax⟩
    exact ⟨w.length - 1, by omega, by omega, hw⟩

/-- Shorter words come first, and words of one length as in the dictionary. -/
theorem pairwise_words : words.Pairwise fun v w =>
    v.length < w.length ∨ v.length = w.length ∧ Precedes v w := by
  rw [words, List.pairwise_flatMap]
  constructor
  · intro n _
    refine (pairwise_wordsOfLength (n + 1)).imp_of_mem ?_
    intro v w hv hw hvw
    exact .inr ⟨(mem_wordsOfLength.mp hv).1.trans (mem_wordsOfLength.mp hw).1.symm, hvw⟩
  · refine List.pairwise_lt_range.imp ?_
    intro m n hmn v hv w hw
    rw [(mem_wordsOfLength.mp hv).1, (mem_wordsOfLength.mp hw).1]
    exact .inl (Nat.succ_lt_succ hmn)

/-! ## The shortest ones -/

/-- The least length of a word for a gate, if it is one that is looked at. -/
structure ShortestLength (table : ProductTable) (gate m : Nat) : Prop where
  bounds : 1 ≤ m ∧ m ≤ 3
  attained : ∃ w, Playable w ∧ w.length = m ∧ Makes table w gate
  least : ∀ w, Playable w → w.length < m → ¬ Makes table w gate

theorem mem_wordsFor {table : ProductTable} {n gate : Nat} {w : Word} (h : table.Closed n)
    (hn : ∀ g ∈ generators, g < n) :
    w ∈ wordsFor table gate ↔
      Playable w ∧ w.length ≤ maxWordLength ∧ Makes table w gate := by
  rw [wordsFor, List.mem_filter, mem_words, decide_eq_true_eq]
  constructor
  · rintro ⟨⟨hw, -, hmax⟩, hreduce⟩
    exact ⟨hw, hmax, (reduce_eq_some_iff h fun g hg => hn g (hw g hg)).mp hreduce⟩
  · rintro ⟨hw, hmax, hmakes⟩
    refine ⟨⟨hw, List.length_pos_of_ne_nil hmakes.ne_nil, hmax⟩, ?_⟩
    exact (reduce_eq_some_iff h fun g hg => hn g (hw g hg)).mpr hmakes

theorem pairwise_wordsFor (table : ProductTable) (gate : Nat) :
    (wordsFor table gate).Pairwise fun v w =>
      v.length < w.length ∨ v.length = w.length ∧ Precedes v w :=
  pairwise_words.filter _

/-- The words for a gate that have the length of the first one. -/
theorem minimalWords_of_cons {table : ProductTable} {gate : Nat} {first : Word} {rest : List Word}
    (h : wordsFor table gate = first :: rest) :
    minimalWords table gate = (wordsFor table gate).filter (·.length = first.length) := by
  rw [minimalWords, h]

/-- No word for a gate is shorter than the first one. -/
theorem length_first_le {table : ProductTable} {gate : Nat} {first w : Word} {rest : List Word}
    (h : wordsFor table gate = first :: rest) (hw : w ∈ wordsFor table gate) :
    first.length ≤ w.length := by
  have hpairs := pairwise_wordsFor table gate
  rw [h] at hw hpairs
  rcases List.mem_cons.mp hw with rfl | hw
  · exact Nat.le_refl _
  · rcases List.rel_of_pairwise_cons hpairs hw with hlt | ⟨heq, -⟩
    · exact Nat.le_of_lt hlt
    · exact Nat.le_of_eq heq

theorem pairwise_minimalWords (table : ProductTable) (gate : Nat) :
    (minimalWords table gate).Pairwise Precedes := by
  cases h : wordsFor table gate with
  | nil =>
    rw [minimalWords, h]
    exact .nil
  | cons first rest =>
    rw [minimalWords_of_cons h]
    refine ((pairwise_wordsFor table gate).filter _).imp_of_mem ?_
    intro v w hv hw hvw
    have hlength : v.length = w.length := by
      rw [of_decide_eq_true (List.mem_filter.mp hv).2, of_decide_eq_true (List.mem_filter.mp hw).2]
    rcases hvw with hlt | ⟨-, hprecedes⟩
    · omega
    · exact hprecedes

/-- The first word for a gate shows the least length, and all words of that length are kept. -/
theorem minimalWords_spec {table : ProductTable} {n : Nat} (h : table.Closed n)
    (hn : ∀ g ∈ generators, g < n) (gate : Nat) :
    (∃ m, ShortestLength table gate m ∧
        ∀ w, w ∈ minimalWords table gate ↔ w.length = m ∧ Playable w ∧ Makes table w gate) ∨
      (∀ w, Playable w → w.length ≤ 3 → ¬ Makes table w gate) ∧
        minimalWords table gate = [] := by
  cases hwords : wordsFor table gate with
  | nil =>
    refine .inr ⟨?_, by rw [minimalWords, hwords]⟩
    intro w hw hmax hmakes
    have hmem := (mem_wordsFor h hn).mpr ⟨hw, hmax, hmakes⟩
    rw [hwords] at hmem
    cases hmem
  | cons first rest =>
    have hmem : first ∈ wordsFor table gate := by rw [hwords]; exact List.mem_cons_self
    obtain ⟨hplayable, hmax, hmakes⟩ := (mem_wordsFor h hn).mp hmem
    refine .inl ⟨first.length, ⟨⟨List.length_pos_of_ne_nil hmakes.ne_nil, hmax⟩,
      ⟨first, hplayable, rfl, hmakes⟩, ?_⟩, ?_⟩
    · intro w hw hlt hother
      -- A shorter word would stand before the first one.
      have hle := length_first_le hwords ((mem_wordsFor h hn).mpr ⟨hw, by omega, hother⟩)
      omega
    · intro w
      rw [minimalWords_of_cons hwords, List.mem_filter, mem_wordsFor h hn, decide_eq_true_eq]
      constructor
      · rintro ⟨⟨hw, -, hother⟩, hlength⟩
        exact ⟨hlength, hw, hother⟩
      · rintro ⟨hlength, hw, hother⟩
        exact ⟨⟨hw, by omega, hother⟩, hlength⟩

/-! ## Any table -/

/-- Any twenty-four matrices, of whatever numbers, have a closed table of products. In every closed
table a word of gates makes a gate, so no look-up misses. The minimal words of a gate are all
playable words of the least length that make it, each once and in the order of the dictionary;
there are none if no word of up to three letters makes the gate. -/
theorem minimal_words_are_the_shortest_words :
    (∀ gates : List GateMatrix, gates.length = 24 → (productTable gates).Closed 24) ∧
      ∀ table : ProductTable, table.Closed 24 →
        (∀ w, w ≠ [] → (∀ g ∈ w, g < 24) →
          ∃ gate < 24, reduce table w = some gate ∧ Makes table w gate) ∧
        ∀ gate,
          (minimalWords table gate).Nodup ∧ (minimalWords table gate).Pairwise Precedes ∧
          ((∃ m, ShortestLength table gate m ∧
              ∀ w, w ∈ minimalWords table gate ↔
                w.length = m ∧ Playable w ∧ Makes table w gate) ∨
            (∀ w, Playable w → w.length ≤ 3 → ¬ Makes table w gate) ∧
              minimalWords table gate = []) := by
  refine ⟨?_, ?_⟩
  · intro gates hgates
    have hne : gates ≠ [] := List.ne_nil_of_length_eq_add_one hgates
    exact hgates ▸ closed_productTable hne
  · intro table htable
    refine ⟨fun w hne hw => exists_reduce htable hne hw, fun gate => ?_⟩
    have hordered := pairwise_minimalWords table gate
    exact ⟨hordered.imp Precedes.ne, hordered, minimalWords_spec htable (by decide) gate⟩

namespace Trial

/-- Addition on the face of a clock of twenty-four hours. -/
def clock : ProductTable :=
  (List.range 24).map fun a => (List.range 24).map fun b => (a + b) % 24

theorem clock_closed : clock.Closed 24 := ⟨by decide, by decide +kernel, by decide +kernel⟩

theorem clock_one_six : Playable [1, 6] ∧ Makes clock [1, 6] 7 :=
  ⟨by unfold Playable; decide, 1, [6], rfl, by decide +kernel⟩

/-- Seven is no generator, so it takes two. -/
theorem shortestLength_clock_seven {m : Nat} (h : ShortestLength clock 7 m) : m = 2 := by
  have hle : m ≤ 2 := by
    by_contra hlt
    exact h.least [1, 6] clock_one_six.1 (by simp; omega) clock_one_six.2
  have hne : m ≠ 1 := by
    rintro rfl
    obtain ⟨w, hw, hlength, first, rest, rfl, hmakes⟩ := h.attained
    obtain rfl : rest = [] := List.length_eq_zero_iff.mp (Nat.succ.inj hlength)
    have hfirst : first = 7 := hmakes
    have hseven := hw first List.mem_cons_self
    rw [hfirst] at hseven
    exact absurd hseven (by decide)
  have hpos := h.bounds.1
  omega

end Trial

/-- Matrices with a NaN in them have a closed table too. On the clock no word of hours leads
nowhere, and the minimal words for seven are those of two letters, in their order. -/
theorem two_letters_make_seven_on_the_clock :
    (productTable (List.replicate 24 (Pauli.ofEntries ⟨.nan, .nan⟩ .zero .zero .one))).Closed 24 ∧
      Trial.clock.Closed 24 ∧
      (∃ gate < 24, reduce Trial.clock [20, 23, 5] = some gate ∧
        Makes Trial.clock [20, 23, 5] gate) ∧
      (minimalWords Trial.clock 7).Nodup ∧ (minimalWords Trial.clock 7).Pairwise Precedes ∧
      ∀ w, w ∈ minimalWords Trial.clock 7 ↔
        w.length = 2 ∧ Playable w ∧ Makes Trial.clock w 7 := by
  obtain ⟨hgates, htables⟩ := minimal_words_are_the_shortest_words
  obtain ⟨hreduce, hminimal⟩ := htables Trial.clock Trial.clock_closed
  obtain ⟨honce, hordered, hshortest⟩ := hminimal 7
  refine ⟨hgates _ List.length_replicate, Trial.clock_closed,
    hreduce _ (List.cons_ne_nil _ _) (by decide), honce, hordered, ?_⟩
  rcases hshortest with ⟨m, hm, hmem⟩ | ⟨hnone, -⟩
  · obtain rfl := Trial.shortestLength_clock_seven hm
    exact hmem
  · exact absurd Trial.clock_one_six.2 (hnone [1, 6] Trial.clock_one_six.1 (by decide))

end PulseSequencer.Clifford
