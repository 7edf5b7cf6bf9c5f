-- JSON texts read back. The reader goes by the characters alone; it takes the text
-- of every value for that value and stops right behind it, so no text belongs to
-- two values.
import PulseSequencer.Proofs.Numerals

namespace PulseSequencer.Text.Json

/-! ## Literals -/

/-- The characters of numbers and of the three words. -/
def isLiteral (c : Char) : Bool := c.isAlphanum || c = '-' || c = '+' || c = '.'

theorem isLiteral_of_isDigit {c : Char} (h : c.isDigit = true) : isLiteral c = true := by
  simp [isLiteral, Char.isAlphanum, h]

theorem Numeral.isLiteral_text (n : Numeral) : ∀ c ∈ n.text, isLiteral c = true := by
  intro c hc
  simp only [text, List.mem_append] at hc
  obtain (hwhole | hplaces) | hexponent := hc
  · exact isLiteral_of_isDigit (n.whole_digits c hwhole)
  · have hdigits := n.places_digits c
    cases hp : n.places with
    | none => simp [hp] at hplaces
    | some places =>
      simp only [hp, Option.elim_some, List.mem_cons] at hplaces
      obtain rfl | hplaces := hplaces
      · decide
      · exact isLiteral_of_isDigit (hdigits (by simpa [hp] using hplaces))
  · cases he : n.exponent with
    | none => simp [he] at hexponent
    | some e =>
      simp only [he, Option.elim_some, exponentText, List.mem_cons] at hexponent
      obtain rfl | rfl | hdigits := hexponent
      · decide
      · split <;> decide
      · exact isLiteral_of_isDigit (Nat.isDigit_of_mem_toDigits (by decide) (by decide) hdigits)

/-- A number without a point and an exponent is a whole one. -/
def numberOf (cs : List Char) : Json :=
  if cs.all Char.isDigit then .nat (Nat.ofDigitChars 10 cs 0)
  else if cs.head? = some '-' then .double ((decimalOf cs.tail).toDouble true)
  else .double ((decimalOf cs).toDouble false)

/-- The value of a run of literal characters. -/
def literalOf (cs : List Char) : Json :=
  if cs = "null".toList then .null
  else if cs = "true".toList then .bool true
  else if cs = "false".toList then .bool false
  else numberOf cs

/-- A text that is one run of literal characters and is read as the value `v`. -/
structure IsLiteralText (v : Json) (cs : List Char) : Prop where
  nonempty : cs ≠ []
  literal : ∀ c ∈ cs, isLiteral c = true
  value : literalOf cs = v

theorem isLiteralText_null : IsLiteralText .null "null".toList where
  nonempty := by decide
  literal := List.all_eq_true.mp (by decide)
  value := rfl

theorem isLiteralText_bool (b : Bool) :
    IsLiteralText (.bool b) (if b then "true" else "false").toList where
  nonempty := by cases b <;> decide
  literal := by cases b <;> exact List.all_eq_true.mp (by decide)
  value := by cases b <;> rfl

/-- None of the three words begins like a number. -/
theorem literalOf_number {c : Char} {cs : List Char} (h : c.isDigit = true ∨ c = '-') :
    literalOf (c :: cs) = numberOf (c :: cs) := by
  have hne (d : Char) (hd : d.isDigit = false) (hminus : d ≠ '-') : c ≠ d := by
    rintro rfl
    obtain h | h := h
    · rw [h] at hd
      cases hd
    · exact hminus h
  have hn := hne 'n' (by decide) (by decide)
  have ht := hne 't' (by decide) (by decide)
  have hf := hne 'f' (by decide) (by decide)
  unfold literalOf
  rw [if_neg (by simp [hn]), if_neg (by simp [ht]), if_neg (by simp [hf])]

theorem isLiteralText_nat (n : Nat) : IsLiteralText (.nat n) n.repr.toList := by
  rw [Nat.repr_eq_ofList_toDigits, String.toList_ofList]
  have hdigits := digits_toDigits n
  obtain ⟨c, cs, hcs⟩ := List.exists_cons_of_ne_nil (Nat.toDigits_ne_nil (n := n) (b := 10))
  refine ⟨Nat.toDigits_ne_nil, fun c hc => isLiteral_of_isDigit (hdigits c hc), ?_⟩
  have hc : c.isDigit = true := hdigits c (hcs ▸ List.mem_cons_self)
  have hall : (Nat.toDigits 10 n).all Char.isDigit = true := List.all_eq_true.mpr hdigits
  rw [hcs, literalOf_number (.inl hc), ← hcs, numberOf, if_pos hall,
    Nat.ofDigitChars_ten_toDigits]

theorem isLiteralText_double {x : Binary64} (hx : x.isFinite = true) :
    IsLiteralText (.double x) (doubleText x).toList := by
  obtain ⟨n, htext, hreads⟩ := exists_numeral (.shortest .even x)
  have hdouble : n.decimal.toDouble x.isNegative = x :=
    Decimal.toDouble_of_reads hx (hreads x (Decimal.reads_shortest .even hx))
  obtain ⟨c, cs, hcs, hc⟩ := n.head_text
  rw [doubleText_eq, ← htext]
  cases hsign : x.isNegative with
  | true =>
    refine ⟨List.cons_ne_nil _ _, ?_, ?_⟩
    · intro c hc
      obtain rfl | hc := List.mem_cons.mp hc
      · decide
      · exact n.isLiteral_text c hc
    · rw [hsign] at hdouble
      have hdigits : ('-' :: n.text).all Char.isDigit = false := rfl
      rw [if_pos rfl, List.singleton_append, literalOf_number (.inr rfl), numberOf, hdigits,
        if_neg Bool.false_ne_true, List.head?_cons, if_pos rfl, List.tail_cons, n.decimalOf_text,
        hdouble]
  | false =>
    rw [if_neg Bool.false_ne_true, List.nil_append]
    refine ⟨by rw [hcs]; exact List.cons_ne_nil _ _, n.isLiteral_text, ?_⟩
    have hminus : n.text.head? ≠ some '-' := by
      rw [hcs, List.head?_cons, Ne, Option.some_inj]
      rintro rfl
      exact absurd hc (by decide)
    rw [hsign] at hdouble
    rw [hcs, literalOf_number (.inl hc), ← hcs, numberOf, n.not_all_digits,
      if_neg Bool.false_ne_true, if_neg hminus, n.decimalOf_text, hdouble]

/-! ## Strings -/

def hexValue (c : Char) : Nat :=
  if c.isDigit then c.toNat - '0'.toNat else c.toNat - 'a'.toNat + 10

/-- The number that hexadecimal digits stand for. -/
def hexNumber (cs : List Char) : Nat := cs.foldl (fun n c => 16 * n + hexValue c) 0

theorem hexValue_digitChar : ∀ n < 16, hexValue (Nat.digitChar n) = n := by decide

/-- What a letter behind a backslash stands for; quotes and backslashes stand for themselves. -/
def unescaped (c : Char) : Char :=
  if c = 'b' then Char.ofNat 8
  else if c = 'f' then Char.ofNat 12
  else if c = 'n' then '\n'
  else if c = 'r' then '\r'
  else if c = 't' then '\t'
  else c

/-- The characters of a string up to the quote that ends it, and what follows that quote. -/
def readString : List Char → Option (List Char × List Char)
  | [] => none
  | c :: cs =>
    if c = '"' then some ([], cs)
    else if c = '\\' then
      match cs with
      | 'u' :: h₃ :: h₂ :: h₁ :: h₀ :: rest =>
        (readString rest).map (Prod.map (Char.ofNat (hexNumber [h₃, h₂, h₁, h₀]) :: ·) id)
      | d :: rest => (readString rest).map (Prod.map (unescaped d :: ·) id)
      | [] => none
    else (readString cs).map (Prod.map (c :: ·) id)

/-- A character is read back from its escaped form, whatever follows. -/
theorem readString_escaped (c : Char) (rest : List Char) :
    readString ((escaped c).toList ++ rest) =
      (readString rest).map (Prod.map (c :: ·) id) := by
  by_cases hshort : c ∈ ['"', '\\', Char.ofNat 8, Char.ofNat 12, '\n', '\r', '\t']
  · simp only [List.mem_cons, List.not_mem_nil, or_false] at hshort
    rcases hshort with rfl | rfl | rfl | rfl | rfl | rfl | rfl <;> rfl
  · simp only [List.mem_cons, List.not_mem_nil, or_false, not_or] at hshort
    obtain ⟨hquote, hbackslash, hback, hfeed, hline, hreturn, htab⟩ := hshort
    unfold escaped
    rw [if_neg hquote, if_neg hbackslash, if_neg hback, if_neg hfeed, if_neg hline,
      if_neg hreturn, if_neg htab]
    split
    · rename_i hcontrol
      have htext : ("\\u" ++ fourHex c.toNat).toList ++ rest = '\\' :: 'u' :: '0' :: '0' ::
          Nat.digitChar (c.toNat / 16) :: Nat.digitChar (c.toNat % 16) :: rest := by
        simp [fourHex]
      have hcode : hexNumber ['0', '0', Nat.digitChar (c.toNat / 16),
          Nat.digitChar (c.toNat % 16)] = c.toNat := by
        have hzero : hexValue '0' = 0 := by decide
        have hhigh := hexValue_digitChar (c.toNat / 16) (by omega)
        have hlow := hexValue_digitChar (c.toNat % 16) (by omega)
        simp only [hexNumber, List.foldl_cons, List.foldl_nil, hzero, hhigh, hlow]
        omega
      rw [htext, readString, if_neg (by decide), if_pos rfl, hcode, Char.ofNat_toNat]
    · have htext : c.toString.toList ++ rest = c :: rest := by simp
      rw [htext, readString.eq_def]
      dsimp only
      rw [if_neg hquote, if_neg hbackslash]

/-- A string ends at its own quote: nothing in it is taken for the end. -/
theorem readString_stringText (s : String) (rest : List Char) :
    readString ((stringText s).toList.tail ++ rest) = some (s.toList, rest) := by
  have hbody (cs : List Char) :
      readString (cs.flatMap (fun c => (escaped c).toList) ++ '"' :: rest) = some (cs, rest) := by
    induction cs with
    | nil =>
      rw [List.flatMap_nil, List.nil_append, readString.eq_def]
      exact if_pos rfl
    | cons c cs ih =>
      rw [List.flatMap_cons, List.append_assoc, readString_escaped, ih]
      rfl
  have htext : (stringText s).toList.tail ++ rest =
      s.toList.flatMap (fun c => (escaped c).toList) ++ '"' :: rest := by
    simp [stringText, String.toList_join, List.flatMap_def, Function.comp_def]
  rw [htext, hbody]

/-! ## Values -/

/-- What follows the character `c`. -/
def expect (c : Char) (cs : List Char) : Option (List Char) :=
  if cs.head? = some c then some cs.tail else none

theorem expect_cons (c : Char) (cs : List Char) : expect c (c :: cs) = some cs := if_pos rfl

mutual

/-- The value at the head of a text, and what follows it. No text needs more turns than it has
characters. -/
def readValue : Nat → List Char → Option (Json × List Char)
  | 0, _ => none
  | _ + 1, [] => none
  | turns + 1, c :: cs =>
    if c = '"' then (readString cs).map (Prod.map (fun s => .string (String.ofList s)) id)
    else if c = '[' then
      if cs.head? = some ']' then some (.array [], cs.tail)
      else (readItems turns cs).map (Prod.map .array id)
    else if c = '\x7b' then
      if cs.head? = some '\x7d' then some (.object [], cs.tail)
      else (readFields turns cs).map (Prod.map .object id)
    else if isLiteral c then
      some (literalOf ((c :: cs).takeWhile isLiteral), (c :: cs).dropWhile isLiteral)
    else none

/-- One item at least, up to the bracket behind the last one. -/
def readItems : Nat → List Char → Option (List Json × List Char)
  | 0, _ => none
  | turns + 1, cs => do
    let (v, rest) ← readValue turns cs
    if rest.head? = some ',' then (readItems turns rest.tail).map (Prod.map (v :: ·) id)
    else (expect ']' rest).map ([v], ·)

/-- One field at least, up to the brace behind the last one. -/
def readFields : Nat → List Char → Option (List (String × Json) × List Char)
  | 0, _ => none
  | turns + 1, cs => do
    let (name, rest) ← readString (← expect '"' cs)
    let (v, rest) ← readValue turns (← expect ':' rest)
    let field := (String.ofList name, v)
    if rest.head? = some ',' then (readFields turns rest.tail).map (Prod.map (field :: ·) id)
    else (expect '\x7d' rest).map ([field], ·)

end

/-- Reads one value that takes up the whole text. -/
def read (text : String) : Option Json :=
  match readValue text.length text.toList with
  | some (v, []) => some v
  | _ => none

/-- What may follow a literal: anything that does not go on with it. -/
def Ends (rest : List Char) : Prop := ∀ c ∈ rest.head?, isLiteral c = false

/-- The text of the value is read as it, whatever follows. -/
def ReadsBack (v : Json) : Prop :=
  ∀ turns rest, v.render.toList.length ≤ turns → Ends rest →
    readValue turns (v.render.toList ++ rest) = some (v, rest)

theorem ne_of_isLiteral {c d : Char} (hc : isLiteral c = true) (hd : isLiteral d = false) :
    c ≠ d := by
  rintro rfl
  rw [hc] at hd
  cases hd

theorem IsLiteralText.reads {v : Json} {cs : List Char} (h : IsLiteralText v cs) {turns : Nat}
    {rest : List Char} (hturns : cs.length ≤ turns) (hrest : Ends rest) :
    readValue turns (cs ++ rest) = some (v, rest) := by
  obtain ⟨c, tail, hcs⟩ := List.exists_cons_of_ne_nil h.nonempty
  have hc : isLiteral c = true := h.literal c (hcs ▸ List.mem_cons_self)
  have hstop : rest.takeWhile isLiteral = [] ∧ rest.dropWhile isLiteral = rest := by
    cases rest with
    | nil => exact ⟨rfl, rfl⟩
    | cons d rest =>
      have hd := hrest d rfl
      simp [hd]
  have htake : (cs ++ rest).takeWhile isLiteral = cs := by
    rw [List.takeWhile_append_of_pos h.literal, hstop.1, List.append_nil]
  have hdrop : (cs ++ rest).dropWhile isLiteral = rest := by
    rw [List.dropWhile_append_of_pos h.literal, hstop.2]
  obtain ⟨turns, rfl⟩ : ∃ n, turns = n + 1 := by
    rw [hcs, List.length_cons] at hturns
    exact ⟨turns - 1, by omega⟩
  rw [hcs, List.cons_append] at htake hdrop ⊢
  rw [readValue, if_neg (ne_of_isLiteral hc (by decide)), if_neg (ne_of_isLiteral hc (by decide)),
    if_neg (ne_of_isLiteral hc (by decide)), if_pos hc, htake, hdrop, ← hcs, h.value]

/-- No value begins with a closing bracket. -/
theorem ReadsBack.head {v : Json} (h : ReadsBack v) :
    ∃ c cs, v.render.toList = c :: cs ∧ c ≠ ']' := by
  -- The reader makes nothing of such a text, nor of an empty one.
  have hread := h v.render.toList.length [] (Nat.le_refl _) (by simp [Ends])
  rw [List.append_nil] at hread
  cases hcs : v.render.toList with
  | nil =>
    rw [hcs, List.length_nil, readValue] at hread
    cases hread
  | cons c cs =>
    refine ⟨c, cs, rfl, ?_⟩
    rintro rfl
    rw [hcs, List.length_cons, readValue, if_neg (by decide), if_neg (by decide),
      if_neg (by decide), if_neg (by decide)] at hread
    cases hread

theorem ends_cons {c : Char} (hc : isLiteral c = false) (rest : List Char) : Ends (c :: rest) := by
  intro d hd
  rw [List.head?_cons, Option.mem_some_iff] at hd
  exact hd ▸ hc

theorem readItems_item {v : Json} (hv : ReadsBack v) {turns : Nat} {rest : List Char}
    (hturns : v.render.toList.length ≤ turns) (hrest : Ends rest) :
    readItems (turns + 1) (v.render.toList ++ rest) =
      if rest.head? = some ',' then (readItems turns rest.tail).map (Prod.map (v :: ·) id)
      else (expect ']' rest).map ([v], ·) := by
  rw [readItems, hv turns rest hturns hrest]
  rfl

theorem readItems_renderItems {vs : List Json} (hvs : vs ≠ []) (h : ∀ v ∈ vs, ReadsBack v)
    {turns : Nat} (hturns : (renderItems vs).toList.length < turns) (rest : List Char) :
    readItems turns ((renderItems vs).toList ++ ']' :: rest) = some (vs, rest) := by
  -- The last item is followed by the bracket and the others by a comma, as in the writer.
  induction vs generalizing turns with
  | nil => exact absurd rfl hvs
  | cons v vs ih =>
    obtain ⟨turns, rfl⟩ : ∃ n, turns = n + 1 := ⟨turns - 1, by omega⟩
    have hv := h v List.mem_cons_self
    cases vs with
    | nil =>
      have htext : renderItems [v] = v.render := rfl
      rw [htext] at hturns ⊢
      rw [readItems_item hv (by omega) (ends_cons (by decide) rest)]
      rfl
    | cons w vs =>
      have htext : (renderItems (v :: w :: vs)).toList =
          v.render.toList ++ ',' :: (renderItems (w :: vs)).toList := by
        simp [renderItems]
      rw [htext, List.length_append, List.length_cons] at hturns
      have hrest : readItems turns ((renderItems (w :: vs)).toList ++ ']' :: rest) =
          some (w :: vs, rest) :=
        ih (List.cons_ne_nil _ _) (fun u hu => h u (List.mem_cons_of_mem _ hu)) (by omega)
      rw [htext, List.append_assoc, List.cons_append,
        readItems_item hv (by omega) (ends_cons (by decide) _), List.head?_cons, if_pos rfl,
        List.tail_cons, hrest]
      rfl

theorem toList_stringText (s : String) :
    (stringText s).toList = '"' :: (stringText s).toList.tail := by
  simp [stringText]

theorem readFields_field (name : String) {v : Json} (hv : ReadsBack v) {turns : Nat}
    {rest : List Char} (hturns : v.render.toList.length ≤ turns) (hrest : Ends rest) :
    readFields (turns + 1) ((stringText name).toList ++ ':' :: (v.render.toList ++ rest)) =
      if rest.head? = some ',' then (readFields turns rest.tail).map (Prod.map ((name, v) :: ·) id)
      else (expect '\x7d' rest).map ([(name, v)], ·) := by
  rw [toList_stringText, List.cons_append, readFields]
  simp only [expect_cons, Option.bind_eq_bind, Option.bind_some, readString_stringText]
  rw [hv turns rest hturns hrest, Option.bind_some, String.ofList_toList]

theorem readFields_renderFields {fields : List (String × Json)} (hfields : fields ≠ [])
    (h : ∀ f ∈ fields, ReadsBack f.2) {turns : Nat}
    (hturns : (renderFields fields).toList.length < turns) (rest : List Char) :
    readFields turns ((renderFields fields).toList ++ '\x7d' :: rest) = some (fields, rest) := by
  induction fields generalizing turns with
  | nil => exact absurd rfl hfields
  | cons f fields ih =>
    obtain ⟨turns, rfl⟩ : ∃ n, turns = n + 1 := ⟨turns - 1, by omega⟩
    obtain ⟨name, v⟩ := f
    have hv : ReadsBack v := h (name, v) List.mem_cons_self
    cases fields with
    | nil =>
      have htext : (renderFields [(name, v)]).toList =
          (stringText name).toList ++ ':' :: v.render.toList := by
        simp [renderFields]
      rw [htext, List.length_append, List.length_cons] at hturns
      rw [htext, List.append_assoc, List.cons_append,
        readFields_field name hv (by omega) (ends_cons (by decide) rest)]
      rfl
    | cons g fields =>
      have htext : (renderFields ((name, v) :: g :: fields)).toList =
          (stringText name).toList ++
            ':' :: (v.render.toList ++ ',' :: (renderFields (g :: fields)).toList) := by
        simp [renderFields]
      rw [htext, List.length_append, List.length_cons, List.length_append,
        List.length_cons] at hturns
      have hrest : readFields turns ((renderFields (g :: fields)).toList ++ '\x7d' :: rest) =
          some (g :: fields, rest) :=
        ih (List.cons_ne_nil _ _) (fun u hu => h u (List.mem_cons_of_mem _ hu)) (by omega)
      rw [htext, List.append_assoc, List.cons_append, List.append_assoc, List.cons_append,
        readFields_field name hv (by omega) (ends_cons (by decide) _), List.head?_cons,
        if_pos rfl, List.tail_cons, hrest]
      rfl

/-- Values without an infinity or a NaN among their numbers. -/
inductive Proper : Json → Prop
  | null : Proper .null
  | bool (b : Bool) : Proper (.bool b)
  | nat (n : Nat) : Proper (.nat n)
  | double {x : Binary64} (hx : x.isFinite = true) : Proper (.double x)
  | string (s : String) : Proper (.string s)
  | array {items : List Json} (h : ∀ v ∈ items, Proper v) : Proper (.array items)
  | object {fields : List (String × Json)} (h : ∀ f ∈ fields, Proper f.2) :
      Proper (.object fields)

theorem readsBack_string (s : String) : ReadsBack (.string s) := by
  intro turns rest hturns _
  rw [render, toList_stringText] at hturns ⊢
  rw [List.length_cons] at hturns
  obtain ⟨turns, rfl⟩ : ∃ n, turns = n + 1 := ⟨turns - 1, by omega⟩
  rw [List.cons_append, readValue, if_pos rfl, readString_stringText, Option.map_some,
    Prod.map_apply, String.ofList_toList]
  rfl

theorem readsBack_array {items : List Json} (h : ∀ v ∈ items, ReadsBack v) :
    ReadsBack (.array items) := by
  intro turns rest hturns _
  have htext : (render (.array items)).toList = '[' :: ((renderItems items).toList ++ [']']) := by
    simp [render]
  rw [htext, List.length_cons, List.length_append, List.length_singleton] at hturns
  obtain ⟨turns, rfl⟩ : ∃ n, turns = n + 1 := ⟨turns - 1, by omega⟩
  rw [htext, List.cons_append, List.append_assoc, List.singleton_append, readValue,
    if_neg (by decide), if_pos rfl]
  cases items with
  | nil => rfl
  | cons v vs =>
    have hhead : ((renderItems (v :: vs)).toList ++ ']' :: rest).head? ≠ some ']' := by
      obtain ⟨c, cs, hcs, hc⟩ := (h v List.mem_cons_self).head
      cases vs <;> simp [renderItems, hcs, hc]
    rw [if_neg hhead, readItems_renderItems (List.cons_ne_nil _ _) h (by omega)]
    rfl

theorem readsBack_object {fields : List (String × Json)} (h : ∀ f ∈ fields, ReadsBack f.2) :
    ReadsBack (.object fields) := by
  intro turns rest hturns _
  have htext : (render (.object fields)).toList =
      '\x7b' :: ((renderFields fields).toList ++ ['\x7d']) := by
    simp [render]
  rw [htext, List.length_cons, List.length_append, List.length_singleton] at hturns
  obtain ⟨turns, rfl⟩ : ∃ n, turns = n + 1 := ⟨turns - 1, by omega⟩
  rw [htext, List.cons_append, List.append_assoc, List.singleton_append, readValue,
    if_neg (by decide), if_neg (by decide), if_pos rfl]
  cases fields with
  | nil => rfl
  | cons f fields =>
    have hhead : ((renderFields (f :: fields)).toList ++ '\x7d' :: rest).head? ≠ some '\x7d' := by
      cases fields <;> simp [renderFields, stringText]
    rw [if_neg hhead, readFields_renderFields (List.cons_ne_nil _ _) h (by omega)]
    rfl

/-- By induction on the value: the parts of an array or an object are read back, so it is. -/
theorem Proper.readsBack {v : Json} (h : v.Proper) : ReadsBack v := by
  induction h with
  | null => exact fun _ _ hturns hrest => isLiteralText_null.reads hturns hrest
  | bool b =>
    intro turns rest hturns hrest
    rw [render] at hturns ⊢
    exact (isLiteralText_bool b).reads hturns hrest
  | nat n =>
    intro turns rest hturns hrest
    rw [render] at hturns ⊢
    exact (isLiteralText_nat n).reads hturns hrest
  | double hx =>
    intro turns rest hturns hrest
    rw [render] at hturns ⊢
    exact (isLiteralText_double hx).reads hturns hrest
  | string s => exact readsBack_string s
  | array _ ih => exact readsBack_array ih
  | object _ ih => exact readsBack_object ih

/-- Every text that is written for a value is read as it. -/
theorem read_render {v : Json} (h : v.Proper) : read v.render = some v := by
  have hread := h.readsBack v.render.length [] (by rw [String.length_toList]) (by simp [Ends])
  rw [List.append_nil] at hread
  rw [read, hread]

end PulseSequencer.Text.Json
