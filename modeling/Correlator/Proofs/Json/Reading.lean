import Mathlib.Data.String.Basic
import Correlator.Json.Reader

/-!
# Reading what was written

* `Json.Ends`: texts that no number goes on with.
* `Json.readNumber_intChars`, `Json.readText_write`, `Json.readKey_write`: numbers, texts and keys.
* `Json.Reads`: a value is read back, whatever follows it; `Json.readItems_write`,
  `Json.readFields_write`: items and fields one after the other.
* `Json.ofPairs_eq_obj`: fields in the order of their keys are those of their object.
* `Json.Plain`: values without doubles; `Json.plain_ofPairs`: objects that are made of such values.
* **`Json.Plain.reads`**: every plain value is read back.
-/

namespace Correlator.Json

variable {depth fuel n : Nat} {c : Char} {cs ds rest : List Char} {j : Json}

/-! ## Numbers -/

/-- A text that no number goes on with. -/
def Ends (rest : List Char) : Prop :=
  ∀ c ∈ rest.head?, c.isDigit = false ∧ c ≠ '.' ∧ c ≠ 'e' ∧ c ≠ 'E'

theorem ends_cons (h : c.isDigit = false ∧ c ≠ '.' ∧ c ≠ 'e' ∧ c ≠ 'E') : Ends (c :: cs) := by
  intro c' hc
  obtain rfl : c = c' := by simpa using hc
  exact h

/-- The digits of a text end where no number goes on. -/
theorem digitsOf_append (hds : ∀ c ∈ ds, c.isDigit = true) (hrest : Ends rest) :
    digitsOf (ds ++ rest) = (ds, rest) := by
  have hstop : rest.takeWhile Char.isDigit = [] ∧ rest.dropWhile Char.isDigit = rest := by
    cases rest with
    | nil => exact ⟨rfl, rfl⟩
    | cons c cs =>
      have hc : ¬ c.isDigit = true := by rw [(hrest c rfl).1]; decide
      exact ⟨List.takeWhile_cons_of_neg hc, List.dropWhile_cons_of_neg hc⟩
  rw [digitsOf, List.takeWhile_append_of_pos hds, List.dropWhile_append_of_pos hds, hstop.1,
    hstop.2, List.append_nil]

theorem le_ofDigitChars (ds : List Char) (m : Nat) : m ≤ Nat.ofDigitChars 10 ds m := by
  induction ds generalizing m with
  | nil => exact Nat.le_refl m
  | cons c ds ih =>
    rw [Nat.ofDigitChars_cons]
    exact Nat.le_trans (by omega) (ih _)

/-- No digit is left out of a number of 64 bits. -/
theorem significand_eq {m : Nat} (h : Nat.ofDigitChars 10 ds m ≤ maxWord) :
    significand m ds = (Nat.ofDigitChars 10 ds m, 0) := by
  induction ds generalizing m with
  | nil => rfl
  | cons c ds ih =>
    rw [Nat.ofDigitChars_cons] at h ⊢
    have hfits : ¬ maxWord < 10 * m + (c.toNat - 48) :=
      Nat.not_lt.2 (Nat.le_trans (le_ofDigitChars ds _) h)
    rw [significand, if_neg hfits]
    exact ih h

theorem exists_digit (n : Nat) : ∃ c cs, Nat.toDigits 10 n = c :: cs ∧ c.isDigit = true := by
  obtain ⟨c, cs, hcs⟩ := List.exists_cons_of_ne_nil (Nat.toDigits_ne_nil (n := n) (b := 10))
  have hmem : c ∈ Nat.toDigits 10 n := hcs ▸ List.mem_cons_self
  exact ⟨c, cs, hcs, Nat.isDigit_of_mem_toDigits (by decide) (by decide) hmem⟩

/-- A number is written without zeros before it. -/
theorem head?_toDigits (h : 0 < n) : (Nat.toDigits 10 n).head? ≠ some '0' := by
  induction n using Nat.strongRecOn with
  | ind n ih =>
    rw [Nat.toDigits_eq_if (by decide)]
    split
    · next hlt =>
      have hdigit : ∀ n < 10, 0 < n → n.digitChar ≠ '0' := by decide
      simpa using hdigit n hlt h
    · rw [List.head?_append_of_ne_nil _ Nat.toDigits_ne_nil]
      exact ih (n / 10) (by omega) (by omega)

/-- There is no zero before the digits of a number, unless it is the only one. -/
theorem not_leading (n : Nat) :
    ((Nat.toDigits 10 n).isEmpty ||
      ((Nat.toDigits 10 n).head? == some '0' && 1 < (Nat.toDigits 10 n).length)) = false := by
  by_cases hn : n = 0
  · subst hn
    rfl
  · have hempty := Nat.toDigits_ne_nil (n := n) (b := 10)
    have hhead := head?_toDigits (Nat.pos_of_ne_zero hn)
    simp [hempty, hhead]

/-- The digits of a number of 64 bits are read as it. -/
theorem readUnsigned_toDigits (negative : Bool) (hn : n ≤ maxWord) (hrest : Ends rest) :
    readUnsigned negative (Nat.toDigits 10 n ++ rest) =
      if !negative then some (.int n, rest)
      else if n = 0 || Nat.pow 2 63 < n then some (.float (.ofFloat (-(Float.ofNat n))), rest)
      else some (.int (-(n : Int)), rest) := by
  have hdigits : digitsOf (Nat.toDigits 10 n ++ rest) = (Nat.toDigits 10 n, rest) :=
    digitsOf_append (fun _ hc => Nat.isDigit_of_mem_toDigits (by decide) (by decide) hc) hrest
  have hvalue := Nat.ofDigitChars_ten_toDigits (n := n)
  have hsignificand := significand_eq (m := 0) (hvalue.symm ▸ hn)
  rw [hvalue] at hsignificand
  rw [readUnsigned, hdigits]
  dsimp only
  rw [not_leading, if_neg Bool.false_ne_true, hsignificand]
  dsimp only
  split
  · exact absurd rfl (hrest '.' rfl).2.1
  · exact absurd rfl (hrest 'e' rfl).2.2.1
  · exact absurd rfl (hrest 'E' rfl).2.2.2
  · rfl

/-- **A whole number of 64 bits is read back**, with or without a sign. -/
theorem readNumber_intChars {n : Int} (hlow : -(Nat.pow 2 63 : Nat) ≤ n) (hhigh : n ≤ maxWord)
    (hrest : Ends rest) : readNumber (Decimal.intChars n ++ rest) = some (.int n, rest) := by
  have hword : Nat.pow 2 63 ≤ maxWord := by decide
  by_cases hn : n < 0
  · rw [Decimal.intChars, if_pos hn, List.cons_append, readNumber,
      readUnsigned_toDigits true (by omega) hrest]
    have hlarge : ¬ (decide (n.natAbs = 0) || decide (Nat.pow 2 63 < n.natAbs)) = true := by
      rw [Bool.or_eq_true, decide_eq_true_iff, decide_eq_true_iff]
      omega
    rw [Bool.not_true, if_neg Bool.false_ne_true, if_neg hlarge]
    rw [show -(n.natAbs : Int) = n by omega]
  · rw [Decimal.intChars, if_neg hn]
    have hread := readUnsigned_toDigits false (n := n.natAbs) (by omega) hrest
    rw [Bool.not_false, if_pos rfl, show (n.natAbs : Int) = n by omega] at hread
    obtain ⟨c, cs, hcs, hdigit⟩ := exists_digit n.natAbs
    rw [hcs, List.cons_append] at hread ⊢
    rw [readNumber]
    · exact hread
    · rintro _ ⟨⟩
      cases hdigit

/-! ## Texts -/

theorem hexValue?_hexDigit : ∀ n < 16, Octets.hexValue? (Octets.hexDigit n) = some n := by decide

/-- A control character that has no shorter escape is read from its number. -/
theorem readEscape_control (h : c.toNat < 0x20) (cs : List Char) :
    readEscape ('u' :: '0' :: '0' :: Octets.hexDigit (c.toNat / 16) ::
      Octets.hexDigit (c.toNat % 16) :: cs) = some (c, cs) := by
  have hzero : Octets.hexValue? '0' = some 0 := by decide
  have hnumber : 16 * (c.toNat / 16) + c.toNat % 16 = c.toNat := Nat.div_add_mod _ _
  have hlow : ¬ (0xDC00 ≤ c.toNat ∧ c.toNat < 0xE000) := by omega
  have hhigh : ¬ (0xD800 ≤ c.toNat ∧ c.toNat < 0xDC00) := by omega
  simp only [readEscape, readHex4, hzero, hexValue?_hexDigit _ (show c.toNat / 16 < 16 by omega),
    hexValue?_hexDigit _ (show c.toNat % 16 < 16 by omega), Nat.mul_zero, Nat.zero_add, hnumber,
    if_neg hlow, if_neg hhigh, Char.ofNat_toNat]

/-- **One character inside quotes is read back**, escaped or not. -/
theorem readQuoted_escape (c : Char) (read cs : List Char) (fuel : Nat) :
    readQuoted read (fuel + 1) (escape c ++ cs) = readQuoted (c :: read) fuel cs := by
  unfold escape
  split_ifs with hquote hback hb hf hn hr ht hcontrol
  iterate 7 · subst_vars; rfl
  · rw [List.cons_append, readQuoted, if_neg (by decide), if_pos rfl]
    simp only [List.cons_append, List.nil_append]
    rw [readEscape_control hcontrol]
  · rw [List.singleton_append, readQuoted, if_neg hquote, if_neg hback, if_neg hcontrol]

theorem readQuoted_flatMap (h : cs.length < fuel) (read rest : List Char) :
    readQuoted read fuel (cs.flatMap escape ++ '"' :: rest) =
      some (String.ofList (read.reverse ++ cs), rest) := by
  induction cs generalizing read fuel with
  | nil =>
    obtain ⟨fuel, rfl⟩ := Nat.exists_eq_succ_of_ne_zero (Nat.ne_of_gt h)
    rw [List.append_nil]
    rfl
  | cons c cs ih =>
    obtain ⟨fuel, rfl⟩ := Nat.exists_eq_succ_of_ne_zero (Nat.ne_of_gt (Nat.zero_lt_of_lt h))
    rw [List.flatMap_cons, List.append_assoc, readQuoted_escape, ih (Nat.lt_of_succ_lt_succ h)]
    simp

theorem length_le_flatMap_escape (cs : List Char) : cs.length ≤ (cs.flatMap escape).length := by
  induction cs with
  | nil => exact Nat.le_refl 0
  | cons c cs ih =>
    have hpos : 0 < (escape c).length := by
      unfold escape
      repeat' split
      all_goals exact Nat.succ_pos _
    rw [List.flatMap_cons, List.length_append, List.length_cons]
    omega

/-- **A text in quotes is read back**, whatever is in it. -/
theorem readText_write (s : String) (rest : List Char) :
    readText (s.toList.flatMap escape ++ '"' :: rest) = some (s, rest) := by
  have hlength := length_le_flatMap_escape s.toList
  rw [readText, readQuoted_flatMap (by rw [List.length_append, List.length_cons]; omega)]
  rw [List.reverse_nil, List.nil_append, String.ofList_toList]

theorem writeText_append (s : String) (rest : List Char) :
    writeText s ++ rest = '"' :: (s.toList.flatMap escape ++ '"' :: rest) := by
  simp [writeText]

theorem readKey_write (k : String) (rest : List Char) :
    readKey (writeText k ++ ':' :: rest) = some (k, rest) := by
  have hquote (cs : List Char) : skipBlanks ('"' :: cs) = '"' :: cs := rfl
  have hcolon (cs : List Char) : skipBlanks (':' :: cs) = ':' :: cs := rfl
  simp only [writeText_append, readKey, hquote, readText_write, hcolon]

/-! ## Items and fields -/

/-- A value is read back from its text, whatever follows that ends a number. -/
def Reads (depth : Nat) (j : Json) : Prop :=
  ∀ fuel rest, (write j).length ≤ fuel → Ends rest →
    readValue depth fuel (write j ++ rest) = some (j, rest)

theorem Reads.length_pos (h : Reads depth j) : 0 < (write j).length := by
  refine Nat.pos_of_ne_zero fun hzero => ?_
  have hread := h 0 [] (Nat.le_of_eq hzero) (fun c hc => by cases hc)
  cases hread

theorem skipBlanks_cons (h : c ∉ [' ', '\n', '\t', '\r']) : skipBlanks (c :: cs) = c :: cs := by
  simp only [List.mem_cons, List.not_mem_nil, or_false, not_or] at h
  simp [skipBlanks, h]

/-- **Items are read back** one after the other, with the bracket that closes them. -/
theorem readItems_write {js : List Json} (h : ∀ j' ∈ j :: js, Reads depth j')
    (hfuel : (write j).length + (writeItems js).length ≤ fuel) (rest : List Char) :
    readItems depth fuel (write j ++ (writeItems js ++ rest)) = some (j :: js, rest) := by
  induction js generalizing j fuel with
  | nil =>
    cases fuel with
    | zero => cases hfuel
    | succ fuel =>
      have hread := h j List.mem_cons_self fuel (']' :: rest) (Nat.le_of_succ_le_succ hfuel)
        (ends_cons (by decide))
      rw [readItems, writeItems, List.singleton_append, hread]
      rfl
  | cons j' js ih =>
    have hlength : (writeItems (j' :: js)).length =
        (write j').length + (writeItems js).length + 1 := by
      rw [writeItems, List.length_cons, List.length_append]
    have hpos := (h j List.mem_cons_self).length_pos
    cases fuel with
    | zero => omega
    | succ fuel =>
      have hread := h j List.mem_cons_self fuel (',' :: (write j' ++ (writeItems js ++ rest)))
        (by omega) (ends_cons (by decide))
      have hrest : readItems depth fuel (write j' ++ (writeItems js ++ rest)) =
          some (j' :: js, rest) :=
        ih (fun j'' hj => h j'' (List.mem_cons_of_mem j hj)) (by omega)
      rw [readItems, writeItems, List.cons_append, List.append_assoc, hread]
      exact congrArg (Option.map fun read => (j :: read.1, read.2)) hrest

/-- **Fields are read back** one after the other, with the brace that closes them. -/
theorem readFields_write {k : String} {fields : List (String × Json)}
    (h : ∀ field ∈ (k, j) :: fields, Reads depth field.2)
    (hfuel : (write j).length + (writeFields fields).length ≤ fuel) (rest : List Char) :
    readFields depth fuel (writeText k ++ ':' :: (write j ++ (writeFields fields ++ rest))) =
      some ((k, j) :: fields, rest) := by
  induction fields generalizing k j fuel with
  | nil =>
    cases fuel with
    | zero => cases hfuel
    | succ fuel =>
      have hread := h (k, j) List.mem_cons_self fuel ('\x7d' :: rest)
        (Nat.le_of_succ_le_succ hfuel) (ends_cons (by decide))
      rw [readFields, readKey_write, writeFields, List.singleton_append]
      dsimp only
      rw [hread]
      rfl
  | cons field fields ih =>
    obtain ⟨k', j'⟩ := field
    have hlength : (write j').length + (writeFields fields).length <
        (writeFields ((k', j') :: fields)).length := by
      rw [writeFields, List.length_cons, List.length_append, List.length_cons, List.length_append]
      omega
    have hpos : 0 < (write j).length := (h (k, j) List.mem_cons_self).length_pos
    cases fuel with
    | zero => omega
    | succ fuel =>
      have hread := h (k, j) List.mem_cons_self fuel
        (',' :: (writeText k' ++ ':' :: (write j' ++ (writeFields fields ++ rest))))
        (show (write j).length ≤ fuel by omega) (ends_cons (by decide))
      have hrest : readFields depth fuel
          (writeText k' ++ ':' :: (write j' ++ (writeFields fields ++ rest))) =
          some ((k', j') :: fields, rest) :=
        ih (fun field hfield => h field (List.mem_cons_of_mem (k, j) hfield)) (by omega)
      have hshape : writeFields ((k', j') :: fields) ++ rest =
          ',' :: (writeText k' ++ ':' :: (write j' ++ (writeFields fields ++ rest))) := by
        simp [writeFields]
      rw [hshape, readFields, readKey_write]
      dsimp only
      rw [hread]
      exact congrArg (Option.map fun read => ((k, j) :: read.1, read.2)) hrest

/-! ## Fields in their order -/

theorem putField_of_lt {k : String} {fields : List (String × Json)}
    (h : ∀ field ∈ fields, field.1 < k) (v : Json) :
    putField k v fields = fields ++ [(k, v)] := by
  induction fields with
  | nil => rfl
  | cons field fields ih =>
    obtain ⟨k', v'⟩ := field
    obtain ⟨hk, hrest⟩ := List.forall_mem_cons.1 h
    rw [putField, if_neg hk.ne', if_neg hk.asymm, ih hrest, List.cons_append]

theorem ofPairs_eq (pairs : List (String × Json)) :
    ofPairs pairs = .obj (pairs.foldl (fun fields pair => putField pair.1 pair.2 fields) []) := rfl

/-- **Fields in the order of their keys** are those of the object that is made of them. -/
theorem ofPairs_eq_obj {fields : List (String × Json)}
    (h : (fields.map (·.1)).Pairwise (· < ·)) : ofPairs fields = .obj fields := by
  suffices hfold : ∀ before, ((before ++ fields).map (·.1)).Pairwise (· < ·) →
      fields.foldl (fun fields pair => putField pair.1 pair.2 fields) before = before ++ fields by
    rw [ofPairs_eq, hfold [] h, List.nil_append]
  clear h
  induction fields with
  | nil => exact fun before _ => (List.append_nil before).symm
  | cons field fields ih =>
    obtain ⟨k, v⟩ := field
    intro before h
    have hbefore : ∀ field ∈ before, field.1 < k := by
      rw [List.map_append, List.map_cons, List.pairwise_append] at h
      exact fun field hfield => h.2.2 field.1 (List.mem_map_of_mem hfield) k List.mem_cons_self
    rw [List.foldl_cons, putField_of_lt hbefore, ih _ (by simpa using h), List.append_assoc,
      List.singleton_append]

theorem mem_putField {k : String} {v : Json} {fields : List (String × Json)} {field : String × Json}
    (h : field ∈ putField k v fields) : field = (k, v) ∨ field ∈ fields := by
  induction fields with
  | nil => exact .inl (List.mem_singleton.1 h)
  | cons field' fields ih =>
    obtain ⟨k', v'⟩ := field'
    rw [putField] at h
    split at h
    · exact (List.mem_cons.1 h).imp_right (List.mem_cons_of_mem _)
    · split at h
      · exact List.mem_cons.1 h
      · rcases List.mem_cons.1 h with rfl | h
        · exact .inr List.mem_cons_self
        · exact (ih h).imp_right (List.mem_cons_of_mem _)

theorem pairwise_putField {fields : List (String × Json)}
    (h : (fields.map (·.1)).Pairwise (· < ·)) (k : String) (v : Json) :
    ((putField k v fields).map (·.1)).Pairwise (· < ·) := by
  induction fields with
  | nil => exact List.pairwise_singleton _ k
  | cons field fields ih =>
    obtain ⟨k', v'⟩ := field
    obtain ⟨hfirst, hrest⟩ := List.pairwise_cons.1 h
    rw [putField]
    split
    · next heq => exact heq ▸ h
    · next hne =>
      split
      · next hlt =>
        refine List.pairwise_cons.2 ⟨fun k'' hk'' => ?_, h⟩
        rcases List.mem_cons.1 hk'' with rfl | hk''
        · exact hlt
        · exact hlt.trans (hfirst k'' hk'')
      · next hge =>
        refine List.pairwise_cons.2 ⟨fun k'' hk'' => ?_, ih hrest⟩
        obtain ⟨field, hfield, rfl⟩ := List.mem_map.1 hk''
        rcases mem_putField hfield with rfl | hfield
        · exact lt_of_le_of_ne (not_lt.1 hge) (Ne.symm hne)
        · exact hfirst field.1 (List.mem_map_of_mem hfield)

/-! ## Values -/

/-- Values without doubles, in which arrays and objects are nested at most so deep: the whole
numbers are of 64 bits, with or without a sign, and the fields of an object stand in the order of
their keys. -/
inductive Plain : Nat → Json → Prop
  | null (depth : Nat) : Plain depth .null
  | bool (depth : Nat) (b : Bool) : Plain depth (.bool b)
  | int (depth : Nat) (n : Int) : -(Nat.pow 2 63 : Nat) ≤ n → n ≤ maxWord → Plain depth (.int n)
  | str (depth : Nat) (s : String) : Plain depth (.str s)
  | arr (depth : Nat) (items : List Json) : (∀ j ∈ items, Plain depth j) →
    Plain (depth + 1) (.arr items)
  | obj (depth : Nat) (fields : List (String × Json)) : (fields.map (·.1)).Pairwise (· < ·) →
    (∀ field ∈ fields, Plain depth field.2) → Plain (depth + 1) (.obj fields)

theorem Plain.mono {d d' : Nat} (h : Plain d j) (hd : d ≤ d') : Plain d' j := by
  induction h generalizing d' with
  | null => exact .null d'
  | bool _ b => exact .bool d' b
  | int _ n hlow hhigh => exact .int d' n hlow hhigh
  | str _ s => exact .str d' s
  | arr _ items _ ih =>
    cases d' with
    | zero => cases hd
    | succ d' => exact .arr d' items fun j hj => ih j hj (Nat.le_of_succ_le_succ hd)
  | obj _ fields hkeys _ ih =>
    cases d' with
    | zero => cases hd
    | succ d' =>
      exact .obj d' fields hkeys fun field hfield => ih field hfield (Nat.le_of_succ_le_succ hd)

theorem exists_intChars (n : Int) :
    ∃ c cs, Decimal.intChars n = c :: cs ∧ (c = '-' ∨ c.isDigit = true) := by
  obtain ⟨c, cs, hcs, hc⟩ := exists_digit n.natAbs
  rw [Decimal.intChars, hcs]
  split
  · exact ⟨_, _, rfl, .inl rfl⟩
  · exact ⟨c, cs, rfl, .inr hc⟩

theorem not_blank_of_number (h : c = '-' ∨ c.isDigit = true) : c ∉ [' ', '\n', '\t', '\r'] := by
  intro hmem
  simp only [List.mem_cons, List.not_mem_nil, or_false] at hmem
  rcases hmem with rfl | rfl | rfl | rfl <;> exact absurd h (by decide)

/-- An object that is made of plain values is plain, in whatever order its fields are given. -/
theorem plain_ofPairs {pairs : List (String × Json)} (h : ∀ pair ∈ pairs, Plain depth pair.2) :
    Plain (depth + 1) (ofPairs pairs) := by
  suffices hfold : ∀ fields : List (String × Json), (fields.map (·.1)).Pairwise (· < ·) →
      (∀ field ∈ fields, Plain depth field.2) →
      Plain (depth + 1)
        (.obj (pairs.foldl (fun fields pair => putField pair.1 pair.2 fields) fields)) from
    hfold [] List.Pairwise.nil (by simp)
  induction pairs with
  | nil => exact fun fields hkeys hfields => .obj depth fields hkeys hfields
  | cons pair pairs ih =>
    obtain ⟨k, v⟩ := pair
    obtain ⟨hv, hrest⟩ := List.forall_mem_cons.1 h
    intro fields hkeys hfields
    refine ih hrest _ (pairwise_putField hkeys k v) fun field hfield => ?_
    rcases mem_putField hfield with rfl | hfield
    · exact hv
    · exact hfields field hfield

/-- The first character of a value: no blank, and nothing that closes an array. -/
theorem Plain.write_eq_cons (h : Plain depth j) :
    ∃ c cs, write j = c :: cs ∧ c ∉ [' ', '\n', '\t', '\r'] ∧ c ≠ ']' := by
  cases h with
  | null => exact ⟨_, _, rfl, by decide, by decide⟩
  | bool _ b => cases b <;> exact ⟨_, _, rfl, by decide, by decide⟩
  | int _ n =>
    obtain ⟨c, cs, hcs, hc⟩ := exists_intChars n
    refine ⟨c, cs, hcs, not_blank_of_number hc, ?_⟩
    rintro rfl
    exact absurd hc (by decide)
  | str _ s => exact ⟨_, _, rfl, by decide, by decide⟩
  | arr _ items => cases items <;> exact ⟨_, _, rfl, by decide, by decide⟩
  | obj _ fields => cases fields <;> exact ⟨_, _, rfl, by decide, by decide⟩

theorem readValue_number (h : c = '-' ∨ c.isDigit = true) (depth fuel : Nat) (cs : List Char) :
    readValue depth (fuel + 1) (c :: cs) = readNumber (c :: cs) := by
  rw [readValue, skipBlanks_cons (not_blank_of_number h)]
  split
  · next heq => cases heq
  iterate 6
    · next heq =>
      cases heq
      exact absurd h (by decide)
  · rfl

theorem readValue_open (depth fuel : Nat) (cs : List Char) :
    readValue (depth + 1) (fuel + 1) ('[' :: cs) =
      match skipBlanks cs with
      | ']' :: rest => some (.arr [], rest)
      | cs => (readItems depth fuel cs).map fun (js, rest) => (.arr js, rest) := rfl

theorem readValue_bracket (hblank : c ∉ [' ', '\n', '\t', '\r']) (hclose : c ≠ ']')
    (depth fuel : Nat) (cs : List Char) :
    readValue (depth + 1) (fuel + 1) ('[' :: c :: cs) =
      (readItems depth fuel (c :: cs)).map fun (js, rest) => (.arr js, rest) := by
  rw [readValue_open, skipBlanks_cons hblank]
  split
  · next heq =>
    cases heq
    exact absurd rfl hclose
  · rfl

theorem reads_int (depth : Nat) {n : Int} (hlow : -(Nat.pow 2 63 : Nat) ≤ n) (hhigh : n ≤ maxWord) :
    Reads depth (.int n) := by
  intro fuel rest hfuel hrest
  have hread := readNumber_intChars hlow hhigh hrest
  obtain ⟨c, cs, hcs, hc⟩ := exists_intChars n
  rw [write, hcs] at hfuel ⊢
  rw [hcs] at hread
  cases fuel with
  | zero => cases hfuel
  | succ fuel => rwa [List.cons_append, readValue_number hc]

/-- **Every plain value is read back.** -/
theorem Plain.reads (h : Plain depth j) : Reads depth j := by
  induction h with
  | null depth =>
    rintro (_ | fuel) rest hfuel hrest
    · cases hfuel
    · rfl
  | bool depth b =>
    rintro (_ | fuel) rest hfuel hrest
    · cases b <;> cases hfuel
    · cases b <;> rfl
  | int depth n hlow hhigh => exact reads_int depth hlow hhigh
  | str depth s =>
    rintro (_ | fuel) rest hfuel hrest
    · cases hfuel
    · have htext := congrArg (Option.map fun read => (Json.str read.1, read.2))
        (readText_write s rest)
      rw [write, writeText_append]
      exact htext
  | arr depth items hitems ih =>
    rintro (_ | fuel) rest hfuel hrest
    · cases items <;> cases hfuel
    cases items with
    | nil => rfl
    | cons j js =>
      obtain ⟨c, cs, hcs, hblank, hclose⟩ := (hitems j List.mem_cons_self).write_eq_cons
      have hfuel : (write j).length + (writeItems js).length ≤ fuel := by
        rw [write, List.length_cons, List.length_append] at hfuel
        omega
      have hread := readItems_write ih hfuel rest
      rw [hcs, List.cons_append] at hread
      rw [write, List.cons_append, List.append_assoc, hcs, List.cons_append,
        readValue_bracket hblank hclose, hread]
      rfl
  | obj depth fields hkeys hfields ih =>
    rintro (_ | fuel) rest hfuel hrest
    · cases fields <;> cases hfuel
    cases fields with
    | nil => rfl
    | cons field fields =>
      obtain ⟨k, j⟩ := field
      have hfuel : (write j).length + (writeFields fields).length ≤ fuel := by
        rw [write, List.length_cons, List.length_append, List.length_cons, List.length_append]
          at hfuel
        omega
      have hread := readFields_write ih hfuel rest
      have hshape : write (.obj ((k, j) :: fields)) ++ rest =
          '\x7b' :: (writeText k ++ ':' :: (write j ++ (writeFields fields ++ rest))) := by
        simp [write]
      rw [writeText_append] at hread hshape
      rw [hshape, ← ofPairs_eq_obj hkeys]
      exact congrArg (Option.map fun read => (ofPairs read.1, read.2)) hread

end Correlator.Json
