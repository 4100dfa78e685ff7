import Correlator.Proofs.Header.Listing

/-!
# Listings that are read back

What a listing of headers is read as, told without the reader: the text between its outer quotes
falls into pieces at the separators, and each piece that is not blank stands for one header.

* `Header.IsLegible`: headers that a piece can stand for; `Header.IsSeparate`: headers in which no
  separator stands, or begins in front of the one that follows.
* `Listing.StandsFor`: the header that a piece stands for; `Listing.entry?_trim_iff`,
  `Listing.readEntries_iff`: these are the headers that are read.
* `Listing.read_iff`: the listings that can be read, and as what.
* **`Listing.read_back`**: headers are read back from the listing of them, and nothing but such
  headers is read of any listing.
-/

namespace Correlator

open Text

/-- A header that a piece of a listing can stand for. -/
structure Header.IsLegible (h : Header) : Prop where
  name_ne : h.name ≠ ""
  noColon : ':' ∉ h.name.toList
  name_trim : trim h.name.toList = h.name.toList
  value_trim : trim h.value.toList = h.value.toList

/-- Separators stand neither in the name nor in the value of the header, and the value does not end
in the beginning of one. -/
structure Header.IsSeparate (h : Header) : Prop where
  name : ¬ Listing.separator <:+: h.name.toList
  value : ¬ Listing.separator <:+: h.value.toList
  value_end : ¬ ['\'', ','] <:+ h.value.toList

namespace Listing

variable {raw : String} {h : Header} {hs : List Header} {p : List Char} {ps : List (List Char)}

/-! ## Pieces and headers -/

/-- The name of a header is what stands before the first colon of a piece, and its value what comes
after; white space around them does not count. -/
inductive StandsFor : List Char → Header → Prop
  | intro (name value : List Char) : ':' ∉ name → trim name ≠ [] →
    StandsFor (name ++ ':' :: value) ⟨String.ofList (trim name), String.ofList (trim value)⟩

theorem blank_colon : Blank ':' = false := by decide

theorem trim_entry (n v : List Char) :
    trim (n ++ ':' :: v) = n.dropWhile Blank ++ ':' :: dropEndWhile Blank v :=
  strip_append_cons blank_colon n v

theorem entry?_eq_some_iff {cs : List Char} : entry? cs = some h ↔ StandsFor cs h := by
  constructor
  · intro hentry
    unfold entry? at hentry
    split at hentry
    · cases hentry
    · rename_i name value hcut
      obtain ⟨rfl, hclear⟩ := cut?_eq_some_iff_clear.1 hcut
      split at hentry
      · cases hentry
      · rename_i hne
        cases hentry
        rw [List.append_assoc]
        exact .intro name value (clear_singleton_iff.1 hclear) (by simpa using hne)
  · rintro ⟨name, value, hcolon, hne⟩
    have hcut : cut? [':'] (name ++ ':' :: value) = some (name, value) :=
      cut?_eq_some_iff_clear.2 ⟨by simp, clear_singleton_iff.2 hcolon⟩
    simp [ entry?, hcut, hne]

/-- White space around a piece does not count. -/
theorem standsFor_trim_iff : StandsFor (trim p) h ↔ StandsFor p h := by
  constructor
  · intro hp
    obtain ⟨l, r, hsplit, hl, hr⟩ := exists_strip Blank p
    change p = l ++ trim p ++ r at hsplit
    generalize trim p = cs at hp hsplit
    obtain ⟨name, value, hcolon, hne⟩ := hp
    have hname : trim (l ++ name) = trim name := strip_append_left hl name
    have hvalue : trim (value ++ r) = trim value := strip_append_right hr value
    have hp : p = (l ++ name) ++ ':' :: (value ++ r) := by rw [hsplit]; simp
    rw [hp, ← hname, ← hvalue]
    refine .intro _ _ ?_ (hname ▸ hne)
    intro hmem
    rcases List.mem_append.1 hmem with hmem | hmem
    · have := hl _ hmem
      rw [blank_colon] at this
      cases this
    · exact hcolon hmem
  · rintro ⟨name, value, hcolon, hne⟩
    have hname : trim (name.dropWhile Blank) = trim name := strip_dropWhile Blank name
    have hvalue : trim (dropEndWhile Blank value) = trim value := strip_dropEndWhile Blank value
    rw [trim_entry, ← hname, ← hvalue]
    exact .intro _ _ (fun hmem => hcolon ((List.dropWhile_sublist _).subset hmem)) (hname ▸ hne)

theorem entry?_trim_iff : entry? (trim p) = some h ↔ StandsFor p h :=
  entry?_eq_some_iff.trans standsFor_trim_iff

/-- A piece that stands for a header is not blank. -/
theorem StandsFor.trim_ne (hp : StandsFor p h) : trim p ≠ [] := by
  obtain ⟨name, value, -, -⟩ := hp
  rw [trim_entry]
  simp

/-- **The headers that are read are those that the pieces stand for**, one for each piece that is
not blank. -/
theorem readEntries_iff : readEntries ps = .ok hs ↔
    List.Forall₂ StandsFor (ps.filter fun p => trim p ≠ []) hs := by
  induction ps generalizing hs with
  | nil =>
    rw [List.filter_nil, List.forall₂_nil_left_iff, readEntries, Except.ok.injEq]
    exact eq_comm
  | cons p ps ih =>
    by_cases hblank : trim p = []
    · rw [readEntries, if_pos (by simp [hblank]), List.filter_cons_of_neg (by simp [hblank])]
      exact ih
    · rw [List.filter_cons_of_pos (by simpa using hblank), List.forall₂_cons_left_iff]
      cases hentry : entry? (trim p) with
      | none =>
        rw [readEntries, if_neg (by simpa using hblank), hentry]
        constructor
        · intro hread
          cases hread
        · rintro ⟨h, hs, hp, -, -⟩
          rw [← entry?_trim_iff, hentry] at hp
          cases hp
      | some h =>
        rw [readEntries_cons hentry (by simpa using hblank)]
        constructor
        · intro hread
          obtain ⟨hs, hrest, rfl⟩ := exists_of_map_eq_ok hread
          exact ⟨h, hs, entry?_trim_iff.1 hentry, ih.1 hrest, rfl⟩
        · rintro ⟨h', hs, hp, hrest, rfl⟩
          rw [← entry?_trim_iff, hentry, Option.some.injEq] at hp
          rw [hp, ih.2 hrest]
          rfl

/-- A listing is read as what the pieces between its quotes stand for. -/
theorem read_iff : read raw = .ok hs ↔
    ∃ ps, Pieces separator (unquote (trim raw.toList)) ps ∧
      List.Forall₂ StandsFor (ps.filter fun p => trim p ≠ []) hs := by
  have hread : read raw = readEntries (pieces quote separatorTail (unquote (trim raw.toList))) := by
    unfold read
    cases htrim : trim raw.toList with
    | nil =>
      have hpieces : pieces quote separatorTail (unquote []) = [[]] := pieces_of_none rfl
      rw [hpieces]
      rfl
    | cons c cs => rfl
  rw [hread, readEntries_iff]
  constructor
  · exact fun h => ⟨_, pieces_pieces .., h⟩
  · rintro ⟨ps, hps, h⟩
    rwa [← pieces_iff.1 hps]

/-! ## Headers that come back -/

theorem StandsFor.isLegible (hp : StandsFor p h) : h.IsLegible := by
  obtain ⟨name, value, hcolon, hne⟩ := hp
  refine ⟨?_, ?_, ?_, ?_⟩
  · simpa [← String.toList_eq_nil_iff] using hne
  · rw [String.toList_ofList]
    exact fun hmem => hcolon (mem_of_mem_strip hmem)
  · rw [String.toList_ofList]
    exact strip_strip Blank name
  · rw [String.toList_ofList]
    exact strip_strip Blank value

theorem isLegible_of_standsFor (hstands : List.Forall₂ StandsFor ps hs) :
    ∀ h ∈ hs, h.IsLegible := by
  induction hstands with
  | nil => exact List.forall_mem_nil _
  | cons hp _ ih => exact List.forall_mem_cons.2 ⟨hp.isLegible, ih⟩

theorem standsFor_writeEntry (hlegible : h.IsLegible) : StandsFor (writeEntry h) h := by
  have hne : trim h.name.toList ≠ [] := by
    rw [hlegible.name_trim, ne_eq, String.toList_eq_nil_iff]
    exact hlegible.name_ne
  have hstands := StandsFor.intro h.name.toList h.value.toList hlegible.noColon hne
  rwa [hlegible.name_trim, hlegible.value_trim, String.ofList_toList,
    String.ofList_toList] at hstands

/-- The pieces of a listing are the entries that were written, if all headers are separate. -/
theorem pieces_body (hne : hs ≠ []) (hseparate : ∀ h ∈ hs, h.IsSeparate) :
    Pieces separator (body hs) (hs.map writeEntry) := by
  have hcolon : ':' ∉ separator := by decide
  have hsep : separator ≠ [] := by decide
  induction hs with
  | nil => exact absurd rfl hne
  | cons h hs ih =>
    obtain ⟨hfirst, hrest⟩ := List.forall_mem_cons.1 hseparate
    cases hs with
    | nil =>
      rw [body_singleton]
      refine .last _ fun hmark => ?_
      exact ((infix_append_cons_iff hsep hcolon).1 hmark).elim hfirst.name hfirst.value
    | cons k hs =>
      have hvalue := clear_separator_iff.2 ⟨hfirst.value, hfirst.value_end⟩
      have hentry : Clear separator (writeEntry h) :=
        clear_append_cons hsep hcolon hfirst.name hvalue
      have hbody : body (h :: k :: hs) = writeEntry h ++ separator ++ body (k :: hs) := by
        simp [body_cons_cons, writeEntry]
      rw [hbody]
      exact .cut _ _ _ hentry (ih (List.cons_ne_nil k hs) hrest)

/-- Headers that are legible and separate are read from their entries. -/
theorem read_write_eq (hall : ∀ h ∈ hs, h.IsLegible ∧ h.IsSeparate) :
    read (String.ofList (write hs)) = .ok hs := by
  cases hs with
  | nil => rfl
  | cons h hs =>
    have hpieces := pieces_body (List.cons_ne_nil h hs) fun k hk => (hall k hk).2
    have hstands : List.Forall₂ StandsFor ((h :: hs).map writeEntry) (h :: hs) := by
      rw [List.forall₂_map_left_iff, List.forall₂_same]
      exact fun k hk => standsFor_writeEntry (hall k hk).1
    have hkept : ((h :: hs).map writeEntry).filter (fun p => trim p ≠ []) =
        (h :: hs).map writeEntry := by
      rw [List.filter_eq_self, List.forall_mem_map]
      intro k hk
      simpa using (standsFor_writeEntry (hall k hk).1).trim_ne
    rw [read_write, readEntries_iff, ← pieces_iff.1 hpieces, hkept]
    exact hstands

/-- **Headers are read back from the listing of them**, if each is legible and separate. Whatever
the text is, it is read as headers just when each piece between separators that is not blank stands
for one, and these are the headers, in the order of the pieces; each of them is legible. -/
theorem read_back :
    (∀ hs : List Header, (∀ h ∈ hs, h.IsLegible ∧ h.IsSeparate) →
      read (String.ofList (write hs)) = .ok hs) ∧
    (∀ raw hs, read raw = .ok hs ↔
      ∃ ps, Pieces separator (unquote (trim raw.toList)) ps ∧
        List.Forall₂ StandsFor (ps.filter fun p => trim p ≠ []) hs) ∧
    ∀ raw hs, read raw = .ok hs → ∀ h ∈ hs, h.IsLegible := by
  refine ⟨fun hs => read_write_eq, fun raw hs => read_iff, fun raw hs hread => ?_⟩
  obtain ⟨ps, -, hstands⟩ := read_iff.1 hread
  exact isLegible_of_standsFor hstands

/-- Quotes at the ends of names and values, a comma before a quote, colons in a value and a value
that is empty all come back. A listing with blanks around its colons and a blank piece is read
as well. -/
theorem read_back_quotes :
    read (String.ofList (write [⟨"'x", ""⟩, ⟨"Location", "http://h:80/'"⟩, ⟨"y'", "a,'"⟩])) =
        .ok [⟨"'x", ""⟩, ⟨"Location", "http://h:80/'"⟩, ⟨"y'", "a,'"⟩] ∧
      read " 'a : 1',' ','b:c: d " = .ok [⟨"a", "1"⟩, ⟨"b", "c: d"⟩] ∧
      (∃ ps, Pieces separator "a : 1',' ','b:c: d".toList ps ∧
        List.Forall₂ StandsFor (ps.filter fun p => trim p ≠ []) [⟨"a", "1"⟩, ⟨"b", "c: d"⟩]) ∧
      ∀ h ∈ [(⟨"a", "1"⟩ : Header), ⟨"b", "c: d"⟩], h.IsLegible := by
  obtain ⟨hback, hread, hlegible⟩ := read_back
  have hblanks : read " 'a : 1',' ','b:c: d " = .ok [⟨"a", "1"⟩, ⟨"b", "c: d"⟩] := by
    decide +kernel
  refine ⟨hback _ ?_, hblanks, (hread _ _).1 hblanks, hlegible _ _ hblanks⟩
  simp only [List.forall_mem_cons]
  refine ⟨⟨?_, ?_⟩, ⟨?_, ?_⟩, ⟨?_, ?_⟩, List.forall_mem_nil _⟩ <;>
    constructor <;> decide +kernel

end Listing

end Correlator
