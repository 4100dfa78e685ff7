import Correlator.Proofs.Text.Utf8
import Correlator.Header.Block

/-!
# Blocks of headers

Which lists of configured headers make a block, and what is in it.

* `HeaderName.IsName`, `HeaderName.lower`: names, and texts in lower case; `HeaderName.normal?_iff`:
  a block knows names by these.
* `Header.IsSendable`, `Header.IsAtFault`: headers that can be sent, and what is wrong with others;
  `Header.isCarried`: those that a block takes over.
* `Block.fieldsOf_cons`: what one header more does; `Block.fieldsOf_eq_ok_iff`,
  `Block.build_eq_ok_iff`: when there is a block, and which headers are in it;
  `Block.fault_of_fieldsOf`: which header is named if there is none.
* `Block.values_append`, `Block.values_carried`: the values of a name; `Block.firstText?`: the first
  that is text.
* `Block.Refused`, `Block.Serves`: lists of headers of which no block can be made; blocks that serve
  a list of headers and a body.
* **`Block.build_of_room`**: where there is room a block is made unless the list is refused, and it
  serves it.
-/

namespace Correlator

variable {s t name : String} {hs : List Header} {h : Header} {fields : List HeaderField}

/-! ## Names -/

namespace HeaderName

/-- A name is a token that is not empty and has at most 65535 bytes. -/
structure IsName (s : String) : Prop where
  ne : s ≠ ""
  length_le : (Octets.ofString s).length ≤ 65535
  token : ∀ c ∈ s.toList, isTokenChar c = true

/-- A text in lower case. -/
def lower (s : String) : String := String.ofList (s.toList.map Char.toLower)

theorem sameText_iff : sameText s t = true ↔ lower s = lower t := by
  rw [sameText, beq_iff_eq, lower, lower, String.ofList_inj]

theorem toNat_lt_of_isTokenChar {c : Char} (hc : isTokenChar c = true) : c.toNat < 128 := by
  rw [isTokenChar, Bool.or_eq_true, decide_eq_true_eq] at hc
  obtain hc | hc := hc
  · have hcases : ((c.isUpper || c.isLower) || c.isDigit) = true := hc
    rw [Bool.or_eq_true, Bool.or_eq_true] at hcases
    have hlast : ∃ last : Char, last.toNat < 128 ∧ c.val ≤ last.val := by
      obtain (hupper | hlower) | hdigit := hcases
      · exact ⟨'Z', by decide, (of_decide_eq_true hupper).2⟩
      · exact ⟨'z', by decide, of_decide_eq_true (Bool.and_eq_true_iff.1 hlower).2⟩
      · exact ⟨'9', by decide, of_decide_eq_true (Bool.and_eq_true_iff.1 hdigit).2⟩
    obtain ⟨last, hascii, hle⟩ := hlast
    exact Nat.lt_of_le_of_lt (UInt32.le_iff_toNat_le.1 hle) hascii
  · have hall : ∀ c ∈ ['!', '#', '$', '%', '&', '\'', '*', '+', '-', '.', '^', '_', '\x60', '|',
        '~'], c.toNat < 128 := by simp
    exact hall c hc

theorem length_encode {cs : List Char} (h : ∀ c ∈ cs, c.toNat < 128) :
    (Utf8.encode cs).length = cs.length := by
  induction cs with
  | nil => rfl
  | cons c cs ih =>
    obtain ⟨hc, hcs⟩ := List.forall_mem_cons.1 h
    have hone : (String.utf8EncodeChar c).length = 1 := by
      simp only [String.utf8EncodeChar, Char.toNat_val]
      rw [if_pos (by omega)]
      rfl
    rw [Utf8.encode, List.flatMap_cons, List.length_append, hone, ← Utf8.encode, ih hcs,
      List.length_cons, Nat.add_comm]

/-- A token has as many bytes as characters. -/
theorem length_ofString_of_token (htoken : ∀ c ∈ s.toList, isTokenChar c = true) :
    (Octets.ofString s).length = s.toList.length := by
  rw [Octets.ofString_eq]
  exact length_encode fun c hc => toNat_lt_of_isTokenChar (htoken c hc)

/-- Among tokens, characters may be counted in place of bytes. -/
theorem isName_iff : IsName s ↔
    (s.toList.isEmpty || maxLength < s.toList.length || !s.toList.all isTokenChar) = false := by
  simp only [Bool.or_eq_false_iff, List.isEmpty_eq_false_iff, decide_eq_false_iff_not,
    Nat.not_lt, Bool.not_eq_false', List.all_eq_true]
  constructor
  · rintro ⟨hne, hlength, htoken⟩
    rw [length_ofString_of_token htoken] at hlength
    exact ⟨⟨mt String.toList_eq_nil_iff.1 hne, hlength⟩, htoken⟩
  · rintro ⟨⟨hne, hlength⟩, htoken⟩
    rw [← length_ofString_of_token htoken] at hlength
    exact ⟨mt String.toList_eq_nil_iff.2 hne, hlength, htoken⟩

instance : Decidable (IsName s) := decidable_of_iff _ isName_iff.symm

/-- **A block knows names by their lower-case form**, and nothing else is a name to it. -/
theorem normal?_iff : normal? s = some t ↔ IsName s ∧ t = lower s := by
  rw [isName_iff, lower, eq_comm (a := t)]
  simp [normal?]

theorem normal?_eq_none_iff : normal? s = none ↔ ¬ IsName s := by
  rw [Option.eq_none_iff_forall_ne_some]
  simp only [ne_eq, normal?_iff, not_and]
  exact ⟨fun h hs => h _ hs rfl, fun h t hs => absurd hs h⟩

end HeaderName

/-! ## Values -/

namespace HeaderValue

/-- A text stands for its bytes, if they make a value. -/
theorem ofText?_iff {value : Octets} :
    ofText? s = some value ↔ Valid (Octets.ofString s) = true ∧ value = Octets.ofString s := by
  rw [eq_comm (a := value)]
  simp [ofText?]

theorem ofText?_eq_none_iff : ofText? s = none ↔ ¬ Valid (Octets.ofString s) = true := by
  simp [ofText?]

end HeaderValue

/-! ## Headers that a block takes over -/

open HeaderName HeaderValue Block

/-- A block has a content type and a content length of its own, and takes over the other headers. -/
def Header.isCarried (h : Header) : Bool :=
  lower h.name ≠ contentTypeName ∧ lower h.name ≠ contentLengthName

/-- A header as it is sent. -/
def Header.field (h : Header) : HeaderField := ⟨lower h.name, Octets.ofString h.value⟩

/-- The name is one, and so is the value of a header that is taken over. -/
structure Header.IsSendable (h : Header) : Prop where
  name : IsName h.name
  value : h.isCarried = true → Valid (Octets.ofString h.value) = true

instance : Decidable h.IsSendable :=
  decidable_of_iff (IsName h.name ∧ (h.isCarried = true → Valid (Octets.ofString h.value) = true))
    ⟨fun ⟨hname, hvalue⟩ => ⟨hname, hvalue⟩, fun ⟨hname, hvalue⟩ => ⟨hname, hvalue⟩⟩

/-- A header that cannot be sent, and what is wrong with it. -/
inductive Header.IsAtFault (h : Header) : Fault → Prop
  | name : ¬ IsName h.name → IsAtFault h (invalidName h)
  | value : h.isCarried = true → ¬ Valid (Octets.ofString h.value) = true →
    IsAtFault h (invalidValue h)

theorem Header.IsAtFault.not_isSendable {fault : Fault} (hfault : h.IsAtFault fault) :
    ¬ h.IsSendable := by
  intro hsendable
  cases hfault with
  | name hname => exact hname hsendable.name
  | value hcarried hvalue => exact hvalue (hsendable.value hcarried)

namespace Block

variable {mapping? : Option Mapping} {length : Nat}

/-- One header more: it can be sent, and is taken over or not, or it is at fault. -/
theorem fieldsOf_cons (h : Header) (hs : List Header) :
    (h.IsSendable ∧ fieldsOf (h :: hs) =
      (fieldsOf hs).map fun fields => if h.isCarried then h.field :: fields else fields) ∨
    ∃ fault, h.IsAtFault fault ∧ fieldsOf (h :: hs) = .error fault := by
  rw [fieldsOf]
  cases hnormal : normal? h.name with
  | none => exact .inr ⟨_, .name (normal?_eq_none_iff.1 hnormal), rfl⟩
  | some name =>
    obtain ⟨hname, rfl⟩ := normal?_iff.1 hnormal
    dsimp only
    by_cases hown : lower h.name = contentTypeName ∨ lower h.name = contentLengthName
    · have hcarried : h.isCarried = false := decide_eq_false (not_and_or.2 (by simpa using hown))
      rw [if_pos hown, hcarried]
      exact .inl ⟨⟨hname, fun h => by simp [hcarried] at h⟩, by cases fieldsOf hs <;> rfl⟩
    · have hcarried : h.isCarried = true := decide_eq_true (not_or.1 hown)
      rw [if_neg hown, hcarried]
      cases hvalue : ofText? h.value with
      | none => exact .inr ⟨_, .value hcarried (ofText?_eq_none_iff.1 hvalue), rfl⟩
      | some value =>
        obtain ⟨hvalid, rfl⟩ := ofText?_iff.1 hvalue
        exact .inl ⟨⟨hname, fun _ => hvalid⟩, by cases fieldsOf hs <;> rfl⟩

/-- **The headers that a block takes over**, if all can be sent. -/
theorem fieldsOf_eq_ok_iff : fieldsOf hs = .ok fields ↔
    (∀ h ∈ hs, h.IsSendable) ∧ fields = (hs.filter Header.isCarried).map Header.field := by
  induction hs generalizing fields with
  | nil => simp [fieldsOf, eq_comm]
  | cons h hs ih =>
    have hfields : ((h :: hs).filter Header.isCarried).map Header.field =
        if h.isCarried then h.field :: (hs.filter Header.isCarried).map Header.field
        else (hs.filter Header.isCarried).map Header.field := by
      rw [List.filter_cons]
      split <;> rfl
    rw [List.forall_mem_cons, hfields]
    obtain ⟨hsendable, hstep⟩ | ⟨fault, hfault, hstep⟩ := fieldsOf_cons h hs
    · rw [hstep, and_iff_right hsendable]
      constructor
      · intro hread
        cases hrest : fieldsOf hs with
        | error fault =>
          rw [hrest] at hread
          cases hread
        | ok rest =>
          rw [hrest] at hread
          obtain ⟨hall, rfl⟩ := ih.1 hrest
          exact ⟨hall, (Except.ok.inj hread).symm⟩
      · rintro ⟨hall, rfl⟩
        rw [ih.2 ⟨hall, rfl⟩]
        rfl
    · rw [hstep]
      exact ⟨fun hread => (nomatch hread), fun hall => absurd hall.1.1 hfault.not_isSendable⟩

/-- **An error names a header that cannot be sent**, and says what is wrong with it. -/
theorem fault_of_fieldsOf {fault : Fault} (hread : fieldsOf hs = .error fault) :
    ∃ h ∈ hs, h.IsAtFault fault := by
  induction hs with
  | nil => cases hread
  | cons h hs ih =>
    obtain ⟨-, hstep⟩ | ⟨fault', hfault, hstep⟩ := fieldsOf_cons h hs
    · cases hrest : fieldsOf hs with
      | ok rest =>
        rw [hstep, hrest] at hread
        cases hread
      | error fault' =>
        rw [hstep, hrest] at hread
        cases hread
        obtain ⟨k, hk, hfault⟩ := ih hrest
        exact ⟨k, List.mem_cons_of_mem h hk, hfault⟩
    · cases hstep.symm.trans hread
      exact ⟨h, List.mem_cons_self .., hfault⟩

/-- A block is made of the headers that it takes over, its own content type and its own content
length. -/
theorem build_eq_ok_iff : build hs mapping? length = .ok fields ↔
    (∀ h ∈ hs, h.IsSendable) ∧ Valid (Octets.ofString (contentType mapping? hs)) = true ∧
      fields = (hs.filter Header.isCarried).map Header.field ++
        [⟨contentTypeName, Octets.ofString (contentType mapping? hs)⟩,
          ⟨contentLengthName, lengthText length⟩] := by
  unfold build
  constructor
  · intro hbuild
    split at hbuild
    · cases hbuild
    · rename_i taken htaken
      obtain ⟨hall, rfl⟩ := fieldsOf_eq_ok_iff.1 htaken
      split at hbuild
      · cases hbuild
      · rename_i value hvalue
        obtain ⟨hvalid, rfl⟩ := ofText?_iff.1 hvalue
        cases hbuild
        exact ⟨hall, hvalid, rfl⟩
  · rintro ⟨hall, hvalid, rfl⟩
    rw [fieldsOf_eq_ok_iff.2 ⟨hall, rfl⟩]
    simp only [ofText?_iff.2 ⟨hvalid, rfl⟩]

/-! ## The values of a name -/

theorem values_append (fields fields' : List HeaderField) (name : String) :
    values (fields ++ fields') name = values fields name ++ values fields' name := by
  simp [values]

theorem values_singleton (name name' : String) (value : Octets) :
    values [⟨name, value⟩] name' = if name = name' then [value] else [] := by
  by_cases hname : name = name' <;> simp [values, hname]

/-- Of the headers that are taken over, a name has the values that were configured. -/
theorem values_carried (hs : List Header) (name : String) :
    values ((hs.filter Header.isCarried).map Header.field) name =
      if name = contentTypeName ∨ name = contentLengthName then []
      else (hs.filter fun h => lower h.name = name).map fun h => Octets.ofString h.value := by
  have hcarried (h : Header) (hname : lower h.name = name) :
      h.isCarried = true ↔ ¬ (name = contentTypeName ∨ name = contentLengthName) := by
    rw [Header.isCarried, decide_eq_true_eq, hname, not_or]
  rw [values, List.filter_map, List.map_map, List.filter_filter]
  split
  · rename_i hown
    rw [List.map_eq_nil_iff, List.filter_eq_nil_iff]
    intro h _ hboth
    obtain ⟨hname, htaken⟩ := Bool.and_eq_true_iff.1 hboth
    exact (hcarried h (of_decide_eq_true hname)).1 htaken hown
  · rename_i hother
    refine congrArg _ (List.filter_congr fun h _ => ?_)
    by_cases hname : lower h.name = name
    · simp [Header.field, hname, (hcarried h hname).2 hother]
    · simp [Header.field, hname]

/-- The first header that gives a content type. -/
def typeHeader? (hs : List Header) : Option Header :=
  hs.find? fun h => lower h.name = contentTypeName

theorem contentType_eq (mapping? : Option Mapping) (hs : List Header) :
    contentType mapping? hs =
      ((typeHeader? hs).map (·.value)).getD (mapping?.getD .text).contentType := by
  have hsame (h : Header) :
      sameText h.name contentTypeName = decide (lower h.name = contentTypeName) := by
    rw [Bool.eq_iff_iff, sameText_iff, decide_eq_true_eq]
    rfl
  simp only [contentType, typeHeader?, hsame]
  cases hs.find? fun h => lower h.name = contentTypeName <;> rfl

/-- What goes with a mapping is a value. -/
theorem valid_contentType (m : Mapping) : Valid (Octets.ofString m.contentType) = true := by
  rw [Octets.ofString_eq]
  cases m <;> decide

/-- A list of headers of which no block can be made. -/
inductive Refused (hs : List Header) : Prop
  /-- There is a header whose name is none. -/
  | name (h : Header) : h ∈ hs → ¬ IsName h.name → Refused hs
  /-- The value of a header that is neither content type nor content length is none. -/
  | value (h : Header) : h ∈ hs → lower h.name ≠ contentTypeName →
    lower h.name ≠ contentLengthName → ¬ Valid (Octets.ofString h.value) = true → Refused hs
  /-- The first content type is no value. -/
  | contentType (h : Header) : typeHeader? hs = some h →
    ¬ Valid (Octets.ofString h.value) = true → Refused hs

/-- A block in which there is one content type, one content length, and of every other name what
was configured. -/
structure Serves (hs : List Header) (mapping? : Option Mapping) (length : Nat)
    (fields : List HeaderField) : Prop where
  /-- The content type is that of the first header that gives one. -/
  type_of_header : ∀ h, typeHeader? hs = some h →
    values fields contentTypeName = [Octets.ofString h.value]
  /-- If none does, then it goes with the mapping. -/
  type_of_mapping : typeHeader? hs = none → ∀ m, mapping? = some m →
    values fields contentTypeName = [Octets.ofString m.contentType]
  /-- Without a mapping the body is text. -/
  type_of_none : typeHeader? hs = none → mapping? = none →
    values fields contentTypeName = [Octets.ofString "plain/text"]
  /-- The content length is that of the body. -/
  length : values fields contentLengthName = [Octets.ofString (toString length)]
  /-- Any other name has the values that were configured under it, in their order. -/
  other : ∀ name, name ≠ contentTypeName → name ≠ contentLengthName →
    values fields name =
      (hs.filter fun h => lower h.name = name).map fun h => Octets.ofString h.value

theorem not_refused_iff (mapping? : Option Mapping) : ¬ Refused hs ↔
    (∀ h ∈ hs, h.IsSendable) ∧ Valid (Octets.ofString (contentType mapping? hs)) = true := by
  rw [contentType_eq]
  constructor
  · intro hnot
    constructor
    · intro h hmem
      refine ⟨Classical.not_not.1 fun hname => hnot (.name h hmem hname), fun hcarried => ?_⟩
      obtain ⟨htype, hlength⟩ := of_decide_eq_true hcarried
      exact Classical.not_not.1 fun hvalue => hnot (.value h hmem htype hlength hvalue)
    · cases htype : typeHeader? hs with
      | none => exact valid_contentType _
      | some h => exact Classical.not_not.1 fun hvalue => hnot (.contentType h htype hvalue)
  · rintro ⟨hall, hvalid⟩ hrefused
    cases hrefused with
    | name h hmem hname => exact hname (hall h hmem).name
    | value h hmem htype hlength hvalue =>
      exact hvalue ((hall h hmem).value (decide_eq_true ⟨htype, hlength⟩))
    | contentType h htype hvalue =>
      rw [htype] at hvalid
      exact hvalue hvalid

theorem exists_error_iff : (∃ e, build hs mapping? length = .error e) ↔ Refused hs := by
  rw [← Classical.not_not (a := Refused hs), not_refused_iff mapping?]
  constructor
  · rintro ⟨e, herror⟩ ⟨hall, hvalid⟩
    rw [build_eq_ok_iff.2 ⟨hall, hvalid, rfl⟩] at herror
    cases herror
  · intro hnot
    cases hbuild : build hs mapping? length with
    | error e => exact ⟨e, rfl⟩
    | ok fields =>
      obtain ⟨hall, hvalid, -⟩ := build_eq_ok_iff.1 hbuild
      exact absurd ⟨hall, hvalid⟩ hnot

theorem serves_of_build (hbuild : build hs mapping? length = .ok fields) :
    Serves hs mapping? length fields := by
  obtain ⟨-, -, rfl⟩ := build_eq_ok_iff.1 hbuild
  have hvalues (name : String) : values ((hs.filter Header.isCarried).map Header.field ++
      [⟨contentTypeName, Octets.ofString (contentType mapping? hs)⟩,
        ⟨contentLengthName, lengthText length⟩]) name =
      (if name = contentTypeName ∨ name = contentLengthName then []
        else (hs.filter fun h => lower h.name = name).map fun h => Octets.ofString h.value) ++
      ((if contentTypeName = name then [Octets.ofString (contentType mapping? hs)] else []) ++
        if contentLengthName = name then [lengthText length] else []) := by
    rw [values_append, values_carried, ← List.singleton_append, values_append, values_singleton,
      values_singleton]
  have htype : values _ contentTypeName = [_] :=
    (hvalues contentTypeName).trans (by rw [if_pos (.inl rfl), if_pos rfl, if_neg (by decide)]; rfl)
  constructor
  case type_of_header =>
    intro h hh
    rw [htype, contentType_eq, hh]
    rfl
  case type_of_mapping =>
    rintro hnone m rfl
    rw [htype, contentType_eq, hnone]
    rfl
  case type_of_none =>
    rintro hnone rfl
    rw [htype, contentType_eq, hnone]
    rfl
  case length =>
    rw [hvalues, if_pos (.inr rfl), if_neg (by decide), if_pos rfl]
    rfl
  case other =>
    intro name htype hlength
    rw [hvalues, if_neg (not_or.2 ⟨htype, hlength⟩), if_neg htype.symm, if_neg hlength.symm]
    exact List.append_nil _

/-! ## Room -/

/-- A quarter of the places stays free, and two headers are added. -/
theorem build?_eq_some_iff : build? hs mapping? length = some (build hs mapping? length) ↔
    hs.length ≤ 24574 := by
  have hroom : placesFor (hs.length + 2) ≤ maxPlaces ↔ hs.length ≤ 24574 := by
    rw [placesFor, maxPlaces]
    omega
  rw [build?, ← hroom]
  by_cases hplaces : placesFor (hs.length + 2) ≤ maxPlaces <;> simp [hplaces]

/-- A block is made of headers that there is room for. -/
theorem make_eq_ok_iff : make hs mapping? length = .ok fields ↔
    hs.length ≤ 24574 ∧ build hs mapping? length = .ok fields := by
  unfold make
  by_cases hroom : hs.length ≤ 24574
  · simp [build?_eq_some_iff.2 hroom, hroom]
  · have hnone : build? hs mapping? length = none := by
      by_contra hsome
      obtain ⟨result, hresult⟩ := Option.ne_none_iff_exists'.1 hsome
      have hsame : build? hs mapping? length = some (build hs mapping? length) := by
        unfold build? at hresult ⊢
        split at hresult
        · rename_i hplaces
          rw [if_pos hplaces]
        · cases hresult
      exact hroom (build?_eq_some_iff.1 hsame)
    simp [hnone, hroom]

/-- **What becomes of a list of headers that there is room for**: there is an error exactly if it is
refused, and otherwise a block that serves it. -/
theorem build_of_room (hs : List Header) (mapping? : Option Mapping) (length : Nat)
    (hroom : hs.length ≤ 24574) :
    ((∃ e, build? hs mapping? length = some (.error e)) ↔ Refused hs) ∧
      (¬ Refused hs → ∃ fields, build? hs mapping? length = some (.ok fields) ∧
        Serves hs mapping? length fields) := by
  rw [build?_eq_some_iff.2 hroom]
  simp only [Option.some.injEq]
  refine ⟨exists_error_iff, fun hserved => ?_⟩
  cases hbuild : build hs mapping? length with
  | error e => exact absurd (exists_error_iff.1 ⟨e, hbuild⟩) hserved
  | ok fields => exact ⟨fields, rfl, serves_of_build hbuild⟩

/-- Names in capitals, a name that comes twice, a second content type, and a content length that is
not that of the body; and a name with a space in it. -/
theorem build_of_room_capitals :
    ([Header.mk "X-Trace" "a", ⟨"Content-Type", "json"⟩, ⟨"x-trace", "b"⟩, ⟨"content-type", "xml"⟩,
      ⟨"CONTENT-LENGTH", "94"⟩].length ≤ 24574 ∧
    ∃ fields, build? [⟨"X-Trace", "a"⟩, ⟨"Content-Type", "json"⟩, ⟨"x-trace", "b"⟩,
        ⟨"content-type", "xml"⟩, ⟨"CONTENT-LENGTH", "94"⟩] (some .xml) 7 = some (.ok fields) ∧
      values fields "content-type" = [Octets.ofString "json"] ∧
      values fields "content-length" = [Octets.ofString "7"] ∧
      values fields "x-trace" = [Octets.ofString "a", Octets.ofString "b"]) ∧
    [Header.mk "X Trace" "a"].length ≤ 24574 ∧
      ∃ e, build? [⟨"X Trace", "a"⟩] none 7 = some (.error e) := by
  constructor
  · refine ⟨by decide, ?_⟩
    obtain ⟨fields, hbuild, hserves⟩ := (build_of_room [⟨"X-Trace", "a"⟩, ⟨"Content-Type", "json"⟩,
      ⟨"x-trace", "b"⟩, ⟨"content-type", "xml"⟩, ⟨"CONTENT-LENGTH", "94"⟩] (some .xml) 7
      (by decide)).2 ((not_refused_iff none).2 (by decide +kernel))
    exact ⟨fields, hbuild, hserves.type_of_header ⟨"Content-Type", "json"⟩ (by decide),
      hserves.length, hserves.other "x-trace" (by decide) (by decide)⟩
  · refine ⟨by decide, (build_of_room [⟨"X Trace", "a"⟩] none 7 (by decide)).1.2 ?_⟩
    exact .name _ (List.mem_cons_self ..) (by decide +kernel)

end Block

end Correlator
