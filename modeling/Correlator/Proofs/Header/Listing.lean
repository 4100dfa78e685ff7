import Correlator.Proofs.Element.Publishing
import Correlator.Proofs.Text.Blank

/-!
# Listings whose values are filled in

The values in a listing of headers may hold names of attributes. They are filled in for an event,
and only then the listing is read.

* `Listing.stretches`: the names and quotes of a listing as fixed stretches, its values as varying
  ones; `Listing.render_write`: a listing that is filled in is that of the headers whose values are.
* `Listing.Contained`: no value holds what separates two entries, or ends in the beginning of it
  where another entry follows.
* `Listing.SameEntry`: entries that agree up to a colon; `Listing.sameEntry_pieces`: two listings of
  the same names fall into such entries, if their values are contained.
* **`Listing.names_of_contained`**: then the names that are read are the same.
* `Element.headersFor`: the headers that a sink reads for an event.
* **`Element.same_names_of_contained`**: if the values are contained, then they have the same names
  for all events; `Element.names_differ_press`: values that are not may add a header.
-/

namespace Correlator

open Text

/-- A header whose value is filled in for an event. -/
def Header.filled (e : Event) (h : Header) : Header := ⟨h.name, Template.render h.value e⟩

namespace Listing

variable {e e₁ e₂ : Event} {h k : Header} {hs xs ys : List Header} {n v w cs rest p q : List Char}

/-! ## Filling in -/

/-- What separates two entries. -/
def separator : List Char := quote :: separatorTail

/-- The name of an entry is fixed, and its value varies. -/
def entryStretches (h : Header) : List Template.Stretch :=
  [.fixed (h.name.toList ++ [':']), .varying h.value.toList]

/-- Entries, with fixed separators between them. -/
def bodyStretches (hs : List Header) : List Template.Stretch :=
  [Template.Stretch.fixed separator].intercalate (hs.map entryStretches)

/-- A listing, with fixed quotes around it. -/
def stretches : List Header → List Template.Stretch
  | [] => []
  | hs => .fixed [quote] :: bodyStretches hs ++ [.fixed [quote]]

theorem flatMap_intercalate {α β : Type} (f : α → List β) (x : α) (ls : List (List α)) :
    ([x].intercalate ls).flatMap f = (f x).intercalate (ls.map (·.flatMap f)) := by
  induction ls with
  | nil => rfl
  | cons a ls ih =>
    cases ls with
    | nil => simp [List.intercalate]
    | cons b ls =>
      rw [List.intercalate_cons_cons, List.flatMap_append, List.flatMap_append, ih]
      simp

/-- The entries of a listing, with separators between them. -/
def body (hs : List Header) : List Char := separator.intercalate (hs.map writeEntry)

theorem write_cons (h : Header) (hs : List Header) :
    write (h :: hs) = quote :: body (h :: hs) ++ [quote] := rfl

/-- What becomes of a listing, if fixed stretches stay and values become something else. -/
theorem flatMap_stretches {f : Template.Stretch → List Char} {g : Header → Header}
    (hfixed : ∀ cs, f (.fixed cs) = cs)
    (hentry : ∀ h, (entryStretches h).flatMap f = writeEntry (g h)) (hs : List Header) :
    (stretches hs).flatMap f = write (hs.map g) := by
  have hbody : (bodyStretches hs).flatMap f = body (hs.map g) := by
    rw [bodyStretches, flatMap_intercalate, hfixed, List.map_map, body, List.map_map]
    exact congrArg _ (List.map_congr_left fun h _ => hentry h)
  cases hs with
  | nil => rfl
  | cons h hs =>
    rw [List.map_cons, write_cons, ← List.map_cons, ← hbody]
    simp [stretches, hfixed]

theorem chars_stretches (hs : List Header) :
    (stretches hs).flatMap Template.Stretch.chars = write hs := by
  have hentry (h : Header) : (entryStretches h).flatMap Template.Stretch.chars = writeEntry h := by
    simp [entryStretches, Template.Stretch.chars, writeEntry]
  have hall := flatMap_stretches (fun _ => rfl) hentry hs
  rwa [List.map_id'] at hall

theorem filled_stretches (hs : List Header) (e : Event) :
    (stretches hs).flatMap (Template.Stretch.filled e.metadata) =
      write (hs.map (Header.filled e)) :=
  flatMap_stretches (fun _ => rfl) (fun h => by
    simp [entryStretches, Template.Stretch.filled, writeEntry, Header.filled,
      Template.render_eq]) hs

/-- A listing that is filled in is that of the headers whose values are. -/
theorem render_write (hs : List Header) (h : Template.Confined (stretches hs)) (e : Event) :
    Template.render (String.ofList (write hs)) e =
      String.ofList (write (hs.map (Header.filled e))) := by
  rw [Template.render_eq, String.toList_ofList, ← chars_stretches, h.filled, filled_stretches]

/-! ## Reading a listing -/

theorem trim_quoted (cs : List Char) : trim (quote :: cs ++ [quote]) = quote :: cs ++ [quote] := by
  have hquote : Blank quote = false := by decide
  rw [trim, strip_append_cons hquote, List.dropWhile_cons, hquote]
  rfl

theorem unquote_quoted (cs : List Char) : unquote (quote :: cs ++ [quote]) = cs := by
  simp [unquote, quote]

/-- A listing is read entry by entry. -/
theorem read_write (hs : List Header) :
    read (String.ofList (write hs)) = readEntries (pieces quote separatorTail (body hs)) := by
  cases hs with
  | nil => rw [body, List.map_nil, pieces_of_none rfl]; rfl
  | cons h hs =>
    rw [read, String.toList_ofList, write_cons, trim_quoted, unquote_quoted]
    rfl

/-! ## Values that are contained -/

/-- No value holds what separates two entries, or ends in the beginning of it where another entry
follows. -/
def Contained : List Header → Prop
  | [] => True
  | h :: hs => ¬ separator <:+: h.value.toList ∧
      (hs ≠ [] → ¬ ['\'', ','] <:+ h.value.toList) ∧ Contained hs

/-- No separator begins in a text that neither holds one nor ends in the beginning of one that
could end there again. -/
theorem clear_separator_iff :
    Clear separator v ↔ ¬ separator <:+: v ∧ ¬ ['\'', ','] <:+ v := by
  rw [clear_iff (by simp [separator])]
  refine and_congr_right fun _ => ⟨fun h hv => ?_, fun hv a b hsplit ha hb hsuffix => ?_⟩
  · exact h ['\'', ','] ['\''] rfl (by simp) (by simp) hv ⟨[',', '\''], rfl⟩
  · -- of the separator, one character of three or two of them stand in the text
    match a, hsplit with
    | [], _ => exact absurd rfl ha
    | [x], hsplit =>
      obtain ⟨rfl, rfl⟩ : quote = x ∧ separatorTail = b := by simpa [separator] using hsplit
      decide
    | [x, y], hsplit =>
      obtain ⟨rfl, rfl, -⟩ : '\'' = x ∧ ',' = y ∧ _ := by
        simpa [separator, quote, separatorTail] using hsplit
      exact absurd hsuffix hv
    | x :: y :: z :: a, hsplit =>
      obtain ⟨-, -, -, -, rfl⟩ : '\'' = x ∧ ',' = y ∧ '\'' = z ∧ a = [] ∧ b = [] := by
        simpa [separator, quote, separatorTail] using hsplit
      exact absurd rfl hb

/-- A value that is contained ends at the separator behind it. -/
theorem pieces_append_separator (hv : ¬ separator <:+: v) (hend : ¬ ['\'', ','] <:+ v)
    (cs : List Char) :
    pieces quote separatorTail (v ++ separator ++ cs) = v :: pieces quote separatorTail cs :=
  pieces_of_some (cut?_eq_some_iff_clear.2 ⟨rfl, clear_separator_iff.2 ⟨hv, hend⟩⟩)

/-! ## Entries that agree -/

/-- Entries that agree up to a colon. -/
def SameEntry (p q : List Char) : Prop := p = q ∨ ∃ n v w, p = n ++ ':' :: v ∧ q = n ++ ':' :: w

theorem SameEntry.refl (p : List Char) : SameEntry p p := .inl rfl

theorem body_cons_cons (h k : Header) (hs : List Header) :
    body (h :: k :: hs) =
      h.name.toList ++ ':' :: (h.value.toList ++ separator ++ body (k :: hs)) := by
  simp [body, writeEntry]

theorem body_singleton (h : Header) :
    body [h] = h.name.toList ++ ':' :: h.value.toList := by
  simp [body, writeEntry]

/-- The pieces of two listings agree up to their colons, if the names are the same and the values
are contained. -/
theorem sameEntry_pieces (hnames : xs.map Header.name = ys.map Header.name)
    (hxs : Contained xs) (hys : Contained ys) :
    List.Forall₂ SameEntry (pieces quote separatorTail (body xs))
      (pieces quote separatorTail (body ys)) := by
  -- on the headers; up to its colon the first entry is its name, and it ends with its value
  induction xs generalizing ys with
  | nil =>
    obtain rfl : ys = [] := by simpa using hnames.symm
    exact List.forall₂_same.2 fun p _ => .refl p
  | cons x xs ih =>
    obtain _ | ⟨y, ys⟩ := ys
    · simp at hnames
    rw [List.map_cons, List.map_cons, List.cons.injEq] at hnames
    obtain ⟨hname, hnames⟩ := hnames
    obtain ⟨hx, hxend, hxs⟩ := hxs
    obtain ⟨hy, hyend, hys⟩ := hys
    obtain ⟨before, last, -, hall⟩ :=
      pieces_append_cons (x := quote) (m := separatorTail) (c := ':') (by decide) x.name.toList
    have hbefore : List.Forall₂ SameEntry before before := List.forall₂_same.2 fun p _ => .refl p
    have hlast (v w : List Char) : SameEntry (last ++ ':' :: v) (last ++ ':' :: w) :=
      .inr ⟨last, v, w, rfl, rfl⟩
    obtain _ | ⟨x', xs⟩ := xs
    · obtain rfl : ys = [] := by simpa using hnames.symm
      rw [body_singleton, body_singleton, ← hname,
        hall _ _ _ (pieces_of_none (cut?_eq_none_iff.2 hx)),
        hall _ _ _ (pieces_of_none (cut?_eq_none_iff.2 hy))]
      exact List.rel_append hbefore (.cons (hlast _ _) .nil)
    · obtain _ | ⟨y', ys⟩ := ys
      · simp at hnames
      rw [body_cons_cons, body_cons_cons, ← hname,
        hall _ _ _ (pieces_append_separator hx (hxend (List.cons_ne_nil _ _)) _),
        hall _ _ _ (pieces_append_separator hy (hyend (List.cons_ne_nil _ _)) _)]
      exact List.rel_append hbefore (.cons (hlast _ _) (ih hnames hxs hys))

/-! ## Names -/

theorem SameEntry.trimmed (h : SameEntry p q) : SameEntry (trim p) (trim q) := by
  obtain rfl | ⟨n, v, w, rfl, rfl⟩ := h
  · exact .refl _
  · have hcolon : Blank ':' = false := by decide
    rw [trim, trim, strip_append_cons hcolon, strip_append_cons hcolon]
    exact .inr ⟨_, _, _, rfl, rfl⟩

theorem SameEntry.isEmpty_eq (h : SameEntry p q) : p.isEmpty = q.isEmpty := by
  obtain rfl | ⟨n, v, w, rfl, rfl⟩ := h
  · rfl
  · cases n <;> rfl

/-- Where a text is cut at a character does not depend on what follows the character. -/
theorem exists_cut?_append_cons (c : Char) (n : List Char) :
    ∃ a, ∀ v, ∃ b, cut? [c] (n ++ c :: v) = some (a, b) := by
  induction n with
  | nil => exact ⟨[], fun v => ⟨v, cut?_lead (by simp) v⟩⟩
  | cons d n ih =>
    by_cases hd : c = d
    · subst hd
      exact ⟨[], fun v => ⟨n ++ c :: v, cut?_lead (by simp) _⟩⟩
    · obtain ⟨a, ha⟩ := ih
      refine ⟨d :: a, fun v => ?_⟩
      obtain ⟨b, hb⟩ := ha v
      exact ⟨b, by rw [List.cons_append, cut?_cons (by simp [hd]), hb]; rfl⟩

/-- Entries that agree up to a colon have the same name, or neither is a header. -/
theorem SameEntry.map_name (h : SameEntry p q) :
    ( entry? p).map Header.name = ( entry? q).map Header.name := by
  obtain rfl | ⟨n, v, w, rfl, rfl⟩ := h
  · rfl
  · obtain ⟨a, ha⟩ := exists_cut?_append_cons ':' n
    obtain ⟨b, hv⟩ := ha v
    obtain ⟨b', hw⟩ := ha w
    simp only [hv, hw, entry?]
    split <;> rfl

/-- An entry that is a header is read in front of the others. -/
theorem readEntries_cons {ps : List (List Char)} (h : entry? (trim p) = some k)
    (hne : ¬ (trim p).isEmpty) : readEntries (p :: ps) = (readEntries ps).map (k :: ·) := by
  rw [readEntries, if_neg hne, h]
  cases readEntries ps <;> rfl

/-- **The names that are read depend on the entries up to their colons only**, and so does whether
there are any. -/
theorem names_readEntries {ps qs : List (List Char)} (h : List.Forall₂ SameEntry ps qs) :
    (readEntries ps).toOption.map (List.map Header.name) =
      (readEntries qs).toOption.map (List.map Header.name) := by
  induction h with
  | nil => rfl
  | @cons p q ps qs hpq hrest ih =>
    have hname := hpq.trimmed.map_name
    have hempty := hpq.trimmed.isEmpty_eq
    by_cases hp : (trim p).isEmpty
    · rw [readEntries, readEntries, if_pos hp, if_pos (hempty ▸ hp)]
      exact ih
    · have hq : ¬ (trim q).isEmpty := hempty ▸ hp
      cases hentry : entry? (trim p) with
      | none =>
        rw [hentry, Option.map_none, eq_comm, Option.map_eq_none_iff] at hname
        rw [readEntries, readEntries, if_neg hp, if_neg hq, hentry, hname]
        rfl
      | some h =>
        rw [hentry, Option.map_some, eq_comm, Option.map_eq_some_iff] at hname
        obtain ⟨k, hk, hname⟩ := hname
        rw [readEntries_cons hentry hp, readEntries_cons hk hq]
        have hcons (h : Header) (x : Except Fault (List Header)) :
            (x.map (h :: ·)).toOption.map (List.map Header.name) =
              (x.toOption.map (List.map Header.name)).map (h.name :: ·) := by
          cases x <;> rfl
        rw [hcons, hcons, ih, hname]

/-- **Values that are contained leave the names alone.** If the values in a listing are filled in
for two events, and in neither of them hold what separates entries, then the same names are read,
or nothing can be read for either event. -/
theorem names_of_contained (h : Template.Confined (stretches hs))
    (h₁ : Contained (hs.map (Header.filled e₁))) (h₂ : Contained (hs.map (Header.filled e₂))) :
    (read (Template.render (String.ofList (write hs)) e₁)).toOption.map (List.map Header.name) =
      (read (Template.render (String.ofList (write hs)) e₂)).toOption.map
        (List.map Header.name) := by
  have hnames : (hs.map (Header.filled e₁)).map Header.name =
      (hs.map (Header.filled e₂)).map Header.name := by
    simp [Function.comp_def, Header.filled]
  rw [render_write hs h, render_write hs h, read_write, read_write]
  exact names_readEntries (sameEntry_pieces hnames h₁ h₂)

end Listing

/-! ## The headers of an event -/

/-- The listing of headers that is configured of a sink. -/
def ElementConfig.listing? : ElementConfig → Option String
  | .requestSink c => some c.headers
  | .responseSink c => some c.headers
  | .requestSource _ => none
  | .responseSource _ => none

/-- The headers that a sink reads for an event. -/
def RequestSink.headersFor (s : RequestSink) (e : Event) : Except Fault (List Header) :=
  readFor Listing.read s.headers? s.config.headers e

/-- A request has the headers that were read, in the form in which they are sent. -/
theorem RequestSink.request_eq (s : RequestSink) (e : Event) :
    s.request e = do
      let url ← readFor readUrl s.url? s.config.url e
      let headers ← s.headersFor e
      let body := Octets.ofString e.payload
      let fields ← Block.make headers s.config.mapping? body.length
      return ⟨s.method, url, fields, body⟩ := rfl

/-- The headers that a sink reads for an event. -/
def ResponseSink.headersFor (s : ResponseSink) (e : Event) : Except Fault (List Header) :=
  readFor Listing.read s.headers? s.config.headers e

/-- A reply has the headers that were read, in the form in which they are sent. -/
theorem ResponseSink.reply?_eq (s : ResponseSink) (e : Event) :
    s.reply? e = do
      let id := Template.render s.config.messageId e
      if id.isEmpty then return none
      let headers ← s.headersFor e
      let body := Octets.ofString e.payload
      let fields ← Block.make headers s.config.mapping? body.length
      return some (id, ⟨s.config.status, fields, body⟩) := rfl

namespace Element

variable {c : ElementConfig} {consumer : Consumer} {direct : Bool} {el : Element} {listing : String}
  {hs xs ys : List Header} {e e₁ e₂ : Event}

/-- The headers that an element reads for an event, if it is a sink. -/
def headersFor (el : Element) (e : Event) : Except Fault (List Header) :=
  match el.part with
  | .requestSink s => s.headersFor e
  | .responseSink s => s.headersFor e
  | .requestSource _ _ => .error el.takesNoEvents
  | .responseSource _ _ => .error el.takesNoEvents

/-- The headers for an event are those of the listing that is filled in for it. -/
theorem headersFor_eq (hel : ofConfig c consumer direct = .ok el)
    (hlisting : c.listing? = some listing) (e : Event) :
    el.headersFor e = Listing.read (Template.render listing e) := by
  cases c with
  | requestSink c =>
    obtain ⟨s, hs, rfl⟩ := exists_of_map_eq_ok hel
    obtain rfl := Option.some.inj hlisting
    obtain ⟨rfl, -⟩ := RequestSink.sound_of_ofConfig hs
    exact readFor_of_readStatic (RequestSink.reads_of_ofConfig hs).2.2.2 e
  | responseSink c =>
    obtain ⟨s, hs, rfl⟩ := exists_of_map_eq_ok hel
    obtain rfl := Option.some.inj hlisting
    obtain ⟨rfl, -⟩ := ResponseSink.sound_of_ofConfig hs
    exact readFor_of_readStatic (ResponseSink.reads_of_ofConfig hs).2 e
  | requestSource c => cases hlisting
  | responseSource c => cases hlisting

/-- **An event that keeps to its values changes values only.** Where a listing has names of
attributes in its values only, the headers that are read for two events have the same names in the
same order, if for neither of them a value holds what separates two entries, or ends in the
beginning of it where another entry follows. -/
theorem same_names_of_contained (hel : ofConfig c consumer direct = .ok el)
    (hlisting : c.listing? = some (String.ofList (Listing.write hs)))
    (hconfined : Template.Confined (Listing.stretches hs))
    (h₁ : el.headersFor e₁ = .ok xs) (h₂ : el.headersFor e₂ = .ok ys)
    (hcontained₁ : Listing.Contained (hs.map (Header.filled e₁)))
    (hcontained₂ : Listing.Contained (hs.map (Header.filled e₂))) :
    xs.length = ys.length ∧ xs.map Header.name = ys.map Header.name := by
  have hnames := Listing.names_of_contained hconfined hcontained₁ hcontained₂
  rw [← headersFor_eq hel hlisting, ← headersFor_eq hel hlisting, h₁, h₂] at hnames
  have hnames : xs.map Header.name = ys.map Header.name := Option.some.inj hnames
  exact ⟨by simpa using congrArg List.length hnames, hnames⟩

/-- The header of the press, whose value is the trace of the event. -/
def pressHeader : Header := ⟨"x-trace", "\x7b\x7btrace\x7d\x7d"⟩

/-- A press that also says by whom an event was passed on. -/
def relay : RequestSinkConfig :=
  { press with headers := "'x-trace:\x7b\x7btrace\x7d\x7d','x-via:\x7b\x7bvia\x7d\x7d'" }

/-- The headers of the relay. -/
def relayHeaders : List Header := [pressHeader, ⟨"x-via", "\x7b\x7bvia\x7d\x7d"⟩]

/-- An event with a trace, passed on by someone. -/
def passed (trace via : String) : Event :=
  ⟨"x", Metadata.ofPairs [("trace", .str trace), ("via", .str via)]⟩

/-- The relay lists two headers, and the names in the listing are confined to their values. -/
theorem confined_relay : relay.headers = String.ofList (Listing.write relayHeaders) ∧
    Template.Confined (Listing.stretches relayHeaders) := by
  refine ⟨by decide, fun i j hij => ?_⟩
  have hspans : Template.spans ((Listing.stretches relayHeaders).flatMap
      Template.Stretch.chars) = [(9, 18), (27, 34)] := by
    decide +kernel
  rw [hspans, List.mem_cons, List.mem_singleton, Prod.mk.injEq, Prod.mk.injEq] at hij
  obtain ⟨rfl, rfl⟩ | ⟨rfl, rfl⟩ := hij
  · exact ⟨[.fixed [Listing.quote], .fixed "x-trace:".toList], pressHeader.value.toList,
      [.fixed Listing.separator, .fixed "x-via:".toList,
        .varying "\x7b\x7bvia\x7d\x7d".toList, .fixed [Listing.quote]],
      rfl, by decide, by decide⟩
  · exact ⟨[.fixed [Listing.quote], .fixed "x-trace:".toList, .varying pressHeader.value.toList,
        .fixed Listing.separator, .fixed "x-via:".toList],
      "\x7b\x7bvia\x7d\x7d".toList, [.fixed [Listing.quote]], rfl, by decide, by decide⟩

/-- Quotes and commas within a value leave the names as they are, and the last value may even end in
a quote and a comma. -/
theorem same_names_of_contained_relay :
    ∃ el xs ys, ofConfig (.requestSink relay) (.steady "press") false = .ok el ∧
      el.headersFor (passed "t-1" "desk") = .ok xs ∧
      el.headersFor (passed "it's',2" "desk',") = .ok ys ∧
      xs ≠ ys ∧ xs.length = ys.length ∧ xs.map Header.name = ys.map Header.name := by
  obtain ⟨el, hel⟩ := exists_of_isOk (x := ofConfig (.requestSink relay) (.steady "press") false)
    (by decide +kernel)
  obtain ⟨hheaders, hconfined⟩ := confined_relay
  have h₁ : el.headersFor (passed "t-1" "desk") =
      .ok [⟨"x-trace", "t-1"⟩, ⟨"x-via", "desk"⟩] := by
    rw [headersFor_eq hel rfl]
    decide +kernel
  have h₂ : el.headersFor (passed "it's',2" "desk',") =
      .ok [⟨"x-trace", "it's',2"⟩, ⟨"x-via", "desk',"⟩] := by
    rw [headersFor_eq hel rfl]
    decide +kernel
  have hcontained₁ : Listing.Contained (relayHeaders.map (Header.filled (passed "t-1" "desk"))) :=
    ⟨by decide +kernel, fun _ => by decide +kernel, by decide +kernel, fun h => absurd rfl h,
      trivial⟩
  have hcontained₂ :
      Listing.Contained (relayHeaders.map (Header.filled (passed "it's',2" "desk',"))) :=
    ⟨by decide +kernel, fun _ => by decide +kernel, by decide +kernel, fun h => absurd rfl h,
      trivial⟩
  have hsame := same_names_of_contained hel (congrArg some hheaders) hconfined h₁ h₂ hcontained₁
    hcontained₂
  exact ⟨el, _, _, hel, h₁, h₂, by decide, hsame⟩

/-- The press lists one header, and the names in the listing are confined to its value. -/
theorem confined_press : press.headers = String.ofList (Listing.write [pressHeader]) ∧
    Template.Confined (Listing.stretches [pressHeader]) := by
  refine ⟨by decide, fun i j hij => ?_⟩
  have hspans : Template.spans ((Listing.stretches [pressHeader]).flatMap
      Template.Stretch.chars) = [(9, 18)] := by
    decide +kernel
  rw [hspans, List.mem_singleton, Prod.mk.injEq] at hij
  obtain ⟨rfl, rfl⟩ := hij
  exact ⟨[.fixed [Listing.quote], .fixed "x-trace:".toList], pressHeader.value.toList,
    [.fixed [Listing.quote]], rfl, by decide, by decide⟩

/-- A trace that holds what separates entries adds a header. -/
theorem names_differ_press :
    ∃ el xs ys, ofConfig (.requestSink press) (.steady "press") false = .ok el ∧
      press.headers = String.ofList (Listing.write [pressHeader]) ∧
      Template.Confined (Listing.stretches [pressHeader]) ∧
      el.headersFor (traced "t-1") = .ok xs ∧
      el.headersFor (traced "a','x-admin:yes") = .ok ys ∧
      xs.map Header.name = ["x-trace"] ∧ ys.map Header.name = ["x-trace", "x-admin"] := by
  obtain ⟨el, hel⟩ := exists_of_isOk (x := ofConfig (.requestSink press) (.steady "press") false)
    (by decide +kernel)
  have h₁ : el.headersFor (traced "t-1") = .ok [⟨"x-trace", "t-1"⟩] := by
    rw [headersFor_eq hel rfl]
    decide +kernel
  have h₂ : el.headersFor (traced "a','x-admin:yes") =
      .ok [⟨"x-trace", "a"⟩, ⟨"x-admin", "yes"⟩] := by
    rw [headersFor_eq hel rfl]
    decide +kernel
  exact ⟨el, _, _, hel, confined_press.1, confined_press.2, h₁, h₂, rfl, rfl⟩

end Element

end Correlator
