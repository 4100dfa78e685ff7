import Correlator.Proofs.Event.Metadata

/-!
# Sequences of edits to metadata

The attributes of an event are made anew (`Metadata.ofDeclared`, `Metadata.project`) or written one
after the other (`Metadata.insert`, `Metadata.withEndpoint`, `Metadata.withDownloadPath`). What they
are in the end is told by what was written since they were last made anew.

* `Metadata.Edit`, `Metadata.edited`: what can be done to attributes, and a sequence of it.
* `Metadata.Edit.record`, `Metadata.history`: what was written, the oldest first.
* `Metadata.Tells`: the names are those that were written, each at its first place, and the value of
  each is the last. Writing preserves it (`Metadata.Tells.insertAll`), and so does every edit
  (`Metadata.Tells.apply`).
* `Metadata.project_project_self`, `Metadata.get?_project_project`: attributes of attributes with
  given names.
* **`Metadata.edited_lawful`**: the laws of every sequence of edits, and those of projections.
-/

namespace Correlator

namespace Metadata

variable {m m' : Metadata} {name : String} {log pairs : List (String × Json)}

/-! ## Edits -/

/-- One thing that is done to attributes. -/
inductive Edit where
  | declare (names : List String) (values : List Json)
  | insert (name : String) (value : Json)
  | endpoint (e : Endpoint)
  | downloadPath (path : String)
  | project (names : List String)

/-- The attributes after one edit. -/
def apply (m : Metadata) : Edit → Metadata
  | .declare names values => ofDeclared names values
  | .insert name value => m.insert name value
  | .endpoint e => m.withEndpoint e
  | .downloadPath path => m.withDownloadPath path
  | .project names => m.project names

/-- The attributes after a sequence of edits, from none at all. -/
def edited (edits : List Edit) : Metadata := edits.foldl apply empty

/-- The edits that leave nothing of what was there in its place. -/
def Edit.MakesAnew : Edit → Prop
  | .declare .. | .project _ => True
  | .insert .. | .endpoint _ | .downloadPath _ => False

/-! ## What was written -/

/-- The value that was written last under a name. -/
def lastWritten (log : List (String × Json)) (name : String) : Option Json :=
  log.reverse.lookup name

/-- What is known to be written after one edit: an edit that makes the attributes anew writes all of
them, and of what came before nothing else counts. -/
def Edit.record (log : List (String × Json)) : Edit → List (String × Json)
  | .declare names values => names.mapIdx fun i name => (name, values[i]?.getD .null)
  | .insert name value => log ++ [(name, value)]
  | .endpoint e => log ++ endpointFields e
  | .downloadPath path => log ++ [(downloadPathName, .str path)]
  | .project names => names.map fun name => (name, (lastWritten log name).getD .null)

/-- All that was written since the attributes were last made anew. -/
def history (edits : List Edit) : List (String × Json) := edits.foldl Edit.record []

/-! ## What the attributes tell of it -/

/-- No name occurs twice; the names are those that were written, in the order of their first
writing, and the value of each is the last that was written. -/
structure Tells (m : Metadata) (log : List (String × Json)) : Prop where
  nodup : m.names.Nodup
  names_eq : m.names = (log.map (·.1)).eraseDups
  get?_eq : ∀ name, m.get? name = lastWritten log name

theorem tells_empty : Tells empty [] := ⟨List.nodup_nil, rfl, fun _ => rfl⟩

theorem lastWritten_append (log pairs : List (String × Json)) (name : String) :
    lastWritten (log ++ pairs) name = (lastWritten pairs name).or (lastWritten log name) := by
  rw [lastWritten, List.reverse_append, List.lookup_append]
  rfl

/-- The last value that was set, or else the value from before. -/
theorem get?_insertAll (m : Metadata) (pairs : List (String × Json)) (name : String) :
    (m.insertAll pairs).get? name = (lastWritten pairs name).or (m.get? name) := by
  induction pairs generalizing m with
  | nil => rfl
  | cons pair pairs ih =>
    obtain ⟨n, v⟩ := pair
    have hcons : lastWritten ((n, v) :: pairs) name =
        (lastWritten pairs name).or (if name = n then some v else none) := by
      rw [← List.singleton_append, lastWritten_append, lastWritten, lastWritten,
        List.reverse_singleton, lookup_cons_eq]
      rfl
    rw [insertAll_cons, ih, get?_insert, hcons, Option.or_assoc]
    by_cases hn : name = n
    · rw [if_pos hn, if_pos hn, Option.some_or]
    · rw [if_neg hn, if_neg hn, Option.none_or]

theorem nodup_insertAll (h : m.names.Nodup) (pairs : List (String × Json)) :
    (m.insertAll pairs).names.Nodup := by
  induction pairs generalizing m with
  | nil => exact h
  | cons pair pairs ih =>
    obtain ⟨n, v⟩ := pair
    rw [insertAll_cons]
    apply ih
    rw [names_insert]
    split
    · exact h
    · next hn =>
      rw [← List.concat_eq_append]
      exact h.concat hn

/-- Writing goes on from what was written before. -/
theorem Tells.insertAll (h : Tells m log) (pairs : List (String × Json)) :
    Tells (m.insertAll pairs) (log ++ pairs) where
  nodup := nodup_insertAll h.nodup pairs
  names_eq := by
    have hmem : ∀ name, name ∈ m.names ↔ name ∈ log.map (·.1) := fun name => by
      rw [h.names_eq, List.mem_eraseDups]
    have hfilter : (pairs.map (·.1)).filter (fun name => name ∉ m.names) =
        (pairs.map (·.1)).removeAll (log.map (·.1)) :=
      List.filter_congr fun name _ => by simp [hmem]
    rw [names_insertAll, hfilter, h.names_eq, List.map_append, List.eraseDups_append]
  get?_eq name := by
    rw [get?_insertAll, h.get?_eq, lastWritten_append]

theorem tells_ofPairs (pairs : List (String × Json)) : Tells (ofPairs pairs) pairs :=
  tells_empty.insertAll pairs

/-- Names are paired with the values at the same positions. -/
theorem ofDeclared_eq (names : List String) (values : List Json) :
    ofDeclared names values =
      ofPairs (names.mapIdx fun i name => (name, values[i]?.getD .null)) := by
  suffices h : ∀ m : Metadata, ofDeclared.go m names values =
      m.insertAll (names.mapIdx fun i name => (name, values[i]?.getD .null)) from h empty
  induction names generalizing values with
  | nil => exact fun m => rfl
  | cons name names ih =>
    intro m
    cases values with
    | nil => simpa [ofDeclared.go, List.mapIdx_cons, insertAll_cons] using ih [] _
    | cons v vs => simpa [ofDeclared.go, List.mapIdx_cons, insertAll_cons] using ih vs _

/-- **One edit.** -/
theorem Tells.apply (h : Tells m log) (e : Edit) : Tells (m.apply e) (e.record log) := by
  cases e with
  | declare names values =>
    have hnew := tells_ofPairs (names.mapIdx fun i name => (name, values[i]?.getD .null))
    rwa [← ofDeclared_eq] at hnew
  | insert name value => exact h.insertAll [(name, value)]
  | endpoint e => exact h.insertAll (endpointFields e)
  | downloadPath path => exact h.insertAll [(downloadPathName, .str path)]
  | project names =>
    have hvalues : (names.map fun name => (name, (m.get? name).getD .null)) =
        names.map fun name => (name, (lastWritten log name).getD .null) := by
      simp only [h.get?_eq]
    have hnew : m.project names =
        ofPairs (names.map fun name => (name, (lastWritten log name).getD .null)) :=
      congrArg ofPairs hvalues
    rw [Metadata.apply, hnew]
    exact tells_ofPairs _

/-- Every sequence of edits, after any that came before. -/
theorem Tells.foldl (h : Tells m log) (edits : List Edit) :
    Tells (edits.foldl Metadata.apply m) (edits.foldl Edit.record log) := by
  induction edits generalizing m log with
  | nil => exact h
  | cons e edits ih => exact ih (h.apply e)

theorem tells_edited (edits : List Edit) : Tells (edited edits) (history edits) :=
  tells_empty.foldl edits

/-! ## Places that are kept -/

theorem names_prefix_insertAll (m : Metadata) (pairs : List (String × Json)) :
    m.names <+: (m.insertAll pairs).names := by
  rw [names_insertAll]
  exact List.prefix_append _ _

/-- An edit that does not make the attributes anew leaves every name where it is. -/
theorem names_prefix_apply (m : Metadata) {e : Edit} (he : ¬ e.MakesAnew) :
    m.names <+: (m.apply e).names := by
  cases e with
  | declare names values => exact absurd trivial he
  | insert name value => exact names_prefix_insertAll m [(name, value)]
  | endpoint e => exact names_prefix_insertAll m (endpointFields e)
  | downloadPath path => exact names_prefix_insertAll m [(downloadPathName, .str path)]
  | project names => exact absurd trivial he

/-- The same for any number of them. -/
theorem names_prefix_foldl {edits : List Edit} (hedits : ∀ e ∈ edits, ¬ e.MakesAnew)
    (m : Metadata) : m.names <+: (edits.foldl apply m).names := by
  induction edits generalizing m with
  | nil => exact List.prefix_rfl
  | cons e edits ih =>
    obtain ⟨he, hrest⟩ := List.forall_mem_cons.1 hedits
    exact (names_prefix_apply m he).trans (ih hrest _)

/-! ## Projections -/

/-- Attributes are their names with the value of each, if no name occurs twice. -/
theorem entries_eq_map (h : m.names.Nodup) :
    m.entries = m.names.map fun name => (name, (m.get? name).getD .null) := by
  obtain ⟨entries⟩ := m
  induction entries with
  | nil => rfl
  | cons entry entries ih =>
    obtain ⟨n, v⟩ := entry
    obtain ⟨hn, hrest⟩ := List.nodup_cons.1 h
    have hother : ∀ name ∈ entries.map (·.1),
        ((n, v) :: entries).lookup name = entries.lookup name := fun name hname => by
      have hne : name ≠ n := fun e => hn (e ▸ hname)
      rw [lookup_cons_eq, if_neg hne]
    have htail := ih hrest
    simp only [names, get?, List.map_cons, List.lookup_cons_self, Option.getD_some] at htail ⊢
    conv_lhs => rw [htail]
    congr 1
    exact List.map_congr_left fun name hname => by rw [hother name hname]

/-- Two of them with the same names, in one order and none twice, and the same values are one. -/
theorem eq_of_get?_eq (h : m.names.Nodup) (hnames : m.names = m'.names)
    (hget : ∀ name, m.get? name = m'.get? name) : m = m' := by
  have hentries : m.entries = m'.entries := by
    rw [entries_eq_map h, entries_eq_map (hnames ▸ h), hnames]
    simp only [hget]
  obtain ⟨entries⟩ := m
  obtain ⟨entries'⟩ := m'
  exact congrArg Metadata.mk hentries

/-- What is asked for after a projection has its value if the projection kept it, and is `null`
otherwise. -/
theorem get?_project_project (m : Metadata) (names names' : List String) (name : String) :
    ((m.project names).project names').get? name =
      if name ∈ names' then
        if name ∈ names then (m.project names').get? name else some .null
      else none := by
  rw [get?_project, get?_project, get?_project]
  by_cases h' : name ∈ names'
  · by_cases h : name ∈ names
    · simp [h, h']
    · simp [h, h']
  · simp [h']

/-- To project onto the same names once more changes nothing. -/
theorem project_project_self (m : Metadata) (names : List String) :
    (m.project names).project names = m.project names := by
  have hnames : ((m.project names).project names).names = (m.project names).names := by
    rw [names_project, names_project]
  have hnodup : ((m.project names).project names).names.Nodup := (tells_ofPairs _).nodup
  refine eq_of_get?_eq hnodup hnames fun name => ?_
  rw [get?_project_project]
  by_cases h : name ∈ names
  · rw [if_pos h, if_pos h]
  · rw [if_neg h, get?_project, if_neg h]

/-! ## All of it -/

/-- **What a sequence of edits leaves.** No name occurs twice; the names stand in the order in which
they were first written since the attributes were last made anew, and stay in their places until
that happens again; the value of each is the last that was written.

**What a projection leaves.** The names that were asked for, in order and without repetitions, each
with its value or `null`; the same projection once more changes nothing; another one gives what it
would have given at once for the names that are left, and `null` for the others. -/
theorem edited_lawful :
    (∀ edits : List Edit,
      (edited edits).names.Nodup ∧
      (edited edits).names = ((history edits).map (·.1)).eraseDups ∧
      (∀ name, (edited edits).get? name = lastWritten (history edits) name) ∧
      ∀ more : List Edit, (∀ e ∈ more, ¬ e.MakesAnew) →
        (edited edits).names <+: (edited (edits ++ more)).names) ∧
    ∀ (m : Metadata) (names names' : List String),
      ((m.project names).names = names.eraseDups ∧
        ∀ name ∈ names, (m.project names).get? name = some ((m.get? name).getD .null)) ∧
      (m.project names).project names = m.project names ∧
      ((m.project names).project names').names = (m.project names').names ∧
      ∀ name ∈ names',
        (name ∈ names →
          ((m.project names).project names').get? name = (m.project names').get? name) ∧
        (name ∉ names → ((m.project names).project names').get? name = some .null) := by
  refine ⟨fun edits => ?_, fun m names names' => ⟨⟨names_project m names, ?_⟩,
    project_project_self m names, ?_, ?_⟩⟩
  · have htells := tells_edited edits
    refine ⟨htells.nodup, htells.names_eq, htells.get?_eq, fun more hmore => ?_⟩
    rw [edited, edited, List.foldl_append]
    exact names_prefix_foldl hmore _
  · intro name hname
    rw [get?_project, if_pos hname]
  · rw [names_project, names_project]
  · intro name hname'
    constructor
    · intro hname
      rw [get?_project_project, if_pos hname', if_pos hname]
    · intro hname
      rw [get?_project_project, if_pos hname', if_neg hname]

/-- Two declared attributes of which the second has no value yet. -/
def quoted : List Edit := [.declare ["symbol", "price"] [.str "WSO2"]]

/-- A price that comes later stands where its name does already. Once a projection has dropped it,
the next one has `null` for it. -/
theorem edited_lawful_quoted :
    (∀ e ∈ [Edit.insert "price" (.int 5)], ¬ e.MakesAnew) ∧
      (edited quoted).names = ["symbol", "price"] ∧
      (edited quoted).names <+: (edited (quoted ++ [.insert "price" (.int 5)])).names ∧
      (edited (quoted ++ [.insert "price" (.int 5)])).get? "price" = some (.int 5) ∧
      (((edited quoted).project ["symbol"]).project ["price", "symbol"]).get? "price" =
        some .null ∧
      (((edited quoted).project ["symbol"]).project ["price", "symbol"]).get? "symbol" =
        some (.str "WSO2") := by
  have hlater : ∀ e ∈ [Edit.insert "price" (.int 5)], ¬ e.MakesAnew := by simp [Edit.MakesAnew]
  obtain ⟨hedits, hprojections⟩ := edited_lawful
  obtain ⟨-, hnames, hget, hplaces⟩ := hedits quoted
  obtain ⟨-, -, -, hagain⟩ := hprojections (edited quoted) ["symbol"] ["price", "symbol"]
  obtain ⟨-, -, hpaid, -⟩ := hedits (quoted ++ [.insert "price" (.int 5)])
  refine ⟨hlater, by rw [hnames]; rfl, hplaces _ hlater, by rw [hpaid]; rfl,
    (hagain "price" (by decide)).2 (by decide), ?_⟩
  rw [(hagain "symbol" (by decide)).1 (by decide), get?_project, if_pos (by decide), hget]
  rfl

end Metadata

end Correlator
