import Correlator.Proofs.Event.Edits
import Correlator.Proofs.Json.Reading

/-!
# The written form of metadata

Attributes are written as one object, in their order, and read back from it. Their names may be any
texts; their values are plain, so that no double has to be read back from its digits.

* `Metadata.insertAll_of_nodup`: attributes with new names stand as they were set.
* `Metadata.readEntries_write`: the entries that a text begins with.
* `Metadata.Plain`: attributes of which no name occurs twice, with plain values;
  `Metadata.Plain.insertAll`: those that come of setting plain values are such.
* **`Metadata.parse?_render`**: they are read back as they were, so that no two have one text.
-/

namespace Correlator.Metadata

open Json

variable {m : Metadata} {depth : Nat} {name : String} {value : Json}
  {entries pairs : List (String × Json)}

/-! ## New names -/

theorem put_of_notMem (h : name ∉ entries.map (·.1)) :
    put name value entries = entries ++ [(name, value)] := by
  induction entries with
  | nil => rfl
  | cons entry entries ih =>
    obtain ⟨n, v⟩ := entry
    obtain ⟨hne, hrest⟩ := not_or.1 (mt List.mem_cons.2 h)
    rw [put, if_neg (Ne.symm hne), ih hrest, List.cons_append]

/-- Attributes whose names are new and differ go to the end as they are. -/
theorem insertAll_of_nodup (h : (m.names ++ pairs.map (·.1)).Nodup) :
    m.insertAll pairs = ⟨m.entries ++ pairs⟩ := by
  induction pairs generalizing m with
  | nil => rw [List.append_nil]; rfl
  | cons pair pairs ih =>
    obtain ⟨name, value⟩ := pair
    have hnew : name ∉ m.entries.map (·.1) := fun hmem =>
      List.disjoint_of_nodup_append h hmem List.mem_cons_self
    have hput : m.insert name value = ⟨m.entries ++ [(name, value)]⟩ :=
      congrArg Metadata.mk (put_of_notMem hnew)
    have hnext : ((m.insert name value).names ++ pairs.map (·.1)).Nodup := by
      rw [hput]
      simpa [names] using h
    refine (ih hnext).trans ?_
    rw [hput, List.append_assoc, List.singleton_append]

/-! ## Reading -/

/-- **Entries are read back** from the object that they are written as, in any order of their
names. -/
theorem readEntries_write (hnodup : m.names.Nodup)
    (h : ∀ entry ∈ m.entries, Reads depth entry.2) (rest : List Char) :
    readEntries (depth + 1) (write (.obj m.entries) ++ rest) = some (m, rest) := by
  have hmake : Metadata.ofPairs m.entries = m := insertAll_of_nodup hnodup
  obtain ⟨entries⟩ := m
  cases entries with
  | nil => rfl
  | cons entry entries =>
    obtain ⟨k, j⟩ := entry
    have hshape : write (.obj ((k, j) :: entries)) ++ rest =
        '\x7b' :: (writeText k ++ ':' :: (write j ++ (writeFields entries ++ rest))) := by
      simp [write]
    have hfuel : (write j).length + (writeFields entries).length ≤
        allowance (writeText k ++ ':' :: (write j ++ (writeFields entries ++ rest))) := by
      simp only [allowance, List.length_append, List.length_cons]
      omega
    have hread := congrArg (Option.map fun read => (Metadata.ofPairs read.1, read.2))
      (readFields_write h hfuel rest)
    rw [writeText_append] at hread hshape
    rw [hshape]
    refine hread.trans ?_
    exact congrArg (fun m => some (m, rest)) hmake

/-- Attributes of which no name occurs twice, and whose values have no doubles and are nested at
most so deep. -/
structure Plain (depth : Nat) (m : Metadata) : Prop where
  nodup : m.names.Nodup
  values : ∀ entry ∈ m.entries, entry.2.Plain depth

theorem mem_put {entry : String × Json} (h : entry ∈ put name value entries) :
    entry = (name, value) ∨ entry ∈ entries := by
  induction entries with
  | nil => exact .inl (List.mem_singleton.1 h)
  | cons entry' entries ih =>
    obtain ⟨n, v⟩ := entry'
    rw [put] at h
    split at h
    · next heq => exact heq ▸ (List.mem_cons.1 h).imp_right (List.mem_cons_of_mem _)
    · rcases List.mem_cons.1 h with rfl | h
      · exact .inr List.mem_cons_self
      · exact (ih h).imp_right (List.mem_cons_of_mem _)

/-- Plain attributes are plain still once plain values were set, whatever the names. -/
theorem Plain.insertAll (hm : m.Plain depth) (h : ∀ pair ∈ pairs, pair.2.Plain depth) :
    (m.insertAll pairs).Plain depth := by
  refine ⟨nodup_insertAll hm.nodup pairs, ?_⟩
  induction pairs generalizing m with
  | nil => exact hm.values
  | cons pair pairs ih =>
    obtain ⟨name, value⟩ := pair
    obtain ⟨hvalue, hrest⟩ := List.forall_mem_cons.1 h
    rw [insertAll_cons]
    refine ih ⟨nodup_insertAll hm.nodup [(name, value)], fun entry hentry => ?_⟩ hrest
    rcases mem_put hentry with rfl | hentry
    · exact hvalue
    · exact hm.values entry hentry

/-- What a text that begins as an object stands for. -/
theorem parse?_of_form {s : String} {cs : List Char} (hs : s.toList = '\x7b' :: '"' :: cs) :
    parse? s =
      match readForm none (cs.length + 2) ('"' :: cs) with
      | some (m, rest) => if (skipBlanks rest).isEmpty then some m else none
      | none => none := by
  rw [parse?, hs]
  rfl

/-- **The written form of plain attributes is read back**: the same names in the same order, with
the same values, which may be nested 125 deep. So no two have one written form. -/
theorem parse?_render (hdepth : depth ≤ maxDepth - 2) (h : m.Plain depth) :
    parse? m.render = some m ∧
      ∀ m' : Metadata, m'.Plain depth → m'.render = m.render → m' = m := by
  have hparse {m : Metadata} (h : m.Plain depth) : parse? m.render = some m := by
    have hentries := readEntries_write h.nodup
      (fun entry hentry => ((h.values entry hentry).mono hdepth).reads) ['\x7d']
    have hform (fuel : Nat) : readForm none (fuel + 1)
        (writeText entriesField ++ ':' :: (write (.obj m.entries) ++ ['\x7d'])) = some (m, []) := by
      rw [readForm, readKey_write]
      dsimp only
      rw [if_pos rfl, if_neg (by decide), show maxDepth - 1 = maxDepth - 2 + 1 from rfl, hentries]
      rfl
    have hshape : m.render.toList =
        '\x7b' :: (writeText entriesField ++ ':' :: (write (.obj m.entries) ++ ['\x7d'])) := by
      rw [render, Json.render, String.toList_ofList]
      rfl
    rw [writeText_append] at hform hshape
    rw [parse?_of_form hshape, hform]
    rfl
  refine ⟨hparse h, fun m' h' hrender => ?_⟩
  exact Option.some.inj ((hparse h').symm.trans (hrender ▸ hparse h))

/-- Names may be empty or need escapes, whole numbers may be the least and the largest. Names stay
in the order in which they were first set, and keys come in their own. -/
theorem parse?_render_hostile :
    let m := Metadata.ofPairs [("z\x01", .null), ("", .arr [.int (-9223372036854775808), .null]),
      ("z\x01", .int 18446744073709551615),
      ("entries", Json.ofPairs [("\\", .str "é😀"), ("\"", .bool true)])]
    parse? m.render = some m ∧
      m.render = "\x7b\"entries\":\x7b\"z\\u0001\":18446744073709551615," ++
        "\"\":[-9223372036854775808,null]," ++
        "\"entries\":\x7b\"\\\"\":true,\"\\\\\":\"é😀\"\x7d\x7d\x7d" := by
  intro m
  have hplain : m.Plain 100 := by
    refine Plain.insertAll ⟨List.nodup_nil, by simp [empty]⟩ fun pair hpair => ?_
    simp only [List.mem_cons, List.not_mem_nil, or_false] at hpair
    rcases hpair with rfl | rfl | rfl | rfl
    · exact .null _
    · refine .arr 99 _ fun j hj => ?_
      simp only [List.mem_cons, List.not_mem_nil, or_false] at hj
      rcases hj with rfl | rfl
      · exact .int _ _ (by decide) (by decide)
      · exact .null _
    · exact .int _ _ (by decide) (by decide)
    · refine Json.plain_ofPairs fun field hfield => ?_
      simp only [List.mem_cons, List.not_mem_nil, or_false] at hfield
      rcases hfield with rfl | rfl
      · exact .str _ _
      · exact .bool _ _
  exact ⟨(parse?_render (by decide) hplain).1, by decide +kernel⟩

end Correlator.Metadata
