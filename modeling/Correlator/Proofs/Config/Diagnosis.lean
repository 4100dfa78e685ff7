import Mathlib.Data.List.Count
import Correlator.Proofs.Config.Accepted
import Correlator.Proofs.Text.Cut

/-!
# Everything that is wrong with a configuration

At each name and each element of a document there may be faults that it has by itself, and values
that stood before. Both are reported where they are found.

* `Config.Value`: what only one pipeline or one element may have, `Config.Item.values`: the values
  of an item that are compared with others, `Config.Item.faults`: what is wrong with it by itself.
* `Config.repeats`: the values that stood before; there is one less than the value occurs
  (`Config.count_repeats`).
* `Config.reported`: faults and repetitions, item by item, and `Config.problems_eq`: this is what
  the survey of a document finds.
* `Config.problems_of_blank`: what an element without an id adds to the problems.
* `Config.IsValid`: the rules for a whole document, `Config.problems_eq_nil_iff_isValid`: they hold
  just when nothing is wrong.
* **`Config.diagnosed`**: all of it together.
-/

namespace Correlator

/-- Whether a problem says that a value stood before. -/
def Problem.isRepetition : Problem → Bool
  | .duplicatePipeline _ => true
  | .duplicateId _ _ => true
  | .duplicatePath _ => true
  | _ => false

namespace Config

/-! ## Values and faults -/

/-- What only one pipeline, or only one element, of a document may have. -/
inductive Value
  | name (n : String)
  | path (p : String)
  | registration (r : Registration)
  deriving DecidableEq, Repr

/-- The problem with a value that stood before. -/
def Value.problem : Value → Problem
  | .name n => .duplicatePipeline n
  | .path p => .duplicatePath p
  | .registration r => .duplicateId r.1 r.2.1

end Config

namespace ElementConfig

open Config Config.Survey

/-- The values of an element that are compared with others: none if it has no id, and no path
that does not begin with a slash. -/
def values (e : ElementConfig) : List Value :=
  if Text.isBlank e.owner then []
  else
    ((e.path?.filter isRooted).map Value.path).toList ++
      (e.registration?.map Value.registration).toList

/-- What is wrong with an element by itself. One without an id is not looked at any further. -/
def faults (pipeline : String) (e : ElementConfig) : List Problem :=
  if Text.isBlank e.owner then [.missingId pipeline e.kind]
  else
    match e with
    | .requestSink c =>
      (if isBadUrl c.url then [.invalidUrl c.sinkId c.url] else []) ++
        if c.download && lacksPath c then [.missingDownloadPath c.sinkId] else []
    | .requestSource c => if isRooted c.path then [] else [.invalidPath c.sourceId c.path]
    | .responseSink _ => []
    | .responseSource _ => []

end ElementConfig

namespace Config

/-- The values of an item that are compared with others. -/
def Item.values : Item → List Value
  | .name n => if Text.isBlank n then [] else [.name n]
  | .element _ e => e.values

/-- What is wrong with an item by itself. -/
def Item.faults : Item → List Problem
  | .name n => if Text.isBlank n then [.emptyPipelineName] else []
  | .element pipeline e => e.faults pipeline

/-- The values of a document that are compared with each other, in its order. -/
def values (c : Config) : List Value := c.items.flatMap Item.values

/-! ## Values that stood before -/

variable {v : Value} {before vs vs' : List Value} {i : Item} {is is' : List Item}

/-- Those values that stood before, the first ones among themselves. -/
def repeats (before : List Value) : List Value → List Value
  | [] => []
  | v :: vs => (if v ∈ before then [v] else []) ++ repeats (before ++ [v]) vs

theorem repeats_append :
    repeats before (vs ++ vs') = repeats before vs ++ repeats (before ++ vs) vs' := by
  induction vs generalizing before with
  | nil => simp [repeats]
  | cons v vs ih => simp [repeats, ih, List.append_assoc]

/-- **A value is repeated once less than it occurs**, or as often if it stood before already. -/
theorem count_repeats (v : Value) (before vs : List Value) :
    (repeats before vs).count v = if v ∈ before then vs.count v else vs.count v - 1 := by
  induction vs generalizing before with
  | nil => simp [repeats]
  | cons w vs ih =>
    rw [repeats, List.count_append, ih, List.count_cons]
    by_cases hw : w = v
    · subst hw
      by_cases hbefore : w ∈ before
      · simp [hbefore, Nat.add_comm]
      · simp [hbefore]
    · have hv : ¬ v = w := fun e => hw e.symm
      by_cases hbefore : w ∈ before <;> simp [hbefore, hw, hv]

/-! ## Items one after another -/

/-- What is reported of some items: at each of them its faults, and its values that stood before. -/
def reported (before : List Value) : List Item → List Problem
  | [] => []
  | i :: is =>
    i.faults ++ (repeats before i.values).map Value.problem ++
      reported (before ++ i.values) is

theorem reported_append : reported before (is ++ is') =
    reported before is ++ reported (before ++ is.flatMap Item.values) is' := by
  induction is generalizing before with
  | nil => simp [reported]
  | cons i is ih => simp [reported, ih, List.append_assoc]

namespace Survey

variable {s t u : Survey} {ps ps' : List Problem}

/-- The values that were seen are these. -/
structure Knows (s : Survey) (before : List Value) : Prop where
  names : ∀ n, n ∈ s.names ↔ .name n ∈ before
  paths : ∀ path, path ∈ s.paths ↔ .path path ∈ before
  registrations : ∀ r, r ∈ s.registrations ↔ .registration r ∈ before

/-- One survey goes on from another: these problems are found, and these values seen. -/
structure Extends (s : Survey) (before : List Value) (ps : List Problem) (vs : List Value)
    (t : Survey) : Prop where
  found : t.found = ps.reverse ++ s.found
  knows : t.Knows (before ++ vs)

theorem Extends.trans (h : s.Extends before ps vs t) (h' : t.Extends (before ++ vs) ps' vs' u) :
    s.Extends before (ps ++ ps') (vs ++ vs') u where
  found := by rw [h'.found, h.found, List.reverse_append, List.append_assoc]
  knows := by
    rw [← List.append_assoc]
    exact h'.knows

/-! ### One rule -/

theorem Knows.refl (hs : s.Knows before) : s.Extends before [] [] s where
  found := rfl
  knows := by rwa [List.append_nil]

theorem Knows.report (hs : s.Knows before) (wrong : Bool) (p : Problem) :
    s.Extends before (if wrong then [p] else []) [] (s.report wrong p) := by
  cases wrong with
  | false => exact hs.refl
  | true =>
    refine ⟨rfl, ?_⟩
    rw [List.append_nil]
    exact ⟨hs.names, hs.paths, hs.registrations⟩

/-- A value that stood before is reported, and none is seen that was not. -/
theorem Knows.again (hs : s.Knows before) (hv : v ∈ before) :
    s.Extends before ((repeats before [v]).map Value.problem) [v] (s.report true v.problem) := by
  have hseen : ∀ w, w ∈ before ↔ w ∈ before ++ [v] := fun w => by
    rw [List.mem_append, List.mem_singleton]
    exact ⟨.inl, fun h => h.elim id fun e => e ▸ hv⟩
  refine ⟨by simp [Survey.report, repeats, hv], ?_, ?_, ?_⟩
  · exact fun n => (hs.names n).trans (hseen _)
  · exact fun path => (hs.paths path).trans (hseen _)
  · exact fun r => (hs.registrations r).trans (hseen _)

/-- A value that did not stand before is seen. -/
theorem Knows.first (hv : v ∉ before) (hfound : t.found = s.found)
    (hknows : t.Knows (before ++ [v])) :
    s.Extends before ((repeats before [v]).map Value.problem) [v] t := by
  refine ⟨?_, hknows⟩
  simp [repeats, hv, hfound]

theorem Knows.register (hs : s.Knows before) (r : Registration) :
    s.Extends before ((repeats before [.registration r]).map Value.problem) [.registration r]
      (s.register r) := by
  by_cases hr : r ∈ s.registrations
  · have hregister : s.register r = s.report true (Value.registration r).problem := by
      simp [Survey.register, hr, Value.problem]
    rw [hregister]
    exact hs.again ((hs.registrations r).1 hr)
  · rw [register_of_not_mem hr]
    refine Knows.first (mt (hs.registrations r).2 hr) rfl ⟨?_, ?_, ?_⟩
    · intro n
      simp [hs.names]
    · intro path
      simp [hs.paths]
    · intro r'
      simp [hs.registrations, or_comm]

theorem Knows.path (hs : s.Knows before) (sourceId : String) {path : String}
    (hpath : isRooted path = true) :
    s.Extends before ((repeats before [.path path]).map Value.problem) [.path path]
      (s.path sourceId path) := by
  by_cases hseen : path ∈ s.paths
  · rw [path_of_mem hpath hseen]
    exact hs.again ((hs.paths path).1 hseen)
  · rw [path_of_not_mem hpath hseen]
    refine Knows.first (mt (hs.paths path).2 hseen) rfl ⟨?_, ?_, ?_⟩
    · intro n
      simp [hs.names]
    · intro path'
      simp [hs.paths, or_comm]
    · intro r
      simp [hs.registrations]

theorem Knows.name (hs : s.Knows before) {name : String} (hname : Text.isBlank name = false) :
    s.Extends before ((repeats before [.name name]).map Value.problem) [.name name]
      (s.name name) := by
  by_cases hseen : name ∈ s.names
  · have hrepeated : s.name name = s.report true (Value.name name).problem := by
      simp [Survey.name, hname, hseen, Value.problem]
    rw [hrepeated]
    exact hs.again ((hs.names name).1 hseen)
  · have hnew : s.name name = { s with names := name :: s.names } := by
      simp [Survey.name, hname, hseen]
    rw [hnew]
    refine Knows.first (mt (hs.names name).2 hseen) rfl ⟨?_, ?_, ?_⟩
    · intro name'
      simp [hs.names, or_comm]
    · intro path
      simp [hs.paths]
    · intro r
      simp [hs.registrations]

/-! ### One item -/

/-- The faults of an element are found, and then its values that stood before. -/
theorem Knows.element (hs : s.Knows before) (pipeline : String) (e : ElementConfig) :
    s.Extends before (e.faults pipeline ++ (repeats before e.values).map Value.problem) e.values
      (s.element pipeline e) := by
  unfold Survey.element ElementConfig.faults ElementConfig.values
  by_cases howner : Text.isBlank e.owner = true
  · rw [if_pos howner, if_pos howner, if_pos howner]
    exact hs.report true _
  · rw [if_neg howner, if_neg howner, if_neg howner]
    cases e with
    | requestSink c =>
      have hurl := hs.report (isBadUrl c.url) (.invalidUrl c.sinkId c.url)
      have hdownload := hurl.trans (hurl.knows.report (c.download && lacksPath c)
        (.missingDownloadPath c.sinkId))
      have hid := hdownload.trans (hdownload.knows.register (.requestSink, c.sinkId, none))
      simpa [ElementConfig.path?, ElementConfig.registration?] using hid
    | responseSink c => exact hs.refl
    | requestSource c =>
      by_cases hpath : isRooted c.path = true
      · have hrooted := hs.path c.sourceId hpath
        have hid := hrooted.trans (hrooted.knows.register (.requestSource, c.sourceId, none))
        rw [← List.map_append, ← repeats_append] at hid
        simpa [ElementConfig.path?, ElementConfig.registration?, Option.filter, hpath] using hid
      · have hfault := hs.report true (.invalidPath c.sourceId c.path)
        have hid := hfault.trans (hfault.knows.register (.requestSource, c.sourceId, none))
        simpa [ElementConfig.path?, ElementConfig.registration?, Option.filter, hpath,
          Survey.path] using hid
    | responseSource c =>
      exact hs.register (.responseSource, c.sinkId, c.status?)

theorem Knows.item (hs : s.Knows before) (i : Item) :
    s.Extends before (i.faults ++ (repeats before i.values).map Value.problem) i.values
      (s.item i) := by
  cases i with
  | name n =>
    by_cases hname : Text.isBlank n = true
    · have hblank : s.name n = s.report true .emptyPipelineName := if_pos hname
      simp only [Survey.item, hblank, Item.faults, Item.values, if_pos hname]
      exact hs.report true .emptyPipelineName
    · simp only [Survey.item, Item.faults, Item.values, if_neg hname, List.nil_append]
      exact hs.name (Bool.eq_false_iff.2 hname)
  | element pipeline e => exact hs.element pipeline e

/-- **Items are surveyed one after another.** -/
theorem Knows.foldl (hs : s.Knows before) (is : List Item) :
    s.Extends before (reported before is) (is.flatMap Item.values) (is.foldl Survey.item s) := by
  induction is generalizing s before with
  | nil => exact hs.refl
  | cons i is ih =>
    have hitem := hs.item i
    rw [List.flatMap_cons]
    exact hitem.trans (ih hitem.knows)

end Survey

/-! ## The whole document -/

/-- What is wrong with the numbers of a document. -/
def poolFaults (c : Config) : List Problem :=
  if c.workers.poolSize = 0 then [.zeroPoolSize] else []

/-- **What is wrong with a document** is what is wrong with its pool, and then what is reported of
its items. -/
theorem problems_eq (c : Config) : c.problems = c.poolFaults ++ reported [] c.items := by
  have hstart : Survey.Knows ⟨[], [], [], []⟩ [] := ⟨by simp, by simp, by simp⟩
  have hpool := hstart.report (c.workers.poolSize == 0) .zeroPoolSize
  have hfound := (hpool.trans (hpool.knows.foldl c.items)).found
  rw [items] at hfound
  simp only [problems, Survey.foldl_pipeline, hfound]
  simp [poolFaults, items]

/-! ### Faults and repetitions apart -/

theorem isRepetition_problem (v : Value) : v.problem.isRepetition = true := by
  cases v <;> rfl

theorem isRepetition_of_mem_faults {p : Problem} (hp : p ∈ i.faults) :
    p.isRepetition = false := by
  cases i with
  | name n =>
    simp only [Item.faults] at hp
    split at hp
    · rw [List.mem_singleton.1 hp]
      rfl
    · cases hp
  | element pipeline e =>
    simp only [Item.faults, ElementConfig.faults] at hp
    split at hp
    · rw [List.mem_singleton.1 hp]
      rfl
    · cases e <;> simp at hp
      · rcases hp with ⟨-, rfl⟩ | ⟨-, rfl⟩ <;> rfl
      · rw [hp.2]
        rfl

/-- The repetitions among what is reported are those of the values, one after the other. -/
theorem filter_isRepetition_reported (before : List Value) (is : List Item) :
    (reported before is).filter Problem.isRepetition =
      (repeats before (is.flatMap Item.values)).map Value.problem := by
  have hfaults (i : Item) : i.faults.filter Problem.isRepetition = [] :=
    List.filter_eq_nil_iff.2 fun p hp => by simp [isRepetition_of_mem_faults hp]
  have hproblems (vs : List Value) :
      (vs.map Value.problem).filter Problem.isRepetition = vs.map Value.problem :=
    List.filter_eq_self.2 fun p hp => by
      obtain ⟨v, -, rfl⟩ := List.mem_map.1 hp
      exact isRepetition_problem v
  induction is generalizing before with
  | nil => rfl
  | cons i is ih =>
    rw [reported, List.filter_append, List.filter_append, hfaults, hproblems, ih, List.flatMap_cons,
      repeats_append, List.map_append, List.nil_append]

/-- The others are the faults, item by item. -/
theorem filter_not_isRepetition_reported (before : List Value) (is : List Item) :
    (reported before is).filter (fun p => !p.isRepetition) = is.flatMap Item.faults := by
  have hfaults (i : Item) : i.faults.filter (fun p => !p.isRepetition) = i.faults :=
    List.filter_eq_self.2 fun p hp => by simp [isRepetition_of_mem_faults hp]
  have hproblems (vs : List Value) :
      (vs.map Value.problem).filter (fun p => !p.isRepetition) = [] :=
    List.filter_eq_nil_iff.2 fun p hp => by
      obtain ⟨v, -, rfl⟩ := List.mem_map.1 hp
      simp [isRepetition_problem]
  induction is generalizing before with
  | nil => rfl
  | cons i is ih =>
    rw [reported, List.filter_append, List.filter_append, hfaults, hproblems, ih, List.flatMap_cons,
      List.append_nil]

/-! ### How often a value occurs -/

/-- The elements of a document, in its order. -/
def elements (c : Config) : List ElementConfig := c.pipelines.flatMap PipelineConfig.elements

/-- The elements that have an id. -/
def identified (c : Config) : List ElementConfig :=
  c.elements.filter fun e => !Text.isBlank e.owner

/-- How often a value occurs in a document: names that are not blank, paths that begin with a
slash, and what elements register under; only elements that have an id count. -/
def occurrences (c : Config) : Value → Nat
  | .name n => ((c.pipelines.map PipelineConfig.name).filter fun n => !Text.isBlank n).count n
  | .path p => ((c.identified.filterMap ElementConfig.path?).filter isRooted).count p
  | .registration r => (c.identified.filterMap ElementConfig.registration?).count r

/-- The values of names and those of elements are counted apart. -/
theorem count_flatMap_items (v : Value) (ps : List PipelineConfig) :
    ((ps.flatMap itemsOf).flatMap Item.values).count v =
      ((ps.map PipelineConfig.name).flatMap fun n => (Item.name n).values).count v +
        ((ps.flatMap PipelineConfig.elements).flatMap ElementConfig.values).count v := by
  have hvalues (p : PipelineConfig) : (itemsOf p).flatMap Item.values =
      (Item.name p.name).values ++ p.elements.flatMap ElementConfig.values := by
    rw [itemsOf, List.flatMap_cons, List.flatMap_map]
    rfl
  induction ps with
  | nil => rfl
  | cons p ps ih =>
    simp only [List.flatMap_cons, List.flatMap_append, List.map_cons, List.count_append, hvalues,
      ih]
    omega

theorem flatMap_values_name (names : List String) :
    (names.flatMap fun n => (Item.name n).values) =
      (names.filter fun n => !Text.isBlank n).map Value.name := by
  induction names with
  | nil => rfl
  | cons n names ih =>
    rw [List.flatMap_cons, ih]
    by_cases hblank : Text.isBlank n = true <;> simp [Item.values, hblank]

/-- A value of elements occurs as often as what it is made of, among elements that have an id. -/
theorem count_flatMap_values {α : Type} [BEq α] [LawfulBEq α] {a : α}
    {f : ElementConfig → Option α}
    (hf : ∀ e, Text.isBlank e.owner = false → e.values.count v = (f e).toList.count a)
    (es : List ElementConfig) :
    (es.flatMap ElementConfig.values).count v =
      ((es.filter fun e => !Text.isBlank e.owner).filterMap f).count a := by
  induction es with
  | nil => rfl
  | cons e es ih =>
    rw [List.flatMap_cons, List.count_append, ih]
    by_cases hblank : Text.isBlank e.owner = true
    · simp [ElementConfig.values, hblank]
    · rw [hf e (Bool.eq_false_iff.2 hblank), List.filter_cons_of_pos (by simp [hblank])]
      cases hfe : f e with
      | none => simp [hfe]
      | some b => simp [hfe, List.count_cons, Nat.add_comm]

/-- The values of a document are those that occur in it, each as often as it does. -/
theorem count_values (c : Config) (v : Value) : c.values.count v = c.occurrences v := by
  rw [values, items, count_flatMap_items, flatMap_values_name]
  cases v with
  | name n =>
    have helements : (c.elements.flatMap ElementConfig.values).count (.name n) = 0 := by
      simp [List.count_eq_zero, ElementConfig.values]
    rw [← elements, helements, List.count_map_of_injective _ _ fun _ _ => Value.name.inj]
    rfl
  | path p =>
    have hnames (names : List String) : (names.map Value.name).count (.path p) = 0 := by
      simp [List.count_eq_zero]
    rw [hnames, Nat.zero_add, ← elements, occurrences, List.filter_filterMap]
    refine count_flatMap_values (fun e he => ?_) c.elements
    rw [ElementConfig.values, if_neg (Bool.eq_false_iff.1 he)]
    cases e.path?.filter isRooted <;> cases e.registration? <;> simp [List.count_cons]
  | registration r =>
    have hnames (names : List String) : (names.map Value.name).count (.registration r) = 0 := by
      simp [List.count_eq_zero]
    rw [hnames, Nat.zero_add, ← elements, occurrences]
    refine count_flatMap_values (fun e he => ?_) c.elements
    rw [ElementConfig.values, if_neg (Bool.eq_false_iff.1 he)]
    cases e.path?.filter isRooted <;> cases e.registration? <;> simp [List.count_cons]

/-! ### An element without an id -/

/-- The document with other pipelines. -/
def withPipelines (c : Config) (pipelines : List PipelineConfig) : Config := { c with pipelines }

/-- **An element without an id** is reported as such and has no other part in what is found: without
it the other problems are the same. -/
theorem problems_of_blank {c : Config} {ps ps' : List PipelineConfig} {name : String}
    {es es' : List ElementConfig} {e : ElementConfig}
    (hc : c.pipelines = ps ++ ⟨name, es ++ e :: es'⟩ :: ps') (he : Text.isBlank e.owner = true) :
    ∃ l r, c.problems = l ++ .missingId name e.kind :: r ∧
      (c.withPipelines (ps ++ ⟨name, es ++ es'⟩ :: ps')).problems = l ++ r := by
  let first := ps.flatMap itemsOf ++ .name name :: es.map (.element name)
  let last := es'.map (.element name) ++ ps'.flatMap itemsOf
  have hitems : c.items = first ++ .element name e :: last := by
    simp [items, hc, itemsOf, first, last]
  have hwithout : (c.withPipelines (ps ++ ⟨name, es ++ es'⟩ :: ps')).items = first ++ last := by
    simp [items, withPipelines, itemsOf, first, last]
  refine ⟨c.poolFaults ++ reported [] first, reported ([] ++ first.flatMap Item.values) last,
    ?_, ?_⟩
  · rw [problems_eq, hitems, reported_append, reported]
    simp [Item.faults, Item.values, ElementConfig.faults, ElementConfig.values, he, repeats]
  · rw [problems_eq, hwithout, reported_append, List.append_assoc]
    rfl

/-! ## The rules -/

end Config

/-- The id of a request sink. -/
def ElementConfig.requestSinkId? : ElementConfig → Option String
  | .requestSink c => some c.sinkId
  | _ => none

/-- The id of a request source. -/
def ElementConfig.requestSourceId? : ElementConfig → Option String
  | .requestSource c => some c.sourceId
  | _ => none

/-- The id of a sink whose responses a source takes, and the status if there is one. -/
def ElementConfig.responseKey? : ElementConfig → Option (String × Option Nat)
  | .responseSource c => some (c.sinkId, c.status?)
  | _ => none

namespace Config

/-- The rules for a document. -/
structure IsValid (c : Config) : Prop where
  pool : c.workers.poolSize ≠ 0
  names : ∀ p ∈ c.pipelines, Text.isBlank p.name = false
  distinctNames : (c.pipelines.map PipelineConfig.name).Nodup
  ids : ∀ e ∈ c.elements, Text.isBlank e.owner = false
  requestSinkIds : (c.elements.filterMap ElementConfig.requestSinkId?).Nodup
  requestSourceIds : (c.elements.filterMap ElementConfig.requestSourceId?).Nodup
  requestSourcePaths : (c.elements.filterMap ElementConfig.path?).Nodup
  responseSourceKeys : (c.elements.filterMap ElementConfig.responseKey?).Nodup
  rootedPaths : ∀ s, .requestSource s ∈ c.elements → ['/'] <+: s.path.toList
  urls : ∀ s, .requestSink s ∈ c.elements →
    ['\x7b', '\x7b'] <:+: s.url.toList ∨ ∃ url, Url.parse s.url = .ok url
  downloadPaths : ∀ s, .requestSink s ∈ c.elements → s.download = true →
    ∃ path ∈ s.downloadPath?, Text.isBlank path = false

/-! ### Registrations of one kind -/

theorem requestSink_iff (id : String) (e : ElementConfig) :
    e.registration? = some (.requestSink, id, none) ↔ e.requestSinkId? = some id := by
  cases e <;> simp [ElementConfig.registration?, ElementConfig.requestSinkId?]

theorem requestSource_iff (id : String) (e : ElementConfig) :
    e.registration? = some (.requestSource, id, none) ↔ e.requestSourceId? = some id := by
  cases e <;> simp [ElementConfig.registration?, ElementConfig.requestSourceId?]

theorem responseSource_iff (id : String) (status? : Option Nat) (e : ElementConfig) :
    e.registration? = some (.responseSource, id, status?) ↔
      e.responseKey? = some (id, status?) := by
  cases e <;> simp [ElementConfig.registration?, ElementConfig.responseKey?]

/-- What some elements register under is there among them just when they have what stands for it. -/
theorem mem_registrations_iff {α : Type} {f : ElementConfig → Option α} {a : α} {r : Registration}
    (h : ∀ e : ElementConfig, e.registration? = some r ↔ f e = some a) (es : List ElementConfig) :
    r ∈ es.filterMap ElementConfig.registration? ↔ a ∈ es.filterMap f := by
  rw [List.mem_filterMap, List.mem_filterMap]
  exact exists_congr fun e => and_congr_right fun _ => h e

/-- Elements register once each just when those of each kind do. -/
theorem nodup_registrations_iff (es : List ElementConfig) :
    (es.filterMap ElementConfig.registration?).Nodup ↔
      (es.filterMap ElementConfig.requestSinkId?).Nodup ∧
      (es.filterMap ElementConfig.requestSourceId?).Nodup ∧
      (es.filterMap ElementConfig.responseKey?).Nodup := by
  induction es with
  | nil => simp
  | cons e es ih =>
    cases e with
    | requestSink c =>
      change ((.requestSink, c.sinkId, none) :: es.filterMap ElementConfig.registration?).Nodup ↔
        (c.sinkId :: es.filterMap ElementConfig.requestSinkId?).Nodup ∧
        (es.filterMap ElementConfig.requestSourceId?).Nodup ∧
        (es.filterMap ElementConfig.responseKey?).Nodup
      rw [List.nodup_cons, List.nodup_cons, mem_registrations_iff (requestSink_iff c.sinkId) es,
        ih, and_assoc]
    | responseSink c => exact ih
    | requestSource c =>
      change ((.requestSource, c.sourceId, none) ::
          es.filterMap ElementConfig.registration?).Nodup ↔
        (es.filterMap ElementConfig.requestSinkId?).Nodup ∧
        (c.sourceId :: es.filterMap ElementConfig.requestSourceId?).Nodup ∧
        (es.filterMap ElementConfig.responseKey?).Nodup
      rw [List.nodup_cons, List.nodup_cons, mem_registrations_iff (requestSource_iff c.sourceId) es,
        ih, and_assoc]
      exact and_left_comm
    | responseSource c =>
      change ((.responseSource, c.sinkId, c.status?) ::
          es.filterMap ElementConfig.registration?).Nodup ↔
        (es.filterMap ElementConfig.requestSinkId?).Nodup ∧
        (es.filterMap ElementConfig.requestSourceId?).Nodup ∧
        ((c.sinkId, c.status?) :: es.filterMap ElementConfig.responseKey?).Nodup
      rw [List.nodup_cons, List.nodup_cons,
        mem_registrations_iff (responseSource_iff c.sinkId c.status?) es, ih]
      tauto

/-! ### Documents with which nothing is wrong -/

theorem isRooted_iff {path : String} : isRooted path = true ↔ ['/'] <+: path.toList := by
  unfold isRooted
  cases path.toList with
  | nil => simp
  | cons c cs => simpa [List.cons_prefix_cons] using eq_comm

theorem isBadUrl_eq_false_iff {url : String} :
    Survey.isBadUrl url = false ↔
      ['\x7b', '\x7b'] <:+: url.toList ∨ ∃ u, Url.parse url = .ok u := by
  rw [← Text.hasMark_iff, Survey.isBadUrl]
  cases Url.parse url <;> simp

theorem lacksPath_eq_false_iff {s : RequestSinkConfig} :
    (s.download && Survey.lacksPath s) = false ↔
      (s.download = true → ∃ path ∈ s.downloadPath?, Text.isBlank path = false) := by
  unfold Survey.lacksPath
  cases s.download <;> cases s.downloadPath? <;> simp

theorem filterMap_elements {α : Type} (f : ElementConfig → Option α) (c : Config) :
    c.elements.filterMap f = c.pipelines.flatMap fun p => p.elements.filterMap f :=
  List.filterMap_flatMap ..

/-- **Nothing is wrong with a document** just when it keeps the rules. -/
theorem problems_eq_nil_iff_isValid {c : Config} : c.problems = [] ↔ c.IsValid := by
  have hmem : ∀ e ∈ c.elements, ∃ p ∈ c.pipelines, e ∈ p.elements := fun e he =>
    List.mem_flatMap.1 he
  rw [problems_eq_nil_iff, registrations, paths, ← filterMap_elements, ← filterMap_elements,
    nodup_registrations_iff]
  constructor
  · rintro ⟨hpool, hitems, hnames, ⟨hsinks, hsources, hkeys⟩, hpaths⟩
    have haccept : ∀ e ∈ c.elements, e.IsAcceptable := fun e he => by
      obtain ⟨p, hp, hep⟩ := hmem e he
      exact (hitems p hp).2 e hep
    exact {
      pool := hpool
      names := fun p hp => (hitems p hp).1
      distinctNames := hnames
      ids := fun e he => (haccept e he).1
      requestSinkIds := hsinks
      requestSourceIds := hsources
      requestSourcePaths := hpaths
      responseSourceKeys := hkeys
      rootedPaths := fun s hs => isRooted_iff.1 (haccept _ hs).2
      urls := fun s hs => isBadUrl_eq_false_iff.1 (haccept _ hs).2.1
      downloadPaths := fun s hs => lacksPath_eq_false_iff.1 (haccept _ hs).2.2 }
  · intro h
    refine ⟨h.pool, fun p hp => ⟨h.names p hp, fun e he => ?_⟩, h.distinctNames,
      ⟨h.requestSinkIds, h.requestSourceIds, h.responseSourceKeys⟩, h.requestSourcePaths⟩
    have hmem : e ∈ c.elements := List.mem_flatMap.2 ⟨p, hp, he⟩
    refine ⟨h.ids e hmem, ?_⟩
    cases e with
    | requestSink s =>
      exact ⟨isBadUrl_eq_false_iff.2 (h.urls s hmem),
        lacksPath_eq_false_iff.2 (h.downloadPaths s hmem)⟩
    | responseSink s => trivial
    | requestSource s => exact isRooted_iff.2 (h.rootedPaths s hmem)
    | responseSource s => trivial

/-! ## All of it -/

/-- **The diagnosis of a document.** Nothing is wrong with it just when it keeps the rules.
Otherwise the problems stand in its order, at each name and each element its faults and then its
values that stood before. The faults are reported each where it is, and a value as often as it
occurs but once. No path counts that does not begin with a slash, and an element without an id is
reported as such and has no other part in what is found. -/
theorem diagnosed (c : Config) :
    (c.problems = [] ↔ c.IsValid) ∧
    c.problems = c.poolFaults ++ reported [] c.items ∧
    c.problems.filter (fun p => !p.isRepetition) =
      c.poolFaults ++ c.items.flatMap Item.faults ∧
    (c.problems.filter Problem.isRepetition = (repeats [] c.values).map Value.problem ∧
      ∀ v, (repeats [] c.values).count v = c.occurrences v - 1) ∧
    (∀ path, isRooted path = false → c.occurrences (.path path) = 0) ∧
    ∀ ps name es e es' ps', c.pipelines = ps ++ ⟨name, es ++ e :: es'⟩ :: ps' →
      Text.isBlank e.owner = true →
      ∃ l r, c.problems = l ++ .missingId name e.kind :: r ∧
        (c.withPipelines (ps ++ ⟨name, es ++ es'⟩ :: ps')).problems = l ++ r := by
  have hpool : c.poolFaults.filter Problem.isRepetition = [] ∧
      c.poolFaults.filter (fun p => !p.isRepetition) = c.poolFaults := by
    unfold poolFaults
    split <;> exact ⟨rfl, rfl⟩
  refine ⟨problems_eq_nil_iff_isValid, problems_eq c, ?_, ⟨?_, ?_⟩, ?_, ?_⟩
  · rw [problems_eq, List.filter_append, hpool.2, filter_not_isRepetition_reported]
  · rw [problems_eq, List.filter_append, hpool.1, filter_isRepetition_reported]
    rfl
  · intro v
    rw [count_repeats, if_neg List.not_mem_nil, count_values]
  · intro path hpath
    have hnone : path ∉ (c.identified.filterMap ElementConfig.path?).filter isRooted := fun h =>
      Bool.eq_false_iff.1 hpath (List.of_mem_filter h)
    exact List.count_eq_zero.2 hnone
  · intro ps name es e es' ps' hc he
    exact problems_of_blank hc he

/-- A sink with no URL and no path to download to. -/
def lostSink : RequestSinkConfig := ⟨"press", "press", none, "", none, [], true, none⟩

/-- A pool without slots; a pipeline with two request sources of one id, whose paths do not begin
with a slash, with a source of responses for no sink, and with the sink; and a pipeline of the same
name with two sources of one path. -/
def untidy : Config :=
  { workers := { poolSize := 0 }
    pipelines := [⟨"shop", [.requestSource ⟨"orders", "in", []⟩, .responseSource ⟨"", none, false⟩,
        .requestSink lostSink, .requestSource ⟨"orders", "in", []⟩]⟩,
      ⟨"shop", [.requestSource ⟨"returns", "/out", []⟩, .requestSource ⟨"stock", "/out", []⟩]⟩] }

/-- Each of the paths without a slash is a fault, and so are the pool and what the sink lacks; the
second id, the second name and the second path are repetitions. The source for no sink is reported
among them, and without it the rest is as before. -/
theorem diagnosed_untidy :
    untidy.problems = [.zeroPoolSize, .invalidPath "orders" "in", .missingId "shop" .responseSource,
        .invalidUrl "press" "press", .missingDownloadPath "press", .invalidPath "orders" "in",
        .duplicateId .requestSource "orders", .duplicatePipeline "shop", .duplicatePath "/out"] ∧
      ¬ untidy.IsValid ∧
      isRooted "in" = false ∧ untidy.occurrences (.path "in") = 0 ∧
      (repeats [] untidy.values).count (.registration (.requestSource, "orders", none)) = 1 ∧
      (repeats [] untidy.values).count (.path "/out") = 1 ∧
      Text.isBlank "" = true ∧
      ∃ l r, untidy.problems = l ++ .missingId "shop" .responseSource :: r ∧
        (untidy.withPipelines [⟨"shop", [.requestSource ⟨"orders", "in", []⟩,
            .requestSink lostSink, .requestSource ⟨"orders", "in", []⟩]⟩,
          ⟨"shop", [.requestSource ⟨"returns", "/out", []⟩,
            .requestSource ⟨"stock", "/out", []⟩]⟩]).problems = l ++ r := by
  obtain ⟨hvalid, hproblems, -, ⟨-, hcount⟩, hpaths, hblank⟩ := diagnosed untidy
  have hall : untidy.problems = [.zeroPoolSize, .invalidPath "orders" "in",
      .missingId "shop" .responseSource, .invalidUrl "press" "press", .missingDownloadPath "press",
      .invalidPath "orders" "in", .duplicateId .requestSource "orders", .duplicatePipeline "shop",
      .duplicatePath "/out"] := by
    rw [hproblems]
    decide +kernel
  refine ⟨hall, ?_, by decide, hpaths "in" (by decide), ?_, ?_, by decide, ?_⟩
  · rw [← hvalid, hall]
    exact List.cons_ne_nil _ _
  · rw [hcount]
    decide
  · rw [hcount]
    decide
  · exact hblank [] "shop" [.requestSource ⟨"orders", "in", []⟩] (.responseSource ⟨"", none, false⟩)
      [.requestSink lostSink, .requestSource ⟨"orders", "in", []⟩]
      [⟨"shop", [.requestSource ⟨"returns", "/out", []⟩, .requestSource ⟨"stock", "/out", []⟩]⟩]
      rfl (by decide)

end Config

end Correlator
