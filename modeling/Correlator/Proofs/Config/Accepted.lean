import Correlator.Proofs.Config.Clashes

/-!
# Configurations with which nothing is wrong

A document is surveyed name by name and element by element. Nothing is wrong with it just when
each of them is acceptable by itself and no two of them ask for the same.

* `Config.Item`: a name or an element, `Config.items`: those of a document in their order.
* `ElementConfig.IsAcceptable`: what is asked of an element by itself.
* `Config.Survey.see`: an item seen with which nothing is wrong.
* `Config.Survey.found_item_eq_nil_iff`: what it takes for an item that nothing is found, and then
  it is just seen (`Config.Survey.item_of_found`).
* **`Config.problems_eq_nil_iff`**: the same for the whole document.
-/

namespace Correlator

/-- What an element registers under, if it is compared with others. -/
def ElementConfig.registration? : ElementConfig → Option Config.Registration
  | .requestSink c => some (.requestSink, c.sinkId, none)
  | .responseSink _ => none
  | .requestSource c => some (.requestSource, c.sourceId, none)
  | .responseSource c => some (.responseSource, c.sinkId, c.status?)

/-- The path that an element serves, if it does. -/
def ElementConfig.path? : ElementConfig → Option String
  | .requestSink _ => none
  | .responseSink _ => none
  | .requestSource c => some c.path
  | .responseSource _ => none

open Config.Survey in
/-- What is asked of the options of an element: the URL and the path to download to of a request
sink, and the path that a request source serves. -/
def ElementConfig.HasGoodOptions : ElementConfig → Prop
  | .requestSink c => isBadUrl c.url = false ∧ (c.download && lacksPath c) = false
  | .responseSink _ => True
  | .requestSource c => Config.isRooted c.path = true
  | .responseSource _ => True

/-- What is asked of an element by itself. -/
def ElementConfig.IsAcceptable (e : ElementConfig) : Prop :=
  Text.isBlank e.owner = false ∧ e.HasGoodOptions

namespace Config

/-! ## Items -/

/-- The name of a pipeline, or one of its elements. -/
inductive Item
  | name (n : String)
  | element (pipeline : String) (e : ElementConfig)

namespace Item

/-- The name, if the item is one. -/
def name? : Item → Option String
  | .name n => some n
  | .element _ _ => none

/-- What the item registers under, if it is compared with others. -/
def registration? : Item → Option Registration
  | .name _ => none
  | .element _ e => e.registration?

/-- The path that the item serves, if it does. -/
def path? : Item → Option String
  | .name _ => none
  | .element _ e => e.path?

/-- What is asked of an item by itself. -/
def IsAcceptable : Item → Prop
  | .name n => Text.isBlank n = false
  | .element _ e => e.IsAcceptable

end Item

/-- The items of a pipeline. -/
def itemsOf (p : PipelineConfig) : List Item := .name p.name :: p.elements.map (.element p.name)

/-- The items of a document, in their order. -/
def items (c : Config) : List Item := c.pipelines.flatMap itemsOf

namespace Survey

variable {s : Survey} {i : Item} {is : List Item}

/-- An item surveyed. -/
def item (s : Survey) : Item → Survey
  | .name n => s.name n
  | .element pipeline e => s.element pipeline e

theorem foldl_pipeline (ps : List PipelineConfig) (s : Survey) :
    ps.foldl pipeline s = (ps.flatMap itemsOf).foldl item s := by
  rw [List.foldl_flatMap]
  congr
  funext s p
  rw [itemsOf, List.foldl_cons, List.foldl_map]
  rfl

/-! ## One item -/

/-- An item seen with which nothing is wrong. -/
def see (s : Survey) (i : Item) : Survey :=
  { s with
    names := i.name?.toList ++ s.names
    registrations := i.registration?.toList ++ s.registrations
    paths := i.path?.toList ++ s.paths }

/-- No item that was seen asks for the same. -/
def IsNew (s : Survey) (i : Item) : Prop :=
  (∀ name ∈ i.name?, name ∉ s.names) ∧ (∀ r ∈ i.registration?, r ∉ s.registrations) ∧
    ∀ path ∈ i.path?, path ∉ s.paths

theorem found_report_eq_nil_iff {wrong : Bool} {p : Problem} :
    (s.report wrong p).found = [] ↔ wrong = false ∧ s.found = [] := by
  cases wrong <;> simp [report]

theorem register_of_not_mem {r : Registration} (h : r ∉ s.registrations) :
    s.register r = { s with registrations := r :: s.registrations } := by
  simp [register, h]

theorem found_register_eq_nil_iff {r : Registration} :
    (s.register r).found = [] ↔ r ∉ s.registrations ∧ s.found = [] := by
  by_cases h : r ∈ s.registrations
  · simp [register, report, h]
  · simp [register_of_not_mem h, h]

theorem registrations_report {wrong : Bool} {p : Problem} :
    (s.report wrong p).registrations = s.registrations := by
  cases wrong <;> rfl

theorem registrations_path {sourceId path : String} :
    (s.path sourceId path).registrations = s.registrations := by
  unfold Survey.path
  split
  · rfl
  · split <;> rfl

theorem found_path_eq_nil_iff {sourceId path : String} :
    (s.path sourceId path).found = [] ↔
      isRooted path = true ∧ path ∉ s.paths ∧ s.found = [] := by
  by_cases hpath : isRooted path = true
  · by_cases h : path ∈ s.paths
    · simp [path_of_mem hpath h, report, h]
    · simp [path_of_not_mem hpath h, hpath, h]
  · simp [Survey.path, hpath, report]

theorem found_name_eq_nil_iff {name : String} :
    (s.name name).found = [] ↔ Text.isBlank name = false ∧ name ∉ s.names ∧ s.found = [] := by
  unfold Survey.name
  split
  · simp_all [report]
  · split
    · simp_all [report]
    · simp_all

theorem found_element_eq_nil_iff {pipeline : String} {e : ElementConfig} :
    (s.element pipeline e).found = [] ↔ s.found = [] ∧ e.IsAcceptable ∧
      (∀ r ∈ e.registration?, r ∉ s.registrations) ∧ ∀ path ∈ e.path?, path ∉ s.paths := by
  unfold element
  by_cases howner : Text.isBlank e.owner
  · rw [if_pos howner]
    simp [report, ElementConfig.IsAcceptable, howner]
  · rw [if_neg howner, ElementConfig.IsAcceptable]
    cases e with
    | requestSink c =>
      simp [found_register_eq_nil_iff, found_report_eq_nil_iff, registrations_report, howner,
        ElementConfig.HasGoodOptions, ElementConfig.registration?, ElementConfig.path?]
      tauto
    | responseSink c =>
      simp [howner, ElementConfig.HasGoodOptions, ElementConfig.registration?, ElementConfig.path?]
    | requestSource c =>
      simp [found_register_eq_nil_iff, found_path_eq_nil_iff, registrations_path, howner,
        ElementConfig.HasGoodOptions, ElementConfig.registration?, ElementConfig.path?]
      tauto
    | responseSource c =>
      simp [found_register_eq_nil_iff, howner, ElementConfig.HasGoodOptions,
        ElementConfig.registration?, ElementConfig.path?]
      tauto

/-- **Nothing is found at an item** just when nothing was found before, it is acceptable by itself
and it asks for nothing that was seen. -/
theorem found_item_eq_nil_iff :
    (s.item i).found = [] ↔ s.found = [] ∧ i.IsAcceptable ∧ s.IsNew i := by
  cases i with
  | name n =>
    simp [item, found_name_eq_nil_iff, Item.IsAcceptable, IsNew, Item.name?, Item.registration?,
      Item.path?]
    tauto
  | element pipeline e =>
    simp [item, found_element_eq_nil_iff, Item.IsAcceptable, IsNew, Item.name?,
      Item.registration?, Item.path?]

/-- An item at which nothing is found is just seen. -/
theorem item_of_found (h : (s.item i).found = []) : s.item i = s.see i := by
  obtain ⟨-, haccept, hname, hregistration, hpath⟩ := found_item_eq_nil_iff.1 h
  cases i with
  | name n =>
    have hblank : ¬ Text.isBlank n = true := by simpa [Item.IsAcceptable] using haccept
    have hnew : n ∉ s.names := hname n rfl
    simp [item, Survey.name, see, hblank, hnew, Item.name?, Item.registration?, Item.path?]
  | element pipeline e =>
    obtain ⟨howner, haccept⟩ := haccept
    change s.element pipeline e = _
    unfold element
    rw [if_neg (Bool.eq_false_iff.1 howner)]
    cases e with
    | requestSink c =>
      obtain ⟨hurl, hdownload⟩ := haccept
      simp only [hurl, hdownload]
      exact register_of_not_mem (hregistration _ rfl)
    | responseSink c => rfl
    | requestSource c =>
      have hpath : s.path c.sourceId c.path = { s with paths := c.path :: s.paths } :=
        path_of_not_mem haccept (hpath _ rfl) c.sourceId
      simp only [hpath]
      exact register_of_not_mem (hregistration _ rfl)
    | responseSource c => exact register_of_not_mem (hregistration _ rfl)

/-! ## Items one after another -/

/-- What was seen was seen once. -/
structure IsDistinct (s : Survey) : Prop where
  names : s.names.Nodup
  registrations : s.registrations.Nodup
  paths : s.paths.Nodup

theorem isDistinct_see : (s.see i).IsDistinct ↔ s.IsNew i ∧ s.IsDistinct := by
  have hcons {α : Type} (a? : Option α) (l : List α) :
      (a?.toList ++ l).Nodup ↔ (∀ a ∈ a?, a ∉ l) ∧ l.Nodup := by
    cases a? <;> simp
  constructor
  · rintro ⟨hnames, hregistrations, hpaths⟩
    rw [see, hcons] at hnames hregistrations hpaths
    exact ⟨⟨hnames.1, hregistrations.1, hpaths.1⟩, hnames.2, hregistrations.2, hpaths.2⟩
  · rintro ⟨⟨hname, hregistration, hpath⟩, hnames, hregistrations, hpaths⟩
    exact ⟨(hcons _ _).2 ⟨hname, hnames⟩, (hcons _ _).2 ⟨hregistration, hregistrations⟩,
      (hcons _ _).2 ⟨hpath, hpaths⟩⟩

theorem isDistinct_of_foldl_see (h : (is.foldl see s).IsDistinct) : s.IsDistinct := by
  induction is generalizing s with
  | nil => exact h
  | cons i is ih => exact (isDistinct_see.1 (ih h)).2

theorem found_of_foldl (h : (is.foldl item s).found = []) : s.found = [] := by
  induction is generalizing s with
  | nil => exact h
  | cons i is ih => exact (found_item_eq_nil_iff.1 (ih h)).1

/-- Nothing is found at some items just when they are acceptable by themselves and, seen one after
another, are distinct. -/
theorem found_foldl_eq_nil_iff (hs : s.IsDistinct) :
    (is.foldl item s).found = [] ↔
      s.found = [] ∧ (∀ i ∈ is, i.IsAcceptable) ∧ (is.foldl see s).IsDistinct := by
  -- on the items; as long as nothing is found, surveying one is seeing it
  induction is generalizing s with
  | nil => simp [hs]
  | cons i is ih =>
    rw [List.foldl_cons, List.foldl_cons, List.forall_mem_cons]
    constructor
    · intro h
      have hfound := found_of_foldl h
      obtain ⟨hbefore, haccept, hnew⟩ := found_item_eq_nil_iff.1 hfound
      rw [item_of_found hfound, ih (isDistinct_see.2 ⟨hnew, hs⟩)] at h
      exact ⟨hbefore, ⟨haccept, h.2.1⟩, h.2.2⟩
    · rintro ⟨hbefore, ⟨haccept, hrest⟩, hdistinct⟩
      have hsee := isDistinct_of_foldl_see hdistinct
      have hfound := found_item_eq_nil_iff.2 ⟨hbefore, haccept, (isDistinct_see.1 hsee).1⟩
      rw [item_of_found hfound, ih hsee]
      exact ⟨hbefore, hrest, hdistinct⟩

theorem foldl_see (is : List Item) (s : Survey) :
    is.foldl see s =
      { s with
        names := (is.filterMap Item.name?).reverse ++ s.names
        registrations := (is.filterMap Item.registration?).reverse ++ s.registrations
        paths := (is.filterMap Item.path?).reverse ++ s.paths } := by
  have hcons {α : Type} (f : Item → Option α) (i : Item) (is : List Item) (l : List α) :
      (is.filterMap f).reverse ++ ((f i).toList ++ l) = ((i :: is).filterMap f).reverse ++ l := by
    cases h : f i <;> simp [h]
  induction is generalizing s with
  | nil => rfl
  | cons i is ih =>
    rw [List.foldl_cons, ih]
    simp only [see, hcons]

end Survey

/-! ## The whole document -/

/-- What the elements of a document register under, as far as they are compared with others. -/
def registrations (c : Config) : List Registration :=
  c.pipelines.flatMap fun p => p.elements.filterMap ElementConfig.registration?

/-- The paths that the elements of a document serve. -/
def paths (c : Config) : List String :=
  c.pipelines.flatMap fun p => p.elements.filterMap ElementConfig.path?

theorem filterMap_items {α : Type} (f : Item → Option α) (c : Config) :
    c.items.filterMap f = c.pipelines.flatMap fun p =>
      (f (.name p.name)).toList ++ p.elements.filterMap fun e => f (.element p.name e) := by
  rw [items, List.filterMap_flatMap]
  congr
  funext p
  cases h : f (.name p.name) <;>
    simp [itemsOf, h, List.filterMap_map]

theorem forall_items_iff {P : Item → Prop} {c : Config} :
    (∀ i ∈ c.items, P i) ↔
      ∀ p ∈ c.pipelines, P (.name p.name) ∧ ∀ e ∈ p.elements, P (.element p.name e) := by
  simp only [items, itemsOf, List.forall_mem_flatMap, List.forall_mem_cons, List.forall_mem_map]

/-- The items of a document are seen once each just when no two names, registrations or paths are
the same. -/
theorem isDistinct_items (c : Config) (found : List Problem) :
    (c.items.foldl Survey.see ⟨[], [], [], found⟩).IsDistinct ↔
      (c.pipelines.map PipelineConfig.name).Nodup ∧ c.registrations.Nodup ∧ c.paths.Nodup := by
  have hnames : c.items.filterMap Item.name? = c.pipelines.map PipelineConfig.name := by
    rw [filterMap_items, List.map_eq_flatMap]
    simp [Item.name?]
  have hregistrations : c.items.filterMap Item.registration? = c.registrations := by
    rw [filterMap_items]
    rfl
  have hpaths : c.items.filterMap Item.path? = c.paths := by
    rw [filterMap_items]
    rfl
  rw [Survey.foldl_see, hnames, hregistrations, hpaths]
  simp only [List.append_nil]
  constructor
  · rintro ⟨h, h', h''⟩
    exact ⟨List.nodup_reverse.1 h, List.nodup_reverse.1 h', List.nodup_reverse.1 h''⟩
  · rintro ⟨h, h', h''⟩
    exact ⟨List.nodup_reverse.2 h, List.nodup_reverse.2 h', List.nodup_reverse.2 h''⟩

/-- **Nothing is wrong with a document** just when its pool has a size, each name and each element
is acceptable by itself, and no two names, registrations or paths are the same. -/
theorem problems_eq_nil_iff {c : Config} :
    c.problems = [] ↔ c.workers.poolSize ≠ 0 ∧
      (∀ p ∈ c.pipelines, Text.isBlank p.name = false ∧ ∀ e ∈ p.elements, e.IsAcceptable) ∧
      (c.pipelines.map PipelineConfig.name).Nodup ∧ c.registrations.Nodup ∧ c.paths.Nodup := by
  obtain ⟨found, hstart, hfound⟩ : ∃ found,
      Survey.report ⟨[], [], [], []⟩ (c.workers.poolSize == 0) .zeroPoolSize =
        ⟨[], [], [], found⟩ ∧ (found = [] ↔ c.workers.poolSize ≠ 0) := by
    by_cases h : c.workers.poolSize = 0 <;> simp [Survey.report, h]
  have hempty : Survey.IsDistinct ⟨[], [], [], found⟩ := ⟨.nil, .nil, .nil⟩
  simp only [problems, hstart, List.reverse_eq_nil_iff, Survey.foldl_pipeline]
  rw [Survey.found_foldl_eq_nil_iff hempty, ← items, forall_items_iff, isDistinct_items, hfound]
  rfl

end Config

end Correlator
