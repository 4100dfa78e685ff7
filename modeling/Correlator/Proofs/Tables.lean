import Mathlib.Data.List.Nodup
import Correlator.Meter
import Correlator.Registry
import Correlator.Routes

/-!
# Tables and their owners

What registration and removal do to the registries and to the routes. Both tables are lists with a
key, and each key occurs in them at most once.

* `Registry.lookup?_register`, `Registry.lookup?_unregister?`: what is found under any key once a
  listener came or went; `Registry.register_eq_ok`, `Registry.unregister?_eq_some`: when it does.
* `Routes.bind_eq_ok`, `Routes.find?_bind`: the same for paths.
* `Registry.unregister?_of_register`, `Routes.unbind?_of_bind`: to remove what was just added
  gives back the very table from before.
* `Registry.unregister?_of_perm`, `Routes.unbind?_of_perm`: an owner removes the entry of its key
  and no other, wherever in the table it stands.
* `Meter.value_count`, `Meter.value_set`: what a counter and a gauge show.
-/

namespace Correlator

/-! ## Lists with a key -/

section Keyed

variable {α κ : Type*} [DecidableEq κ] (key : α → κ) {l rest : List α} {a : α}

theorem find?_append_of_fresh (h : ∀ b ∈ l, key b ≠ key a) :
    (l ++ [a]).find? (fun b => key b = key a) = some a := by
  rw [List.find?_append, List.find?_eq_none.2 (by simpa using h)]
  simp

theorem filter_append_of_fresh (h : ∀ b ∈ l, key b ≠ key a) :
    (l ++ [a]).filter (fun b => key b ≠ key a) = l := by
  rw [List.filter_append, List.filter_eq_self.2 (by simpa using h)]
  simp

/-- An entry is found by its key, wherever in the table it stands. -/
theorem find?_of_mem (ha : a ∈ l) (hl : (l.map key).Nodup) :
    l.find? (fun b => key b = key a) = some a := by
  cases hf : l.find? (fun b => key b = key a) with
  | none => simpa using List.find?_eq_none.1 hf a ha
  | some b =>
    have hb : b ∈ l := List.mem_of_find?_eq_some hf
    have hk : key b = key a := by simpa using List.find?_some hf
    rw [List.inj_on_of_nodup_map hl hb ha hk]

/-- To filter out the key of an entry takes out that entry alone. -/
theorem filter_of_perm (h : l.Perm (a :: rest)) (hl : (l.map key).Nodup) :
    (l.filter fun b => key b ≠ key a).Perm rest := by
  have hn : (key a :: rest.map key).Nodup := (h.map key).nodup_iff.1 hl
  have hr : ∀ b ∈ rest, key b ≠ key a := fun b hb e =>
    (List.nodup_cons.1 hn).1 (e ▸ List.mem_map_of_mem hb)
  have hf : (a :: rest).filter (fun b => key b ≠ key a) = rest := by
    rw [List.filter_cons_of_neg (by simp), List.filter_eq_self.2 (by simpa using hr)]
  exact hf ▸ h.filter _

end Keyed

/-- What is found under a key is the value of the first pair, or of one after it. -/
theorem lookup_cons_eq {α β : Type*} [BEq α] [LawfulBEq α] [DecidableEq α] (a : α) (b : β)
    (l : List (α × β)) (a' : α) :
    ((a, b) :: l).lookup a' = if a' = a then some b else l.lookup a' := by
  rw [List.lookup_cons]
  by_cases ha : a' = a
  · simp [ha]
  · rw [beq_eq_false_iff_ne.2 ha, if_neg ha]

/-! ## Registries -/

namespace Registry

variable {α : Type} {r r' : Registry α} {l : Listener α} {k : Key}

theorem lookup?_eq_none : r.lookup? k = none ↔ ∀ l ∈ r.listeners, l.key ≠ k := by
  simp [lookup?, List.find?_eq_none]

/-- A listener is registered just when its key is free, and then it is the only one added. -/
theorem register_eq_ok :
    r.register l = .ok r' ↔ r.lookup? l.key = none ∧ r' = ⟨r.listeners ++ [l]⟩ := by
  unfold register contains
  cases hl : r.lookup? l.key with
  | none => simp [eq_comm]
  | some l' => simp

/-- A registration is refused just when the key is taken. -/
theorem register_eq_error {fault : Fault} :
    r.register l = .error fault ↔ r.lookup? l.key ≠ none ∧ fault = .duplicate l.key := by
  unfold register contains
  cases hl : r.lookup? l.key with
  | none => simp
  | some l' => simp [eq_comm]

/-- A registration changes what is found under its own key, and under no other. -/
theorem lookup?_register (h : r.register l = .ok r') (k : Key) :
    r'.lookup? k = if l.key = k then some l else r.lookup? k := by
  obtain ⟨hfree, rfl⟩ := register_eq_ok.1 h
  by_cases hk : l.key = k
  · subst hk
    rw [if_pos rfl]
    exact find?_append_of_fresh Listener.key (lookup?_eq_none.1 hfree)
  · rw [if_neg hk]
    simp [lookup?, List.find?_append, hk]

theorem key_of_lookup? (h : r.lookup? k = some l) : l.key = k := by
  simpa using List.find?_some h

theorem mem_of_resolve? {owner : String} {refinement? : Option String}
    (h : r.resolve? owner refinement? = some l) : l ∈ r.listeners := by
  unfold resolve? at h
  split at h
  · split at h
    · rename_i hl
      cases h
      exact List.mem_of_find?_eq_some hl
    · exact List.mem_of_find?_eq_some h
  · exact List.mem_of_find?_eq_some h

/-- A listener is taken out just when it is found and belongs to whoever asks for it. -/
theorem unregister?_eq_some {pipeline : String} :
    r.unregister? k pipeline = some (l, r') ↔
      r.lookup? k = some l ∧ l.owner = pipeline ∧
        r' = ⟨r.listeners.filter fun l => l.key ≠ k⟩ := by
  unfold unregister?
  cases hl : r.lookup? k with
  | none => simp
  | some l' =>
    by_cases ho : l'.owner = pipeline
    · simp only [if_pos ho, Option.some.injEq, Prod.mk.injEq]
      constructor
      · rintro ⟨rfl, rfl⟩
        exact ⟨rfl, ho, rfl⟩
      · rintro ⟨rfl, -, rfl⟩
        exact ⟨rfl, rfl⟩
    · simp only [if_neg ho, Option.some.injEq]
      constructor
      · intro h
        cases h
      · rintro ⟨rfl, ho', -⟩
        exact absurd ho' ho

theorem unregister?_eq_none {pipeline : String} :
    r.unregister? k pipeline = none ↔ ∀ l, r.lookup? k = some l → l.owner ≠ pipeline := by
  unfold unregister?
  cases r.lookup? k with
  | none => simp
  | some l' => by_cases ho : l'.owner = pipeline <;> simp [ho]

/-- A removal leaves nothing under its key, and all other keys as they were. -/
theorem lookup?_unregister? {pipeline : String} (h : r.unregister? k pipeline = some (l, r'))
    (k' : Key) : r'.lookup? k' = if k' = k then none else r.lookup? k' := by
  obtain ⟨-, -, rfl⟩ := unregister?_eq_some.1 h
  by_cases hk : k' = k
  · subst hk
    rw [if_pos rfl]
    simp [lookup?]
  · rw [if_neg hk]
    simp only [lookup?, List.find?_filter]
    congr 1
    funext l
    by_cases hl : l.key = k'
    · simp [hl, hk]
    · simp [hl]

/-- A registration that is taken back leaves no trace. -/
theorem unregister?_of_register (h : r.register l = .ok r') :
    r'.unregister? l.key l.owner = some (l, r) := by
  obtain ⟨hfree, rfl⟩ := register_eq_ok.1 h
  have hfresh := lookup?_eq_none.1 hfree
  have hfound : lookup? ⟨r.listeners ++ [l]⟩ l.key = some l :=
    find?_append_of_fresh Listener.key hfresh
  unfold unregister?
  rw [hfound, filter_append_of_fresh Listener.key hfresh]
  simp

theorem lookup?_of_mem (hl : l ∈ r.listeners) (hr : r.keys.Nodup) : r.lookup? l.key = some l :=
  find?_of_mem Listener.key hl hr

/-- An owner takes its own listener out, and no other. -/
theorem unregister?_of_perm {rest : List (Listener α)} (h : r.listeners.Perm (l :: rest))
    (hr : r.keys.Nodup) :
    ∃ r', r.unregister? l.key l.owner = some (l, r') ∧ r'.listeners.Perm rest := by
  refine ⟨_, ?_, filter_of_perm Listener.key h hr⟩
  unfold unregister?
  rw [lookup?_of_mem (h.mem_iff.2 (List.mem_cons_self ..)) hr]
  simp

end Registry

/-! ## Routes -/

namespace Routes

variable {α : Type} {r r' : Routes α} {route : Route α} {path owner : String} {handler : α}

theorem find?_eq_none : r.find? path = none ↔ ∀ route ∈ r.routes, route.path ≠ path := by
  simp [find?, List.find?_eq_none]

/-- A path is bound just when it is free, and then its route is the only one added. -/
theorem bind_eq_ok :
    r.bind path owner handler = .ok r' ↔
      r.find? path = none ∧ r' = ⟨r.routes ++ [⟨path, owner, handler⟩]⟩ := by
  unfold bind
  cases hr : r.find? path with
  | none => simp [eq_comm]
  | some route => simp

/-- A path is refused only if it is bound. -/
theorem find?_of_bind_error {fault : Fault} (h : r.bind path owner handler = .error fault) :
    r.find? path ≠ none := by
  unfold bind at h
  split at h
  · rename_i hr
    exact Option.isSome_iff_ne_none.1 hr
  · cases h

/-- To bind a path changes what is found at it, and at no other. -/
theorem find?_bind (h : r.bind path owner handler = .ok r') (path' : String) :
    r'.find? path' = if path = path' then some ⟨path, owner, handler⟩ else r.find? path' := by
  obtain ⟨hfree, rfl⟩ := bind_eq_ok.1 h
  by_cases hp : path = path'
  · subst hp
    rw [if_pos rfl]
    exact find?_append_of_fresh Route.path (a := ⟨path, owner, handler⟩) (find?_eq_none.1 hfree)
  · rw [if_neg hp]
    simp [find?, List.find?_append, hp]

/-- A path that is given up at once leaves no trace. -/
theorem unbind?_of_bind (h : r.bind path owner handler = .ok r') :
    r'.unbind? path owner = some r := by
  obtain ⟨hfree, rfl⟩ := bind_eq_ok.1 h
  have hfresh := find?_eq_none.1 hfree
  have hfound : find? ⟨r.routes ++ [⟨path, owner, handler⟩]⟩ path = some ⟨path, owner, handler⟩ :=
    find?_append_of_fresh Route.path (a := ⟨path, owner, handler⟩) hfresh
  unfold unbind?
  rw [hfound, filter_append_of_fresh Route.path (a := ⟨path, owner, handler⟩) hfresh]
  simp

theorem find?_of_mem (h : route ∈ r.routes) (hr : r.paths.Nodup) :
    r.find? route.path = some route :=
  Correlator.find?_of_mem Route.path h hr

/-- An owner gives up its own route, and no other. -/
theorem unbind?_of_perm {rest : List (Route α)} (h : r.routes.Perm (route :: rest))
    (hr : r.paths.Nodup) :
    ∃ r', r.unbind? route.path route.owner = some r' ∧ r'.routes.Perm rest := by
  refine ⟨_, ?_, filter_of_perm Route.path h hr⟩
  unfold unbind?
  rw [find?_of_mem (h.mem_iff.2 (List.mem_cons_self ..)) hr]
  simp

end Routes

/-! ## Meters -/

namespace Meter

theorem lookup_alter (s : Series) (f : Nat → Nat) (values : List (Series × Nat)) (s' : Series) :
    ((alter s f values).lookup s').getD 0 =
      if s' = s then f ((values.lookup s).getD 0) else (values.lookup s').getD 0 := by
  induction values with
  | nil =>
    rw [alter, lookup_cons_eq]
    split <;> rfl
  | cons entry values ih =>
    obtain ⟨s₀, n⟩ := entry
    by_cases h₀ : s₀ = s
    · subst h₀
      rw [alter, if_pos rfl, lookup_cons_eq, lookup_cons_eq, lookup_cons_eq, if_pos rfl]
      split <;> rfl
    · rw [alter, if_neg h₀, lookup_cons_eq, lookup_cons_eq, lookup_cons_eq, if_neg (Ne.symm h₀)]
      by_cases hs : s' = s₀
      · rw [if_pos hs, if_pos hs, if_neg (hs ▸ h₀)]
      · rw [if_neg hs, if_neg hs, ih]

/-- A counter moves on by one, and no other one moves. -/
theorem value_count (m : Meter) (s s' : Series) :
    (m.count s).value s' = m.value s' + if s' = s then 1 else 0 := by
  refine (lookup_alter s (· + 1) m.values s').trans ?_
  by_cases hs : s' = s
  · simp [value, hs]
  · simp [value, hs]

/-- A gauge shows what it was set to. -/
theorem value_set (m : Meter) (s : Series) (n : Nat) : (m.set s n).value s = n := by
  refine (lookup_alter s (fun _ => n) m.values s).trans ?_
  rw [if_pos rfl]

end Meter

end Correlator
