import Correlator.Proofs.FileTree

/-!
# Files that can be made

A file can be made at a path, with the directories on the way to it, if nothing else is in the way.

* `FileTree.Passable`: parts of a path that lead through directories, or through nothing.
* `FileTree.makeDir_cases`: one directory at such a path: it is made, it is there already, or one on
  the way to it is missing.
* `FileTree.Tidy`: paths that do not end in a dot, as those of parents.
* **`FileTree.makeDirs_of_passable`**: all the directories of such a path are made.
* `FileTree.Admits`: a tree lets a file be made at a path; **`FileTree.Admits.exists_create`**,
  `FileTree.Admits.exists_makeDirs`: then it can be made, with the directories on the way.
* `FileTree.Rooted`: names whose directories are there; **`FileTree.admits_of_create`**: a file is
  made only where the tree lets it.
-/

namespace Correlator.FileTree

variable {t t' : FileTree} {name name' : FileName} {path parent part : String}
  {ps qs before : List String} {made : FileName → Prop}

/-! ## Ways through a tree -/

/-- Each part of a path that is a name is not too long, and no file is in its place. -/
def Passable (t : FileTree) : FileName → List String → Prop
  | _, [] => True
  | name, part :: ps =>
    (part = "." ∨ part = ".." ∨
      part.utf8ByteSize ≤ maxNameBytes ∧ ∀ c, t.find? (name ++ [part]) ≠ some (.file c)) ∧
    Passable t (follow name part) ps

theorem passable_append : t.Passable name (ps ++ qs) ↔
    t.Passable name ps ∧ t.Passable (ps.foldl follow name) qs := by
  induction ps generalizing name with
  | nil => simp [Passable]
  | cons part ps ih => simp [Passable, ih, and_assoc]

theorem Passable.dropLast (h : t.Passable name ps) : t.Passable name ps.dropLast := by
  rcases List.eq_nil_or_concat' ps with rfl | ⟨before, last, rfl⟩
  · exact h
  · rw [List.dropLast_concat]
    exact (passable_append.1 h).1

/-- No file is made by making directories. -/
theorem Passable.gains (h : t.Passable name ps) (hgains : Gains made t t') :
    t'.Passable name ps := by
  induction ps generalizing name with
  | nil => trivial
  | cons part ps ih =>
    obtain ⟨hpart, hrest⟩ := h
    refine ⟨hpart.imp_right (Or.imp_right fun ⟨hshort, hfile⟩ => ⟨hshort, fun c hc => ?_⟩),
      ih hrest⟩
    rcases hgains (name ++ [part]) with hsame | ⟨-, hdir, -⟩
    · exact hfile c (hsame ▸ hc)
    · cases hdir.symm.trans hc

theorem step_dot (t : FileTree) (name : FileName) : t.step name "." = .ok name := rfl

theorem step_dots (t : FileTree) (name : FileName) (h : part = "." ∨ part = "..") :
    t.step name part = .ok (follow name part) := by
  rcases h with rfl | rfl <;> rfl

theorem step_of_directory (hdot : part ≠ ".") (hup : part ≠ "..")
    (hshort : part.utf8ByteSize ≤ maxNameBytes)
    (hdir : t.find? (name ++ [part]) = some .directory) :
    t.step name part = .ok (name ++ [part]) := by
  rw [step, if_neg hdot, if_neg hup, if_neg (Nat.not_lt.2 hshort), hdir]

/-- A part that is passable is passed, unless there is nothing. -/
theorem step_passable (h : t.Passable name [part]) :
    t.step name part = .ok (follow name part) ∨ t.step name part = .error .notFound := by
  obtain ⟨hpart, -⟩ := h
  unfold step follow
  by_cases hdot : part = "."
  · simp [hdot]
  · by_cases hup : part = ".."
    · simp [hup]
    · obtain ⟨hshort, hfile⟩ := (hpart.resolve_left hdot).resolve_left hup
      rw [if_neg hdot, if_neg hdot, if_neg hup, if_neg hup, if_neg (Nat.not_lt.2 hshort)]
      cases hfind : t.find? (name ++ [part]) with
      | none => exact .inr rfl
      | some e =>
        cases e with
        | directory => exact .inl rfl
        | file c => exact absurd hfind (hfile c)

theorem walk_passable (h : t.Passable name ps) :
    t.walk name ps = .ok (ps.foldl follow name) ∨ t.walk name ps = .error .notFound := by
  induction ps generalizing name with
  | nil => exact .inl rfl
  | cons part ps ih =>
    obtain ⟨hpart, hrest⟩ := h
    rw [walk]
    rcases step_passable ⟨hpart, trivial⟩ with hstep | hstep
    · rw [hstep]
      exact ih hrest
    · rw [hstep]
      exact .inr rfl

theorem walk_append (h : t.walk name ps = .ok name') (qs : List String) :
    t.walk name (ps ++ qs) = t.walk name' qs := by
  induction ps generalizing name with
  | nil =>
    cases h
    rfl
  | cons part ps ih =>
    rw [List.cons_append, walk]
    rw [walk] at h
    split at h
    · exact ih h
    · cases h

theorem walk_singleton (h : t.step name part = .ok name') : t.walk name [part] = .ok name' := by
  rw [walk, h]
  rfl

theorem walk_dots (t : FileTree) (name : FileName) {dots : List String}
    (h : ∀ part ∈ dots, part = ".") : t.walk name dots = .ok name := by
  induction dots with
  | nil => rfl
  | cons part dots ih =>
    obtain ⟨rfl, hrest⟩ := List.forall_mem_cons.1 h
    rw [walk, step_dot]
    exact ih hrest

/-! ## One directory -/

theorem isDirectory_of_walk (hpath : pathError? path = none)
    (h : t.walk (startOf path) (parts path) = .ok name) : t.isDirectory path = true := by
  rw [isDirectory, hpath]
  dsimp only
  rw [h]

/-- **One directory**: it is made, it is there already, or one on the way to it is missing. -/
theorem makeDir_cases (hpath : pathError? path = none)
    (hpass : t.Passable (startOf path) (parts path)) :
    (∃ t' name, t.makeDir path = .ok t' ∧ t'.walk (startOf path) (parts path) = .ok name) ∨
    (∃ name, t.makeDir path = .error .exists ∧ t.walk (startOf path) (parts path) = .ok name) ∨
    (t.makeDir path = .error .notFound ∧
      t.walk (startOf path) (parts path).dropLast = .error .notFound) := by
  unfold makeDir locate
  rw [hpath]
  dsimp only
  rcases List.eq_nil_or_concat' (parts path) with hparts | ⟨before, last, hparts⟩
  · rw [hparts]
    exact .inr (.inl ⟨startOf path, rfl, rfl⟩)
  · rw [hparts] at hpass ⊢
    obtain ⟨hbefore, hlast⟩ := passable_append.1 hpass
    rw [List.dropLast_concat, List.getLast?_concat]
    rcases walk_passable hbefore with hwalk | hwalk
    · have hfull {t' : FileTree} {name : FileName}
          (h : t'.walk (startOf path) before = .ok (before.foldl follow (startOf path)))
          (hstep : t'.step (before.foldl follow (startOf path)) last = .ok name) :
          t'.walk (startOf path) (before ++ [last]) = .ok name := by
        rw [walk_append h, walk_singleton hstep]
      rw [hwalk]
      dsimp only
      by_cases hdots : last = "." ∨ last = ".."
      · rw [if_pos hdots]
        exact .inr (.inl ⟨_, rfl, hfull hwalk (step_dots t _ hdots)⟩)
      · obtain ⟨hdot, hup⟩ := not_or.1 hdots
        obtain ⟨hshort, hfile⟩ := (hlast.1.resolve_left hdot).resolve_left hup
        rw [if_neg hdots, if_neg (Nat.not_lt.2 hshort)]
        dsimp only
        cases hfind : t.find? (before.foldl follow (startOf path) ++ [last]) with
        | none =>
          have hput := find?_put (t := t) (by rw [hfind]; nofun) .directory
          refine .inl ⟨_, _, rfl, hfull (walk_keeps (fun other hother => ?_) hwalk)
            (step_of_directory hdot hup hshort ?_)⟩
          · rw [hput]
            split
            · rfl
            · exact hother
          · rw [hput, if_pos rfl]
        | some e =>
          cases e with
          | directory =>
            exact .inr (.inl ⟨_, rfl, hfull hwalk (step_of_directory hdot hup hshort hfind)⟩)
          | file c => exact absurd hfind (hfile c)
    · rw [hwalk]
      exact .inr (.inr ⟨rfl, rfl⟩)

/-! ## All directories on the way -/

/-- A path does not end in a dot, unless it has one part. -/
def Tidy (path : String) : Prop := (parts path).getLast? ≠ some "." ∨ (parts path).dropLast = []

theorem exists_parent? (h : path ≠ "") : ∃ parent, parent? path = some parent := by
  unfold parent?
  dsimp only
  split
  · rw [if_neg (mt String.isEmpty_iff.1 h)]
    exact ⟨_, rfl⟩
  · split <;> exact ⟨_, rfl⟩

theorem parts_empty : parts "" = [] := by
  rw [parts_of_no_slash (by simp)]
  rfl

/-- What a parent ends in counts. -/
theorem tidy_of_parent? (h : parent? path = some parent) : Tidy parent := by
  obtain ⟨kept, between, last, after, hp⟩ | ⟨rfl, -⟩ := isParent_of_parent? h
  · unfold Tidy
    rw [hp.parts_parent]
    rcases List.eq_nil_or_concat' kept with rfl | ⟨front, p, rfl⟩
    · exact .inr rfl
    · obtain ⟨hne, hdot⟩ := hp.kept_last front p rfl
      rw [partsOf_append, partsOf_cons hne]
      by_cases hp : p = ['.']
      · rw [hdot hp]
        exact .inr rfl
      · refine .inl fun hlast => hp ?_
        rw [show partsOf [] = [] from rfl, List.getLast?_concat, Option.some.injEq] at hlast
        rw [← String.toList_ofList (l := p), hlast]
        rfl
  · exact .inr (by rw [parts_empty]; rfl)

/-- **All of a path but its last part leads through directories if its parent does**, where dots do
not matter. -/
theorem exists_walk_dropLast (h : parent? path = some parent) (htidy : Tidy path)
    (hwalk : t.walk (startOf parent) (parts parent) = .ok name) :
    ∃ name, t.walk (startOf path) (parts path).dropLast = .ok name := by
  obtain ⟨kept, between, last, after, hp⟩ | ⟨-, hblank⟩ := isParent_of_parent? h
  · have hdots (part : String) (hpart : part ∈ partsOf (between ++ after)) : part = "." :=
      eq_dot_of_mem_partsOf hp.blank hpart
    rw [partsOf_append] at hdots
    obtain ⟨name, hname⟩ : ∃ name, t.walk (startOf path) (parts parent) = .ok name := by
      by_cases hempty : parent = ""
      · exact ⟨startOf path, by rw [hempty, parts_empty]; rfl⟩
      · exact ⟨name, (parent?_eq_some h hempty).1 ▸ hwalk⟩
    rw [Tidy] at htidy
    rw [hp.parts_eq] at htidy ⊢
    rcases List.eq_nil_or_concat' (partsOf after) with hnil | ⟨front, dot, hconcat⟩
    · refine ⟨name, ?_⟩
      rw [hnil, ← List.append_assoc, List.dropLast_concat, walk_append hname]
      exact walk_dots t name fun part hpart => hdots part (List.mem_append_left _ hpart)
    · obtain rfl : dot = "." := hdots dot (by rw [hconcat]; simp)
      rw [hconcat] at htidy ⊢
      have hshape : parts parent ++ (partsOf between ++ String.ofList last :: (front ++ ["."])) =
          (parts parent ++ partsOf between ++ String.ofList last :: front) ++ ["."] := by simp
      rw [hshape, List.getLast?_concat] at htidy
      rw [hshape, htidy.resolve_left fun hne => hne rfl]
      exact ⟨startOf path, rfl⟩
  · refine ⟨startOf path, walk_dots t _ fun part hpart => ?_⟩
    exact eq_dot_of_mem_partsOf hblank ((List.dropLast_sublist _).mem hpart)

/-- What leads through directories for a path does for its parent. -/
theorem Passable.of_dropLast (hpass : t.Passable (startOf path) (parts path).dropLast)
    (h : parent? path = some parent) : t.Passable (startOf parent) (parts parent) := by
  by_cases hempty : parent = ""
  · rw [hempty, parts_empty]
    trivial
  · obtain ⟨hstart, part, after, hparts⟩ := parent?_eq_some h hempty
    rw [hparts, List.dropLast_append_of_ne_nil (List.cons_ne_nil _ _)] at hpass
    exact hstart ▸ (passable_append.1 hpass).1

theorem length_lt_of_parent? (h : parent? path = some parent) (hpath : path ≠ "") :
    parent.length < path.length := by
  rw [← String.length_toList, ← String.length_toList]
  by_cases hempty : parent = ""
  · rw [hempty]
    exact List.length_pos_iff.2 fun hnil => hpath (String.toList_eq_nil_iff.1 hnil)
  · obtain ⟨kept, between, last, after, hp⟩ | ⟨hblank, -⟩ := isParent_of_parent? h
    · refine Nat.lt_of_le_of_ne hp.isPrefix.length_le fun hlength => ?_
      obtain ⟨-, part, after, hparts⟩ := parent?_eq_some h hempty
      rw [String.toList_inj.1 (hp.isPrefix.eq_of_length hlength)] at hparts
      exact List.cons_ne_nil _ _ (List.self_eq_append_right.1 hparts)
    · exact absurd hblank hempty

/-- What is wrong with a parent is wrong with the path, which begins as it does. -/
theorem pathError?_parent (h : parent? path = some parent) (hpath : pathError? path = none) :
    parent = "" ∨ pathError? parent = none := by
  obtain ⟨kept, between, last, after, hp⟩ | ⟨hempty, -⟩ := isParent_of_parent? h
  · rw [or_iff_not_imp_left]
    intro hempty
    obtain ⟨more, hmore⟩ := hp.isPrefix
    have heq : path = parent ++ String.ofList more := by
      rw [← String.toList_inj, String.toList_append, String.toList_ofList, hmore]
    have hsize : parent.utf8ByteSize ≤ path.utf8ByteSize := by
      rw [heq, String.utf8ByteSize_append]
      exact Nat.le_add_right _ _
    unfold pathError? at hpath ⊢
    rw [← hmore, List.any_append] at hpath
    split at hpath
    · cases hpath
    · next hnul =>
      rw [Bool.or_eq_true, not_or] at hnul
      rw [if_neg hnul.1, if_neg (mt String.isEmpty_iff.1 hempty)]
      split at hpath
      · cases hpath
      · split at hpath
        · cases hpath
        · next hlong => rw [if_neg (by omega)]
  · exact .inl hempty

/-- **All directories of a path are made** if no part of it is too long and no file is in the
way. -/
theorem makeDirs_of_passable {fuel : Nat} (hfuel : path.length < fuel)
    (hpath : path = "" ∨ pathError? path = none) (htidy : Tidy path)
    (hpass : t.Passable (startOf path) (parts path)) :
    ∃ t' name, t.makeDirs path fuel = (.ok (), t') ∧
      t'.walk (startOf path) (parts path) = .ok name := by
  induction fuel generalizing t path with
  | zero => exact absurd hfuel (Nat.not_lt_zero _)
  | succ fuel ih =>
    rw [makeDirs]
    by_cases hempty : path = ""
    · subst hempty
      exact ⟨t, startOf "", rfl, by rw [parts_empty]; rfl⟩
    have hpath := hpath.resolve_left hempty
    rw [if_neg (mt String.isEmpty_iff.1 hempty)]
    rcases makeDir_cases hpath hpass with ⟨t', name, hmade, hwalk⟩ | ⟨name, hmade, hwalk⟩ |
      ⟨hmade, -⟩
    · rw [hmade]
      exact ⟨t', name, rfl, hwalk⟩
    · rw [hmade]
      dsimp only
      rw [if_pos (isDirectory_of_walk hpath hwalk)]
      exact ⟨t, name, rfl, hwalk⟩
    · obtain ⟨parent, hparent⟩ := exists_parent? hempty
      have hshort := length_lt_of_parent? hparent hempty
      -- the parent first, which is shorter
      obtain ⟨t₁, name, hfirst, hwalk⟩ := ih (by omega) (pathError?_parent hparent hpath)
        (tidy_of_parent? hparent) (hpass.dropLast.of_dropLast hparent)
      have hgains := gains_makeDirs_parent hparent t fuel
      rw [hfirst] at hgains
      rw [hmade, hparent]
      dsimp only
      rw [hfirst]
      dsimp only
      rcases makeDir_cases hpath (hpass.gains hgains) with ⟨t', name, hmade, hwalk'⟩ |
        ⟨name, hmade, hwalk'⟩ | ⟨-, hmissing⟩
      · rw [hmade]
        exact ⟨t', name, rfl, hwalk'⟩
      · rw [hmade]
        dsimp only
        rw [if_pos (isDirectory_of_walk hpath hwalk')]
        exact ⟨t₁, name, rfl, hwalk'⟩
      · obtain ⟨name, hname⟩ := exists_walk_dropLast hparent htidy hwalk
        cases hname.symm.trans hmissing

/-! ## Files -/

/-- A tree lets a file be made at a path: the path ends in a name, no part of it is too long, no
file is in the way of a directory that it passes, and where it leads to there is no directory, nor
will there be. -/
structure Admits (t : FileTree) (path : String) : Prop where
  sound : pathError? path = none
  slash : endsInSlash path = false
  last : EndsInName path
  passable : t.Passable (startOf path) (parts path).dropLast
  free : t.find? (target path) ≠ some .directory
  apart : ¬ Passes path (target path)

namespace Admits

theorem ne_empty (h : t.Admits path) : path ≠ "" := by
  rintro rfl
  cases h.sound

/-- **Where a tree lets a file be made it can be made**, once the directories are there. -/
theorem exists_create (h : t.Admits path) (hgains : Gains (Passes path) t t')
    (hwalk : t'.walk (startOf path) (parts path).dropLast = .ok name) :
    ∃ t'', t'.create path = .ok (t'', target path) := by
  have hlocate : t'.locate path = .ok (some (target path)) :=
    locate_eq_some_iff.2 ⟨rfl, h.sound, h.last, name, hwalk⟩
  have hfree : t'.find? (target path) ≠ some .directory := by
    rcases hgains (target path) with hsame | ⟨-, -, hpasses⟩
    · rw [hsame]
      exact h.free
    · exact absurd hpasses h.apart
  rw [create, hlocate]
  dsimp only
  rw [h.slash, if_neg Bool.false_ne_true]
  split
  · next hdir => exact absurd hdir hfree
  · exact ⟨_, rfl⟩

/-- **The directories on the way to it are made** with those of its parent. -/
theorem exists_makeDirs (h : t.Admits path) (hparent : parent? path = some parent) :
    ∃ t' name, t.makeDirs parent (parent.length + 1) = (.ok (), t') ∧ Gains (Passes path) t t' ∧
      t'.walk (startOf path) (parts path).dropLast = .ok name := by
  obtain ⟨last, hlast, hdot, -, -⟩ := h.last
  have htidy : Tidy path := .inl (by simpa [hlast] using hdot)
  obtain ⟨t', name, hmade, hwalk⟩ := makeDirs_of_passable (Nat.lt_succ_self _)
    (pathError?_parent hparent h.sound) (tidy_of_parent? hparent) (h.passable.of_dropLast hparent)
  obtain ⟨name', hwalk'⟩ := exists_walk_dropLast hparent htidy hwalk
  have hgains := gains_makeDirs_parent hparent t (parent.length + 1)
  rw [hmade] at hgains
  exact ⟨t', name', hmade, hgains, hwalk'⟩

end Admits

/-! ## Only there -/

/-- The directories on the way to a name are there, and so is one at the name. -/
def Rooted (t : FileTree) (name : FileName) : Prop :=
  ∀ before last, before ++ [last] <+: name → last ≠ ".." → last ≠ "/" →
    t.find? (before ++ [last]) = some .directory

namespace Rooted

theorem startOf (t : FileTree) (path : String) : t.Rooted (startOf path) := by
  intro before last hbegins _ hroot
  have hmem : last ∈ FileTree.startOf path := hbegins.subset (by simp)
  unfold FileTree.startOf at hmem
  split at hmem
  · exact absurd (List.mem_singleton.1 hmem) hroot
  · cases hmem

theorem snoc (h : t.Rooted name)
    (hpart : part = ".." ∨ t.find? (name ++ [part]) = some .directory) :
    t.Rooted (name ++ [part]) := by
  intro before last hbegins hup hroot
  rcases List.prefix_concat_iff.1 hbegins with heq | hbegins
  · obtain ⟨rfl, hlast⟩ := List.append_inj' heq rfl
    obtain rfl : last = part := by simpa using hlast
    exact hpart.resolve_left hup
  · exact h before last hbegins hup hroot

theorem above (h : t.Rooted name) : t.Rooted (above name) := by
  unfold FileTree.above
  split
  · have hnone : t.Rooted [] := fun before last hbegins => by simp at hbegins
    exact hnone.snoc (.inl rfl)
  · exact h.snoc (.inl rfl)
  · exact h
  · exact fun before last hbegins => h before last (hbegins.trans (List.dropLast_prefix name))

theorem step (h : t.Rooted name) (hstep : t.step name part = .ok name') : t.Rooted name' := by
  unfold FileTree.step at hstep
  split at hstep
  · cases hstep
    exact h
  · split at hstep
    · cases hstep
      exact h.above
    · split at hstep
      · cases hstep
      · split at hstep
        · next hdir =>
          cases hstep
          exact h.snoc (.inr hdir)
        · cases hstep
        · cases hstep

theorem walk (h : t.Rooted name) (hwalk : t.walk name ps = .ok name') : t.Rooted name' := by
  induction ps generalizing name with
  | nil =>
    cases hwalk
    exact h
  | cons part ps ih =>
    rw [FileTree.walk] at hwalk
    split at hwalk
    · next hstep => exact ih (h.step hstep) hwalk
    · cases hwalk

end Rooted

theorem walk_of_append (h : t.walk name (ps ++ qs) = .ok name') :
    t.walk name ps = .ok (ps.foldl follow name) := by
  induction ps generalizing name with
  | nil => rfl
  | cons part ps ih =>
    rw [List.cons_append, walk] at h
    split at h
    · next hstep =>
      rw [walk, hstep, List.foldl_cons, ← eq_follow_of_step hstep]
      exact ih h
    · cases h

/-- What was passed once the directories were there was passable before. -/
theorem passable_of_walk (hgains : Gains made t t') (hwalk : t'.walk name ps = .ok name') :
    t.Passable name ps := by
  induction ps generalizing name with
  | nil => trivial
  | cons part ps ih =>
    rw [walk] at hwalk
    split at hwalk
    · next next hstep =>
      have hnext := eq_follow_of_step hstep
      refine ⟨?_, hnext ▸ ih hwalk⟩
      unfold step at hstep
      split at hstep
      · next hdot => exact .inl hdot
      · split at hstep
        · next hup => exact .inr (.inl hup)
        · split at hstep
          · cases hstep
          · next hlong =>
            refine .inr (.inr ⟨Nat.not_lt.1 hlong, fun c hfile => ?_⟩)
            split at hstep
            · next hdir =>
              rcases hgains (name ++ [part]) with hsame | ⟨hnone, -⟩
              · cases hfile.symm.trans (hsame.symm.trans hdir)
              · cases hnone.symm.trans hfile
            · cases hstep
            · cases hstep
    · cases hwalk

theorem ne_slash_of_mem_parts (h : part ∈ parts path) : part ≠ "/" := by
  obtain ⟨p, hp, rfl⟩ := List.mem_map.1 h
  intro heq
  have hslash := Text.not_mem_of_mem_splitAt (List.mem_filter.1 hp).1
  rw [← String.toList_ofList (l := p), heq] at hslash
  exact hslash (by decide)

/-- **A tree lets a file be made wherever one was made**, with directories on the way. -/
theorem admits_of_create {t₀ : FileTree} (hgains : Gains made t t₀)
    (hmade : t₀.create path = .ok (t', name)) : t.Admits path := by
  obtain ⟨hlocate, hslash, hfree, -⟩ := create_eq_ok hmade
  obtain ⟨rfl, hsound, hlast, at', hwalk⟩ := locate_eq_some_iff.1 hlocate
  refine ⟨hsound, hslash, hlast, passable_of_walk hgains hwalk, fun hdir => ?_, ?_⟩
  · rcases hgains (target path) with hsame | ⟨hnone, -⟩
    · exact hfree (hsame.trans hdir)
    · cases hnone.symm.trans hdir
  · -- what is passed is a directory, and so then is what the path leads to
    rintro ⟨before, part, after, hparts, hname⟩
    obtain ⟨last, hlast, hdot, hup, -⟩ := hlast
    have htarget := target_eq hlast hdot hup hwalk
    rw [hparts, List.dropLast_append_of_ne_nil (List.cons_ne_nil part after)] at hwalk
    have hrooted := (Rooted.startOf t₀ path).walk (walk_of_append hwalk)
    rw [hname] at hrooted
    refine hfree ?_
    rw [htarget] at hrooted ⊢
    exact hrooted at' last List.prefix_rfl hup
      (ne_slash_of_mem_parts (List.mem_of_getLast? hlast))

end Correlator.FileTree
