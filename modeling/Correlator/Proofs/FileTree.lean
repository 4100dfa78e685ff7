import Mathlib.Data.List.TakeWhile
import Correlator.FileTree
import Correlator.Proofs.Tables
import Correlator.Proofs.Text.Cut

/-!
# What becomes of a file tree

* `FileTree.find?_put`: what is there once something was put under a name.
* `FileTree.follow`, `FileTree.target`, `FileTree.Passes`: where a path leads if nothing is looked
  up, and the directories that it passes; `FileTree.walk_eq_ok`, **`FileTree.locate_eq_some_iff`**:
  what is found on the way is nothing else.
* `FileTree.parent?_eq_some`: the parts of a path and those of its parent.
* `FileTree.Gains`: nothing has changed but that directories were made;
  **`FileTree.gains_makeDirs`**: those that a path passes or leads to.
* `FileTree.create_eq_ok`, `FileTree.find?_writeAt`: files made and written to.
-/

namespace Correlator

namespace FileTree

variable {t t' t'' : FileTree} {name name' other : FileName} {path parent : String}
  {ps qs : List String} {e : FileEntry}

/-! ## Names -/

theorem lookup_filter_ne {α β : Type*} [BEq α] [LawfulBEq α] [DecidableEq α] {a b : α}
    (h : a ≠ b) (l : List (α × β)) :
    (l.filter fun entry => entry.1 != b).lookup a = l.lookup a := by
  induction l with
  | nil => rfl
  | cons entry l ih =>
    obtain ⟨k, v⟩ := entry
    by_cases hk : k = b
    · rw [List.filter_cons_of_neg (by simp [hk]), ih, lookup_cons_eq, if_neg (hk ▸ h)]
    · rw [List.filter_cons_of_pos (by simp [hk]), lookup_cons_eq, lookup_cons_eq, ih]

/-- What was put somewhere is there, unless it is a place where there always is a directory. -/
theorem find?_put (h : t.find? name ≠ some .directory) (e : FileEntry) (other : FileName) :
    (t.put name e).find? other = if other = name then some e else t.find? other := by
  unfold find? at h ⊢
  by_cases hother : other = name
  · subst hother
    split at h
    · exact absurd rfl h
    · next hfixed => rw [if_neg hfixed, if_pos rfl, put, List.lookup_cons_self]
  · rw [if_neg hother, put]
    split
    · rfl
    · rw [lookup_cons_eq, if_neg hother]
      exact lookup_filter_ne hother t.entries

/-! ## Paths -/

/-- The name that a part of a path leads to, whatever is there. -/
def follow (name : FileName) (part : String) : FileName :=
  if part = "." then name else if part = ".." then above name else name ++ [part]

/-- The name that a path leads to, whatever is there. -/
def target (path : String) : FileName := (parts path).foldl follow (startOf path)

/-- A name that a path leads to before its last part. -/
def Passes (path : String) (name : FileName) : Prop :=
  ∃ before part after, parts path = before ++ part :: after ∧
    before.foldl follow (startOf path) = name

theorem eq_follow_of_step {part : String} (h : t.step name part = .ok name') :
    name' = follow name part := by
  unfold step at h
  unfold follow
  split at h
  · next hdot =>
    cases h
    rw [if_pos hdot]
  · next hdot =>
    rw [if_neg hdot]
    split at h
    · next hup =>
      cases h
      rw [if_pos hup]
    · next hup =>
      rw [if_neg hup]
      split at h
      · cases h
      · split at h
        · cases h
          rfl
        · cases h
        · cases h

/-- Parts of a path lead to one name or to nothing. -/
theorem walk_eq_ok (h : t.walk name ps = .ok name') : name' = ps.foldl follow name := by
  induction ps generalizing name with
  | nil =>
    cases h
    rfl
  | cons part ps ih =>
    rw [walk] at h
    split at h
    · next next hnext =>
      rw [List.foldl_cons, ← eq_follow_of_step hnext]
      exact ih h
    · cases h

/-- The last part of a path is a name, which is not too long. -/
def EndsInName (path : String) : Prop :=
  ∃ last, (parts path).getLast? = some last ∧ last ≠ "." ∧ last ≠ ".." ∧
    last.utf8ByteSize ≤ maxNameBytes

theorem target_eq {last : String} (hlast : (parts path).getLast? = some last) (hdot : last ≠ ".")
    (hup : last ≠ "..") (hwalk : t.walk (startOf path) (parts path).dropLast = .ok name) :
    target path = name ++ [last] := by
  have hparts : (parts path).dropLast ++ [last] = parts path :=
    List.dropLast_append_getLast? last hlast
  rw [target, ← hparts, List.foldl_append, ← walk_eq_ok hwalk, List.foldl_cons, List.foldl_nil,
    follow, if_neg hdot, if_neg hup]

/-- **What is located is what the path leads to**, if it ends in a name and goes through directories
before that. -/
theorem locate_eq_some_iff : t.locate path = .ok (some name) ↔
    name = target path ∧ pathError? path = none ∧ EndsInName path ∧
      ∃ at', t.walk (startOf path) (parts path).dropLast = .ok at' := by
  constructor
  · intro h
    unfold locate at h
    split at h
    · cases h
    · next hpath =>
      split at h
      · cases h
      · next at' hwalk =>
        split at h
        · cases h
        · next last hlast =>
          split at h
          · cases h
          · next hdots =>
            obtain ⟨hdot, hup⟩ := not_or.1 hdots
            split at h
            · cases h
            · next hlong =>
              cases h
              exact ⟨(target_eq hlast hdot hup hwalk).symm, hpath,
                ⟨last, hlast, hdot, hup, Nat.not_lt.1 hlong⟩, at', hwalk⟩
  · rintro ⟨rfl, hpath, ⟨last, hlast, hdot, hup, hshort⟩, at', hwalk⟩
    rw [target_eq hlast hdot hup hwalk, locate, hpath]
    dsimp only
    rw [hwalk, hlast]
    dsimp only
    rw [if_neg (not_or.2 ⟨hdot, hup⟩), if_neg (Nat.not_lt.2 hshort)]

/-! ## Parents -/

theorem intercalate_prefix {α : Type*} (sep : List α) (l l' : List (List α)) :
    sep.intercalate l <+: sep.intercalate (l ++ l') := by
  induction l with
  | nil => exact List.nil_prefix
  | cons a l ih =>
    rcases l with _ | ⟨b, l⟩
    · rcases l' with _ | ⟨b, l'⟩
      · simp
      · rw [List.intercalate_singleton, List.singleton_append, List.intercalate_cons_cons,
          List.append_assoc]
        exact List.prefix_append a _
    · rw [List.cons_append] at ih ⊢
      rw [List.cons_append, List.intercalate_cons_cons, List.intercalate_cons_cons]
      exact (List.prefix_append_right_inj _).2 ih

/-- Whether a piece of a path, with its place, is passed over: it is blank, or it is a dot that does
not come first. -/
def skips (piece : List Char × Nat) : Bool :=
  !(!piece.1.isEmpty && (piece.1 != ['.'] || piece.2 == 0))

theorem skips_iff (p : List Char) (i : Nat) :
    skips (p, i) = true ↔ p = [] ∨ p = ['.'] ∧ i ≠ 0 := by
  by_cases hnil : p = [] <;> by_cases hdot : p = ['.'] <;> simp [skips, hnil, hdot]

/-- The pieces of a path: those of its parent, of which the last one counts, others that are passed
over, the last one that is not, and again others that are. -/
structure IsParent (path parent : String) (kept between : List (List Char)) (last : List Char)
    (after : List (List Char)) : Prop where
  pieces : Text.splitAt '/' path.toList = kept ++ (between ++ last :: after)
  last_ne : last ≠ []
  blank : ∀ p ∈ between ++ after, p = [] ∨ p = ['.']
  kept_last : ∀ front p, kept = front ++ [p] → p ≠ [] ∧ (p = ['.'] → front = [])
  parent : parent = String.ofList (['/'].intercalate kept) ∨
    kept = [] ∧ parent = "/" ∧ path.toList.head? = some '/'

/-- What is left of pieces in their order once those at the end were passed over. -/
theorem exists_kept (entries : List (List Char × Nat)) :
    ∃ after : List (List Char × Nat),
      entries = (entries.reverse.dropWhile skips).reverse ++ after ∧
        ∀ piece ∈ after, skips piece = true := by
  refine ⟨(entries.reverse.takeWhile skips).reverse, ?_, fun piece hpiece => ?_⟩
  · rw [← List.reverse_append, List.takeWhile_append_dropWhile, List.reverse_reverse]
  · exact List.mem_takeWhile_imp (List.mem_reverse.1 hpiece)

/-- The place of a piece is the number of those before it. -/
theorem place_eq_length {pieces : List (List Char)} {front after : List (List Char × Nat)}
    {p : List Char} {i : Nat} (h : pieces.zipIdx = front ++ (p, i) :: after) :
    i = front.length := by
  have hget := congrArg (·[front.length]?) h
  simp only [List.getElem?_zipIdx, List.getElem?_append_right (Nat.le_refl _), Nat.sub_self,
    List.getElem?_cons_zero, Nat.zero_add] at hget
  obtain ⟨q, -, hplace⟩ := Option.map_eq_some_iff.1 hget
  exact (congrArg Prod.snd hplace).symm

/-- The last piece that is kept is not blank, and is no dot unless it is the only one. -/
theorem kept_last {pieces : List (List Char)} {rest after : List (List Char × Nat)}
    (h : pieces.zipIdx = (rest.dropWhile skips).reverse ++ after) {front : List (List Char)}
    {p : List Char} (hfront : (rest.dropWhile skips).reverse.map (·.1) = front ++ [p]) :
    p ≠ [] ∧ (p = ['.'] → front = []) := by
  have hhead := List.head?_dropWhile_not skips rest
  generalize rest.dropWhile skips = kept at h hfront hhead
  cases kept with
  | nil => simp at hfront
  | cons piece kept =>
    obtain ⟨q, i⟩ := piece
    rw [List.reverse_cons, List.append_assoc] at h
    have hplace := place_eq_length h
    rw [List.reverse_cons, List.map_append] at hfront
    obtain ⟨rfl, hq⟩ := List.append_inj' hfront rfl
    obtain rfl : q = p := by simpa using hq
    have hcounts : ¬ (q = [] ∨ q = ['.'] ∧ i ≠ 0) := by
      rw [← skips_iff]
      exact Bool.eq_false_iff.1 hhead
    obtain ⟨hne, hdot⟩ := not_or.1 hcounts
    refine ⟨hne, fun hq => ?_⟩
    have hnone : kept.reverse = [] := by
      rw [← List.length_eq_zero_iff, ← hplace]
      by_contra hplace
      exact hdot ⟨hq, hplace⟩
    rw [hnone]
    rfl

theorem parent?_eq (path : String) : parent? path =
    match (Text.splitAt '/' path.toList).zipIdx.reverse.dropWhile skips with
    | [] => if path.isEmpty then none else some ""
    | _ :: rest =>
      let kept := (rest.dropWhile skips).reverse
      if kept.isEmpty && path.toList.head? == some '/' then some "/"
      else some (String.ofList (['/'].intercalate (kept.map (·.1)))) := rfl

/-- A path has a parent that is made of its pieces, or all of them are passed over. -/
theorem isParent_of_parent? (h : parent? path = some parent) :
    (∃ kept between last after, IsParent path parent kept between last after) ∨
      parent = "" ∧ ∀ p ∈ Text.splitAt '/' path.toList, p = [] ∨ p = ['.'] := by
  have hblank {p : List Char × Nat} (hp : skips p = true) : p.1 = [] ∨ p.1 = ['.'] :=
    ((skips_iff p.1 p.2).1 hp).imp_right And.left
  rw [parent?_eq] at h
  split at h
  · next hnone =>
    refine .inr ⟨?_, fun p hp => ?_⟩
    · split at h
      · cases h
      · exact (Option.some.inj h).symm
    · rw [← List.zipIdx_map_fst 0 (Text.splitAt '/' path.toList)] at hp
      obtain ⟨piece, hpiece, rfl⟩ := List.mem_map.1 hp
      exact hblank (List.dropWhile_eq_nil_iff.1 hnone piece (List.mem_reverse.2 hpiece))
  · next last rest hlast =>
    refine .inl ?_
    have hcounts : skips last = false := by
      have hfirst := List.head?_dropWhile_not skips (Text.splitAt '/' path.toList).zipIdx.reverse
      rwa [hlast] at hfirst
    obtain ⟨after, hentries, hafter⟩ := exists_kept (Text.splitAt '/' path.toList).zipIdx
    obtain ⟨between, hrest, hbetween⟩ := exists_kept rest.reverse
    rw [List.reverse_reverse] at hrest
    rw [hlast, List.reverse_cons, hrest, List.append_assoc, List.append_assoc,
      List.singleton_append] at hentries
    have hpieces := congrArg (List.map Prod.fst) hentries
    simp only [List.map_append, List.map_cons, List.zipIdx_map_fst] at hpieces
    refine ⟨_, _, _, _, hpieces, ?_, fun p hp => ?_, fun front p hfront => ?_, ?_⟩
    · exact fun hnil => Bool.eq_false_iff.1 hcounts ((skips_iff last.1 last.2).2 (.inl hnil))
    · rw [← List.map_append] at hp
      obtain ⟨piece, hpiece, rfl⟩ := List.mem_map.1 hp
      exact hblank ((List.mem_append.1 hpiece).elim (hbetween piece) (hafter piece))
    · exact kept_last hentries hfront
    · dsimp only at h
      split at h
      · next hroot =>
        rw [Bool.and_eq_true, List.isEmpty_iff, beq_iff_eq] at hroot
        cases h
        exact .inr ⟨by rw [hroot.1]; rfl, rfl, hroot.2⟩
      · cases h
        exact .inl rfl

/-- The parts of a path that some pieces are. -/
def partsOf (pieces : List (List Char)) : List String :=
  (pieces.filter fun cs => !cs.isEmpty).map String.ofList

theorem partsOf_append (l l' : List (List Char)) : partsOf (l ++ l') = partsOf l ++ partsOf l' := by
  rw [partsOf, List.filter_append, List.map_append]
  rfl

theorem partsOf_cons {p : List Char} (hp : p ≠ []) (l : List (List Char)) :
    partsOf (p :: l) = String.ofList p :: partsOf l := by
  rw [partsOf, List.filter_cons_of_pos (by simp [hp]), List.map_cons]
  rfl

theorem eq_dot_of_mem_partsOf {l : List (List Char)} (h : ∀ p ∈ l, p = [] ∨ p = ['.'])
    {part : String} (hpart : part ∈ partsOf l) : part = "." := by
  obtain ⟨p, hp, rfl⟩ := List.mem_map.1 hpart
  obtain ⟨hmem, hne⟩ := List.mem_filter.1 hp
  rcases h p hmem with rfl | rfl
  · cases hne
  · rfl

theorem parts_of_no_slash (h : '/' ∉ path.toList) : parts path = partsOf [path.toList] := by
  rw [parts, Text.splitAt_eq_splitOn, List.splitOn_eq_singleton h]
  rfl

namespace IsParent

variable {kept between after : List (List Char)} {last : List Char}

theorem parts_parent (h : IsParent path parent kept between last after) :
    parts parent = partsOf kept := by
  rcases h.parent with hkept | ⟨rfl, rfl, -⟩
  · by_cases hnil : kept = []
    · subst hnil
      rw [hkept, parts_of_no_slash (by simp [List.intercalate])]
      rfl
    · have hfree : ∀ piece ∈ kept, '/' ∉ piece := fun piece hpiece =>
        Text.not_mem_of_mem_splitAt (h.pieces ▸ List.mem_append_left _ hpiece)
      rw [parts, hkept, String.toList_ofList, Text.splitAt_eq_splitOn,
        List.splitOn_intercalate '/' hfree hnil]
      rfl
  · rw [parts, Text.splitAt_eq_splitOn]
    decide

theorem parts_eq (h : IsParent path parent kept between last after) :
    parts path = parts parent ++ (partsOf between ++ String.ofList last :: partsOf after) := by
  have hparts : parts path = partsOf (Text.splitAt '/' path.toList) := rfl
  rw [hparts, h.pieces, partsOf_append, partsOf_append, partsOf_cons h.last_ne, h.parts_parent]

/-- A path begins as its parent. -/
theorem isPrefix (h : IsParent path parent kept between last after) :
    parent.toList <+: path.toList := by
  rcases h.parent with hkept | ⟨-, rfl, hroot⟩
  · have hjoin : ['/'].intercalate (path.toList.splitOn '/') = path.toList :=
      List.intercalate_splitOn '/'
    rw [hkept, String.toList_ofList, ← hjoin, ← Text.splitAt_eq_splitOn, h.pieces]
    exact intercalate_prefix _ _ _
  · obtain ⟨cs, hcs⟩ := List.head?_eq_some_iff.1 hroot
    rw [hcs]
    exact ⟨cs, rfl⟩

end IsParent

/-- **A parent begins as the path does and has fewer parts**, if it is not the current directory. -/
theorem parent?_eq_some (h : parent? path = some parent) (hparent : parent ≠ "") :
    startOf parent = startOf path ∧ ∃ part after, parts path = parts parent ++ part :: after := by
  obtain ⟨kept, between, last, after, hp⟩ | ⟨hempty, -⟩ := isParent_of_parent? h
  · constructor
    · obtain ⟨more, hmore⟩ := hp.isPrefix
      have hhead : parent.toList.head? = path.toList.head? := by
        rw [← hmore, List.head?_append_of_ne_nil]
        exact fun hempty => hparent (String.toList_eq_nil_iff.1 hempty)
      rw [startOf, startOf, hhead]
    · rw [hp.parts_eq]
      cases partsOf between with
      | nil => exact ⟨_, _, rfl⟩
      | cons part dots => exact ⟨part, _, rfl⟩
  · exact absurd hempty hparent

/-- What a parent passes or leads to is passed by the path. -/
theorem passes_of_parent? (h : parent? path = some parent) (hparent : parent ≠ "")
    (hname : Passes parent name ∨ name = target parent) : Passes path name := by
  obtain ⟨hstart, part, after, hparts⟩ := parent?_eq_some h hparent
  rcases hname with ⟨before, part', after', hbefore, hname⟩ | rfl
  · refine ⟨before, part', after' ++ part :: after, ?_, hstart ▸ hname⟩
    rw [hparts, hbefore]
    simp
  · exact ⟨parts parent, part, after, hparts, by rw [target, hstart]⟩

/-! ## Directories -/

/-- Nothing has changed but that directories were made where there was nothing. -/
def Gains (made : FileName → Prop) (t t' : FileTree) : Prop :=
  ∀ name, t'.find? name = t.find? name ∨
    t.find? name = none ∧ t'.find? name = some .directory ∧ made name

namespace Gains

variable {made made' : FileName → Prop}

theorem refl (made : FileName → Prop) (t : FileTree) : Gains made t t := fun _ => .inl rfl

theorem trans (h : Gains made t t') (h' : Gains made t' t'') : Gains made t t'' := by
  intro name
  rcases h' name with hsame | ⟨hnone, hdir, hmade⟩
  · rw [hsame]
    exact h name
  · rcases h name with hsame | ⟨-, hdir', -⟩
    · exact .inr ⟨hsame ▸ hnone, hdir, hmade⟩
    · cases hnone.symm.trans hdir'

theorem mono (h : Gains made t t') (hmade : ∀ name, made name → made' name) :
    Gains made' t t' := fun name =>
  (h name).imp_right fun ⟨hnone, hdir, hname⟩ => ⟨hnone, hdir, hmade name hname⟩

end Gains

theorem gains_makeDir (h : t.makeDir path = .ok t') : Gains (· = target path) t t' := by
  unfold makeDir at h
  split at h
  · cases h
  · cases h
  · next name hname =>
    split at h
    · cases h
    · next hnone =>
      cases h
      intro other
      rw [find?_put (by rw [hnone]; nofun)]
      split
      · next hother =>
        subst hother
        exact .inr ⟨hnone, rfl, (locate_eq_some_iff.1 hname).1⟩
      · exact .inl rfl

theorem makeDirs_empty (t : FileTree) (fuel : Nat) : (t.makeDirs "" fuel).2 = t := by
  cases fuel <;> rfl

/-- **Only directories are made that a path passes or leads to**, whether or not all of them can be
made. -/
theorem gains_makeDirs (t : FileTree) (path : String) (fuel : Nat) :
    Gains (fun name => Passes path name ∨ name = target path) t (t.makeDirs path fuel).2 := by
  induction fuel generalizing t path with
  | zero => exact .refl _ t
  | succ fuel ih =>
    have hlast {t t' : FileTree} (h : t.makeDir path = .ok t') :
        Gains (fun name => Passes path name ∨ name = target path) t t' :=
      (gains_makeDir h).mono fun _ => .inr
    rw [makeDirs]
    split
    · exact .refl _ t
    · split
      · next t' hmade => exact hlast hmade
      · split
        · exact .refl _ t
        · next parent hparent =>
          -- the parent may be the current directory, for which nothing is made
          have hfirst : Gains (fun name => Passes path name ∨ name = target path) t
              (t.makeDirs parent fuel).2 := by
            by_cases hempty : parent = ""
            · rw [hempty, makeDirs_empty]
              exact .refl _ t
            · exact (ih t parent).mono fun _ hname =>
                .inl (passes_of_parent? hparent hempty hname)
          split
          · next e t' hmade =>
            rw [hmade] at hfirst
            exact hfirst
          · next t' hmade =>
            rw [hmade] at hfirst
            split
            · next t'' hmade' => exact hfirst.trans (hlast hmade')
            · exact hfirst
      · exact .refl _ t

/-- Only directories are made for a parent that the path passes. -/
theorem gains_makeDirs_parent (h : parent? path = some parent) (t : FileTree) (fuel : Nat) :
    Gains (Passes path) t (t.makeDirs parent fuel).2 := by
  by_cases hempty : parent = ""
  · rw [hempty, makeDirs_empty]
    exact .refl _ t
  · exact (gains_makeDirs t parent fuel).mono fun _ => passes_of_parent? h hempty

/-! ## Files -/

/-- A file is made where a path leads to, unless there is a directory. -/
theorem create_eq_ok (h : t.create path = .ok (t', name)) :
    t.locate path = .ok (some name) ∧ endsInSlash path = false ∧
      t.find? name ≠ some .directory ∧ t' = t.put name (.file []) := by
  unfold create at h
  split at h
  · cases h
  · cases h
  · next name' hname =>
    split at h
    · cases h
    · next hslash =>
      split at h
      · cases h
      · next hfree =>
        cases h
        exact ⟨hname, Bool.eq_false_iff.2 hslash, hfree, rfl⟩

/-- Every directory of a tree is one of another. -/
def Keeps (t t' : FileTree) : Prop :=
  ∀ name, t.find? name = some .directory → t'.find? name = some .directory

theorem step_keeps {part : String} (hkeeps : t.Keeps t') (h : t.step name part = .ok name') :
    t'.step name part = .ok name' := by
  unfold step at h ⊢
  split at h
  · next hdot => rwa [if_pos hdot]
  · next hdot =>
    rw [if_neg hdot]
    split at h
    · next hup => rwa [if_pos hup]
    · next hup =>
      rw [if_neg hup]
      split at h
      · cases h
      · next hshort =>
        rw [if_neg hshort]
        split at h
        · next hdir => rwa [hkeeps _ hdir]
        · cases h
        · cases h

theorem walk_keeps (hkeeps : t.Keeps t') (h : t.walk name ps = .ok name') :
    t'.walk name ps = .ok name' := by
  induction ps generalizing name with
  | nil => exact h
  | cons part ps ih =>
    rw [walk] at h ⊢
    split at h
    · next next hnext =>
      rw [step_keeps hkeeps hnext]
      exact ih h
    · cases h

/-- Where directories are kept a path leads where it did. -/
theorem locate_keeps (hkeeps : t.Keeps t') (h : t.locate path = .ok (some name)) :
    t'.locate path = .ok (some name) := by
  obtain ⟨hname, hpath, hlast, at', hwalk⟩ := locate_eq_some_iff.1 h
  exact locate_eq_some_iff.2 ⟨hname, hpath, hlast, at', walk_keeps hkeeps hwalk⟩

theorem overwrite_length (content bs : Octets) :
    overwrite content content.length bs = content ++ bs := by
  simp [overwrite]

/-- What is written at the end of a file is added to it. -/
theorem find?_writeAt {content : Octets} (h : t.find? name = some (.file content)) (bs : Octets)
    (other : FileName) :
    (t.writeAt name content.length bs).find? other =
      if other = name then some (.file (content ++ bs)) else t.find? other := by
  have hwrite : t.writeAt name content.length bs = t.put name (.file (content ++ bs)) := by
    rw [writeAt, h]
    exact congrArg (fun c => t.put name (.file c)) (overwrite_length content bs)
  rw [hwrite, find?_put (by rw [h]; nofun)]

end FileTree

end Correlator
