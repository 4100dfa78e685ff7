import Correlator.Proofs.Bodies
import Correlator.Proofs.FileTree.Making
import Correlator.Proofs.Send.Voyage

/-!
# Bodies that are saved

A body that is saved makes one file, of the bytes that came before its end or its first error, and
the directories on the way to it; nothing else is touched.

* `FileTree.Written`: the file at a path has some content, and all else is as it was.
* `Intake.runThrough_save`: pieces written to a file one after the other.
* `Intake.Opens`: a file made to be written to, or the fault that it cannot be;
  `Intake.opens_saving`.
* `BodyError.Reported`: the fault of a body that an error broke off.
* `Body.Downloads`: what a download leaves, in three cases; **`Body.downloads_download`**,
  `Body.Downloads.exists_ok_iff`.
* `Delivery.run_of_download?`: the delivery of a response that is saved.
* **`Delivery.download_outcome`**: what is left, and who hears of it, for any body, path and tree.
-/

namespace Correlator

/-- The file at a path has some content, and nothing else has changed but that directories were made
that the path passes. -/
structure FileTree.Written (path : String) (content : Octets) (t t' : FileTree) : Prop where
  located : t'.locate path = .ok (some (target path))
  read : t'.read? path = some content
  others : ∀ name, name ≠ target path →
    t'.find? name = t.find? name ∨
      t.find? name = none ∧ t'.find? name = some .directory ∧ Passes path name

namespace Intake

variable {files files' : FileTree} {path : String} {name : FileName} {content : Octets}
  {before : Body}

/-- Pieces with no error among them are added to the file. -/
theorem runThrough_save (hfile : files.find? name = some (.file content)) (hwhole : before.Whole)
    (rest : Body) :
    ∃ files' : FileTree,
      (∀ other, files'.find? other =
        if other = name then some (.file (content ++ before.bytes)) else files.find? other) ∧
      (save name content.length).runThrough files (before ++ rest) =
        (save name (content ++ before.bytes).length).runThrough files' rest := by
  induction before generalizing files content with
  | nil =>
    refine ⟨files, fun other => ?_, by simp [Body.bytes]⟩
    split
    · next hother => rw [hother, hfile, Body.bytes, List.flatMap_nil, List.append_nil]
    · rfl
  | cons piece before ih =>
    obtain ⟨hpiece, hbefore⟩ := (Body.whole_cons _ _).1 hwhole
    cases piece with
    | chunk bs =>
      have hwrite := FileTree.find?_writeAt hfile bs
      obtain ⟨files', hfind, hrun⟩ := ih (by rw [hwrite, if_pos rfl]) hbefore
      have hbytes : content ++ bs ++ Body.bytes before =
          content ++ Body.bytes (.chunk bs :: before) := by
        simp [Body.bytes]
      have hlength : (content ++ bs).length = content.length + bs.length := List.length_append
      rw [hbytes, hlength] at hrun
      refine ⟨files', fun other => ?_, hrun⟩
      rw [hfind, hwrite, hbytes]
      split <;> rfl
    | broken e => exact absurd rfl (hpiece e)
    | gate gate => exact ih hfile hbefore

/-- A file takes in all of a body, or its first error. -/
theorem runThrough_save_fst (name : FileName) (written : Nat) (files : FileTree) (body : Body) :
    (∃ n, ((save name written).runThrough files body).1 = .ok (.saved n)) ∨
      ∃ fault, ((save name written).runThrough files body).1 = .error fault := by
  induction body generalizing written files with
  | nil => exact .inl ⟨written, rfl⟩
  | cons piece rest ih =>
    cases piece with
    | chunk bs => exact ih _ _
    | broken e => exact .inr ⟨e.toFault, rfl⟩
    | gate gate => exact ih written files

/-- What comes of a file that is to be made to save a body in: it cannot be made, and perhaps some
of the directories were; or it was made in a tree where all of them are. -/
inductive Opens (path : String) (files : FileTree) : Except Fault Intake × FileTree → Prop
  | refused (place : String) (e : FileError) (files' : FileTree) :
    place = path ∨ FileTree.parent? path = some place → ¬ files.Admits path →
    FileTree.Gains (FileTree.Passes path) files files' →
    Opens path files (.error (cannotCreate place e), files')
  | opened (files₀ files' : FileTree) : FileTree.Gains (FileTree.Passes path) files files₀ →
    files₀.create path = .ok (files', FileTree.target path) →
    Opens path files (.ok (.save (FileTree.target path) 0), files')

theorem opens_create {files₀ : FileTree}
    (hgains : FileTree.Gains (FileTree.Passes path) files files₀)
    (hadmits : files.Admits path →
      ∃ files', files₀.create path = .ok (files', FileTree.target path)) :
    Opens path files
      (match files₀.create path with
      | .ok (files', name) => (.ok (.save name 0), files')
      | .error e => (.error (cannotCreate path e), files₀)) := by
  cases hmade : files₀.create path with
  | error e =>
    refine .refused path e files₀ (.inl rfl) (fun h => ?_) hgains
    obtain ⟨files', hfile⟩ := hadmits h
    cases hmade.symm.trans hfile
  | ok made =>
    obtain ⟨files', name⟩ := made
    obtain ⟨hlocated, -⟩ := FileTree.create_eq_ok hmade
    obtain ⟨rfl, -⟩ := FileTree.locate_eq_some_iff.1 hlocated
    exact .opened files₀ files' hgains hmade

theorem opens_saving (files : FileTree) (path : String) : Opens path files (saving files path) := by
  unfold saving
  cases hparent : FileTree.parent? path with
  | none =>
    refine opens_create (.refl _ _) fun h => ?_
    obtain ⟨parent, hsome⟩ := FileTree.exists_parent? h.ne_empty
    cases hparent.symm.trans hsome
  | some parent =>
    have hgains := FileTree.gains_makeDirs_parent hparent files (parent.length + 1)
    dsimp only
    rcases hmade : files.makeDirs parent (parent.length + 1) with ⟨e | _, files₀⟩
    · rw [hmade] at hgains
      refine .refused parent e files₀ (.inr hparent) (fun h => ?_) hgains
      obtain ⟨files', name, hdirs, -⟩ := h.exists_makeDirs hparent
      cases hmade.symm.trans hdirs
    · rw [hmade] at hgains
      refine opens_create hgains fun h => ?_
      obtain ⟨files', name, hdirs, -, hwalk⟩ := h.exists_makeDirs hparent
      cases hmade.symm.trans hdirs
      exact h.exists_create hgains hwalk

end Intake

namespace BodyError

/-- The fault of a body that an error broke off: the lost connection that the error is or came of,
and else a payload that cannot be read, with the text of the error. -/
inductive Reported (e : BodyError) : Fault → Prop
  | lost (url reason : String) : e.CameOf url reason → Reported e (.unavailable url reason)
  | unread : (∀ url reason, ¬ e.CameOf url reason) → Reported e (.payload e.text)

theorem reported_toFault (e : BodyError) : e.Reported e.toFault := by
  by_cases h : ∃ url reason, e.CameOf url reason
  · obtain ⟨url, reason, h⟩ := h
    exact h.toFault_eq ▸ .lost url reason h
  · have hnone (url reason : String) : ¬ e.CameOf url reason := fun hcame => h ⟨url, reason, hcame⟩
    exact toFault_eq_payload hnone ▸ .unread hnone

end BodyError

namespace Body

variable {body before rest : Body} {files files₀ files' : FileTree} {path : String}
  {content : Octets}

/-- What was written to a file that was made. -/
theorem written_of_create (hgains : FileTree.Gains (FileTree.Passes path) files files₀)
    (hmade : files₀.create path = .ok (files', FileTree.target path)) {files'' : FileTree}
    (hfind : ∀ other, files''.find? other =
      if other = FileTree.target path then some (.file content) else files'.find? other) :
    FileTree.Written path content files files'' := by
  obtain ⟨hlocated, hslash, hfree, rfl⟩ := FileTree.create_eq_ok hmade
  have hother (other : FileName) (hother : other ≠ FileTree.target path) :
      files''.find? other = files₀.find? other := by
    rw [hfind, if_neg hother, FileTree.find?_put hfree, if_neg hother]
  have hkeeps : files₀.Keeps files'' := fun name hdir => by
    rw [hother name fun hname => hfree (hname ▸ hdir), hdir]
  have hlocated' := FileTree.locate_keeps hkeeps hlocated
  refine ⟨hlocated', ?_, fun name hname => ?_⟩
  · rw [FileTree.read?, hlocated']
    dsimp only
    rw [hfind, if_pos rfl, hslash]
    rfl
  · rw [hother name hname]
    exact hgains name

/-- What a download leaves: the tree does not let its file be made; or it does, and there is the
file of a whole body, or of what came before the first error. -/
inductive Downloads (path : String) (files : FileTree) :
    Body → Except Fault Nat × FileTree → Prop
  | refused (body : Body) (place : String) (e : FileError) (files' : FileTree) :
    place = path ∨ FileTree.parent? path = some place → ¬ files.Admits path →
    FileTree.Gains (FileTree.Passes path) files files' →
    Downloads path files body (.error (Intake.cannotCreate place e), files')
  | saved (body : Body) (files' : FileTree) : files.Admits path → body.Whole →
    FileTree.Written path body.bytes files files' →
    Downloads path files body (.ok body.bytes.length, files')
  | broken (before : Body) (e : BodyError) (rest : Body) (fault : Fault) (files' : FileTree) :
    files.Admits path → before.Whole → e.Reported fault →
    FileTree.Written path before.bytes files files' →
    Downloads path files (before ++ .broken e :: rest) (.error fault, files')

/-- **A download ends in one of the three ways.** -/
theorem downloads_download (body : Body) (files : FileTree) (path : String) :
    Downloads path files body (body.download files path) := by
  have hopens := Intake.opens_saving files path
  unfold download
  generalize Intake.saving files path = opened at hopens ⊢
  cases hopens with
  | refused place e files' hplace hadmits hgains =>
    exact .refused body place e files' hplace hadmits hgains
  | opened files₀ files' hgains hmade =>
    have hadmits := FileTree.admits_of_create hgains hmade
    have hfile : files'.find? (FileTree.target path) = some (.file []) := by
      obtain ⟨-, -, hfree, rfl⟩ := FileTree.create_eq_ok hmade
      rw [FileTree.find?_put hfree, if_pos rfl]
    by_cases hwhole : body.Whole
    · obtain ⟨files'', hfind, hrun⟩ := Intake.runThrough_save hfile hwhole []
      rw [List.append_nil] at hrun
      have hrun : (Intake.save (FileTree.target path) 0).runThrough files' body =
          (.ok (.saved body.bytes.length), files'') := hrun
      dsimp only
      rw [hrun]
      exact .saved body files'' hadmits hwhole (written_of_create hgains hmade hfind)
    · obtain ⟨before, e, rest, rfl, hbefore⟩ := exists_broken hwhole
      obtain ⟨files'', hfind, hrun⟩ := Intake.runThrough_save hfile hbefore (.broken e :: rest)
      have hrun : (Intake.save (FileTree.target path) 0).runThrough files'
          (before ++ .broken e :: rest) = (.error e.toFault, files'') := hrun
      dsimp only
      rw [hrun]
      exact .broken before e rest _ files'' hadmits hbefore e.reported_toFault
        (written_of_create hgains hmade hfind)

/-- A download that succeeds was of a whole body, and all of it is in the file. -/
theorem Downloads.of_ok {n : Nat} {left : Except Fault Nat × FileTree}
    (h : Downloads path files body left) (hleft : left.1 = .ok n) :
    files.Admits path ∧ body.Whole ∧ FileTree.Written path body.bytes files left.2 := by
  cases h with
  | refused | broken => cases hleft
  | saved _ files' hadmits hwhole hwritten => exact ⟨hadmits, hwhole, hwritten⟩

/-- **A download succeeds just where a file can be made**, if its body is whole. -/
theorem Downloads.exists_ok_iff {left : Except Fault Nat × FileTree}
    (h : Downloads path files body left) :
    (∃ n, left.1 = .ok n) ↔ files.Admits path ∧ body.Whole := by
  constructor
  · rintro ⟨n, hn⟩
    obtain ⟨hadmits, hwhole, -⟩ := h.of_ok hn
    exact ⟨hadmits, hwhole⟩
  · rintro ⟨hadmits, hwhole⟩
    cases h with
    | refused _ place e files' hplace hrefused => exact absurd hadmits hrefused
    | saved => exact ⟨_, rfl⟩
    | broken before e rest => exact absurd (by simp) (hwhole e)

/-- A file is made at no empty path. -/
theorem ne_empty_of_download {n : Nat} (h : (body.download files path).1 = .ok n) : path ≠ "" := by
  rintro rfl
  obtain ⟨hadmits, -⟩ := (downloads_download body files "").of_ok h
  exact hadmits.ne_empty rfl

end Body

/-! ## The event of a response that is saved -/

namespace Delivery

variable {α β : Type} {d : Delivery α} {path : String}

theorem files_report (registry : Registry β) (files : FileTree) (step : DeliveryStep α) :
    (d.report registry files step).files = files := by
  cases step <;> rfl

/-- A delivery that saves the body goes by what the download comes to. -/
theorem run_of_download? (h : d.download? = some path) (registry : Registry β) (files : FileTree)
    (message : Message) :
    d.run registry files (.ok message) =
      d.report registry (message.body.download files path).2
        (d.conclude message.endpoint ((message.body.download files path).1.map Taken.saved)) := by
  have hopens := Intake.opens_saving files path
  have hbegin : d.begin files = Intake.saving files path := by rw [begin, h]
  simp only [run, Body.download, hbegin]
  generalize Intake.saving files path = opened at hopens ⊢
  cases hopens with
  | refused => rfl
  | opened files₀ files' =>
    dsimp only
    obtain ⟨n, hsaved⟩ | ⟨fault, hbroken⟩ :=
      Intake.runThrough_save_fst (FileTree.target path) 0 files' message.body
    · generalize (Intake.save (FileTree.target path) 0).runThrough files' message.body = left
        at hsaved ⊢
      obtain ⟨_, files''⟩ := left
      cases hsaved
      rfl
    · generalize (Intake.save (FileTree.target path) 0).runThrough files' message.body = left
        at hbroken ⊢
      obtain ⟨_, files''⟩ := left
      cases hbroken
      rfl

/-- **A saved body is handed on as its path**, and one that is not saved is not handed on. -/
theorem handed?_of_download? (h : d.download? = some path) (registry : Registry β)
    (files : FileTree) (message : Message) :
    (∀ n, (message.body.download files path).1 = .ok n →
      (d.run registry files (.ok message)).handed? =
        (d.route registry (statusOf message.endpoint)).map fun taker =>
          (taker, ⟨path, d.metadataFor message.endpoint⟩)) ∧
    ∀ fault, (message.body.download files path).1 = .error fault →
      (d.run registry files (.ok message)).handed? = none ∧
        (d.run registry files (.ok message)).state = .failed fault := by
  rw [run_of_download? h]
  refine ⟨fun n hn => ?_, fun fault hfault => ?_⟩
  · have hpath : path.isEmpty = false :=
      Bool.eq_false_iff.2 fun hempty =>
        Body.ne_empty_of_download hn (String.isEmpty_iff.1 hempty)
    simp [hn, Except.map, conclude, h, hpath, report]
  · simp [hfault, Except.map, conclude, h, report]

/-- **What a download leaves, and who hears of it.**

It succeeds just if the tree lets the file be made and the body is whole. Then the file at the path
holds the bytes of the body and nothing from before, and the number is theirs. If the body breaks
off, the file holds what came before, and the fault is the lost connection that the error is or came
of, or else has the text of the error. Whatever comes of it, nothing else has changed but that
directories were made where there was nothing and the path passes.

A delivery leaves the same files. It hands on an event if the download succeeds and somebody takes
it, whose payload is the path, and otherwise none; a request that failed downloads nothing. -/
theorem download_outcome (d : Delivery α) (h : d.download? = some path) (registry : Registry β)
    (files : FileTree) (message : Message) :
    message.body.Downloads path files (message.body.download files path) ∧
    ((∃ n, (message.body.download files path).1 = .ok n) ↔
      files.Admits path ∧ message.body.Whole) ∧
    (d.run registry files (.ok message)).files = (message.body.download files path).2 ∧
    (∀ n, (message.body.download files path).1 = .ok n →
      (d.run registry files (.ok message)).handed? =
        (d.route registry (statusOf message.endpoint)).map fun taker =>
          (taker, ⟨path, d.metadataFor message.endpoint⟩)) ∧
    (∀ fault, (message.body.download files path).1 = .error fault →
      (d.run registry files (.ok message)).handed? = none ∧
        (d.run registry files (.ok message)).state = .failed fault) ∧
    ∀ fault, (d.run registry files (.error fault)).handed? = none ∧
      (d.run registry files (.error fault)).files = files := by
  obtain ⟨hhanded, hfailed⟩ := handed?_of_download? h registry files message
  have hdownloads := message.body.downloads_download files path
  refine ⟨hdownloads, hdownloads.exists_ok_iff, ?_, hhanded, hfailed, fun fault => ⟨rfl, rfl⟩⟩
  rw [run_of_download? h, files_report]

/-- A longer file is written anew and announced; one whose body breaks off is kept with what came,
in a directory that was made for it, and nobody hears of it. -/
theorem download_outcome_log :
    let files : FileTree := ⟨[(["log"], .file [1, 2, 3, 4]), (["old"], .directory)]⟩
    let d (path : String) : Delivery String := ⟨"http://h/", .direct "c", .empty, some path, 9⟩
    let lost : BodyError := .wrapped "eof" (.fault (.unavailable "http://h/" "reset"))
    let run (path : String) (body : Body) : Report String String :=
      (d path).run .empty files (.ok ⟨default, [], body⟩)
    let whole := run "log" [.chunk [7], .chunk [8]]
    let broken := run "old/new/log" [.chunk [7], .broken lost, .chunk [8]]
    whole.handed? = some (.inl "c", ⟨"log", (d "log").metadataFor default⟩) ∧
      whole.files.read? "log" = some [7, 8] ∧ whole.files.find? ["old"] = some .directory ∧
      broken.handed? = none ∧ broken.state = .failed (.unavailable "http://h/" "reset") ∧
      broken.files.read? "old/new/log" = some [7] := by
  intro files d lost run whole broken
  obtain ⟨hleft, -, hfiles, hhanded, -, -⟩ :=
    (d "log").download_outcome rfl Registry.empty files ⟨default, [], [.chunk [7], .chunk [8]]⟩
  obtain ⟨-, -, -, -, hfailed, -⟩ := (d "old/new/log").download_outcome rfl Registry.empty files
    ⟨default, [], [.chunk [7], .broken lost, .chunk [8]]⟩
  obtain ⟨-, -, hwritten⟩ := hleft.of_ok (n := 2) (by decide +kernel)
  obtain ⟨hnone, hstate⟩ := hfailed (.unavailable "http://h/" "reset") (by decide +kernel)
  refine ⟨hhanded 2 (by decide +kernel), ?_, ?_, hnone, hstate, by decide +kernel⟩
  · rw [hfiles, hwritten.read]
    rfl
  · rw [hfiles]
    rcases hwritten.others ["old"] (by decide +kernel) with hsame | ⟨-, hdir, -⟩
    · exact hsame.trans (by decide +kernel)
    · exact hdir

end Delivery

end Correlator
