import Shipment.Proofs.Config.Store
import Shipment.Proofs.System.Saved

/-!
# Which configuration applies

The file of a project comes first, then the global file, then the defaults: this is `layered`.
A run that needs the global file also creates it.  Where that can be done, what a run loads is
`layered` (`applying_eq`), and a run that loads something loads nothing else
(`layered_of_applying`).
-/

namespace Shipment.Config

open Work Files

variable {s s' : Scripted} {fs fs' : Files} {here : Place} {home path global : Path}
variable {project : String} {c : Config}

/-! ## The files of a home -/

/-- The configuration directory below a home. -/
def directoryIn (home : Path) : Path := (home.join ⟨".config"⟩).join ⟨"shipr"⟩

/-- The global file below a home. -/
def globalFile (home : Path) : Path := (directoryIn home).join fileName

/-- The file of a project below a home. -/
def projectFile (home : Path) (project : String) : Path :=
  ((directoryIn home).join ⟨project⟩).join fileName

/-- A name that a project can have without its directory being the global file. -/
structure IsProject (project : String) : Prop where
  isName : Path.IsName project
  ne_fileName : project ≠ fileName.text

theorem isName_config : Path.IsName ".config" := ⟨by decide, by decide, by decide, by decide⟩

theorem isName_shipr : Path.IsName "shipr" := ⟨by decide, by decide, by decide, by decide⟩

theorem isName_fileName : Path.IsName fileName.text := ⟨by decide, by decide, by decide, by decide⟩

theorem size_fileName : fileName.text.utf8ByteSize ≤ maxName := by decide

theorem endsIn_directoryIn (home : Path) : (directoryIn home).EndsIn "shipr" :=
  Path.endsIn_join _ isName_shipr

theorem directAt_directoryIn (h : fs.DirectAt here home) : fs.DirectAt here (directoryIn home) :=
  (h.join isName_config).join isName_shipr

theorem placeAt_globalFile (here : Place) (home : Path) :
    placeAt here (globalFile home) = placeAt here (directoryIn home) ++ [fileName.text] :=
  placeAt_join here _ isName_fileName

theorem placeAt_projectFile (here : Place) (home : Path) (h : IsProject project) :
    placeAt here (projectFile home project) =
      placeAt here (directoryIn home) ++ [project, fileName.text] := by
  rw [projectFile, placeAt_join here _ isName_fileName, placeAt_join here _ h.isName]
  simp

/-! ## Layers -/

/-- The configuration of a file, or if it is missing that of the global one, or the defaults. -/
def layered (fs : Files) (here : Place) (path global : Path) : Except Failure Config :=
  if fs.isThere here path then loadAt fs here path
  else if fs.isThere here global then loadAt fs here global
  else .ok {}

theorem loadAt_congr (h : SameAt fs fs' here path) (hthere : fs.isThere here path = true) :
    loadAt fs' here path = loadAt fs here path := by
  rw [loadAt, loadAt, h.readText_eq hthere]

/-- A file that is there is all that counts. -/
theorem layered_congr_of_there (hthere : fs.isThere here path = true)
    (h : SameAt fs fs' here path) :
    layered fs' here path global = layered fs here path global := by
  rw [layered, layered, if_pos hthere, if_pos (h.isThere_eq.trans hthere), loadAt_congr h hthere]

theorem layered_congr (hpath : SameAt fs fs' here path) (hglobal : SameAt fs fs' here global) :
    layered fs' here path global = layered fs here path global := by
  rw [layered, layered, hpath.isThere_eq, hglobal.isThere_eq]
  split
  · exact loadAt_congr hpath ‹_›
  · split
    · exact loadAt_congr hglobal ‹_›
    · rfl

/-- Without a file of its own, a project has what the global file gives. -/
theorem layered_of_missing (h : fs.isThere here path = false) :
    layered fs here path global = layered fs here global global := by
  rw [layered, layered, h, if_neg Bool.false_ne_true]
  split <;> rfl

theorem isThere_of_loadAt (h : loadAt fs here path = .ok c) : fs.isThere here path = true := by
  rw [loadAt, readText, Files.read] at h
  refine isThere_eq_true.mpr ?_
  cases hlookup : fs.lookup here path with
  | ok out => exact ⟨out, rfl⟩
  | error problem =>
      rw [hlookup] at h
      cases h

theorem layered_of_loadAt (h : loadAt fs here path = .ok c) :
    layered fs here path global = .ok c := by
  rw [layered, if_pos (isThere_of_loadAt h), h]

/-! ## Loading for a run -/

theorem ends_directory (hhome : s.home = some home) :
    ends Scripted.answer directory s = (.ok (directoryIn home), s) := by
  rw [directory, Scripted.ends_home, hhome]
  rfl

theorem ends_globalPath (hhome : s.home = some home) :
    ends Scripted.answer globalPath s = (.ok (globalFile home), s) := by
  rw [globalPath, ends_bind_ok (ends_directory hhome)]
  rfl

theorem ends_projectPath (hhome : s.home = some home) :
    ends Scripted.answer (projectPath project) s = (.ok (projectFile home project), s) := by
  rw [projectPath, ends_bind_ok (ends_directory hhome)]
  rfl

theorem uses_directory : directory.Uses fun c => Scripted.isLookup c :=
  Uses.bind (Uses.ask rfl) fun home => by cases home <;> exact Uses.ofExcept _

theorem uses_load (path : Path) : (load path).Uses fun c => Scripted.isLookup c := by
  refine Uses.bind (Uses.ask rfl) fun _ => Uses.bind (Uses.ofSystem _) fun text => ?_
  cases read text <;> exact Uses.ofExcept _

theorem uses_loadGlobal : loadGlobal.Uses fun c => Scripted.isOfFiles c := by
  refine Uses.bind (uses_directory.mono fun _ => Scripted.isOfFiles_of_isLookup) fun dir =>
    Uses.bind (Uses.ask rfl) fun there => ?_
  cases there with
  | true => exact (uses_load _).mono fun _ => Scripted.isOfFiles_of_isLookup
  | false =>
      exact Uses.bind (Uses.ask rfl) fun _ => Uses.bind (Uses.ofSystem _) fun _ =>
        Uses.bind (Uses.ask rfl) fun _ => Uses.bind (Uses.ofSystem _) fun _ => Uses.pure _

theorem uses_effective (project : Option String) :
    (effective project).Uses fun c => Scripted.isOfFiles c := by
  cases project with
  | none => exact uses_loadGlobal
  | some project =>
      refine Uses.bind (Uses.bind ?_ fun _ => Uses.pure _) fun path =>
        Uses.bind (Uses.ask rfl) fun there => ?_
      · exact uses_directory.mono fun _ => Scripted.isOfFiles_of_isLookup
      · cases there with
        | true => exact (uses_load _).mono fun _ => Scripted.isOfFiles_of_isLookup
        | false => exact uses_loadGlobal

/-- The configuration that applies to a project. -/
def applying (s : Scripted) (project : String) : Except Failure Config :=
  (ends Scripted.answer (effective (some project)) s).1

theorem ends_effective (hhome : s.home = some home) :
    ends Scripted.answer (effective (some project)) s =
      if s.files.isThere s.here (projectFile home project) then
        (loadAt s.files s.here (projectFile home project), s)
      else ends Scripted.answer loadGlobal s := by
  rw [effective]
  rw [ends_bind_ok (ends_projectPath hhome), Scripted.ends_isThere]
  split
  · exact ends_load
  · rfl

/-- Create a directory and write a file with a configuration to start with. -/
def create (dir path : Path) (text : String) (c : Config) : Work Config := do
  Work.ofSystem (← Work.ask (.createDirs dir))
  Work.ofSystem (← Work.ask (.writeText path text))
  return c

theorem ends_loadGlobal (hhome : s.home = some home) : ends Scripted.answer loadGlobal s =
    if s.files.isThere s.here (globalFile home) then
      (loadAt s.files s.here (globalFile home), s)
    else ends Scripted.answer (create (directoryIn home) (globalFile home) (fileText {}) {}) s := by
  rw [loadGlobal, ends_bind_ok (ends_directory hhome), Scripted.ends_isThere, globalFile]
  split
  · exact ends_load
  · rfl

theorem create_eq_ok {dir : Path} {text : String} {c' : Config} (h : ends Scripted.answer
    (create dir path text c) s = (.ok c', s')) : c' = c := by
  rw [create] at h
  obtain ⟨_, s₁, -, h⟩ := exists_of_ends_bind h
  obtain ⟨_, s₂, -, h⟩ := exists_of_ends_bind h
  obtain ⟨_, s₃, -, h⟩ := exists_of_ends_bind h
  obtain ⟨_, s₄, -, h⟩ := exists_of_ends_bind h
  cases h
  rfl

theorem create_of_ok {dir : Path} {text : String} {files files' : Files}
    (hdirs : s.files.createDirs s.here dir = (.ok (), files))
    (hwrite : files.write s.here path (Text.encode text) = .ok files') :
    (ends Scripted.answer (create dir path text c) s).1 = .ok c := by
  rw [create, Scripted.ends_createDirs_of_ok hdirs,
    Scripted.ends_writeText_of_ok (s := { s with files }) hwrite]
  rfl

/-- What applies depends on the files alone, and not on what tools would answer. -/
theorem applying_congr (h : Scripted.SameFiles s s') (project : String) :
    applying s' project = applying s project :=
  Scripted.ends_congr (uses_effective project) h

/-- A run that loads something has loaded it from the layers. -/
theorem layered_of_applying (hhome : s.home = some home) (h : applying s project = .ok c) :
    layered s.files s.here (projectFile home project) (globalFile home) = .ok c := by
  rw [applying, ends_effective hhome] at h
  rw [layered]
  split at h
  · rwa [if_pos ‹_›]
  · rw [if_neg ‹_›]
    rw [ends_loadGlobal hhome] at h
    split at h
    · rwa [if_pos ‹_›]
    · rw [if_neg ‹_›, create_eq_ok (Prod.ext h rfl)]

/-- The directory of the global file can be created, and the file can be written there if it is
missing. -/
def Usable (fs : Files) (here : Place) (home : Path) : Prop :=
  checkPath (globalFile home) = .ok () ∧
    ∃ files, fs.createDirs here (directoryIn home) = (.ok (), files) ∧
      files.isThere here (globalFile home) = fs.isThere here (globalFile home)

/-- What a run loads is what the layers give, where the global file is there or can be created. -/
theorem applying_eq (hhome : s.home = some home) (husable : Usable s.files s.here home) :
    applying s project = layered s.files s.here (projectFile home project) (globalFile home) := by
  rw [applying, ends_effective hhome, layered]
  split
  · rfl
  rw [ends_loadGlobal hhome]
  split
  · rfl
  obtain ⟨hcheck, files, hdirs, hthere⟩ := husable
  obtain ⟨-, hopens⟩ := opens_of_createDirs isName_shipr hdirs
  have hmissing : files.isThere s.here (globalFile home) = false := by
    rwa [hthere, ← Bool.not_eq_true]
  obtain ⟨files', hwrite⟩ : ∃ files',
      files.write s.here (globalFile home) (Text.encode (fileText {})) = .ok files' :=
    write_of_missing isName_fileName hcheck hopens size_fileName hmissing
  exact create_of_ok hdirs hwrite

/-- Where the configuration directory can be created, the layers can be used. -/
theorem usable_of_createDirs (htree : fs.IsTree) (hdirect : fs.DirectAt here home)
    (hcheck : checkPath (globalFile home) = .ok ())
    (hdirs : (fs.createDirs here (directoryIn home)).1 = .ok ()) : Usable fs here home :=
  ⟨hcheck, _, Prod.ext hdirs rfl,
    (sameAt_of_createDirs rfl htree (directAt_directoryIn hdirect) isName_fileName).isThere_eq⟩

/-- Where the configuration directory is there, the layers can be used. -/
theorem usable_of_opens (hcheck : checkPath (globalFile home) = .ok ())
    (hdirectory : checkPath (directoryIn home) = .ok ())
    (hopens : fs.OpensAt here (directoryIn home)) : Usable fs here home :=
  ⟨hcheck, fs, createDirs_of_opens isName_shipr hdirectory hopens, rfl⟩

/-! ## Saving -/

/-- A configuration that was saved in a directory was written there. -/
theorem saved_of_save {d : Path} {last : String} (hd : d.EndsIn last)
    (h : ends Scripted.answer (save (d.join fileName) c) s = (.ok (), s')) :
    (s.files.createDirs s.here d).1 = .ok () ∧
      Saved s.here d fileName.text (Text.encode c.fileText) s.files s'.files ∧
      s' = { s with files := s'.files } := by
  obtain ⟨files, hdirs, hwrite, hs⟩ := ends_save_ok h
  have hdirs := hdirs d (hd.parent?_join isName_fileName)
  exact ⟨by rw [hdirs], saved_of_write isName_fileName hdirs hwrite, hs⟩

section

variable {other : String} {content : ByteArray} (htree : fs.IsTree)
  (hdirect : fs.DirectAt here home)

include htree hdirect

/-- Saving the file of a project leaves the global file alone. -/
theorem sameAt_globalFile (hproject : IsProject project) (hsaved : Saved here
      ((directoryIn home).join ⟨project⟩) fileName.text content fs fs') :
    SameAt fs fs' here (globalFile home) := by
  have hdir := directAt_directoryIn hdirect
  refine sameAt_of_saved hsaved htree (hdir.join hproject.isName) hdir isName_fileName ?_ ?_
  · show placeAt here (globalFile home) ≠ placeAt here (projectFile home project)
    rw [placeAt_globalFile, placeAt_projectFile here home hproject]
    simp
  · show ¬placeAt here (globalFile home) <+: _
    rw [placeAt_globalFile, placeAt_join here _ hproject.isName]
    simpa [List.prefix_append_right_inj] using Ne.symm hproject.ne_fileName

/-- Saving the file of a project leaves the file of another one alone. -/
theorem sameAt_projectFile (hproject : IsProject project) (hother : IsProject other)
    (hne : other ≠ project) (hsaved : Saved here ((directoryIn home).join ⟨project⟩)
      fileName.text content fs fs') :
    SameAt fs fs' here (projectFile home other) := by
  have hdir := directAt_directoryIn hdirect
  refine sameAt_of_saved hsaved htree (hdir.join hproject.isName) (hdir.join hother.isName)
    isName_fileName ?_ ?_
  · show placeAt here (projectFile home other) ≠ placeAt here (projectFile home project)
    rw [placeAt_projectFile here home hother, placeAt_projectFile here home hproject]
    simpa using hne
  · show ¬placeAt here (projectFile home other) <+: _
    rw [placeAt_projectFile here home hother, placeAt_join here _ hproject.isName]
    simp [List.prefix_append_right_inj]

/-- Saving the global file leaves the files of projects alone. -/
theorem sameAt_projectFile_of_global (hproject : IsProject project)
    (hsaved : Saved here (directoryIn home) fileName.text content fs fs') :
    SameAt fs fs' here (projectFile home project) := by
  have hdir := directAt_directoryIn hdirect
  refine sameAt_of_saved hsaved htree hdir (hdir.join hproject.isName) isName_fileName ?_ ?_
  · show placeAt here (projectFile home project) ≠ placeAt here (globalFile home)
    rw [placeAt_globalFile, placeAt_projectFile here home hproject]
    simp
  · show ¬placeAt here (projectFile home project) <+: _
    rw [placeAt_projectFile here home hproject]
    exact not_append_prefix (List.cons_ne_nil _ _)

end

end Shipment.Config
