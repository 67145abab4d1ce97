import Shipment.Command.Configure
import Shipment.Proofs.Config.Layers
import Shipment.Proofs.Config.Shown
import Shipment.Proofs.Quiet

/-!
# Setting and showing a configuration

A run loads a configuration, setting a key starts from one, and showing prints one.  Each has its
own text, but all of them look for it in the same layers.  So setting a key in a file changes that
key in what the file gives, and nothing in what another gives.
-/

namespace Shipment.Command

open Work Files
open Config (IsProject Usable applying layered loadAt directoryIn globalFile projectFile fileName)

variable {s s' : Scripted} {home path global : Path} {project other key value : String} {c : Config}

/-! ## Starting from a configuration -/

theorem ends_loadOr {otherwise : Work Config} :
    ends Scripted.answer (loadOr otherwise path) s =
      if s.files.isThere s.here path then (loadAt s.files s.here path, s)
      else ends Scripted.answer otherwise s := by
  rw [loadOr, Scripted.ends_isThere]
  split
  · exact Config.ends_load
  · rfl

theorem ends_loadOr_layers :
    ends Scripted.answer (loadOr (loadOr (return {}) global) path) s =
      (layered s.files s.here path global, s) := by
  rw [ends_loadOr, ends_loadOr, layered]
  split
  · rfl
  · split <;> rfl

/-- Setting a key saves what comes of it, or stops before anything is written. -/
theorem ends_setIn : ends Scripted.answer (setIn path global key value) s =
    match (layered s.files s.here path global).bind (Config.set key value) with
    | .ok c => ends Scripted.answer (Config.save path c) s
    | .error e => (.error e, s) := by
  rw [setIn, ends_bind, ends_loadOr_layers]
  cases layered s.files s.here path global with
  | error e => rfl
  | ok c =>
      show ends Scripted.answer (Work.ofExcept (c.set key value) >>= Config.save path) s = _
      rw [ends_bind, ends_ofExcept]
      show _ = match Config.set key value c with | .ok c => _ | .error e => _
      cases Config.set key value c <;> rfl

/-- A key that was set was set in what the layers give, and what came of it was saved. -/
theorem exists_of_ends_setIn
    (h : ends Scripted.answer (setIn path global key value) s = (.ok (), s')) :
    ∃ c c', layered s.files s.here path global = .ok c ∧ c.set key value = .ok c' ∧
      ends Scripted.answer (Config.save path c') s = (.ok (), s') := by
  rw [ends_setIn] at h
  cases hlayered : layered s.files s.here path global with
  | error e =>
      rw [hlayered] at h
      cases h
  | ok c =>
      rw [hlayered] at h
      change (match Config.set key value c with | .ok c => _ | .error e => _) = _ at h
      cases hset : Config.set key value c with
      | error e =>
          rw [hset] at h
          cases h
      | ok c' =>
          rw [hset] at h
          exact ⟨c, c', rfl, hset, h⟩

/-! ## Setting a key -/

/-- One key was set.  A configuration is read back only if its base is plain. -/
def SetsKey (key value : String) (before after : Except Failure Config) : Prop :=
  ∃ c c', before = .ok c ∧ c.set key value = .ok c' ∧ (c'.isPlain → after = .ok c')

/-- What setting a key in the file of a project changes. -/
structure SetsInProject (key value project : String) (s s' : Scripted) : Prop where
  own : SetsKey key value (applying s project) (applying s' project)
  others : ∀ other, IsProject other → other ≠ project → applying s' other = applying s other

/-- What setting a key in the global file below a home changes. -/
structure SetsInGlobal (key value : String) (home : Path) (s s' : Scripted) : Prop where
  withoutFile : ∀ project, IsProject project →
    s.files.isThere s.here (projectFile home project) = false →
      SetsKey key value (applying s project) (applying s' project)
  withFile : ∀ project, IsProject project →
    s.files.isThere s.here (projectFile home project) = true →
      applying s' project = applying s project

section

variable (htree : s.files.IsTree) (hhome : s.home = some home)
  (hdirect : s.files.DirectAt s.here home)

include htree hhome hdirect

/-- Setting a key in the file of a project changes what applies to that project alone. -/
theorem setsInProject_of_setIn (hproject : IsProject project)
    (h : ends Scripted.answer (setIn (projectFile home project) (globalFile home) key value) s =
      (.ok (), s')) : SetsInProject key value project s s' := by
  obtain ⟨c, c', hstart, hset, hsave⟩ := exists_of_ends_setIn h
  obtain ⟨hdirs, hsaved, hs⟩ :=
    Config.saved_of_save (Path.endsIn_join (directoryIn home) hproject.isName) hsave
  generalize s'.files = fs' at hsaved hs
  subst hs
  -- What the file of the project needs is more than what the global file needs.
  obtain ⟨hcheckDir, hcheck⟩ := checkPath_above (Config.endsIn_directoryIn home) hproject.isName
    Config.isName_fileName hsaved.checked
  have hbefore : Usable s.files s.here home := Config.usable_of_createDirs htree hdirect hcheck
    (createDirs_above Config.isName_shipr hproject.isName hcheckDir (Prod.ext hdirs rfl))
  have hafter : Usable fs' s.here home :=
    Config.usable_of_opens hcheck hcheckDir ((opensAt_join hproject.isName).mp hsaved.opens).1
  refine ⟨⟨c, c', ?_, hset, fun hplain => ?_⟩, fun other hother hne => ?_⟩
  · rw [Config.applying_eq hhome hbefore, hstart]
  · rw [Config.applying_eq (s := { s with files := fs' }) hhome hafter]
    exact Config.layered_of_loadAt ((Config.load_of_save hsave).trans (if_pos hplain))
  · rw [Config.applying_eq (s := { s with files := fs' }) hhome hafter,
      Config.applying_eq hhome hbefore]
    exact Config.layered_congr
      (Config.sameAt_projectFile htree hdirect hproject hother hne hsaved)
      (Config.sameAt_globalFile htree hdirect hproject hsaved)

/-- Setting a key in the global file changes what applies to the projects without a file. -/
theorem setsInGlobal_of_setIn
    (h : ends Scripted.answer (setIn (globalFile home) (globalFile home) key value) s =
      (.ok (), s')) : SetsInGlobal key value home s s' := by
  obtain ⟨c, c', hstart, hset, hsave⟩ := exists_of_ends_setIn h
  obtain ⟨hdirs, hsaved, hs⟩ := Config.saved_of_save (Config.endsIn_directoryIn home) hsave
  generalize s'.files = fs' at hsaved hs
  subst hs
  have hbefore : Usable s.files s.here home :=
    Config.usable_of_createDirs htree hdirect hsaved.checked hdirs
  have hafter : Usable fs' s.here home := Config.usable_of_opens hsaved.checked
    (opens_of_createDirs Config.isName_shipr (Prod.ext hdirs rfl)).1 hsaved.opens
  refine ⟨fun project hproject hmissing => ⟨c, c', ?_, hset, fun hplain => ?_⟩,
    fun project hproject hthere => ?_⟩
  · rw [Config.applying_eq hhome hbefore, Config.layered_of_missing hmissing, hstart]
  · have hsame := Config.sameAt_projectFile_of_global htree hdirect hproject hsaved
    rw [Config.applying_eq (s := { s with files := fs' }) hhome hafter,
      Config.layered_of_missing (hsame.isThere_eq.trans hmissing)]
    exact Config.layered_of_loadAt ((Config.load_of_save hsave).trans (if_pos hplain))
  · rw [Config.applying_eq (s := { s with files := fs' }) hhome hafter,
      Config.applying_eq hhome hbefore]
    exact Config.layered_congr_of_there hthere
      (Config.sameAt_projectFile_of_global htree hdirect hproject hsaved)

end

/-! ## What writes nothing -/

/-- A piece that only reads. -/
def Reads {α : Type} (m : Work α) : Prop := m.Uses fun c => Scripted.isReading c

theorem reads_directory : Reads Config.directory :=
  Config.uses_directory.mono fun _ => Scripted.isReading_of_isLookup

theorem reads_globalPath : Reads Config.globalPath :=
  Uses.bind reads_directory fun _ => Uses.pure _

theorem reads_projectPath (project : String) : Reads (Config.projectPath project) :=
  Uses.bind reads_directory fun _ => Uses.pure _

theorem reads_loadOr {otherwise : Work Config} (h : Reads otherwise) (path : Path) :
    Reads (loadOr otherwise path) :=
  Uses.bind (Uses.ask rfl) fun there => by
    cases there with
    | true => exact (Config.uses_load path).mono fun _ => Scripted.isReading_of_isLookup
    | false => exact h

theorem reads_projectName (dir : Option Path) : Reads (projectName dir) := by
  refine Uses.bind (Uses.attempt (Uses.bind ?_ fun _ => ?_)) fun root => ?_
  · cases dir with
    | some dir => exact Uses.pure _
    | none => exact Uses.bind (Uses.ask rfl) fun _ => Uses.ofSystem _
  · refine Uses.bind (Uses.bind (Uses.ask rfl) fun _ => Uses.ofSystem _) fun o => ?_
    split <;> exact Uses.ofExcept _
  · cases root <;> exact Uses.ofExcept _

theorem reads_requireProject (dir : Option Path) : Reads (requireProject dir) :=
  Uses.bind (reads_projectName dir) fun project => by cases project <;> exact Uses.ofExcept _

theorem reads_changedPath (global : Bool) (dir : Option Path) : Reads (changedPath global dir) := by
  cases global with
  | true => exact reads_globalPath
  | false => exact Uses.bind (reads_requireProject dir) fun project => reads_projectPath project

theorem reads_showGlobal : Reads showGlobal :=
  Uses.bind reads_globalPath fun path => Uses.bind (Uses.print _) fun _ =>
    Uses.bind (reads_loadOr (Uses.bind (Uses.print _) fun _ => Uses.pure _) path) fun _ =>
      Uses.print _

theorem reads_showProject (project : String) : Reads (showProject project) := by
  refine Uses.bind (reads_projectPath project) fun path => Uses.bind (Uses.print _) fun _ =>
    Uses.bind (reads_loadOr ?_ path) fun _ => Uses.print _
  exact Uses.bind (Uses.print _) fun _ =>
    Uses.bind reads_globalPath fun global => reads_loadOr (Uses.pure _) global

/-- Showing a configuration writes nothing. -/
theorem reads_showConfig (scope : Scope) (dir : Option Path) : Reads (showConfig scope dir) := by
  cases scope with
  | global => exact reads_showGlobal
  | project => exact Uses.bind (reads_requireProject dir) fun project => reads_showProject project
  | both =>
      refine Uses.bind reads_showGlobal fun _ => Uses.bind (reads_projectName dir) fun project => ?_
      cases project with
      | none => exact Uses.pure _
      | some project => exact Uses.bind (Uses.print _) fun _ => reads_showProject project

/-! ## The file that is changed -/

section

variable {s₁ : Scripted} {dir : Option Path}

theorem ends_requireProject
    (hname : (ends Scripted.answer (projectName dir) s).1 = .ok (some project)) :
    ∃ s₁, Scripted.SameFiles s s₁ ∧
      ends Scripted.answer (requireProject dir) s = (.ok project, s₁) :=
  ⟨_, Scripted.sameFiles_of_uses (reads_projectName dir) s,
    ends_bind_ok (Prod.ext hname rfl)⟩

/-- The file of the project is found by its name, and the global one without. -/
theorem ends_changedPath {global : Bool} (hhome : s.home = some home)
    (hname : global = false →
      (ends Scripted.answer (projectName dir) s).1 = .ok (some project)) :
    ∃ s₁, Scripted.SameFiles s s₁ ∧ ends Scripted.answer (changedPath global dir) s =
      (.ok (if global then globalFile home else projectFile home project), s₁) := by
  cases global with
  | true => exact ⟨s, .refl s, Config.ends_globalPath hhome⟩
  | false =>
      obtain ⟨s₁, hsame, hends⟩ := ends_requireProject (hname rfl)
      refine ⟨s₁, hsame, ?_⟩
      rw [changedPath, if_neg Bool.false_ne_true, ends_bind_ok hends]
      exact Config.ends_projectPath (hsame.home.trans hhome)

/-- Setting a key is over when the file is written. -/
theorem ends_setConfig {global : Bool} (hhome : s.home = some home)
    (hpath : ends Scripted.answer (changedPath global dir) s = (.ok path, s₁)) :
    ends Scripted.answer (setConfig key value global dir) s =
      ends Scripted.answer (setIn path (globalFile home) key value) s₁ := by
  rw [setConfig, ends_bind_ok (Config.ends_globalPath hhome), ends_bind_ok hpath, ends_bind]
  obtain ⟨r, s₂⟩ := ends Scripted.answer (setIn path (globalFile home) key value) s₁
  cases r <;> rfl

end

/-! ## What is refused -/

section

variable {α β : Type} {m : Work α} {f : α → Work β} {e : Failure} {dir : Option Path}

/-- A piece ends in a failure and leaves every file as it was. -/
def Refuses (m : Work α) (s : Scripted) : Prop :=
  (∃ e, (ends Scripted.answer m s).1 = .error e) ∧
    Scripted.SameFiles s (ends Scripted.answer m s).2

theorem Refuses.bind (h : Refuses m s) : Refuses (m >>= f) s := by
  obtain ⟨⟨e, he⟩, hsame⟩ := h
  rw [Refuses, ends_bind_error (Prod.ext he rfl)]
  exact ⟨⟨e, rfl⟩, hsame⟩

/-- A piece is refused behind one that reads, if it is wherever that one gives a value. -/
theorem Reads.refuses_bind (hm : Reads m)
    (hf : ∀ a s', ends Scripted.answer m s = (.ok a, s') → Scripted.SameFiles s s' →
      Refuses (f a) s') : Refuses (m >>= f) s := by
  have hsame := Scripted.sameFiles_of_uses hm s
  cases hends : ends Scripted.answer m s with
  | mk r s' =>
      rw [hends] at hsame
      cases r with
      | error e =>
          rw [Refuses, ends_bind_error hends]
          exact ⟨⟨e, rfl⟩, hsame⟩
      | ok a =>
          obtain ⟨hfail, hrest⟩ := hf a s' hends hsame
          rw [Refuses, ends_bind_ok hends]
          exact ⟨hfail, hsame.trans hrest⟩

theorem refuses_setIn
    (h : (layered s.files s.here path global).bind (Config.set key value) = .error e) :
    Refuses (setIn path global key value) s := by
  rw [Refuses, ends_setIn, h]
  exact ⟨⟨e, rfl⟩, .refl s⟩

/-- Whether a key and a value are taken does not depend on the configuration. -/
theorem set_eq_error (h : Config.set key value c = .error e) (c' : Config) :
    Config.set key value c' = .error e := by
  have hswitch {f f' : Bool → Config} (h : (Config.readSwitch key value).map f = .error e) :
      (Config.readSwitch key value).map f' = .error e := by
    cases hread : Config.readSwitch key value with
    | error e' =>
        rw [hread] at h
        exact h
    | ok b =>
        rw [hread] at h
        cases h
  unfold Config.set at h ⊢
  by_cases hdraft : key = "draft"
  · rw [if_pos hdraft] at h ⊢
    exact hswitch h
  rw [if_neg hdraft] at h ⊢
  by_cases hsync : key = "sync"
  · rw [if_pos hsync] at h ⊢
    exact hswitch h
  rw [if_neg hsync] at h ⊢
  by_cases hbase : key = "base"
  · rw [if_pos hbase] at h
    cases h
  · rwa [if_neg hbase] at h ⊢

/-- A key or a value that is not taken is refused before anything is written. -/
theorem refuses_setConfig_of_set (h : Config.set key value c = .error e) (global : Bool)
    (dir : Option Path) (s : Scripted) : Refuses (setConfig key value global dir) s := by
  refine reads_globalPath.refuses_bind fun globalPath s₁ _ _ =>
    (reads_changedPath global dir).refuses_bind fun path s₂ _ _ => Refuses.bind ?_
  cases hstart : layered s₂.files s₂.here path globalPath with
  | error e' => exact refuses_setIn (e := e') (by rw [hstart]; rfl)
  | ok c' => exact refuses_setIn (e := e) (by rw [hstart]; exact set_eq_error h c')

/-- A file that cannot be started from is refused before anything is written. -/
theorem refuses_setConfig_of_start {global : Bool} (hhome : s.home = some home)
    (hname : global = false →
      (ends Scripted.answer (projectName dir) s).1 = .ok (some project))
    (h : layered s.files s.here (if global then globalFile home else projectFile home project)
      (globalFile home) = .error e) :
    Refuses (setConfig key value global dir) s := by
  obtain ⟨s₁, hsame, hpath⟩ := ends_changedPath hhome hname
  generalize (if global then globalFile home else projectFile home project) = path at h hpath
  have hrefuses : Refuses (setIn path (globalFile home) key value) s₁ :=
    refuses_setIn (e := e) (by rw [hsame.files, hsame.here, h]; rfl)
  rw [Refuses, ends_setConfig hhome hpath]
  exact ⟨hrefuses.1, hsame.trans hrefuses.2⟩

end

/-! ## What is shown -/

section

variable {σ : Type} {h : Handler system σ} {t : σ} {dir : Option Path}

theorem silent_projectName : Silent (projectName dir) := by
  refine (TellsOnly.attempt (silent_workingDir.bind fun _ => Git.silent_discover)).bind fun root => ?_
  cases root with
  | ok root => exact .pure _
  | error e => exact .pure _

theorem silent_requireProject : Silent (requireProject dir) := by
  refine silent_projectName.bind fun project => ?_
  cases project with
  | none => exact .fail _
  | some project => exact .pure _

theorem printed_loadOr {otherwise : Work Config} :
    printed Scripted.answer (loadOr otherwise path) s =
      if s.files.isThere s.here path then [] else printed Scripted.answer otherwise s := by
  rw [loadOr, printed_bind_ok rfl]
  show [] ++ printed Scripted.answer
    (if s.files.isThere s.here path then Config.load path else otherwise) s = _
  rw [List.nil_append]
  split
  · exact Config.silent_load.printed _ _
  · rfl

/-- A text is printed in front of what comes behind it. -/
theorem printed_out_bind {α : Type} {text : String} {f : Unit → Work α} :
    printed h (out text >>= f) t = .out text :: printed h (f ()) t :=
  printed_bind_ok ends_print

/-- What is loaded to be shown for a project without a file. -/
def showInstead : Work Config := do
  out (missingFile "global config or defaults")
  loadOr (return {}) (← Config.globalPath)

theorem ends_showInstead (hhome : s.home = some home) : ends Scripted.answer showInstead s =
    ends Scripted.answer (loadOr (return {}) (globalFile home)) s :=
  (ends_bind_ok ends_print).trans (ends_bind_ok (Config.ends_globalPath hhome))

theorem printed_showInstead (hhome : s.home = some home) :
    printed Scripted.answer showInstead s = [.out (missingFile "global config or defaults")] := by
  have hload : printed Scripted.answer (loadOr (return {}) (globalFile home)) s = [] := by
    rw [printed_loadOr, printed_pure, ite_self]
  rw [showInstead, printed_out_bind, printed_bind_ok (Config.ends_globalPath hhome),
    Config.silent_globalPath.printed, hload]
  rfl

/-- What is printed for a project: which file is meant, whether it is missing, and the
configuration. -/
def display (fs : Files) (here : Place) (home : Path) (project : String) (c : Config) :
    List Printed :=
  .out (heading ("Project config (" ++ project ++ ")") (projectFile home project)) ::
    ((if fs.isThere here (projectFile home project) then []
      else [.out (missingFile "global config or defaults")]) ++ [.out (shownConfig c)])

/-- What is shown for a project is what the layers give. -/
theorem shows_showProject (hhome : s.home = some home)
    (hlayered : layered s.files s.here (projectFile home project) (globalFile home) = .ok c) :
    ends Scripted.answer (showProject project) s = (.ok (), s) ∧
      printed Scripted.answer (showProject project) s =
        display s.files s.here home project c := by
  have hpath : ends Scripted.answer (Config.projectPath project) s =
      (.ok (projectFile home project), s) := Config.ends_projectPath hhome
  have hload : ends Scripted.answer (loadOr showInstead (projectFile home project)) s =
      (.ok c, s) := by
    rw [ends_loadOr, ends_showInstead hhome, ← ends_loadOr, ends_loadOr_layers, hlayered]
  constructor
  · refine (ends_bind_ok hpath).trans ((ends_bind_ok ends_print).trans ?_)
    exact (ends_bind_ok hload).trans ends_print
  · refine (printed_bind_ok hpath).trans ?_
    rw [Config.silent_projectPath.printed, List.nil_append, printed_out_bind]
    refine congrArg (_ :: ·) ((printed_bind_ok hload).trans ?_)
    rw [printed_loadOr, printed_showInstead hhome]
    rfl

end

/-! ## Commands -/

section

variable {dir : Option Path}

theorem isName_of_projectName
    (h : (ends Scripted.answer (projectName dir) s).1 = .ok (some project)) :
    Path.IsName project := by
  obtain ⟨root, s', -, hroot⟩ := exists_of_ends_bind (Prod.ext h rfl)
  cases root with
  | error e => cases hroot
  | ok root => exact Path.isName_of_fileName? (Except.ok.inj (congrArg Prod.fst hroot))

/-- A key that was set for a project is set for that project alone. -/
theorem setsInProject_of_setConfig (htree : s.files.IsTree) (hhome : s.home = some home)
    (hdirect : s.files.DirectAt s.here home)
    (hname : (ends Scripted.answer (projectName dir) s).1 = .ok (some project))
    (hne : project ≠ fileName.text)
    (h : ends Scripted.answer (setConfig key value false dir) s = (.ok (), s')) :
    SetsInProject key value project s s' := by
  obtain ⟨s₁, hsame, hpath⟩ : ∃ s₁, Scripted.SameFiles s s₁ ∧
      ends Scripted.answer (changedPath false dir) s = (.ok (projectFile home project), s₁) :=
    ends_changedPath hhome fun _ => hname
  rw [ends_setConfig hhome hpath] at h
  rw [← hsame.files] at htree hdirect
  rw [← hsame.here] at hdirect
  obtain ⟨hown, hothers⟩ := setsInProject_of_setIn htree (hsame.home.trans hhome) hdirect
    ⟨isName_of_projectName hname, hne⟩ h
  simp only [Config.applying_congr hsame] at hown hothers
  exact ⟨hown, hothers⟩

/-- A key that was set globally is set for every project without a file. -/
theorem setsInGlobal_of_setConfig (htree : s.files.IsTree) (hhome : s.home = some home)
    (hdirect : s.files.DirectAt s.here home)
    (h : ends Scripted.answer (setConfig key value true dir) s = (.ok (), s')) :
    SetsInGlobal key value home s s' := by
  have hpath : ends Scripted.answer (changedPath true dir) s = (.ok (globalFile home), s) :=
    Config.ends_globalPath hhome
  rw [ends_setConfig hhome hpath] at h
  exact setsInGlobal_of_setIn htree hhome hdirect h

/-- What is shown for a project is what applies to it. -/
theorem shows_showConfig (hhome : s.home = some home)
    (hname : (ends Scripted.answer (projectName dir) s).1 = .ok (some project))
    (happlies : applying s project = .ok c) :
    (ends Scripted.answer (showConfig .project dir) s).1 = .ok () ∧
      printed Scripted.answer (showConfig .project dir) s =
        display s.files s.here home project c ∧
      ∀ c', Config.ShownIn (shownConfig c) c' ↔ c' = c := by
  obtain ⟨s₁, hsame, hproject⟩ := ends_requireProject hname
  have hlayered := Config.layered_of_applying hhome happlies
  rw [← hsame.files, ← hsame.here] at hlayered
  obtain ⟨hends, hprinted⟩ := shows_showProject (hsame.home.trans hhome) hlayered
  rw [hsame.files, hsame.here] at hprinted
  refine ⟨?_, ?_, fun _ => Config.shownIn_shownConfig⟩
  · rw [showConfig, ends_bind_ok hproject, hends]
  · rw [showConfig, printed_bind_ok hproject, silent_requireProject.printed, hprinted]
    rfl

/-- The commands that set a key and show a configuration keep to the layers that a run loads
from. -/
structure KeepsToLayers (key value : String) (dir : Option Path) (home : Path) (s : Scripted) :
    Prop where
  /-- A key that was set for the project is set for it alone. -/
  setsInProject : ∀ project s', (ends Scripted.answer (projectName dir) s).1 = .ok (some project) →
    project ≠ fileName.text →
    ends Scripted.answer (setConfig key value false dir) s = (.ok (), s') →
      SetsInProject key value project s s'
  /-- A key that was set globally is set for every project without a file. -/
  setsInGlobal : ∀ s', ends Scripted.answer (setConfig key value true dir) s = (.ok (), s') →
    SetsInGlobal key value home s s'
  /-- A key or a value that is not taken changes no file. -/
  refusesValue : ∀ c e global, Config.set key value c = .error e →
    Refuses (setConfig key value global dir) s
  /-- A file that cannot be started from changes no file. -/
  refusesStart : ∀ project e global,
    (global = false → (ends Scripted.answer (projectName dir) s).1 = .ok (some project)) →
    layered s.files s.here (if global then globalFile home else projectFile home project)
      (globalFile home) = .error e → Refuses (setConfig key value global dir) s
  /-- What is shown for the project is what applies to it, in a text that shows nothing else. -/
  shows : ∀ project c, (ends Scripted.answer (projectName dir) s).1 = .ok (some project) →
    applying s project = .ok c →
    (ends Scripted.answer (showConfig .project dir) s).1 = .ok () ∧
      printed Scripted.answer (showConfig .project dir) s =
        display s.files s.here home project c ∧
      ∀ c', Config.ShownIn (shownConfig c) c' ↔ c' = c
  /-- Showing changes no file. -/
  onlyShows : ∀ scope, Scripted.SameFiles s (ends Scripted.answer (showConfig scope dir) s).2

/-- Setting, showing and loading look for a configuration in the same layers, wherever files are a
tree and the home is a directory or is named without `..`. -/
theorem commands_keep_to_layers (htree : s.files.IsTree) (hhome : s.home = some home)
    (hplain : ".." ∉ home.parts ∨ ∃ place, s.files.directory s.here home = .ok place)
    (key value : String) (dir : Option Path) : KeepsToLayers key value dir home s := by
  have hdirect : s.files.DirectAt s.here home := by
    rcases hplain with hnoUp | ⟨place, hdirectory⟩
    · exact direct_of_noUp hnoUp
    · exact directAt_of_directory hdirectory
  exact {
    setsInProject := fun _ _ hname hne h =>
      setsInProject_of_setConfig htree hhome hdirect hname hne h
    setsInGlobal := fun _ h => setsInGlobal_of_setConfig htree hhome hdirect h
    refusesValue := fun _ _ global h => refuses_setConfig_of_set h global dir s
    refusesStart := fun _ _ _ hname h => refuses_setConfig_of_start hhome hname h
    shows := fun _ _ hname happlies => shows_showConfig hhome hname happlies
    onlyShows := fun scope => Scripted.sameFiles_of_uses (reads_showConfig scope dir) s }

/-- In a new home, a key is set for a project alone, and is shown there afterwards. -/
theorem commands_keep_to_layers_new_home :
    let home : Path := ⟨"/home/u"⟩
    let root : Output := ⟨Text.encode "/work/app\n", .empty, some 0⟩
    let s : Scripted := { home := some home, script := [root, root] }
    let set := ends Scripted.answer (setConfig "draft" "on" false none) s
    let c : Config := { draft := true }
    set.1 = .ok () ∧ applying set.2 "app" = .ok c ∧ applying set.2 "lib" = .ok {} ∧
      printed Scripted.answer (showConfig .project none) set.2 =
        display set.2.files set.2.here home "app" c ∧
      ∀ c', Config.ShownIn (shownConfig c) c' ↔ c' = c := by
  intro home root s set c
  have hset : set.1 = .ok () := by decide +kernel
  have hlib : IsProject "lib" := ⟨⟨by decide, by decide, by decide, by decide⟩, by decide⟩
  have hplain : ".." ∉ home.parts := by decide +kernel
  have hkeeps : KeepsToLayers "draft" "on" none home s :=
    commands_keep_to_layers .empty rfl (.inl hplain) "draft" "on" none
  obtain ⟨⟨_, _, hbefore, hvalue, hafter⟩, hothers⟩ :=
    hkeeps.setsInProject "app" set.2 (by decide +kernel) (by decide) (by rw [← hset])
  rw [show applying s "app" = .ok {} by decide +kernel] at hbefore
  cases hbefore
  rw [show Config.set "draft" "on" {} = .ok c by decide +kernel] at hvalue
  cases hvalue
  have happ : applying set.2 "app" = .ok c := hafter rfl
  have hother : applying set.2 "lib" = .ok {} :=
    (hothers "lib" hlib (by decide)).trans (by decide +kernel)
  -- What was set is shown from the files that are there now.
  have hshows : KeepsToLayers "draft" "on" none home set.2 :=
    commands_keep_to_layers (isTree_ends _ .empty) (by decide +kernel) (.inl hplain) "draft" "on"
      none
  exact ⟨hset, happ, hother, (hshows.shows "app" c (by decide +kernel) happ).2⟩

end

end Shipment.Command
