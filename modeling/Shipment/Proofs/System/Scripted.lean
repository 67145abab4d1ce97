import Shipment.Proofs.System
import Shipment.System.Scripted

/-!
# Commands against a scripted system

Each system call has a law that says how a piece goes on behind it.  A piece that writes nothing
leaves the files as they were (`sameFiles_of_uses`), whatever tools it starts.
-/

namespace Shipment.Scripted

open Work

variable {β : Type} {s s' : Scripted} {path : Path} {text : String} {b : β}

theorem ends_isThere {f : Bool → Work β} :
    ends answer (ask (.isThere path) >>= f) s = ends answer (f (s.files.isThere s.here path)) s :=
  ends_bind_ok rfl

theorem ends_readText {f : Except IoProblem String → Work β} :
    ends answer (ask (.readText path) >>= f) s = ends answer (f (s.files.readText s.here path)) s :=
  ends_bind_ok rfl

theorem ends_writeText {f : Except IoProblem Unit → Work β} :
    ends answer (ask (.writeText path text) >>= f) s =
      match s.files.write s.here path (Text.encode text) with
      | .ok files => ends answer (f (.ok ())) { s with files }
      | .error problem => ends answer (f (.error problem)) s := by
  rw [ends_bind]
  show ends answer (f (answer (.writeText path text) s).1) (answer (.writeText path text) s).2 = _
  simp only [answer]
  cases s.files.write s.here path (Text.encode text) <;> rfl

theorem ends_createDirs {f : Except IoProblem Unit → Work β} :
    ends answer (ask (.createDirs path) >>= f) s =
      ends answer (f (s.files.createDirs s.here path).1)
        { s with files := (s.files.createDirs s.here path).2 } :=
  ends_bind_ok rfl

theorem ends_home {f : Option Path → Work β} :
    ends answer (ask .home >>= f) s = ends answer (f s.home) s :=
  ends_bind_ok rfl

/-- A piece behind directories that can be created. -/
theorem ends_createDirs_of_ok {files : Files} {f : Unit → Work β}
    (h : s.files.createDirs s.here path = (.ok (), files)) :
    ends answer (ask (.createDirs path) >>= fun r => ofSystem r >>= f) s =
      ends answer (f ()) { s with files } := by
  rw [ends_createDirs, h]
  rfl

/-- A piece behind a file that can be written. -/
theorem ends_writeText_of_ok {files : Files} {f : Unit → Work β}
    (h : s.files.write s.here path (Text.encode text) = .ok files) :
    ends answer (ask (.writeText path text) >>= fun r => ofSystem r >>= f) s =
      ends answer (f ()) { s with files } := by
  rw [ends_writeText, h]
  rfl

/-- A piece behind directories that were created. -/
theorem ends_dirs_ok {f : Unit → Work β}
    (h : ends answer (ask (.createDirs path) >>= fun r => ofSystem r >>= f) s = (.ok b, s')) :
    ∃ files, s.files.createDirs s.here path = (.ok (), files) ∧
      ends answer (f ()) { s with files } = (.ok b, s') := by
  rw [ends_createDirs] at h
  generalize s.files.createDirs s.here path = out at h
  obtain ⟨_ | _, files⟩ := out
  · cases h
  · exact ⟨files, rfl, h⟩

/-! ## The same files -/

/-- Two systems with the same files, seen from the same place and home. -/
structure SameFiles (s s' : Scripted) : Prop where
  files : s'.files = s.files
  here : s'.here = s.here
  home : s'.home = s.home

theorem SameFiles.refl (s : Scripted) : SameFiles s s := ⟨rfl, rfl, rfl⟩

theorem SameFiles.trans {s s' s'' : Scripted} (h : SameFiles s s') (h' : SameFiles s' s'') :
    SameFiles s s'' :=
  ⟨h'.files.trans h.files, h'.here.trans h.here, h'.home.trans h.home⟩

/-- Whether a call leaves every file as it was. -/
def isReading : SystemCall → Bool
  | .writeText _ _ | .createDirs _ => false
  | _ => true

/-- Whether the answer of a call depends on the files alone, and not on what tools answer. -/
def isOfFiles : SystemCall → Bool
  | .start _ _ _ | .namer => false
  | _ => true

/-- Whether a call looks at the files and does nothing else. -/
def isLookup (c : SystemCall) : Bool := isReading c && isOfFiles c

theorem isReading_of_isLookup {c : SystemCall} (h : isLookup c) : isReading c :=
  (Bool.and_eq_true_iff.mp h).1

theorem isOfFiles_of_isLookup {c : SystemCall} (h : isLookup c) : isOfFiles c :=
  (Bool.and_eq_true_iff.mp h).2

theorem sameFiles_answer {c : SystemCall} (h : isReading c) : SameFiles s (answer c s).2 := by
  cases c with
  | start tool dir args =>
      simp only [answer, start]
      repeat' split
      all_goals exact ⟨rfl, rfl, rfl⟩
  | writeText | createDirs => cases h
  | _ => exact .refl s

/-- A piece that only reads leaves the files as they were. -/
theorem sameFiles_of_uses {m : Work β} (h : m.Uses fun c => isReading c) (s : Scripted) :
    SameFiles s (ends answer m s).2 :=
  Program.Uses.relates_run (T := SameFiles) .refl .trans sameFiles_answer h s

/-- A call that depends on the files alone is answered alike by systems with the same files. -/
theorem answer_congr {c : SystemCall} (hc : isOfFiles c) (h : SameFiles s s') :
    (answer c s').1 = (answer c s).1 ∧ SameFiles (answer c s).2 (answer c s').2 := by
  obtain ⟨hfiles, hhere, hhome⟩ := h
  cases c with
  | start | namer => cases hc
  | writeText path text =>
      simp only [answer, hfiles, hhere]
      cases s.files.write s.here path (Text.encode text) with
      | ok files => exact ⟨rfl, rfl, rfl, hhome⟩
      | error problem => exact ⟨rfl, hfiles, hhere, hhome⟩
  | createDirs path =>
      simp only [answer, hfiles, hhere]
      exact ⟨rfl, rfl, rfl, hhome⟩
  | isThere | readText | home | currentDirectory =>
      simp only [answer, hfiles, hhere, hhome]
      exact ⟨rfl, hfiles, hhere, hhome⟩

/-- A piece that asks for nothing but files ends alike on the same files. -/
theorem ends_congr {m : Work β} (hm : m.Uses fun c => isOfFiles c) (h : SameFiles s s') :
    (ends answer m s').1 = (ends answer m s).1 :=
  (Program.Uses.run_congr (T := SameFiles) answer_congr hm h).1

end Shipment.Scripted
