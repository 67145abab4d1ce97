import Shipment.Config.Store
import Shipment.Proofs.Config.Document
import Shipment.Proofs.System.Files
import Shipment.Proofs.System.Scripted
import Shipment.Proofs.Text.Utf8

/-!
# Configurations in files

Against files in memory, loading is a function of the files alone (`loadAt`), and a saved
configuration is what its text is read back as.
-/

namespace Shipment.Config

open Work

variable {s s' : Scripted} {path : Path} {c : Config}

/-- The failure of a file that holds no configuration. -/
def unreadable (path : Path) (problem : Toml.Problem) : Failure :=
  .config ("Failed to parse config file at " ++ path.text ++ ": " ++ problem.text)

/-- The configuration in the file at a path. -/
def loadAt (fs : Files) (here : Place) (path : Path) : Except Failure Config :=
  ((fs.readText here path).mapError .io).bind fun text => (read text).mapError (unreadable path)

theorem loadAt_of_readText {fs : Files} {here : Place} {text : String}
    (h : fs.readText here path = .ok text) :
    loadAt fs here path = (read text).mapError (unreadable path) := by
  rw [loadAt, h]
  rfl

theorem ends_load : ends Scripted.answer (load path) s = (loadAt s.files s.here path, s) := by
  rw [load, Scripted.ends_readText, ends_bind, ends_ofSystem, loadAt]
  cases s.files.readText s.here path with
  | error problem => rfl
  | ok text =>
      dsimp only [Except.mapError]
      cases hread : read text <;> simp [Except.bind, hread, unreadable]

/-- What is saved is written in the directory above it, if there is one. -/
theorem ends_save_ok (h : ends Scripted.answer (save path c) s = (.ok (), s')) :
    ∃ files, (∀ parent, path.parent? = some parent →
        s.files.createDirs s.here parent = (.ok (), files)) ∧
      files.write s.here path (Text.encode c.fileText) = .ok s'.files ∧
      s' = { s with files := s'.files } := by
  have hwrite {t : Scripted} (ht : ends Scripted.answer
        (ask (.writeText path c.fileText) >>= fun r => ofSystem r) t = (.ok (), s')) :
      t.files.write t.here path (Text.encode c.fileText) = .ok s'.files ∧
        s' = { t with files := s'.files } := by
    rw [Scripted.ends_writeText] at ht
    cases hfiles : t.files.write t.here path (Text.encode c.fileText) with
    | error problem =>
        rw [hfiles] at ht
        cases ht
    | ok files =>
        rw [hfiles] at ht
        cases ht
        exact ⟨rfl, rfl⟩
  rw [save] at h
  cases hparent : path.parent? with
  | none =>
      rw [hparent] at h
      exact ⟨s.files, by simp, hwrite h⟩
  | some parent =>
      rw [hparent] at h
      obtain ⟨files, hdirs, hrest⟩ := Scripted.ends_dirs_ok h
      obtain ⟨hfiles, hs⟩ := hwrite hrest
      exact ⟨files, fun _ e => Option.some.inj e ▸ hdirs, hfiles, hs⟩

/-- A configuration is loaded from where it was saved, if its base is plain. -/
theorem load_of_save (h : ends Scripted.answer (save path c) s = (.ok (), s')) :
    loadAt s'.files s'.here path =
      if c.isPlain then .ok c else .error (unreadable path .malformed) := by
  obtain ⟨files, -, hwrite, hs⟩ := ends_save_ok h
  have htext : s'.files.readText s'.here path = .ok c.fileText := by
    rw [hs, Files.readText, Files.read_of_write hwrite]
    simp
  rw [loadAt_of_readText htext, read_fileText]
  split <;> rfl

/-- Both texts of a configuration and the file it is saved in give the configuration back if its
base is plain.  Otherwise none of them is well formed. -/
theorem reads_back_if_plain (c : Config) :
    read c.fileText = (if c.isPlain then .ok c else .error .malformed) ∧
    read c.shortText = (if c.isPlain then .ok c else .error .malformed) ∧
    ∀ s s' path, ends Scripted.answer (save path c) s = (.ok (), s') →
      (ends Scripted.answer (load path) s').1 =
        if c.isPlain then .ok c else .error (unreadable path .malformed) := by
  refine ⟨read_fileText c, read_shortText c, fun s s' path h => ?_⟩
  rw [ends_load]
  exact load_of_save h

/-- A base with a quote, an accent and a line feed is read back from a new file. -/
theorem reads_back_if_plain_accented :
    let c : Config := { draft := true, base := some "d\"é\nv" }
    let path : Path := ⟨"/home/config.toml"⟩
    let saved := ends Scripted.answer (save path c) {}
    saved.1 = .ok () ∧ (ends Scripted.answer (load path) saved.2).1 = .ok c := by
  intro c path saved
  have hsaved : saved.1 = .ok () := by decide +kernel
  have h := (reads_back_if_plain c).2.2 {} saved.2 path (Prod.ext hsaved rfl)
  exact ⟨hsaved, h.trans (by decide +kernel)⟩

/-- A base with a zero width space can be set, but neither text is read back. -/
theorem unread_zero_width_space :
    let c : Config := { base := some "a\u200bb" }
    Config.set "base" "a\u200bb" {} = .ok c ∧
      read c.fileText ≠ .ok c ∧ read c.shortText ≠ .ok c := by
  intro c
  rw [read_fileText, read_shortText, if_neg (by decide +kernel)]
  exact ⟨by decide +kernel, nofun, nofun⟩

end Shipment.Config
