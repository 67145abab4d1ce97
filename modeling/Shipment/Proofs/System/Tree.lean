import Shipment.Proofs.System.Files
import Shipment.Proofs.System.Scripted

/-!
# Files as a tree

In a file system that is a tree, whatever is in a directory is in one.  Files that start as a tree
stay one, whatever a command does with them (`isTree_ends`).
-/

namespace Shipment.Files

variable {fs fs' : Files} {here start place p : Place} {parts : List String} {path : Path}
variable {name : String} {node : Node} {content : ByteArray}

/-- Whatever is in a directory is in one. -/
def IsTree (fs : Files) : Prop :=
  ∀ place name, fs.at? (place ++ [name]) ≠ none → fs.at? place = some .directory

namespace IsTree

theorem empty : IsTree {} := by
  intro place name h
  cases place <;> exact absurd rfl h

/-- In front of anything are directories. -/
theorem directory (h : fs.IsTree) (hp : p <+: place) (hne : p ≠ place)
    (hplace : fs.at? place ≠ none) : fs.at? p = some .directory := by
  obtain ⟨rest, rfl⟩ := hp
  induction rest using List.reverseRecOn with
  | nil => exact absurd (List.append_nil p).symm hne
  | append_singleton rest name ih =>
      rw [← List.append_assoc] at hplace
      have hdir := h _ _ hplace
      by_cases hrest : p = p ++ rest
      · rwa [← hrest] at hdir
      · exact ih hrest (by simp [hdir])

/-- From a directory, a part leads to a directory or to something in it. -/
theorem step_eq (h : fs.IsTree) (hdir : fs.at? place = some .directory)
    (hstep : fs.at? (step place name) ≠ some .directory) : step place name = place ++ [name] := by
  rw [step] at hstep ⊢
  split at hstep
  · exact absurd hdir hstep
  · rw [if_neg ‹_›]
    split at hstep
    · refine absurd ?_ hstep
      induction place using List.reverseRecOn with
      | nil => rfl
      | append_singleton place last _ =>
          rw [List.dropLast_concat]
          exact h place last (by simp [hdir])
    · rw [if_neg ‹_›]

/-- Something put in a directory has nothing in it. -/
theorem put (h : fs.IsTree) (hdir : fs.at? place = some .directory)
    (hnode : fs.at? (place ++ [name]) ≠ some .directory) :
    (fs.put (place ++ [name]) node).IsTree := by
  intro q last hlast
  have hq (hq : fs.at? q = some .directory) :
      (fs.put (place ++ [name]) node).at? q = some .directory := by
    rwa [at?_put_of_ne]
    rintro rfl
    exact hnode hq
  by_cases heq : q ++ [last] = place ++ [name]
  · obtain ⟨rfl, -⟩ := List.append_inj' heq rfl
    exact hq hdir
  · rw [at?_put_of_ne heq] at hlast
    exact hq (h q last hlast)

/-- What parts lead to is put in a directory. -/
theorem put_step (h : fs.IsTree) (hopens : fs.Opens start parts)
    (hnode : fs.at? (step (placeOf start parts) name) ≠ some .directory) :
    (fs.put (step (placeOf start parts) name) node).IsTree := by
  have hdir := hopens.directories _ (placeOf_mem_way start parts)
  have hstep := h.step_eq hdir hnode
  rw [hstep] at hnode ⊢
  exact h.put hdir hnode

end IsTree

/-! ## What keeps a tree -/

theorem isTree_write (h : fs.IsTree) (hwrite : fs.write here path content = .ok fs') :
    fs'.IsTree := by
  obtain ⟨⟨-, htext, hslash⟩, place, hfollow, hplace, rfl⟩ := write_eq_ok.mp hwrite
  obtain ⟨front, name, hparts⟩ :=
    (List.eq_nil_or_concat' path.parts).resolve_left (Path.parts_ne_nil htext hslash)
  rw [hparts] at hfollow
  obtain ⟨hopens, -, rfl⟩ := follow_concat.mp hfollow
  exact h.put_step hopens hplace

theorem isTree_ensureDir (h : fs.IsTree)
    (hdir : fs.ensureDir start (parts ++ [name]) = .ok fs') : fs'.IsTree := by
  obtain ⟨⟨hopens, -⟩, ⟨-, rfl⟩ | ⟨hnone, rfl⟩⟩ := ensureDir_cases hdir
  · exact h
  · exact h.put_step hopens (by simp [hnone])

/-- Creating directories on a way keeps a tree, because each is created in the one before it. -/
theorem isTree_ensureDirs (start : Place) (above : List String) (h : fs.IsTree) :
    (ensureDirs start above fs).2.IsTree := by
  induction above with
  | nil => exact h
  | cons name above ih =>
      rw [ensureDirs, List.reverse_cons]
      cases hdir : fs.ensureDir start (above.reverse ++ [name]) with
      | ok fs' => exact isTree_ensureDir h hdir
      | error problem =>
          cases problem with
          | notFound =>
              generalize ensureDirs start above fs = out at ih
              obtain ⟨_ | _, fs₁⟩ := out
              · exact ih
              · dsimp only
                cases hdir₁ : fs₁.ensureDir start (above.reverse ++ [name]) with
                | ok fs' => exact isTree_ensureDir ih hdir₁
                | error problem => exact ih
          | _ => exact h

theorem isTree_createDirs (here : Place) (path : Path) (h : fs.IsTree) :
    (fs.createDirs here path).2.IsTree := by
  rw [createDirs]
  cases checkPath path with
  | error problem => exact h
  | ok => exact isTree_ensureDirs _ _ h

variable {s : Scripted}

theorem isTree_answer (c : SystemCall) (h : s.files.IsTree) :
    (Scripted.answer c s).2.files.IsTree := by
  by_cases hc : Scripted.isReading c
  · rwa [(Scripted.sameFiles_answer hc).files]
  · cases c with
    | writeText path text =>
        simp only [Scripted.answer]
        cases hwrite : s.files.write s.here path (Text.encode text) with
        | ok files => exact isTree_write h hwrite
        | error problem => exact h
    | createDirs path => exact isTree_createDirs s.here path h
    | _ => exact absurd rfl hc

/-- Whatever a command does, files stay a tree. -/
theorem isTree_ends {α : Type} (m : Work α) (h : s.files.IsTree) :
    (Work.ends Scripted.answer m s).2.files.IsTree :=
  Program.Uses.relates_run (T := fun s s' : Scripted => s.files.IsTree → s'.files.IsTree)
    (fun _ => id) (fun h h' => h' ∘ h) (fun _ => isTree_answer _) (Program.uses_true m.run) s h

end Shipment.Files
