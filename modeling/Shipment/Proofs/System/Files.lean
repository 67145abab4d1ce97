import Mathlib.Data.List.Infix
import Shipment.Proofs.Path
import Shipment.System.Files

/-!
# Following paths in memory

The place that a path leads to depends on its parts alone.  What is there decides whether the
path can be followed: the places on the *way* to the last part must be directories.

Two operations change files.  Writing puts a file at the place of a path (`write_eq_ok`), and
creating directories puts them at empty places on the way (`ensureDirs_created`).  Both leave
directories where they were.
-/

namespace Shipment.Files

variable {fs fs' : Files} {here start place p : Place} {parts above : List String} {path : Path}
variable {name : String} {node : Node} {content : ByteArray} {places : List Place}

/-! ## Places -/

/-- The place that parts lead to from a directory. -/
def placeOf (start : Place) (parts : List String) : Place := parts.foldl step start

/-- The places on the way that parts lead along, with both ends. -/
def way (start : Place) : List String → List Place
  | [] => [start]
  | part :: parts => start :: way (step start part) parts

@[simp] theorem placeOf_nil (start : Place) : placeOf start [] = start := rfl

@[simp] theorem placeOf_concat (start : Place) (parts : List String) (name : String) :
    placeOf start (parts ++ [name]) = step (placeOf start parts) name :=
  List.foldl_append

theorem mem_way_concat : p ∈ way start (parts ++ [name]) ↔
    p ∈ way start parts ∨ p = step (placeOf start parts) name := by
  induction parts generalizing start with
  | nil => simp [way]
  | cons part parts ih => simp [way, ih, placeOf, or_assoc]

theorem placeOf_mem_way (start : Place) (parts : List String) :
    placeOf start parts ∈ way start parts := by
  induction parts generalizing start with
  | nil => exact List.mem_singleton_self start
  | cons part parts ih => exact List.mem_cons_of_mem start (ih _)

@[simp] theorem at?_nil : fs.at? [] = some .directory := rfl

theorem at?_put_self (h : place ≠ []) : (fs.put place node).at? place = some node := by
  cases place with
  | nil => exact absurd rfl h
  | cons name place => exact Table.get?_set_self _ _ _

theorem at?_put_of_ne (h : p ≠ place) : (fs.put place node).at? p = fs.at? p := by
  cases p with
  | nil => rfl
  | cons name p => exact Table.get?_set_of_ne (Ne.symm h) _ _

/-- Directories stay where they are. -/
def KeepsDirectories (fs fs' : Files) : Prop :=
  ∀ p, fs.at? p = some .directory → fs'.at? p = some .directory

theorem keepsDirectories_put (h : fs.at? place ≠ some .directory) :
    KeepsDirectories fs (fs.put place node) := by
  intro p hp
  rwa [at?_put_of_ne]
  rintro rfl
  exact h hp

/-! ## Following -/

/-- Parts lead through directories to a directory. -/
structure Opens (fs : Files) (start : Place) (parts : List String) : Prop where
  directories : ∀ p ∈ way start parts, fs.at? p = some .directory
  sizes : ∀ part ∈ parts, part.utf8ByteSize ≤ maxName

theorem opens_nil : fs.Opens start [] ↔ fs.at? start = some .directory :=
  ⟨fun h => h.directories start (List.mem_singleton_self start),
    fun h => ⟨List.forall_mem_singleton.mpr h, nofun⟩⟩

theorem opens_cons : fs.Opens start (name :: parts) ↔
    fs.at? start = some .directory ∧ name.utf8ByteSize ≤ maxName ∧
      fs.Opens (step start name) parts := by
  constructor
  · rintro ⟨hdirs, hsizes⟩
    obtain ⟨hstart, hdirs⟩ := List.forall_mem_cons.mp hdirs
    obtain ⟨hsize, hsizes⟩ := List.forall_mem_cons.mp hsizes
    exact ⟨hstart, hsize, hdirs, hsizes⟩
  · rintro ⟨hstart, hsize, hdirs, hsizes⟩
    exact ⟨List.forall_mem_cons.mpr ⟨hstart, hdirs⟩, List.forall_mem_cons.mpr ⟨hsize, hsizes⟩⟩

theorem opens_concat : fs.Opens start (parts ++ [name]) ↔
    fs.Opens start parts ∧ name.utf8ByteSize ≤ maxName ∧
      fs.at? (step (placeOf start parts) name) = some .directory := by
  induction parts generalizing start with
  | nil => simp [opens_cons, opens_nil]
  | cons part parts ih =>
      simp only [List.cons_append, opens_cons, ih, and_assoc, placeOf, List.foldl_cons]

theorem Opens.mono (h : fs.Opens start parts) (hkeep : KeepsDirectories fs fs') :
    fs'.Opens start parts :=
  ⟨fun p hp => hkeep p (h.directories p hp), h.sizes⟩

theorem follow_cons : fs.follow start (name :: parts) = .ok place ↔
    fs.at? start = some .directory ∧ name.utf8ByteSize ≤ maxName ∧
      fs.follow (step start name) parts = .ok place := by
  rw [follow]
  cases fs.at? start with
  | none => simp
  | some node =>
      cases node with
      | file content => simp
      | directory => by_cases hsize : name.utf8ByteSize ≤ maxName <;> simp [hsize]

/-- A path with a last part is followed if the parts before it lead to a directory. -/
theorem follow_concat : fs.follow start (parts ++ [name]) = .ok place ↔
    fs.Opens start parts ∧ name.utf8ByteSize ≤ maxName ∧
      place = step (placeOf start parts) name := by
  induction parts generalizing start with
  | nil =>
      rw [List.nil_append, follow_cons, opens_nil, placeOf_nil, eq_comm (a := place)]
      simp only [follow, Except.ok.injEq]
  | cons part parts ih =>
      simp only [List.cons_append, follow_cons, opens_cons, ih, and_assoc, placeOf, List.foldl_cons]

/-- Parts that are followed to a directory lead through directories. -/
theorem opens_of_follow (h : fs.follow start parts = .ok place)
    (hdir : fs.at? place = some .directory) : fs.Opens start parts := by
  induction parts generalizing start with
  | nil =>
      cases h
      exact opens_nil.mpr hdir
  | cons part parts ih =>
      obtain ⟨hstart, hsize, hrest⟩ := follow_cons.mp h
      exact opens_cons.mpr ⟨hstart, hsize, ih hrest⟩

theorem follow_mono (hkeep : KeepsDirectories fs fs') (h : fs.follow start parts = .ok place) :
    fs'.follow start parts = .ok place := by
  induction parts generalizing start with
  | nil => exact h
  | cons part parts ih =>
      obtain ⟨hdir, hsize, hrest⟩ := follow_cons.mp h
      exact follow_cons.mpr ⟨hkeep _ hdir, hsize, ih hrest⟩

/-! ## Writing -/

/-- A file is written at the place of a path that names no directory. -/
theorem write_eq_ok : fs.write here path content = .ok fs' ↔
    (checkPath path = .ok () ∧ path.text ≠ "" ∧ path.endsInSlash = false) ∧
      ∃ place, fs.follow (origin here path) path.parts = .ok place ∧
        fs.at? place ≠ some .directory ∧ fs' = fs.put place (.file content) := by
  unfold write
  simp only [bind, Except.bind]
  cases checkPath path with
  | error problem => simp
  | ok =>
      by_cases htext : path.text = ""
      · simp [htext]
      cases hslash : path.endsInSlash with
      | true =>
          simp only [htext, if_false, if_true]
          cases fs.follow (origin here path) (path.parts.dropLast ++ ["."]) <;> simp
      | false =>
          cases hfollow : fs.follow (origin here path) path.parts with
          | error problem => simp [htext]
          | ok place =>
              cases hnode : fs.at? place with
              | none => simp [htext, hnode, eq_comm]
              | some node => cases node <;> simp [htext, hnode, eq_comm]

theorem locate_eq_ok : fs.locate here path = .ok place ↔
    checkPath path = .ok () ∧ path.text ≠ "" ∧ fs.follow (origin here path)
      (path.parts ++ if path.endsInSlash then ["."] else []) = .ok place := by
  unfold locate
  simp only [bind, Except.bind]
  cases checkPath path with
  | error problem => simp
  | ok => by_cases htext : path.text = "" <;> simp [htext]

/-- What was written is read back. -/
theorem read_of_write (h : fs.write here path content = .ok fs') :
    fs'.read here path = .ok content := by
  obtain ⟨⟨hcheck, htext, hslash⟩, place, hfollow, hplace, rfl⟩ := write_eq_ok.mp h
  have hne : place ≠ [] := fun e => hplace (by rw [e]; rfl)
  have hlocate : (fs.put place (.file content)).locate here path = .ok place := by
    refine locate_eq_ok.mpr ⟨hcheck, htext, ?_⟩
    rw [hslash, if_neg Bool.false_ne_true, List.append_nil]
    exact follow_mono (keepsDirectories_put hplace) hfollow
  rw [read, lookup, hlocate]
  simp only [at?_put_self hne]

/-! ## Creating directories -/

/-- Nothing changed but that some places that were empty became directories. -/
def Created (places : List Place) (fs fs' : Files) : Prop :=
  ∀ p, fs'.at? p = fs.at? p ∨ p ∈ places ∧ fs.at? p = none ∧ fs'.at? p = some .directory

namespace Created

variable {fs'' : Files} {places' : List Place}

theorem refl (places : List Place) (fs : Files) : Created places fs fs := fun _ => .inl rfl

theorem trans (h : Created places fs fs') (h' : Created places fs' fs'') :
    Created places fs fs'' := by
  intro p
  rcases h p with hp | ⟨hmem, hnone, hdir⟩
  · rcases h' p with hp' | ⟨hmem, hnone, hdir⟩
    · exact .inl (hp'.trans hp)
    · exact .inr ⟨hmem, hp ▸ hnone, hdir⟩
  · rcases h' p with hp' | ⟨-, hnone', -⟩
    · exact .inr ⟨hmem, hnone, hp'.trans hdir⟩
    · rw [hdir] at hnone'
      cases hnone'

theorem mono (h : Created places fs fs') (hsub : ∀ p ∈ places, p ∈ places') :
    Created places' fs fs' :=
  fun p => (h p).imp_right fun ⟨hmem, hrest⟩ => ⟨hsub p hmem, hrest⟩

theorem keepsDirectories (h : Created places fs fs') : KeepsDirectories fs fs' := by
  intro p hp
  rcases h p with hsame | ⟨-, -, hdir⟩
  · rw [hsame, hp]
  · exact hdir

theorem put (hmem : place ∈ places) (hnone : fs.at? place = none) :
    Created places fs (fs.put place .directory) := by
  intro p
  by_cases hp : p = place
  · subst hp
    have hne : p ≠ [] := by
      rintro rfl
      cases hnone
    exact .inr ⟨hmem, hnone, at?_put_self hne⟩
  · exact .inl (at?_put_of_ne hp)

end Created

/-- A directory that is there already is left alone. -/
theorem ensureDir_of_opens (h : fs.Opens start (parts ++ [name])) :
    fs.ensureDir start (parts ++ [name]) = .ok fs := by
  obtain ⟨hopens, hsize, hdir⟩ := opens_concat.mp h
  have hfollow := follow_concat.mpr ⟨hopens, hsize, rfl⟩
  have hmake : fs.makeDir start (parts ++ [name]) = .error .alreadyExists := by
    simp [makeDir, hfollow, hdir]
  simp [ensureDir, hmake, hfollow, hdir]

/-- A directory is there already, or is created in the one above it. -/
theorem ensureDir_cases (h : fs.ensureDir start (parts ++ [name]) = .ok fs') :
    (fs.Opens start parts ∧ name.utf8ByteSize ≤ maxName) ∧
      (fs.at? (step (placeOf start parts) name) = some .directory ∧ fs' = fs ∨
        fs.at? (step (placeOf start parts) name) = none ∧
          fs' = fs.put (step (placeOf start parts) name) .directory) := by
  rw [ensureDir, makeDir] at h
  cases hfollow : fs.follow start (parts ++ [name]) with
  | error problem =>
      rw [hfollow] at h
      cases h
  | ok place =>
      obtain ⟨hopens, hsize, rfl⟩ := follow_concat.mp hfollow
      rw [hfollow] at h
      refine ⟨⟨hopens, hsize⟩, ?_⟩
      cases hnode : fs.at? (step (placeOf start parts) name) with
      | none =>
          simp only [hnode, Except.ok.injEq] at h
          exact .inr ⟨rfl, h.symm⟩
      | some node =>
          cases node with
          | file content => simp [hnode] at h
          | directory =>
              simp only [hnode, Except.ok.injEq] at h
              exact .inl ⟨rfl, h.symm⟩

/-- If a directory could be created, the way up to it was open, and then so is the way to it. -/
theorem ensureDir_eq_ok (h : fs.ensureDir start (parts ++ [name]) = .ok fs') :
    fs.Opens start parts ∧ fs'.Opens start (parts ++ [name]) ∧
      Created (way start (parts ++ [name])) fs fs' := by
  obtain ⟨⟨hopens, hsize⟩, ⟨hdir, rfl⟩ | ⟨hnone, rfl⟩⟩ := ensureDir_cases h
  · exact ⟨hopens, opens_concat.mpr ⟨hopens, hsize, hdir⟩, .refl _ _⟩
  · have hcreated : Created (way start (parts ++ [name])) fs _ :=
      .put (mem_way_concat.mpr (.inr rfl)) hnone
    have hne : step (placeOf start parts) name ≠ [] := by
      intro e
      rw [e] at hnone
      cases hnone
    exact ⟨hopens,
      opens_concat.mpr ⟨hopens.mono hcreated.keepsDirectories, hsize, at?_put_self hne⟩, hcreated⟩

/-- Whether it succeeds or not, creating directories on a way creates nothing else. -/
theorem ensureDirs_created (start : Place) (above : List String) (fs : Files) :
    Created (way start above.reverse) fs (ensureDirs start above fs).2 := by
  induction above with
  | nil => exact .refl _ _
  | cons name above ih =>
      have hsub : ∀ p ∈ way start above.reverse, p ∈ way start (above.reverse ++ [name]) :=
        fun p hp => mem_way_concat.mpr (.inl hp)
      rw [ensureDirs, List.reverse_cons]
      cases hdir : fs.ensureDir start (above.reverse ++ [name]) with
      | ok fs' => exact (ensureDir_eq_ok hdir).2.2
      | error problem =>
          cases problem with
          | notFound =>
              have hrest := ih.mono hsub
              generalize ensureDirs start above fs = out at hrest
              obtain ⟨_ | _, fs₁⟩ := out
              · exact hrest
              · dsimp only
                cases hdir₁ : fs₁.ensureDir start (above.reverse ++ [name]) with
                | ok fs' => exact hrest.trans (ensureDir_eq_ok hdir₁).2.2
                | error problem => exact hrest
          | _ => exact .refl _ _

/-- A directory is created at once, or behind the one above it. -/
theorem ensureDirs_eq_ok (h : ensureDirs start (name :: above) fs = (.ok (), fs')) :
    fs.ensureDir start (above.reverse ++ [name]) = .ok fs' ∨
      ∃ fs₁, ensureDirs start above fs = (.ok (), fs₁) ∧
        fs₁.ensureDir start (above.reverse ++ [name]) = .ok fs' := by
  rw [ensureDirs, List.reverse_cons] at h
  cases hdir : fs.ensureDir start (above.reverse ++ [name]) with
  | ok fs' =>
      rw [hdir] at h
      cases h
      exact .inl rfl
  | error problem =>
      rw [hdir] at h
      cases problem with
      | notFound =>
          cases hrest : ensureDirs start above fs with
          | mk r fs₁ =>
              rw [hrest] at h
              cases r with
              | error problem => cases h
              | ok =>
                  refine .inr ⟨fs₁, rfl, ?_⟩
                  dsimp only at h
                  cases hdir₁ : fs₁.ensureDir start (above.reverse ++ [name]) with
                  | error problem =>
                      rw [hdir₁] at h
                      cases h
                  | ok fs' =>
                      rw [hdir₁] at h
                      cases h
                      rfl
      | _ => cases h

/-- The directory that was created is there. -/
theorem opens_of_ensureDirs (h : ensureDirs start (name :: above) fs = (.ok (), fs')) :
    fs'.Opens start (above.reverse ++ [name]) := by
  obtain hdir | ⟨fs₁, -, hdir⟩ := ensureDirs_eq_ok h
  · exact (ensureDir_eq_ok hdir).2.1
  · exact (ensureDir_eq_ok hdir).2.1

theorem ensureDirs_of_opens (h : fs.Opens start (above.reverse ++ [name])) :
    ensureDirs start (name :: above) fs = (.ok (), fs) := by
  rw [ensureDirs, List.reverse_cons, ensureDir_of_opens h]

/-- The directory above one that can be created can be created too. -/
theorem ensureDirs_above {part : String}
    (h : ensureDirs start (name :: part :: above) fs = (.ok (), fs')) :
    (ensureDirs start (part :: above) fs).1 = .ok () := by
  obtain hdir | ⟨fs₁, hrest, -⟩ := ensureDirs_eq_ok h
  · have hopens := (ensureDir_eq_ok hdir).1
    rw [List.reverse_cons] at hopens
    rw [ensureDirs_of_opens hopens]
  · rw [hrest]

/-! ## Creating the directory of a path -/

theorem mem_way_filter :
    p ∈ way start (parts.filter (· ≠ ".")) ↔ p ∈ way start parts := by
  induction parts generalizing start with
  | nil => rfl
  | cons part parts ih =>
      by_cases hdot : part = "."
      · subst hdot
        have hstay : step start "." = start := rfl
        have hstart : start ∈ way start parts := by cases parts <;> simp [way]
        rw [List.filter_cons_of_neg (by simp), ih, way, hstay, List.mem_cons]
        exact ⟨.inr, fun h => h.elim (fun e => e ▸ hstart) id⟩
      · rw [List.filter_cons_of_pos (by simpa using hdot), way, way, List.mem_cons, List.mem_cons,
          ih]

/-- Dots make no difference to where parts lead. -/
theorem opens_filter : fs.Opens start (parts.filter (· ≠ ".")) ↔ fs.Opens start parts := by
  constructor
  · rintro ⟨hdirs, hsizes⟩
    refine ⟨fun p hp => hdirs p (mem_way_filter.mpr hp), fun part hpart => ?_⟩
    by_cases hdot : part = "."
    · rw [hdot]
      decide
    · exact hsizes part (List.mem_filter.mpr ⟨hpart, by simpa using hdot⟩)
  · rintro ⟨hdirs, hsizes⟩
    exact ⟨fun p hp => hdirs p (mem_way_filter.mp hp),
      fun part hpart => hsizes part (List.mem_of_mem_filter hpart)⟩

theorem opens_components : fs.Opens start path.components ↔ fs.Opens start path.parts := by
  rw [← opens_filter, Path.components_filter, opens_filter]

theorem createDirs_created (fs : Files) (here : Place) (path : Path) :
    Created (way (origin here path) path.parts) fs (fs.createDirs here path).2 := by
  rw [createDirs]
  cases checkPath path with
  | error problem => exact .refl _ _
  | ok =>
      refine (ensureDirs_created _ _ _).mono fun p hp => ?_
      rw [List.reverse_reverse] at hp
      rwa [← mem_way_filter, ← Path.components_filter, mem_way_filter]

variable {q : Path}

/-- The directory that was created is there. -/
theorem opens_of_createDirs (hname : Path.IsName name)
    (h : fs.createDirs here (q.join ⟨name⟩) = (.ok (), fs')) :
    checkPath (q.join ⟨name⟩) = .ok () ∧
      fs'.Opens (origin here (q.join ⟨name⟩)) (q.join ⟨name⟩).parts := by
  rw [createDirs] at h
  cases hcheck : checkPath (q.join ⟨name⟩) with
  | error problem =>
      rw [hcheck] at h
      cases h
  | ok =>
      rw [hcheck, Path.components_join q hname, List.reverse_append, List.reverse_singleton,
        List.singleton_append] at h
      have hopens := opens_of_ensureDirs h
      rw [List.reverse_reverse, ← Path.components_join q hname, opens_components] at hopens
      exact ⟨rfl, hopens⟩

/-- A directory that is there already is left alone. -/
theorem createDirs_of_opens (hname : Path.IsName name)
    (hcheck : checkPath (q.join ⟨name⟩) = .ok ())
    (h : fs.Opens (origin here (q.join ⟨name⟩)) (q.join ⟨name⟩).parts) :
    fs.createDirs here (q.join ⟨name⟩) = (.ok (), fs) := by
  rw [← opens_components, Path.components_join q hname] at h
  rw [createDirs, hcheck, Path.components_join q hname, List.reverse_append,
    List.reverse_singleton, List.singleton_append]
  exact ensureDirs_of_opens (by rwa [List.reverse_reverse])

/-- The directory above one that can be created can be created too. -/
theorem createDirs_above {sub : String} (hname : Path.IsName name) (hsub : Path.IsName sub)
    (hcheck : checkPath (q.join ⟨name⟩) = .ok ())
    (h : fs.createDirs here ((q.join ⟨name⟩).join ⟨sub⟩) = (.ok (), fs')) :
    (fs.createDirs here (q.join ⟨name⟩)).1 = .ok () := by
  rw [createDirs] at h ⊢
  cases hcheck' : checkPath ((q.join ⟨name⟩).join ⟨sub⟩) with
  | error problem =>
      rw [hcheck'] at h
      cases h
  | ok =>
      rw [hcheck', Path.components_join _ hsub, Path.components_join _ hname,
        List.reverse_append, List.reverse_append] at h
      rw [hcheck, Path.components_join _ hname, List.reverse_append]
      have horigin : origin here ((q.join ⟨name⟩).join ⟨sub⟩) = origin here (q.join ⟨name⟩) := by
        rw [origin, origin, Path.isAbsolute_join _ hsub]
      rw [horigin] at h
      exact ensureDirs_above h

end Shipment.Files
