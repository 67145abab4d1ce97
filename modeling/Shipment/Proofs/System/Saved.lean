import Shipment.Proofs.System.Tree

/-!
# What saving a file changes

Saving a file creates directories on the way to it and then writes it.  In a file system that is
a tree, this leaves alone every file that is not on the way (`sameAt_of_saved`), even one that
could not be reached before.  The way has to be *direct* for that: where it goes up again, a
directory that is created beside it can open the way to files that were there already.
-/

namespace Shipment.Files

variable {fs fs' : Files} {here start place p : Place} {parts : List String} {d e path : Path}
variable {name name' : String} {node : Node} {content : ByteArray}

/-! ## Direct ways -/

/-- What is behind a place is not in front of it. -/
theorem not_append_prefix (h : p ≠ []) : ¬place ++ p <+: place := by
  intro hfront
  have hlength := hfront.length_le
  have hpos := List.length_pos_iff.mpr h
  rw [List.length_append] at hlength
  omega

/-- Each place on the way is in front of the last one, or is a directory. -/
def Direct (fs : Files) (start : Place) (parts : List String) : Prop :=
  ∀ p ∈ way start parts, p <+: placeOf start parts ∨ fs.at? p = some .directory

theorem step_of_isName (place : Place) (h : Path.IsName name) :
    step place name = place ++ [name] := by
  rw [step, if_neg h.ne_dot, if_neg h.ne_up]

theorem Opens.direct (h : fs.Opens start parts) : fs.Direct start parts :=
  fun p hp => .inr (h.directories p hp)

theorem prefix_step (place : Place) (h : name ≠ "..") : place <+: step place name := by
  rw [step, if_neg h]
  split
  · exact List.prefix_rfl
  · exact List.prefix_append place [name]

theorem Direct.concat (h : fs.Direct start parts) (hname : name ≠ "..") :
    fs.Direct start (parts ++ [name]) := by
  intro p hp
  rw [placeOf_concat]
  rcases mem_way_concat.mp hp with hp | rfl
  · exact (h p hp).imp_left fun hp => hp.trans (prefix_step _ hname)
  · exact .inl List.prefix_rfl

/-- A way that never goes up is direct. -/
theorem direct_of_noUp (h : ".." ∉ parts) : fs.Direct start parts := by
  induction parts using List.reverseRecOn with
  | nil => exact fun p hp => .inl (by rw [List.mem_singleton.mp hp]; exact List.prefix_rfl)
  | append_singleton parts name ih =>
      have hname : name ≠ ".." := fun e => h (by simp [e])
      exact (ih fun hup => h (List.mem_append_left _ hup)).concat hname

/-- On a direct way, what is behind a directory shows that it can be entered. -/
theorem Direct.opens (h : fs.Direct start parts) (htree : fs.IsTree)
    (hsizes : ∀ part ∈ parts, part.utf8ByteSize ≤ maxName)
    (hname : fs.at? (placeOf start parts ++ [name]) ≠ none) : fs.Opens start parts := by
  refine ⟨fun p hp => ?_, hsizes⟩
  rcases h p hp with hfront | hdir
  · refine htree.directory (hfront.trans (List.prefix_append _ [name])) (fun e => ?_) hname
    exact not_append_prefix (List.cons_ne_nil name []) (e ▸ hfront)
  · exact hdir

/-! ## Files in a directory -/

/-- The place of a path. -/
def placeAt (here : Place) (path : Path) : Place := placeOf (origin here path) path.parts

/-- A path leads through directories to a directory. -/
def OpensAt (fs : Files) (here : Place) (path : Path) : Prop :=
  fs.Opens (origin here path) path.parts

/-- The way of a path is direct. -/
def DirectAt (fs : Files) (here : Place) (path : Path) : Prop :=
  fs.Direct (origin here path) path.parts

theorem origin_join (here : Place) (d : Path) (h : Path.IsName name) :
    origin here (d.join ⟨name⟩) = origin here d := by
  rw [origin, origin, Path.isAbsolute_join d h]

theorem placeAt_join (here : Place) (d : Path) (h : Path.IsName name) :
    placeAt here (d.join ⟨name⟩) = placeAt here d ++ [name] := by
  rw [placeAt, origin_join here d h, Path.parts_join d h, placeOf_concat, step_of_isName _ h]
  rfl

theorem opensAt_join (h : Path.IsName name) : fs.OpensAt here (d.join ⟨name⟩) ↔
    fs.OpensAt here d ∧ name.utf8ByteSize ≤ maxName ∧
      fs.at? (placeAt here (d.join ⟨name⟩)) = some .directory := by
  rw [OpensAt, origin_join here d h, Path.parts_join d h, opens_concat, step_of_isName _ h,
    placeAt_join here d h]
  rfl

theorem DirectAt.join (h : fs.DirectAt here d) (hname : Path.IsName name) :
    fs.DirectAt here (d.join ⟨name⟩) := by
  rw [DirectAt, origin_join here d hname, Path.parts_join d hname]
  exact h.concat hname.ne_up

theorem locate_join (h : Path.IsName name) : fs.locate here (d.join ⟨name⟩) = .ok place ↔
    checkPath (d.join ⟨name⟩) = .ok () ∧ fs.OpensAt here d ∧ name.utf8ByteSize ≤ maxName ∧
      place = placeAt here (d.join ⟨name⟩) := by
  have hends := Path.endsIn_join d h
  rw [locate_eq_ok, hends.endsInSlash_eq, if_neg Bool.false_ne_true, List.append_nil,
    origin_join here d h, Path.parts_join d h, follow_concat, placeAt_join here d h,
    step_of_isName _ h]
  exact and_congr_right fun _ => and_iff_right hends.text_ne_empty

/-- A path is looked up by locating it and taking what is there. -/
theorem lookup_eq_ok : fs.lookup here path = .ok (place, node) ↔
    fs.locate here path = .ok place ∧ fs.at? place = some node := by
  rw [lookup]
  cases hlocate : fs.locate here path with
  | error problem => simp
  | ok found =>
      constructor
      · intro h
        cases hnode : fs.at? found with
        | none =>
            simp only [hnode] at h
            cases h
        | some node =>
            simp only [hnode] at h
            cases h
            exact ⟨rfl, hnode⟩
      · rintro ⟨h, hnode⟩
        cases h
        simp only [hnode]

theorem isThere_eq_true :
    fs.isThere here path = true ↔ ∃ out, fs.lookup here path = .ok out := by
  rw [isThere]
  cases fs.lookup here path <;> simp

/-- A file in a directory is there if the directory is and something is at its place. -/
theorem isThere_join (h : Path.IsName name) : fs.isThere here (d.join ⟨name⟩) = true ↔
    (checkPath (d.join ⟨name⟩) = .ok () ∧ fs.OpensAt here d ∧ name.utf8ByteSize ≤ maxName) ∧
      fs.at? (placeAt here (d.join ⟨name⟩)) ≠ none := by
  rw [isThere_eq_true, Option.ne_none_iff_exists']
  constructor
  · rintro ⟨⟨place, node⟩, hlookup⟩
    obtain ⟨hlocate, hnode⟩ := lookup_eq_ok.mp hlookup
    obtain ⟨hcheck, hopens, hsize, rfl⟩ := (locate_join h).mp hlocate
    exact ⟨⟨hcheck, hopens, hsize⟩, node, hnode⟩
  · rintro ⟨⟨hcheck, hopens, hsize⟩, node, hnode⟩
    exact ⟨(_, node), lookup_eq_ok.mpr ⟨(locate_join h).mpr ⟨hcheck, hopens, hsize, rfl⟩, hnode⟩⟩

/-- On a direct way, what is there can be reached. -/
theorem DirectAt.opensAt (h : fs.DirectAt here d) (htree : fs.IsTree) (hopens : fs'.OpensAt here d)
    (hname : fs.at? (placeAt here d ++ [name]) ≠ none) : fs.OpensAt here d :=
  Direct.opens h htree hopens.sizes hname

/-- The way to a directory is direct. -/
theorem directAt_of_directory (h : fs.directory here path = .ok place) :
    fs.DirectAt here path := by
  rw [directory] at h
  cases hlookup : fs.lookup here path with
  | error problem =>
      rw [hlookup] at h
      cases h
  | ok out =>
      obtain ⟨place', node⟩ := out
      rw [hlookup] at h
      cases node with
      | file content => cases h
      | directory =>
          obtain ⟨hlocate, hdir⟩ := lookup_eq_ok.mp hlookup
          obtain ⟨-, -, hfollow⟩ := locate_eq_ok.mp hlocate
          have hopens := opens_of_follow hfollow hdir
          split at hfollow <;> rename_i hslash
          · rw [if_pos hslash] at hopens
            exact (opens_concat.mp hopens).1.direct
          · rw [if_neg hslash, List.append_nil] at hopens
            exact hopens.direct

/-! ## Saving -/

/-- A file was written in a directory, and directories were created on the way. -/
structure Saved (here : Place) (d : Path) (name : String) (content : ByteArray)
    (fs fs' : Files) : Prop where
  checked : checkPath (d.join ⟨name⟩) = .ok ()
  short : name.utf8ByteSize ≤ maxName
  opens : fs'.OpensAt here d
  keeps : KeepsDirectories fs fs'
  elsewhere : ∀ p, p ≠ placeAt here (d.join ⟨name⟩) →
    fs'.at? p = fs.at? p ∨ p ∈ way (origin here d) d.parts ∧ fs.at? p = none
  written : fs'.at? (placeAt here (d.join ⟨name⟩)) = some (.file content)

/-- A file is written below a directory exactly if the path is one, the directory is open, and the
name is neither too long nor that of a directory. -/
theorem write_join (h : Path.IsName name) :
    fs.write here (d.join ⟨name⟩) content = .ok fs' ↔
      (checkPath (d.join ⟨name⟩) = .ok () ∧ fs.OpensAt here d ∧ name.utf8ByteSize ≤ maxName) ∧
        fs.at? (placeAt here (d.join ⟨name⟩)) ≠ some .directory ∧
        fs' = fs.put (placeAt here (d.join ⟨name⟩)) (.file content) := by
  have hends := Path.endsIn_join d h
  have hplace := placeAt_join here d h
  rw [write_eq_ok, origin_join here d h, Path.parts_join d h]
  simp only [follow_concat, step_of_isName _ h, hends.endsInSlash_eq]
  constructor
  · rintro ⟨⟨hcheck, -⟩, place, ⟨hopens, hsize, rfl⟩, hnode, hfiles⟩
    rw [hplace]
    exact ⟨⟨hcheck, hopens, hsize⟩, hnode, hfiles⟩
  · rintro ⟨⟨hcheck, hopens, hsize⟩, hnode, hfiles⟩
    rw [hplace] at hnode hfiles
    exact ⟨⟨hcheck, hends.text_ne_empty, trivial⟩, _, ⟨hopens, hsize, rfl⟩, hnode, hfiles⟩

/-- A file that is missing in a directory can be written. -/
theorem write_of_missing (h : Path.IsName name) (hcheck : checkPath (d.join ⟨name⟩) = .ok ())
    (hopens : fs.OpensAt here d) (hsize : name.utf8ByteSize ≤ maxName)
    (hmissing : fs.isThere here (d.join ⟨name⟩) = false) :
    ∃ fs', fs.write here (d.join ⟨name⟩) content = .ok fs' := by
  refine ⟨_, (write_join h).mpr ⟨⟨hcheck, hopens, hsize⟩, fun hdir => ?_, rfl⟩⟩
  rw [(isThere_join h).mpr ⟨⟨hcheck, hopens, hsize⟩, by simp [hdir]⟩] at hmissing
  cases hmissing

theorem saved_of_write {files : Files} (h : Path.IsName name)
    (hdirs : fs.createDirs here d = (.ok (), files))
    (hwrite : files.write here (d.join ⟨name⟩) content = .ok fs') :
    Saved here d name content fs fs' := by
  have hcreated := createDirs_created fs here d
  rw [hdirs] at hcreated
  obtain ⟨⟨hcheck, hopens, hsize⟩, hplace, rfl⟩ := (write_join h).mp hwrite
  have hkeep : KeepsDirectories files
      (files.put (placeAt here (d.join ⟨name⟩)) (.file content)) := keepsDirectories_put hplace
  refine ⟨hcheck, hsize, hopens.mono hkeep, fun p hp => hkeep p (hcreated.keepsDirectories p hp),
    fun p hp => ?_, at?_put_self (by simp [placeAt_join here d h])⟩
  rw [at?_put_of_ne hp]
  exact (hcreated p).imp_right fun ⟨hmem, hnone, _⟩ => ⟨hmem, hnone⟩

/-! ## Paths that can be used -/

theorem checkPath_eq_ok : checkPath path = .ok () ↔
    '\x00' ∉ path.text.toList ∧ path.text.utf8ByteSize ≤ maxPath := by
  rw [checkPath, Text.hasNul]
  by_cases hnul : '\x00' ∈ path.text.toList
  · simp [hnul]
  · by_cases hsize : path.text.utf8ByteSize ≤ maxPath <;> simp [hnul, hsize]

/-- If a file below a directory can be used, so can the directory and a file of that name in
it. -/
theorem checkPath_above {last sub : String} (hd : d.EndsIn last) (hsub : Path.IsName sub)
    (hname : Path.IsName name) (h : checkPath ((d.join ⟨sub⟩).join ⟨name⟩) = .ok ()) :
    checkPath d = .ok () ∧ checkPath (d.join ⟨name⟩) = .ok () := by
  have htext := (Path.endsIn_join d hsub).text_join hname
  rw [hd.text_join hsub] at htext
  rw [checkPath_eq_ok, htext] at h
  rw [checkPath_eq_ok, checkPath_eq_ok, hd.text_join hname]
  simp only [String.toList_append, List.mem_append, not_or, String.utf8ByteSize_append] at h ⊢
  refine ⟨⟨h.1.1.1.1.1, by omega⟩, ⟨⟨h.1.1.1.1.1, h.1.1.1.1.2⟩, h.1.2⟩, by omega⟩

/-! ## What is left alone -/

/-- Two file systems have the same at a path, or both nothing. -/
def SameAt (fs fs' : Files) (here : Place) (path : Path) : Prop :=
  ∀ out, fs.lookup here path = .ok out ↔ fs'.lookup here path = .ok out

theorem SameAt.isThere_eq (h : SameAt fs fs' here path) :
    fs'.isThere here path = fs.isThere here path :=
  Bool.eq_iff_iff.mpr (by simp only [isThere_eq_true, h _])

theorem SameAt.readText_eq (h : SameAt fs fs' here path) (hthere : fs.isThere here path = true) :
    fs'.readText here path = fs.readText here path := by
  obtain ⟨out, hout⟩ := isThere_eq_true.mp hthere
  rw [readText, readText, read, read, hout, (h out).mp hout]

/-- What has the same at its place is found in the same way: while directories stay, it is found
afterwards, and on a direct way it was found before. -/
theorem sameAt_of_place (hkeeps : KeepsDirectories fs fs') (htree : fs.IsTree)
    (hd : fs.DirectAt here d) (hname : Path.IsName name)
    (hsame : fs'.at? (placeAt here (d.join ⟨name⟩)) = fs.at? (placeAt here (d.join ⟨name⟩))) :
    SameAt fs fs' here (d.join ⟨name⟩) := by
  rintro ⟨place, node⟩
  rw [lookup_eq_ok, lookup_eq_ok, locate_join hname, locate_join hname]
  constructor
  · rintro ⟨⟨hcheck, hopens, hsize, rfl⟩, hnode⟩
    exact ⟨⟨hcheck, hopens.mono hkeeps, hsize, rfl⟩, hsame.trans hnode⟩
  · rintro ⟨⟨hcheck, hopens, hsize, rfl⟩, hnode⟩
    rw [hsame] at hnode
    have hthere : fs.at? (placeAt here d ++ [name]) ≠ none := by
      rw [← placeAt_join here d hname, hnode]
      simp
    exact ⟨⟨hcheck, hd.opensAt htree hopens hthere, hsize, rfl⟩, hnode⟩

/-- On a direct way, nothing is created but in front of its end. -/
theorem DirectAt.same (h : fs.DirectAt here d)
    (hp : fs'.at? p = fs.at? p ∨ p ∈ way (origin here d) d.parts ∧ fs.at? p = none)
    (hway : ¬p <+: placeAt here d) : fs'.at? p = fs.at? p := by
  rcases hp with hsame | ⟨hmem, hnone⟩
  · exact hsame
  · rcases h p hmem with hfront | hdir
    · exact absurd hfront hway
    · rw [hnone] at hdir
      cases hdir

/-- Creating a directory leaves the files in it alone. -/
theorem sameAt_of_createDirs {r : Except IoProblem Unit} (h : fs.createDirs here d = (r, fs'))
    (htree : fs.IsTree) (hd : fs.DirectAt here d) (hname : Path.IsName name) :
    SameAt fs fs' here (d.join ⟨name⟩) := by
  have hcreated := createDirs_created fs here d
  rw [h] at hcreated
  refine sameAt_of_place hcreated.keepsDirectories htree hd hname (hd.same ?_ fun hfront => ?_)
  · exact (hcreated _).imp_right fun ⟨hmem, hnone, _⟩ => ⟨hmem, hnone⟩
  · rw [placeAt_join here d hname] at hfront
    exact not_append_prefix (List.cons_ne_nil name []) hfront

/-- Saving a file leaves alone what is neither that file nor on the way to it. -/
theorem sameAt_of_saved (hsaved : Saved here d name content fs fs') (htree : fs.IsTree)
    (hd : fs.DirectAt here d) (he : fs.DirectAt here e) (hname : Path.IsName name')
    (hne : placeAt here (e.join ⟨name'⟩) ≠ placeAt here (d.join ⟨name⟩))
    (hway : ¬placeAt here (e.join ⟨name'⟩) <+: placeAt here d) :
    SameAt fs fs' here (e.join ⟨name'⟩) :=
  sameAt_of_place hsaved.keeps htree he hname (hd.same (hsaved.elsewhere _ hne) hway)

end Shipment.Files
