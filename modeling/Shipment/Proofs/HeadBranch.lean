import Shipment.Proofs.CommitLog

/-!
# The default branch that git names

The default branch is the one that is noted locally for `origin`.  If none is, the remote lists
what its symbolic refs stand for, and the first line that says so of `HEAD` names it.

`Points` is such a line.  git puts one space behind the colon and one tab before `HEAD`, but other
blanks are taken too, and so are blanks before the first line of the listing.
-/

namespace Shipment.Git

open Text

variable {line branch behind : List Char} {ls : List (List Char)} {b : String}

/-! ## One line -/

/-- A line that says that `HEAD` stands for a branch. -/
inductive Points : List Char → List Char → Prop where
  | intro {before branch between behind : List Char} : (∀ c ∈ before, isBlank c = true) →
      '\t' ∉ branch → (∀ c, branch.getLast? = some c → isBlank c = false) →
      (∀ c ∈ between, isBlank c = true) → '\t' ∈ between → (∀ c ∈ behind, isBlank c = true) →
      Points ("ref:".toList ++ (before ++ ("refs/heads/".toList ++ branch ++
        (between ++ "HEAD".toList) ++ behind))) branch

/-- The line as git prints it. -/
def headLine (branch : List Char) : List Char :=
  "ref: refs/heads/".toList ++ branch ++ "\tHEAD".toList

theorem points_headLine (hbranch : ∀ c ∈ branch, isBlank c = false) :
    Points (headLine branch) branch := by
  have htab : '\t' ∉ branch := fun hmem => by cases hbranch _ hmem
  have hlast : ∀ c, branch.getLast? = some c → isBlank c = false := fun c hc =>
    hbranch c (List.mem_of_getLast? hc)
  have hspace : ∀ c ∈ [' '], isBlank c = true := List.forall_mem_singleton.mpr rfl
  have hbetween : ∀ c ∈ ['\t'], isBlank c = true := List.forall_mem_singleton.mpr rfl
  have hnone : ∀ c ∈ ([] : List Char), isBlank c = true := nofun
  have h := Points.intro hspace htab hlast hbetween (List.mem_singleton_self _) hnone
  rw [List.append_nil] at h
  exact h

theorem splitOnce_eq_some {c : Char} {cs a b : List Char} :
    splitOnce [c] cs = some (a, b) ↔ c ∉ a ∧ cs = a ++ c :: b := by
  constructor
  · intro h
    by_cases hc : c ∈ cs
    · obtain ⟨front, rest, rfl, hfront⟩ := List.eq_append_cons_of_mem hc
      rw [splitOnce_append hfront] at h
      cases h
      exact ⟨hfront, rfl⟩
    · rw [splitOnce_eq_none hc] at h
      cases h
  · rintro ⟨hc, rfl⟩
    exact splitOnce_append hc

/-- The reader drops the blanks around both fields of a line and around the whole. -/
theorem headBranchOf?_eq_some : headBranchOf? line = some b ↔
    ∃ rest target name, line = "ref:".toList ++ rest ∧ '\t' ∉ target ∧
      Bare isBlank rest (target ++ '\t' :: name) ∧ Bare isBlank name "HEAD".toList ∧
      Bare isBlank target ("refs/heads/".toList ++ b.toList) := by
  simp only [headBranchOf?, Option.bind_eq_bind, Option.bind_eq_some_iff, Prod.exists,
    after?_eq_some, splitOnce_eq_some, bare_isBlank_iff]
  constructor
  · rintro ⟨rest, rfl, target, name, ⟨htab, hrest⟩, h⟩
    split at h
    · rename_i hname
      simp only [Option.map_eq_some_iff, after?_eq_some] at h
      obtain ⟨branch, htarget, rfl⟩ := h
      refine ⟨rest, target, name, rfl, htab, hrest, beq_iff_eq.mp hname, ?_⟩
      rw [htarget, String.toList_ofList (l := branch)]
    · cases h
  · rintro ⟨rest, target, name, rfl, htab, hrest, hname, htarget⟩
    refine ⟨rest, rfl, target, name, ⟨htab, hrest⟩, ?_⟩
    rw [if_pos (beq_iff_eq.mpr hname), htarget, after?_append, Option.map_some,
      String.ofList_toList]

/-- A branch is only read off a line that says so. -/
theorem points_of_headBranchOf? (h : headBranchOf? line = some b) : Points line b.toList := by
  obtain ⟨rest, target, name, rfl, htab, hrest, hname, htarget⟩ := headBranchOf?_eq_some.mp h
  clear h
  generalize b.toList = branch at htarget
  generalize hcore : "refs/heads/".toList ++ branch = core at htarget
  generalize hhead : "HEAD".toList = head at hname
  obtain ⟨hleft, hright, -, hlast⟩ := htarget
  obtain ⟨hback, hfinal, -, -⟩ := hname
  generalize hall : _ ++ '\t' :: _ = all at hrest
  obtain ⟨hbefore, hbehind, -, -⟩ := hrest
  subst hall hcore hhead
  rename_i left right back final before behind
  have hbranch : '\t' ∉ branch := fun hmem => htab (by simp [hmem])
  have hend : ∀ c, branch.getLast? = some c → isBlank c = false := fun c hc =>
    hlast c (by rw [List.getLast?_append, hc]; rfl)
  -- The blanks around a field and those around the line stand beside each other.
  have hmiddle : ∀ c ∈ right ++ '\t' :: back, isBlank c = true :=
    List.forall_mem_append.mpr ⟨hright, List.forall_mem_cons.mpr ⟨rfl, hback⟩⟩
  have hpoints := Points.intro (List.forall_mem_append.mpr ⟨hbefore, hleft⟩) hbranch hend hmiddle
    (List.mem_append_right right List.mem_cons_self)
    (List.forall_mem_append.mpr ⟨hfinal, hbehind⟩)
  simpa only [List.append_assoc, List.cons_append] using hpoints

/-- What ends in no blank does so behind the name of a directory. -/
theorem isBlank_getLast_append {a : List Char} {c d : Char}
    (ha : a.getLast? = some d) (hd : isBlank d = false)
    (hlast : ∀ c, branch.getLast? = some c → isBlank c = false)
    (hc : (a ++ branch).getLast? = some c) : isBlank c = false := by
  rw [List.getLast?_append, ha] at hc
  cases hbranch : branch.getLast? with
  | none =>
      rw [hbranch] at hc
      cases hc
      exact hd
  | some e =>
      rw [hbranch] at hc
      cases hc
      exact hlast _ hbranch

/-- A line that says what `HEAD` stands for is read, whatever blanks are around its parts. -/
theorem headBranchOf?_of_points (h : Points line b.toList) : headBranchOf? line = some b := by
  rw [headBranchOf?_eq_some]
  generalize b.toList = branch at h
  obtain ⟨hbefore, htab, hlast, hbetween, hmem, hbehind⟩ := h
  rename_i before between behind
  -- The line is split at the first tab of the blanks in front of `HEAD`.
  obtain ⟨front, back, rfl, hfront⟩ := List.eq_append_cons_of_mem hmem
  obtain ⟨hblanks, hback⟩ := List.forall_mem_append.mp hbetween
  have hnone : ∀ c ∈ ([] : List Char), isBlank c = true := nofun
  have hrest : Bare isBlank
      (before ++ ("refs/heads/".toList ++ branch ++ (front ++ '\t' :: back ++ "HEAD".toList) ++
        behind))
      ("refs/heads/".toList ++ branch ++ (front ++ '\t' :: back ++ "HEAD".toList)) := by
    refine .intro hbefore hbehind ?_ ?_
    · rintro c ⟨⟩
      rfl
    · intro c hc
      rw [← List.append_assoc, List.getLast?_append] at hc
      cases hc
      rfl
  have hname : Bare isBlank (back ++ ("HEAD".toList ++ [])) "HEAD".toList := by
    refine .intro (List.forall_mem_cons.mp hback).2 hnone ?_ ?_ <;> rintro c ⟨⟩ <;> rfl
  have htarget : Bare isBlank ([] ++ ("refs/heads/".toList ++ branch ++ front))
      ("refs/heads/".toList ++ branch) := by
    refine .intro hnone hblanks ?_ fun c hc => isBlank_getLast_append rfl rfl hlast hc
    rintro c ⟨⟩
    rfl
  refine ⟨_, _, _, rfl, by simp [htab, hfront], ?_, hname, htarget⟩
  simpa only [List.append_nil, List.nil_append, List.append_assoc, List.cons_append] using hrest

theorem headBranchOf?_iff : headBranchOf? line = some b ↔ Points line b.toList :=
  ⟨points_of_headBranchOf?, headBranchOf?_of_points⟩

/-! ## A listing -/

/-- The first line of a listing that says what `HEAD` stands for names a branch. -/
inductive Names : List (List Char) → List Char → Prop where
  | intro {ahead rest : List (List Char)} {line branch : List Char} :
      (∀ l ∈ ahead, ∀ other, ¬Points l other) → Points line branch →
      Names (ahead ++ line :: rest) branch

theorem headBranchOf?_eq_none : headBranchOf? line = none ↔ ∀ branch, ¬Points line branch := by
  rw [Option.eq_none_iff_forall_ne_some]
  refine ⟨fun h branch hp => h (String.ofList branch) ?_, fun h b hb => h _ (headBranchOf?_iff.mp hb)⟩
  rw [headBranchOf?_iff, String.toList_ofList]
  exact hp

/-- The branch of a listing is read off the first line that has one. -/
theorem findSome?_iff : ls.findSome? headBranchOf? = some b ↔ Names ls b.toList := by
  rw [List.findSome?_eq_some_iff]
  constructor
  · rintro ⟨ahead, line, rest, rfl, hline, hahead⟩
    exact .intro (fun l hl => headBranchOf?_eq_none.mp (hahead l hl)) (headBranchOf?_iff.mp hline)
  · generalize hb : b.toList = branch
    rintro ⟨hahead, hline⟩
    exact ⟨_, _, _, rfl, headBranchOf?_iff.mpr (hb ▸ hline),
      fun l hl => headBranchOf?_eq_none.mpr (hahead l hl)⟩

theorem not_start_append_blank {start : List Char} {c : Char} (hlast : start.getLast? = some c)
    (hc : isBlank c = false) (hb : ∀ c ∈ behind, isBlank c = true) (h : ¬start <+: line) :
    ¬start <+: line ++ behind := by
  intro hstart
  obtain hline | ⟨rest, rfl⟩ := List.prefix_or_prefix_of_prefix hstart (List.prefix_append line behind)
  · exact h hline
  · have hrest : rest <+: behind := (List.prefix_append_right_inj line).mp hstart
    have hne : rest ≠ [] := by
      rintro rfl
      exact h (by simp)
    rw [List.getLast?_append_of_ne_nil _ hne] at hlast
    rw [hb c (hrest.subset (List.mem_of_getLast? hlast))] at hc
    cases hc

/-- Blanks at the end of a line belong to no field. -/
theorem heedless_headBranchOf? : Heedless headBranchOf? where
  append line behind hb := by
    by_cases hstart : "ref:".toList <+: line
    · obtain ⟨rest, rfl⟩ := hstart
      rw [List.append_assoc]
      simp only [headBranchOf?, after?_append, Option.bind_eq_bind, Option.bind_some,
        trim_append_blank hb]
    · have hall : ¬"ref:".toList <+: line ++ behind :=
        not_start_append_blank rfl (by decide : isBlank ':' = false) hb hstart
      rw [headBranchOf?, headBranchOf?, after?_eq_none.mpr hstart, after?_eq_none.mpr hall]
  nil := rfl

/-- A printed listing names a branch by its lines, but for the blanks in front of them. -/
theorem headBranch?_outText {o : Output} : headBranch? o.outText = some b ↔
    Names (lines (trimStart (decodeLossy o.out).toList)) b.toList := by
  rw [headBranch?, Output.outText, Text.trimmed, String.toList_ofList,
    heedless_headBranchOf?.findSome?_trim, findSome?_iff]

theorem not_names_of (hnone : ∀ l ∈ ls, ∀ branch, ¬Points l branch) : ¬Names ls branch := by
  rintro ⟨-, hline⟩
  exact hnone _ (List.mem_append_right _ List.mem_cons_self) _ hline

/-! ## The default branch -/

/-- The arguments of git that ask for the branch that is noted for `origin`. -/
def notedArgs : List String := ["symbolic-ref", "--quiet", "--short", "refs/remotes/origin/HEAD"]

/-- The arguments of git that ask the remote. -/
def listedArgs : List String := ["ls-remote", "--symref", "origin", "HEAD"]

/-- The branch that a noted ref stands for. -/
def notedBranch? (o : Output) : Option (List Char) :=
  if o.succeeded then after? "origin/".toList o.outText.toList else none

/-- The branch that the remote names. -/
def listedBranch (root : Path) : Work String := do
  match headBranch? (← command root listedArgs) with
  | some branch => return branch
  | none => Work.fail (.vcs "Could not determine the default branch of origin")

theorem defaultBranch_eq (root : Path) : defaultBranch root = (do
    match notedBranch? (← start root notedArgs) with
    | some branch => return String.ofList branch
    | none => listedBranch root) := rfl

variable {σ : Type} {h : Handler system σ} {s : σ} {root : Path} {o o' : Output}

theorem ends_defaultBranch_noted (hreply : (h (.start .git root notedArgs) s).1 = .ok o)
    (hnoted : notedBranch? o = some branch) :
    (Work.ends h (defaultBranch root) s).1 = .ok (String.ofList branch) := by
  rw [defaultBranch_eq, Work.ends_bind_ok (ends_start hreply), hnoted]
  rfl

theorem ends_defaultBranch_listed (hreply : (h (.start .git root notedArgs) s).1 = .ok o)
    (hnone : notedBranch? o = none) : Work.ends h (defaultBranch root) s =
      Work.ends h (listedBranch root) (h (.start .git root notedArgs) s).2 := by
  rw [defaultBranch_eq, Work.ends_bind_ok (ends_start hreply), hnone]

/-- What git lists is read as a listing, and one that names no branch is a failure. -/
theorem ends_listedBranch (hreply : (h (.start .git root listedArgs) s).1 = .ok o)
    (hok : o.code = some 0) : (Work.ends h (listedBranch root) s).1 =
      match headBranch? o.outText with
      | some branch => .ok branch
      | none => .error (.vcs "Could not determine the default branch of origin") := by
  have hcommand := ends_command hreply hok
  rw [listedBranch, Work.ends_bind]
  generalize Work.ends h (command root listedArgs) s = out at hcommand ⊢
  obtain ⟨_, s'⟩ := out
  generalize o.outText = listing at hcommand ⊢
  cases hcommand
  show (Work.ends h (match headBranch? listing with
    | some branch => pure branch
    | none => Work.fail _) s').1 = _
  cases headBranch? listing <;> rfl

theorem listedBranch_eq_ok (hreply : (h (.start .git root listedArgs) s).1 = .ok o)
    (hok : o.code = some 0) :
    (Work.ends h (listedBranch root) s).1 = .ok b ↔ headBranch? o.outText = some b := by
  rw [ends_listedBranch hreply hok]
  generalize headBranch? o.outText = named
  cases named <;> simp

theorem listedBranch_eq_error (hreply : (h (.start .git root listedArgs) s).1 = .ok o)
    (hok : o.code = some 0) (hnone : headBranch? o.outText = none) :
    (Work.ends h (listedBranch root) s).1 =
      .error (.vcs "Could not determine the default branch of origin") := by
  rw [ends_listedBranch hreply hok, hnone]

theorem notedBranch?_eq_none
    (hnone : ¬(o.code = some 0 ∧ "origin/".toList <+: o.outText.toList)) :
    notedBranch? o = none := by
  unfold notedBranch?
  split
  · rename_i hok
    exact after?_eq_none.mpr fun hstart => hnone ⟨by simpa [Output.succeeded] using hok, hstart⟩
  · rfl

theorem notedBranch?_eq_some (hb : ∀ c ∈ b.toList, isBlank c = false) (hok : o.code = some 0)
    (hout : o.out = Text.encode ("origin/" ++ b ++ "\n")) : notedBranch? o = some b.toList := by
  have htext : o.outText.toList = "origin/".toList ++ b.toList := by
    have horigin : ∀ c ∈ "origin/".toList, isBlank c = false := unblank_of_any (by decide)
    have hfeed : ∀ c ∈ "\n".toList, isBlank c = true := List.forall_mem_singleton.mpr rfl
    rw [Output.outText, hout, decodeLossy_encode, Text.trimmed, String.toList_ofList,
      String.toList_append, trim_append_blank hfeed, String.toList_append,
      trim_of_unblank (List.forall_mem_append.mpr ⟨horigin, hb⟩)]
  rw [notedBranch?, Output.succeeded, hok, htext, after?_append]
  rfl

/-- The default branch is the one that is noted for `origin`.  If none is, it is the one that the
remote's listing names, be it in the form that git prints or with other blanks.  Without a line
that says what `HEAD` stands for it is an error. -/
theorem defaultBranch_of_either (h : Handler system σ) (s : σ) (root : Path) (o : Output)
    (hreply : (h (.start .git root notedArgs) s).1 = .ok o) :
    let found := (Work.ends h (defaultBranch root) s).1
    (∀ b : String, (∀ c ∈ b.toList, isBlank c = false) → o.code = some 0 →
      o.out = Text.encode ("origin/" ++ b ++ "\n") → found = .ok b) ∧
    (∀ o', ¬(o.code = some 0 ∧ "origin/".toList <+: o.outText.toList) →
      (h (.start .git root listedArgs) (h (.start .git root notedArgs) s).2).1 = .ok o' →
      o'.code = some 0 →
      let listing := lines (trimStart (decodeLossy o'.out).toList)
      (∀ b : String, found = .ok b ↔ Names listing b.toList) ∧
      (∀ b : String, (∀ c ∈ b.toList, isBlank c = false) → ∀ ahead rest,
        listing = ahead ++ headLine b.toList :: rest →
        (∀ line ∈ ahead, ∀ branch, ¬Points line branch) → found = .ok b) ∧
      ((∀ line ∈ listing, ∀ branch, ¬Points line branch) →
        found = .error (.vcs "Could not determine the default branch of origin"))) := by
  intro found
  constructor
  · intro b hb hok hout
    have hfound := ends_defaultBranch_noted hreply (notedBranch?_eq_some hb hok hout)
    rwa [String.ofList_toList] at hfound
  · intro o' hnone hlisted hok listing
    have hfound : found = (Work.ends h (listedBranch root) _).1 :=
      congrArg Prod.fst (ends_defaultBranch_listed hreply (notedBranch?_eq_none hnone))
    have hnamed : ∀ b : String, found = .ok b ↔ Names listing b.toList := fun b => by
      rw [hfound, listedBranch_eq_ok hlisted hok, headBranch?_outText]
    refine ⟨hnamed, ?_, ?_⟩
    · intro b hb ahead rest hlisting hahead
      rw [hnamed, hlisting]
      exact .intro hahead (points_headLine hb)
    · intro hpoints
      rw [hfound]
      refine listedBranch_eq_error hlisted hok (Option.eq_none_iff_forall_ne_some.mpr fun b hb => ?_)
      exact not_names_of hpoints (headBranch?_outText.mp hb)

/-- A branch that is noted, and one that the remote names between other lines. -/
theorem defaultBranch_of_either_both :
    let noted : Scripted := { script := [⟨Text.encode "origin/release/2.0\n", .empty, some 0⟩] }
    let listing := "ref: refs/tags/v1\tHEAD\n01ab\tHEAD\nref: refs/heads/main\tHEAD\n" ++
      "ref: refs/heads/old\trefs/remotes/origin/HEAD\n"
    let listed : Scripted :=
      { script := [⟨.empty, .empty, some 1⟩, ⟨Text.encode listing, .empty, some 0⟩] }
    (Work.ends Scripted.answer (defaultBranch ⟨"."⟩) noted).1 = .ok "release/2.0" ∧
      (Work.ends Scripted.answer (defaultBranch ⟨"."⟩) listed).1 = .ok "main" := by
  intro noted listing listed
  constructor
  · exact (defaultBranch_of_either Scripted.answer noted ⟨"."⟩ _ (by rfl)).1 "release/2.0"
      (unblank_of_any (by decide)) rfl rfl
  · have hfound := (defaultBranch_of_either Scripted.answer listed ⟨"."⟩
      ⟨.empty, .empty, some 1⟩ (by rfl)).2 ⟨Text.encode listing, .empty, some 0⟩
      (by simp) (by rfl) rfl
    rw [decodeLossy_encode] at hfound
    exact (hfound.1 "main").mpr (findSome?_iff.mp (by decide +kernel))

/-- A line without the space behind the colon names a branch too, so it is taken before a line in
the form that git prints. -/
theorem defaultBranch_of_loose_line :
    let loose := "ref:refs/heads/trunk\tHEAD"
    let listing := loose ++ "\nref: refs/heads/main\tHEAD\n"
    let s : Scripted :=
      { script := [⟨.empty, .empty, some 1⟩, ⟨Text.encode listing, .empty, some 0⟩] }
    lines listing.toList = [loose.toList, headLine "main".toList] ∧
      (∀ branch, loose.toList ≠ headLine branch) ∧
      (Work.ends Scripted.answer (defaultBranch ⟨"."⟩) s).1 = .ok "trunk" ∧
      (Except.ok "trunk" : Except Failure String) ≠ .ok "main" := by
  refine ⟨by decide, ?_, by decide +kernel, by simp⟩
  intro branch heq
  have hfifth := congrArg (fun cs : List Char => cs[4]?) heq
  cases hfifth

end Shipment.Git
