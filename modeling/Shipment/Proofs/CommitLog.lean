import Shipment.Git.Client
import Shipment.Proofs.System
import Shipment.Proofs.Text.Lines
import Shipment.Proofs.Text.Utf8
import Shipment.System.Scripted

/-!
# The commits of a printed log

git prints each commit on a line, with a tab between the hash and the subject.  The output of
a command is trimmed before its lines are read.  So a blank subject on the last line takes the
tab with it, and a line without a tab has no commit.  Every other commit is read back.
-/

namespace Shipment

namespace Commit

/-- A commit that fits on a line of a log. -/
structure FitsLine (c : Commit) : Prop where
  hash : c.hash ≠ ""
  unblank : ∀ ch ∈ c.hash.toList, Text.isBlank ch = false
  oneLine : '\n' ∉ c.subject.toList

theorem FitsLine.of_any {c : Commit} (hhash : c.hash ≠ "")
    (hblank : c.hash.toList.any Text.isBlank = false) (hline : '\n' ∉ c.subject.toList) :
    c.FitsLine :=
  ⟨hhash, Text.unblank_of_any hblank, hline⟩

/-- The commit with its subject trimmed. -/
def trimmed (c : Commit) : Commit := ⟨c.hash, Text.trimmed c.subject⟩

end Commit

namespace Git

open Text

variable {c : Commit} {cs commits : List Commit}

/-- The line of a commit in a log, without its end. -/
def lineOf (c : Commit) : List Char := c.hash.toList ++ '\t' :: c.subject.toList

/-- The log of some commits, as git prints it. -/
def logOf (commits : List Commit) : String :=
  String.ofList (commits.flatMap fun c => lineOf c ++ ['\n'])

/-! ## One line -/

theorem not_tab_of_fitsLine (h : c.FitsLine) : '\t' ∉ c.hash.toList := by
  intro ht
  have hb := h.unblank _ ht
  revert hb
  decide

theorem not_feed_of_fitsLine (h : c.FitsLine) : '\n' ∉ lineOf c := by
  intro hf
  rcases List.mem_append.mp hf with hf | hf
  · have hb := h.unblank _ hf
    revert hb
    decide
  · rcases List.mem_cons.mp hf with hf | hf
    · cases hf
    · exact h.oneLine hf

theorem hash_of_fitsLine (h : c.FitsLine) :
    ∃ ch rest, c.hash.toList = ch :: rest ∧ isBlank ch = false := by
  cases hh : c.hash.toList with
  | nil => exact absurd (String.toList_eq_nil_iff.mp hh) h.hash
  | cons ch rest => exact ⟨ch, rest, rfl, h.unblank ch (hh ▸ List.mem_cons_self)⟩

/-- A line with a hash and a tab has the commit, with whatever is trimmed to its subject. -/
theorem commitOf?_eq (h : c.FitsLine) {subject : List Char}
    (hs : trim subject = trim c.subject.toList) :
    commitOf? (c.hash.toList ++ '\t' :: subject) = some c.trimmed := by
  have hne : c.hash.toList.isEmpty = false := by
    rw [List.isEmpty_eq_false_iff]
    exact fun e => h.hash (String.toList_eq_nil_iff.mp e)
  rw [commitOf?, splitOnce_append (not_tab_of_fitsLine h)]
  simp only [trim_of_unblank h.unblank, hne, hs, String.ofList_toList]
  rfl

theorem commitOf?_chomp (h : c.FitsLine) : commitOf? (chomp (lineOf c)) = some c.trimmed := by
  rw [lineOf, chomp_append_cons (by decide)]
  exact commitOf?_eq h (trim_chomp _)

/-- The lines of a log but for the last give their commits. -/
theorem commitsOf_lines (h : ∀ c ∈ cs, c.FitsLine) (rest : List Char) :
    (lines ((cs.flatMap fun c => lineOf c ++ ['\n']) ++ rest)).filterMap commitOf? =
      cs.map Commit.trimmed ++ (lines rest).filterMap commitOf? := by
  induction cs with
  | nil => rfl
  | cons c cs ih =>
      obtain ⟨hc, hcs⟩ := List.forall_mem_cons.mp h
      rw [List.flatMap_cons, List.append_assoc, List.append_assoc, List.singleton_append,
        lines_line (not_feed_of_fitsLine hc), List.filterMap_cons_some (commitOf?_chomp hc),
        ih hcs, List.map_cons, List.cons_append]

theorem subject_eq_empty :
    c.trimmed.subject = "" ↔ ∀ ch ∈ c.subject.toList, isBlank ch = true := by
  rw [← trim_eq_nil, ← String.toList_eq_nil_iff]
  show (String.ofList _).toList = [] ↔ _
  rw [String.toList_ofList]

/-- The last line of a trimmed log gives its commit unless the subject is blank. -/
theorem commitsOf_last (h : c.FitsLine) :
    (lines (trimEnd (lineOf c ++ ['\n']))).filterMap commitOf? =
      if c.trimmed.subject = "" then [] else [c.trimmed] := by
  have hfeed := not_feed_of_fitsLine h
  rw [trimEnd_append_blank (List.forall_mem_singleton.mpr rfl), lineOf]
  rw [lineOf] at hfeed
  split
  · -- The tab is trimmed away with the subject.
    rename_i hblank
    have htab : ∀ ch ∈ '\t' :: c.subject.toList, isBlank ch = true :=
      List.forall_mem_cons.mpr ⟨by decide, subject_eq_empty.mp hblank⟩
    have hnone : commitOf? c.hash.toList = none := by
      rw [commitOf?, splitOnce_eq_none (not_tab_of_fitsLine h)]
    rw [trimEnd_append_blank htab, trimEnd_of_unblank h.unblank,
      lines_of_noFeed (fun hf => hfeed (List.mem_append_left _ hf)), List.filterMap_cons_none hnone,
      List.filterMap_nil]
    exact fun e => h.hash (String.toList_eq_nil_iff.mp e)
  · rename_i hsome
    have hunblank : ∃ ch ∈ c.subject.toList, isBlank ch = false := by
      simpa [subject_eq_empty] using hsome
    have htrim : trimEnd (c.hash.toList ++ '\t' :: c.subject.toList) =
        c.hash.toList ++ '\t' :: trimEnd c.subject.toList := by
      rw [← List.singleton_append, ← List.append_assoc, trimEnd_append hunblank,
        List.append_assoc, List.singleton_append]
    have hfront := trimEnd_prefix (c.hash.toList ++ '\t' :: c.subject.toList)
    rw [lines_of_noFeed fun hf => hfeed (hfront.subset hf)]
    · rw [htrim, List.filterMap_cons_some (commitOf?_eq h (trim_trimEnd _)), List.filterMap_nil]
    · rw [htrim]
      simp

/-! ## The whole log -/

/-- A log starts with no blank. -/
theorem trimStart_flatMap (h : c.FitsLine) (cs : List Commit) :
    trimStart ((c :: cs).flatMap fun c => lineOf c ++ ['\n']) =
      (c :: cs).flatMap fun c => lineOf c ++ ['\n'] := by
  obtain ⟨ch, rest, hh, hb⟩ := hash_of_fitsLine h
  simp only [List.flatMap_cons, lineOf, hh, List.cons_append]
  exact trimStart_cons hb

/-- A trimmed log gives every commit but a last one with a blank subject. -/
theorem commitsOf_trimmed_log (hcs : ∀ c ∈ cs, c.FitsLine) (hc : c.FitsLine) :
    commitsOf (Text.trimmed (logOf (cs ++ [c]))) =
      cs.map Commit.trimmed ++ if c.trimmed.subject = "" then [] else [c.trimmed] := by
  have hlast : ∃ ch ∈ lineOf c ++ ['\n'], isBlank ch = false := by
    obtain ⟨ch, rest, hh, hb⟩ := hash_of_fitsLine hc
    exact ⟨ch, by simp [lineOf, hh], hb⟩
  have hstart : trimStart ((cs ++ [c]).flatMap fun c => lineOf c ++ ['\n']) =
      (cs ++ [c]).flatMap fun c => lineOf c ++ ['\n'] := by
    cases cs with
    | nil => exact trimStart_flatMap hc []
    | cons d cs => exact trimStart_flatMap (hcs d List.mem_cons_self) (cs ++ [c])
  rw [commitsOf, Text.trimmed, String.toList_ofList, logOf, String.toList_ofList, trim, hstart,
    List.flatMap_append, List.flatMap_singleton, trimEnd_append hlast, commitsOf_lines hcs,
    commitsOf_last hc]

section Ends

variable {σ : Type} {h : Handler system σ} {s : σ} {root : Path} {args : List String} {o : Output}

theorem ends_start (hreply : (h (.start .git root args) s).1 = .ok o) :
    Work.ends h (Git.start root args) s = (.ok o, (h (.start .git root args) s).2) := by
  rw [Git.start, Work.ends_bind_ok Work.ends_ask, hreply]
  rfl

/-- A command that succeeds gives what it printed. -/
theorem ends_command (hreply : (h (.start .git root args) s).1 = .ok o) (hok : o.code = some 0) :
    (Work.ends h (command root args) s).1 = .ok o.outText := by
  rw [command, Work.ends_bind_ok (ends_start hreply), Output.succeeded, hok]
  rfl

end Ends

/-- When git prints the log of some commits, they are all listed unless the subject of the last
one is blank.  Then exactly that one is missing, and if it is the only one, there is none. -/
theorem lists_printed_iff {σ : Type} (h : Handler system σ) (s : σ) (root : Path)
    (start target : String) (o : Output) (commits : List Commit)
    (hreply : (h (.start .git root ["log", "--format=%h%x09%s", range start target]) s).1 = .ok o)
    (hok : o.code = some 0) (hout : o.out = Text.encode (logOf commits))
    (hc : ∀ c ∈ commits, c.FitsLine) :
    let listed := (Work.ends h (listCommits root start target) s).1
    (listed = .ok (commits.map Commit.trimmed) ↔
      ∀ c, commits.getLast? = some c → c.trimmed.subject ≠ "") ∧
    (∀ c, commits.getLast? = some c → c.trimmed.subject = "" →
      listed = .ok (commits.dropLast.map Commit.trimmed)) ∧
    (listed = .ok [] ↔ commits = [] ∨ ∃ c, commits = [c] ∧ c.trimmed.subject = "") := by
  intro listed
  have hlisted : listed = .ok (commitsOf (Text.trimmed (logOf commits))) := by
    have hcommand := ends_command hreply hok
    rw [Output.outText, hout, decodeLossy_encode] at hcommand
    show (Work.ends h (listCommits root start target) s).1 = _
    rw [listCommits, Work.ends_bind]
    generalize Work.ends h (command root _) s = out at hcommand
    obtain ⟨_, s'⟩ := out
    cases hcommand
    rfl
  clear_value listed
  subst hlisted
  rcases List.eq_nil_or_concat commits with rfl | ⟨cs, c, rfl⟩
  · simp [logOf, commitsOf, Text.trimmed, trim, trimStart, trimEnd, lines]
  · rw [List.concat_eq_append] at hc ⊢
    obtain ⟨hcs, hlast⟩ := List.forall_mem_append.mp hc
    rw [commitsOf_trimmed_log hcs (hlast c (List.mem_singleton_self c))]
    have hone : (∃ d, cs ++ [c] = [d] ∧ d.trimmed.subject = "") ↔
        cs = [] ∧ c.trimmed.subject = "" := by
      constructor
      · rintro ⟨d, he, hd⟩
        obtain ⟨rfl, he⟩ := List.append_eq_singleton_iff.mp he |>.resolve_right (by simp)
        cases he
        exact ⟨rfl, hd⟩
      · rintro ⟨rfl, hd⟩
        exact ⟨c, rfl, hd⟩
    rw [hone]
    by_cases hb : c.trimmed.subject = "" <;> simp [hb]

/-- Two commits, and one that has no message. -/
theorem lists_printed_iff_two :
    let commits : List Commit := [⟨"abc1234", " fix: a\tb"⟩, ⟨"def5678", ""⟩]
    let s : Scripted := { script := [⟨Text.encode (logOf commits), .empty, some 0⟩] }
    (∀ c ∈ commits, c.FitsLine) ∧
      (Work.ends Scripted.answer (listCommits ⟨"."⟩ "origin/main" "main") s).1 =
        .ok [⟨"abc1234", "fix: a\tb"⟩] := by
  intro commits s
  have hfits : ∀ c ∈ commits, c.FitsLine := by
    refine List.forall_mem_cons.mpr ⟨.of_any (by decide) (by decide) (by decide),
      List.forall_mem_singleton.mpr (.of_any (by decide) (by decide) (by decide))⟩
  have h := lists_printed_iff Scripted.answer s ⟨"."⟩ "origin/main" "main" _ commits
    (by rfl) rfl rfl hfits
  exact ⟨hfits, h.2.1 ⟨"def5678", ""⟩ rfl (by decide)⟩

/-- A commit without a message is on `main` alone, and none is listed. -/
theorem lists_none_of_blank :
    let commit : Commit := ⟨"abc1234", ""⟩
    let s : Scripted := { script := [⟨Text.encode (logOf [commit]), .empty, some 0⟩] }
    commit.FitsLine ∧ logOf [commit] = "abc1234\t\n" ∧
      (Work.ends Scripted.answer (listCommits ⟨"."⟩ "origin/main" "main") s).1 = .ok [] ∧
      (Except.ok [] : Except Failure (List Commit)) ≠ .ok [commit.trimmed] := by
  refine ⟨.of_any (by decide) (by decide) (by decide), by decide, ?_, by simp⟩
  decide +kernel

end Git

end Shipment
