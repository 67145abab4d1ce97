import Mathlib.Data.List.Nodup
import Shipment.Proofs.Call
import Shipment.Repository.Site

/-!
# What a call can change

`Effect` says once what each call can do to a repository in memory: the answer, the
condition under which it is given and the repository behind it.  `answer_effect` is
the proof that a site does nothing else, and the modules after this one read all
their invariants off `Effect` and never open an operation again.
-/

namespace Shipment

/-- Some key of the table has the value. -/
def Table.Holds {κ α : Type} [DecidableEq κ] (value : α) (t : Table κ α) : Prop :=
  ∃ key, t.get? key = some value

theorem Table.holds_of_holds_set {κ α : Type} [DecidableEq κ] {key : κ} {value v : α}
    {t : Table κ α} (h : (t.set key value).Holds v) : v = value ∨ t.Holds v := by
  obtain ⟨k, hk⟩ := h
  rw [get?_set] at hk
  by_cases e : k = key
  · rw [if_pos e] at hk
    exact .inl (Option.some.inj hk).symm
  · rw [if_neg e] at hk
    exact .inr ⟨k, hk⟩

theorem Table.holds_of_holds_erase {κ α : Type} [DecidableEq κ] {key : κ} {v : α}
    {t : Table κ α} (h : (t.erase key).Holds v) : t.Holds v := by
  obtain ⟨k, hk⟩ := h
  rw [get?_erase] at hk
  by_cases e : k = key
  · rw [if_pos e] at hk
    cases hk
  · rw [if_neg e] at hk
    exact ⟨k, hk⟩

theorem Table.exists_mem_of_holds {κ α : Type} [DecidableEq κ] {v : α} {t : Table κ α}
    (h : t.Holds v) : ∃ key, (key, v) ∈ t := by
  obtain ⟨key, hk⟩ := h
  refine ⟨key, ?_⟩
  induction t with
  | nil => cases hk
  | cons entry t ih =>
      unfold get? at hk
      split at hk
      · rename_i e
        cases hk
        cases e
        exact List.mem_cons_self
      · exact List.mem_cons_of_mem _ (ih hk)

namespace Repository

variable {r r' r'' : Repository}

/-! ## Ids -/

/-- The id of the `k`th commit made here. -/
def idOf (k : Nat) : String := "n" ++ toString k

/-- The id the next commit gets. -/
def nextId (r : Repository) : String := idOf (r.issued + 1)

theorem idOf_injective {j k : Nat} (h : idOf j = idOf k) : j = k := by
  have hl := congrArg String.toList h
  simp only [idOf, String.toList_append, List.append_cancel_left_eq, Nat.toString_eq_repr,
    Nat.toList_repr] at hl
  have hd := congrArg (Nat.ofDigitChars 10 · 0) hl
  simpa only [Nat.ofDigitChars_ten_toDigits] using hd

/-- The ids the next `count` commits get. -/
def freshIds (issued count : Nat) : List String :=
  (List.range' (issued + 1) count).map idOf

theorem mem_freshIds {issued count : Nat} {id : String} (h : id ∈ freshIds issued count) :
    ∃ k, issued < k ∧ k ≤ issued + count ∧ id = idOf k := by
  obtain ⟨k, hk, rfl⟩ := List.mem_map.mp h
  rw [List.mem_range'_1] at hk
  exact ⟨k, by omega, by omega, rfl⟩

theorem nodup_freshIds (issued count : Nat) : (freshIds issued count).Nodup :=
  List.Nodup.map (fun _ _ => idOf_injective) List.nodup_range'

theorem message_issue (text : String) (r : Repository) :
    message r.nextId (r.issue text).2 = text := by
  show ((Table.set r.nextId text r.messages).get? r.nextId).getD "" = text
  rw [Table.get?_set_self]
  rfl

theorem message_issue_of_ne {id : String} (h : id ≠ r.nextId) (text : String) :
    message id (r.issue text).2 = message id r := by
  show ((Table.set r.nextId text r.messages).get? id).getD "" = _
  rw [Table.get?_set_of_ne h.symm]
  rfl

/-! ## Rewriting commits -/

/-- Rewritten commits get the next ids, and nothing else but messages changes. -/
theorem replay_eq (base ids : History) (r : Repository) :
    ∃ messages, replay base ids r = (base ++ freshIds r.issued ids.length,
      { r with issued := r.issued + ids.length, messages }) := by
  induction ids generalizing base r with
  | nil => exact ⟨r.messages, by simp [replay, freshIds]⟩
  | cons id ids ih =>
      obtain ⟨messages, h⟩ := ih (base ++ [r.nextId]) (r.issue (r.message id)).2
      refine ⟨messages, ?_⟩
      rw [replay]
      refine h.trans ?_
      have hf : freshIds r.issued (ids.length + 1) =
          r.nextId :: freshIds (r.issued + 1) ids.length := by
        rw [freshIds, List.range'_succ, List.map_cons]
        rfl
      simp only [issue, List.length_cons, hf, List.append_assoc, List.cons_append,
        List.nil_append, Nat.add_assoc, Nat.add_comm 1]

/-- A commit that is not a rewritten one keeps its message. -/
theorem message_replay (base ids : History) {id : String}
    (h : ∀ k, r.issued < k → id ≠ idOf k) :
    (replay base ids r).2.message id = r.message id := by
  induction ids generalizing base r with
  | nil => rfl
  | cons i ids ih =>
      rw [replay]
      refine (ih _ fun k hk => h k (Nat.lt_of_succ_lt hk)).trans ?_
      exact message_issue_of_ne (h _ (Nat.lt_succ_self _)) _

/-- A rewritten commit has the message of the one it stands for. -/
theorem messages_replay (base ids : History) (r : Repository)
    (h : ∀ id ∈ ids, ∀ k, r.issued < k → id ≠ idOf k) :
    (freshIds r.issued ids.length).map (message · (replay base ids r).2) =
      ids.map (message · r) := by
  induction ids generalizing base r with
  | nil => rfl
  | cons id ids ih =>
      have hids : ∀ i ∈ ids, ∀ k, r.issued < k → i ≠ idOf k := fun i hi =>
        h i (List.mem_cons_of_mem id hi)
      have hfresh : message r.nextId (replay base (id :: ids) r).2 = message id r := by
        rw [replay, message_replay]
        · exact message_issue _ r
        · intro k hk e
          have := idOf_injective e
          simp only [issue] at hk
          omega
      have hold : ids.map (message · (r.issue (r.message id)).2) = ids.map (message · r) := by
        refine List.map_congr_left fun i hi => ?_
        exact message_issue_of_ne (hids i hi _ (Nat.lt_succ_self _)) _
      have hrest := ih (base ++ [r.nextId]) (r.issue (r.message id)).2 fun i hi k hk =>
        hids i hi k (Nat.lt_of_succ_lt hk)
      rw [List.length_cons, freshIds, List.range'_succ, List.map_cons, List.map_cons,
        List.map_cons]
      refine congr (congrArg List.cons hfresh) ?_
      rw [← hold, ← hrest]
      rfl

/-! ## Histories up to a commit -/

theorem upTo?_isPrefix {id : String} {h k : History} (hk : upTo? id h = some k) : k <+: h := by
  induction h generalizing k with
  | nil => cases hk
  | cons c h ih =>
      rw [upTo?] at hk
      by_cases hc : c = id
      · rw [if_pos hc] at hk
        cases hk
        exact ⟨h, rfl⟩
      · rw [if_neg hc] at hk
        obtain ⟨k', hk', rfl⟩ := Option.map_eq_some_iff.mp hk
        exact List.cons_prefix_cons.mpr ⟨rfl, ih hk'⟩

/-- The last commit of a history is found at its end, whatever follows. -/
theorem upTo?_getLastD {h : History} (hn : h ≠ []) (hd : h.Nodup) (more : History) :
    upTo? (h.getLastD "") (h ++ more) = some h := by
  induction h with
  | nil => exact absurd rfl hn
  | cons c h ih =>
      rw [List.cons_append, upTo?]
      cases h with
      | nil => exact if_pos rfl
      | cons d h =>
          have hlast : (c :: d :: h).getLastD "" = (d :: h).getLastD "" := by simp
          have hc : c ≠ (d :: h).getLastD "" := by
            intro e
            refine (List.nodup_cons.mp hd).1 ?_
            rw [e, List.getLastD_cons]
            exact List.getLastD_mem_cons
          rw [hlast, if_neg hc, ih (List.cons_ne_nil d h) (List.nodup_cons.mp hd).2]
          rfl

theorem setHead_of_some {current : String} (hc : r.current = some current) (h : History) :
    r.setHead h = .ok { r with branches := r.branches.set current h } := by
  unfold setHead
  split
  · rename_i branch hb
    cases hc.symm.trans hb
    rfl
  · rename_i hn
    cases hc.symm.trans hn

theorem setHead_of_none (hc : r.current = none) (h : History) :
    r.setHead h = .error (.vcs "HEAD is detached") := by
  unfold setHead
  split
  · rename_i branch hb
    cases hc.symm.trans hb
  · rfl

/-! ## Effects -/

/-- A repository with a new commit on a branch and a clean tree. -/
def committed (branch message : String) (r : Repository) : Repository :=
  { (r.issue message).2 with
    branches := r.branches.set branch (r.head ++ [r.nextId])
    staged := false
    dirty := false }

/-- What a call is answered with, and the repository behind it. -/
inductive Effect (r : Repository) : (c : Call) → Except Failure c.Answer → Repository → Prop where
  /-- A call that failed. -/
  | failed {c : Call} (e : Failure) : Effect r c (.error e) r
  /-- A question. -/
  | asked {c : Call} (a : c.Answer) : c.Asks → Effect r c (.ok a) r
  /-- A request was opened. -/
  | requested {draft : RequestDraft} (url : String) : Effect r (.createRequest draft) (.ok url) r
  | fetched {branch : String} {h : History} : r.remote.get? branch = some h →
      Effect r (.fetch branch) (.ok ()) { r with tracking := r.tracking.set branch h }
  | created {branch : String} :
      Effect r (.createBranch branch) (.ok ()) (r.createBranch branch)
  | checkedOut {branch : String} : r.branches.has branch = true →
      Effect r (.checkout branch) (.ok ()) { r with current := some branch }
  | deleted {branch : String} : r.current ≠ some branch →
      Effect r (.deleteBranch branch) (.ok ()) { r with branches := r.branches.erase branch }
  | reset {rev current : String} {h : History} : upTo? rev r.head = some h →
      r.current = some current →
      Effect r (.resetSoft rev) (.ok ())
        { r with branches := r.branches.set current h, staged := true, dirty := true }
  | forwarded {rev current : String} {h : History} : r.resolve? rev = some h → r.head <+: h →
      r.current = some current →
      Effect r (.mergeFastForward rev) (.ok ()) { r with branches := r.branches.set current h }
  | staged : r.dirty = true → r.ignored = false →
      Effect r .stageAll (.ok ()) { r with staged := true }
  /-- There was nothing to stage. -/
  | nothing : (r.dirty = true → r.ignored = true) → Effect r .stageAll (.ok ()) r
  | committed {message current : String} : r.staged = true → r.current = some current →
      Effect r (.commit message) (.ok ()) (r.committed current message)
  /-- A commit on a detached `HEAD`. -/
  | detached {message : String} (e : Failure) : r.current = none →
      Effect r (.commit message) (.error e) (r.issue message).2
  | rebased {rev current : String} {h : History} : r.resolve? rev = some h →
      r.current = some current →
      Effect r (.rebase rev) (.ok ())
        { (replay h (missing h r.head) r).2 with
          branches := r.branches.set current (replay h (missing h r.head) r).1 }
  | pushed {branch : String} {mode : PushMode} {h : History} : r.resolve? branch = some h →
      r.refusal branch mode h = none →
      Effect r (.push branch mode) (.ok ())
        { r with remote := r.remote.set branch h, tracking := r.tracking.set branch h }

end Repository

namespace Site

open Repository

/-- A question changes nothing. -/
theorem answer_of_asks {c : Call} (h : c.Asks) (s : Site) : (answer c s).2 = s := by
  cases c <;> first | rfl | cases h

/-- Only an opened request changes the host. -/
theorem answer_host (c : Call) (s : Site) (h : ∀ draft, c ≠ .createRequest draft) :
    (answer c s).2.host = s.host := by
  have hc (out : Except Failure Repository) : (s.change out).2.host = s.host := by
    cases out <;> rfl
  cases c with
  | createRequest draft => exact absurd rfl (h draft)
  | _ => first | rfl | exact hc _

/-! ### The effects of single calls -/

theorem effect_resetSoft (rev : String) (s : Site) :
    Effect s.repo (.resetSoft rev) (answer (.resetSoft rev) s).1
      (answer (.resetSoft rev) s).2.repo := by
  simp only [answer, resetSoft]
  cases hh : upTo? rev s.repo.head with
  | none => exact .failed _
  | some h =>
      simp only
      cases hc : s.repo.current with
      | none =>
          rw [setHead_of_none hc]
          exact .failed _
      | some current =>
          rw [setHead_of_some hc]
          exact .reset hh hc

theorem effect_mergeFastForward (rev : String) (s : Site) :
    Effect s.repo (.mergeFastForward rev) (answer (.mergeFastForward rev) s).1
      (answer (.mergeFastForward rev) s).2.repo := by
  simp only [answer, mergeFastForward, resolve]
  cases hh : s.repo.resolve? rev with
  | none => exact .failed _
  | some h =>
      simp only [Bind.bind, Except.bind]
      split
      · rename_i hp
        cases hc : s.repo.current with
        | none =>
            rw [setHead_of_none hc]
            exact .failed _
        | some current =>
            rw [setHead_of_some hc]
            exact .forwarded hh (List.isPrefixOf_iff_prefix.mp hp) hc
      · exact .failed _

theorem effect_stageAll (s : Site) :
    Effect s.repo .stageAll (answer .stageAll s).1 (answer .stageAll s).2.repo := by
  simp only [answer, stageAll]
  split
  · rename_i h
    rw [Bool.and_eq_true, Bool.not_eq_true'] at h
    exact .staged h.1 h.2
  · rename_i h
    refine .nothing fun hd => ?_
    simpa [hd] using h

/-- A commit is made of what is staged.  On a detached `HEAD` it fails, but takes an id. -/
theorem effect_commit (message : String) (s : Site) :
    Effect s.repo (.commit message) (answer (.commit message) s).1
      (answer (.commit message) s).2.repo := by
  simp only [answer, commit]
  split
  · rename_i hs
    cases hc : s.repo.current with
    | none =>
        rw [setHead_of_none (r := (s.repo.issue message).2) hc]
        exact .detached _ hc
    | some current =>
        rw [setHead_of_some (r := (s.repo.issue message).2) hc]
        exact .committed hs hc
  · exact .failed _

theorem effect_rebase (rev : String) (s : Site) :
    Effect s.repo (.rebase rev) (answer (.rebase rev) s).1 (answer (.rebase rev) s).2.repo := by
  simp only [answer, rebase, resolve]
  cases hh : s.repo.resolve? rev with
  | none => exact .failed _
  | some h =>
      obtain ⟨messages, e⟩ := replay_eq h (missing h s.repo.head) s.repo
      simp only [Bind.bind, Except.bind]
      cases hc : s.repo.current with
      | none =>
          rw [setHead_of_none (r := (replay h _ s.repo).2) (by rw [e]; exact hc)]
          exact .failed _
      | some current =>
          rw [setHead_of_some (r := (replay h _ s.repo).2) (by rw [e]; exact hc)]
          have hb : (replay h (missing h s.repo.head) s.repo).2.branches = s.repo.branches := by
            rw [e]
          rw [hb]
          exact .rebased hh hc

theorem effect_push (branch : String) (mode : PushMode) (s : Site) :
    Effect s.repo (.push branch mode) (answer (.push branch mode) s).1
      (answer (.push branch mode) s).2.repo := by
  simp only [answer, push, resolve]
  cases hh : s.repo.resolve? branch with
  | none => exact .failed _
  | some h =>
      simp only [Bind.bind, Except.bind]
      cases hr : s.repo.refusal branch mode h with
      | none => exact .pushed hh hr
      | some words => exact .failed _

/-- A site answers as `Effect` says. -/
theorem answer_effect (c : Call) (s : Site) :
    Effect s.repo c (answer c s).1 (answer c s).2.repo := by
  by_cases hq : c.Asks
  · rw [answer_of_asks hq]
    cases (answer c s).1 with
    | ok a => exact .asked a hq
    | error e => exact .failed e
  cases c with
  | fetch branch =>
      simp only [answer, fetch]
      split
      · exact .fetched ‹_›
      · exact .failed _
  | createBranch name => exact .created
  | checkout branch =>
      simp only [answer, checkout]
      split
      · exact .checkedOut ‹_›
      · exact .failed _
  | deleteBranch branch =>
      simp only [answer, deleteBranch]
      split
      · exact .failed _
      · exact .deleted ‹_›
  | resetSoft rev => exact effect_resetSoft rev s
  | mergeFastForward rev => exact effect_mergeFastForward rev s
  | stageAll => exact effect_stageAll s
  | commit message => exact effect_commit message s
  | rebase rev => exact effect_rebase rev s
  | push branch mode => exact effect_push branch mode s
  | createRequest draft => exact .requested _
  | _ => exact absurd rfl hq

/-! ### How calls fail -/

/-- A failure can only be one of the version control system. -/
def FailsInVcs {α : Type} (out : Except Failure α) : Prop :=
  ∀ e, out = .error e → ∃ detail, e = .vcs detail

namespace FailsInVcs

variable {α β : Type}

theorem ok (a : α) : FailsInVcs (.ok a) := nofun

theorem error (detail : String) : FailsInVcs (.error (.vcs detail) : Except Failure α) := by
  rintro _ ⟨⟩
  exact ⟨detail, rfl⟩

theorem bind {out : Except Failure α} {f : α → Except Failure β} (h : FailsInVcs out)
    (hf : ∀ a, FailsInVcs (f a)) : FailsInVcs (out >>= f) := by
  cases out with
  | ok a => exact hf a
  | error e =>
      obtain ⟨detail, rfl⟩ := h e rfl
      exact error detail

theorem resolve (rev : String) (r : Repository) : FailsInVcs (r.resolve rev) := by
  unfold Repository.resolve
  split
  · exact ok _
  · exact error _

theorem setHead (h : History) (r : Repository) : FailsInVcs (r.setHead h) := by
  unfold Repository.setHead
  split
  · exact ok _
  · exact error _

theorem change {s : Site} {out : Except Failure Repository} (h : FailsInVcs out) :
    FailsInVcs (s.change out).1 := by
  cases out with
  | ok repo => exact ok _
  | error e =>
      obtain ⟨detail, rfl⟩ := h e rfl
      exact error detail

theorem commit (message : String) (r : Repository) : FailsInVcs (r.commit message).1 := by
  unfold Repository.commit
  split
  · rcases r.issue message with ⟨id, issued⟩
    have hset := setHead (r.head ++ [id]) issued
    dsimp only
    cases hs : issued.setHead (r.head ++ [id]) with
    | ok r' => exact ok _
    | error e =>
        obtain ⟨detail, rfl⟩ := hset e hs
        exact error detail
  · exact error _

end FailsInVcs

/-- A call that a site fails, fails in the version control system. -/
theorem vcs_of_error (c : Call) (s : Site) : FailsInVcs (answer c s).1 := by
  cases c with
  | fetch branch =>
      refine .change ?_
      unfold Repository.fetch
      split
      · exact .ok _
      · exact .error _
  | countCommits start target =>
      exact .bind (.resolve start _) fun _ => .bind (.resolve target _) fun _ => .ok _
  | listCommits start target =>
      exact .bind (.resolve start _) fun _ => .bind (.resolve target _) fun _ => .ok _
  | isAncestor ancestor descendant =>
      exact .bind (.resolve ancestor _) fun _ => .bind (.resolve descendant _) fun _ => .ok _
  | checkout branch =>
      refine .change ?_
      unfold Repository.checkout
      split
      · exact .ok _
      · exact .error _
  | deleteBranch branch =>
      refine .change ?_
      unfold Repository.deleteBranch
      split
      · exact .error _
      · exact .ok _
  | resetSoft rev =>
      refine .change ?_
      unfold Repository.resetSoft
      split
      · exact .error _
      · exact .bind (.setHead _ _) fun _ => .ok _
  | mergeFastForward rev =>
      refine .change (.bind (.resolve rev _) fun target => ?_)
      split
      · exact .setHead _ _
      · exact .error _
  | commit message => exact .commit message s.repo
  | rebase onto => exact .change (.bind (.resolve onto _) fun target => .setHead _ _)
  | push branch mode =>
      refine .change (.bind (.resolve branch _) fun h => ?_)
      cases s.repo.refusal branch mode h with
      | none => exact .ok _
      | some words => exact .error words
  | _ => exact .ok _

end Site

end Shipment
