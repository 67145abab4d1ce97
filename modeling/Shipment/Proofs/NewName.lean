import Shipment.Proofs.DefaultBranch
import Shipment.Proofs.Recorded

/-!
# The name of the new branch

A run has one name for the branch it may cut: the one asked for, or the one that its namer
gives.  `passing` are the questions about the name, as they have to be answered before the
branch is cut, and `Named` says what a call has to do with the name.  `Examined` is how the
questions go: they stop at the first problem.  `Judged` adds the look at the characters of a
name that was asked for, and `Judges` says what becomes of the run.
-/

namespace Shipment

/-- A name that is not empty and has no character that a ref name may not have. -/
structure BranchName.Clean (name : String) : Prop where
  nonempty : name ≠ ""
  chars : ∀ c ∈ name.toList, Text.isBlank c = false ∧ Text.isControl c = false ∧
    c ∉ ['~', '^', ':', '?', '*', '[', '\\']

/-- A name gets through the check of its characters exactly if it is clean. -/
theorem BranchName.hasForbiddenChars_eq_false {name : String} :
    hasForbiddenChars name = false ↔ Clean name := by
  have hempty : name.isEmpty = false ↔ name ≠ "" := by simp
  have hmarks (c : Char) : forbiddenMarks.contains c = false ↔
      c ∉ ['~', '^', ':', '?', '*', '[', '\\'] := by
    rw [← Bool.not_eq_true, List.contains_iff_mem]
    rfl
  simp only [hasForbiddenChars, Bool.or_eq_false_iff, List.any_eq_false, Bool.not_eq_true, hempty,
    hmarks]
  constructor
  · rintro ⟨hne, hc⟩
    exact ⟨hne, fun c h => ⟨(hc c h).1.1, (hc c h).1.2, (hc c h).2⟩⟩
  · rintro ⟨hne, hc⟩
    exact ⟨hne, fun c h => ⟨⟨(hc c h).1, (hc c h).2.1⟩, (hc c h).2.2⟩⟩

/-! ## The questions about a name -/

namespace NameProblem

/-- The question that finds a problem of a name, with its reply. -/
def moment (name : String) (r : Except Failure Bool) : NameProblem → Moment shipping Unit
  | invalidRefName => ⟨.isValidBranchName name, (), r, ()⟩
  | existsLocally => ⟨.localBranchExists name, (), r, ()⟩
  | existsOnRemote => ⟨.remoteBranchExists name, (), r, ()⟩

/-- The answer that rules a problem out. -/
def cleared : NameProblem → Bool
  | invalidRefName => true
  | existsLocally => false
  | existsOnRemote => false

/-- The problems that are asked about, in order.  A name that was not asked for is a valid
one. -/
def inQuestion (asked : Option String) : List NameProblem :=
  (asked.map fun _ => invalidRefName).toList ++ [existsLocally, existsOnRemote]

theorem asks_moment (p : NameProblem) (name : String) (r : Except Failure Bool) :
    (p.moment name r).call.Asks := by
  cases p <;> rfl

end NameProblem

/-- The questions about a name, as they have to be answered for it to be used. -/
def passing (asked : Option String) (name : String) : Log :=
  (NameProblem.inQuestion asked).map fun p => p.moment name (.ok p.cleared)

theorem passing_eq (asked : Option String) (name : String) : passing asked name =
    (asked.map fun _ => .ok (.isValidBranchName name) true).toList ++
      [.ok (.localBranchExists name) false, .ok (.remoteBranchExists name) false] := by
  cases asked <;> rfl

/-- How the questions about a name go. -/
inductive Examined (name : String) : List NameProblem → Log → Except Failure String → Prop where
  /-- There is no problem left to ask about. -/
  | passed : Examined name [] [] (.ok name)
  /-- A problem was ruled out. -/
  | ruledOut {p : NameProblem} {ps : List NameProblem} {l : Log} {r : Except Failure String} :
      Examined name ps l r → Examined name (p :: ps) (p.moment name (.ok p.cleared) :: l) r
  /-- The name has the problem. -/
  | found {p : NameProblem} {ps : List NameProblem} :
      Examined name (p :: ps) [p.moment name (.ok !p.cleared)] (.error (.unusableName name p))
  /-- The question was not answered. -/
  | failed {p : NameProblem} {ps : List NameProblem} {e : Failure} :
      Examined name (p :: ps) [p.moment name (.error e)] (.error e)

namespace Examined

variable {name : String} {ps : List NameProblem} {l : Log} {r : Except Failure String}

theorem asks (h : Examined name ps l r) : ∀ m ∈ l, m.call.Asks := by
  induction h with
  | passed => simp
  | ruledOut _ ih => exact List.forall_mem_cons.mpr ⟨NameProblem.asks_moment _ _ _, ih⟩
  | found => exact List.forall_mem_singleton.mpr (NameProblem.asks_moment _ _ _)
  | failed => exact List.forall_mem_singleton.mpr (NameProblem.asks_moment _ _ _)

end Examined

/-- What is found out about a name: nothing is asked about one with a character that no ref name
may have. -/
inductive Judged (asked : Option String) (name : String) : Log → Except Failure String → Prop where
  | unclean : asked = some name → ¬BranchName.Clean name →
      Judged asked name [] (.error (.unusableName name .invalidRefName))
  | examined {l : Log} {r : Except Failure String} :
      (∀ n, asked = some n → BranchName.Clean n) →
      Examined name (NameProblem.inQuestion asked) l r → Judged asked name l r

namespace Judged

variable {asked : Option String} {name : String} {l : Log} {r : Except Failure String}

theorem asks (h : Judged asked name l r) : ∀ m ∈ l, m.call.Asks := by
  cases h with
  | unclean => simp
  | examined _ h => exact h.asks

end Judged

/-! ## What a call has to do with the name -/

/-- The branch that a call pushes or opens a request for. -/
def Call.shipped? : Call → Option String
  | push branch _ => some branch
  | createRequest d => some d.head
  | _ => none

/-- A call that may be made behind a log, as far as the name of the new branch goes. -/
structure Named (o : Options) (name : String) (l : Log) (c : Call) : Prop where
  /-- The branch is cut under the name, which has passed. -/
  cut : ∀ n, c = .createBranch n → n = name ∧
    (∀ asked, o.branch = some asked → BranchName.Clean asked) ∧ passing o.branch name <:+: l
  /-- A new request ships the branch that was cut. -/
  ship : ∀ branch, c.shipped? = some branch → ∃ current default,
    clearance o current default <+: l ∧ (Flow.select current default o.new = .newRequest →
      branch = name ∧ .ok (.createBranch name) () ∈ l)

/-- What a run that comes to the name does about it.  If the name is not to be used, the run
fails and has only looked. -/
def Judges (o : Options) (name : String) (l : Log) (result : Except Failure Outcome) : Prop :=
  ∃ before exam after r, l = before ++ exam ++ after ∧ (∀ m ∈ before, m.call.Looks) ∧
    Judged o.branch name exam r ∧
    ∀ e, r = .error e → result = .error e ∧ ∀ m ∈ l, m.call.Looks

namespace Call

/-- Whether a call cuts no branch and ships no other than a certain one. -/
def KeepsTo (name : String) (c : Call) : Prop :=
  (∀ n, c ≠ .createBranch n) ∧ ∀ branch, c.shipped? = some branch → branch = name

theorem keepsTo_of_looks {name : String} {c : Call} (h : c.Looks) : c.KeepsTo name := by
  rcases h with h | ⟨branch, rfl⟩
  · cases c <;> first | (cases h; done) | simp [KeepsTo, shipped?]
  · exact ⟨nofun, nofun⟩

theorem keepsTo_of_undoes {name : String} {c : Call} (h : c.undoes = true) : c.KeepsTo name := by
  cases c <;> first | (cases h; done) | simp [KeepsTo, shipped?]

theorem keepsTo_of_ships {name message : String} {mode : PushMode} {c : Call}
    (h : Ships message name mode c) : c.KeepsTo name := by
  rcases h with h | rfl | rfl | rfl
  · exact keepsTo_of_looks (.inl h)
  · exact ⟨nofun, nofun⟩
  · exact ⟨nofun, nofun⟩
  · exact ⟨nofun, fun _ e => by cases e; rfl⟩

theorem shipped?_of_looks {c : Call} (h : c.Looks) : c.shipped? = none := by
  rcases h with h | ⟨branch, rfl⟩
  · cases c <;> first | rfl | cases h
  · rfl

theorem ne_createBranch_of_updates {c : Call} (h : c.Updates) (n : String) :
    c ≠ .createBranch n := by
  rcases h with h | ⟨rev, rfl⟩ | rfl | ⟨message, rfl⟩ | ⟨branch, mode, rfl⟩ | ⟨draft, rfl⟩
  · exact (keepsTo_of_looks h : c.KeepsTo "").1 n
  all_goals nofun

end Call

namespace Ship

open Call

variable {α : Type} {accepted : Except Failure (Description × Verdict)} {o : Options}
variable {w : Setting} {name : String} {x x' : Session} {l : Log} {P : Call → Prop}

/-- A run that has cut its branch. -/
structure HasCut (o : Options) (w : Setting) (name : String) (l : Log) : Prop where
  cleared : clearance o w.current w.default <+: l
  cut : .ok (.createBranch name) () ∈ l

theorem HasCut.append (h : HasCut o w name l) (new : Log) : HasCut o w name (l ++ new) :=
  ⟨h.cleared.trans (List.prefix_append l new), List.mem_append_left new h.cut⟩

/-- Behind the cut a call may ship the branch. -/
theorem HasCut.named (h : HasCut o w name l) {c : Call} (hc : c.KeepsTo name) :
    Named o name l c where
  cut n e := absurd e (hc.1 n)
  ship branch e := ⟨w.current, w.default, h.cleared, fun _ => ⟨hc.2 branch e, h.cut⟩⟩

/-- A call that neither cuts nor ships may always be made. -/
theorem named_of_looks {c : Call} (h : c.Looks) : Named o name l c where
  cut n e := absurd e ((keepsTo_of_looks h : c.KeepsTo name).1 n)
  ship branch e := by
    rw [shipped?_of_looks h] at e
    cases e

/-! ## The session up to the name -/

/-- A woven piece that draws nothing leaves the namer alone, if it ends with a value. -/
theorem Woven.namer {σ : Type} {W : Surroundings shipping σ} {s : σ} {draft : Bool}
    {m m' : Ship α} (h : Woven draft False m m') :
    m.Ensures W (fun _ x' _ => x'.namer = x.namer) (fun _ _ _ => True) x s := by
  induction h generalizing x s with
  | pure a => exact rfl
  | fail e => exact trivial
  | notices => exact rfl
  | ask c hc =>
      refine ensures_ask.mpr fun r _ _ => ?_
      cases r with
      | ok a => exact rfl
      | error e => exact trivial
  | enter step hs => exact ensures_enter.mpr rfl
  | notify n => exact ensures_notify.mpr rfl
  | execute a ha =>
      refine ensures_execute.mpr fun r _ _ => ?_
      cases r with
      | ok v => exact x.noted_namer a
      | error e => exact trivial
  | openRequest d =>
      refine ensures_openRequest.mpr fun r _ _ => ?_
      cases r with
      | ok url => exact rfl
      | error e => exact trivial
  | generateName d hd => exact hd.elim
  | arm c => exact ensures_arm.mpr rfl
  | disarm => exact ensures_disarm.mpr rfl
  | orGoBack h ih =>
      refine ensures_orGoBack.mpr (ih.mono (fun _ _ _ hx => hx) fun _ _ _ _ => ?_)
      exact ensures_true
  | bind h hk ih ihk =>
      refine ih.bind (fun _ _ _ he => he) fun a x' s' hx => ?_
      exact (ihk a).mono (fun _ _ _ hx' => hx'.trans hx) fun _ _ _ he => he

theorem ensures_settle_namer {σ : Type} {W : Surroundings shipping σ} {s : σ} :
    (settle accepted o).Ensures W (fun _ x' _ => x'.namer = x.namer) (fun _ _ _ => True) x s := by
  rw [settle_eq]
  refine (Woven.prepare _ _ : Woven o.draft False _ _).namer.bind (fun _ _ _ h => h) ?_
  intro w x' s' hx
  simp only [selectFlow, ensures_bind, ensures_enter, ensures_updateRecord, ensures_tell,
    ensures_pure]
  exact hx

/-! ## Which calls are made under the name -/

theorem heeds_looking {m : Ship α} (hm : Uses P m) (hP : ∀ c, P c → c.Looks) :
    Heeds (Named o name) m (fun _ l' => ∃ new, l' = l ++ new) l :=
  .ofUses hm fun _ c hc => named_of_looks (hP c hc)

theorem heeds_kept {m : Ship α} (h : HasCut o w name l) (hm : Uses (KeepsTo name) m) :
    Heeds (Named o name) m (fun _ l' => HasCut o w name l') l := by
  refine (Heeds.ofUses hm fun more _ hc => (h.append more).named hc).mono ?_
  rintro _ _ ⟨new, rfl⟩
  exact h.append new

/-- The name that is chosen is the one of the run. -/
theorem heedsFrom_chooseName (hx : x'.namer = x.namer) :
    HeedsFrom (Named o (w.nameFor o x)) (chooseName w.description o.branch)
      (fun branch _ l' => branch = w.nameFor o x ∧
        (∀ n, o.branch = some n → BranchName.Clean n) ∧
        l' = l ++ (o.branch.map fun _ => .ok (.isValidBranchName (w.nameFor o x)) true).toList)
      x' l := by
  unfold Setting.nameFor
  cases ho : o.branch with
  | none =>
      intro branch e
      have hb : (x'.namer.generate w.description.text).1 = branch := Except.ok.inj e
      rw [hx] at hb
      exact ⟨hb.symm, nofun, (List.append_nil l).symm⟩
  | some asked =>
      cases hchars : BranchName.hasForbiddenChars asked with
      | true =>
          rw [chooseName, hchars]
          exact Heeds.fail x'
      | false =>
          rw [chooseName, hchars]
          refine Heeds.ask_bind (named_of_looks (.inl (by rfl))) (fun valid => ?_) x'
          cases valid with
          | false => exact .fail
          | true =>
              refine .pure ⟨rfl, ?_, rfl⟩
              rintro _ ⟨⟩
              exact BranchName.hasForbiddenChars_eq_false.mp hchars

/-- The name that is resolved has passed. -/
theorem heedsFrom_resolveName (hx : x'.namer = x.namer) :
    HeedsFrom (Named o (w.nameFor o x)) (resolveName w.description o.branch)
      (fun branch _ l' => branch = w.nameFor o x ∧
        (∀ n, o.branch = some n → BranchName.Clean n) ∧
        l' = l ++ passing o.branch (w.nameFor o x)) x' l := by
  refine (heedsFrom_chooseName hx).bind ?_
  rintro _ x₁ _ ⟨rfl, hclean, rfl⟩
  refine Heeds.ask_bind (named_of_looks (.inl (by rfl))) (fun here => ?_) x₁
  cases here with
  | true => exact .fail
  | false =>
      refine .ask_bind (named_of_looks (.inl (by rfl))) fun there => ?_
      cases there with
      | true => exact .fail
      | false => exact .pure ⟨rfl, hclean, by simp [passing_eq]⟩

/-- A settled name is the one in question, and the questions about it were just asked. -/
theorem heedsFrom_settleBranch (hx : x'.namer = x.namer) :
    HeedsFrom (Named o (w.nameFor o x)) (settleBranch w o)
      (fun branch _ l' => branch = w.nameFor o x ∧
        (∀ n, o.branch = some n → BranchName.Clean n) ∧ l <+: l' ∧
        passing o.branch (w.nameFor o x) <:+: l') x' l := by
  refine HeedsFrom.bind (R := fun _ y l' => y.namer = x.namer ∧ l = l') ?_ ?_
  · exact fun _ _ => ⟨hx, rfl⟩
  rintro _ x₁ _ ⟨hx₁, rfl⟩
  refine (heedsFrom_resolveName hx₁).bind ?_
  rintro _ x₂ _ ⟨rfl, hclean, rfl⟩
  have hpassing : passing o.branch (w.nameFor o x) <:+: l ++ passing o.branch (w.nameFor o x) :=
    (List.suffix_append _ _).isInfix
  have hsync : Heeds (Named o (w.nameFor o x)) (syncDefault w.default)
      (fun _ l' => l <+: l' ∧ passing o.branch (w.nameFor o x) <:+: l')
      (l ++ passing o.branch (w.nameFor o x)) := by
    refine (Heeds.ofUses (footprint_syncDefault _).uses fun more c hc => ?_).mono ?_
    · rcases hc with hc | rfl
      · exact named_of_looks (.inl hc)
      · exact ⟨nofun, nofun⟩
    · rintro _ _ ⟨new, rfl⟩
      exact ⟨(List.prefix_append _ _).trans (List.prefix_append _ new),
        hpassing.trans (List.prefix_append _ new).isInfix⟩
  split
  · exact hsync.bind (fun _ _ h => .pure ⟨rfl, hclean, h⟩) x₂
  · exact Heeds.pure ⟨rfl, hclean, List.prefix_append _ _, hpassing⟩ x₂

theorem heeds_cutBranch_named (hl : clearance o w.current w.default <+: l)
    (hclean : ∀ n, o.branch = some n → BranchName.Clean n)
    (hp : passing o.branch name <:+: l) :
    Heeds (Named o name) (cutBranch w name) (fun _ l' => HasCut o w name l') l := by
  refine .enter (.ask_bind (named_of_looks (.inl (by rfl))) fun start => ?_)
  have hmore := List.prefix_append l [.ok .headCommit start]
  refine .execute_bind ⟨fun n e => ?_, nofun⟩ fun _ => ?_
  · cases e
    exact ⟨rfl, hclean, hp.trans hmore.isInfix⟩
  have hcut : HasCut o w name (l ++ [.ok .headCommit start] ++ [.ok (.createBranch name) ()]) :=
    ⟨(hl.trans hmore).trans (List.prefix_append _ _), by simp⟩
  have huses : Uses (KeepsTo name) (Ship.orGoBack (commitAndPush w.description name)) :=
    .orGoBack ((footprint_commitAndPush _ _).uses.mono fun c => keepsTo_of_ships)
      fun c => keepsTo_of_undoes
  exact .update ((heeds_kept hcut huses).bind fun _ _ h => .update (.pure h))

/-- A new request cuts and ships a branch of the name in question, and no other. -/
theorem heedsFrom_newRequest (hx : x'.namer = x.namer)
    (hl : clearance o w.current w.default <+: l) :
    HeedsFrom (Named o (w.nameFor o x)) (newRequest w o) (fun _ _ _ => True) x' l := by
  rw [newRequest_eq]
  have hlook : (lookNew w).Ensures Surroundings.any (fun _ y _ => y.namer = x.namer)
      (fun _ _ _ => True) x' () :=
    (Woven.lookNew w : Woven o.draft False _ _).namer.mono (fun _ _ _ h => h.trans hx)
      fun _ _ _ h => h
  refine ((heeds_looking footprint_lookNew.uses fun _ h => h).fromSession hlook).bind ?_
  rintro seen x₁ _ ⟨⟨new, rfl⟩, hx₁⟩
  unfold shipSeen
  split
  · have hnoop := (footprint_finishNoOp (P := Looks) .newRequest w.current w.base ‹_›).uses
    exact ((heeds_looking hnoop fun _ h => h).mono fun _ _ _ => trivial) x₁
  rw [shipNew_eq]
  refine (heedsFrom_settleBranch hx₁).bind ?_
  rintro _ x₂ l₂ ⟨rfl, hclean, hl₂, hp⟩
  refine Heeds.bind (heeds_cutBranch_named (hl.trans ((List.prefix_append l new).trans hl₂))
    hclean hp) (fun committed l₃ h₃ => ?_) x₂
  have hrequest : Uses (KeepsTo (w.nameFor o x)) (requestForNew w (w.nameFor o x) o.draft) := by
    refine (footprint_requestForNew _ _ _).uses.mono fun c hc => ?_
    rcases hc with hc | rfl
    · exact keepsTo_of_looks (.inl hc)
    · exact ⟨nofun, fun _ e => by cases e; rfl⟩
  exact (heeds_kept h₃ hrequest).bind fun _ _ _ => .enter fun _ _ _ => trivial

/-- A run cuts and ships a new branch only under the name that was asked for or would be generated.
-/
theorem heedsFrom_startWith_named (hname : ∀ d verdict, accepted = .ok (d, verdict) →
      name = o.branch.getD (x.namer.generate d.text).1) :
    HeedsFrom (Named o name) (startWith accepted o) (fun _ _ _ => True) x [] := by
  refine heedsFrom_startWith (S := fun y => y.namer = x.namer)
    (fun _ c hc => named_of_looks (.inl (asks_of_questions c hc))) ensures_settle_namer ?_
  intro w flow x' hw hx
  obtain ⟨verdict, hd⟩ := hw.description
  cases flow with
  | newRequest =>
      rw [hname _ _ hd]
      exact heedsFrom_newRequest hx List.prefix_rfl
  | updateExisting =>
      refine ((Heeds.ofUses footprint_updateExisting.uses fun more c hc => ?_).mono
        fun _ _ _ => trivial) x'
      refine ⟨fun n e => absurd e (ne_createBranch_of_updates hc n), fun branch _ => ?_⟩
      refine ⟨_, _, List.prefix_append _ more, fun hnew => ?_⟩
      cases hw.flow.trans hnew

/-! ## What becomes of the name -/

/-- A piece looks into a name, and its log and its end are as `R` says. -/
def LooksInto (R : Log → Except Failure String → Prop) (m : Ship String) (x : Session) (l : Log) :
    Prop :=
  (m x).Ensures Surroundings.any.logged (fun out z => ∃ exam, z.1 = l ++ exam ∧ R exam out.1)
    (l, ())

theorem LooksInto.mono {R R' : Log → Except Failure String → Prop} {m : Ship String}
    (h : LooksInto R m x l) (hR : ∀ exam r, R exam r → R' exam r) : LooksInto R' m x l :=
  Program.Ensures.mono h fun _ _ ⟨exam, hz, hr⟩ => ⟨exam, hz, hR exam _ hr⟩

/-- Ask about a problem of a name. -/
def askAbout (name : String) : NameProblem → Ship Bool
  | .invalidRefName => ask (.isValidBranchName name)
  | .existsLocally => ask (.localBranchExists name)
  | .existsOnRemote => ask (.remoteBranchExists name)

/-- Only an answer that rules the problem out leads on. -/
theorem looksInto_askAbout {p : NameProblem} {ps : List NameProblem} {f : Bool → Ship String}
    (hfound : f (!p.cleared) = fail (.unusableName name p))
    (hf : ∀ l, LooksInto (Examined name ps) (f p.cleared) x l) :
    LooksInto (Examined name (p :: ps)) (askAbout name p >>= f) x l := by
  have hanswer (b : Bool) : ((f b) x).Ensures Surroundings.any.logged
      (fun out z => ∃ exam, z.1 = l ++ exam ∧ Examined name (p :: ps) exam out.1)
      (l ++ [p.moment name (.ok b)], ()) := by
    by_cases hb : b = p.cleared
    · subst hb
      refine Program.Ensures.mono (hf (l ++ [p.moment name (.ok p.cleared)])) ?_
      rintro out z ⟨exam, hz, h⟩
      exact ⟨_, by rw [hz, List.append_assoc]; rfl, .ruledOut h⟩
    · rw [Bool.eq_not_of_ne hb, hfound]
      exact ⟨_, rfl, .found⟩
  cases p with
  | _ =>
      rintro r _ ⟨_, _, rfl⟩
      cases r with
      | ok b => exact hanswer b
      | error e => exact ⟨_, rfl, .failed⟩

/-- Give a name that no branch has. -/
def freeName (name : String) : Ship String := do
  if ← askAbout name .existsLocally then fail (.unusableName name .existsLocally)
  else if ← askAbout name .existsOnRemote then fail (.unusableName name .existsOnRemote)
  else return name

theorem resolveName_eq (d : Description) (asked : Option String) :
    resolveName d asked = chooseName d asked >>= freeName := rfl

theorem looksInto_freeName :
    LooksInto (Examined name [.existsLocally, .existsOnRemote]) (freeName name) x l :=
  looksInto_askAbout rfl fun _ => looksInto_askAbout rfl fun l =>
    ⟨[], (List.append_nil l).symm, .passed⟩

/-- A piece that is done with a value, followed by another. -/
theorem bind_of_done {β : Type} {m : Ship α} {f : α → Ship β} {a : α}
    (h : m x = .done (.ok a, x')) : (m >>= f) x = f a x' := by
  show Program.bind (m x) _ = _
  rw [h]
  rfl

theorem looksInto_generateName {R : Log → Except Failure String → Prop} {d : Description}
    {f : String → Ship String}
    (h : LooksInto R (f (x.namer.generate d.text).1)
      { x with namer := (x.namer.generate d.text).2 } l) :
    LooksInto R (generateName d >>= f) x l := by
  have hdone : generateName d x = .done (.ok (x.namer.generate d.text).1,
      { x with namer := (x.namer.generate d.text).2 }) := rfl
  unfold LooksInto
  rw [bind_of_done hdone]
  exact h

/-- What is resolved is the name of the run, and it was judged. -/
theorem looksInto_resolveName (hx : x'.namer = x.namer) :
    LooksInto (Judged o.branch (w.nameFor o x)) (resolveName w.description o.branch) x' l := by
  unfold Setting.nameFor
  rw [resolveName_eq]
  cases ho : o.branch with
  | none =>
      rw [Option.getD_none, ← hx]
      exact looksInto_generateName (looksInto_freeName.mono fun _ _ h => .examined nofun h)
  | some asked =>
      cases hchars : BranchName.hasForbiddenChars asked with
      | true =>
          have hunclean : ¬BranchName.Clean asked := fun h => by
            rw [BranchName.hasForbiddenChars_eq_false.mpr h] at hchars
            cases hchars
          rw [chooseName, hchars]
          exact ⟨[], (List.append_nil l).symm, .unclean rfl hunclean⟩
      | false =>
          have hclean := BranchName.hasForbiddenChars_eq_false.mp hchars
          have hvalid : LooksInto
              (Examined asked [.invalidRefName, .existsLocally, .existsOnRemote])
              (askAbout asked .invalidRefName >>= fun valid =>
                if valid then freeName asked else fail (.unusableName asked .invalidRefName))
              x' l := looksInto_askAbout rfl fun l => looksInto_freeName
          have hname : chooseName w.description (some asked) >>= freeName =
              askAbout asked .invalidRefName >>= fun valid =>
                if valid then freeName asked else fail (.unusableName asked .invalidRefName) := by
            rw [chooseName, hchars]
            show (ask _ >>= _) >>= _ = _
            rw [LawfulMonad.bind_assoc]
            refine congrArg _ (funext fun valid => ?_)
            cases valid <;> rfl
          rw [hname]
          exact hvalid.mono fun _ _ h => .examined (fun _ e => by cases e; exact hclean) h

/-- What a run owes that has the step of the name on its path. -/
def JudgesOnPath (o : Options) (name : String) (result : Except Failure Outcome) (y : Session)
    (z : Log × Unit) : Prop :=
  .resolvingBranchName ∈ y.record.path → Judges o name z.1 result

/-- A new request with something to ship asks about its name, and fails if that has a problem. -/
theorem ensures_shipNew_judges (hx : x'.namer = x.namer) (hl : ∀ m ∈ l, m.call.Looks) :
    (shipNew w o).Ensures Surroundings.any.logged
      (fun out _ z => Judges o (w.nameFor o x) z.1 (.ok out))
      (fun e _ z => Judges o (w.nameFor o x) z.1 (.error e)) x' (l, ()) := by
  have hresolve : (resolveName w.description o.branch).Ensures Surroundings.any.logged
      (fun name _ z => ∃ exam, z.1 = l ++ exam ∧ Judged o.branch (w.nameFor o x) exam (.ok name))
      (fun e _ z => ∃ exam, z.1 = l ++ exam ∧ Judged o.branch (w.nameFor o x) exam (.error e))
      (x'.entered .resolvingBranchName) (l, ()) := by
    have hentered : (x'.entered .resolvingBranchName).namer = x.namer := hx
    refine Program.Ensures.mono (looksInto_resolveName hentered) fun out z hz => ?_
    obtain ⟨r, y⟩ := out
    cases r with
    | ok name => exact hz
    | error e => exact hz
  refine ensures_bind.mpr (ensures_enter.mpr (hresolve.bind ?_ ?_))
  · rintro e _ z ⟨exam, hz, h⟩
    refine ⟨l, exam, [], _, by rw [hz, List.append_nil], hl, h, fun _ he => ?_⟩
    cases he
    refine ⟨rfl, fun m hm => ?_⟩
    rw [hz, List.mem_append] at hm
    exact hm.elim (hl m) fun hm => .inl (h.asks m hm)
  · rintro name y ⟨l', u⟩ ⟨exam, rfl, h⟩
    have hjudges {result : Except Failure Outcome} {l' : Log} (hl' : l ++ exam <+: l') :
        Judges o (w.nameFor o x) l' result := by
      obtain ⟨after, rfl⟩ := hl'
      exact ⟨l, exam, after, _, rfl, hl, h, nofun⟩
    exact ensures_prefix.mono (fun _ _ _ => hjudges) fun _ _ _ => hjudges

/-- A new request that comes to its name asks about it, and fails if that has a problem. -/
theorem ensures_newRequest_judges (hx : x'.namer = x.namer) (hl : ∀ m ∈ l, m.call.Looks)
    (hpath : .resolvingBranchName ∉ x'.record.path) :
    (newRequest w o).Ensures Surroundings.any.logged
      (fun out => JudgesOnPath o (w.nameFor o x) (.ok out))
      (fun e => JudgesOnPath o (w.nameFor o x) (.error e)) x' (l, ()) := by
  rw [newRequest_eq]
  have hlook := (visits_lookNew (w := w)).ensures (W := Surroundings.any.logged) (x := x')
    (s := (l, ()))
  have hnamer := (Woven.lookNew w : Woven o.draft False _ _).namer (W := Surroundings.any.logged)
    (x := x') (s := (l, ()))
  refine (hlook.and (hnamer.and footprint_lookNew.uses.logs)).bind ?_ ?_
  · rintro e y z ⟨⟨_, _, p, rfl, hp, -, hy⟩, -⟩ hmem
    rw [hy, List.mem_append] at hmem
    exact absurd (hmem.resolve_left hpath) fun h => by simpa using hp.subset h
  · rintro seen y ⟨_, _⟩ ⟨⟨_, rfl, hy⟩, hyn, new, rfl, hnew⟩
    unfold shipSeen
    split
    · refine visits_finishNoOp.ensures.mono ?_ ?_
      · rintro out y' z ⟨_, ⟨-, rfl⟩, hy'⟩ hmem
        rw [hy', hy] at hmem
        exact absurd (by simpa using hmem) hpath
      · rintro e y' z ⟨_, _, p, ⟨-, rfl⟩, hp, -, hy'⟩ hmem
        rw [hy', hy, List.mem_append, List.mem_append] at hmem
        rcases hmem with (hmem | hmem) | hmem
        · exact absurd hmem hpath
        · simp at hmem
        · exact absurd (hp.subset hmem) (by simp)
    · have hlooks := List.forall_mem_append.mpr ⟨hl, hnew⟩
      exact (ensures_shipNew_judges (hyn.trans hx) hlooks).mono (fun _ _ _ h _ => h)
        fun _ _ _ h _ => h

theorem Routed.resolvingBranchName_notMem {onDefault sync : Bool} {out : Outcome} {q : List Step}
    (h : Routed .updateExisting onDefault sync out q) : .resolvingBranchName ∉ q := by
  rw [h]
  cases out.result with
  | noOp reason =>
      cases sync <;>
        simp [Course.endingIn, Course.flowSteps, Course.look, Course.last, Step.onlyIf]
  | shipped committed pushed request =>
      cases sync <;> cases committed <;>
        simp [Course.endingIn, Course.flowSteps, Course.look, Course.work, Course.last,
          Step.onlyIf]

theorem ensures_follow_judges {flow : Flow} (hx : x'.namer = x.namer)
    (hl : ∀ m ∈ l, m.call.Looks) (hpath : .resolvingBranchName ∉ x'.record.path) :
    (follow w o flow).Ensures Surroundings.any.logged
      (fun out => JudgesOnPath o (w.nameFor o x) (.ok out))
      (fun e => JudgesOnPath o (w.nameFor o x) (.error e)) x' (l, ()) := by
  cases flow with
  | newRequest => exact ensures_newRequest_judges hx hl hpath
  | updateExisting =>
      refine (visits_follow .updateExisting).ensures.mono ?_ ?_
      · rintro out y z ⟨q, hq, hy⟩ hmem
        rw [hy, List.mem_append] at hmem
        exact absurd (hmem.resolve_left hpath) hq.resolvingBranchName_notMem
      · rintro e y z ⟨out, q, p, hq, hp, -, hy⟩ hmem
        rw [hy, List.mem_append] at hmem
        exact absurd (hp.subset (hmem.resolve_left hpath)) hq.resolvingBranchName_notMem

/-- A run that comes to its name asks about it, and fails if that has a problem. -/
theorem ensures_startWith_judges (hname : ∀ d verdict, accepted = .ok (d, verdict) →
      name = o.branch.getD (x.namer.generate d.text).1) :
    (startWith accepted o).Ensures Surroundings.any.logged
      (fun out => JudgesOnPath o name (.ok out)) (fun e => JudgesOnPath o name (.error e)) x
      ([], ()) := by
  have hfresh : x.fresh.record.Sound := ⟨rfl, rfl, rfl, rfl⟩
  have hlog : Heeds (fun _ _ => True) (settle accepted o)
      (fun p l' => p.1.Chosen accepted o p.2 ∧
        l' = [] ++ clearance o p.1.current p.1.default) [] := heeds_settle fun _ _ _ => trivial
  have hentered {e : Failure} {y : Session} {z : Log × Unit}
      (h : JudgesOnPath o name (.error e) y z) :
      JudgesOnPath o name (.error e) (y.entered .failed) z := by
    intro hmem
    rw [Session.entered, RunRecord.path_enter, List.mem_append] at hmem
    exact h (hmem.resolve_right (by simp))
  refine ensures_startWith.mpr (((ensures_settle_record hfresh).and
    (hlog.ensures.and ensures_settle_namer)).mono ?_ ?_)
  · rintro ⟨w, flow⟩ y ⟨_, _⟩ ⟨⟨-, -, hpath⟩, ⟨hw, rfl⟩, hy⟩
    obtain ⟨verdict, hd⟩ := hw.description
    have hlooks : ∀ m ∈ [] ++ clearance o w.current w.default, m.call.Looks :=
      fun m hm => .inl (asks_of_clearance m hm)
    have hstart : Step.resolvingBranchName ∉ y.record.path := by
      rw [hpath]
      show _ ∉ [Step.validatingIntent] ++ _
      decide
    rw [hname _ _ hd]
    rw [hname _ _ hd] at hentered
    exact (ensures_follow_judges hy hlooks hstart).mono (fun _ _ _ h => h) fun _ _ _ => hentered
  · rintro e y z ⟨⟨-, -, p, hp, hpath⟩, -⟩
    refine hentered fun hmem => ?_
    rw [hpath, List.mem_append] at hmem
    rcases hmem with hmem | hmem
    · cases List.mem_singleton.mp hmem
    · exact absurd (hp.subset hmem) (by decide)

/-- A run cuts its branch only under its own name, and only when nothing is wrong with it.  A new
request ships that branch.  A run that comes to a name with which something is wrong fails with
the first problem, and has only looked. -/
theorem cuts_free_name (raw : String) (o : Options) (x : Session) (t : Trace shipping)
    (out : Except Failure Outcome × Session) (ht : Program.Runs (start raw o x) t out) :
    let name := o.branch.getD (x.namer.generate (Text.trimmed raw)).1
    (∀ before m after, t.moments = before ++ m :: after → Named o name before m.call) ∧
      (.resolvingBranchName ∈ out.2.record.path → Judges o name t.moments out.1) := by
  intro name
  have hname : ∀ d verdict, Description.accept raw o.force = .ok (d, verdict) →
      name = o.branch.getD (x.namer.generate d.text).1 := by
    intro d verdict h
    rw [Description.text_of_accept h]
  rw [start_eq] at ht
  clear_value name
  generalize Description.accept raw o.force = accepted at ht hname
  refine ⟨(Program.Heeds.runs (heedsFrom_startWith_named hname) ht).2, ?_⟩
  have h := (ensures_startWith_judges hname).runs ht fun _ _ => trivial
  obtain ⟨r, y⟩ := out
  cases r with
  | ok outcome => exact h
  | error e => exact h

/-- A run that cuts `topic`, one that finds it on `origin`, and one for a name with a blank. -/
theorem cuts_free_name_topic :
    let taken : Site := { repo := {
      dirty := true, remote := [("main", ["c0"]), ("topic", ["c0"])] } }
    let o : Options := { branch := some "topic" }
    let blank : Options := { branch := some "my topic" }
    let cut := (start "feat: add widget" o .sample).run Site.answer .changed
    let refused := (start "feat: add widget" o .sample).run Site.answer taken
    let unclean := (start "feat: add widget" blank .sample).run Site.answer .changed
    (∃ before m after, cut.trace.moments = before ++ m :: after ∧ m.call = .createBranch "topic" ∧
      Named o "topic" before m.call) ∧
    refused.value.1 = .error (.unusableName "topic" .existsOnRemote) ∧
    Judges o "topic" refused.trace.moments refused.value.1 ∧
    unclean.value.1 = .error (.unusableName "my topic" .invalidRefName) ∧
    Judges blank "my topic" unclean.trace.moments unclean.value.1 := by
  intro taken o blank cut refused unclean
  have hm : ∃ m ∈ cut.trace.moments, m.call = .createBranch "topic" := by decide +kernel
  obtain ⟨m, hm, hc⟩ := hm
  obtain ⟨before, after, e⟩ := List.append_of_mem hm
  have hcut := cuts_free_name "feat: add widget" o .sample cut.trace cut.value
    (Program.run_runs ..)
  refine ⟨⟨before, m, after, e, hc, hcut.1 before m after e⟩, by decide +kernel, ?_,
    by decide +kernel, ?_⟩
  · exact (cuts_free_name "feat: add widget" o .sample _ _ (Program.run_runs ..)).2
      (by decide +kernel)
  · exact (cuts_free_name "feat: add widget" blank .sample _ _ (Program.run_runs ..)).2
      (by decide +kernel)

end Ship

end Shipment
