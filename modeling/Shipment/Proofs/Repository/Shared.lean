import Shipment.Proofs.Repository.World

/-!
# A site that others share

Others push to `origin` too.  `Handler.withOthers` lets them replace what `origin` has
between any two calls of a run, and nothing else.  `Site.shared` is every such site at
once.  There a call has one of its effects, and then `origin` has anything.
-/

namespace Shipment

/-- A site where others change the branches on `origin` behind every call.  What they do
is given by the number of the call. -/
def Handler.withOthers (others : Nat → Table String History → Table String History)
    (h : Handler shipping Site) : Handler shipping (Nat × Site) := fun c t =>
  let out := h c t.2
  let repo := { out.2.repo with remote := others t.1 out.2.repo.remote }
  (out.1, t.1 + 1, { out.2 with repo })

namespace Site

open Repository

/-- A site whose `origin` has anything behind every call. -/
def shared : Surroundings shipping Site where
  answers (c : Call) s r s' := ∃ remote,
    r = (answer c s).1 ∧ s' = { (answer c s).2 with
      repo := { (answer c s).2.repo with remote } }

variable {c : Call} {s s' : Site} {r : Except Failure c.Answer}

theorem effect_of_shared (h : shared.answers c s r s') :
    ∃ repo remote, Effect s.repo c r repo ∧ s'.repo = { repo with remote } := by
  obtain ⟨remote, rfl, rfl⟩ := h
  exact ⟨_, remote, answer_effect c s, rfl⟩

/-- A question is about the site as it is. -/
theorem answer_of_shared (h : shared.answers c s r s') : (answer c s).1 = r := by
  obtain ⟨remote, rfl, -⟩ := h
  rfl

end Site

namespace Ship

open Site

variable {α : Type} {s : Site}

/-- The calls of a run beside others, with the site around each. -/
def logWithOthers (m : Ship α) (x : Session)
    (others : Nat → Table String History → Table String History) (s : Site) :
    List (Moment shipping Site) :=
  ((m x).moments (answer.withOthers others) (0, s)).map (Moment.map Prod.snd)

/-- What is ensured on a shared site holds of a run beside others. -/
theorem ensures_run_withOthers {m : Ship α} {x : Session}
    {Q : List (Moment shipping Site) → Prop}
    (others : Nat → Table String History → Table String History)
    (hm : m.Ensures shared.logged (fun _ _ z => Q z.1) (fun _ _ z => Q z.1) x ([], s)) :
    Q (m.logWithOthers x others s) := by
  have step (c : Call) (t : Nat × Site) (_ : True) :
      shared.answers c t.2 (answer.withOthers others c t).1 (answer.withOthers others c t).2.2 ∧
        True := ⟨⟨_, rfl, rfl⟩, trivial⟩
  have hall : (m x).Ensures shared.logged (fun _ z => Q z.1) ([], s) :=
    Program.Ensures.mono hm fun _ _ hz => ends_both.mp hz
  have h := Program.ensures_run Prod.snd (fun _ => True) step (t := (0, s)) trivial hall
  rwa [List.nil_append] at h

end Ship

end Shipment
