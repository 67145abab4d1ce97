import Shipment.Proofs.Program

/-!
# Rules on the calls of a program

`Trace.moments` are the calls of a trace with their replies.  A *rule* says which calls
may be made behind which moments.  `Program.Heeds` is the weakest condition under which a
program makes every call by the rule and ends in `Q`, whatever it is answered.  A call is
judged before its reply is known, so a program that stops at a failed call has still
heeded the rule.

`Heeds.runs` carries this to every run.  `Ensures.runs` does the same for what a program
ensures in surroundings that only limit the replies.
-/

namespace Shipment

variable {I : Interface} {α β : Type}

/-- The calls of a trace with their replies. -/
def Trace.moments : Trace I → List (Moment I Unit)
  | [] => []
  | .called c r :: t => ⟨c, (), r, ()⟩ :: Trace.moments t
  | .told _ :: t => Trace.moments t

theorem Trace.moments_append (t t' : Trace I) : (t ++ t').moments = t.moments ++ t'.moments := by
  induction t with
  | nil => rfl
  | cons e t ih => cases e <;> simp [moments, ih]

/-- Surroundings that only limit the replies. -/
def Surroundings.replying (P : (c : I.Call) → I.Reply c → Prop) : Surroundings I Unit where
  answers c _ r _ := P c r

namespace Program

variable {P : (c : I.Call) → I.Reply c → Prop} {p : Program I α} {l : List (Moment I Unit)}
variable {rule : List (Moment I Unit) → I.Call → Prop} {t : Trace I} {a : α}

/-- What is ensured holds of every run with such replies. -/
theorem Ensures.runs {Q : α → List (Moment I Unit) × Unit → Prop} (ht : Runs p t a)
    (hp : p.Ensures (Surroundings.replying P).logged Q (l, ()))
    (hP : ∀ m ∈ t.moments, P m.call m.reply) : Q a (l ++ t.moments, ()) := by
  induction ht generalizing l with
  | done a =>
      rw [Trace.moments, List.append_nil]
      exact hp
  | call r ht ih =>
      obtain ⟨hr, hP⟩ := List.forall_mem_cons.mp hP
      have h := ih (hp r _ ⟨(), hr, rfl⟩) hP
      rwa [List.append_assoc] at h
  | tell ht ih => exact ih hp hP

/-- Every call of a program is made by a rule, and the program ends in `Q`. -/
def Heeds (rule : List (Moment I Unit) → I.Call → Prop) :
    Program I α → (α → List (Moment I Unit) → Prop) → List (Moment I Unit) → Prop
  | done a, Q, l => Q a l
  | call c next, Q, l => rule l c ∧ ∀ r, (next r).Heeds rule Q (l ++ [⟨c, (), r, ()⟩])
  | tell _ next, Q, l => next.Heeds rule Q l

theorem heeds_bind {f : α → Program I β} {Q : β → List (Moment I Unit) → Prop} :
    (p.bind f).Heeds rule Q l ↔ p.Heeds rule (fun a l' => (f a).Heeds rule Q l') l := by
  induction p generalizing l with
  | done a => rfl
  | call c next ih => simp only [bind, Heeds, ih]
  | tell e next ih => exact ih

variable {Q Q' : α → List (Moment I Unit) → Prop}

theorem Heeds.mono (h : p.Heeds rule Q l) (hQ : ∀ a l', Q a l' → Q' a l') :
    p.Heeds rule Q' l := by
  induction p generalizing l with
  | done a => exact hQ a l h
  | call c next ih => exact ⟨h.1, fun r => ih r (h.2 r)⟩
  | tell e next ih => exact ih h

/-- A program that heeds a rule also ends in what it ensures, whatever it is answered. -/
theorem Heeds.and {R : α → List (Moment I Unit) → Prop} (h : p.Heeds rule Q l)
    (hR : p.Ensures (Surroundings.replying fun _ _ => True).logged (fun a z => R a z.1) (l, ())) :
    p.Heeds rule (fun a l' => Q a l' ∧ R a l') l := by
  induction p generalizing l with
  | done a => exact ⟨h, hR⟩
  | call c next ih => exact ⟨h.1, fun r => ih r (h.2 r) (hR r _ ⟨(), trivial, rfl⟩)⟩
  | tell e next ih => exact ih h hR

/-- A program that heeds a rule ensures the same end in any surroundings. -/
theorem Heeds.ensures (h : p.Heeds rule Q l) :
    p.Ensures (Surroundings.replying P).logged (fun a z => Q a z.1) (l, ()) := by
  induction p generalizing l with
  | done a => exact h
  | call c next ih =>
      intro r z hz
      obtain ⟨_, _, rfl⟩ := hz
      exact ih r (h.2 r)
  | tell e next ih => exact ih h

/-- A program whose calls are by the rule from here on heeds it. -/
theorem Uses.heeds {P : I.Call → Prop} (h : p.Uses P)
    (hP : ∀ more c, P c → rule (l ++ more) c)
    (hQ : p.Ensures (Surroundings.replying fun _ _ => True).logged (fun a z => Q a z.1) (l, ())) :
    p.Heeds rule Q l := by
  induction p generalizing l with
  | done a => exact hQ
  | call c next ih =>
      have hc := hP [] c h.1
      rw [List.append_nil] at hc
      refine ⟨hc, fun r => ih r (h.2 r) ?_ (hQ r _ ⟨(), trivial, rfl⟩)⟩
      intro more c' hc'
      rw [List.append_assoc]
      exact hP _ c' hc'
  | tell e next ih => exact ih h hP hQ

/-- Every call of a run was made by the rule, and the run ended as it should. -/
theorem Heeds.runs (h : p.Heeds rule Q l) (ht : Runs p t a) :
    Q a (l ++ t.moments) ∧
      ∀ before m after, t.moments = before ++ m :: after → rule (l ++ before) m.call := by
  induction ht generalizing l with
  | done a =>
      rw [Trace.moments, List.append_nil]
      exact ⟨h, by simp⟩
  | @call c next t a r ht ih =>
      obtain ⟨hQ, hrule⟩ := ih (h.2 r)
      rw [List.append_assoc] at hQ
      refine ⟨hQ, ?_⟩
      intro before m after e
      cases before with
      | nil =>
          cases e
          simpa using h.1
      | cons k before =>
          injection e with hk e
          subst hk
          have hm := hrule before m after e
          rwa [List.append_assoc] at hm
  | tell ht ih => exact ih h

end Program

end Shipment
