import Shipment.Proofs.Rule
import Shipment.Proofs.Run.Cut
import Shipment.Proofs.Run.Flows

/-!
# Pieces of a run that heed a rule

`Ship.Heeds` says that a piece makes every call by a rule, and that its log meets `Q` if it
ends with a value.  A piece that fails owes no more, so a proof follows a flow only as far
as it goes well.  A piece with a footprint heeds every rule that allows its calls.
-/

namespace Shipment

/-- The calls of a run with their replies. -/
abbrev Log := List (Moment shipping Unit)

/-- A call that was answered. -/
def Moment.ok (c : Call) (a : c.Answer) : Moment shipping Unit := ⟨c, (), .ok a, ()⟩

@[simp] theorem Moment.ok_call (c : Call) (a : c.Answer) : (Moment.ok c a).call = c := rfl

/-- Surroundings that reply in any way. -/
abbrev Surroundings.any : Surroundings shipping Unit := .replying fun _ _ => True

namespace Ship

variable {α β : Type} {rule : Log → Call → Prop} {l : Log} {P : Call → Prop}
variable {Q Q' : α → Log → Prop}

/-- What a piece ensures holds of its runs with such replies. -/
theorem Ensures.runs {m : Ship α} {P : (c : Call) → Except Failure c.Answer → Prop}
    {Q : α → Session → Log × Unit → Prop} {E : Failure → Session → Log × Unit → Prop}
    {x : Session} {t : Trace shipping} {out : Except Failure α × Session}
    (h : m.Ensures (Surroundings.replying P).logged Q E x (l, ()))
    (ht : Program.Runs (m x) t out) (hP : ∀ k ∈ t.moments, P k.call k.reply) :
    Ends Q E out (l ++ t.moments, ()) :=
  Program.Ensures.runs ht h hP

/-- Every call of a piece is made by a rule, and its value meets `Q`. -/
def Heeds (rule : Log → Call → Prop) (m : Ship α) (Q : α → Log → Prop) (l : Log) : Prop :=
  ∀ x, (m x).Heeds rule (fun out l' => ∀ a, out.1 = .ok a → Q a l') l

/-- What a piece that heeds a rule ensures, whatever it is answered. -/
theorem Heeds.ensures {m : Ship α} (h : Heeds rule m Q l) {x : Session} :
    m.Ensures Surroundings.any.logged (fun a _ z => Q a z.1) (fun _ _ _ => True) x (l, ()) := by
  refine Program.Ensures.mono (h x).ensures ?_
  intro out z hQ
  obtain ⟨r, x'⟩ := out
  cases r with
  | ok a => exact hQ a rfl
  | error e => trivial

namespace Heeds

/-! ## Rules -/

theorem mono {m : Ship α} (h : Heeds rule m Q l) (hQ : ∀ a l', Q a l' → Q' a l') :
    Heeds rule m Q' l :=
  fun x => (h x).mono fun _ l' hout a ha => hQ a l' (hout a ha)

/-- A piece behind another heeds the rule from the log the other leaves. -/
theorem bind {m : Ship α} {f : α → Ship β} {Q : β → Log → Prop} {R : α → Log → Prop}
    (h : Heeds rule m R l) (hf : ∀ a l', R a l' → Heeds rule (f a) Q l') :
    Heeds rule (m >>= f) Q l := by
  intro x
  refine Program.heeds_bind.mpr ((h x).mono ?_)
  intro out l' hR
  obtain ⟨r, x'⟩ := out
  cases r with
  | ok a => exact hf a l' (hR a rfl) x'
  | error e =>
      intro a ha
      cases ha

/-- A piece that is done only on a condition, followed by another. -/
theorem when {c : Prop} [Decidable c] {m : Ship Unit} {k : Unit → Ship α} {R : Log → Prop}
    (h : c → Heeds rule m (fun _ => R) l) (hn : ¬c → R l)
    (hk : ∀ l', R l' → Heeds rule (k ()) Q l') :
    Heeds rule (if c then m >>= k else k ()) Q l := by
  by_cases hc : c
  · rw [if_pos hc]
    exact (h hc).bind fun _ => hk
  · rw [if_neg hc]
    exact hk l (hn hc)

/-- A piece that fails unless a condition holds, followed by another. -/
theorem orElse {c : Prop} [Decidable c] {e : Failure} {k : Unit → Ship α}
    (hk : c → Heeds rule (k ()) Q l) :
    Heeds rule (if c then k () else (Ship.fail e : Ship Unit) >>= k) Q l := by
  by_cases hc : c
  · rw [if_pos hc]
    exact hk hc
  · rw [if_neg hc]
    intro x a ha
    cases ha

/-! ## Building blocks -/

theorem pure {a : α} (h : Q a l) : Heeds rule (Pure.pure a : Ship α) Q l := by
  intro x b hb
  cases hb
  exact h

theorem fail {e : Failure} : Heeds rule (Ship.fail e : Ship α) Q l := by
  intro x a ha
  cases ha

theorem enter {step : Step} {k : Unit → Ship α} (h : Heeds rule (k ()) Q l) :
    Heeds rule (Ship.enter step >>= k) Q l :=
  bind (R := fun _ l' => l' = l) (fun _ _ _ => rfl) fun _ _ e => e ▸ h

/-- A piece that only changes the session, followed by another. -/
theorem update {f : Session → Session} {k : Unit → Ship α} (h : Heeds rule (k ()) Q l) :
    Heeds rule (Ship.update f >>= k) Q l :=
  bind (R := fun _ l' => l' = l) (fun _ _ _ => rfl) fun _ _ e => e ▸ h

theorem notify {n : Notice} {Q : Unit → Log → Prop} (h : Q () l) :
    Heeds rule (Ship.notify n) Q l :=
  fun _ _ _ => h

theorem ask {c : Call} {Q : c.Answer → Log → Prop} (hc : rule l c)
    (hQ : ∀ a, Q a (l ++ [.ok c a])) : Heeds rule (Ship.ask c) Q l := by
  intro x
  refine ⟨hc, ?_⟩
  intro r a ha
  cases ha
  exact hQ a

theorem ask_bind {c : Call} {f : c.Answer → Ship α} (hc : rule l c)
    (hf : ∀ a, Heeds rule (f a) Q (l ++ [.ok c a])) : Heeds rule (Ship.ask c >>= f) Q l :=
  bind (R := fun a l' => l' = l ++ [.ok c a]) (ask hc fun _ => rfl) fun a _ e => e ▸ hf a

theorem attempt {m : Ship α} (h : Heeds rule m Q l) :
    Heeds rule (Ship.attempt m) (fun r l' => ∀ a, r = .ok a → Q a l') l := by
  intro x
  refine Program.heeds_bind.mpr ((h x).mono ?_)
  intro out l' hQ r hr
  cases hr
  exact hQ

/-- A piece heeds a rule that allows its calls. -/
theorem ofUses {m : Ship α} (hm : Uses P m) (hP : ∀ more c, P c → rule (l ++ more) c) :
    Heeds rule m (fun _ l' => ∃ new, l' = l ++ new) l := by
  intro x
  refine (hm x).heeds hP ?_
  refine Program.Ensures.mono hm.logs ?_
  intro out z hend a ha
  obtain ⟨r, x'⟩ := out
  cases ha
  obtain ⟨new, hz, -⟩ := hend
  exact ⟨new, hz⟩

/-- A piece with a footprint heeds a rule that allows its calls, and all were answered. -/
theorem ofFootprint {m : Ship α} (hm : Footprint P m)
    (hP : ∀ more c, P c → rule (l ++ more) c) :
    Heeds rule m (fun _ l' => ∃ new, l' = l ++ new ∧ ∀ k ∈ new, P k.call ∧ k.Answered) l := by
  intro x
  refine (hm.uses x).heeds hP ?_
  refine Program.Ensures.mono (hm.halts.and hm.uses.logs) ?_
  intro out z hend a ha
  obtain ⟨r, x'⟩ := out
  cases ha
  obtain ⟨⟨-, new, hz, hn⟩, new', hz', hp⟩ := hend
  cases List.append_cancel_left (hz.symm.trans hz')
  exact ⟨new, hz, fun k hk => ⟨hp k hk, hn k hk⟩⟩

theorem execute {a : Action} {Q : Unit → Log → Prop} (ha : rule l a.call)
    (hQ : ∀ v, Q () (l ++ [.ok a.call v])) : Heeds rule (Ship.execute a) Q l := by
  intro x
  cases a with
  | _ =>
      refine ⟨ha, fun r => ?_⟩
      cases r with
      | ok v =>
          intro u h
          cases h
          exact hQ v
      | error e =>
          intro u h
          cases h

theorem execute_bind {a : Action} {k : Unit → Ship α} (ha : rule l a.call)
    (hk : ∀ v, Heeds rule (k ()) Q (l ++ [.ok a.call v])) :
    Heeds rule (Ship.execute a >>= k) Q l :=
  bind (R := fun _ l' => ∃ v, l' = l ++ [.ok a.call v]) (execute ha fun v => ⟨v, rfl⟩)
    fun _ _ ⟨v, e⟩ => e ▸ hk v

theorem openRequest {d : RequestDraft} {Q : String → Log → Prop}
    (hd : rule l (.createRequest d)) (hQ : ∀ url, Q url (l ++ [.ok (.createRequest d) url])) :
    Heeds rule (Ship.openRequest d) Q l := by
  intro x
  refine ⟨hd, fun r => ?_⟩
  cases r with
  | ok url =>
      intro url' h
      cases h
      exact hQ url
  | error e =>
      intro url h
      cases h

/-- A piece that is undone if it fails. -/
theorem orGoBack {m : Ship α} (h : Heeds rule m Q l)
    (hr : ∀ l c, Call.undoes c = true → rule l c) : Heeds rule (Ship.orGoBack m) Q l := by
  refine h.attempt.bind ?_
  intro r l' hQ
  cases r with
  | ok a => exact .pure (hQ a rfl)
  | error e =>
      have hback : Heeds rule rollback (fun _ _ => True) l' := by
        intro x
        exact (uses_rollback x).heeds (fun _ => hr _) (.of_forall fun _ _ _ _ => trivial)
      refine hback.bind fun n l'' _ => ?_
      cases n with
      | none => exact .fail
      | some n => exact bind (R := fun _ _ => True) (fun _ _ _ => trivial) fun _ _ _ => .fail

end Heeds

/-! ## Pieces from one session -/

/-- A piece that starts with one session makes every call by a rule, and its value and the
session behind it meet `Q`. -/
def HeedsFrom (rule : Log → Call → Prop) (m : Ship α) (Q : α → Session → Log → Prop) (x : Session)
    (l : Log) : Prop :=
  (m x).Heeds rule (fun out l' => ∀ a, out.1 = .ok a → Q a out.2 l') l

/-- A piece that heeds a rule does so from each session, and leaves what it ensures of it. -/
theorem Heeds.fromSession {m : Ship α} (h : Heeds rule m Q l) {S : Session → Prop} {x : Session}
    (hS : m.Ensures Surroundings.any (fun _ x' _ => S x') (fun _ _ _ => True) x ()) :
    HeedsFrom rule m (fun a x' l' => Q a l' ∧ S x') x l := by
  refine Program.Heeds.mono (Program.Heeds.and (R := fun out _ => ∀ a, out.1 = .ok a → S out.2)
    (h x) ?_) fun out l' hend a ha => ⟨hend.1 a ha, hend.2 a ha⟩
  exact Program.Ensures.mono hS.logged fun out z hend a ha => hend.ok ha

theorem HeedsFrom.bind {m : Ship α} {f : α → Ship β} {Q : β → Session → Log → Prop}
    {R : α → Session → Log → Prop} {x : Session} (h : HeedsFrom rule m R x l)
    (hf : ∀ a x' l', R a x' l' → HeedsFrom rule (f a) Q x' l') :
    HeedsFrom rule (m >>= f) Q x l := by
  refine Program.heeds_bind.mpr (Program.Heeds.mono h ?_)
  intro out l' hR
  obtain ⟨r, x'⟩ := out
  cases r with
  | ok a => exact hf a x' l' (hR a rfl)
  | error e =>
      intro a ha
      cases ha

theorem HeedsFrom.attempt {m : Ship α} {Q : α → Session → Log → Prop} {x : Session}
    (h : HeedsFrom rule m Q x l) :
    HeedsFrom rule (Ship.attempt m) (fun r x' l' => ∀ a, r = .ok a → Q a x' l') x l := by
  refine Program.heeds_bind.mpr (Program.Heeds.mono h ?_)
  intro out l' hQ r hr
  cases hr
  exact hQ

end Ship

end Shipment
