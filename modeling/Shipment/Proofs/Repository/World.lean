import Shipment.Proofs.Repository.Steady
import Shipment.Proofs.Run.Footprint
import Shipment.Repository.Faults

/-!
# A site as surroundings

`Site.world F` answers as a site does.  If `F` holds, any call may also fail and
leave the site as it is.  `world False` is a run without faults and `world True` is a
run with any faults that only fail, which `ensures_run_answer` and
`ensures_run_withFaults` say.

A piece that only asks leaves the site alone, and every piece keeps it `Steady`.
-/

namespace Shipment

/-- Whether a fault only lets calls fail. -/
def Fault.OnlyFails (f : Fault) : Prop := ∀ c, ∃ e, f.reply c = .error e

/-- Calls that always fail. -/
def Fault.outage (meant : Call → Bool) : Fault where
  meant := meant
  nth := 0
  reply _ := .error (.vcs "outage")

theorem Fault.onlyFails_outage (meant : Call → Bool) : (outage meant).OnlyFails :=
  fun _ => ⟨_, rfl⟩

namespace Site

open Repository

/-- A site whose calls may fail if `F` holds. -/
def world (F : Prop) : Surroundings shipping Site where
  answers (c : Call) s r s' := answer c s = (r, s') ∨ F ∧ s' = s ∧ ∃ e, r = .error e

variable {F : Prop} {c : Call} {s s' : Site} {r : Except Failure c.Answer}

/-- What is to hold after a call, whatever it is answered. -/
theorem forall_answers {P : Except Failure c.Answer → Site → Prop} :
    (∀ r s', (world F).answers c s r s' → P r s') ↔
      P (answer c s).1 (answer c s).2 ∧ (F → ∀ e, P (.error e) s) := by
  refine ⟨fun h => ⟨h _ _ (.inl rfl), fun hF e => h _ _ (.inr ⟨hF, rfl, e, rfl⟩)⟩, ?_⟩
  rintro ⟨h, hE⟩ r s' (ha | ⟨hF, rfl, e, rfl⟩)
  · rwa [ha] at h
  · exact hE hF e

theorem effect_of_answers (h : (world F).answers c s r s') : Effect s.repo c r s'.repo := by
  rcases h with h | ⟨-, rfl, e, rfl⟩
  · have he := answer_effect c s
    rw [h] at he
    exact he
  · exact .failed e

theorem host_of_answers (h : (world F).answers c s r s') (hc : ∀ draft, c ≠ .createRequest draft) :
    s'.host = s.host := by
  rcases h with h | ⟨-, rfl, -⟩
  · have he := answer_host c s hc
    rw [h] at he
    exact he
  · rfl

theorem eq_of_asks (h : (world F).answers c s r s') (hc : c.Asks) : s' = s := by
  rcases h with h | ⟨-, rfl, -⟩
  · have he := answer_of_asks hc s
    rw [h] at he
    exact he
  · rfl

/-! ## Steadiness -/

/-- A site before and after some calls. -/
structure Steady (s s' : Site) : Prop where
  repo : s.repo.Steady s'.repo
  authenticated : s'.host.authenticated = s.host.authenticated

theorem Steady.refl (s : Site) : Steady s s := ⟨.refl s.repo, rfl⟩

theorem Steady.trans {s'' : Site} (h : Steady s s') (h' : Steady s' s'') : Steady s s'' :=
  ⟨h.repo.trans h'.repo, h'.authenticated.trans h.authenticated⟩

theorem steady_of_answers (h : (world F).answers c s r s') : Steady s s' := by
  refine ⟨(effect_of_answers h).steady, ?_⟩
  cases c with
  | createRequest draft =>
      rcases h with h | ⟨-, rfl, -⟩
      · cases h
        rfl
      · rfl
  | _ => exact congrArg ReviewHost.authenticated (host_of_answers h (by simp))

end Site

namespace Ship

open Site Repository

variable {α : Type} {F : Prop} {Q : α → Session → Site → Prop} {E : Failure → Session → Site → Prop}
variable {x : Session} {s : Site}

/-! ## Rules -/

/-- A question or any other call: its answer, or any failure if calls may fail. -/
theorem ensures_ask_world {c : Call} {Q : c.Answer → Session → Site → Prop} :
    (ask c).Ensures (world F) Q E x s ↔
      Ends Q E ((answer c s).1, x) (answer c s).2 ∧ (F → ∀ e, E e x s) :=
  ensures_ask.trans forall_answers

/-- A question that always has an answer. -/
theorem ensures_question {c : Call} {v : c.Answer} {Q : c.Answer → Session → Site → Prop}
    (h : answer c s = (.ok v, s)) :
    (ask c).Ensures (world F) Q E x s ↔ Q v x s ∧ (F → ∀ e, E e x s) := by
  rw [ensures_ask_world, h]
  rfl

theorem ensures_execute_world {a : Action} {Q : Unit → Session → Site → Prop} :
    (execute a).Ensures (world F) Q E x s ↔
      ActionEnds a (fun _ => Q ()) E x (answer a.call s).1 (answer a.call s).2 ∧
        (F → ∀ e, E (a.failure e) x s) :=
  ensures_execute.trans forall_answers

/-- A call on the repository: every effect it can have. -/
theorem Ensures.ask {c : Call} {Q : c.Answer → Session → Site → Prop}
    (hc : ∀ draft, c ≠ .createRequest draft)
    (h : ∀ r repo, Effect s.repo c r repo → Ends Q E (r, x) { s with repo }) :
    (ask c).Ensures (world F) Q E x s := by
  refine ensures_ask.mpr fun r s' hr => ?_
  have he := h r s'.repo (effect_of_answers hr)
  rwa [← host_of_answers hr hc] at he

/-- An action on the repository: every effect its call can have. -/
theorem Ensures.execute {a : Action} {Q : Unit → Session → Site → Prop}
    (ha : ∀ draft, a.call ≠ .createRequest draft)
    (h : ∀ r repo, Effect s.repo a.call r repo →
      ActionEnds a (fun _ => Q ()) E x r { s with repo }) :
    (execute a).Ensures (world F) Q E x s := by
  refine ensures_execute.mpr fun r s' hr => ?_
  have he := h r s'.repo (effect_of_answers hr)
  rwa [← host_of_answers hr ha] at he

/-- A piece that only asks leaves the site alone. -/
theorem Uses.asks {m : Ship α} (h : Uses Call.Asks m) :
    m.Ensures (world F) (fun _ _ s' => s' = s) (fun _ _ s' => s' = s) x s :=
  h.relates (T := fun s s' => s' = s) (fun _ => rfl) (fun h h' => h'.trans h)
    fun hc ha => eq_of_asks ha hc

/-- Every piece keeps the site steady. -/
theorem ensures_steady (m : Ship α) :
    m.Ensures (world F) (fun _ _ s' => s.Steady s') (fun _ _ s' => s.Steady s') x s := by
  have h : Uses (fun _ => True) m := fun x => (m x).uses_true
  exact h.relates Site.Steady.refl Site.Steady.trans fun _ ha => steady_of_answers ha

theorem Ensures.steadily {m : Ship α} (h : m.Ensures (world F) Q E x s) :
    m.Ensures (world F) (fun a x' s' => Q a x' s' ∧ s.Steady s')
      (fun e x' s' => E e x' s' ∧ s.Steady s') x s :=
  h.and (ensures_steady m)

/-! ## Runs -/

/-- What is ensured without faults holds of a run. -/
theorem ensures_run_answer {p : Program shipping α}
    {Q : α → List (Moment shipping Site) × Site → Prop}
    (hp : p.Ensures (world False).logged Q ([], s)) :
    Q (p.run answer s).value (p.moments answer s, (p.run answer s).world) := by
  have step (c : Call) (t : Site) (_ : True) :
      (world False).answers c (id t) (answer c t).1 (id (answer c t).2) ∧ True :=
    ⟨Or.inl rfl, trivial⟩
  have h := Program.ensures_run id (fun _ => True) step trivial hp
  have hid (l : List (Moment shipping Site)) : l.map (Moment.map id) = l := List.map_id l
  rwa [List.nil_append, hid] at h

/-- A run without faults ends, and its log is, as ensured. -/
theorem Ensures.ends_log {m : Ship α} {Q : α → Session → List (Moment shipping Site) × Site → Prop}
    {E : Failure → Session → List (Moment shipping Site) × Site → Prop}
    (h : m.Ensures (world False).logged Q E x ([], s)) :
    Ends Q E ((m x).run answer s).value ((m x).moments answer s, ((m x).run answer s).world) :=
  ensures_run_answer h

/-- A run without faults ends as it is ensured to. -/
theorem Ensures.ends_run {m : Ship α} (h : m.Ensures (world False) Q E x s) :
    Ends Q E ((m x).run answer s).value ((m x).run answer s).world :=
  ensures_run_answer (Q := fun a z => Ends Q E a z.2) (Program.Ensures.logged h)

/-- What a run without faults that gave a value is ensured. -/
theorem Ensures.run_ok {m : Ship α} {a : α} (h : m.Ensures (world False) Q E x s)
    (ha : ((m x).run answer s).value.1 = .ok a) :
    Q a ((m x).run answer s).value.2 ((m x).run answer s).world :=
  h.ends_run.ok ha

/-- What a run without faults that failed is ensured. -/
theorem Ensures.run_error {m : Ship α} {e : Failure} (h : m.Ensures (world False) Q E x s)
    (he : ((m x).run answer s).value.1 = .error e) :
    E e ((m x).run answer s).value.2 ((m x).run answer s).world :=
  h.ends_run.error he

theorem withFaults_of_none {faults : List Fault} {c : Call}
    (h : (faults.map (Fault.count c)).find? (Fault.strikes c) = none) :
    answer.withFaults c (faults, s) =
      ((answer c s).1, faults.map (Fault.count c), (answer c s).2) := by
  simp only [Handler.withFaults, h]

theorem withFaults_of_some {faults : List Fault} {c : Call} {f : Fault}
    (h : (faults.map (Fault.count c)).find? (Fault.strikes c) = some f) :
    answer.withFaults c (faults, s) = (f.reply c, faults.map (Fault.count c), s) := by
  simp only [Handler.withFaults, h]

/-- A fault that only fails still only fails when it has counted a call. -/
theorem withFaults_answers (c : Call) (t : List Fault × Site) (ht : ∀ f ∈ t.1, f.OnlyFails) :
    (world True).answers c t.2 (answer.withFaults c t).1 (answer.withFaults c t).2.2 ∧
      ∀ f ∈ (answer.withFaults c t).2.1, f.OnlyFails := by
  obtain ⟨faults, s⟩ := t
  have hcount : ∀ f ∈ faults.map (Fault.count c), f.OnlyFails := by
    intro f hf
    obtain ⟨g, hg, rfl⟩ := List.mem_map.mp hf
    unfold Fault.count
    split
    · exact ht g hg
    · exact ht g hg
  cases hfind : (faults.map (Fault.count c)).find? (Fault.strikes c) with
  | none =>
      rw [withFaults_of_none hfind]
      exact ⟨Or.inl rfl, hcount⟩
  | some f =>
      rw [withFaults_of_some hfind]
      exact ⟨Or.inr ⟨trivial, rfl, hcount f (List.mem_of_find?_eq_some hfind) c⟩, hcount⟩

/-- The calls of a run with faults, with the site around each. -/
def logWithFaults (m : Ship α) (x : Session) (faults : List Fault) (s : Site) :
    List (Moment shipping Site) :=
  ((m x).moments answer.withFaults (faults, s)).map (Moment.map Prod.snd)

/-- What is ensured when calls may fail holds of a run with faults that only fail. -/
theorem ensures_run_withFaults {p : Program shipping α}
    {Q : α → List (Moment shipping Site) × Site → Prop} {faults : List Fault}
    (hf : ∀ f ∈ faults, f.OnlyFails) (hp : p.Ensures (world True).logged Q ([], s)) :
    Q (p.run answer.withFaults (faults, s)).value
      ((p.moments answer.withFaults (faults, s)).map (Moment.map Prod.snd),
        (p.run answer.withFaults (faults, s)).world.2) := by
  have step (c : Call) (t : List Fault × Site) (ht : ∀ f ∈ t.1, f.OnlyFails) :=
    withFaults_answers c t ht
  have h := Program.ensures_run Prod.snd (fun t => ∀ f ∈ t.1, Fault.OnlyFails f) step
    (show ∀ f ∈ (faults, s).1, Fault.OnlyFails f from hf) hp
  rwa [List.nil_append] at h

/-- A run with faults that only fail ends, and its log is, as ensured. -/
theorem Ensures.ends_log_withFaults {m : Ship α}
    {Q : α → Session → List (Moment shipping Site) × Site → Prop}
    {E : Failure → Session → List (Moment shipping Site) × Site → Prop} {faults : List Fault}
    (hf : ∀ f ∈ faults, f.OnlyFails) (h : m.Ensures (world True).logged Q E x ([], s)) :
    Ends Q E ((m x).run answer.withFaults (faults, s)).value
      (m.logWithFaults x faults s, ((m x).run answer.withFaults (faults, s)).world.2) :=
  ensures_run_withFaults hf h

/-- A run with faults that only fail ends as it is ensured to. -/
theorem Ensures.ends_run_withFaults {m : Ship α} {faults : List Fault}
    (hf : ∀ f ∈ faults, f.OnlyFails) (h : m.Ensures (world True) Q E x s) :
    Ends Q E ((m x).run answer.withFaults (faults, s)).value
      ((m x).run answer.withFaults (faults, s)).world.2 :=
  ensures_run_withFaults (Q := fun a z => Ends Q E a z.2) hf (Program.Ensures.logged h)

end Ship

end Shipment
