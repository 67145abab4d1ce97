import Shipment.Command.Dispatch
import Shipment.Proofs.Json.Pretty
import Shipment.Proofs.Quiet
import Shipment.System.Scripted

/-!
# The document of a run

The outcome of a run is shown to other programs as a JSON document.  It is well formed, and no two
outcomes have the same one, so an outcome can be told from either written form of its document
(`Outcome.eq_of_pretty`, `Outcome.eq_of_compact`).

A command that ships has the document on standard output if it succeeds, and nothing if it does
not.  All that comes before the document is quiet, so `Reports` needs one law for a quiet piece and
one for the text at the end.
-/

namespace Shipment

open Json (WellFormed)

/-! ## Documents of outcomes -/

theorem Notice.wellFormed_toJson (n : Notice) : n.toJson.WellFormed := by
  cases n with
  | intentOverridden description =>
      exact .fields (by simp) (by simp [WellFormed.text])
  | closedRequest branch url =>
      exact .fields (by simp) (by simp [WellFormed.text])
  | behindBase base commits =>
      exact .fields (by simp) (by simp [WellFormed.text, WellFormed.natural])
  | rolledBack branch restored =>
      exact .fields (by simp) (by simp [WellFormed.text])

theorem RequestResult.wellFormed_toJson (r : RequestResult) : r.toJson.WellFormed :=
  .fields (by simp) (by simp [WellFormed.text])

namespace Outcome

/-- The fields of the document of an outcome. -/
def toFields (o : Outcome) : List (String × Json) :=
  [("flow", .text o.flow.name), ("branch", .text o.branch), ("base", .text o.base),
    ("notices", .array (o.notices.map Notice.toJson))] ++ o.result.toFields

theorem toJson_eq (o : Outcome) : o.toJson = .fields o.toFields := rfl

/-- The fields of the result go with the others. -/
theorem nodup_keys (o : Outcome) : (o.toFields.map Prod.fst).Nodup := by
  obtain ⟨flow, branch, base, notices, result⟩ := o
  cases result <;> simp [toFields, RunResult.toFields]

theorem wellFormed_toJson (o : Outcome) : o.toJson.WellFormed := by
  have hnotices : WellFormed (.array (o.notices.map Notice.toJson)) :=
    .array (by simpa using fun n _ => n.wellFormed_toJson)
  refine .fields o.nodup_keys ?_
  obtain ⟨flow, branch, base, notices, result⟩ := o
  cases result <;>
    simp [RunResult.toFields, WellFormed.text, WellFormed.bool, WellFormed.optional,
      RequestResult.wellFormed_toJson, hnotices]

end Outcome

/-! ## Telling outcomes from documents -/

open Json (text_inj optional_inj fields_inj)

theorem Flow.name_injective : Function.Injective Flow.name := by
  intro f f'
  cases f <;> cases f' <;> simp [name]

theorem NoOpReason.name_injective : Function.Injective NoOpReason.name := by
  intro r r'
  cases r <;> cases r' <;> simp [name]

theorem PushMode.name_injective : Function.Injective PushMode.name := by
  intro m m'
  cases m <;> cases m' <;> simp [name]

theorem Notice.toJson_injective : Function.Injective Notice.toJson := by
  intro n n'
  cases n <;> cases n' <;> simp [toJson, fields_inj, text_inj]

theorem RequestResult.toJson_injective : Function.Injective RequestResult.toJson := by
  intro r r'
  cases r <;> cases r' <;> simp [toJson, status, url, fields_inj, text_inj]

theorem RunResult.toFields_injective : Function.Injective RunResult.toFields := by
  intro r r'
  have hpushed : Function.Injective (Option.map PushMode.name) :=
    Option.map_injective PushMode.name_injective
  cases r <;> cases r' <;>
    simp [toFields, text_inj, optional_inj, NoOpReason.name_injective.eq_iff, hpushed.eq_iff,
      RequestResult.toJson_injective.eq_iff]

namespace Outcome

/-- No two outcomes have the same document. -/
theorem toJson_injective : Function.Injective Outcome.toJson := by
  rintro ⟨flow, branch, base, notices, result⟩ ⟨flow', branch', base', notices', result'⟩ h
  have hnotices := List.map_injective_iff.mpr Notice.toJson_injective
  simpa [toJson, fields_inj, text_inj, Flow.name_injective.eq_iff, hnotices.eq_iff,
    RunResult.toFields_injective.eq_iff] using h

theorem eq_of_pretty {o o' : Outcome} (h : o.toJson.pretty = o'.toJson.pretty) : o = o' := by
  have hread := o.wellFormed_toJson.read_pretty Json.blanks_nil
  rw [h, o'.wellFormed_toJson.read_pretty Json.blanks_nil] at hread
  exact toJson_injective (Option.some.inj hread).symm

theorem eq_of_compact {o o' : Outcome} (h : o.toJson.compact = o'.toJson.compact) : o = o' := by
  have hread := o.wellFormed_toJson.read_compact Json.blanks_nil
  rw [h, o'.wellFormed_toJson.read_compact Json.blanks_nil] at hread
  exact toJson_injective (Option.some.inj hread).symm

end Outcome

/-! ## What a command prints -/

namespace Command

open Work

variable {root : Path} {dir : Option Path} {display : Display} {description : String}
variable {options : Options} {α : Type} {m : Work α} {f : α → Work Unit}

/-- How a run for a description is reported on standard output: by its outcome if the command
succeeds, and by nothing if it fails. -/
inductive Reported (display : Display) (description : String) :
    Trace system → Except Failure Unit → Prop where
  | failed {t : Trace system} {e : Failure} : Printed.stdout t.events = "" →
      Reported display description t (.error e)
  | shown {before run : Trace system} {root : Path} {options : Options} {o : Outcome} :
      Printed.stdout before.events = "" →
      Program.Runs (Command.run root display description options).run run (.ok o) →
      Reported display description (before ++ (run ++ [.told (.out (outcomeText display o))]))
        (.ok ())

/-- A piece that reports a run for a description, whatever it is answered. -/
def Reports (display : Display) (description : String) (m : Work Unit) : Prop :=
  ∀ t r, Program.Runs (I := system) m.run t r → Reported display description t r

namespace Reports

/-- Quiet pieces can come first. -/
theorem bind (hm : Quiet m) (hf : ∀ a, Reports display description (f a)) :
    Reports display description (m >>= f) := by
  intro t r hruns
  rw [run_bind_eq] at hruns
  obtain ⟨before, behind, out, rfl, hfirst, hbehind⟩ := Program.runs_bind.mp hruns
  have hfront {t : Trace system} (ht : Printed.stdout t.events = "") :
      Printed.stdout (Trace.events (before ++ t)) = "" := by
    rw [Printed.stdout_events_append, hm.stdout hfirst, ht, String.append_empty]
  cases out with
  | error e =>
      -- A failure here ends the command, and only what is quiet was printed.
      cases hbehind
      exact .failed (hfront rfl)
  | ok a =>
      cases hf a _ _ hbehind with
      | failed hquiet => exact .failed (hfront hquiet)
      | shown hquiet hrun =>
          rw [← List.append_assoc]
          exact .shown (hfront hquiet) hrun

/-- A run is reported by showing its outcome. -/
theorem run_bind_out : Reports display description
    (run root display description options >>= fun o => out (outcomeText display o)) := by
  intro t r hruns
  rw [run_bind_eq] at hruns
  obtain ⟨whole, behind, result, rfl, hwhole, hbehind⟩ := Program.runs_bind.mp hruns
  cases result with
  | error e =>
      cases hbehind
      rw [List.append_nil]
      exact .failed (quiet_run.stdout hwhole)
  | ok o =>
      cases hbehind with
      | tell hdone =>
          cases hdone
          have hnothing : Printed.stdout (Trace.events ([] : Trace system)) = "" := rfl
          exact .shown hnothing hwhole

end Reports

theorem reports_ship (asked : Option String) :
    Reports display (asked.getD "") (ship asked options dir display) :=
  .bind (.ofExcept _) fun _ => .bind silent_workingDir.tells fun _ =>
    .bind Git.silent_discover.tells fun _ => .bind (Config.silent_effective _).tells fun _ =>
      .run_bind_out

end Command

/-! ## The law of the document -/

/-- What the document of an outcome is: an object that both written forms are read as, with no key
twice in it or below, and of no other outcome. -/
structure Outcome.Documented (o : Outcome) : Prop where
  pretty : Json.read? o.toJson.pretty = some o.toJson
  compact : Json.read? o.toJson.compact = some o.toJson
  object : ∃ fs, o.toJson = .fields fs ∧ (fs.map Prod.fst).Nodup
  wellFormed : o.toJson.WellFormed
  ofPretty : ∀ o' : Outcome, o'.toJson.pretty = o.toJson.pretty → o' = o
  ofCompact : ∀ o' : Outcome, o'.toJson.compact = o.toJson.compact → o' = o

theorem Outcome.documented (o : Outcome) : o.Documented where
  pretty := by simpa using o.wellFormed_toJson.read_pretty Json.blanks_nil
  compact := by simpa using o.wellFormed_toJson.read_compact Json.blanks_nil
  object := ⟨o.toFields, o.toJson_eq, o.nodup_keys⟩
  wellFormed := o.wellFormed_toJson
  ofPretty _ := eq_of_pretty
  ofCompact _ := eq_of_compact

namespace Command

open CommandLine (Arguments)

variable {a : Arguments} {t : Trace system}

/-- What standard output has when a run for the description of a command line is shown as a
document: that of the outcome the run ended with, and a line feed. -/
def ShowsDocument (a : Arguments) (t : Trace system) : Prop :=
  ∃ root options run o, run <:+: t ∧
    Program.Runs (Command.run root { json := true, verbose := a.verbose }
      ((a.description <|> a.message).getD "") options).run run (.ok o) ∧
    Printed.stdout t.events = String.ofList o.toJson.pretty ++ "\n" ∧
    Json.read? (Printed.stdout t.events).toList = some o.toJson

/-- What a run prints on standard output is its document, if that is printed behind nothing. -/
theorem showsDocument {before run : Trace system} {root : Path} {options : Options} {o : Outcome}
    (hbefore : Printed.stdout before.events = "")
    (hrun : Program.Runs (Command.run root { json := true, verbose := a.verbose }
      ((a.description <|> a.message).getD "") options).run run (.ok o)) :
    ShowsDocument a (before ++ (run ++
      [.told (.out (outcomeText { json := true, verbose := a.verbose } o))])) := by
  have hout : Printed.stdout (Trace.events (before ++ (run ++
      [.told (.out (outcomeText { json := true, verbose := a.verbose } o))]))) =
        String.ofList o.toJson.pretty ++ "\n" := by
    rw [Printed.stdout_events_append, Printed.stdout_events_append, hbefore,
      quiet_run.stdout hrun, String.empty_append, String.empty_append, Printed.stdout_told_out,
      outcomeText, if_pos rfl, Terminal.line]
  refine ⟨root, options, run, o, ⟨before, _, List.append_assoc _ _ _⟩, hrun, hout, ?_⟩
  have hfeed : Json.Blanks "\n".toList := by
    intro c hc
    rw [List.mem_singleton.mp hc]
    exact .inr (.inr (.inl rfl))
  rw [hout, String.toList_append, String.toList_ofList]
  exact o.wellFormed_toJson.read_pretty hfeed

theorem runs_conclude_ok {code : UInt32} (h : Program.Runs (conclude (.ok ())) t code) :
    code = 0 ∧ t = [] := by
  cases h
  exact ⟨rfl, rfl⟩

theorem runs_conclude_error {e : Failure} {code : UInt32}
    (h : Program.Runs (conclude (.error e)) t code) :
    code = 1 ∧ Printed.stdout t.events = "" := by
  cases h with
  | tell hdone =>
      cases hdone
      exact ⟨rfl, rfl⟩

/-- A command line that ships with a document prints nothing else to standard output, and nothing
at all there if it fails.  The document tells the outcome. -/
theorem ship_prints_document :
    (∀ args a t code, Arguments.read args = .ok a → a.command = none → a.json = true →
      Program.Runs (main args) t code →
        code = 1 ∧ Printed.stdout t.events = "" ∨ code = 0 ∧ ShowsDocument a t) ∧
      ∀ o : Outcome, o.Documented := by
  refine ⟨fun args a t code hread hship hjson hruns => ?_, Outcome.documented⟩
  rw [main, hread] at hruns
  obtain ⟨t₁, t₂, r, rfl, hfirst, hbehind⟩ := Program.runs_bind.mp hruns
  rw [perform, hship, hjson] at hfirst
  cases reports_ship _ _ _ hfirst with
  | failed hquiet =>
      obtain ⟨rfl, hpanel⟩ := runs_conclude_error hbehind
      refine .inl ⟨rfl, ?_⟩
      rw [Printed.stdout_events_append, hquiet, hpanel, String.append_empty]
  | shown hbefore hrun =>
      obtain ⟨rfl, rfl⟩ := runs_conclude_ok hbehind
      rw [List.append_nil]
      exact .inr ⟨rfl, showsDocument hbefore hrun⟩

/-- A run that has nothing to do. -/
theorem ship_prints_document_noOp :
    let args := ["--json", "feat: x"]
    let replies := [".", "", "origin", ".git/a", ".git/a", ".git/a", ".git/a", "main",
      "origin/main", "", "main", "origin/main", "0", "", "0", "0"]
    let s : Scripted :=
      { home := some ⟨"/"⟩, script := replies.map fun text => ⟨Text.encode text, .empty, some 0⟩ }
    let run := (main args).run Scripted.answer s
    ∃ a, Arguments.read args = .ok a ∧ run.value = 0 ∧ ShowsDocument a run.trace := by
  intro args replies s run
  have hvalue : run.value = 0 := by decide +kernel
  obtain ⟨a, hread, hship, hjson⟩ : ∃ a, Arguments.read args = .ok a ∧ a.command = none ∧
      a.json = true := by
    exact ⟨⟨some "feat: x", none, {}, true, none, false, none⟩, by rfl, rfl, rfl⟩
  have hshown := ship_prints_document.1 args a run.trace run.value hread hship hjson
    (Program.run_runs Scripted.answer _ s)
  rw [hvalue] at hshown
  refine ⟨a, hread, hvalue, ?_⟩
  simpa using hshown

end Command

end Shipment
