import TemplateCompiler.Proofs.Template.Minting

namespace TemplateCompiler

open Lower

namespace Session

/-- A session in which events and imports have been added behind those that there were. -/
structure Extends (s s' : Session) : Prop where
  events : s.events <+: s'.events
  imports : s.imports.Extends s'.imports

theorem Extends.refl (s : Session) : s.Extends s := ⟨List.prefix_refl _, .refl _⟩

theorem stable_extends (s₀ : Session) : Stable s₀.Extends where
  fresh _ := .fresh fun _ _ _ hs => ⟨hs.events, hs.imports⟩
  require symbol _ := .require fun s names _ hs =>
    ⟨hs.events, hs.imports.trans (s.imports.extends_require names symbol s.environment)⟩
  listen _ _ hs := ⟨hs.events.trans (List.prefix_append _ _), hs.imports⟩
  note _ _ hs := ⟨hs.events, hs.imports⟩

theorem stable_distinct : Stable fun s => s.imports.Distinct where
  fresh _ := .fresh fun _ _ _ hs => hs
  require symbol _ := .require fun s names _ hs => by
    simp only [Imports.require]
    split
    · exact hs
    · rename_i hnone
      exact hs.add _ hnone
  listen _ _ hs := hs
  note _ _ hs := hs

/-- What is done with a session. -/
inductive Step where
  | enter (program : Node)
  | lower (t : Template)
  | finish (body : List Node)

namespace Step

/-- The nodes that a step gives, if it does not fail. -/
def perform : Step → Lower (List Node)
  | enter program => do
    modify fun s => s.enter program
    return []
  | lower t => do
    let closure ← lowerTemplate t
    return [closure]
  | finish body => finishProgram body

def isEnter : Step → Bool
  | enter _ => true
  | _ => false

theorem keeps {I : Session → Prop} (hI : Stable I) (henter : ∀ s program, I s → I (s.enter program))
    (step : Step) : step.perform.Keeps I := by
  cases step with
  | enter program => exact fun s hs => henter s program hs
  | lower t => exact (hI.lowerTemplate t).bind fun _ => Keeps.pure _
  | finish body => exact hI.finishProgram body

theorem extends_perform (step : Step) (s : Session) : s.Extends (step.perform.run s).2 :=
  step.keeps (stable_extends s) (fun _ _ hs => ⟨hs.events, hs.imports⟩) s (.refl s)

/-- No name can be asked for before a program is entered, and every step
starts by asking for one. -/
theorem run_perform_of_names_eq_none {step : Step} (hstep : step.isEnter = false) {s : Session}
    (hs : s.names = none) : step.perform.run s = (.error .noScope, s) := by
  cases step with
  | enter program => cases hstep
  | lower t => simp only [perform, lowerTemplate, newScope, run_bind, run_fresh, hs]
  | finish body => simp only [perform, finishProgram, run_bind, run_require, hs]

end Step

/-- The session after some steps, of which any may have failed. -/
def after (s : Session) (steps : List Step) : Session :=
  steps.foldl (fun s step => (step.perform.run s).2) s

theorem distinct_after {s : Session} (hs : s.imports.Distinct) (steps : List Step) :
    (s.after steps).imports.Distinct := by
  induction steps generalizing s with
  | nil => exact hs
  | cons step steps ih => exact ih (step.keeps stable_distinct (fun _ _ h => h) s hs)

theorem after_of_names_eq_none {s : Session} (hs : s.names = none) {steps : List Step}
    (hsteps : ∀ step ∈ steps, step.isEnter = false) : s.after steps = s := by
  induction steps with
  | nil => rfl
  | cons step steps ih =>
      have hstep := Step.run_perform_of_names_eq_none (hsteps step (List.mem_cons_self ..)) hs
      change Session.after (step.perform.run s).2 steps = s
      rw [hstep]
      exact ih fun later hlater => hsteps later (List.mem_cons_of_mem _ hlater)

/-- A session only ever grows, whatever is done with it and whether or not this fails; and before a
program has been entered, nothing else can be done with it. -/
theorem after_grows (environment : String) (steps : List Step) (step : Step) :
    let s := Session.after { environment } steps
    let s' := (step.perform.run s).2
    s.Extends s' ∧ s.imports.Distinct ∧ s'.imports.Distinct ∧
      ((∀ earlier ∈ steps, earlier.isEnter = false) → step.isEnter = false →
        step.perform.run s = (.error .noScope, s) ∧
          (Report.ofCause .noScope).code = "RUMIOUS-ERR-SCOPE-001") := by
  intro s s'
  have hstart : ({ environment } : Session).imports.Distinct := ⟨List.nodup_nil, by simp⟩
  have hdistinct : s.imports.Distinct := distinct_after hstart steps
  refine ⟨step.extends_perform s, hdistinct, ?_, ?_⟩
  · exact step.keeps stable_distinct (fun _ _ h => h) s hdistinct
  · intro hearlier hstep
    have hs : s = { environment } := after_of_names_eq_none rfl hearlier
    exact ⟨Step.run_perform_of_names_eq_none hstep (by rw [hs]), rfl⟩

/-- A template that fails at its second attribute, when its first one has been lowered. -/
def halfwayTemplate : Template :=
  .element (.path (.reference "Item" ⟨1, 5⟩))
    [.named "on:click" (.expression (.reference "pick" ⟨16, 20⟩)) 6,
      .named "compile:fast" .missing 22] []

theorem after_grows_halfwayTemplate :
    let s := after { environment := "rumious" } [.lower halfwayTemplate, .finish []]
    let s₁ := after { environment := "rumious" }
      [.lower halfwayTemplate, .enter (.leaf (.reference "_createEvent") ⟨0, 12⟩), .finish []]
    let s₂ := ((Step.lower halfwayTemplate).perform.run s₁).2
    (Step.lower halfwayTemplate).perform.run s = (.error .noScope, s) ∧
      s₁.Extends s₂ ∧ s₂.imports.Distinct ∧ s₁.events = [] ∧ s₂.events = ["click"] ∧
      s₁.imports.modules = [⟨"rumious", [("eventDelegate", "_eventDelegate")]⟩] ∧
      s₂.imports.modules = [⟨"rumious", [("eventDelegate", "_eventDelegate"),
        ("createComponent", "_createComponent"), ("createEvent", "_createEvent2")]⟩] := by
  refine ⟨((after_grows _ _ _).2.2.2 (by decide) rfl).1, (after_grows _ _ _).1,
    (after_grows _ _ _).2.2.1, ?_⟩
  decide +kernel

/-- A session in which one program has been entered and templates have been lowered,
whether or not they failed. -/
inductive Entered (program : Node) : Session → Prop
  | start (environment : String) : Entered program (({ environment } : Session).enter program)
  | lower {s : Session} (t : Template) : Entered program s → Entered program
      ((lowerTemplate t).run s).2

theorem Entered.keeps {I : Session → Prop} {program : Node} {s : Session} (h : Entered program s)
    (hI : Stable I) (hstart : ∀ environment : String,
      I (({ environment } : Session).enter program)) : I s := by
  induction h with
  | start environment => exact hstart environment
  | lower t _ ih => exact hI.lowerTemplate t _ ih

theorem stable_clean (names : List String) : Stable (Clean names) where
  fresh base := .fresh fun s names hnames hs => by
    have hrun := run_fresh base s
    rw [hnames] at hrun
    exact (mints_fresh hs hrun).1.clean
  require symbol _ := .require fun s names hnames hs => by
    have hrun := run_require symbol s
    rw [hnames] at hrun
    exact (mints_require hs hrun).1.clean
  listen _ _ hs := ⟨hs.mem_used, hs.minted_alias⟩
  note _ _ hs := ⟨hs.mem_used, hs.minted_alias⟩

namespace Entered

variable {program : Node} {s : Session}

theorem clean (h : Entered program s) : s.Clean program.usedNames :=
  h.keeps (stable_clean _) fun _ => ⟨fun _ hname => hname, by simp [enter, Imports.entries]⟩

theorem spelt (h : Entered program s) : s.Spelt :=
  h.keeps stable_spelt fun _ => by simp [Spelt, enter, Imports.entries]

end Entered

end Session

end TemplateCompiler
