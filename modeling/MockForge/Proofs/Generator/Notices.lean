import MockForge.Proofs.Generator.Appending

/-!
# What a generation tells

A generation tells when it begins and when it is done. All else that is told in between comes from
its collaborators. Main statement: `generate_tells`.
-/

namespace MockForge

variable {α β : Type} {allowed : Notice → Prop}

/-! ## Runs that tell only what is allowed -/

namespace Run

variable {run : Run Fault α}

/-- All that a run tells is allowed. -/
def Tells (run : Run Fault α) (allowed : Notice → Prop) : Prop :=
  ∀ notice ∈ run.notices, allowed notice

theorem Tells.bind {next : α → Run Fault β} (h : run.Tells allowed)
    (hn : ∀ a, (next a).Tells allowed) : (run >>= next).Tells allowed := by
  intro notice hm
  cases ho : run.outcome with
  | error fault =>
      rw [bind_of_error ho] at hm
      exact h notice hm
  | ok a =>
      rw [bind_of_ok ho, notices, List.filterMap_append, List.mem_append] at hm
      rcases hm with hm | hm
      · exact h notice hm
      · exact hn a notice hm

theorem tells_of_events_eq_nil (h : run.events = []) : run.Tells allowed := by
  intro notice hm
  rw [notices, h] at hm
  cases hm

theorem tells_pure (a : α) : (pure a : Run Fault α).Tells allowed := tells_of_events_eq_nil rfl

theorem tells_note {notice : Notice} (h : allowed notice) :
    (note notice : Run Fault Unit).Tells allowed := by
  intro other hm
  rw [List.mem_singleton.1 hm]
  exact h

theorem Tells.map (h : run.Tells allowed) (f : α → β) : (f <$> run).Tells allowed := by
  rw [map_eq_pure_bind]
  exact h.bind fun a => tells_pure (f a)

end Run

/-! ## Steps -/

namespace Emission

theorem tells_bind {first : Emission Fault α} {next : α → Emission Fault β}
    (h : first.run.Tells allowed) (hn : ∀ a, (next a).run.Tells allowed) :
    (first >>= next).run.Tells allowed := by
  rw [run_bind]
  exact h.bind hn

theorem tells_ofFragments {run : Run Fault (List String)} (h : run.Tells allowed) :
    (ofFragments run).run.Tells allowed :=
  tells_bind h fun _ => Run.tells_pure ()

theorem tells_forEach {ι : Type} {step : ι → Emission Fault Unit} {items : List ι}
    (h : ∀ item ∈ items, (step item).run.Tells allowed) :
    (forEach step items).run.Tells allowed := by
  induction items with
  | nil => exact Run.tells_pure ()
  | cons item rest ih =>
      obtain ⟨hitem, hrest⟩ := List.forall_mem_cons.1 h
      exact tells_bind hitem fun () => ih hrest

end Emission

/-! ## Generations -/

namespace Generator

variable {g : Generator}

/-- A step tells what its portions do. -/
theorem perform_tells (h : ∀ portion, (g.given portion).Tells allowed) (step : Step) :
    (g.perform step).run.Tells allowed := by
  rw [perform_eq]
  exact Emission.tells_forEach fun portion _ => Emission.tells_ofFragments (h portion)

theorem header_tells (h : ∀ portion, (g.given portion).Tells allowed)
    (functions : List Signature) : (g.header functions).run.Tells allowed := by
  apply Emission.tells_bind (perform_tells h (.headerPreamble _))
  intro
  apply Emission.tells_bind (perform_tells h (.functionDeclarations functions))
  intro
  exact perform_tells h .headerEpilogue

theorem source_tells (h : ∀ portion, (g.given portion).Tells allowed)
    (functions : List Signature) : (g.source functions).run.Tells allowed := by
  apply Emission.tells_bind (perform_tells h (.sourcePreamble _))
  intro
  apply Emission.tells_bind (perform_tells h (.instanceStructure functions))
  intro
  apply Emission.tells_bind (perform_tells h .externDeclarations)
  intro
  apply Emission.tells_bind
    (Emission.tells_forEach fun function _ => perform_tells h (.implementation function))
  intro
  apply Emission.tells_bind (perform_tells h (.verifyFunction functions))
  intro
  apply Emission.tells_bind (perform_tells h .initFunction)
  intro
  exact perform_tells h (.destroyFunction functions)

/-- What a generation tells is its own beginning and end, or comes from a collaborator. -/
theorem generate_tells (h : ∀ portion, (g.given portion).Tells allowed)
    (hbegin : ∀ mock functions, allowed (.generating mock functions))
    (hend : ∀ mock files, allowed (.generated mock files)) (functions : List Signature) :
    (g.generate functions).Tells allowed := by
  apply (Run.tells_note (hbegin _ _)).bind
  intro
  apply ((header_tells h functions).map _).bind
  intro header
  apply ((source_tells h functions).map _).bind
  intro source
  apply (Run.tells_note (hend _ _)).bind
  intro
  exact Run.tells_pure _

/-- Without plugins, and with values of zeros, no collaborator tells anything. -/
theorem given_tells_zeroed (context : Context) (portion : Portion) :
    (given { context } portion).Tells allowed := by
  cases portion <;> exact Run.tells_of_events_eq_nil rfl

end Generator

end MockForge
