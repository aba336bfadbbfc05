import MockForge.Hook
import MockForge.Notice

/-!
# Runs

A run of the generator: what happened, in order, and how it ended. Runs follow one another until
one of them fails, and what happened before a failure stays on record.
-/

namespace MockForge

/-- A value of the settings that a context asks for. -/
inductive Setting where
  | indent
  | symbolPrefix
  | includeBlock
  | frameworkHeader
  deriving DecidableEq, Repr

/-- A call to a collaborator: to the source of the settings, to a plugin for its includes or for a
function, or to the handler of return values. -/
inductive Call where
  | setting (which : Setting)
  | includes (plugin : String)
  | contribution (plugin : String) (hook : Hook) (function : String)
  | returns (function indent : String)
  deriving DecidableEq, Repr

/-- Something that happens in a run. -/
inductive Event where
  | called (call : Call)
  | noted (notice : Notice)
  deriving DecidableEq, Repr

/-- What happened in a run, and its result or its fault. -/
structure Run (ε α : Type) where
  events : List Event
  outcome : Except ε α

namespace Run

variable {ε α β : Type}

/-- The run in which nothing happens. -/
def ofOutcome (outcome : Except ε α) : Run ε α := ⟨[], outcome⟩

/-- Fails at once. -/
def fail (fault : ε) : Run ε α := ofOutcome (.error fault)

/-- Goes on with the result of a run, unless it failed. -/
def bind (run : Run ε α) (next : α → Run ε β) : Run ε β :=
  match run.outcome with
  | .error fault => ⟨run.events, .error fault⟩
  | .ok a =>
      let rest := next a
      ⟨run.events ++ rest.events, rest.outcome⟩

instance : Monad (Run ε) where
  pure a := ofOutcome (.ok a)
  bind := Run.bind

/-- Tells something. -/
def note (notice : Notice) : Run ε Unit := ⟨[.noted notice], .ok ()⟩

/-- Puts a call on record. -/
def call (call : Call) : Run ε Unit := ⟨[.called call], .ok ()⟩

/-- The calls on record. -/
def calls (run : Run ε α) : List Call :=
  run.events.filterMap fun
    | .called call => some call
    | .noted _ => none

/-- The notices on record. -/
def notices (run : Run ε α) : List Notice :=
  run.events.filterMap fun
    | .called _ => none
    | .noted notice => some notice

/-- Deals with the fault of a run in another run. -/
def recover (run : Run ε α) (handle : ε → Run ε α) : Run ε α :=
  match run.outcome with
  | .error fault =>
      let rest := handle fault
      ⟨run.events ++ rest.events, rest.outcome⟩
  | .ok _ => run

@[simp]
theorem outcome_pure (a : α) : (pure a : Run ε α).outcome = .ok a := rfl

@[simp]
theorem events_pure (a : α) : (pure a : Run ε α).events = [] := rfl

/-- A failed run is the last one. -/
theorem bind_of_error {run : Run ε α} {fault : ε} (h : run.outcome = .error fault)
    (next : α → Run ε β) : run >>= next = ⟨run.events, .error fault⟩ := by
  show run.bind next = _
  simp [bind, h]

/-- A run that succeeds hands on its result. -/
theorem bind_of_ok {run : Run ε α} {a : α} (h : run.outcome = .ok a) (next : α → Run ε β) :
    run >>= next = ⟨run.events ++ (next a).events, (next a).outcome⟩ := by
  show run.bind next = _
  simp [bind, h]

/-- Where the second of two runs succeeds, so does the first. -/
theorem outcome_bind_eq_ok {run : Run ε α} {next : α → Run ε β} {b : β}
    (h : (run >>= next).outcome = .ok b) :
    ∃ a, run.outcome = .ok a ∧ (next a).outcome = .ok b := by
  cases ho : run.outcome with
  | error fault =>
      rw [bind_of_error ho] at h
      cases h
  | ok a =>
      rw [bind_of_ok ho] at h
      exact ⟨a, rfl, h⟩

private theorem id_map_run (run : Run ε α) : id <$> run = run := by
  show run.bind _ = run
  rcases run with ⟨events, outcome | outcome⟩ <;> simp [bind, ofOutcome]

private theorem pure_bind_run (a : α) (f : α → Run ε β) : pure a >>= f = f a := by
  show (ofOutcome (.ok a)).bind f = f a
  simp [bind, ofOutcome]

private theorem bind_assoc_run {γ : Type} (run : Run ε α) (f : α → Run ε β) (g : β → Run ε γ) :
    run >>= f >>= g = run >>= fun a => f a >>= g := by
  show (run.bind f).bind g = run.bind fun a => (f a).bind g
  rcases run with ⟨events, outcome | a⟩
  · simp [bind]
  · rcases hf : f a with ⟨events', outcome' | b⟩ <;> simp [bind, hf]

instance : LawfulMonad (Run ε) :=
  LawfulMonad.mk' _ id_map_run pure_bind_run bind_assoc_run

end Run

end MockForge
