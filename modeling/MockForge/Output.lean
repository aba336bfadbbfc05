import MockForge.Run

/-!
# Output

Generated text is a sequence of fragments to which fragments are only ever added. An emission is a
step that adds fragments; what it adds does not depend on what is there, and stays when the step
fails.
-/

namespace MockForge

/-- The fragments of a text, in order. -/
structure Output where
  fragments : List String := []
  deriving DecidableEq, Repr

namespace Output

/-- The output with more fragments. -/
def extend (output : Output) (fragments : List String) : Output := ⟨output.fragments ++ fragments⟩

/-- The output with one more fragment. -/
def push (output : Output) (fragment : String) : Output := output.extend [fragment]

/-- The whole text. -/
def render (output : Output) : String := String.join output.fragments

end Output

/-- A step that adds fragments while it runs. -/
structure Emission (ε α : Type) where
  fragments : List String
  run : Run ε α

namespace Emission

variable {ε α β : Type}

/-- Goes on after a step, unless it failed. -/
def bind (first : Emission ε α) (next : α → Emission ε β) : Emission ε β :=
  match first.run.outcome with
  | .error fault => ⟨first.fragments, ⟨first.run.events, .error fault⟩⟩
  | .ok a =>
      let rest := next a
      ⟨first.fragments ++ rest.fragments, ⟨first.run.events ++ rest.run.events, rest.run.outcome⟩⟩

instance : Monad (Emission ε) where
  pure a := ⟨[], pure a⟩
  bind := Emission.bind

@[simp]
theorem run_bind (first : Emission ε α) (next : α → Emission ε β) :
    (first >>= next).run = first.run >>= fun a => (next a).run := by
  rcases first with ⟨fragments, events, fault | a⟩ <;> rfl

/-- A step that succeeds is followed by the fragments of the next one. -/
theorem fragments_bind_of_ok {first : Emission ε α} {a : α} (h : first.run.outcome = .ok a)
    (next : α → Emission ε β) :
    (first >>= next).fragments = first.fragments ++ (next a).fragments := by
  show (first.bind next).fragments = _
  rw [bind, h]

/-- Nothing follows the fragments of a step that fails. -/
theorem fragments_bind_of_error {first : Emission ε α} {fault : ε}
    (h : first.run.outcome = .error fault) (next : α → Emission ε β) :
    (first >>= next).fragments = first.fragments := by
  show (first.bind next).fragments = _
  rw [bind, h]

private theorem id_map_emission (step : Emission ε α) : id <$> step = step := by
  show step.bind _ = step
  rcases step with ⟨fragments, events, fault | a⟩ <;> simp [bind]

private theorem pure_bind_emission (a : α) (f : α → Emission ε β) : pure a >>= f = f a := by
  show (Emission.mk [] (pure a)).bind f = f a
  simp [bind]

private theorem bind_assoc_emission {γ : Type} (step : Emission ε α) (f : α → Emission ε β)
    (g : β → Emission ε γ) : step >>= f >>= g = step >>= fun a => f a >>= g := by
  show (step.bind f).bind g = step.bind fun a => (f a).bind g
  rcases step with ⟨fragments, events, fault | a⟩
  · simp [bind]
  · rcases hf : f a with ⟨fragments', events', fault' | b⟩ <;> simp [bind, hf]

instance : LawfulMonad (Emission ε) :=
  LawfulMonad.mk' _ id_map_emission pure_bind_emission bind_assoc_emission

/-- Adds fragments. -/
def emit (fragments : List String) : Emission ε Unit := ⟨fragments, pure ()⟩

/-- Runs something that adds nothing. -/
def ofRun (run : Run ε α) : Emission ε α := ⟨[], run⟩

/-- Adds the fragments that a run gives, if it gives any. -/
def ofFragments (run : Run ε (List String)) : Emission ε Unit := ofRun run >>= emit

/-- Performs a step for one item after another. -/
def forEach {ι : Type} (step : ι → Emission ε Unit) : List ι → Emission ε Unit
  | [] => pure ()
  | item :: rest => do
      step item
      forEach step rest

/-- The output after a step. -/
def onto (step : Emission ε α) (output : Output) : Output := output.extend step.fragments

/-- All that a step writes, if it does not fail. -/
def output (step : Emission ε Unit) : Run ε Output :=
  (fun () => ⟨step.fragments⟩) <$> step.run

end Emission

end MockForge
