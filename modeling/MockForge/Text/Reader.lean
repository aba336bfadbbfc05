/-!
# Readers

A reader takes a value off the front of a text. A success leaves a shorter text, so a loop that
reads one item after another comes to an end.
-/

namespace MockForge

/-- Takes a value off the front of a text and leaves the rest, or says why it cannot. -/
structure Reader (ε α : Type) where
  run : List Char → Except ε (α × List Char)
  /-- A value is never read from nothing. -/
  shortens : ∀ {s a r}, run s = .ok (a, r) → r.length < s.length

namespace Reader

variable {ε α β : Type}

/-- Reads the same characters and gives another value for them. -/
def map (f : α → β) (reader : Reader ε α) : Reader ε β where
  run s := (reader.run s).map fun (a, r) => (f a, r)
  shortens := by
    intro s b r h
    cases hr : reader.run s with
    | error e => simp [hr, Except.map] at h
    | ok p =>
        obtain ⟨a, r'⟩ := p
        simp only [hr, Except.map, Except.ok.injEq, Prod.mk.injEq] at h
        exact h.2 ▸ reader.shortens hr

end Reader

end MockForge
