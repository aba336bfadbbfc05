import MockForge.Failure

/-!
# Which link decides

A failure tells its links from the outside inward, and its exit code is decided by one of them: by a
fault of writing wherever it stands, and otherwise by the outermost fault. Texts never decide. Main
statement: `precedence_of_links`.
-/

namespace MockForge

/-- The fault is the outermost of the links that are faults, faults of writing apart. -/
def IsOutermost (links : List Link) (cause : Fault) : Prop :=
  ∃ outer inner, links = outer ++ .fault cause :: inner ∧ ∀ other, .fault other ∉ outer

namespace Link

variable {links : List Link} {cause other : Fault}

theorem fault?_eq_some_iff {link : Link} : link.fault? = some cause ↔ link = .fault cause := by
  cases link <;> simp [fault?]

theorem any_isWrite_iff : links.any isWrite = true ↔ ∃ cause, .write cause ∈ links := by
  rw [List.any_eq_true]
  constructor
  · rintro ⟨link, hlink, hw⟩
    cases link with
    | write cause => exact ⟨cause, hlink⟩
    | text message | fault cause => cases hw
  · rintro ⟨cause, hcause⟩
    exact ⟨_, hcause, rfl⟩

/-- Looking for the first fault from the outside finds the outermost one. -/
theorem findSome?_fault?_eq_some_iff :
    links.findSome? fault? = some cause ↔ IsOutermost links cause := by
  rw [List.findSome?_eq_some_iff]
  constructor
  · rintro ⟨outer, link, inner, rfl, hlink, houter⟩
    rw [fault?_eq_some_iff] at hlink
    subst hlink
    exact ⟨outer, inner, rfl, fun other hmem => by cases houter _ hmem⟩
  · rintro ⟨outer, inner, rfl, houter⟩
    refine ⟨outer, .fault cause, inner, rfl, rfl, fun link hlink => ?_⟩
    cases hf : link.fault? with
    | none => rfl
    | some other =>
        rw [fault?_eq_some_iff] at hf
        exact absurd (hf ▸ hlink) (houter other)

/-- Links that hold neither kind of fault are texts. -/
theorem forall_text_iff : (∀ link ∈ links, ∃ message, link = .text message) ↔
    (∀ cause, .write cause ∉ links) ∧ ∀ cause, .fault cause ∉ links := by
  constructor
  · intro h
    refine ⟨fun cause hmem => ?_, fun cause hmem => ?_⟩
    · obtain ⟨message, he⟩ := h _ hmem
      cases he
    · obtain ⟨message, he⟩ := h _ hmem
      cases he
  · rintro ⟨hwrite, hfault⟩ link hlink
    cases link with
    | text message => exact ⟨message, rfl⟩
    | fault cause => exact absurd hlink (hfault cause)
    | write cause => exact absurd hlink (hwrite cause)

end Link

/-- There is but one outermost fault. -/
theorem IsOutermost.unique {links : List Link} {cause other : Fault} (h : IsOutermost links cause)
    (h' : IsOutermost links other) : cause = other := by
  rw [← Link.findSome?_fault?_eq_some_iff] at h h'
  rw [h] at h'
  exact Option.some.inj h'

/-- What is said of the outermost fault is said of the one that is known to be it. -/
theorem IsOutermost.exists_and_iff {links : List Link} {cause : Fault} {p : Fault → Prop}
    (h : IsOutermost links cause) : (∃ other, IsOutermost links other ∧ p other) ↔ p cause :=
  ⟨fun ⟨_, ho, hp⟩ => h.unique ho ▸ hp, fun hp => ⟨cause, h, hp⟩⟩

theorem IsOutermost.mem {links : List Link} {cause : Fault} (h : IsOutermost links cause) :
    .fault cause ∈ links := by
  obtain ⟨outer, inner, rfl, -⟩ := h
  simp

namespace Failure

variable {failure : Failure}

/-- The exit code that a fault asks for where no fault of writing is told. -/
def codeOf (cause : Fault) : ExitCode := if cause.isPlugin then .generationError else .invalidInput

theorem isPlugin_iff {cause : Fault} : cause.isPlugin = true ↔
    ∃ plugin hook message, cause = .plugin plugin hook message := by
  cases cause <;> simp [Fault.isPlugin]

theorem exitCode_of_write (h : ∃ cause, .write cause ∈ failure.links) :
    failure.exitCode = .generationError :=
  if_pos (Link.any_isWrite_iff.2 h)

theorem exitCode_of_isOutermost {cause : Fault} (hw : ∀ cause, .write cause ∉ failure.links)
    (h : IsOutermost failure.links cause) : failure.exitCode = codeOf cause := by
  have hany : ¬failure.links.any Link.isWrite = true := by rwa [Link.any_isWrite_iff, not_exists]
  rw [exitCode, if_neg hany, Link.findSome?_fault?_eq_some_iff.2 h]
  rfl

theorem exitCode_of_texts (h : ∀ link ∈ failure.links, ∃ message, link = .text message) :
    failure.exitCode = .error := by
  obtain ⟨hw, hf⟩ := Link.forall_text_iff.1 h
  have hany : ¬failure.links.any Link.isWrite = true := by rwa [Link.any_isWrite_iff, not_exists]
  have hnone : failure.links.findSome? Link.fault? = none := by
    refine Option.eq_none_iff_forall_ne_some.2 fun cause hs => ?_
    obtain ⟨outer, inner, hsplit, -⟩ := Link.findSome?_fault?_eq_some_iff.1 hs
    exact hf cause (by simp [hsplit])
  rw [exitCode, if_neg hany, hnone]

/-- A fault of writing is told, or a fault is the outermost one, or there are only texts. -/
theorem links_cases (failure : Failure) :
    (∃ cause, .write cause ∈ failure.links) ∨
      (∀ cause, .write cause ∉ failure.links) ∧ (∃ cause, IsOutermost failure.links cause) ∨
      ∀ link ∈ failure.links, ∃ message, link = .text message := by
  by_cases hw : ∃ cause, .write cause ∈ failure.links
  · exact .inl hw
  · rw [not_exists] at hw
    cases hs : failure.links.findSome? Link.fault? with
    | some cause => exact .inr (.inl ⟨hw, cause, Link.findSome?_fault?_eq_some_iff.1 hs⟩)
    | none =>
        refine .inr (.inr (Link.forall_text_iff.2 ⟨hw, fun cause hmem => ?_⟩))
        cases List.findSome?_eq_none_iff.1 hs _ hmem

/-! ## Each exit code -/

theorem exitCode_eq_generationError_iff : failure.exitCode = .generationError ↔
    (∃ cause, .write cause ∈ failure.links) ∨
      ∃ cause, IsOutermost failure.links cause ∧ cause.isPlugin = true := by
  rcases links_cases failure with hw | ⟨hw, cause, hc⟩ | ht
  · simp [exitCode_of_write hw, hw]
  · rw [exitCode_of_isOutermost hw hc, or_iff_right (not_exists.2 hw), hc.exists_and_iff, codeOf]
    cases cause.isPlugin <;> simp
  · obtain ⟨hw, hf⟩ := Link.forall_text_iff.1 ht
    simp only [exitCode_of_texts ht, reduceCtorEq, false_iff, not_or, not_exists, not_and]
    exact ⟨hw, fun cause hc => absurd hc.mem (hf cause)⟩

theorem exitCode_eq_invalidInput_iff : failure.exitCode = .invalidInput ↔
    (∀ cause, .write cause ∉ failure.links) ∧
      ∃ cause, IsOutermost failure.links cause ∧ cause.isPlugin = false := by
  rcases links_cases failure with hw | ⟨hw, cause, hc⟩ | ht
  · obtain ⟨cause, hcause⟩ := hw
    simp only [exitCode_of_write ⟨cause, hcause⟩, reduceCtorEq, false_iff, not_and]
    exact fun hn => absurd hcause (hn cause)
  · rw [exitCode_of_isOutermost hw hc, and_iff_right hw, hc.exists_and_iff, codeOf]
    cases cause.isPlugin <;> simp
  · obtain ⟨hw, hf⟩ := Link.forall_text_iff.1 ht
    simp only [exitCode_of_texts ht, reduceCtorEq, false_iff, not_and, not_exists]
    exact fun _ cause hc => absurd hc.mem (hf cause)

theorem exitCode_eq_error_iff : failure.exitCode = .error ↔
    ∀ link ∈ failure.links, ∃ message, link = .text message := by
  refine ⟨fun h => ?_, exitCode_of_texts⟩
  rcases links_cases failure with hw | ⟨hw, cause, hc⟩ | ht
  · rw [exitCode_of_write hw] at h
    cases h
  · rw [exitCode_of_isOutermost hw hc, codeOf] at h
    split at h <;> cases h
  · exact ht

theorem exitCode_ne_success (failure : Failure) : failure.exitCode ≠ .success := by
  rcases links_cases failure with hw | ⟨hw, cause, hc⟩ | ht
  · simp [exitCode_of_write hw]
  · rw [exitCode_of_isOutermost hw hc, codeOf]
    split <;> simp
  · simp [exitCode_of_texts ht]

/-! ## Texts -/

/-- The second list is the first one with texts put in, any number of them and anywhere. -/
inductive Padded : List Link → List Link → Prop where
  | nil : Padded [] []
  | keep {links padded} (link) : Padded links padded → Padded (link :: links) (link :: padded)
  | text {links padded} (message) : Padded links padded → Padded links (.text message :: padded)

/-- Texts among the contexts leave the exit code as it is. -/
theorem Padded.exitCode_eq {contexts padded : List Link} (h : Padded contexts padded)
    (cause : Link) : exitCode ⟨padded, cause⟩ = exitCode ⟨contexts, cause⟩ := by
  have hlinks : (links ⟨padded, cause⟩).any Link.isWrite =
        (links ⟨contexts, cause⟩).any Link.isWrite ∧
      (links ⟨padded, cause⟩).findSome? Link.fault? =
        (links ⟨contexts, cause⟩).findSome? Link.fault? := by
    simp only [links]
    induction h with
    | nil => exact ⟨rfl, rfl⟩
    | keep link _ ih => simp [List.findSome?_cons, ih]
    | text message _ ih => simp [List.findSome?_cons, Link.isWrite, Link.fault?, ih]
  rw [exitCode, exitCode, hlinks.1, hlinks.2]

/-! ## All failures -/

/-- The exit code of a failure is that of a generation when one of its links is a fault of writing,
wherever it stands; otherwise the outermost fault decides, a failed plugin for that of a generation
and any other fault for that of an invalid input; and with texts alone it is that of an error. It is
never that of success, texts put in or left out anywhere do not change it, and a fault of writing
put around a failure decides. -/
theorem precedence_of_links (failure : Failure) :
    (failure.exitCode = .generationError ↔
      (∃ cause, .write cause ∈ failure.links) ∨
        ∃ plugin hook message, IsOutermost failure.links (.plugin plugin hook message)) ∧
    (failure.exitCode = .invalidInput ↔
      (∀ cause, .write cause ∉ failure.links) ∧
        ∃ cause, IsOutermost failure.links cause ∧
          ∀ plugin hook message, cause ≠ .plugin plugin hook message) ∧
    (failure.exitCode = .error ↔ ∀ link ∈ failure.links, ∃ message, link = .text message) ∧
    failure.exitCode ≠ .success ∧
    (∀ other : Failure, other.cause = failure.cause →
      Padded failure.contexts other.contexts ∨ Padded other.contexts failure.contexts →
      other.exitCode = failure.exitCode) ∧
    ∀ cause, (failure.within (.write cause)).exitCode = .generationError := by
  refine ⟨?_, ?_, exitCode_eq_error_iff, exitCode_ne_success failure, ?_, fun cause => ?_⟩
  · rw [exitCode_eq_generationError_iff]
    refine or_congr_right ⟨?_, ?_⟩
    · rintro ⟨cause, hc, hp⟩
      obtain ⟨plugin, hook, message, rfl⟩ := isPlugin_iff.1 hp
      exact ⟨plugin, hook, message, hc⟩
    · rintro ⟨plugin, hook, message, hc⟩
      exact ⟨_, hc, rfl⟩
  · rw [exitCode_eq_invalidInput_iff]
    simp only [← Bool.not_eq_true, isPlugin_iff, not_exists]
  · rintro ⟨contexts, cause⟩ rfl (h | h)
    · exact h.exitCode_eq _
    · exact (h.exitCode_eq _).symm
  · exact exitCode_of_write ⟨cause, by simp [within, links]⟩

end Failure

end MockForge
