import MockForge.Proofs.Path.Spelling
import MockForge.Writer

/-!
# Where paths lead

In a tree of directories and files a path leads to one location only, whatever is there. A path that
neither starts at the root nor leads up goes down by its names from where it starts. Main statement:
`leadsTo_join`.
-/

namespace MockForge

namespace Path

/-- The name that a component is. -/
def Component.name? : Component → Option String
  | .name text => some text
  | _ => none

/-- The names that a path goes through. -/
def names (p : Path) : List String := p.steps.filterMap Component.name?

/-- A path that only goes down: it does not start at the root, and no piece of it leads up. -/
structure IsDownward (p : Path) : Prop where
  plain : p.spelling.toList.head? ≠ some '/'
  noUp : ['.', '.'] ∉ pieces p.spelling.toList

/-- The path ends in a name, with nothing after it. -/
def IsNamed (p : Path) : Prop :=
  ∃ before last name, pieces p.spelling.toList = before ++ [last] ∧
    Component.ofPiece? last = some (.name name)

theorem IsNamed.join {p q : Path} (h : q.IsNamed) (hq : q.spelling.toList.head? ≠ some '/') :
    (p.join q).IsNamed := by
  obtain ⟨before, last, name, hpieces, hname⟩ := h
  obtain ⟨front, hjoin, -⟩ := pieces_join (p := p) hq
  exact ⟨front ++ before, last, name, by rw [hjoin, hpieces, List.append_assoc], hname⟩

theorem IsNamed.names_ne_nil {p : Path} (h : p.IsNamed)
    (hp : p.spelling.toList.head? ≠ some '/') : p.names ≠ [] := by
  obtain ⟨before, last, name, hpieces, hname⟩ := h
  rw [names, steps_of_plain hp, trail, hpieces, List.filterMap_append, List.filterMap_append]
  simp [hname, Component.name?]

theorem ofPiece?_eq_up_iff {piece : List Char} :
    Component.ofPiece? piece = some .up ↔ piece = ['.', '.'] := by
  constructor
  · intro h
    unfold Component.ofPiece? at h
    split at h
    · cases h
    · split at h
      · assumption
      · cases h
  · rintro rfl
    rfl

theorem ofPiece?_eq_name {piece : List Char} (hi : ¬isIdle piece = true)
    (hup : piece ≠ ['.', '.']) :
    Component.ofPiece? piece = some (.name (String.ofList piece)) := by
  rw [Component.ofPiece?, if_neg hi, if_neg hup]

/-- A path only goes down when it has neither the root nor two dots as a component. -/
theorem isDownward_iff {p : Path} :
    p.IsDownward ↔ .root ∉ p.components ∧ .up ∉ p.components := by
  have hroot : .root ∈ p.components ↔ p.spelling.toList.head? = some '/' := by
    have htrail : Component.root ∉ p.trail := fun h => (trail_ne h).2 rfl
    rw [components_eq, List.mem_append, or_iff_left htrail, parts_fst]
    split
    · simp [Start.component?, *]
    · split <;> simp [Start.component?, *]
  have hup : .up ∈ p.components ↔ ['.', '.'] ∈ pieces p.spelling.toList := by
    have hstart : Component.up ∉ p.parts.1.component?.toList := by
      cases p.parts.1 <;> simp [Start.component?]
    rw [components_eq, List.mem_append, or_iff_right hstart, trail, List.mem_filterMap]
    simp [ofPiece?_eq_up_iff]
  rw [hroot, hup]
  exact ⟨fun h => ⟨h.plain, h.noUp⟩, fun h => ⟨h.1, h.2⟩⟩

theorem IsDownward.steps_eq {p : Path} (h : p.IsDownward) :
    p.steps = p.names.map Component.name := by
  have hname : ∀ component ∈ p.trail, ∃ text, component = .name text := by
    intro component hc
    obtain ⟨piece, hp, hcomponent⟩ := List.mem_filterMap.1 hc
    cases component with
    | name text => exact ⟨text, rfl⟩
    | up => exact absurd (ofPiece?_eq_up_iff.1 hcomponent ▸ hp) h.noUp
    | here => exact absurd rfl (ofPiece?_ne hcomponent).1
    | root => exact absurd rfl (ofPiece?_ne hcomponent).2
  rw [names, steps_of_plain h.plain]
  generalize p.trail = trail at hname
  induction trail with
  | nil => rfl
  | cons component trail ih =>
      obtain ⟨⟨text, rfl⟩, hrest⟩ := List.forall_mem_cons.1 hname
      simpa [Component.name?] using ih hrest

end Path

namespace FileSystem

variable {fs : FileSystem} {p q r above : Path} {place location : Location}

/-! ## Look-ups -/

/-- Where a path leads, as long as nothing stands in the way. -/
def leadsTo (p : Path) : Location := (Path.pieces p.spelling.toList).foldl heading []

theorem walk_eq_foldl {pieces : List (List Char)} (h : fs.walk place pieces = .ok location) :
    location = pieces.foldl heading place := by
  induction pieces generalizing place with
  | nil =>
      cases h
      rfl
  | cons piece pieces ih =>
      simp only [walk, List.foldlM_cons, bind_eq_ok] at h ih
      obtain ⟨next, hstep, hrest⟩ := h
      rw [List.foldl_cons, ← step_eq_ok hstep]
      exact ih hrest

theorem locate_eq_leadsTo (h : fs.locate p = .ok location) : location = leadsTo p := by
  rw [locate, bind_eq_ok] at h
  obtain ⟨pieces, ha, hw⟩ := h
  rw [leadsTo, ← admitted_eq_ok ha]
  exact walk_eq_foldl hw

theorem directory_eq_leadsTo (h : fs.directory p = .ok place) : place = leadsTo p := by
  unfold directory at h
  split at h
  · next hempty =>
    cases h
    rw [leadsTo, hempty]
    rfl
  · simp only [bind_eq_ok, pure, Except.pure, Except.ok.injEq] at h
    obtain ⟨found, hl, ⟨⟩, -, rfl⟩ := h
    exact locate_eq_leadsTo hl

/-- Pieces pass through where the first ones of them lead. -/
theorem foldl_mem_passed (front back : List (List Char)) (place : Location) :
    front.foldl heading place ∈ passed place (front ++ back) := by
  induction front generalizing place with
  | nil => cases back <;> simp [passed]
  | cons piece front ih => exact List.mem_cons_of_mem _ (ih _)

/-! ## Going down -/

theorem foldl_heading_replicate (n : Nat) (place : Location) :
    (List.replicate n []).foldl heading place = place := by
  induction n with
  | zero => rfl
  | succ n ih => exact ih

/-- Pieces of which none leads up go down by their names. -/
theorem foldl_heading {pieces : List (List Char)} (h : ['.', '.'] ∉ pieces) (place : Location) :
    pieces.foldl heading place =
      ((pieces.filterMap Path.Component.ofPiece?).filterMap Path.Component.name?).reverse ++
        place := by
  induction pieces generalizing place with
  | nil => rfl
  | cons piece pieces ih =>
      rw [List.mem_cons, not_or] at h
      rw [List.foldl_cons, ih h.2]
      by_cases hi : Path.isIdle piece = true
      · simp [heading, Path.Component.ofPiece?, hi]
      · simp [heading, Path.Component.ofPiece?, hi, Ne.symm h.1, Path.Component.name?]

/-- A path below another one leads down from there by its names. -/
theorem leadsTo_join (hq : q.IsDownward) : leadsTo (p.join q) = q.names.reverse ++ leadsTo p := by
  obtain ⟨front, hjoin, n, hp⟩ := Path.pieces_join (p := p) hq.plain
  have hnames : q.names = q.trail.filterMap Path.Component.name? := by
    rw [Path.names, Path.steps_of_plain hq.plain]
  rw [leadsTo, leadsTo, hjoin, hp, List.foldl_append, List.foldl_append, foldl_heading_replicate,
    foldl_heading hq.noUp, hnames]
  rfl

/-- Below one base, paths that lead to one location have the same steps. -/
theorem steps_eq_of_locate (hq : q.IsDownward) (hr : r.IsDownward)
    (hlq : fs.locate (p.join q) = .ok location) (hlr : fs.locate (p.join r) = .ok location) :
    q.steps = r.steps := by
  have h := (locate_eq_leadsTo hlq).symm.trans (locate_eq_leadsTo hlr)
  rw [leadsTo_join hq, leadsTo_join hr, List.append_cancel_right_eq, List.reverse_inj] at h
  rw [hq.steps_eq, hr.steps_eq, h]

/-! ## Directories above -/

/-- A path above leads to where some first pieces lead. -/
theorem leadsTo_of_mem_parents (h : above ∈ p.parents) :
    ∃ front back, Path.pieces p.spelling.toList = front ++ back ∧
      leadsTo above = front.foldl heading [] := by
  rcases Path.toList_of_mem_parents h with he | he | ⟨rest, hrest⟩
  · exact ⟨[], _, rfl, by rw [leadsTo, he]; rfl⟩
  · exact ⟨[], _, rfl, by rw [leadsTo, he]; rfl⟩
  · exact ⟨_, Path.pieces rest, by rw [hrest, Path.pieces_append_slash], rfl⟩

/-- The pieces of an assembled path are its body, with idle ones in front. -/
theorem pieces_assemble (start : Path.Start) {body : List (List Char)} (hb : body ≠ [])
    (hs : ∀ piece ∈ body, '/' ∉ piece) :
    ∃ idle, Path.pieces (Path.assemble start body).spelling.toList = idle ++ body ∧
      ∀ piece ∈ idle, Path.isIdle piece = true := by
  have hpieces := Path.pieces_joined hb hs
  rw [Path.assemble_toList hb]
  cases start with
  | plain => exact ⟨[], hpieces, by simp⟩
  | root =>
      refine ⟨[[]], ?_, by simp [Path.isIdle]⟩
      show Path.pieces ([] ++ '/' :: Path.joined body) = _
      rw [Path.pieces_append_slash, hpieces]
      rfl
  | here =>
      refine ⟨[['.']], ?_, by simp [Path.isIdle]⟩
      show Path.pieces (['.'] ++ '/' :: Path.joined body) = _
      rw [Path.pieces_append_slash, hpieces]
      rfl

theorem foldl_heading_of_isIdle {pieces : List (List Char)}
    (h : ∀ piece ∈ pieces, Path.isIdle piece = true) (place : Location) :
    pieces.foldl heading place = place := by
  induction pieces generalizing place with
  | nil => rfl
  | cons piece pieces ih =>
      obtain ⟨hpiece, hpieces⟩ := List.forall_mem_cons.1 h
      rw [List.foldl_cons, show heading place piece = place by
        simp [heading, Path.Component.ofPiece?, hpiece]]
      exact ih hpieces place

theorem leadsTo_assemble (start : Path.Start) {body : List (List Char)} (hb : body ≠ [])
    (hs : ∀ piece ∈ body, '/' ∉ piece) :
    leadsTo (Path.assemble start body) = body.foldl heading [] := by
  obtain ⟨idle, hpieces, hidle⟩ := pieces_assemble start hb hs
  rw [leadsTo, hpieces, List.foldl_append, foldl_heading_of_isIdle hidle]

/-- The first path of a lineage leads to where all pieces lead. -/
theorem leadsTo_of_head?_lineage {start : Path.Start} {pieces : List (List Char)}
    (hs : ∀ piece ∈ pieces, '/' ∉ piece) (h : (Path.lineage start pieces).head? = some above) :
    leadsTo above = pieces.reverse.foldl heading [] := by
  induction pieces with
  | nil => cases start <;> cases h <;> rfl
  | cons piece pieces ih =>
      rw [Path.lineage] at h
      split at h
      · next hi =>
        rw [ih (fun piece hp => hs piece (List.mem_cons_of_mem _ hp)) h, List.reverse_cons,
          List.foldl_append]
        simp [heading, Path.Component.ofPiece?, hi]
      · rw [List.head?_cons, Option.some.injEq] at h
        rw [← h]
        refine leadsTo_assemble start (by simp) fun piece hp => hs piece (List.mem_reverse.1 hp)

/-- What a path starts with stands in pieces that lead nowhere. -/
theorem exists_pieces_eq_parts (p : Path) :
    ∃ idle, Path.pieces p.spelling.toList = idle ++ p.parts.2 ∧
      ∀ piece ∈ idle, Path.isIdle piece = true := by
  unfold Path.parts
  split
  · next piece more hp => exact ⟨[[]], hp, by simp [Path.isIdle]⟩
  · next more hp => exact ⟨[['.']], hp, by simp [Path.isIdle]⟩
  · exact ⟨[], rfl, by simp⟩

theorem exists_lineage_eq_cons (start : Path.Start) (pieces : List (List Char)) :
    ∃ first above, Path.lineage start pieces = first :: above := by
  induction pieces with
  | nil => cases start <;> exact ⟨_, _, rfl⟩
  | cons piece pieces ih =>
      rw [Path.lineage]
      split
      · exact ih
      · exact ⟨_, _, rfl⟩

/-- The name that a path ends in stands in its body, since what comes before the body is idle. -/
theorem exists_parts_of_isNamed (h : p.IsNamed) :
    ∃ idle body last name, Path.pieces p.spelling.toList = idle ++ (body ++ [last]) ∧
      (∀ piece ∈ idle, Path.isIdle piece = true) ∧ p.parts.2 = body ++ [last] ∧
      Path.isIdle last = false ∧ Path.Component.ofPiece? last = some (.name name) := by
  obtain ⟨before, last, name, hpieces, hname⟩ := h
  obtain ⟨idle, hparts, hidle⟩ := exists_pieces_eq_parts p
  have hlast : Path.isIdle last = false := by
    refine Bool.not_eq_true _ ▸ fun hi => ?_
    rw [Path.Component.ofPiece?, if_pos hi] at hname
    cases hname
  suffices hbody : ∃ body, p.parts.2 = body ++ [last] by
    obtain ⟨body, hbody⟩ := hbody
    exact ⟨idle, body, last, name, hbody ▸ hparts, hidle, hbody, hlast, hname⟩
  rcases List.append_eq_append_iff.1 (hpieces.symm.trans hparts) with
    ⟨body, hsplit, hl⟩ | ⟨body, -, hl⟩
  · rcases List.singleton_eq_append_iff.1 hl with ⟨rfl, hp⟩ | ⟨rfl, hp⟩
    · exact ⟨[], hp⟩
    · have := hidle last (by simp [hsplit])
      rw [hlast] at this
      cases this
  · exact ⟨body, hl⟩

/-- The directories above a path that ends in a name are the lineage of what comes before it. -/
theorem parents_of_isNamed (h : p.IsNamed) :
    ∃ (body : List (List Char)) (name : String),
      p.parents = Path.lineage p.parts.1 body.reverse ∧
        body ⊆ Path.pieces p.spelling.toList ∧ leadsTo p = name :: body.foldl heading [] := by
  obtain ⟨idle, body, last, name, hpieces, hidle, hbody, hlast, hname⟩ :=
    exists_parts_of_isNamed h
  refine ⟨body, String.ofList last, ?_, ?_, ?_⟩
  · rw [Path.parents, hbody, List.reverse_append, List.reverse_singleton, List.singleton_append,
      Path.lineage, if_neg (by simp [hlast]), List.tail_cons]
  · rw [hpieces]
    exact List.Subset.trans (List.subset_append_left _ _) (List.subset_append_right _ _)
  · rw [leadsTo, hpieces, List.foldl_append, List.foldl_append, foldl_heading_of_isIdle hidle,
      List.foldl_cons, List.foldl_nil, heading, hname]

theorem exists_parents_eq_cons (h : p.IsNamed) : ∃ above, p.parents = Writer.parent p :: above := by
  obtain ⟨body, name, hparents, -, -⟩ := parents_of_isNamed h
  obtain ⟨first, above, hlineage⟩ := exists_lineage_eq_cons p.parts.1 body.reverse
  rw [Writer.parent, Writer.surroundings, hparents, hlineage]
  exact ⟨above, rfl⟩

/-- The directory of what a path names is the one around it. -/
theorem leadsTo_parent (h : p.IsNamed) :
    ∃ name, leadsTo p = name :: leadsTo (Writer.parent p) := by
  obtain ⟨body, name, hparents, hbody, hleads⟩ := parents_of_isNamed h
  obtain ⟨above, hcons⟩ := exists_parents_eq_cons h
  have hslash : ∀ piece ∈ body.reverse, '/' ∉ piece := fun piece hp =>
    Path.notMem_of_mem_pieces (hbody (List.mem_reverse.1 hp))
  have hfirst : leadsTo (Writer.parent p) = body.reverse.reverse.foldl heading [] :=
    leadsTo_of_head?_lineage hslash (by rw [← hparents, hcons, List.head?_cons])
  rw [List.reverse_reverse] at hfirst
  exact ⟨name, by rw [hfirst, hleads]⟩

/-- What is named does not lie around itself. -/
theorem not_leadsTo_suffix_tail (h : p.IsNamed) : ¬leadsTo p <:+ (leadsTo p).tail := by
  obtain ⟨name, hleads⟩ := leadsTo_parent h
  intro hs
  have hlen := hs.length_le
  rw [hleads, List.tail_cons, List.length_cons] at hlen
  omega

/-! ## Below a directory -/

/-- The location is below the one that a path leads to. -/
def IsBelow (p : Path) (b : Location) : Prop :=
  ∃ name place, b = name :: place ∧ leadsTo p <:+ place

/-- What lies in the directory of a path below another one is below that one. -/
theorem isBelow_parent_join (hq : q.IsDownward) (hn : q.IsNamed) (name : String) :
    IsBelow p (name :: leadsTo (Writer.parent (p.join q))) := by
  refine ⟨name, _, rfl, ?_⟩
  obtain ⟨first, hparent⟩ := leadsTo_parent (hn.join (p := p) hq.plain)
  obtain ⟨last, rest, hnames⟩ := List.exists_cons_of_ne_nil
    (mt List.reverse_eq_nil_iff.1 (hn.names_ne_nil hq.plain))
  rw [leadsTo_join hq, hnames, List.cons_append, List.cons.injEq] at hparent
  rw [← hparent.2]
  exact List.suffix_append _ _

theorem isBelow_join (hq : q.IsDownward) (hn : q.IsNamed) : IsBelow p (leadsTo (p.join q)) := by
  obtain ⟨name, hparent⟩ := leadsTo_parent (hn.join (p := p) hq.plain)
  rw [hparent]
  exact isBelow_parent_join hq hn name

/-- A directory above a path below another one is below that one as well, or it is on the way
there. -/
theorem isBelow_or_mem_passages (hq : q.IsDownward) (h : above ∈ (p.join q).parents) :
    IsBelow p (leadsTo above) ∨ leadsTo above ∈ passages p := by
  obtain ⟨front, back, hsplit, habove⟩ := leadsTo_of_mem_parents h
  obtain ⟨shared, hjoin, n, hp⟩ := Path.pieces_join (p := p) hq.plain
  rw [habove, passages, hp]
  rcases List.append_eq_append_iff.1 (hsplit.symm.trans hjoin) with
    ⟨rest, rfl, -⟩ | ⟨body, rfl, hbody⟩
  · rw [List.append_assoc]
    exact .inr (foldl_mem_passed _ _ _)
  · have hup : ['.', '.'] ∉ body := fun hm => hq.noUp (by rw [hbody]; simp [hm])
    have hbase : leadsTo p = shared.foldl heading [] := by
      rw [leadsTo, hp, List.foldl_append, foldl_heading_replicate]
    rw [List.foldl_append, foldl_heading hup]
    cases ((body.filterMap Path.Component.ofPiece?).filterMap Path.Component.name?).reverse with
    | nil => exact .inr (foldl_mem_passed _ _ _)
    | cons name names => exact .inl ⟨name, _, rfl, hbase ▸ List.suffix_append _ _⟩

end FileSystem

end MockForge
