import MockForge.Proofs.Json.Reading
import MockForge.Signature
import Mathlib.Tactic.MkIffOfInductiveProp

/-!
# What a signature is read from

A signature that is read from an object is described by the values of its seven fields: neither the
order of the members nor what else the object holds has a part in it. The proof follows the draft,
each of whose slots takes the values of one key.
-/

namespace MockForge.Signature

open Json (Spelling Literal Member Item ObjectDocument ListDocument)

/-! ## The entries of an object -/

/-- The keys of the fields, in their order. -/
def keys : List String :=
  ["name", "rettype", "modifier", "attributes", "args_string", "args", "var_arg"]

/-- The keys of the fields that may be `null`. -/
def optionalKeys : List String := ["modifier", "attributes", "var_arg"]

/-- Keys and values, in the order in which they stand. -/
abbrev Entries : Type := List (String × Spelling)

theorem optionalKeys_subset : optionalKeys ⊆ keys := by simp [optionalKeys, keys]

/-- The members of an object: their keys, with the escapes resolved, and their values. -/
def entries (members : List (Member Spelling)) : Entries :=
  members.filterMap fun member => member.key.text?.map (·, member.item.value)

/-- The entries of the seven fields. -/
def known (entries : Entries) : Entries :=
  entries.filter (·.1 ∈ keys)

/-- The value is `null`. -/
def isNull : Spelling → Bool
  | .null => true
  | _ => false

/-- The entries of the seven fields without those that say that there is no value. -/
def told (entries : Entries) : Entries :=
  (known entries).filter fun entry => ¬(entry.1 ∈ optionalKeys ∧ isNull entry.2)

/-- The values under a key. -/
def valuesAt (entries : Entries) (key : String) : List Spelling :=
  (entries.filter (·.1 = key)).map (·.2)

/-- No key is given twice, the first two fields are texts, and every other field that is given has
the form it must have. -/
structure Fits (entries : Entries) : Prop where
  once : ∀ key ∈ keys, (valuesAt entries key).length ≤ 1
  name : ∃ value ∈ valuesAt entries "name", value.IsText
  returnType : ∃ value ∈ valuesAt entries "rettype", value.IsText
  options : ∀ key ∈ optionalKeys, ∀ value ∈ valuesAt entries key, value.IsText ∨ value = .null
  argsText : ∀ value ∈ valuesAt entries "args_string", value.IsText
  args : ∀ value ∈ valuesAt entries "args", value.IsTextList

/-! ## Drafts -/

namespace Draft

/-- What a field makes of a value. -/
def put (key : String) (draft : Draft) (value : Spelling) : Option Draft :=
  match key with
  | "name" => value.text?.map fun v => { draft with name := some v }
  | "rettype" => value.text?.map fun v => { draft with returnType := some v }
  | "modifier" => value.optionalText?.map fun v => { draft with modifier := some v }
  | "attributes" => value.optionalText?.map fun v => { draft with attributes := some v }
  | "args_string" => value.text?.map fun v => { draft with argsText := some v }
  | "args" => (value.list? Spelling.text?).map fun v => { draft with args := some v }
  | "var_arg" => value.optionalText?.map fun v => { draft with variadic := some v }
  | _ => none

theorem viewedBy_put : record.ViewedBy put := by
  intro field hfield draft
  simp only [record, List.mem_cons, List.not_mem_nil, or_false] at hfield
  rcases hfield with rfl | rfl | rfl | rfl | rfl | rfl | rfl <;> dsimp only
  · exact Json.views_text.map _
  · exact Json.views_text.map _
  · exact Json.views_optionalText.map _
  · exact Json.views_optionalText.map _
  · exact Json.views_text.map _
  · exact (Json.views_list Json.views_text).map _
  · exact Json.views_optionalText.map _

end Draft

/-- Values come to a slot one after the other. Each can be read, and none comes to a full slot. -/
inductive Settles {α : Type} (read : Spelling → Option α) :
    Option α → List Spelling → Option α → Prop
  | done (slot) : Settles read slot [] slot
  | next {value a rest after} : read value = some a → Settles read (some a) rest after →
      Settles read none (value :: rest) after

namespace Settles

variable {α : Type} {read : Spelling → Option α} {slot after : Option α} {values : List Spelling}

@[simp]
theorem nil_iff : Settles read slot [] after ↔ slot = after := by
  constructor
  · intro h
    cases h
    rfl
  · intro h
    rw [h]
    exact .done after

@[simp]
theorem cons_iff {value : Spelling} : Settles read slot (value :: values) after ↔
    slot = none ∧ ∃ a, read value = some a ∧ Settles read (some a) values after := by
  constructor
  · intro h
    cases h with
    | next hread hrest => exact ⟨rfl, _, hread, hrest⟩
  · intro h
    obtain ⟨rfl, a, hread, hrest⟩ := h
    exact .next hread hrest

theorem append_iff {more : List Spelling} : Settles read slot (values ++ more) after ↔
    ∃ middle, Settles read slot values middle ∧ Settles read middle more after := by
  induction values generalizing slot with
  | nil => simp
  | cons value values ih =>
      simp only [List.cons_append, cons_iff, ih]
      grind

/-- What comes to an empty slot is at most one value, which can be read. -/
theorem none_iff : Settles read none values after ↔
    values.length ≤ 1 ∧ (∀ value ∈ values, (read value).isSome) ∧
      after = values.head?.bind read := by
  cases values with
  | nil => simpa using eq_comm
  | cons value values =>
      cases values with
      | nil =>
          cases hread : read value with
          | none => simp [hread]
          | some a => simpa [hread] using eq_comm
      | cons next values => simp

end Settles

/-- The values of every key come to the slot of its field. -/
@[mk_iff]
structure Filled (before : Draft) (entries : Entries) (after : Draft) : Prop where
  name : Settles Spelling.text? before.name (valuesAt entries "name") after.name
  returnType : Settles Spelling.text? before.returnType (valuesAt entries "rettype")
    after.returnType
  modifier : Settles Spelling.optionalText? before.modifier (valuesAt entries "modifier")
    after.modifier
  attributes : Settles Spelling.optionalText? before.attributes (valuesAt entries "attributes")
    after.attributes
  argsText : Settles Spelling.text? before.argsText (valuesAt entries "args_string") after.argsText
  args : Settles (Spelling.list? Spelling.text?) before.args (valuesAt entries "args") after.args
  variadic : Settles Spelling.optionalText? before.variadic (valuesAt entries "var_arg")
    after.variadic

/-- One entry goes to the slot of its key, and the others stay as they are. -/
theorem take_iff (entry : String × Spelling) (before after : Draft) :
    record.take Draft.put before entry = some after ↔ Filled before [entry] after := by
  rw [filled_iff]
  obtain ⟨key, value⟩ := entry
  cases before
  cases after
  by_cases hkey : key ∈ keys
  · simp only [keys, List.mem_cons, List.not_mem_nil, or_false] at hkey
    rcases hkey with rfl | rfl | rfl | rfl | rfl | rfl | rfl <;>
      simp [Json.Record.take, record, Draft.put, valuesAt] <;> grind
  · have htake : record.fields.find? (·.key = key) = none := by
      refine List.find?_eq_none.2 fun field hfield h => hkey ?_
      rw [← of_decide_eq_true h]
      exact List.mem_map_of_mem hfield
    simp only [keys, List.mem_cons, List.not_mem_nil, or_false, not_or] at hkey
    simp [Json.Record.take, htake, valuesAt, hkey]

theorem valuesAt_cons (entry : String × Spelling) (es : Entries) (key : String) :
    valuesAt (entry :: es) key = valuesAt [entry] key ++ valuesAt es key := by
  rw [valuesAt, valuesAt, valuesAt, ← List.map_append, ← List.filter_append]
  rfl

theorem Filled.cons_iff (entry : String × Spelling) (es : Entries) (before after : Draft) :
    Filled before (entry :: es) after ↔
      ∃ middle, Filled before [entry] middle ∧ Filled middle es after := by
  simp only [filled_iff, valuesAt_cons entry es, Settles.append_iff]
  -- The draft in the middle has in each slot what its first values leave there.
  constructor
  · intro h
    obtain ⟨⟨m₁, h₁, r₁⟩, ⟨m₂, h₂, r₂⟩, ⟨m₃, h₃, r₃⟩, ⟨m₄, h₄, r₄⟩, ⟨m₅, h₅, r₅⟩, ⟨m₆, h₆, r₆⟩,
      ⟨m₇, h₇, r₇⟩⟩ := h
    exact ⟨⟨m₁, m₂, m₃, m₄, m₅, m₆, m₇⟩, ⟨h₁, h₂, h₃, h₄, h₅, h₆, h₇⟩,
      ⟨r₁, r₂, r₃, r₄, r₅, r₆, r₇⟩⟩
  · intro h
    obtain ⟨middle, ⟨h₁, h₂, h₃, h₄, h₅, h₆, h₇⟩, ⟨r₁, r₂, r₃, r₄, r₅, r₆, r₇⟩⟩ := h
    exact ⟨⟨_, h₁, r₁⟩, ⟨_, h₂, r₂⟩, ⟨_, h₃, r₃⟩, ⟨_, h₄, r₄⟩, ⟨_, h₅, r₅⟩, ⟨_, h₆, r₆⟩,
      ⟨_, h₇, r₇⟩⟩

/-- What is put into a draft goes to seven slots, each of which takes the values of its key. -/
theorem foldlM_take_iff (es : Entries) (before after : Draft) :
    es.foldlM (record.take Draft.put) before = some after ↔ Filled before es after := by
  induction es generalizing before with
  | nil =>
      rw [filled_iff]
      cases before
      cases after
      simp [valuesAt]
  | cons entry es ih =>
      rw [Filled.cons_iff, List.foldlM_cons, Option.bind_eq_bind, Option.bind_eq_some_iff]
      simp only [take_iff, ih]

/-! ## What is read -/

/-- The text under a key. There is none if nothing stands there, nor if `null` does. -/
def textAt (entries : Entries) (key : String) : Option String :=
  (valuesAt entries key).head?.bind Spelling.text?

/-- The signature that entries describe. -/
def described (entries : Entries) : Signature where
  name := (textAt entries "name").getD ""
  returnType := (textAt entries "rettype").getD ""
  modifier := textAt entries "modifier"
  attributes := textAt entries "attributes"
  parameters := .classify ((textAt entries "args_string").getD "")
    (((valuesAt entries "args").head?.bind (Spelling.list? Spelling.text?)).getD [])
  variadic := textAt entries "var_arg"

/-- The draft that entries leave. -/
def draftOf (entries : Entries) : Draft where
  name := textAt entries "name"
  returnType := textAt entries "rettype"
  modifier := (valuesAt entries "modifier").head?.bind Spelling.optionalText?
  attributes := (valuesAt entries "attributes").head?.bind Spelling.optionalText?
  argsText := textAt entries "args_string"
  args := (valuesAt entries "args").head?.bind (Spelling.list? Spelling.text?)
  variadic := (valuesAt entries "var_arg").head?.bind Spelling.optionalText?

/-- The surrogate escapes in the values of the seven fields are paired. -/
def ValuesPaired (entries : Entries) : Prop :=
  ∀ entry ∈ known entries, entry.2.IsPaired

theorem mem_valuesAt {es : Entries} {key : String} {value : Spelling} :
    value ∈ valuesAt es key ↔ (key, value) ∈ es := by
  simp [valuesAt]

theorem ValuesPaired.isPaired {es : Entries} (h : ValuesPaired es) {key : String}
    {value : Spelling} (hkey : key ∈ keys) (hvalue : value ∈ valuesAt es key) : value.IsPaired :=
  h (key, value) (List.mem_filter.2 ⟨mem_valuesAt.1 hvalue, decide_eq_true hkey⟩)

section Entries

variable {es : Entries} {key : String} (h : ValuesPaired es) (hkey : key ∈ keys)

include h hkey

theorem forall_text_iff : (∀ value ∈ valuesAt es key, value.text?.isSome) ↔
    ∀ value ∈ valuesAt es key, value.IsText :=
  forall₂_congr fun _ hvalue => Spelling.text?_isSome_iff (h.isPaired hkey hvalue).text

theorem forall_optionalText_iff : (∀ value ∈ valuesAt es key, value.optionalText?.isSome) ↔
    ∀ value ∈ valuesAt es key, value.IsText ∨ value = .null :=
  forall₂_congr fun _ hvalue => Spelling.optionalText?_isSome_iff (h.isPaired hkey hvalue)

theorem forall_textList_iff :
    (∀ value ∈ valuesAt es key, (value.list? Spelling.text?).isSome) ↔
      ∀ value ∈ valuesAt es key, value.IsTextList :=
  forall₂_congr fun _ hvalue => Spelling.textList?_isSome_iff (h.isPaired hkey hvalue)

/-- A field that must be there is there when a text is read. -/
theorem exists_isText_iff (hlength : (valuesAt es key).length ≤ 1) :
    (∀ value ∈ valuesAt es key, value.text?.isSome) ∧ (textAt es key).isSome ↔
      ∃ value ∈ valuesAt es key, value.IsText := by
  rw [forall_text_iff h hkey, textAt]
  cases hvalues : valuesAt es key with
  | nil => simp
  | cons value rest =>
      have hpaired := h.isPaired hkey (hvalues ▸ List.mem_cons_self)
      have hrest : rest = [] := by simpa [hvalues] using hlength
      simp [hrest, Spelling.text?_isSome_iff hpaired.text]

end Entries

theorem Filled.eq_draftOf {es : Entries} {draft : Draft} (h : Filled {} es draft) :
    draft = draftOf es := by
  simp only [filled_iff, Settles.none_iff] at h
  cases draft
  obtain ⟨⟨-, -, rfl⟩, ⟨-, -, rfl⟩, ⟨-, -, rfl⟩, ⟨-, -, rfl⟩, ⟨-, -, rfl⟩, ⟨-, -, rfl⟩,
    ⟨-, -, rfl⟩⟩ := h
  rfl

/-- The slots are filled, those that must be too, when the entries fit. -/
theorem filled_blank_iff {es : Entries} (h : ValuesPaired es) :
    Filled {} es (draftOf es) ∧ (textAt es "name").isSome ∧ (textAt es "rettype").isSome ↔
      Fits es := by
  have hname : "name" ∈ keys := by simp [keys]
  have htype : "rettype" ∈ keys := by simp [keys]
  have hmodifier : "modifier" ∈ keys := by simp [keys]
  have hattributes : "attributes" ∈ keys := by simp [keys]
  have hargsText : "args_string" ∈ keys := by simp [keys]
  have hargs : "args" ∈ keys := by simp [keys]
  have hvariadic : "var_arg" ∈ keys := by simp [keys]
  simp only [filled_iff, Settles.none_iff]
  constructor
  · intro hfilled
    obtain ⟨⟨⟨l₁, r₁, -⟩, ⟨l₂, r₂, -⟩, ⟨l₃, r₃, -⟩, ⟨l₄, r₄, -⟩, ⟨l₅, r₅, -⟩, ⟨l₆, r₆, -⟩,
      ⟨l₇, r₇, -⟩⟩, hsome, hsome'⟩ := hfilled
    refine ⟨by simp [keys, *], (exists_isText_iff h hname l₁).1 ⟨r₁, hsome⟩,
      (exists_isText_iff h htype l₂).1 ⟨r₂, hsome'⟩, ?_, (forall_text_iff h hargsText).1 r₅,
      (forall_textList_iff h hargs).1 r₆⟩
    intro key hkey
    simp only [optionalKeys, List.mem_cons, List.not_mem_nil, or_false] at hkey
    rcases hkey with rfl | rfl | rfl
    · exact (forall_optionalText_iff h hmodifier).1 r₃
    · exact (forall_optionalText_iff h hattributes).1 r₄
    · exact (forall_optionalText_iff h hvariadic).1 r₇
  · intro hfits
    have hoption (key : String) (hkey : key ∈ keys) (hoptional : key ∈ optionalKeys) :=
      (forall_optionalText_iff h hkey).2 (hfits.options key hoptional)
    obtain ⟨r₁, hsome⟩ := (exists_isText_iff h hname (hfits.once _ hname)).2 hfits.name
    obtain ⟨r₂, hsome'⟩ := (exists_isText_iff h htype (hfits.once _ htype)).2 hfits.returnType
    exact ⟨⟨⟨hfits.once _ hname, r₁, rfl⟩, ⟨hfits.once _ htype, r₂, rfl⟩,
      ⟨hfits.once _ hmodifier, hoption _ hmodifier (by simp [optionalKeys]), rfl⟩,
      ⟨hfits.once _ hattributes, hoption _ hattributes (by simp [optionalKeys]), rfl⟩,
      ⟨hfits.once _ hargsText, (forall_text_iff h hargsText).2 hfits.argsText, rfl⟩,
      ⟨hfits.once _ hargs, (forall_textList_iff h hargs).2 hfits.args, rfl⟩,
      ⟨hfits.once _ hvariadic, hoption _ hvariadic (by simp [optionalKeys]), rfl⟩⟩, hsome, hsome'⟩

/-! ## Objects -/

/-- The surrogate escapes are paired in the keys of an object and in the values of the seven
fields. -/
structure IsPaired (o : ObjectDocument) : Prop where
  keys : ∀ member ∈ o.members, member.key.text?.isSome
  values : ValuesPaired (entries o.members)

theorem takeAll_eq (members : List (Member Spelling))
    (h : ∀ member ∈ members, member.key.text?.isSome) (draft : Draft) :
    record.takeAll Draft.put draft members =
      (entries members).foldlM (record.take Draft.put) draft := by
  induction members generalizing draft with
  | nil => rfl
  | cons member rest ih =>
      obtain ⟨hmember, hrest⟩ := List.forall_mem_cons.1 h
      obtain ⟨key, hkey⟩ := Option.isSome_iff_exists.1 hmember
      have hentries : entries (member :: rest) = (key, member.item.value) :: entries rest := by
        simp [entries, hkey]
      rw [Json.Record.takeAll_cons, hentries, hkey, List.foldlM_cons, Option.bind_some]
      exact Option.bind_congr fun middle _ => ih hrest middle

theorem optional_join (es : Entries) (key : String) :
    ((valuesAt es key).head?.bind Spelling.optionalText?).join = textAt es key := by
  rw [textAt]
  cases (valuesAt es key).head? with
  | none => rfl
  | some value => exact value.optionalText?_join

theorem finish_draftOf {es : Entries} {f : Signature} :
    (draftOf es).finish = .ok f ↔
      ((textAt es "name").isSome ∧ (textAt es "rettype").isSome) ∧ f = described es := by
  have hname : (draftOf es).name = textAt es "name" := rfl
  have htype : (draftOf es).returnType = textAt es "rettype" := rfl
  rw [Draft.finish, hname, htype]
  cases hn : textAt es "name" with
  | none => simp
  | some name =>
      cases ht : textAt es "rettype" with
      | none => simp
      | some returnType =>
          have hoptional := optional_join es
          simp [draftOf, described, hn, ht, hoptional, eq_comm]

/-- A signature is read from an object whose entries fit, and it is the one they describe. -/
theorem ofJson_object (o : ObjectDocument) (h : IsPaired o) (f : Signature) :
    ofJson o.text = .ok f ↔ Fits (entries o.members) ∧ f = described (entries o.members) := by
  have hread : ofJson o.text = .ok f ↔
      ∃ draft, Filled {} (entries o.members) draft ∧ draft.finish = .ok f := by
    rw [← Json.toOption_eq_some_iff, ofJson, reader, o.document_toOption Draft.viewedBy_put,
      takeAll_eq _ h.keys, Option.bind_eq_some_iff]
    exact exists_congr fun draft => and_congr (foldlM_take_iff _ _ _) Json.toOption_eq_some_iff
  have hdraft : (∃ draft, Filled {} (entries o.members) draft ∧ draft.finish = .ok f) ↔
      Filled {} (entries o.members) (draftOf (entries o.members)) ∧
        (draftOf (entries o.members)).finish = .ok f := by
    constructor
    · intro hfilled
      obtain ⟨draft, hfilled, hfinish⟩ := hfilled
      cases hfilled.eq_draftOf
      exact ⟨hfilled, hfinish⟩
    · exact fun hfilled => ⟨_, hfilled⟩
  rw [hread, hdraft, finish_draftOf, ← and_assoc, filled_blank_iff h.values]

/-! ## Lists -/

/-- The value under a key, or the one that stands for it when there is none. -/
def valueOr (default : Spelling) (entries : Entries) (key : String) : Spelling :=
  (valuesAt entries key).head?.getD default

/-- The values of the seven fields in their order. For those that need not be there and are not
stand `null`, the empty text and the empty list. -/
def inOrder (entries : Entries) : List Spelling :=
  valuesAt entries "name" ++ valuesAt entries "rettype" ++
    [valueOr .null entries "modifier", valueOr .null entries "attributes",
      valueOr (.text ⟨[]⟩) entries "args_string", valueOr (.list [] {}) entries "args",
      valueOr .null entries "var_arg"]

theorem read_valueOr {α : Type} (read : Spelling → Option α) {es : Entries}
    {key : String} {default : Spelling} {a : α} (hdefault : read default = some a)
    (hread : ∀ value ∈ valuesAt es key, (read value).isSome) :
    read (valueOr default es key) = some (((valuesAt es key).head?.bind read).getD a) := by
  rw [valueOr]
  cases hvalues : valuesAt es key with
  | nil => exact hdefault
  | cons value rest =>
      obtain ⟨b, hb⟩ := Option.isSome_iff_exists.1 (hread value (by simp [hvalues]))
      simp [hb]

theorem Fits.valuesAt_eq {es : Entries} (h : Fits es) {key : String}
    (hkey : key ∈ keys) (hsome : (textAt es key).isSome) :
    ∃ value, valuesAt es key = [value] ∧ value.text? = some ((textAt es key).getD "") := by
  have hlength := h.once key hkey
  rw [textAt] at hsome ⊢
  cases hvalues : valuesAt es key with
  | nil => simp [hvalues] at hsome
  | cons value rest =>
      have hrest : rest = [] := by simpa [hvalues] using hlength
      rw [hvalues, List.head?_cons, Option.bind_some] at hsome
      obtain ⟨text, ht⟩ := Option.isSome_iff_exists.1 hsome
      exact ⟨value, by rw [hrest], by simp [ht]⟩

theorem ofJson_list (l : ListDocument) {es : Entries} (h : ValuesPaired es)
    (hfits : Fits es) (hl : l.items.map (·.value) = inOrder es) :
    ofJson l.text = .ok (described es) := by
  -- What fits in an object can be read field by field; so can what stands for the absent fields.
  obtain ⟨hfilled, hname, htype⟩ := (filled_blank_iff h).2 hfits
  simp only [filled_iff, Settles.none_iff] at hfilled
  obtain ⟨-, -, ⟨-, r₃, -⟩, ⟨-, r₄, -⟩, ⟨-, r₅, -⟩, ⟨-, r₆, -⟩, ⟨-, r₇, -⟩⟩ := hfilled
  have hkeys : "name" ∈ keys ∧ "rettype" ∈ keys := by simp [keys]
  obtain ⟨name, hn, hn'⟩ := hfits.valuesAt_eq hkeys.1 hname
  obtain ⟨returnType, ht, ht'⟩ := hfits.valuesAt_eq hkeys.2 htype
  have hnull : Spelling.null.optionalText? = some none := rfl
  have hempty : (Spelling.text ⟨[]⟩).text? = some "" := rfl
  have hnothing : (Spelling.list [] {}).list? Spelling.text? = some [] := rfl
  have hmodifier := read_valueOr Spelling.optionalText? hnull r₃
  have hattributes := read_valueOr Spelling.optionalText? hnull r₄
  have hargsText : (valueOr (.text ⟨[]⟩) es "args_string").text? =
      some ((textAt es "args_string").getD "") := read_valueOr Spelling.text? hempty r₅
  have hargs := read_valueOr (Spelling.list? Spelling.text?) hnothing r₆
  have hvariadic := read_valueOr Spelling.optionalText? hnull r₇
  have hjoin (x : Option (Option String)) : x.getD none = x.join := by cases x <;> rfl
  -- Here every slot is filled, and a slot filled with `null` makes the same as an empty one.
  have hdraft : Json.Record.takeInOrder Draft.put record.blank record.fields (inOrder es) =
      some {
        name := some ((textAt es "name").getD "")
        returnType := some ((textAt es "rettype").getD "")
        modifier := some (textAt es "modifier")
        attributes := some (textAt es "attributes")
        argsText := some ((textAt es "args_string").getD "")
        args := some (((valuesAt es "args").head?.bind (Spelling.list? Spelling.text?)).getD [])
        variadic := some (textAt es "var_arg") } := by
    simp [Json.Record.takeInOrder, record, Draft.put, inOrder, hn, ht, hn', ht', hmodifier,
      hattributes, hargsText, hargs, hvariadic, hjoin, optional_join]
  have hlength : record.fields.length = l.items.length := by
    rw [← List.length_map Item.value, hl, inOrder, hn, ht]
    rfl
  rw [← Json.toOption_eq_some_iff, ofJson, reader,
    l.document_toOption Draft.viewedBy_put hlength, hl, hdraft]
  rfl

/-! ## Orders, other members, and options without a value -/

section Same

variable {es es' : Entries} {key : String}

theorem valuesAt_known (hkey : key ∈ keys) : valuesAt (known es) key = valuesAt es key := by
  rw [valuesAt, valuesAt, known, List.filter_filter]
  congr 1
  refine List.filter_congr fun entry _ => ?_
  by_cases hentry : entry.1 = key <;> simp [hentry, hkey]

theorem valuesAt_told (hkey : key ∈ keys) : valuesAt (told es) key =
    (valuesAt es key).filter fun value => ¬(key ∈ optionalKeys ∧ isNull value) := by
  rw [valuesAt, valuesAt, told, known, List.filter_map, List.filter_filter, List.filter_filter,
    List.filter_filter]
  congr 1
  refine List.filter_congr fun entry _ => ?_
  by_cases hentry : entry.1 = key <;> simp [hentry, hkey]

theorem valuesAt_told_of_not_optional (hkey : key ∈ keys) (h : key ∉ optionalKeys) :
    valuesAt (told es) key = valuesAt es key := by
  rw [valuesAt_told hkey]
  exact List.filter_eq_self.2 fun value _ => by simp [h]

theorem textAt_told (hkey : key ∈ keys) (h : (valuesAt es key).length ≤ 1) :
    textAt (told es) key = textAt es key := by
  rw [textAt, textAt, valuesAt_told hkey]
  cases hvalues : valuesAt es key with
  | nil => rfl
  | cons value rest =>
      have hrest : rest = [] := by simpa [hvalues] using h
      cases value <;> simp [hrest, isNull, Spelling.text?]

/-- Of at most one value there is but one order. -/
theorem valuesAt_eq_of_perm (h : es'.Perm es) (hlength : (valuesAt es key).length ≤ 1) :
    valuesAt es' key = valuesAt es key := by
  have hperm : (valuesAt es' key).Perm (valuesAt es key) := (h.filter _).map _
  cases hvalues : valuesAt es key with
  | nil =>
      rw [hvalues] at hperm
      exact hperm.eq_nil
  | cons value rest =>
      have hrest : rest = [] := by simpa [hvalues] using hlength
      rw [hvalues, hrest] at hperm
      rw [hrest, List.perm_singleton.1 hperm]

theorem Fits.congr (h : Fits es) (hvalues : ∀ key ∈ keys, valuesAt es' key = valuesAt es key) :
    Fits es' where
  once key hkey := by
    rw [hvalues key hkey]
    exact h.once key hkey
  name := by
    rw [hvalues "name" (by simp [keys])]
    exact h.name
  returnType := by
    rw [hvalues "rettype" (by simp [keys])]
    exact h.returnType
  options key hkey := by
    rw [hvalues key (optionalKeys_subset hkey)]
    exact h.options key hkey
  argsText := by
    rw [hvalues "args_string" (by simp [keys])]
    exact h.argsText
  args := by
    rw [hvalues "args" (by simp [keys])]
    exact h.args

theorem described_congr (htext : ∀ key ∈ keys, textAt es' key = textAt es key)
    (hargs : valuesAt es' "args" = valuesAt es "args") : described es' = described es := by
  simp only [keys, List.forall_mem_cons] at htext
  simp [described, htext, hargs]

/-- The entries of the seven fields decide, in whatever order they stand. -/
theorem known_perm (h : (known es').Perm (known es)) (hfits : Fits es) :
    Fits es' ∧ described es' = described es := by
  have hvalues (key : String) (hkey : key ∈ keys) : valuesAt es' key = valuesAt es key := by
    have hlength : (valuesAt (known es) key).length ≤ 1 := by
      rw [valuesAt_known hkey]
      exact hfits.once key hkey
    calc valuesAt es' key
      _ = valuesAt (known es') key := (valuesAt_known hkey).symm
      _ = valuesAt (known es) key := valuesAt_eq_of_perm h hlength
      _ = valuesAt es key := valuesAt_known hkey
  have htext (key : String) (hkey : key ∈ keys) : textAt es' key = textAt es key := by
    rw [textAt, textAt, hvalues key hkey]
  exact ⟨hfits.congr hvalues, described_congr htext (hvalues "args" (by simp [keys]))⟩

/-- A `null` is the same as nothing. -/
theorem told_perm (h : (told es').Perm (told es)) (hfits : Fits es) (hfits' : Fits es') :
    described es' = described es := by
  have hvalues (key : String) (hkey : key ∈ keys) :
      valuesAt (told es') key = valuesAt (told es) key := by
    refine valuesAt_eq_of_perm h ?_
    rw [valuesAt_told hkey]
    exact Nat.le_trans (List.length_filter_le _ _) (hfits.once key hkey)
  apply described_congr
  · intro key hkey
    rw [← textAt_told hkey (hfits'.once key hkey), ← textAt_told hkey (hfits.once key hkey), textAt,
      textAt, hvalues key hkey]
  · have hargs : "args" ∈ keys := by simp [keys]
    have hrequired : "args" ∉ optionalKeys := by simp [optionalKeys]
    rw [← valuesAt_told_of_not_optional hargs hrequired, hvalues "args" hargs,
      valuesAt_told_of_not_optional hargs hrequired]

end Same

/-- Whether a signature can be read from an object depends on the values of the seven fields alone:
none is given twice, the name and the returned type are texts, and the others, if they are there,
have their forms. What is read is the same for every order of the members, for all other members,
for `null` and for nothing, and for the list of the seven values. -/
theorem decoding_depends_on_fields (o : ObjectDocument) (h : IsPaired o) :
    ((∃ f, ofJson o.text = .ok f) ↔ Fits (entries o.members)) ∧
      ∀ f, ofJson o.text = .ok f →
        (∀ o' : ObjectDocument, IsPaired o' →
          (known (entries o'.members)).Perm (known (entries o.members)) →
            ofJson o'.text = .ok f) ∧
        (∀ o' : ObjectDocument, IsPaired o' → Fits (entries o'.members) →
          (told (entries o'.members)).Perm (told (entries o.members)) →
            ofJson o'.text = .ok f) ∧
        ∀ l : ListDocument, l.items.map Item.value = inOrder (entries o.members) →
          ofJson l.text = .ok f := by
  refine ⟨?_, fun f hf => ?_⟩
  · simp [ofJson_object o h]
  · obtain ⟨hfits, rfl⟩ := (ofJson_object o h f).1 hf
    refine ⟨fun o' h' hperm => ?_, fun o' h' hfits' hperm => ?_,
      fun l hl => ofJson_list l h.values hfits hl⟩
    · obtain ⟨hfits', hsame⟩ := known_perm hperm hfits
      exact (ofJson_object o' h' _).2 ⟨hfits', hsame.symm⟩
    · exact (ofJson_object o' h' _).2 ⟨hfits', (told_perm hperm hfits hfits').symm⟩

/-- The member of a key and a value that stand without blanks and escapes. -/
def memberOf (key : Literal) (value : Spelling) : Member Spelling where
  key := key
  item := { value := value }

/-- A value with half a surrogate pair inside of it. -/
def nested : Spelling :=
  .list
    [{ before := { chars := ['\n'] }
       value := .text ⟨[.unit { char := 'd', value := 13 } { char := '8', value := 8 }
        { char := '0', value := 0 } { char := '0', value := 0 }]⟩ },
     { value := .object [memberOf (.plain "k".toList) (.boolean true)] {} }] {}

/-- The key `name` with its first letter escaped. -/
def escapedName : Literal :=
  ⟨.unit { char := '0', value := 0 } { char := '0', value := 0 } { char := '6', value := 6 }
    { char := 'E', value := 14 } :: (Literal.plain "ame".toList).pieces⟩

/-- An object with a member of another key between those of three fields. -/
def crowded : ObjectDocument where
  members :=
    [memberOf (.plain "rettype".toList) (.text (.plain "int".toList)),
      memberOf (.plain "extra".toList) nested, memberOf (.plain "modifier".toList) .null,
      memberOf escapedName (.text (.plain "f".toList))]

/-- The fields of `crowded` that have a value, with blanks. -/
def bare : ObjectDocument where
  before := { chars := ['\n'] }
  members :=
    [memberOf (.plain "name".toList) (.text (.plain "f".toList)),
      memberOf (.plain "rettype".toList) (.text (.plain "int".toList))]
  inside := { chars := [' '] }

/-- The list of the values of `crowded`. -/
def listed : ListDocument where
  items := (inOrder (entries crowded.members)).map fun value => { value := value }

/-- However its members are turned around, thinned out or listed, the same signature is read. -/
theorem crowded_as_bare : ∃ f, ofJson crowded.text = .ok f ∧
    ofJson { crowded with members := crowded.members.reverse }.text = .ok f ∧
      ofJson bare.text = .ok f ∧ ofJson listed.text = .ok f := by
  let name : Spelling := .text (.plain "f".toList)
  let returnType : Spelling := .text (.plain "int".toList)
  have hname : name.IsPaired := Spelling.isPaired_text rfl
  have hreturnType : returnType.IsPaired := Spelling.isPaired_text rfl
  have hnull : Spelling.null.IsPaired := fun literal h => by cases h
  have hcrowded : entries crowded.members =
      [("rettype", returnType), ("extra", nested), ("modifier", .null), ("name", name)] := rfl
  have hbare : entries bare.members = [("name", name), ("rettype", returnType)] := rfl
  have hkeys : crowded.members.all (·.key.text?.isSome) = true := by decide
  have hkeys' : bare.members.all (·.key.text?.isSome) = true := by decide
  have hpaired : IsPaired crowded := by
    refine ⟨List.all_eq_true.1 hkeys, ?_⟩
    rw [hcrowded]
    simp [ValuesPaired, known, keys, hname, hreturnType, hnull]
  have hpaired' : IsPaired bare := by
    refine ⟨List.all_eq_true.1 hkeys', ?_⟩
    rw [hbare]
    simp [ValuesPaired, known, keys, hname, hreturnType]
  have hturned : (known (entries crowded.members.reverse)).Perm (known (entries crowded.members)) :=
    ((List.reverse_perm _).filterMap _).filter _
  have hpaired'' : IsPaired { crowded with members := crowded.members.reverse } :=
    ⟨fun m hm => hpaired.keys m (List.mem_reverse.1 hm),
      fun e he => hpaired.values e (hturned.mem_iff.1 he)⟩
  have hfits : Fits (entries crowded.members) := by
    rw [hcrowded]
    constructor <;> simp [valuesAt, keys, optionalKeys, Spelling.IsText, name, returnType]
  have hfits' : Fits (entries bare.members) := by
    rw [hbare]
    constructor <;> simp [valuesAt, keys, optionalKeys, Spelling.IsText, name, returnType]
  have htold : (told (entries bare.members)).Perm (told (entries crowded.members)) := by
    rw [hcrowded, hbare]
    simpa [told, known, keys, optionalKeys, isNull, name, returnType] using List.Perm.swap _ _ _
  obtain ⟨f, hf⟩ := (decoding_depends_on_fields crowded hpaired).1.2 hfits
  obtain ⟨horder, hthin, hlist⟩ := (decoding_depends_on_fields crowded hpaired).2 f hf
  exact ⟨f, hf, horder _ hpaired'' hturned, hthin bare hpaired' hfits' htold, hlist listed rfl⟩

end MockForge.Signature
