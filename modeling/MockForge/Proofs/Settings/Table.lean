import Mathlib.Data.List.Nodup
import Mathlib.Data.String.Basic
import MockForge.Proofs.Toml.Document
import MockForge.Settings

/-!
# Settings from a table

The entries of a table are looked at in the order of their keys, but only five keys are known, and
of any other entry it counts only whether its numbers fit a machine number. So a table is read by
five look-ups. Main statements: `ofTable_eq_settle`, `ofTable_eq_error` and `ofTable_of_told`.
-/

namespace MockForge

/-! ## Numbers that fit no machine number -/

namespace Toml

/-- A value is another one or stands somewhere inside it. -/
inductive Value.Inside (inner : Value) : Value → Prop where
  | itself : Inside inner inner
  | item {items : List Value} {item : Value} (hi : item ∈ items) (h : Inside inner item) :
      Inside inner (.list items)
  | entry {entries : Table} {entry : String × Value} (he : entry ∈ entries)
      (h : Inside inner entry.2) : Inside inner (.table entries)

/-- A number that fits no machine number: an integer beyond 128 bits, or a decimal number that no
finite double is near. -/
inductive Value.Oversized : Value → Prop where
  | negative {n : Int} (h : n < -Int.pow 2 127) : Oversized (.integer n)
  | positive {n : Int} (h : Int.pow 2 128 ≤ n) : Oversized (.integer n)
  | decimal {x : DecimalNumber} (h : x.toFloat? = none) : Oversized (.decimal x)

theorem Value.oversized_iff (value : Value) : value.Oversized ↔ value.found.isOk = false := by
  constructor
  · intro h
    cases h with
    | negative h =>
        rw [Value.found, if_neg fun hfits => Int.not_lt.2 hfits.1 h]
        rfl
    | positive h =>
        rw [Value.found, if_neg fun hfits => Int.not_lt.2 h hfits.2]
        rfl
    | decimal h =>
        simp only [Value.found, h]
        rfl
  · intro h
    cases value with
    | integer n =>
        by_cases hl : n < -Int.pow 2 127
        · exact .negative hl
        · by_cases hr : Int.pow 2 128 ≤ n
          · exact .positive hr
          · rw [Value.found, if_pos ⟨Int.not_lt.1 hl, Int.not_le.1 hr⟩] at h
            cases h
    | decimal x =>
        cases hx : x.toFloat? with
        | none => exact .decimal hx
        | some float =>
            simp only [Value.found, hx] at h
            cases h
    | text | boolean | moment | list | table => cases h

/-- Some number in a value fits no machine number. -/
def Value.Overflows (value : Value) : Prop := ∃ inner : Value, inner.Inside value ∧ inner.Oversized

theorem Value.overflows_list {items : List Value} :
    (Value.list items).Overflows ↔ ∃ item ∈ items, item.Overflows := by
  constructor
  · rintro ⟨inner, _ | ⟨hi, h⟩ | _, ho⟩
    · cases ho
    · exact ⟨_, hi, inner, h, ho⟩
  · rintro ⟨item, hi, inner, h, ho⟩
    exact ⟨inner, .item hi h, ho⟩

theorem Value.overflows_table {entries : Table} :
    (Value.table entries).Overflows ↔ ∃ entry ∈ entries, entry.2.Overflows := by
  constructor
  · rintro ⟨inner, _ | _ | ⟨he, h⟩, ho⟩
    · cases ho
    · exact ⟨_, he, inner, h, ho⟩
  · rintro ⟨entry, he, inner, h, ho⟩
    exact ⟨inner, .entry he h, ho⟩

end Toml

namespace Settings

open Toml (Table Value)

mutual

/-- Values are in range just when no number in them is too big. -/
theorem inRange_iff : ∀ value : Value, inRange value = true ↔ ¬value.Overflows
  | .list items => by
      rw [inRange, itemsInRange_iff, Value.overflows_list]
      simp only [not_exists, not_and]
  | .table entries => by
      rw [inRange, entriesInRange_iff, Value.overflows_table]
      simp only [not_exists, not_and]
  | .text _ | .integer _ | .decimal _ | .boolean _ | .moment => by
      rw [inRange, ← Bool.not_eq_false, ← Value.oversized_iff, not_iff_not]
      · constructor
        · exact fun h => ⟨_, .itself, h⟩
        · rintro ⟨inner, _ | _ | _, h⟩
          exact h
      all_goals simp

theorem itemsInRange_iff : ∀ items : List Value,
    itemsInRange items = true ↔ ∀ item ∈ items, ¬item.Overflows
  | [] => by simp [itemsInRange]
  | item :: rest => by
      rw [itemsInRange, Bool.and_eq_true, inRange_iff item, itemsInRange_iff rest,
        List.forall_mem_cons]

theorem entriesInRange_iff : ∀ entries : Table,
    entriesInRange entries = true ↔ ∀ entry ∈ entries, ¬entry.2.Overflows
  | [] => by simp [entriesInRange]
  | (key, value) :: rest => by
      rw [entriesInRange, Bool.and_eq_true, inRange_iff value, entriesInRange_iff rest,
        List.forall_mem_cons]

end

/-! ## Entries in the order of their keys -/

variable {table : Table} {entry : String × Value}

/-- The entries of a table in the order of their keys. -/
def inOrder (table : Table) : Table := table.foldr insertEntry []

theorem insertEntry_perm (entry : String × Value) (rest : Table) :
    (insertEntry entry rest).Perm (entry :: rest) := by
  induction rest with
  | nil => exact .refl _
  | cons next rest ih =>
      rw [insertEntry]
      split
      · exact .refl _
      · exact (ih.cons next).trans (.swap entry next rest)

theorem inOrder_perm (table : Table) : (inOrder table).Perm table := by
  induction table with
  | nil => exact .refl _
  | cons entry rest ih => exact (insertEntry_perm entry (inOrder rest)).trans (ih.cons entry)

/-- Each entry has a smaller key than those after it. -/
def Ascending (table : Table) : Prop := table.Pairwise fun a b => a.1 < b.1

theorem insertEntry_ascending {rest : Table} (h : Ascending rest)
    (hk : entry.1 ∉ rest.map Prod.fst) : Ascending (insertEntry entry rest) := by
  induction rest with
  | nil => exact List.pairwise_singleton _ _
  | cons next rest ih =>
      obtain ⟨hnext, hrest⟩ := List.pairwise_cons.1 h
      rw [List.map_cons, List.mem_cons, not_or] at hk
      rw [insertEntry]
      split
      · next hlt =>
        refine List.pairwise_cons.2 ⟨fun other hm => ?_, h⟩
        rcases List.mem_cons.1 hm with rfl | hm
        · exact hlt
        · exact hlt.trans (hnext other hm)
      · next hlt =>
        refine List.pairwise_cons.2 ⟨fun other hm => ?_, ih hrest hk.2⟩
        rcases List.mem_cons.1 ((insertEntry_perm entry rest).mem_iff.1 hm) with rfl | hm
        · exact lt_of_le_of_ne (le_of_not_gt hlt) (Ne.symm hk.1)
        · exact hnext other hm

theorem inOrder_ascending (hd : Toml.Distinct table) : Ascending (inOrder table) := by
  induction table with
  | nil => exact List.Pairwise.nil
  | cons entry rest ih =>
      obtain ⟨hk, hrest⟩ := List.nodup_cons.1 hd
      refine insertEntry_ascending (ih hrest) fun hm => hk ?_
      exact ((inOrder_perm rest).map Prod.fst).mem_iff.1 hm

/-- Tables in order with the same entries are the same. -/
theorem Ascending.eq_of_mem_iff {other : Table} (h : Ascending table) (ho : Ascending other)
    (hm : ∀ entry, entry ∈ table ↔ entry ∈ other) : table = other := by
  have hnodup {entries : Table} (he : Ascending entries) : entries.Nodup := by
    refine he.imp ?_
    rintro entry _ hlt rfl
    exact lt_irrefl _ hlt
  exact List.Perm.eq_of_pairwise (fun _ _ _ _ hab hba => absurd hba hab.asymm) h ho
    ((List.perm_ext_iff_of_nodup (hnodup h) (hnodup ho)).2 hm)

/-! ## Known keys -/

/-- The keys that settings come under, in order. -/
def knownKeys : List String := ["framework_header", "includes", "mock_path", "mock_prefix", "tab"]

/-- Takes in what a table has under a key, if it has anything there. -/
def settle (table : Table) (settings : Settings) (key : String) : Except Toml.Fault Settings :=
  match table.lookup key with
  | some value => take settings (key, value)
  | none => .ok settings

/-- The entries of a table under known keys, in the order of the keys. -/
def told (table : Table) (keys : List String) : Table :=
  keys.filterMap fun key => (table.lookup key).map (key, ·)

theorem told_ascending {keys : List String} (h : keys.Pairwise (· < ·)) :
    Ascending (told table keys) := by
  refine List.pairwise_filterMap.2 (h.imp fun hlt entry he other ho => ?_)
  obtain ⟨value, -, rfl⟩ := Option.map_eq_some_iff.1 he
  obtain ⟨value', -, rfl⟩ := Option.map_eq_some_iff.1 ho
  exact hlt

theorem mem_told (hd : Toml.Distinct table) {keys : List String} :
    entry ∈ told table keys ↔ entry ∈ table ∧ entry.1 ∈ keys := by
  obtain ⟨key, value⟩ := entry
  simp only [told, List.mem_filterMap, Option.map_eq_some_iff, Toml.lookup_eq_some_iff hd]
  constructor
  · rintro ⟨_, hk, _, hv, ⟨⟩⟩
    exact ⟨hv, hk⟩
  · rintro ⟨hv, hk⟩
    exact ⟨key, hk, value, hv, rfl⟩

theorem filter_inOrder (hd : Toml.Distinct table) :
    (inOrder table).filter (fun entry => decide (entry.1 ∈ knownKeys)) = told table knownKeys := by
  refine Ascending.eq_of_mem_iff ((inOrder_ascending hd).filter _)
    (told_ascending (by decide +kernel)) fun entry => ?_
  rw [List.mem_filter, (inOrder_perm table).mem_iff, mem_told hd, decide_eq_true_iff]

theorem foldlM_told (table : Table) (keys : List String) (settings : Settings) :
    (told table keys).foldlM take settings = keys.foldlM (settle table) settings := by
  induction keys generalizing settings with
  | nil => rfl
  | cons key rest ih =>
      rw [List.foldlM_cons, settle, told, List.filterMap_cons]
      cases table.lookup key with
      | none => exact ih settings
      | some value =>
          rw [Option.map_some, List.foldlM_cons]
          exact bind_congr fun next => ih next

theorem foldlM_settle_congr {other : Table} {keys : List String}
    (h : ∀ key ∈ keys, table.lookup key = other.lookup key) (settings : Settings) :
    keys.foldlM (settle table) settings = keys.foldlM (settle other) settings := by
  induction keys generalizing settings with
  | nil => rfl
  | cons key rest ih =>
      obtain ⟨hkey, hrest⟩ := List.forall_mem_cons.1 h
      rw [List.foldlM_cons, List.foldlM_cons, settle, settle, hkey]
      exact bind_congr fun next => ih hrest next

/-! ## Unknown keys -/

theorem take_unknown (settings : Settings) (h : entry.1 ∉ knownKeys) :
    take settings entry = if inRange entry.2 then .ok settings else .error .outOfRange := by
  obtain ⟨key, value⟩ := entry
  unfold take
  split <;> simp_all [knownKeys]

/-- Some number under an unknown key fits no machine number. -/
def Overflowing (table : Table) : Prop :=
  ∃ entry ∈ table, entry.1 ∉ knownKeys ∧ entry.2.Overflows

theorem overflowing_iff : Overflowing table ↔
    ∃ entry ∈ table, entry.1 ∉ knownKeys ∧ inRange entry.2 = false := by
  simp only [Overflowing, ← Bool.not_eq_true, inRange_iff, not_not]

instance (table : Table) : Decidable (Overflowing table) :=
  decidable_of_iff _ overflowing_iff.symm

theorem foldlM_take_filter {entries : Table} (h : ¬Overflowing entries) (settings : Settings) :
    entries.foldlM take settings =
      (entries.filter fun entry => decide (entry.1 ∈ knownKeys)).foldlM take settings := by
  induction entries generalizing settings with
  | nil => rfl
  | cons entry rest ih =>
      have hrest : ¬Overflowing rest := fun ⟨other, hm, ho⟩ =>
        h ⟨other, List.mem_cons_of_mem _ hm, ho⟩
      by_cases hk : entry.1 ∈ knownKeys
      · rw [List.filter_cons_of_pos (by simpa using hk), List.foldlM_cons, List.foldlM_cons]
        exact bind_congr fun next => ih hrest next
      · have hv : inRange entry.2 = true := (inRange_iff _).2 fun hv =>
          h ⟨entry, List.mem_cons_self, hk, hv⟩
        rw [List.filter_cons_of_neg (by simpa using hk), List.foldlM_cons, take_unknown _ hk,
          if_pos hv]
        exact ih hrest settings

/-- Where the numbers under unknown keys fit, a table is read by five look-ups. -/
theorem ofTable_eq_settle (hd : Toml.Distinct table) (h : ¬Overflowing table) :
    ofTable table = knownKeys.foldlM (settle table) {} := by
  have ho : ¬Overflowing (inOrder table) := fun ⟨entry, hm, he⟩ =>
    h ⟨entry, (inOrder_perm table).mem_iff.1 hm, he⟩
  calc ofTable table = (inOrder table).foldlM take {} := rfl
    _ = (told table knownKeys).foldlM take {} := by
      rw [foldlM_take_filter ho, filter_inOrder hd]
    _ = knownKeys.foldlM (settle table) {} := foldlM_told table knownKeys {}

/-! ## What stands under the known keys -/

/-- A field is what is told under a key, or its default where nothing is. -/
def Holds {α : Type} (table : Table) (key : String) (wrap : α → Value) (default field : α) : Prop :=
  table.lookup key = some (wrap field) ∨ table.lookup key = none ∧ field = default

/-- The settings that a table tells, field by field. -/
structure Told (table : Table) (settings : Settings) : Prop where
  mockPrefix : Holds table "mock_prefix" .text "Mock" settings.mockPrefix
  tab : Holds table "tab" .text "  " settings.tab
  includes : Holds table "includes" (fun texts => .list (texts.map .text)) [] settings.includes
  frameworkHeader : Holds table "framework_header" .text "unity.h" settings.frameworkHeader
  mockPath : Holds table "mock_path" (fun path => .text path.spelling) ⟨"mocks"⟩ settings.mockPath

/-- A value has the form that is asked for under a known key: a list of texts for the headers to
include, a text for all else. -/
def Suits (key : String) (value : Value) : Prop :=
  if key = "includes" then ∃ texts : List String, value = .list (texts.map .text)
  else ∃ text, value = .text text

/-- Some known key has a value of another form than is asked for. -/
def Mistyped (table : Table) : Prop :=
  ∃ key ∈ knownKeys, ∃ value, table.lookup key = some value ∧ ¬Suits key value

theorem expectText_eq_ok {expected text : String} {value : Value} :
    expectText expected value = .ok text ↔ value = .text text := by
  cases value <;> simp [expectText]

theorem mapM_expectText_eq_ok {expected : String} {items : List Value} {texts : List String} :
    items.mapM (expectText expected) = .ok texts ↔ items = texts.map .text := by
  induction items generalizing texts with
  | nil => cases texts <;> simp [pure, Except.pure]
  | cons item rest ih =>
      rw [List.mapM_cons]
      simp only [bind_eq_ok, expectText_eq_ok, ih, pure, Except.pure, Except.ok.injEq]
      constructor
      · rintro ⟨text, rfl, others, rfl, rfl⟩
        rfl
      · cases texts with
        | nil => rintro ⟨⟩
        | cons text others =>
            rintro ⟨⟩
            exact ⟨text, rfl, others, rfl, rfl⟩

theorem expectTexts_eq_ok {value : Value} {texts : List String} :
    expectTexts value = .ok texts ↔ value = .list (texts.map .text) := by
  cases value with
  | list items => rw [expectTexts, mapM_expectText_eq_ok, Value.list.injEq]
  | text | integer | decimal | boolean | moment | table => simp [expectTexts]

theorem suits_iff {key : String} (hk : key ∈ knownKeys) {value : Value} (settings : Settings) :
    Suits key value ↔ ∃ after, take settings (key, value) = .ok after := by
  simp only [knownKeys, List.mem_cons, List.not_mem_nil, or_false] at hk
  rcases hk with rfl | rfl | rfl | rfl | rfl <;>
    simp [Suits, take, Toml.map_eq_ok, expectText_eq_ok, expectTexts_eq_ok]

theorem mistyped_iff : Mistyped table ↔ ∃ key ∈ knownKeys, (settle table {} key).isOk = false := by
  refine exists_congr fun key => and_congr_right fun hk => ?_
  unfold settle
  cases table.lookup key with
  | none => simp [Except.isOk, Except.toBool]
  | some value =>
      simp only [Option.some.injEq, exists_eq_left', suits_iff hk {}]
      cases take {} (key, value) <;> simp [Except.isOk, Except.toBool]

instance (table : Table) : Decidable (Mistyped table) := decidable_of_iff _ mistyped_iff.symm

/-- An entry that cannot be taken in is never passed over. -/
theorem foldlM_take_eq_error {entries : Table} (hm : entry ∈ entries)
    (h : ∀ settings after, take settings entry ≠ .ok after) (settings : Settings) :
    ∃ cause, entries.foldlM take settings = .error cause := by
  induction entries generalizing settings with
  | nil => cases hm
  | cons next rest ih =>
      rw [List.foldlM_cons]
      cases ht : take settings next with
      | error cause => exact ⟨cause, rfl⟩
      | ok after =>
          rcases List.mem_cons.1 hm with rfl | hm
          · exact absurd ht (h settings after)
          · exact ih hm after

/-- A value of the wrong form or a number that is too big makes a table unusable. -/
theorem ofTable_eq_error (hd : Toml.Distinct table) (h : Mistyped table ∨ Overflowing table) :
    ∃ cause, ofTable table = .error cause := by
  rcases h with ⟨key, hk, value, hv, hs⟩ | ⟨entry, hm, hk, ho⟩
  · have hm : (key, value) ∈ inOrder table :=
      (inOrder_perm table).mem_iff.2 ((Toml.lookup_eq_some_iff hd).1 hv)
    exact foldlM_take_eq_error hm (fun settings after ht =>
      hs ((suits_iff hk settings).2 ⟨after, ht⟩)) {}
  · refine foldlM_take_eq_error ((inOrder_perm table).mem_iff.2 hm) (fun settings after ht => ?_) {}
    rw [take_unknown settings hk, if_neg ((inRange_iff _).not.2 (not_not.2 ho))] at ht
    cases ht

theorem exists_holds {α : Type} {key : String} {wrap : α → Value} (default : α)
    (h : ∀ value, table.lookup key = some value → ∃ field, value = wrap field) :
    ∃ field, Holds table key wrap default field := by
  cases hl : table.lookup key with
  | none => exact ⟨default, .inr ⟨hl, rfl⟩⟩
  | some value =>
      obtain ⟨field, rfl⟩ := h value hl
      exact ⟨field, .inl hl⟩

/-- A table in which nothing has the wrong form tells settings. -/
theorem exists_told (h : ¬Mistyped table) : ∃ settings, Told table settings := by
  have hs (key : String) (hk : key ∈ knownKeys) (value : Value)
      (hv : table.lookup key = some value) : Suits key value := by
    by_contra hs
    exact h ⟨key, hk, value, hv, hs⟩
  have hpath (value : Value) (hv : table.lookup "mock_path" = some value) :
      ∃ path : Path, value = .text path.spelling := by
    obtain ⟨text, rfl⟩ : ∃ text, value = .text text :=
      hs "mock_path" (by decide) value hv
    exact ⟨⟨text⟩, rfl⟩
  obtain ⟨mockPrefix, hp⟩ := exists_holds "Mock" (hs "mock_prefix" (by decide))
  obtain ⟨tab, ht⟩ := exists_holds "  " (hs "tab" (by decide))
  obtain ⟨includes, hi⟩ := exists_holds [] (hs "includes" (by decide))
  obtain ⟨frameworkHeader, hf⟩ := exists_holds "unity.h" (hs "framework_header" (by decide))
  obtain ⟨mockPath, hm⟩ := exists_holds ⟨"mocks"⟩ hpath
  exact ⟨⟨mockPrefix, tab, includes, frameworkHeader, mockPath⟩, hp, ht, hi, hf, hm⟩

/-- A field that still has its default is settled by what stands under its key. -/
theorem settle_of_holds {α : Type} {key : String} {wrap : α → Value} {default field : α}
    {before after : Settings} (h : Holds table key wrap default field)
    (htake : take before (key, wrap field) = .ok after)
    (hdefault : field = default → before = after) : settle table before key = .ok after := by
  rcases h with h | ⟨h, he⟩
  · rw [settle, h]
    exact htake
  · rw [settle, h, hdefault he]

theorem foldlM_settle_cons {key : String} {keys : List String} {before after : Settings}
    (h : settle table before key = .ok after) :
    (key :: keys).foldlM (settle table) before = keys.foldlM (settle table) after := by
  rw [List.foldlM_cons, h]
  rfl

/-- A table is read as what it tells. -/
theorem ofTable_of_told {settings : Settings} (hd : Toml.Distinct table) (h : ¬Overflowing table)
    (ht : Told table settings) : ofTable table = .ok settings := by
  obtain ⟨mockPrefix, tab, includes, frameworkHeader, mockPath⟩ := settings
  have htexts : expectTexts (.list (includes.map .text)) = .ok includes := expectTexts_eq_ok.2 rfl
  have hheader : settle table {} "framework_header" = .ok { frameworkHeader } :=
    settle_of_holds ht.frameworkHeader (by simp [take, expectText, Except.map]) (by simp_all)
  have hincludes : settle table { frameworkHeader } "includes" =
      .ok { frameworkHeader, includes } :=
    settle_of_holds ht.includes (by simp [take, htexts, Except.map]) (by simp_all)
  have hpath : settle table { frameworkHeader, includes } "mock_path" =
      .ok { frameworkHeader, includes, mockPath } :=
    settle_of_holds ht.mockPath (by simp [take, expectText, Except.map]) (by simp_all)
  have hname : settle table { frameworkHeader, includes, mockPath } "mock_prefix" =
      .ok { frameworkHeader, includes, mockPath, mockPrefix } :=
    settle_of_holds ht.mockPrefix (by simp [take, expectText, Except.map]) (by simp_all)
  have htab : settle table { frameworkHeader, includes, mockPath, mockPrefix } "tab" =
      .ok { frameworkHeader, includes, mockPath, mockPrefix, tab } :=
    settle_of_holds ht.tab (by simp [take, expectText, Except.map]) (by simp_all)
  rw [ofTable_eq_settle hd h, knownKeys, foldlM_settle_cons hheader,
    foldlM_settle_cons hincludes, foldlM_settle_cons hpath, foldlM_settle_cons hname,
    foldlM_settle_cons htab]
  rfl

end Settings

end MockForge
