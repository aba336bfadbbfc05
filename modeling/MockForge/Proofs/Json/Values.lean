import MockForge.Proofs.Json.RoundTrip

/-!
# All of a value

What holds of a value because it holds of its items and members: one induction for all of it, and
the printers and the sorting as functions of every item and member at once.
-/

namespace MockForge.Json

/-! ## Induction -/

/-- What a list has from its items, and an object from the values of its members, every value
has. -/
@[elab_as_elim]
theorem Value.nested {motive : Value → Prop} (null : motive .null)
    (boolean : ∀ value, motive (.boolean value)) (number : ∀ value, motive (.number value))
    (text : ∀ value, motive (.text value))
    (list : ∀ items, (∀ item ∈ items, motive item) → motive (.list items))
    (object : ∀ members, (∀ member ∈ members, motive member.2) → motive (.object members))
    (value : Value) : motive value :=
  match value with
  | .null => null
  | .boolean value => boolean value
  | .number value => number value
  | .text value => text value
  | .list items =>
      list items fun item _h => item.nested null boolean number text list object
  | .object members =>
      object members fun member _h => member.2.nested null boolean number text list object
termination_by sizeOf value
decreasing_by
  · have := List.sizeOf_lt_of_mem _h
    simp only [Value.list.sizeOf_spec]
    omega
  · have := List.sizeOf_lt_of_mem _h
    obtain ⟨key, value⟩ := member
    simp only [Prod.mk.sizeOf_spec] at this
    simp only [Value.object.sizeOf_spec]
    omega

/-! ## The indented form -/

theorem indentedItems_eq_map (level : Nat) (items : List Value) :
    indentedItems level items = items.map (Value.indented level) := by
  induction items with
  | nil => rfl
  | cons item rest ih => rw [indentedItems, ih, List.map_cons]

theorem indentedMembers_eq_map (level : Nat) (members : List (String × Value)) :
    indentedMembers level members =
      members.map fun member => literal member.1 ++ ':' :: ' ' :: member.2.indented level := by
  induction members with
  | nil => rfl
  | cons member rest ih =>
      obtain ⟨key, value⟩ := member
      rw [indentedMembers, ih, List.map_cons]

/-! ## Sorting -/

/-- In every object the keys are distinct and in order. -/
inductive Value.IsOrdered : Value → Prop
  | null : IsOrdered .null
  | boolean (value : Bool) : IsOrdered (.boolean value)
  | number (value : Int) : IsOrdered (.number value)
  | text (value : String) : IsOrdered (.text value)
  | list {items : List Value} (hitems : ∀ item ∈ items, item.IsOrdered) : IsOrdered (.list items)
  | object {members : List (String × Value)} (hkeys : (members.map Prod.fst).Pairwise (· < ·))
      (hmembers : ∀ member ∈ members, member.2.IsOrdered) : IsOrdered (.object members)

theorem sortedItems_eq_map (items : List Value) : sortedItems items = items.map Value.sorted := by
  induction items with
  | nil => rfl
  | cons item rest ih => rw [sortedItems, ih, List.map_cons]

theorem insertMember_of_lt {member : String × Value} {members : List (String × Value)}
    (h : ∀ key ∈ members.map Prod.fst, member.1 < key) :
    insertMember member members = member :: members := by
  cases members with
  | nil => rfl
  | cons next rest => rw [insertMember, if_pos (h next.1 (by simp))]

theorem sortedMembers_eq_self {members : List (String × Value)}
    (hkeys : (members.map Prod.fst).Pairwise (· < ·))
    (hmembers : ∀ member ∈ members, member.2.sorted = member.2) :
    sortedMembers members = members := by
  induction members with
  | nil => rfl
  | cons member rest ih =>
      obtain ⟨key, value⟩ := member
      obtain ⟨hfirst, hrest⟩ := List.pairwise_cons.1 hkeys
      obtain ⟨hvalue, hothers⟩ := List.forall_mem_cons.1 hmembers
      rw [sortedMembers, ih hrest hothers, hvalue, insertMember_of_lt hfirst]

/-- What is in order already stays as it is. -/
theorem Value.IsOrdered.sorted_eq {value : Value} (h : value.IsOrdered) : value.sorted = value := by
  induction h with
  | list hitems ih =>
      rw [Value.sorted, sortedItems_eq_map, List.map_congr_left ih, List.map_id']
  | object hkeys hmembers ih => rw [Value.sorted, sortedMembers_eq_self hkeys ih]
  | _ => rfl

/-! ## Texts -/

/-- A text or key is somewhere in a value. -/
inductive Value.Holds (s : String) : Value → Prop
  | text : Holds s (.text s)
  | item {items : List Value} {item : Value} (hmem : item ∈ items) (h : Holds s item) :
      Holds s (.list items)
  | key {members : List (String × Value)} {value : Value} (hmem : (s, value) ∈ members) :
      Holds s (.object members)
  | member {members : List (String × Value)} {key : String} {value : Value}
      (hmem : (key, value) ∈ members) (h : Holds s value) : Holds s (.object members)

theorem mem_insertMember {member other : String × Value} {members : List (String × Value)}
    (h : other ∈ insertMember member members) : other = member ∨ other ∈ members := by
  induction members with
  | nil => exact .inl (List.mem_singleton.1 h)
  | cons next rest ih =>
      rw [insertMember] at h
      split at h
      · exact List.mem_cons.1 h
      · rcases List.mem_cons.1 h with rfl | hrest
        · exact .inr (.head rest)
        · exact (ih hrest).imp_right (.tail next)

theorem mem_sortedMembers {member : String × Value} {members : List (String × Value)}
    (h : member ∈ sortedMembers members) :
    ∃ original ∈ members, member = (original.1, original.2.sorted) := by
  induction members with
  | nil => cases h
  | cons next rest ih =>
      obtain ⟨key, value⟩ := next
      rcases mem_insertMember h with rfl | hrest
      · exact ⟨_, .head rest, rfl⟩
      · obtain ⟨original, hmem, heq⟩ := ih hrest
        exact ⟨original, .tail _ hmem, heq⟩

/-- Sorting adds no text. -/
theorem Value.Holds.of_sorted {s : String} {value : Value} (h : value.sorted.Holds s) :
    value.Holds s := by
  induction value using Value.nested with
  | list items ih =>
      rw [sorted, sortedItems_eq_map] at h
      cases h with
      | item hmem h =>
          obtain ⟨item, hitem, rfl⟩ := List.mem_map.1 hmem
          exact .item hitem (ih item hitem h)
  | object members ih =>
      rw [sorted] at h
      cases h with
      | key hmem =>
          obtain ⟨member, hmember, heq⟩ := mem_sortedMembers hmem
          cases heq
          exact .key hmember
      | member hmem h =>
          obtain ⟨member, hmember, heq⟩ := mem_sortedMembers hmem
          cases heq
          exact .member hmember (ih member hmember h)
  | null => exact h
  | boolean value => exact h
  | number value => exact h
  | text value => exact h

end MockForge.Json
