import MockForge.Toml.Value

/-!
# Growing a table

The entries of a document come in any order and under keys of several parts. A table may be
implied by a longer header, made by a dotted key, or declared by a header of its own, and how it
came to be decides what may still be added to it. Everything a table already has stays as it is.
-/

namespace MockForge.Toml

/-- How a table came to be. -/
inductive Origin where
  /-- A header named a table below it. -/
  | implied
  /-- A dotted key named an entry below it. -/
  | dotted
  /-- It has a header of its own. -/
  | declared
  deriving DecidableEq, Repr

/-- An entry of a table that still grows: a value, a table, or the rows of an array of tables, of
which only the last can grow. -/
inductive Node where
  | leaf (value : Value)
  | table (origin : Origin) (entries : List (String × Node))
  | rows (earlier : List Value) (last : List (String × Node))

mutual

/-- The value that an entry has when nothing more is added. -/
def Node.value : Node → Value
  | .leaf value => value
  | .table _ entries => .table (entryValues entries)
  | .rows earlier last => .list (earlier ++ [.table (entryValues last)])

/-- The entries of a table when nothing more is added. -/
def entryValues : List (String × Node) → Table
  | [] => []
  | (key, node) :: rest => (key, node.value) :: entryValues rest

end

namespace Tree

/-- The entries of a table that still grows. -/
abbrev Entries := List (String × Node)

/-- Changes the entry of a key, which may be absent yet. -/
def update (key : String) (change : Option Node → Except Malformed Node) :
    Entries → Except Malformed Entries
  | [] => (change none).map fun node => [(key, node)]
  | (other, node) :: rest =>
      if other = key then (change (some node)).map fun node => (other, node) :: rest
      else (update key change rest).map fun rest => (other, node) :: rest

/-- Changes the table at the end of a path. A table that is absent comes to be with the origin
`way`, and a dotted key does not reach into a declared table. -/
def within (way : Origin) (change : Origin → Entries → Except Malformed Entries) :
    List String → Origin → Entries → Except Malformed Entries
  | [], here, entries => change here entries
  | key :: path, _, entries =>
      update key (fun
        | none => (within way change path way []).map (.table way)
        | some (.table origin inner) =>
            if way = .dotted ∧ origin = .declared then .error .malformed
            else (within way change path origin inner).map (.table origin)
        | some (.rows earlier last) =>
            (within way change path .declared last).map (.rows earlier)
        | some (.leaf _) => .error .malformed) entries

/-- Adds a value under a key that is free. Behind dots it goes only into tables that dots made. -/
def addValue (path : List String) (key : String) (value : Value) (entries : Entries) :
    Except Malformed Entries :=
  within .dotted (fun here entries =>
    if (here = .dotted) = (path ≠ []) then
      update key (fun
        | none => .ok (.leaf value)
        | some _ => .error .malformed) entries
    else .error .malformed) path .declared entries

/-- Declares a table that is absent or was only implied. -/
def declare (path : List String) (key : String) (entries : Entries) : Except Malformed Entries :=
  within .implied (fun _ entries =>
    update key (fun
      | none => .ok (.table .declared [])
      | some (.table .implied inner) => .ok (.table .declared inner)
      | some _ => .error .malformed) entries) path .declared entries

/-- Adds a row to an array of tables, or begins the array. -/
def declareRow (path : List String) (key : String) (entries : Entries) :
    Except Malformed Entries :=
  within .implied (fun _ entries =>
    update key (fun
      | none => .ok (.rows [] [])
      | some (.rows earlier last) => .ok (.rows (earlier ++ [.table (entryValues last)]) [])
      | some _ => .error .malformed) entries) path .declared entries

end Tree

end MockForge.Toml
