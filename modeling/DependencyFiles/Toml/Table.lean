import DependencyFiles.Toml.Basic

/-!
# Tables under construction

While a document is read, its tables remember how they came about. A table that a header
names may not be named again, a table that only stands on the way to one may still get
its header, and a table made by dotted keys may only grow by dotted keys. Tables of an
array of tables are reached through its last table.
-/

namespace DependencyFiles.Toml

/-- How a table came about. -/
inductive Origin where
  /-- By a header of its own, by an inline table, or as the document itself. -/
  | explicit
  /-- On the way to the table of a header. -/
  | implied
  /-- On the way to the last part of a dotted key. -/
  | dotted
  deriving DecidableEq, Repr

/-- What a key stands for while the document is read. -/
inductive Node where
  | value (value : Value)
  | table (origin : Origin) (entries : List (String × Node))
  | tables (items : List (List (String × Node)))
  deriving Inhabited

/-- The entries of a table under construction. -/
abbrev Entries := List (String × Node)

/-- Replace the node under a key that is present. -/
def Entries.replace (key : String) (node : Node) (entries : Entries) : Entries :=
  entries.map fun entry => if entry.1 = key then (key, node) else entry

/-- Change the last of a list. -/
def changeLast? {α : Type} (change : α → Option α) : List α → Option (List α)
  | [] => none
  | [item] => (change item).map fun item => [item]
  | item :: next :: rest => (changeLast? change (next :: rest)).map (item :: ·)

/-- Change the table that a path leads to. Missing tables on the way get the given origin; a
dotted path does not enter tables with a header, and no path leads through a value. -/
def changeAt? (origin : Origin) (change : Origin → Entries → Option Entries) :
    (path : List String) → (here : Origin) → Entries → Option Entries
  | [], here, entries => change here entries
  | key :: path, _, entries =>
    match entries.lookup key with
    | none => do
      let inner ← changeAt? origin change path origin []
      some (entries ++ [(key, .table origin inner)])
    | some (.value _) => none
    | some (.table there inner) =>
      if origin = .dotted ∧ there = .explicit then none
      else do
        let inner ← changeAt? origin change path there inner
        some (Entries.replace key (.table there inner) entries)
    | some (.tables items) => do
      let items ← changeLast? (changeAt? origin change path .explicit) items
      some (Entries.replace key (.tables items) entries)

/-- Enter a value under a key path, which grows tables of dotted keys on its way. -/
def insertPair? (path : List String) (key : String) (value : Value) (here : Origin)
    (entries : Entries) : Option Entries :=
  changeAt? .dotted (fun there entries =>
      if (there = .dotted) ↔ path = [] then none
      else if (entries.lookup key).isSome then none
      else some (entries ++ [(key, .value value)]))
    path here entries

/-- Open the table of a header, which must be new or so far only implied. -/
def openTable? (path : List String) (key : String) (entries : Entries) : Option Entries :=
  changeAt? .implied (fun _ entries =>
      match entries.lookup key with
      | none => some (entries ++ [(key, .table .explicit [])])
      | some (.table .implied inner) =>
        some (entries.filter (·.1 ≠ key) ++ [(key, .table .explicit inner)])
      | some _ => none)
    path .explicit entries

/-- Open one more table of the array of tables that a header names. -/
def appendTable? (path : List String) (key : String) (entries : Entries) : Option Entries :=
  changeAt? .implied (fun _ entries =>
      match entries.lookup key with
      | none => some (entries ++ [(key, .tables [[]])])
      | some (.tables items) => some (Entries.replace key (.tables (items ++ [[]])) entries)
      | some _ => none)
    path .explicit entries

mutual

/-- The value of a finished node. -/
def Node.finish : Node → Value
  | .value value => value
  | .table _ entries => .table (finishEntries entries)
  | .tables items => .array (finishTables items)

/-- The entries of a finished table. -/
def finishEntries : List (String × Node) → List (String × Value)
  | [] => []
  | (key, node) :: rest => (key, node.finish) :: finishEntries rest

/-- The tables of a finished array of tables. -/
def finishTables : List (List (String × Node)) → List Value
  | [] => []
  | entries :: rest => .table (finishEntries entries) :: finishTables rest

end

/-- An entry that a document may hold: the header of a table, the header of one more table of
an array, or a key with its value. The last key of a path stands apart. -/
inductive Statement where
  | header (path : List String) (key : String)
  | arrayHeader (path : List String) (key : String)
  | pair (path : List String) (key : String) (value : Value)

/-- The path of the table that is open, and all entries so far. -/
structure Draft where
  opened : List String
  entries : Entries

/-- Take one statement into the document. -/
def Draft.add? (draft : Draft) : Statement → Option Draft
  | .header path key => do
    some ⟨path ++ [key], ← openTable? path key draft.entries⟩
  | .arrayHeader path key => do
    some ⟨path ++ [key], ← appendTable? path key draft.entries⟩
  | .pair path key value => do
    some ⟨draft.opened,
      ← changeAt? .implied (insertPair? path key value) draft.opened .explicit draft.entries⟩

/-- The table that the statements of a document describe. -/
def tableOf? (statements : List Statement) : Option Value := do
  let draft ← statements.foldlM Draft.add? ⟨[], []⟩
  some (.table (finishEntries draft.entries))

/-- The table that the pairs of an inline table describe. -/
def inlineTableOf? (pairs : List (List String × String × Value)) : Option Value := do
  let entries ← pairs.foldlM (fun entries (path, key, value) =>
    insertPair? path key value .explicit entries) []
  some (.table (finishEntries entries))

end DependencyFiles.Toml
