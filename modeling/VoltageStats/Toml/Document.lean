import VoltageStats.Binary.Format

/-!
# TOML documents

A document is a list of statements: headers, which open a table or a further table of an array,
and entries, which put a value under a key of the table that was opened last. A key is a path of
names, and tables on the way are made where there are none. `document?` puts the statements
together to one table. No name gets two values, and no table is opened or filled in two ways.
-/

namespace VoltageStats

/-- How a table came to be, which says how it may be extended. -/
inductive TableOrigin where
  /-- Written as a value: never extended. -/
  | inline
  /-- On the way of the key of an entry. -/
  | dotted
  /-- On the way of a header. -/
  | implied
  /-- Opened by a header. -/
  | opened
  deriving DecidableEq, Repr

/-- A TOML value. -/
inductive Toml where
  | text (value : String)
  | integer (value : Int)
  | real (value : Binary64)
  | boolean (value : Bool)
  /-- A date, a time, or both. -/
  | moment (words : String)
  | array (items : List Toml)
  | table (origin : TableOrigin) (entries : List (String × Toml))
  /-- An array of tables that were opened by headers. -/
  | tables (items : List (List (String × Toml)))

namespace Toml

/-- The entries of a table. -/
abbrev Table : Type := List (String × Toml)

/-- A statement of a document. -/
inductive Statement where
  /-- Opens a table. -/
  | header (path : List String)
  /-- Opens a further table of an array. -/
  | item (path : List String)
  | entry (key : List String) (value : Toml)

/-- The table with another value under a name that is in it. -/
def replace (name : String) (value : Toml) (t : Table) : Table :=
  t.map fun entry => if entry.1 = name then (name, value) else entry

/-- The table with a value under the key of an entry. -/
def insert? (value : Toml) : (key : List String) → Table → Option Table
  | [], _ => none
  | [name], t => if (t.lookup name).isSome then none else some (t ++ [(name, value)])
  | name :: next :: key, t =>
    match t.lookup name with
    | none => (insert? value (next :: key) []).map fun sub => t ++ [(name, .table .dotted sub)]
    | some (.table origin sub) =>
      if origin = .dotted || (origin = .implied && key ≠ []) then
        (insert? value (next :: key) sub).map fun sub => replace name (.table origin sub) t
      else none
    | some (.tables items) => do
      if key = [] then none
      let sub ← insert? value (next :: key) (← items.getLast?)
      return replace name (.tables (items.dropLast ++ [sub])) t
    | some _ => none

/-- The table in which a change has been made to the table that a path leads to. In an array of
tables it leads through the last one. -/
def within? (change : Table → Option Table) : (path : List String) → Table → Option Table
  | [], t => change t
  | name :: path, t =>
    match t.lookup name with
    | none => (within? change path []).map fun sub => t ++ [(name, .table .implied sub)]
    | some (.table origin sub) =>
      if origin = .inline then none
      else (within? change path sub).map fun sub => replace name (.table origin sub) t
    | some (.tables items) => do
      let sub ← within? change path (← items.getLast?)
      return replace name (.tables (items.dropLast ++ [sub])) t
    | some _ => none

/-- The table in which a header has opened the table with a name. -/
def openTable? (name : String) (t : Table) : Option Table :=
  match t.lookup name with
  | none => some (t ++ [(name, .table .opened [])])
  | some (.table .implied sub) => some (replace name (.table .opened sub) t)
  | some _ => none

/-- The table in which a header has opened a further table of the array with a name. -/
def openItem? (name : String) (t : Table) : Option Table :=
  match t.lookup name with
  | none => some (t ++ [(name, .tables [[]])])
  | some (.tables items) => some (replace name (.tables (items ++ [[]])) t)
  | some _ => none

/-- The table that a document holds from some statements on, when the table at a path is open. -/
def extend? (path : List String) (root : Table) : List Statement → Option Table
  | [] => some root
  | .entry key value :: rest => do
    extend? path (← within? (insert? value key) path root) rest
  | .header opened :: rest => do
    extend? opened (← within? (openTable? (← opened.getLast?)) opened.dropLast root) rest
  | .item opened :: rest => do
    extend? opened (← within? (openItem? (← opened.getLast?)) opened.dropLast root) rest

/-- The table that a document holds. -/
def document? (statements : List Statement) : Option Table := extend? [] [] statements

/-- The table written as a value with some entries. -/
def inline? (entries : List (List String × Toml)) : Option Toml :=
  (entries.foldlM (fun t (key, value) => insert? value key t) []).map (.table .inline)

end Toml

end VoltageStats
