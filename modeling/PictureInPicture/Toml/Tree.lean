-- A document while it is read: tables that remember how they came to be, for that decides
-- what may still be added to them.
import PictureInPicture.Toml.Value

namespace PictureInPicture.Toml

/-- How a table came to be. -/
inductive Origin where
  /-- It has a header of its own, or it is the whole document. -/
  | defined
  /-- A header names a table inside it. A header of its own may follow. -/
  | byHeader
  /-- A path of keys leads through it. Only such paths may add to it. -/
  | byPath
  deriving DecidableEq, Repr

/-- What stands under a key. -/
inductive Entry where
  | value (v : Value)
  | table (origin : Origin) (entries : List (String × Entry))
  /-- A list of tables, each opened by a header of its own, the last one first. -/
  | tables (elements : List (List (String × Entry)))

/-- The entries of a table in the order in which they came. -/
abbrev Tree := List (String × Entry)

namespace Tree

/-- Puts an entry in the place of the one under its key. -/
def replace (t : Tree) (key : String) (e : Entry) : Tree :=
  t.map fun (k, x) => if k = key then (k, e) else (k, x)

/-- Follows a path of keys and changes the table at its end. Keys that are not there yet
become tables of the origin `made`. A list of tables stands for its last one. No path of
keys leads through a table with a header of its own. -/
def descend (made : Origin) (change : Origin → Tree → Option Tree) :
    Origin → List String → Tree → Option Tree
  | origin, [], t => change origin t
  | _, key :: path, t =>
    match t.lookup key with
    | none => do
      let inner ← descend made change made path []
      some (t ++ [(key, .table made inner)])
    | some (.value _) => none
    | some (.tables []) => none
    | some (.tables (last :: before)) => do
      let inner ← descend made change .defined path last
      some (t.replace key (.tables (inner :: before)))
    | some (.table origin entries) =>
      if made = .byPath && origin = .defined then none
      else do
        let inner ← descend made change origin path entries
        some (t.replace key (.table origin inner))

/-- Adds a value under a new key. A table that only paths lead through takes values from
paths alone, and a path ends in no other table. -/
def put (path : List String) (key : String) (v : Value) (origin : Origin) (t : Tree) :
    Option Tree :=
  if path.isEmpty = decide (origin = .byPath) then none
  else if (t.lookup key).isSome then none
  else some (t ++ [(key, .value v)])

/-- Adds a value at a path of keys. -/
def insert (keys : List String) (v : Value) (t : Tree) : Option Tree :=
  match keys.getLast? with
  | none => none
  | some key => descend .byPath (put keys.dropLast key v) .defined keys.dropLast t

/-- Adds a value at a path of keys, inside the table of a header. -/
def insertUnder (header keys : List String) (v : Value) (t : Tree) : Option Tree :=
  descend .byHeader (fun _ => insert keys v) .defined header t

/-- Opens the table of a header. It moves behind the other entries of the table around it. -/
def openTable (header : List String) (t : Tree) : Option Tree :=
  match header.getLast? with
  | none => none
  | some key =>
    descend .byHeader
      (fun _ t =>
        match t.lookup key with
        | none => some (t ++ [(key, .table .defined [])])
        | some (.table .byHeader entries) =>
          some (t.filter (fun (k, _) => k ≠ key) ++ [(key, .table .defined entries)])
        | some _ => none)
      .defined header.dropLast t

/-- Opens the next table of a list. -/
def openElement (header : List String) (t : Tree) : Option Tree :=
  match header.getLast? with
  | none => none
  | some key =>
    descend .byHeader
      (fun _ t =>
        match t.lookup key with
        | none => some (t ++ [(key, .tables [[]])])
        | some (.tables elements) => some (t.replace key (.tables ([] :: elements)))
        | some _ => none)
      .defined header.dropLast t

end Tree

/-! ## The finished document -/

mutual

/-- The value of an entry. -/
def Entry.toValue : Entry → Value
  | .value v => v
  | .table _ entries => .table (valuesOf entries)
  | .tables elements => .array (elementsOf elements).reverse

def valuesOf : List (String × Entry) → List (String × Value)
  | [] => []
  | (key, e) :: entries => (key, e.toValue) :: valuesOf entries

def elementsOf : List (List (String × Entry)) → List Value
  | [] => []
  | entries :: elements => .table (valuesOf entries) :: elementsOf elements

end

end PictureInPicture.Toml
