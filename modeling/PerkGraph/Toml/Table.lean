import PerkGraph.Toml

/-! # TOML tables

A table under construction remembers how each of its sub-tables came about, because that decides who may
still add to it: a table with a header of its own is defined once, dotted keys add only to tables that dotted
keys made, and an inline table is finished where it stands.
-/

namespace PerkGraph.Toml

/-- How a table came about. -/
inductive Origin where
  /-- As part of the path of a header. -/
  | implied
  /-- By its own header. -/
  | header
  /-- By a dotted key. -/
  | dotted
deriving DecidableEq

/-- What stands behind a key of a table under construction. -/
inductive Entry where
  /-- A finished value, inline tables included. -/
  | value (value : Toml)
  | table (origin : Origin) (fields : List (String × Entry))
  /-- The tables of an array of tables, last one first. -/
  | tables (last : List (String × Entry)) (before : List (List (String × Entry)))

/-- A table under construction. -/
abbrev Fields := List (String × Entry)

namespace Fields

/-- The entry of a key. -/
def entry? (fields : Fields) (key : String) : Option Entry :=
  (List.find? (fun field => field.1 == key) fields).map fun field => field.2

/-- The table with another entry behind a key, in its place or at the end. -/
def put : Fields → String → Entry → Fields
  | [], key, entry => [(key, entry)]
  | field :: rest, key, entry =>
    if field.1 = key then (key, entry) :: rest else field :: put rest key entry

/-- Puts a value behind a dotted key, if its last part is free. The key may lead through any table that no
header defined, and through the last table of an array of tables; tables that are missing are made. But only a
table that dotted keys made, or the one that the key starts in, takes the value: `isOwn` says whether `fields`
is one of these. -/
def assignFrom? (isOwn : Bool) (fields : Fields) (path : List String) (value : Toml) :
    Option Fields :=
  match path with
  | [] => none
  | [key] =>
    match isOwn, fields.entry? key with
    | true, none => some (fields.put key (.value value))
    | _, _ => none
  | key :: rest =>
    match fields.entry? key with
    | none => (assignFrom? true [] rest value).map fun inner => fields.put key (.table .dotted inner)
    | some (.table .header _) | some (.value _) => none
    | some (.table origin inner) =>
      (assignFrom? (origin = .dotted) inner rest value).map fun inner =>
        fields.put key (.table origin inner)
    | some (.tables last before) =>
      (assignFrom? false last rest value).map fun last => fields.put key (.tables last before)

/-- Puts a value behind a dotted key of a table. -/
def assign? (fields : Fields) (path : List String) (value : Toml) : Option Fields :=
  assignFrom? true fields path value

/-- Changes the table at a path, which a header names. Missing tables on the way are implied; an array of
tables stands for its last one. -/
def descend? (fields : Fields) (path : List String) (change : Fields → Option Fields) :
    Option Fields :=
  match path with
  | [] => change fields
  | key :: rest =>
    match fields.entry? key with
    | none => (descend? [] rest change).map fun inner => fields.put key (.table .implied inner)
    | some (.table origin inner) =>
      (descend? inner rest change).map fun inner => fields.put key (.table origin inner)
    | some (.tables last before) =>
      (descend? last rest change).map fun last => fields.put key (.tables last before)
    | some (.value _) => none

/-- Defines the table that a header names. -/
def define? (fields : Fields) (key : String) : Option Fields :=
  match fields.entry? key with
  | none => some (fields.put key (.table .header []))
  | some (.table .implied inner) => some (fields.put key (.table .header inner))
  | some _ => none

/-- Begins one more table of the array of tables that a header names. -/
def extend? (fields : Fields) (key : String) : Option Fields :=
  match fields.entry? key with
  | none => some (fields.put key (.tables [] []))
  | some (.tables last before) => some (fields.put key (.tables [] (last :: before)))
  | some _ => none

end Fields

mutual

def Entry.toToml : Entry → Toml
  | .value value => value
  | .table _ fields => .table (fieldsToToml fields)
  | .tables last before => .array (tablesToToml before [.table (fieldsToToml last)])

def fieldsToToml : List (String × Entry) → List (String × Toml)
  | [] => []
  | (key, entry) :: rest => (key, entry.toToml) :: fieldsToToml rest

/-- The finished tables of an array, in front of those that come after them. -/
def tablesToToml : List (List (String × Entry)) → List Toml → List Toml
  | [], after => after
  | fields :: rest, after => tablesToToml rest (.table (fieldsToToml fields) :: after)

end

end PerkGraph.Toml
