/-!
# TOML values

A TOML document as data, and the tables of a document while it is read.  A draft
table remembers how it came about, because that decides what may still be added.

Main definitions:

- `Toml.Value`: a TOML value.
- `Toml.Draft`: a table, an array of tables or a value while a document is read.
- `Toml.Draft.inside`: changing the table at a path of keys.
-/

namespace NativeBuild.Toml

/-- A TOML value. -/
inductive Value where
  | string (text : String)
  | integer (n : Int)
  /-- A float, as it was written. -/
  | float (text : String)
  | boolean (b : Bool)
  /-- A date, a time or both, as written. -/
  | datetime (text : String)
  | array (items : List Value)
  | table (fields : List (String × Value))
deriving Repr, Inhabited

/-- A part of a document while it is read.  A table is implicit when only a longer
key or header mentions it, and dotted when it came from a dotted key. -/
inductive Draft where
  | value (value : Value)
  | table (implicit dotted : Bool) (fields : List (String × Draft))
  /-- An array of tables, one for each of its headers. -/
  | tables (elements : List Draft)
deriving Repr, Inhabited

namespace Draft

/-- The draft bound to a key. -/
def get? (key : String) : List (String × Draft) → Option Draft
  | [] => none
  | (other, draft) :: rest => if other = key then some draft else get? key rest

/-- The fields with the key bound to the draft. -/
def put (key : String) (draft : Draft) : List (String × Draft) → List (String × Draft)
  | [] => [(key, draft)]
  | (other, old) :: rest =>
    if other = key then (key, draft) :: rest else (other, old) :: put key draft rest

/-- The document without any field. -/
def empty : Draft :=
  .table false false []

/-- Change the last of some drafts. -/
def changeLast (change : Draft → Option Draft) : List Draft → Option (List Draft)
  | [] => none
  | [draft] => (change draft).map fun draft => [draft]
  | draft :: rest => (changeLast change rest).map (draft :: ·)

/-- Change the table that a path of keys leads to, making implicit tables where there
are none.  An array of tables stands for its last one; a value is no table.  A dotted
key may not enter a table that was defined outright. -/
def inside (change : Draft → Option Draft) (dotted : Bool) :
    List String → Draft → Option Draft
  | [], draft => change draft
  | key :: path, .table isImplicit isDotted fields =>
    let bind draft := Draft.table isImplicit isDotted (put key draft fields)
    match get? key fields with
    | none => (inside change dotted path (.table true dotted [])).map bind
    | some (.value _) => none
    | some (.tables elements) =>
      (changeLast (inside change dotted path) elements).map fun elements =>
        bind (.tables elements)
    | some (.table innerImplicit innerDotted inner) =>
      if dotted ∧ innerImplicit = false then none
      else (inside change dotted path (.table innerImplicit innerDotted inner)).map bind
  | _ :: _, _ => none

/-- Bind a new key to a value in a table; `direct` tells that the key was not dotted.
A dotted key adds to tables made by dotted keys only, a plain one to the others. -/
def addValue (direct : Bool) (key : String) (value : Value) : Draft → Option Draft
  | .table isImplicit isDotted fields =>
    if isDotted = direct then none
    else
      match get? key fields with
      | none => some (.table isImplicit isDotted (put key (.value value) fields))
      | some _ => none
  | _ => none

/-- Add a key with its value to a table; the key is given by its parts. -/
def addKey (path : List String) (value : Value) (draft : Draft) : Option Draft :=
  match path.getLast? with
  | none => none
  | some key =>
    inside (addValue (path.dropLast == []) key value) true path.dropLast draft

/-- Define a table outright; only one that is implicit may exist already. -/
def defineTable (key : String) : Draft → Option Draft
  | .table isImplicit isDotted fields =>
    match get? key fields with
    | none => some (.table isImplicit isDotted (put key empty fields))
    | some (.table true false inner) =>
      some (.table isImplicit isDotted (put key (.table false false inner) fields))
    | some _ => none
  | _ => none

/-- Append a table to an array of tables. -/
def appendTable (key : String) : Draft → Option Draft
  | .table isImplicit isDotted fields =>
    match get? key fields with
    | none => some (.table isImplicit isDotted (put key (.tables [empty]) fields))
    | some (.tables elements) =>
      some (.table isImplicit isDotted (put key (.tables (elements ++ [empty])) fields))
    | some _ => none
  | _ => none

mutual
/-- The finished value of a draft. -/
def finish : Draft → Value
  | .value v => v
  | .table _ _ fields => .table (finishFields fields)
  | .tables elements => .array (finishAll elements)

/-- The finished values of a table. -/
def finishFields : List (String × Draft) → List (String × Value)
  | [] => []
  | (key, draft) :: rest => (key, draft.finish) :: finishFields rest

/-- The finished values of several drafts. -/
def finishAll : List Draft → List Value
  | [] => []
  | draft :: rest => draft.finish :: finishAll rest
end

end Draft

end NativeBuild.Toml
