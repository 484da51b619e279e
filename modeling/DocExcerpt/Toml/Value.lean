import DocExcerpt.Text.Basic
/-!
# TOML values

A TOML document is a table: keys, in the order they are written, with values.  How a table was written decides
whether a later part of the document may still add to it, so a table remembers its form (`assign`,
`defineTable`, `appendTable`).
-/
namespace DocExcerpt
namespace Toml

/-- How a table came into being. -/
inductive TableForm where
  /-- By a header of its own. -/
  | header
  /-- On the way to a header further down. -/
  | passage
  /-- By a dotted key. -/
  | dotted
  /-- Between braces. -/
  | inline
  deriving DecidableEq

/-- A TOML value.  Floats and dates are told apart from the rest, and not read. -/
inductive Value where
  | string (t : Text)
  | integer (n : Int)
  | float
  | boolean (b : Bool)
  | date
  | array (items : List Value)
  | table (form : TableForm) (entries : List (Text × Value))
  /-- The tables of a header in double brackets. -/
  | tables (elements : List Value)

/-- The entries of a table, in the order of their keys in the document. -/
abbrev Table := List (Text × Value)

namespace Table

def get? (t : Table) (key : Text) : Option Value := (t.find? (fun e => e.1 == key)).map (·.2)

def replace (t : Table) (key : Text) (v : Value) : Table :=
  t.map (fun e => if e.1 == key then (key, v) else e)

def changeLast (f : Table → Option Table) (elements : List Value) : Option (List Value) :=
  match elements.reverse with
  | .table form entries :: before => (f entries).map (fun es => (.table form es :: before).reverse)
  | _ => none

/-- Sets a dotted key.  The key must be new, and the tables it passes must not have a header of their own; the
one that gets the value must be dotted itself. -/
def assign : List Text → Value → Table → Option Table
  | [], _, _ => none
  | [key], v, t => if (t.get? key).isSome then none else some (t ++ [(key, v)])
  | key :: next :: keys, v, t =>
    match t.get? key with
    | none => (assign (next :: keys) v []).map (fun es => t ++ [(key, .table .dotted es)])
    | some (.table form entries) =>
      if form = .dotted ∨ (form = .passage ∧ !keys.isEmpty) then
        (assign (next :: keys) v entries).map (fun es => t.replace key (.table form es))
      else none
    | some (.tables elements) =>
      if keys.isEmpty then none
      else (changeLast (assign (next :: keys) v) elements).map (fun es => t.replace key (.tables es))
    | some _ => none

/-- Follows the keys of a header down to the table that holds the last one, and changes that. -/
def changeAt (f : Text → Table → Option Table) : List Text → Table → Option Table
  | [], _ => none
  | [key], t => f key t
  | key :: next :: keys, t =>
    match t.get? key with
    | none => (changeAt f (next :: keys) []).map (fun es => t ++ [(key, .table .passage es)])
    | some (.table form entries) =>
      if form = .inline then none
      else (changeAt f (next :: keys) entries).map (fun es => t.replace key (.table form es))
    | some (.tables elements) =>
      (changeLast (changeAt f (next :: keys)) elements).map (fun es => t.replace key (.tables es))
    | some _ => none

def defineTable (keys : List Text) (t : Table) : Option Table :=
  changeAt (fun key t =>
    match t.get? key with
    | none => some (t ++ [(key, .table .header [])])
    | some (.table .passage entries) => some (t.replace key (.table .header entries))
    | some _ => none) keys t

def appendTable (keys : List Text) (t : Table) : Option Table :=
  changeAt (fun key t =>
    match t.get? key with
    | none => some (t ++ [(key, .tables [.table .header []])])
    | some (.tables elements) => some (t.replace key (.tables (elements ++ [.table .header []])))
    | some _ => none) keys t

/-- Sets a dotted key in the table that a header has opened; no header is the document itself. -/
def assignUnder (header : List Text) (keys : List Text) (v : Value) (t : Table) : Option Table :=
  if header.isEmpty then assign keys v t
  else
    changeAt (fun key t =>
      match t.get? key with
      | some (.table form entries) => (assign keys v entries).map (fun es => t.replace key (.table form es))
      | some (.tables elements) => (changeLast (assign keys v) elements).map (fun es => t.replace key (.tables es))
      | _ => none) header t

end Table
end Toml
end DocExcerpt
