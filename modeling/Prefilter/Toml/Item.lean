import Prefilter.Numeric.Binary64

namespace Prefilter.Toml

open Numeric (Binary64)

inductive Scalar where
  | string (s : String)
  | integer (n : Int)
  | float (x : Binary64)
  | boolean (b : Bool)
  /-- A date, a time or both; which one it is plays no part here. -/
  | datetime
deriving Inhabited

/-- How a table came to be. -/
inductive Origin where
  /-- By a header of its own, or as the root. -/
  | header
  /-- As a step on the path of a header. -/
  | implied
  /-- As a step of a dotted key. -/
  | dotted
  /-- Between braces; such a table is complete. -/
  | inline
deriving DecidableEq, Inhabited

inductive Item where
  | scalar (v : Scalar)
  | array (items : List Item)
  | table (origin : Origin) (entries : List (String × Item))
  /-- The tables of repeated double-bracket headers. -/
  | tables (elements : List (List (String × Item)))
deriving Inhabited

abbrev Table := List (String × Item)

namespace Table

def find? (t : Table) (key : String) : Option Item := t.lookup key

def add (t : Table) (key : String) (item : Item) : Table := t ++ [(key, item)]

/-- Gives a key that is there another item, in the same place. -/
def replace (t : Table) (key : String) (item : Item) : Table :=
  t.map fun entry => if entry.1 == key then (key, item) else entry

def remove (t : Table) (key : String) : Table := t.filter (·.1 != key)

/-- Changes the table at the end of a path, and reports what the change has to say. Missing tables on
the way are created. A step leads into the last element of a table array, and never into anything
but tables that may still grow; a dotted path keeps out of tables that have a header. -/
def visit {α : Type} (dotted : Bool) (change : Origin → Table → Option (α × Table)) :
    List String → Origin → Table → Option (α × Table)
  | [], origin, t => change origin t
  | key :: path, _, t =>
    match t.find? key with
    | none =>
      let origin := if dotted then Origin.dotted else .implied
      (visit dotted change path origin []).map fun (a, child) =>
        (a, t.add key (.table origin child))
    | some (.table origin child) =>
      if origin = .inline ∨ (dotted ∧ origin = .header) then none
      else
        (visit dotted change path origin child).map fun (a, child) =>
          (a, t.replace key (.table origin child))
    | some (.tables elements) =>
      match elements.getLast? with
      | none => none
      | some last =>
        (visit dotted change path .header last).map fun (a, last) =>
          (a, t.replace key (.tables (elements.dropLast ++ [last])))
    | some _ => none

/-- Adds a value under a dotted key. The tables on the way have to be ones that dotted keys made, and
the last key has to be new. -/
def insert (t : Table) (origin : Origin) (path : List String) (key : String) (item : Item) :
    Option Table :=
  let place (origin : Origin) (t : Table) : Option (Unit × Table) :=
    if path ≠ [] ∧ origin ≠ .dotted then none
    else if (t.find? key).isSome then none
    else some ((), t.add key item)
  (t.visit true place path origin).map (·.2)

end Table
end Prefilter.Toml
