import Prefilter.Numeric.Decimal
import Prefilter.Text.Quoted
import Prefilter.Toml.Item

namespace Prefilter

open Numeric (Binary64)

inductive FoundValue where
  | integer (n : Int)
  | float (x : Binary64)
  | boolean (b : Bool)
  | string (s : String)
  | sequence
  | map

namespace FoundValue

/-- A float with a point even where it is whole. -/
def pointed (x : Binary64) : String :=
  let text := x.plain
  if x.isNaN ∨ x.isInfinite ∨ '.' ∈ text.toList then text else text ++ ".0"

def describe : FoundValue → String
  | integer n => s!"integer `{n}`"
  | float x => s!"floating point `{pointed x}`"
  | boolean b => s!"boolean `{b}`"
  | string s => s!"string {Text.quoted s}"
  | sequence => "sequence"
  | map => "map"

/-- What an item counts as; a date is a table with a key of its own. -/
def ofItem : Toml.Item → FoundValue
  | .scalar (.integer n) => integer n
  | .scalar (.float x) => float x
  | .scalar (.boolean b) => boolean b
  | .scalar (.string s) => string s
  | .scalar .datetime => map
  | .array _ => sequence
  | .tables _ => sequence
  | .table .. => map

end FoundValue

inductive WantedValue where
  | size
  | milliseconds
  | flag
  | settings

namespace WantedValue

def describe : WantedValue → String
  | size => "usize"
  | milliseconds => "u64"
  | flag => "a boolean"
  | settings => "struct CanMatchConfig"

end WantedValue

structure Mismatch where
  found : FoundValue
  wanted : WantedValue

namespace Mismatch

/-- An integer where one is wanted has the right type, but not a value that fits. -/
def message (m : Mismatch) : String :=
  let complaint :=
    match m.found, m.wanted with
    | .integer _, .size => "invalid value"
    | .integer _, .milliseconds => "invalid value"
    | _, _ => "invalid type"
  s!"{complaint}: {m.found.describe}, expected {m.wanted.describe}"

end Mismatch
end Prefilter
