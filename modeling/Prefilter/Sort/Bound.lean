import Prefilter.Numeric.Decimal
import Prefilter.Text.Quoted
import Prefilter.Text.Utf8

namespace Prefilter

open Numeric (Binary64)

inductive SortOrder where
  | ascending
  | descending
deriving DecidableEq, Inhabited

namespace SortOrder

def name : SortOrder → String
  | ascending => "asc"
  | descending => "desc"

end SortOrder

/-- The field that a search sorts on first, and the direction. -/
structure SortSpec where
  field : String
  order : SortOrder := .ascending
deriving DecidableEq, Inhabited

inductive BoundKind where
  | long
  | double
  | text
deriving DecidableEq, Inhabited

namespace BoundKind

def name : BoundKind → String
  | long => "Long"
  | double => "Double"
  | text => "Text"

end BoundKind

/-- The least and the greatest value of the sort field on a shard. -/
inductive Bound where
  | long (least greatest : Int64)
  | double (least greatest : Binary64)
  | text (least greatest : String)
deriving DecidableEq, Inhabited

namespace Bound

def kind : Bound → BoundKind
  | long .. => .long
  | double .. => .double
  | text .. => .text

/-- Equality of values: numbers compare as numbers, so a bound with a NaN differs from itself. -/
def valueEq : Bound → Bound → Bool
  | long a b, long c d => a == c && b == d
  | double a b, double c d => a.numericEq c && b.numericEq d
  | text a b, text c d => a == c && b == d
  | _, _ => false

/-- Ascending compares the least values; descending compares the greatest, largest first. -/
def byDirection {α : Type} (cmp : α → α → Ordering) (order : SortOrder)
    (leastA greatestA leastB greatestB : α) : Ordering :=
  match order with
  | .ascending => cmp leastA leastB
  | .descending => cmp greatestB greatestA

/-- The order in which two shards are visited; none where the kinds differ. -/
def compare? (order : SortOrder) : Bound → Bound → Option Ordering
  | long a b, long c d => some (byDirection (Ord.compare ·.toInt ·.toInt) order a b c d)
  | double a b, double c d => some (byDirection Binary64.totalCompare order a b c d)
  | text a b, text c d => some (byDirection Text.compareUtf8 order a b c d)
  | _, _ => none

/-- Whether the least value does not exceed the greatest. -/
def IsOrdered : Bound → Prop
  | long a b => a.toInt ≤ b.toInt
  | double a b => (a.totalCompare b).isLE
  | text a b => (Text.compareUtf8 a b).isLE

instance : DecidablePred IsOrdered
  | long a b => inferInstanceAs (Decidable (a.toInt ≤ b.toInt))
  | double a b => inferInstanceAs (Decidable ((a.totalCompare b).isLE = true))
  | text a b => inferInstanceAs (Decidable ((Text.compareUtf8 a b).isLE = true))

/-- What is said about a bound whose least value exceeds its greatest. -/
def invertedMessage : Bound → String
  | long a b => s!"bound min {a.toInt} exceeds max {b.toInt}"
  | double a b => s!"bound min {a.plain} exceeds max {b.plain}"
  | text a b => s!"bound min {Text.quoted a} exceeds max {Text.quoted b}"

/-- Accepts a bound whose ends are in order; a failure is the message about it. -/
def checked (b : Bound) : Except String Bound :=
  if b.IsOrdered then .ok b else .error b.invertedMessage

end Bound
end Prefilter
