/-!
# Checked arithmetic on words

Sums, differences and products of 64-bit words that are undefined where the operations on words wrap
around. Where one is defined, it is the exact number.
-/

namespace EntitySearch

namespace Word

/-- The sum, unless it is larger than every word. -/
def add? (left right : UInt64) : Option UInt64 :=
  if left.toNat + right.toNat < UInt64.size then some (left + right) else none

/-- The difference, unless it is below zero. -/
def sub? (left right : UInt64) : Option UInt64 :=
  if right ≤ left then some (left - right) else none

/-- The product, unless it is larger than every word. -/
def mul? (left right : UInt64) : Option UInt64 :=
  if left.toNat * right.toNat < UInt64.size then some (left * right) else none

end Word

end EntitySearch
