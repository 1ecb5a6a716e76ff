import VmAdmission.Decimal.Shortest

namespace VmAdmission

/-- An integer that fits 64 bits, signed or unsigned. -/
structure WireInt where
  val : Int
  low : -0x8000000000000000 ≤ val := by decide
  high : val < 0x10000000000000000 := by decide
deriving DecidableEq

/-- A number as it is kept: an integer that fits 64 bits, or a double. -/
inductive Number
  | integer (n : WireInt)
  | double (x : Double)
deriving DecidableEq

/-- A JSON tree: what a text shows or will show, members in that order. -/
inductive Json
  | null
  | bool (b : Bool)
  | number (n : Number)
  | string (s : String)
  | array (items : List Json)
  | object (members : List (String × Json))
deriving Inhabited

namespace Json

def ofInt64 (n : Int64) : Json :=
  .number (.integer ⟨n.toInt, n.le_toInt, Int.lt_trans n.toInt_lt (by decide)⟩)

def ofUInt64 (n : UInt64) : Json :=
  .number (.integer ⟨n.toNat, by omega, by have := n.toNat_lt; omega⟩)

/-- The members of every object in the tree have strictly increasing keys. -/
inductive IsCanonical : Json → Prop
  | null : IsCanonical .null
  | bool (b : Bool) : IsCanonical (.bool b)
  | number (n : Number) : IsCanonical (.number n)
  | string (s : String) : IsCanonical (.string s)
  | array {items : List Json} (canonical : ∀ item ∈ items, IsCanonical item) :
      IsCanonical (.array items)
  | object {members : List (String × Json)}
      (sorted : members.Pairwise fun a b => a.1 < b.1)
      (canonical : ∀ member ∈ members, IsCanonical member.2) :
      IsCanonical (.object members)

end Json

end VmAdmission
