import VmAdmission.Text.Ascii

namespace VmAdmission

structure Ipv4 where
  octets : Vector UInt8 4
deriving DecidableEq

structure Ipv6 where
  pieces : Vector UInt16 8
deriving DecidableEq

namespace Ipv4

def text (ip : Ipv4) : String :=
  ".".intercalate (ip.octets.toList.map toString)

def ofNat (n : Nat) : Ipv4 :=
  ⟨#v[(n >>> 24).toUInt8, (n >>> 16).toUInt8, (n >>> 8).toUInt8, n.toUInt8]⟩

/-- The two pieces that the address fills in one of version 6. -/
def pieces (ip : Ipv4) : List Nat :=
  [ip.octets[0].toNat * 256 + ip.octets[1].toNat, ip.octets[2].toNat * 256 + ip.octets[3].toNat]

end Ipv4

namespace Ipv6

def ofPieces? (pieces : List Nat) : Option Ipv6 :=
  if h : pieces.length = 8 then some ⟨⟨(pieces.map Nat.toUInt16).toArray, by simp [h]⟩⟩ else none

/-- A run of zero pieces: how many pieces come before it, and its length. -/
structure Run where
  start : Nat
  length : Nat

/-- The longest run of zeros, given the longest of the pieces before, the run that is open, and
the number of pieces before. -/
def longestRun (best : Run) (current : Nat) (index : Nat) : List UInt16 → Run
  | [] => best
  | piece :: pieces =>
    if piece = 0 then
      let run : Run := ⟨index - current, current + 1⟩
      longestRun (if best.length < run.length then run else best) (current + 1) (index + 1) pieces
    else longestRun best 0 (index + 1) pieces

def piecesText (pieces : List UInt16) : String :=
  ":".intercalate (pieces.map fun piece => String.ofList (Ascii.hex piece.toNat))

/-- The written form, with the longest run of zero pieces left out, the first of several, if the run
has at least two. -/
def text (ip : Ipv6) : String :=
  let pieces := ip.pieces.toList
  let run := longestRun ⟨0, 0⟩ 0 0 pieces
  if 1 < run.length then
    piecesText (pieces.take run.start) ++ "::" ++ piecesText (pieces.drop (run.start + run.length))
  else piecesText pieces

/-- The address of version 4 that the address stands for, if it is such a one. -/
def mapped? (ip : Ipv6) : Option Ipv4 :=
  match ip.pieces.toList with
  | [0, 0, 0, 0, 0, 0xFFFF, high, low] => some (.ofNat (high.toNat * 65536 + low.toNat))
  | _ => none

/-- The written form with an embedded address of version 4 as such. -/
def mixedText (ip : Ipv6) : String :=
  match ip.mapped? with
  | some v4 => "::ffff:" ++ v4.text
  | none => ip.text

end Ipv6

end VmAdmission
