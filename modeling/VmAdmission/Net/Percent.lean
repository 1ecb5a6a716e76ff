import VmAdmission.Text.Symbol

namespace VmAdmission.Percent

/-- A byte as a percent sign and two upper-case hexadecimal digits. -/
def encodeByte (b : UInt8) : List Char :=
  '%' :: (Ascii.hexPadded 2 b.toNat).map Char.toUpper

/-- The encoded form of a character, if it has to be encoded, as those outside ASCII always have to
be. -/
def encodeChar (reserved : Char → Bool) (c : Char) : List Char :=
  if 0x80 ≤ c.toNat ∨ reserved c then (Utf8.encode (String.singleton c)).flatMap encodeByte
  else [c]

def encode (reserved : Char → Bool) (text : String) : String :=
  String.ofList (text.toList.flatMap (encodeChar reserved))

def digit? (b : UInt8) : Option UInt8 :=
  (Ascii.hexDigit? (Char.ofNat b.toNat)).map Nat.toUInt8

/-- The bytes with encoded ones decoded. A percent sign without two digits stays. -/
def decode : List UInt8 → List UInt8
  | [] => []
  | b :: bytes =>
    if b = 0x25 then
      match bytes with
      | high :: low :: rest =>
        match digit? high, digit? low with
        | some h, some l => (h * 16 + l) :: decode rest
        | _, _ => b :: decode (high :: low :: rest)
      | few => b :: decode few
    else b :: decode bytes

def control (c : Char) : Bool :=
  c.toNat < 0x20 || c.toNat = 0x7F

def fragment (c : Char) : Bool :=
  control c || " \"<>`".contains c

def path (c : Char) : Bool :=
  fragment c || "#?\x7b\x7d".contains c

/-- The characters that are encoded in the part before a host. -/
def userinfo (c : Char) : Bool :=
  path c || "/:;=@[\\]^|".contains c

/-- The characters that are encoded in a text that is to be one segment of a path. -/
def segment (special : Bool) (c : Char) : Bool :=
  path c || c = '/' || c = '%' || (special && c = '\\')

def query (special : Bool) (c : Char) : Bool :=
  control c || " \"#<>".contains c || (special && c = '\'')

end VmAdmission.Percent
