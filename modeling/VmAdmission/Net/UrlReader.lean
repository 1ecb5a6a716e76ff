import VmAdmission.Net.Domain
import VmAdmission.Net.IpReader
import VmAdmission.Net.Url

namespace VmAdmission

inductive UrlError
  | relative
  | emptyHost
  | invalidPort
  | invalidIpv4
  | invalidIpv6
  | invalidDomain
  | invalidDomainCharacter
deriving DecidableEq

def UrlError.message : UrlError → String
  | relative => "relative URL without a base"
  | emptyHost => "empty host"
  | invalidPort => "invalid port number"
  | invalidIpv4 => "invalid IPv4 address"
  | invalidIpv6 => "invalid IPv6 address"
  | invalidDomain => "invalid international domain name"
  | invalidDomainCharacter => "invalid domain character"

namespace Ipv4

/-- A number as a host may have it: decimal, octal after a zero, or hexadecimal after `0x`. Nothing
when the text is none of these. -/
def number? (text : List Char) : Option Nat :=
  let (radix, digits) : Nat × List Char := match text with
    | '0' :: 'x' :: rest => (16, rest)
    | '0' :: 'X' :: rest => (16, rest)
    | '0' :: c :: rest => (8, c :: rest)
    | _ => (10, text)
  if text.isEmpty then none
  else digits.foldl (fun n c => do
    let d ← Ascii.hexDigit? c
    if d < radix then some ((← n) * radix + d) else none) (some 0)

/-- The parts of a text between dots, without a final empty one. -/
def numberParts (text : List Char) : List (List Char) :=
  let all := Domain.labels text
  if all.getLast? = some [] then all.dropLast else all

/-- The last part of a host is a number, so that the host has to be an address of version 4. -/
def endsInNumber (text : List Char) : Bool :=
  match (numberParts text).getLast? with
  | none => false
  | some last =>
    (!last.isEmpty && last.all fun c => (Ascii.digit? c).isSome) || (number? last).isSome

/-- The address of up to four numbers, the last of which fills all remaining octets. -/
def ofNumbers? (numbers : List Nat) : Option Ipv4 :=
  match numbers.reverse with
  | [] => none
  | last :: before =>
    let front := before.reverse
    if 4 < numbers.length ∨ Nat.pow 256 (4 - front.length) ≤ last ∨ front.any (255 < ·) then none
    else
      let high := front.foldl (fun n octet => n * 256 + octet) 0
      some (.ofNat (high * Nat.pow 256 (4 - front.length) + last))

def ofHost? (text : List Char) : Option Ipv4 := do
  ofNumbers? (← (numberParts text).mapM number?)

end Ipv4

namespace UrlHost

def forbidden (c : Char) : Bool :=
  Percent.control c || " %#/:<>?@[\\]^|".contains c

/-- The characters that the host of an address with an unknown scheme must not have. -/
def forbiddenLoosely (c : Char) : Bool :=
  "\x00\t\n\r #/:<>?@[\\]^|".contains c

def bracketed (text : List Char) : Except UrlError UrlHost :=
  if 2 ≤ text.length ∧ text.getLast? = some ']' then
    match Ipv6.parse? (String.ofList text.tail.dropLast) with
    | some ip => .ok (ipv6 ip)
    | none => .error .invalidIpv6
  else .error .invalidIpv6

def parse [Domain.Reader] (text : List Char) : Except UrlError UrlHost :=
  if text.head? = some '[' then bracketed text
  else
    let decoded := Utf8.decode? (Percent.decode (Utf8.encode (String.ofList text)))
    match decoded.bind fun name => Domain.Reader.ascii? name.toList with
    | none => .error .invalidDomain
    | some name =>
      if name.any forbidden then .error .invalidDomain
      else if name.isEmpty then .error .emptyHost
      else if Ipv4.endsInNumber name then
        match Ipv4.ofHost? name with
        | some ip => .ok (ipv4 ip)
        | none => .error .invalidIpv4
      else .ok (domain (String.ofList name))

/-- Reads the host of an address with any other scheme. -/
def parseLoosely (text : List Char) : Except UrlError UrlHost :=
  if text.head? = some '[' then bracketed text
  else if text.any forbiddenLoosely then .error .invalidDomainCharacter
  else .ok (domain (Percent.encode Percent.control (String.ofList text)))

end UrlHost

namespace Url

/-- The text without what comes before and after an address and what no address keeps. -/
def clean (text : String) : List Char :=
  let isEdge (c : Char) : Bool := c.toNat ≤ 0x20
  let trimmed := ((text.toList.dropWhile isEdge).reverse.dropWhile isEdge).reverse
  trimmed.filter fun c => !UrlPath.isDropped c

def isSchemeChar (c : Char) : Bool :=
  c.isAlphanum || c = '+' || c = '-' || c = '.'

def scheme? (cs : List Char) : Option (String × List Char) :=
  let (name, rest) := cs.span isSchemeChar
  match name, rest with
  | first :: _, ':' :: rest =>
    if first.isAlpha then some (String.ofList (name.map Char.toLower), rest) else none
  | _, _ => none

/-- The character is a slash, or a backslash where that counts as one. -/
def isSlash (special : Bool) (c : Char) : Bool :=
  c = '/' || (special && c = '\\')

def endsAuthority (special : Bool) (c : Char) : Bool :=
  isSlash special c || c = '?' || c = '#'

/-- The text cut at its last `@`: what comes before, if there is one, and what comes after. -/
def cutAtSign (cs : List Char) : Option (List Char) × List Char :=
  match cs.reverse.span (· ≠ '@') with
  | (after, _ :: before) => (some before.reverse, after.reverse)
  | (_, []) => (none, cs)

def userinfoText (cs : List Char) : Option String :=
  let (user, rest) := cs.span (· ≠ ':')
  let encode (part : List Char) := Percent.encode Percent.userinfo (String.ofList part)
  let password := rest.tail
  if user.isEmpty ∧ password.isEmpty then none
  else some (encode user ++ if password.isEmpty then "" else ":" ++ encode password)

/-- The text of a host and the text after it; a colon in square brackets is no end. -/
def hostPart (special : Bool) : Bool → List Char → List Char × List Char
  | _, [] => ([], [])
  | bracket, c :: cs =>
    if (c = ':' ∧ ¬ bracket) ∨ endsAuthority special c then ([], c :: cs)
    else
      let (host, rest) := hostPart special (if c = '[' then true else c ≠ ']' && bracket) cs
      (c :: host, rest)

def portDigits : Option Nat → List Char → Except UrlError (Option Nat × List Char)
  | port, [] => .ok (port, [])
  | port, c :: cs =>
    match Ascii.digit? c with
    | some d =>
      let n := port.getD 0 * 10 + d
      if n ≤ 65535 then portDigits (some n) cs else .error .invalidPort
    | none => if endsAuthority true c then .ok (port, c :: cs) else .error .invalidPort

/-- Reads a port after its colon, if there is one. The port that the scheme implies is left out. -/
def portPart (scheme : String) : List Char → Except UrlError (Option UInt16 × List Char)
  | ':' :: cs => do
    let (port, rest) ← portDigits none cs
    let port := port.map Nat.toUInt16
    .ok (if port = defaultPort scheme then none else port, rest)
  | cs => .ok (none, cs)

def oneDot : List String := [".", "%2e"]

def twoDots : List String := ["..", ".%2e", "%2e.", "%2e%2e"]

/-- The path with the next segment of a text; a slash comes after it unless it is the last. -/
def pathStep (segments : List String) (part : List Char) (last : Bool) : List String :=
  let name := String.ofList part
  let more := if last then [""] else []
  if twoDots.contains (Ascii.lower name) then segments.dropLast ++ more
  else if oneDot.contains (Ascii.lower name) then segments ++ more
  else segments ++ [Percent.encode Percent.path name]

/-- Reads the segments of a path, given those before and the characters of the current one, both
newest first. -/
def pathFrom (special : Bool) (segments : List String) (part : List Char) :
    List Char → List String
  | [] => pathStep segments part.reverse true
  | c :: cs =>
    if isSlash special c then pathFrom special (pathStep segments part.reverse false) [] cs
    else pathFrom special segments (c :: part) cs

def pathPart (special : Bool) : List Char → List String
  | [] => if special then [""] else []
  | c :: cs => if isSlash special c then pathFrom special [] [] cs else pathFrom special [] [] (c :: cs)

/-- Reads the path of the address of a file, which begins with one slash only. -/
def filePathPart (cs : List Char) : List String :=
  match (pathPart true cs).dropWhile (· = "") with
  | [] => [""]
  | segments => segments

structure Pieces where
  path : List Char
  query : Option (List Char)
  fragment : Option (List Char)

/-- Cuts a text at its question mark and its number sign. -/
def pieces (cs : List Char) : Pieces :=
  let (front, fragment) := cs.span (· ≠ '#')
  let (path, query) := front.span (· ≠ '?')
  ⟨path, if query.isEmpty then none else some query.tail,
    if fragment.isEmpty then none else some fragment.tail⟩

def withPieces (url : Url) (cut : Pieces) : Url :=
  { url with
    query := cut.query.map fun cs =>
      Percent.encode (Percent.query (isSpecial url.scheme)) (String.ofList cs)
    fragment := cut.fragment.map fun cs => Percent.encode Percent.fragment (String.ofList cs) }

def parseAuthority [Domain.Reader] (scheme : String) (cs : List Char) : Except UrlError Url := do
  let special := isSpecial scheme
  let (authority, rest) := cs.span fun c => !endsAuthority special c
  let (user, hostAndPort) := cutAtSign authority
  if user = some [] ∧ hostAndPort.isEmpty ∧ ¬ rest.isEmpty then throw .emptyHost
  let userinfo := user.bind userinfoText
  let (hostText, rest) := hostPart special false (hostAndPort ++ rest)
  if hostText.isEmpty ∧ (special ∨ rest.head? = some ':' ∨ userinfo.isSome) then throw .emptyHost
  let host ← if special then UrlHost.parse hostText else UrlHost.parseLoosely hostText
  let (port, rest) ← portPart scheme rest
  let cut := pieces rest
  let url : Url := {
    scheme
    userinfo
    host := if host = .domain "" then none else some host
    port
    path := .segments (pathPart special cut.path)
    query := none
    fragment := none }
  return url.withPieces cut

def hostless (scheme : String) (path : UrlPath) : Url :=
  ⟨scheme, none, none, none, path, none, none⟩

def parseFile [Domain.Reader] (cs : List Char) : Except UrlError Url := do
  let slash := isSlash true
  match cs with
  | a :: b :: rest =>
    if slash a ∧ slash b then
      let (hostText, rest) := rest.span fun c => !endsAuthority true c
      let host ← if hostText.isEmpty then pure none else some <$> UrlHost.parse hostText
      let cut := pieces rest
      let path := UrlPath.segments (filePathPart cut.path)
      let host := if host = some (.domain "localhost") then none else host
      return { hostless "file" path with host } |>.withPieces cut
    else
      let cut := pieces cs
      return (hostless "file" (.segments (filePathPart cut.path))).withPieces cut
  | _ =>
    let cut := pieces cs
    return (hostless "file" (.segments (filePathPart cut.path))).withPieces cut

def parseLoosely [Domain.Reader] (scheme : String) (cs : List Char) : Except UrlError Url :=
  match cs with
  | '/' :: '/' :: rest => parseAuthority scheme rest
  | '/' :: _ =>
    let cut := pieces cs
    .ok ((hostless scheme (.segments (pathPart false cut.path))).withPieces cut)
  | _ =>
    let cut := pieces cs
    let path := Percent.encode Percent.control (String.ofList cut.path)
    .ok ((hostless scheme (.flat path)).withPieces cut)

def parse [Domain.Reader] (text : String) : Except UrlError Url :=
  match scheme? (clean text) with
  | none => .error .relative
  | some (scheme, rest) =>
    if scheme = "file" then parseFile rest
    else if isSpecial scheme then parseAuthority scheme (rest.dropWhile (isSlash true))
    else parseLoosely scheme rest

end Url

end VmAdmission
