import VmAdmission.Net.Ip
import VmAdmission.Net.Percent

namespace VmAdmission

inductive UrlHost
  | domain (name : String)
  | ipv4 (ip : Ipv4)
  | ipv6 (ip : Ipv6)
deriving DecidableEq

/-- The path of an address: segments, each after a slash, or a text that is no such path. -/
inductive UrlPath
  | segments (list : List String)
  | flat (text : String)
deriving DecidableEq

/-- An address, its parts as they are written, with all escapes. -/
structure Url where
  scheme : String
  /-- User and password, if there are any. -/
  userinfo : Option String
  host : Option UrlHost
  port : Option UInt16
  path : UrlPath
  query : Option String
  fragment : Option String
deriving DecidableEq

namespace UrlHost

def text : UrlHost → String
  | domain name => name
  | ipv4 ip => ip.text
  | ipv6 ip => "[" ++ ip.text ++ "]"

end UrlHost

namespace UrlPath

/-- The segments of a path that a segment is added to: a path of one empty segment has none. -/
def stem (segments : List String) : List String :=
  if segments = [""] then [] else segments

/-- The segments with a final empty one removed, but for the only one. -/
def popEmpty (segments : List String) : List String :=
  if segments.getLast? = some "" ∧ segments ≠ [""] then segments.dropLast else segments

/-- Line breaks and tabs, which no address keeps. -/
def isDropped (c : Char) : Bool :=
  c = '\t' || c = '\n' || c = '\r'

/-- The segments with a text added as one segment. Dots that are left when tabs and line breaks
are dropped keep their meaning: one dot adds an empty segment, two replace the last segment. -/
def addSegment (special : Bool) (segments : List String) (text : String) : List String :=
  let kept := String.ofList (text.toList.filter fun c => !isDropped c)
  if kept = "." then stem segments ++ [""]
  else if kept = ".." then (stem segments).dropLast ++ [""]
  else stem segments ++ [Percent.encode (Percent.segment special) kept]

def addSegments (special : Bool) (segments : List String) (texts : List String) : List String :=
  texts.foldl (addSegment special) segments

def text : UrlPath → String
  | segments list => "".intercalate (list.map ("/" ++ ·))
  | flat text => text

end UrlPath

namespace Url

/-- The schemes whose addresses always have a host and a path, with the port that each implies. -/
def specialPorts : List (String × Option UInt16) :=
  [("http", some 80), ("https", some 443), ("ws", some 80), ("wss", some 443), ("ftp", some 21),
    ("file", none)]

def isSpecial (scheme : String) : Bool :=
  (specialPorts.lookup scheme).isSome

def defaultPort (scheme : String) : Option UInt16 :=
  (specialPorts.lookup scheme).join

/-- What comes between the scheme and the path. -/
def authorityText (url : Url) : String :=
  match url.host with
  | some host =>
    "//" ++ ((url.userinfo.map (· ++ "@")).getD "") ++ host.text ++
      ((url.port.map fun port => ":" ++ toString port).getD "")
  | none =>
    match url.path with
    | .segments ("" :: _ :: _) => if url.scheme = "file" then "//" else "/."
    | _ => if url.scheme = "file" then "//" else ""

def text (url : Url) : String :=
  url.scheme ++ ":" ++ url.authorityText ++ url.path.text ++
    ((url.query.map ("?" ++ ·)).getD "") ++ ((url.fragment.map ("#" ++ ·)).getD "")

/-- The address with texts added to its path as one segment each, after one final empty segment is
removed; nothing for an address whose path has no segments. -/
def append? (url : Url) (texts : List String) : Option Url :=
  match url.path with
  | .flat _ => none
  | .segments list =>
    some { url with
      path := .segments (UrlPath.addSegments (isSpecial url.scheme) (UrlPath.popEmpty list) texts) }

/-- User and password, or what there is of them, are texts when they are decoded. -/
def hasReadableUserinfo (url : Url) : Bool :=
  match url.userinfo with
  | none => true
  | some info =>
    let (user, rest) := info.toList.span (· ≠ ':')
    let readable (part : List Char) : Bool :=
      (Utf8.decode? (Percent.decode (Utf8.encode (String.ofList part)))).isSome
    readable user && (!user.isEmpty || readable rest.tail)

/-- The address without user and password, which stay only if they cannot be read. -/
def withoutUserinfo (url : Url) : Url :=
  if url.hasReadableUserinfo then { url with userinfo := none } else url

end Url

end VmAdmission
