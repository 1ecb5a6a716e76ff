import VmAdmission.Operation

namespace VmAdmission.Http

/-- The methods of requests. Names are compared as they are. -/
inductive Method
  | get
  | head
  | post
  | patch
  | delete
  | other (name : String)
deriving DecidableEq

namespace Method

def ofName (name : String) : Method :=
  match name with
  | "GET" => get
  | "HEAD" => head
  | "POST" => post
  | "PATCH" => patch
  | "DELETE" => delete
  | _ => other name

def name : Method → String
  | get => "GET"
  | head => "HEAD"
  | post => "POST"
  | patch => "PATCH"
  | delete => "DELETE"
  | other name => name

end Method

def actions : List (String × Operation) := [
  ("power-on", .powerOn),
  ("power-off", .powerOff),
  ("reset", .reset),
  ("refresh", .refresh),
  ("restart-guest-os", .restartGuestOs),
  ("shutdown-guest-os", .shutdownGuestOs)]

/-- A route, with its parameter as it stands in the path. -/
inductive Route
  | health
  | machines
  | machine (rawId : String)
  | action (operation : Operation) (rawId : String)
  | requests
  | request (rawId : String)
deriving DecidableEq

namespace Route

/-- The text before the first of the characters that end a path. -/
def pathOf (target : String) : List Char :=
  target.toList.takeWhile fun c => c ≠ '?' && c ≠ '#'

/-- The segments between slashes, given the characters of the last one so far, newest first. -/
def segmentsFrom (part : List Char) : List Char → List String
  | [] => [String.ofList part.reverse]
  | c :: cs =>
    if c = '/' then String.ofList part.reverse :: segmentsFrom [] cs
    else segmentsFrom (c :: part) cs

/-- The route below the root of the interface. A parameter takes one segment, which may be empty
only when another one follows. -/
def belowRoot : List String → Option Route
  | ["virtual-machines"] => some machines
  | ["virtual-machines", id] => if id = "" then none else some (machine id)
  | ["virtual-machines", id, last] => (actions.lookup last).map (action · id)
  | ["virtual-machines-request"] => some requests
  | ["virtual-machines-request", id] => if id = "" then none else some (request id)
  | _ => none

def apiRoot : String := "/virtualization/v1beta1"

/-- The route of a request target, if there is one. Query and fragment are not looked at. -/
def ofTarget? (target : String) : Option Route :=
  match segmentsFrom [] (pathOf target) with
  | ["", "health"] => some health
  | "" :: "virtualization" :: "v1beta1" :: rest => belowRoot rest
  | _ => none

def methods : Route → List Method
  | health => [.get, .head]
  | machines => [.post]
  | machine _ => [.patch, .delete]
  | action _ _ => [.post]
  | requests => [.get, .head]
  | request _ => [.get, .head]

end Route

end VmAdmission.Http
