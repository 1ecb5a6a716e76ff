import VmAdmission.Json.Decoder

namespace VmAdmission

structure Image where
  id : String
  filename : String
  name : Option String
deriving DecidableEq

namespace Image

def json (image : Image) : Json :=
  .object [
    ("id", .string image.id),
    ("filename", .string image.filename),
    ("name", (image.name.map .string).getD .null)]

structure Draft where
  id : Option String := none
  filename : Option String := none
  name : Option (Option String) := none

def shape : Json.Decoder.Shape Draft Image where
  name := "HypervisorImage"
  fields := [
    .of "id" true (·.id) (fun d x => { d with id := some x }) .string,
    .of "filename" true (·.filename) (fun d x => { d with filename := some x }) .string,
    .of "name" false (·.name) (fun d x => { d with name := some x }) (.option .string)]
  empty := {}
  build d := do
    let some id := d.id | throw "id"
    let some filename := d.filename | throw "filename"
    return ⟨id, filename, d.name.join⟩

def decoder : Json.Decoder Image := .record shape

end Image

/-- The kinds of places that machines are put in. -/
inductive PlaceKind
  | host
  | cluster
deriving DecidableEq

namespace PlaceKind

def word : PlaceKind → String
  | host => "host"
  | cluster => "cluster"

/-- The name of the type of such a place, by which messages call it. -/
def typeName : PlaceKind → String
  | host => "HypervisorHost"
  | cluster => "HypervisorCluster"

def nameKey : PlaceKind → String
  | host => "hostName"
  | cluster => "clusterName"

end PlaceKind

/-- A place that machines can be put in, and how it is. -/
structure Place where
  name : String
  status : String
deriving DecidableEq

namespace Place

def json (kind : PlaceKind) (place : Place) : Json :=
  .object [(kind.nameKey, .string place.name), ("status", .string place.status)]

structure Draft where
  name : Option String := none
  status : Option String := none

def shape (kind : PlaceKind) : Json.Decoder.Shape Draft Place where
  name := kind.typeName
  fields := [
    .of kind.nameKey true (·.name) (fun d x => { d with name := some x }) .string,
    .of "status" true (·.status) (fun d x => { d with status := some x }) .string]
  empty := {}
  build d := do
    let some name := d.name | throw kind.nameKey
    let some status := d.status | throw "status"
    return ⟨name, status⟩

def decoder (kind : PlaceKind) : Json.Decoder Place := .record (shape kind)

end Place

/-- What is measured of a machine. Members other than its id and power state are passed through. -/
structure VmMetrics where
  vmId : Option String
  powerState : String
  extra : Members

namespace VmMetrics

/-- The tree, its members sorted by key. -/
def json (metrics : VmMetrics) : Json :=
  (Json.Canonical.object
    (("vmId", ((metrics.vmId.map .string).getD .null)) ::
      ("powerState", .string metrics.powerState) :: metrics.extra.entries)).json

/-- Metrics that are being read; the members to pass through are gathered newest first. -/
structure Draft where
  vmId : Option (Option String) := none
  powerState : Option String := none
  extra : List (Member Json.Canonical) := []

/-- Reads a member to pass through. -/
def extraMember (key : String) : Json.Decoder (Draft → Draft) := fun budget cur => do
  let (value, cur) ← Json.tree budget cur
  return (fun d => { d with extra := (key, value) :: d.extra }, cur)

def shape : Json.Decoder.Shape Draft VmMetrics where
  name := "VmMetrics"
  fields := [
    .of "vmId" false (·.vmId) (fun d x => { d with vmId := some x }) (.option .string),
    { Json.Decoder.Field.of "powerState" true (·.powerState)
        (fun d x => { d with powerState := some x }) .string with
      otherName := some "powerstate" }]
  empty := {}
  build d := do
    let some powerState := d.powerState | throw "powerState"
    return ⟨d.vmId.join, powerState, .ofList d.extra.reverse⟩
  other := extraMember
  fromArray := false

def decoder : Json.Decoder VmMetrics := .record shape

end VmMetrics

end VmAdmission
