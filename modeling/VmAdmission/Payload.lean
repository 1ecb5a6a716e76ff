import VmAdmission.Json.Decoder

namespace VmAdmission

/-- The object of those members that have a value. -/
def Json.ofPresent (members : List (String × Option Json)) : Json :=
  .object (members.filterMap fun m => m.2.map (m.1, ·))

/-- Where machines are to be placed. -/
structure Destination where
  clusterId : Option String := none
  folderId : Option String := none
  hostId : Option String := none
  resourcePoolId : Option String := none
deriving DecidableEq

namespace Destination

def json (d : Destination) : Json :=
  .ofPresent [
    ("clusterId", d.clusterId.map .string),
    ("folderId", d.folderId.map .string),
    ("hostId", d.hostId.map .string),
    ("resourcePoolId", d.resourcePoolId.map .string)]

structure Draft where
  clusterId : Option (Option String) := none
  folderId : Option (Option String) := none
  hostId : Option (Option String) := none
  resourcePoolId : Option (Option String) := none

def shape : Json.Decoder.Shape Draft Destination where
  name := "Destination"
  fields := [
    .of "clusterId" false (·.clusterId) (fun d x => { d with clusterId := some x })
      (.option .string),
    .of "folderId" false (·.folderId) (fun d x => { d with folderId := some x })
      (.option .string),
    .of "hostId" false (·.hostId) (fun d x => { d with hostId := some x }) (.option .string),
    .of "resourcePoolId" false (·.resourcePoolId)
      (fun d x => { d with resourcePoolId := some x }) (.option .string)]
  empty := {}
  build d := .ok ⟨d.clusterId.join, d.folderId.join, d.hostId.join, d.resourcePoolId.join⟩

def decoder : Json.Decoder Destination := .record shape

end Destination

/-- The image that machines are made from. -/
structure ImageSource where
  imageId : Option String := none
  /-- The file of the image, found in the catalogue when the order is validated. -/
  imageName : Option String := none
  imageSourceType : Option String := none
deriving DecidableEq

namespace ImageSource

def json (s : ImageSource) : Json :=
  .ofPresent [
    ("imageId", s.imageId.map .string),
    ("imageName", s.imageName.map .string),
    ("imageSourceType", s.imageSourceType.map .string)]

structure Draft where
  imageId : Option (Option String) := none
  imageName : Option (Option String) := none
  imageSourceType : Option (Option String) := none

def shape : Json.Decoder.Shape Draft ImageSource where
  name := "ImageSource"
  fields := [
    .of "imageId" false (·.imageId) (fun d x => { d with imageId := some x }) (.option .string),
    .of "imageName" false (·.imageName) (fun d x => { d with imageName := some x })
      (.option .string),
    .of "imageSourceType" false (·.imageSourceType)
      (fun d x => { d with imageSourceType := some x }) (.option .string)]
  empty := {}
  build d := .ok ⟨d.imageId.join, d.imageName.join, d.imageSourceType.join⟩

def decoder : Json.Decoder ImageSource := .record shape

end ImageSource

/-- The machines to deploy: the base of their names and how many there are. -/
structure VmConfig where
  name : String
  numberOfVms : Option Int64 := none
  acceptEula : Option Bool := none
  remark : Option String := none
  locale : Option String := none
  powerOn : Option Bool := none
  propertyConfig : Option Json.Canonical := none

namespace VmConfig

def json (c : VmConfig) : Json :=
  .ofPresent [
    ("name", some (.string c.name)),
    ("numberOfVms", c.numberOfVms.map .ofInt64),
    ("acceptEula", c.acceptEula.map .bool),
    ("annotation", c.remark.map .string),
    ("locale", c.locale.map .string),
    ("powerOn", c.powerOn.map .bool),
    ("propertyConfig", c.propertyConfig.map (·.json))]

structure Draft where
  name : Option String := none
  numberOfVms : Option (Option Int64) := none
  acceptEula : Option (Option Bool) := none
  remark : Option (Option String) := none
  locale : Option (Option String) := none
  powerOn : Option (Option Bool) := none
  propertyConfig : Option (Option Json.Canonical) := none

def shape : Json.Decoder.Shape Draft VmConfig where
  name := "VmConfig"
  fields := [
    .of "name" true (·.name) (fun d x => { d with name := some x }) .string,
    .of "numberOfVms" false (·.numberOfVms) (fun d x => { d with numberOfVms := some x })
      (.option .int64),
    .of "acceptEula" false (·.acceptEula) (fun d x => { d with acceptEula := some x })
      (.option .bool),
    .of "annotation" false (·.remark) (fun d x => { d with remark := some x })
      (.option .string),
    .of "locale" false (·.locale) (fun d x => { d with locale := some x }) (.option .string),
    .of "powerOn" false (·.powerOn) (fun d x => { d with powerOn := some x }) (.option .bool),
    .of "propertyConfig" false (·.propertyConfig) (fun d x => { d with propertyConfig := some x })
      (.option Json.tree)]
  empty := {}
  build d := do
    let some name := d.name | throw "name"
    return ⟨name, d.numberOfVms.join, d.acceptEula.join, d.remark.join, d.locale.join,
      d.powerOn.join, d.propertyConfig.join⟩

def decoder : Json.Decoder VmConfig := .record shape

end VmConfig

/-- An order to deploy machines. -/
structure DeployOrder where
  destination : Destination := {}
  imageSource : ImageSource := {}
  vmConfig : VmConfig
  networkConfig : Option Json.Canonical := none
  storageConfig : Option Json.Canonical := none
  vmPolicy : Option Json.Canonical := none

namespace DeployOrder

def json (o : DeployOrder) : Json :=
  .ofPresent [
    ("destination", some o.destination.json),
    ("imageSource", some o.imageSource.json),
    ("vmConfig", some o.vmConfig.json),
    ("networkConfig", o.networkConfig.map (·.json)),
    ("storageConfig", o.storageConfig.map (·.json)),
    ("vmPolicy", o.vmPolicy.map (·.json))]

/-- The text that is stored for the order. -/
def text (o : DeployOrder) : String := o.json.text

structure Draft where
  destination : Option Destination := none
  imageSource : Option ImageSource := none
  vmConfig : Option VmConfig := none
  networkConfig : Option (Option Json.Canonical) := none
  storageConfig : Option (Option Json.Canonical) := none
  vmPolicy : Option (Option Json.Canonical) := none

def shape : Json.Decoder.Shape Draft DeployOrder where
  name := "DeployVmRequest"
  fields := [
    .of "destination" false (·.destination) (fun d x => { d with destination := some x })
      Destination.decoder,
    .of "imageSource" false (·.imageSource) (fun d x => { d with imageSource := some x })
      ImageSource.decoder,
    .of "vmConfig" true (·.vmConfig) (fun d x => { d with vmConfig := some x }) VmConfig.decoder,
    .of "networkConfig" false (·.networkConfig) (fun d x => { d with networkConfig := some x })
      (.option Json.tree),
    .of "storageConfig" false (·.storageConfig) (fun d x => { d with storageConfig := some x })
      (.option Json.tree),
    .of "vmPolicy" false (·.vmPolicy) (fun d x => { d with vmPolicy := some x })
      (.option Json.tree)]
  empty := {}
  build d := do
    let some vmConfig := d.vmConfig | throw "vmConfig"
    return ⟨d.destination.getD {}, d.imageSource.getD {}, vmConfig, d.networkConfig.join,
      d.storageConfig.join, d.vmPolicy.join⟩

def decoder : Json.Decoder DeployOrder := .record shape

end DeployOrder

structure VmOrder where
  vmId : String
  /-- The configuration that is wanted; only a reconfiguration has one. -/
  spec : Option Json.Canonical := none

namespace VmOrder

def json (o : VmOrder) : Json :=
  .ofPresent [("vmId", some (.string o.vmId)), ("spec", o.spec.map (·.json))]

/-- The text that is stored for the order. -/
def text (o : VmOrder) : String := o.json.text

structure Draft where
  vmId : Option String := none
  spec : Option (Option Json.Canonical) := none

def shape : Json.Decoder.Shape Draft VmOrder where
  name := "VmOperationRequest"
  fields := [
    .of "vmId" true (·.vmId) (fun d x => { d with vmId := some x }) .string,
    .of "spec" false (·.spec) (fun d x => { d with spec := some x }) (.option Json.tree)]
  empty := {}
  build d := do
    let some vmId := d.vmId | throw "vmId"
    return ⟨vmId, d.spec.join⟩

def decoder : Json.Decoder VmOrder := .record shape

end VmOrder

end VmAdmission
