import MbedClient.Firmware

/-! `M2MDevice`: the device object, whose resources the application creates, sets and deletes, where
the allocations succeed. -/
namespace MbedClient.Device
open Firmware (operationPostAllowed)

inductive DeviceResource where
  | manufacturer | deviceType | modelNumber | serialNumber | hardwareVersion | firmwareVersion
  | softwareVersion | reboot | factoryReset | availablePowerSources | powerSourceVoltage
  | powerSourceCurrent | batteryLevel | batteryStatus | memoryFree | memoryTotal | errorCode
  | resetErrorCode | currentTime | utcOffset | timezone | supportedBindingMode
  deriving DecidableEq

namespace DeviceResource

def name : DeviceResource → Bytes
  | manufacturer => [0x30]
  | deviceType => [0x31, 0x37]
  | modelNumber => [0x31]
  | serialNumber => [0x32]
  | hardwareVersion => [0x31, 0x38]
  | firmwareVersion => [0x33]
  | softwareVersion => [0x31, 0x39]
  | reboot => [0x34]
  | factoryReset => [0x35]
  | availablePowerSources => [0x36]
  | powerSourceVoltage => [0x37]
  | powerSourceCurrent => [0x38]
  | batteryLevel => [0x39]
  | batteryStatus => [0x32, 0x30]
  | memoryFree => [0x31, 0x30]
  | memoryTotal => [0x32, 0x31]
  | errorCode => [0x31, 0x31]
  | resetErrorCode => [0x31, 0x32]
  | currentTime => [0x31, 0x33]
  | utcOffset => [0x31, 0x34]
  | timezone => [0x31, 0x35]
  | supportedBindingMode => [0x31, 0x36]

/-- What may be created and set with a text. -/
def isText : DeviceResource → Bool
  | manufacturer | deviceType | modelNumber | serialNumber | hardwareVersion | firmwareVersion
  | softwareVersion | utcOffset | timezone => true
  | _ => false

/-- What may be created with a number. -/
def isSingleNumber : DeviceResource → Bool
  | batteryLevel | batteryStatus | memoryFree | memoryTotal | currentTime => true
  | _ => false

/-- What has resource instances. -/
def isMultiple : DeviceResource → Bool
  | availablePowerSources | powerSourceVoltage | powerSourceCurrent | errorCode => true
  | _ => false

/-- What may be set with a number and is read as one. -/
def isNumber (r : DeviceResource) : Bool := r.isSingleNumber || r.isMultiple

/-- What may be created without a value. -/
def isExecutable : DeviceResource → Bool
  | factoryReset | resetErrorCode => true
  | _ => false

def isMandatory : DeviceResource → Bool
  | reboot | errorCode | supportedBindingMode => true
  | _ => false

def textOperation : DeviceResource → UInt8
  | utcOffset | timezone => getPutAllowed
  | _ => getAllowed

def numberOperation : DeviceResource → UInt8
  | currentTime => getPutAllowed
  | _ => getAllowed

def checkValueRange (r : DeviceResource) (value : Int64) : Bool :=
  match r with
  | availablePowerSources => decide (0 ≤ value) && decide (value ≤ 7)
  | batteryLevel => decide (0 ≤ value) && decide (value ≤ 100)
  | batteryStatus => decide (0 ≤ value) && decide (value ≤ 6)
  | errorCode => decide (0 ≤ value) && decide (value ≤ 8)
  | _ => true

end DeviceResource

structure M2MDevice where
  deviceInstance : M2MObjectInstance

namespace M2MDevice
variable (d : M2MDevice)

/-- The value behind the pointer that `get_resource_instance` returns is another one. -/
def storeIn (id : UInt16) (value : Bytes) (res : M2MResource) : Bool × M2MResource :=
  if res.multipleInstance then
    let (found, instances) :=
      Keyed.onEntry (·.instanceId) id (fun i => (true, { i with value })) res.instances
    (found, { res with instances })
  else (true, { res with value })

def store (r : DeviceResource) (id : UInt16) (value : Bytes) : Bool × M2MDevice :=
  let (success, oi) := d.deviceInstance.onResource r.name (storeIn id value)
  (success, ⟨oi⟩)

/-- A resource under its name, then its value. -/
def addResource (r : DeviceResource) (type : ResourceType) (operation : UInt8) (value : Bytes) :
    Bool × M2MDevice :=
  let (created, oi) := d.deviceInstance.createResource r.name fun name =>
    ⟨⟨.dynamic, operation, type, []⟩, name, false, []⟩
  (created, if created then (store ⟨oi⟩ r 0 value).2 else ⟨oi⟩)

def addResourceInstance (r : DeviceResource) (id : UInt16) (value : Bytes) : Bool × M2MDevice :=
  let (created, oi) :=
    d.deviceInstance.createResourceInstance r.name ⟨.dynamic, getAllowed, .integer, []⟩ id
  (created, if created then (store ⟨oi⟩ r id value).2 else ⟨oi⟩)

def new : M2MDevice :=
  let d : M2MDevice := ⟨⟨0, []⟩⟩
  let d := (d.addResource .reboot .opaqueData operationPostAllowed []).2
  let d := (d.addResourceInstance .errorCode 0 (itoaC 0)).2
  (d.addResource .supportedBindingMode .string getAllowed [0x55]).2

def getResourceInstance (r : DeviceResource) (id : UInt16) : Option M2MResourceBase :=
  (d.deviceInstance.resource r.name).bind fun res =>
    if res.multipleInstance then (res.resourceInstance id).map (·.toM2MResourceBase)
    else some res.toM2MResourceBase

def isResourcePresent (r : DeviceResource) : Bool := (d.getResourceInstance r 0).isSome

/-- `create_resource` with a text. -/
def createResourceString (r : DeviceResource) (value : Bytes) : Bool × M2MDevice :=
  if !d.isResourcePresent r && decide (value.length ≤ maxAllowedStringLength) && r.isText then
    d.addResource r .string r.textOperation value
  else (false, d)

/-- `create_resource` with a number. -/
def createResourceInt (r : DeviceResource) (value : Int64) : Bool × M2MDevice :=
  if !d.isResourcePresent r && r.isSingleNumber && r.checkValueRange value then
    d.addResource r .integer r.numberOperation (itoaC value)
  else (false, d)

def createResourceInstance (r : DeviceResource) (value : Int64) (id : UInt16) : Bool × M2MDevice :=
  if r.isMultiple && r.checkValueRange value then d.addResourceInstance r id (itoaC value)
  else (false, d)

/-- `create_resource` without a value. -/
def createResource (r : DeviceResource) : Bool × M2MDevice :=
  if !d.isResourcePresent r && r.isExecutable then
    d.addResource r .opaqueData operationPostAllowed []
  else (false, d)

def deleteResource (r : DeviceResource) : Bool × M2MDevice :=
  if !r.isMandatory then
    let (success, oi) := d.deviceInstance.removeResource r.name
    (success, ⟨oi⟩)
  else (false, d)

def deleteResourceInstance (r : DeviceResource) (id : UInt16) : Bool × M2MDevice :=
  if !r.isMandatory then
    let (success, oi) := d.deviceInstance.removeResourceInstance r.name id
    (success, ⟨oi⟩)
  else (false, d)

/-- An empty text clears the value. -/
def setResourceValueString (r : DeviceResource) (value : Bytes) (id : UInt16) : Bool × M2MDevice :=
  if (d.getResourceInstance r id).isSome && decide (value.length ≤ maxAllowedStringLength) &&
      r.isText then
    d.store r id value
  else (false, d)

def setResourceValueInt (r : DeviceResource) (value : Int64) (id : UInt16) : Bool × M2MDevice :=
  if (d.getResourceInstance r id).isSome && r.isNumber && r.checkValueRange value then
    d.store r id (itoaC value)
  else (false, d)

def resourceValueInt (r : DeviceResource) (id : UInt16) : Int :=
  match d.getResourceInstance r id with
  | some b => if r.isNumber then b.getValueInt else -1
  | none => -1

end M2MDevice

inductive Call where
  | createResourceString (r : DeviceResource) (value : Bytes)
  | createResourceInt (r : DeviceResource) (value : Int64)
  | createResourceInstance (r : DeviceResource) (value : Int64) (id : UInt16)
  | createResource (r : DeviceResource)
  | deleteResource (r : DeviceResource)
  | deleteResourceInstance (r : DeviceResource) (id : UInt16)
  | setResourceValueString (r : DeviceResource) (value : Bytes) (id : UInt16)
  | setResourceValueInt (r : DeviceResource) (value : Int64) (id : UInt16)

def M2MDevice.step : Call → M2MDevice → M2MDevice
  | .createResourceString r value, d => (d.createResourceString r value).2
  | .createResourceInt r value, d => (d.createResourceInt r value).2
  | .createResourceInstance r value id, d => (d.createResourceInstance r value id).2
  | .createResource r, d => (d.createResource r).2
  | .deleteResource r, d => (d.deleteResource r).2
  | .deleteResourceInstance r id, d => (d.deleteResourceInstance r id).2
  | .setResourceValueString r value id, d => (d.setResourceValueString r value id).2
  | .setResourceValueInt r value id, d => (d.setResourceValueInt r value id).2

end MbedClient.Device
