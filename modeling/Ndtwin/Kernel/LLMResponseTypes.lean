import Ndtwin.ForStd.JsonUpdate

/-!
# The answer language

`ndt_core/intent_translator/LLMResponseTypes.hpp`: what the agents of the intent translator reply,
and the tasks of an answer. Each kind of task has a class of its own with a `to_json` and a
`from_json`; here it is a type of parameters for each kind and a pair of functions, and the two
switches over the kind pick one of the pairs each.
-/

namespace Ndtwin.Kernel.LlmResponse

/-- What a parser throws: an exception of `nlohmann::json`, or `std::runtime_error`. -/
inductive ResponseError where
  | json (e : Json.Error)
  | runtimeError
  deriving DecidableEq, Repr

/-- An access to a JSON value. -/
def json {α : Type} (x : Except Json.Error α) : Except ResponseError α :=
  x.mapError ResponseError.json

/-! ## States -/

inductive State where
  | discussion
  | answer
  | validation
  deriving DecidableEq, Repr

def stateToString : State → String
  | .discussion => "discussion"
  | .answer => "answer"
  | .validation => "validation"

def stateFromString : String → Except ResponseError State
  | "discussion" => .ok .discussion
  | "answer" => .ok .answer
  | "validation" => .ok .validation
  | _ => .error .runtimeError

/-! ## Task types -/

inductive TaskType where
  | disableSwitch
  | enableSwitch
  | poweroffSwitch
  | poweronSwitch
  | installFlowEntry
  | modifyFlowEntry
  | deleteFlowEntry
  | getTopKFlows
  | getSwitchCpuUtilization
  | getTotalPowerConsumption
  | getASwitchCpuUtilization
  | getASwitchPowerConsumption
  | getALinkBandwidthUtilization
  | getTopKCongestedLinks
  | getTopKBandwidthUsers
  | getPath
  | getActiveFlowCount
  | getFlowEntryCount
  | getFlowEntries
  | getNetworkTopology
  | getAllHosts
  | blockHost
  | getLinkLatency
  | getPacketLossRate
  | getSwitchPorts
  | rerouteFlow
  | getSwitchMemoryUtilization
  | getSwitchTemperature
  | setSwitchPowerState
  | getPathSwitchCount
  | setDeviceNickname
  | toggleHistoricalLogging
  | getSwitchCapabilities
  | installGroupEntry
  | installMeterEntry
  | getDeviceUptime
  | restartDevice
  | backupConfiguration
  | restoreConfiguration
  | pingHost
  | tracerouteHost
  | getArpTable
  | getMacTable
  | setPortStatus
  | getPortStatistics
  | getDeviceLogs
  | clearDeviceLogs
  | updateDeviceFirmware
  | getDeviceHealth
  | monitorRealTimeTraffic
  | requestUiForm
  deriving DecidableEq, Repr

def taskTypeToString : TaskType → String
  | .disableSwitch => "DisableSwitch"
  | .enableSwitch => "EnableSwitch"
  | .poweroffSwitch => "PowerOffSwitch"
  | .poweronSwitch => "PowerOnSwitch"
  | .installFlowEntry => "InstallFlowEntry"
  | .modifyFlowEntry => "ModifyFlowEntry"
  | .deleteFlowEntry => "DeleteFlowEntry"
  | .getTopKFlows => "GetTopKFlows"
  | .getSwitchCpuUtilization => "GetSwitchCpuUtilization"
  | .getTotalPowerConsumption => "GetTotalPowerConsumption"
  | .getASwitchCpuUtilization => "GetASwitchCpuUtilization"
  | .getASwitchPowerConsumption => "GetASwitchPowerConsumption"
  | .getALinkBandwidthUtilization => "GetALinkBandwidthUtilization"
  | .getTopKCongestedLinks => "GetTopKCongestedLinks"
  | .getTopKBandwidthUsers => "GetTopKBandwidthUsers"
  | .getPath => "GetPath"
  | .getActiveFlowCount => "GetActiveFlowCount"
  | .getFlowEntryCount => "GetFlowEntryCount"
  | .getFlowEntries => "GetFlowEntries"
  | .getNetworkTopology => "GetNetworkTopology"
  | .getAllHosts => "GetAllHosts"
  | .blockHost => "BlockHost"
  | .getLinkLatency => "GetLinkLatency"
  | .getPacketLossRate => "GetPacketLossRate"
  | .getSwitchPorts => "GetSwitchPorts"
  | .rerouteFlow => "RerouteFlow"
  | .getSwitchMemoryUtilization => "GetSwitchMemoryUtilization"
  | .getSwitchTemperature => "GetSwitchTemperature"
  | .setSwitchPowerState => "SetSwitchPowerState"
  | .getPathSwitchCount => "GetPathSwitchCount"
  | .setDeviceNickname => "SetDeviceNickname"
  | .toggleHistoricalLogging => "ToggleHistoricalLogging"
  | .getSwitchCapabilities => "GetSwitchCapabilities"
  | .installGroupEntry => "InstallGroupEntry"
  | .installMeterEntry => "InstallMeterEntry"
  | .getDeviceUptime => "GetDeviceUptime"
  | .restartDevice => "RestartDevice"
  | .backupConfiguration => "BackupConfiguration"
  | .restoreConfiguration => "RestoreConfiguration"
  | .pingHost => "PingHost"
  | .tracerouteHost => "TracerouteHost"
  | .getArpTable => "GetArpTable"
  | .getMacTable => "GetMacTable"
  | .setPortStatus => "SetPortStatus"
  | .getPortStatistics => "GetPortStatistics"
  | .getDeviceLogs => "GetDeviceLogs"
  | .clearDeviceLogs => "ClearDeviceLogs"
  | .updateDeviceFirmware => "UpdateDeviceFirmware"
  | .getDeviceHealth => "GetDeviceHealth"
  | .monitorRealTimeTraffic => "MonitorRealTimeTraffic"
  | .requestUiForm => "RequestUIForm"

def taskTypeFromString (s : String) : Except ResponseError TaskType :=
  if s = "DisableSwitch" then .ok .disableSwitch
  else if s = "EnableSwitch" then .ok .enableSwitch
  else if s = "PowerOffSwitch" then .ok .poweroffSwitch
  else if s = "PowerOnSwitch" then .ok .poweronSwitch
  else if s = "InstallFlowEntry" then .ok .installFlowEntry
  else if s = "ModifyFlowEntry" then .ok .modifyFlowEntry
  else if s = "DeleteFlowEntry" then .ok .deleteFlowEntry
  else if s = "GetTopKFlows" then .ok .getTopKFlows
  else if s = "GetSwitchCpuUtilization" then .ok .getSwitchCpuUtilization
  else if s = "GetTotalPowerConsumption" then .ok .getTotalPowerConsumption
  else if s = "GetASwitchCpuUtilization" then .ok .getASwitchCpuUtilization
  else if s = "GetASwitchPowerConsumption" then .ok .getASwitchPowerConsumption
  else if s = "GetALinkBandwidthUtilization" then .ok .getALinkBandwidthUtilization
  else if s = "GetTopKCongestedLinks" then .ok .getTopKCongestedLinks
  else if s = "GetTopKBandwidthUsers" then .ok .getTopKBandwidthUsers
  else if s = "GetPath" then .ok .getPath
  else if s = "GetActiveFlowCount" then .ok .getActiveFlowCount
  else if s = "GetFlowEntryCount" then .ok .getFlowEntryCount
  else if s = "GetFlowEntries" then .ok .getFlowEntries
  else if s = "GetNetworkTopology" then .ok .getNetworkTopology
  else if s = "GetAllHosts" then .ok .getAllHosts
  else if s = "BlockHost" then .ok .blockHost
  else if s = "GetLinkLatency" then .ok .getLinkLatency
  else if s = "GetPacketLossRate" then .ok .getPacketLossRate
  else if s = "GetSwitchPorts" then .ok .getSwitchPorts
  else if s = "RerouteFlow" then .ok .rerouteFlow
  else if s = "GetSwitchMemoryUtilization" then .ok .getSwitchMemoryUtilization
  else if s = "GetSwitchTemperature" then .ok .getSwitchTemperature
  else if s = "SetSwitchPowerState" then .ok .setSwitchPowerState
  else if s = "GetPathSwitchCount" then .ok .getPathSwitchCount
  else if s = "SetDeviceNickname" then .ok .setDeviceNickname
  else if s = "ToggleHistoricalLogging" then .ok .toggleHistoricalLogging
  else if s = "GetSwitchCapabilities" then .ok .getSwitchCapabilities
  else if s = "InstallGroupEntry" then .ok .installGroupEntry
  else if s = "InstallMeterEntry" then .ok .installMeterEntry
  else if s = "GetDeviceUptime" then .ok .getDeviceUptime
  else if s = "RestartDevice" then .ok .restartDevice
  else if s = "BackupConfiguration" then .ok .backupConfiguration
  else if s = "RestoreConfiguration" then .ok .restoreConfiguration
  else if s = "PingHost" then .ok .pingHost
  else if s = "TracerouteHost" then .ok .tracerouteHost
  else if s = "GetArpTable" then .ok .getArpTable
  else if s = "GetMacTable" then .ok .getMacTable
  else if s = "SetPortStatus" then .ok .setPortStatus
  else if s = "GetPortStatistics" then .ok .getPortStatistics
  else if s = "GetDeviceLogs" then .ok .getDeviceLogs
  else if s = "ClearDeviceLogs" then .ok .clearDeviceLogs
  else if s = "UpdateDeviceFirmware" then .ok .updateDeviceFirmware
  else if s = "GetDeviceHealth" then .ok .getDeviceHealth
  else if s = "MonitorRealTimeTraffic" then .ok .monitorRealTimeTraffic
  else if s = "RequestUIForm" then .ok .requestUiForm
  else .error .runtimeError

/-! ## Parameters

A writer gives the value of `parameters`; a reader is given the whole task. -/

/-- The `to_json` and the `from_json` of a class. -/
structure TaskCodec (α : Type) where
  toJson : α → Json
  fromJson : Json → Except Json.Error α

/-- `j.at("parameters").at(key)` -/
def parameter (j : Json) (key : String) : Except Json.Error Json := do
  (← j.atField "parameters").atField key

/-- `{}` in a list of pairs is null. -/
def noParameters (_ : Unit) : Json := .null

def noParametersRead (_ : Json) : Except Json.Error Unit := .ok ()

/-- A class with one text. -/
def writeString (key : String) (value : String) : Json := .ofPairs [(key, .str value)]

def readString (key : String) (j : Json) : Except Json.Error String := do
  (← parameter j key).getString

/-- A class with one number. -/
def writeInt (key : String) (value : Int32) : Json := .ofPairs [(key, .int value.toInt)]

def readInt (key : String) (j : Json) : Except Json.Error Int32 := do
  (← parameter j key).getInt32

/-- `j.at("parameters").value(key, fallback)` -/
def readIntOr (key : String) (fallback : Int32) (j : Json) : Except Json.Error Int32 := do
  Json.valueOr Json.getInt32 (← j.atField "parameters") key fallback

/-- A class with a source and a destination. -/
structure EndpointsTask where
  src : String
  dst : String
  deriving DecidableEq, Repr

namespace EndpointsTask

def write (srcKey dstKey : String) (task : EndpointsTask) : Json :=
  .ofPairs [(srcKey, .str task.src), (dstKey, .str task.dst)]

def read (srcKey dstKey : String) (j : Json) : Except Json.Error EndpointsTask := do
  let src ← readString srcKey j
  let dst ← readString dstKey j
  return { src := src, dst := dst }

end EndpointsTask

/-- A class with a device and a setting of it. -/
structure DeviceSettingTask where
  deviceName : String
  setting : String
  deriving DecidableEq, Repr

namespace DeviceSettingTask

def write (deviceKey settingKey : String) (task : DeviceSettingTask) : Json :=
  .ofPairs [(deviceKey, .str task.deviceName), (settingKey, .str task.setting)]

def read (deviceKey settingKey : String) (j : Json) : Except Json.Error DeviceSettingTask := do
  let deviceName ← readString deviceKey j
  let setting ← readString settingKey j
  return { deviceName := deviceName, setting := setting }

end DeviceSettingTask

/-- `InstallFlowEntryTask` and `ModifyFlowEntryTask`: of the actions one is kept, and an empty
    type stands for none. -/
structure FlowEntryTask where
  deviceName : String
  priority : UInt16
  matchJson : Json
  actionType : String
  /-- -1 when no port is given. -/
  actionOutPort : Int32

namespace FlowEntryTask

/-- The `actions` that are written. -/
def actions (task : FlowEntryTask) : Json :=
  .arr (if task.actionType ≠ "" then
    [.ofPairs [("type", .str task.actionType), ("port", .int task.actionOutPort.toInt)]]
  else [])

def write (task : FlowEntryTask) : Json :=
  .ofPairs [("device_name", .str task.deviceName), ("priority", .uint task.priority.toNat),
    ("match", task.matchJson), ("actions", task.actions)]

/-- The type and the port of the first action. -/
def readAction (actions : Json) : Except Json.Error (String × Int32) :=
  -- null and an empty object are as empty as an empty list
  if actions.isEmpty then .ok ("", -1)
  else do
    -- only a list has a first element; what comes behind it is not looked at
    let first ← actions.first
    let actionType ← (← first.atField "type").getString
    let actionOutPort ← (← first.atField "port").getInt32
    return (actionType, actionOutPort)

def read (j : Json) : Except Json.Error FlowEntryTask := do
  let deviceName ← readString "device_name" j
  let priority ← (← parameter j "priority").getUInt16
  let matchJson ← parameter j "match"
  let (actionType, actionOutPort) ← readAction (← parameter j "actions")
  return {
    deviceName := deviceName
    priority := priority
    matchJson := matchJson
    actionType := actionType
    actionOutPort := actionOutPort }

end FlowEntryTask

structure DeleteFlowEntryTask where
  deviceName : String
  matchJson : Json

namespace DeleteFlowEntryTask

def write (task : DeleteFlowEntryTask) : Json :=
  .ofPairs [("device_name", .str task.deviceName), ("match", task.matchJson)]

def read (j : Json) : Except Json.Error DeleteFlowEntryTask := do
  let deviceName ← readString "device_name" j
  let matchJson ← parameter j "match"
  return { deviceName := deviceName, matchJson := matchJson }

end DeleteFlowEntryTask

structure RerouteFlowTask where
  matchJson : Json
  newPath : List String

namespace RerouteFlowTask

def write (task : RerouteFlowTask) : Json :=
  .ofPairs [("match", task.matchJson), ("new_path", .arr (task.newPath.map .str))]

def read (j : Json) : Except Json.Error RerouteFlowTask := do
  let matchJson ← parameter j "match"
  let newPath ← (← parameter j "new_path").getStrings
  return { matchJson := matchJson, newPath := newPath }

end RerouteFlowTask

structure InstallGroupEntryTask where
  deviceName : String
  groupType : String
  groupId : Int32
  buckets : Json

namespace InstallGroupEntryTask

def write (task : InstallGroupEntryTask) : Json :=
  .ofPairs [("device_name", .str task.deviceName), ("group_type", .str task.groupType),
    ("group_id", .int task.groupId.toInt), ("buckets", task.buckets)]

def read (j : Json) : Except Json.Error InstallGroupEntryTask := do
  let deviceName ← readString "device_name" j
  let groupType ← readString "group_type" j
  let groupId ← readInt "group_id" j
  let buckets ← parameter j "buckets"
  return {
    deviceName := deviceName
    groupType := groupType
    groupId := groupId
    buckets := buckets }

end InstallGroupEntryTask

structure InstallMeterEntryTask where
  deviceName : String
  meterId : Int32
  flags : List String
  bands : Json

namespace InstallMeterEntryTask

def write (task : InstallMeterEntryTask) : Json :=
  .ofPairs [("device_name", .str task.deviceName), ("meter_id", .int task.meterId.toInt),
    ("flags", .arr (task.flags.map .str)), ("bands", task.bands)]

def read (j : Json) : Except Json.Error InstallMeterEntryTask := do
  let deviceName ← readString "device_name" j
  let meterId ← readInt "meter_id" j
  let flags ← (← parameter j "flags").getStrings
  let bands ← parameter j "bands"
  return { deviceName := deviceName, meterId := meterId, flags := flags, bands := bands }

end InstallMeterEntryTask

structure PingHostTask where
  host : String
  count : Int32 := 4

namespace PingHostTask

def write (task : PingHostTask) : Json :=
  .ofPairs [("host", .str task.host), ("count", .int task.count.toInt)]

def read (j : Json) : Except Json.Error PingHostTask := do
  let host ← readString "host" j
  let count ← readIntOr "count" 4 j
  return { host := host, count := count }

end PingHostTask

structure SetPortStatusTask where
  deviceName : String
  portId : Int32
  status : String

namespace SetPortStatusTask

def write (task : SetPortStatusTask) : Json :=
  .ofPairs [("device_name", .str task.deviceName), ("port_id", .int task.portId.toInt),
    ("status", .str task.status)]

def read (j : Json) : Except Json.Error SetPortStatusTask := do
  let deviceName ← readString "device_name" j
  let portId ← readInt "port_id" j
  let status ← readString "status" j
  return { deviceName := deviceName, portId := portId, status := status }

end SetPortStatusTask

structure GetPortStatisticsTask where
  deviceName : String
  portId : Int32

namespace GetPortStatisticsTask

def write (task : GetPortStatisticsTask) : Json :=
  .ofPairs [("device_name", .str task.deviceName), ("port_id", .int task.portId.toInt)]

def read (j : Json) : Except Json.Error GetPortStatisticsTask := do
  let deviceName ← readString "device_name" j
  let portId ← readInt "port_id" j
  return { deviceName := deviceName, portId := portId }

end GetPortStatisticsTask

structure GetDeviceLogsTask where
  deviceName : String
  lineCount : Int32 := 100

namespace GetDeviceLogsTask

def write (task : GetDeviceLogsTask) : Json :=
  .ofPairs [("device_name", .str task.deviceName), ("line_count", .int task.lineCount.toInt)]

def read (j : Json) : Except Json.Error GetDeviceLogsTask := do
  let deviceName ← readString "device_name" j
  let lineCount ← readIntOr "line_count" 100 j
  return { deviceName := deviceName, lineCount := lineCount }

end GetDeviceLogsTask

structure MonitorRealTimeTrafficTask where
  deviceName : String
  portId : Int32
  durationSeconds : Int32 := 10

namespace MonitorRealTimeTrafficTask

def write (task : MonitorRealTimeTrafficTask) : Json :=
  .ofPairs [("device_name", .str task.deviceName), ("port_id", .int task.portId.toInt),
    ("duration_seconds", .int task.durationSeconds.toInt)]

def read (j : Json) : Except Json.Error MonitorRealTimeTrafficTask := do
  let deviceName ← readString "device_name" j
  let portId ← readInt "port_id" j
  let durationSeconds ← readIntOr "duration_seconds" 10 j
  return { deviceName := deviceName, portId := portId, durationSeconds := durationSeconds }

end MonitorRealTimeTrafficTask

structure RequestUIFormTask where
  deviceName : String
  formType : String

namespace RequestUIFormTask

def write (task : RequestUIFormTask) : Json :=
  .ofPairs [("device_name", .str task.deviceName), ("form_type", .str task.formType)]

def read (j : Json) : Except Json.Error RequestUIFormTask := do
  -- the one name that may be left out
  let deviceName ← (← j.atField "parameters").valueString "device_name"
  let formType ← readString "form_type" j
  return { deviceName := deviceName, formType := formType }

end RequestUIFormTask

/-! ## The classes -/

def disableSwitchTask : TaskCodec String where
  toJson := writeString "device_name"
  fromJson := readString "device_name"

def enableSwitchTask : TaskCodec String where
  toJson := writeString "device_name"
  fromJson := readString "device_name"

def powerOffSwitchTask : TaskCodec String where
  toJson := writeString "device_name"
  fromJson := readString "device_name"

def powerOnSwitchTask : TaskCodec String where
  toJson := writeString "device_name"
  fromJson := readString "device_name"

def installFlowEntryTask : TaskCodec FlowEntryTask where
  toJson := FlowEntryTask.write
  fromJson := FlowEntryTask.read

def modifyFlowEntryTask : TaskCodec FlowEntryTask where
  toJson := FlowEntryTask.write
  fromJson := FlowEntryTask.read

def deleteFlowEntryTask : TaskCodec DeleteFlowEntryTask where
  toJson := DeleteFlowEntryTask.write
  fromJson := DeleteFlowEntryTask.read

def getTopKFlowsTask : TaskCodec Int32 where
  toJson := writeInt "k"
  fromJson := readInt "k"

def getSwitchCpuUtilizationTask : TaskCodec Unit where
  toJson := noParameters
  fromJson := noParametersRead

def getTotalPowerConsumptionTask : TaskCodec Unit where
  toJson := noParameters
  fromJson := noParametersRead

def getASwitchCpuUtilizationTask : TaskCodec String where
  toJson := writeString "device_name"
  fromJson := readString "device_name"

def getASwitchPowerConsumptionTask : TaskCodec String where
  toJson := writeString "device_name"
  fromJson := readString "device_name"

def getALinkBandwidthUtilizationTask : TaskCodec EndpointsTask where
  toJson := EndpointsTask.write "src" "dst"
  fromJson := EndpointsTask.read "src" "dst"

def getTopKCongestedLinksTask : TaskCodec Int32 where
  toJson := writeInt "k"
  fromJson := readInt "k"

def getTopKBandwidthUsersTask : TaskCodec Int32 where
  toJson := writeInt "k"
  fromJson := readInt "k"

def getPathTask : TaskCodec EndpointsTask where
  toJson := EndpointsTask.write "src" "dst"
  fromJson := EndpointsTask.read "src" "dst"

def getActiveFlowCountTask : TaskCodec Unit where
  toJson := noParameters
  fromJson := noParametersRead

def getFlowEntryCountTask : TaskCodec String where
  toJson := writeString "device_name"
  fromJson := readString "device_name"

def getFlowEntriesTask : TaskCodec String where
  toJson := writeString "device_name"
  fromJson := readString "device_name"

def getNetworkTopologyTask : TaskCodec Unit where
  toJson := noParameters
  fromJson := noParametersRead

def getAllHostsTask : TaskCodec Unit where
  toJson := noParameters
  fromJson := noParametersRead

def blockHostTask : TaskCodec String where
  toJson := writeString "host_id"
  fromJson := readString "host_id"

def getLinkLatencyTask : TaskCodec EndpointsTask where
  toJson := EndpointsTask.write "src" "dst"
  fromJson := EndpointsTask.read "src" "dst"

def getPacketLossRateTask : TaskCodec EndpointsTask where
  toJson := EndpointsTask.write "src" "dst"
  fromJson := EndpointsTask.read "src" "dst"

def getSwitchPortsTask : TaskCodec String where
  toJson := writeString "device_name"
  fromJson := readString "device_name"

def rerouteFlowTask : TaskCodec RerouteFlowTask where
  toJson := RerouteFlowTask.write
  fromJson := RerouteFlowTask.read

def getSwitchMemoryUtilizationTask : TaskCodec Unit where
  toJson := noParameters
  fromJson := noParametersRead

def getSwitchTemperatureTask : TaskCodec Unit where
  toJson := noParameters
  fromJson := noParametersRead

def setSwitchPowerStateTask : TaskCodec DeviceSettingTask where
  toJson := DeviceSettingTask.write "device_name" "state"
  fromJson := DeviceSettingTask.read "device_name" "state"

def getPathSwitchCountTask : TaskCodec EndpointsTask where
  toJson := EndpointsTask.write "src" "dst"
  fromJson := EndpointsTask.read "src" "dst"

def setDeviceNicknameTask : TaskCodec DeviceSettingTask where
  toJson := DeviceSettingTask.write "device_name" "nickname"
  fromJson := DeviceSettingTask.read "device_name" "nickname"

def toggleHistoricalLoggingTask : TaskCodec String where
  toJson := writeString "state"
  fromJson := readString "state"

def getSwitchCapabilitiesTask : TaskCodec Unit where
  toJson := noParameters
  fromJson := noParametersRead

def installGroupEntryTask : TaskCodec InstallGroupEntryTask where
  toJson := InstallGroupEntryTask.write
  fromJson := InstallGroupEntryTask.read

def installMeterEntryTask : TaskCodec InstallMeterEntryTask where
  toJson := InstallMeterEntryTask.write
  fromJson := InstallMeterEntryTask.read

def getDeviceUptimeTask : TaskCodec String where
  toJson := writeString "device_name"
  fromJson := readString "device_name"

def restartDeviceTask : TaskCodec String where
  toJson := writeString "device_name"
  fromJson := readString "device_name"

def backupConfigurationTask : TaskCodec DeviceSettingTask where
  toJson := DeviceSettingTask.write "device_name" "backup_path"
  fromJson := DeviceSettingTask.read "device_name" "backup_path"

def restoreConfigurationTask : TaskCodec DeviceSettingTask where
  toJson := DeviceSettingTask.write "device_name" "restore_path"
  fromJson := DeviceSettingTask.read "device_name" "restore_path"

def pingHostTask : TaskCodec PingHostTask where
  toJson := PingHostTask.write
  fromJson := PingHostTask.read

def tracerouteHostTask : TaskCodec String where
  toJson := writeString "host"
  fromJson := readString "host"

def getArpTableTask : TaskCodec String where
  toJson := writeString "device_name"
  fromJson := readString "device_name"

def getMacTableTask : TaskCodec String where
  toJson := writeString "device_name"
  fromJson := readString "device_name"

def setPortStatusTask : TaskCodec SetPortStatusTask where
  toJson := SetPortStatusTask.write
  fromJson := SetPortStatusTask.read

def getPortStatisticsTask : TaskCodec GetPortStatisticsTask where
  toJson := GetPortStatisticsTask.write
  fromJson := GetPortStatisticsTask.read

def getDeviceLogsTask : TaskCodec GetDeviceLogsTask where
  toJson := GetDeviceLogsTask.write
  fromJson := GetDeviceLogsTask.read

def clearDeviceLogsTask : TaskCodec String where
  toJson := writeString "device_name"
  fromJson := readString "device_name"

def updateDeviceFirmwareTask : TaskCodec DeviceSettingTask where
  toJson := DeviceSettingTask.write "device_name" "firmware_path"
  fromJson := DeviceSettingTask.read "device_name" "firmware_path"

def getDeviceHealthTask : TaskCodec String where
  toJson := writeString "device_name"
  fromJson := readString "device_name"

def monitorRealTimeTrafficTask : TaskCodec MonitorRealTimeTrafficTask where
  toJson := MonitorRealTimeTrafficTask.write
  fromJson := MonitorRealTimeTrafficTask.read

def requestUIFormTask : TaskCodec RequestUIFormTask where
  toJson := RequestUIFormTask.write
  fromJson := RequestUIFormTask.read

/-! ## Tasks -/

/-- The parameters of a task of a kind. -/
abbrev TaskType.Params : TaskType → Type
  | .disableSwitch | .enableSwitch | .poweroffSwitch | .poweronSwitch
  | .getASwitchCpuUtilization | .getASwitchPowerConsumption | .getFlowEntryCount
  | .getFlowEntries | .blockHost | .getSwitchPorts | .toggleHistoricalLogging | .getDeviceUptime
  | .restartDevice | .tracerouteHost | .getArpTable | .getMacTable | .clearDeviceLogs
  | .getDeviceHealth => String
  | .installFlowEntry | .modifyFlowEntry => FlowEntryTask
  | .deleteFlowEntry => DeleteFlowEntryTask
  | .getTopKFlows | .getTopKCongestedLinks | .getTopKBandwidthUsers => Int32
  | .getSwitchCpuUtilization | .getTotalPowerConsumption | .getActiveFlowCount
  | .getNetworkTopology | .getAllHosts | .getSwitchMemoryUtilization | .getSwitchTemperature
  | .getSwitchCapabilities => Unit
  | .getALinkBandwidthUtilization | .getPath | .getLinkLatency | .getPacketLossRate
  | .getPathSwitchCount => EndpointsTask
  | .rerouteFlow => RerouteFlowTask
  | .setSwitchPowerState | .setDeviceNickname | .backupConfiguration | .restoreConfiguration
  | .updateDeviceFirmware => DeviceSettingTask
  | .installGroupEntry => InstallGroupEntryTask
  | .installMeterEntry => InstallMeterEntryTask
  | .pingHost => PingHostTask
  | .setPortStatus => SetPortStatusTask
  | .getPortStatistics => GetPortStatisticsTask
  | .getDeviceLogs => GetDeviceLogsTask
  | .monitorRealTimeTraffic => MonitorRealTimeTrafficTask
  | .requestUiForm => RequestUIFormTask

/-- `Task`: its parameters are those of its type. -/
structure Task where
  type : TaskType
  order : UInt16
  result : String := ""
  params : type.Params

/-- `task_to_json`, into the fields of an object. -/
def taskToJson (type : TaskType) (order : UInt16) (result : String)
    (fields : List (String × Json)) : List (String × Json) :=
  Json.insertField "result" (.str result)
    (Json.insertField "order" (.uint order.toNat)
      (Json.insertField "type" (.str (taskTypeToString type)) fields))

/-- `task_from_json` -/
def taskFromJson (j : Json) : Except ResponseError (TaskType × UInt16) := do
  let type ← taskTypeFromString (← json ((← json (j.atField "type")).getString))
  let order ← json ((← json (j.atField "order")).getUInt16)
  return (type, order)

/-- The switch of `to_json(std::unique_ptr<Task>)`. -/
def TaskType.writeParams : (type : TaskType) → type.Params → Json
  | .disableSwitch => disableSwitchTask.toJson
  | .enableSwitch => enableSwitchTask.toJson
  | .poweroffSwitch => powerOffSwitchTask.toJson
  | .poweronSwitch => powerOnSwitchTask.toJson
  | .installFlowEntry => installFlowEntryTask.toJson
  | .modifyFlowEntry => modifyFlowEntryTask.toJson
  | .deleteFlowEntry => deleteFlowEntryTask.toJson
  | .getTopKFlows => getTopKFlowsTask.toJson
  | .getSwitchCpuUtilization => getSwitchCpuUtilizationTask.toJson
  | .getTotalPowerConsumption => getTotalPowerConsumptionTask.toJson
  | .getASwitchCpuUtilization => getASwitchCpuUtilizationTask.toJson
  | .getASwitchPowerConsumption => getASwitchPowerConsumptionTask.toJson
  | .getALinkBandwidthUtilization => getALinkBandwidthUtilizationTask.toJson
  | .getTopKCongestedLinks => getTopKCongestedLinksTask.toJson
  | .getTopKBandwidthUsers => getTopKBandwidthUsersTask.toJson
  | .getPath => getPathTask.toJson
  | .getActiveFlowCount => getActiveFlowCountTask.toJson
  | .getFlowEntryCount => getFlowEntryCountTask.toJson
  | .getFlowEntries => getFlowEntriesTask.toJson
  | .getNetworkTopology => getNetworkTopologyTask.toJson
  | .getAllHosts => getAllHostsTask.toJson
  | .blockHost => blockHostTask.toJson
  | .getLinkLatency => getLinkLatencyTask.toJson
  | .getPacketLossRate => getPacketLossRateTask.toJson
  | .getSwitchPorts => getSwitchPortsTask.toJson
  | .rerouteFlow => rerouteFlowTask.toJson
  | .getSwitchMemoryUtilization => getSwitchMemoryUtilizationTask.toJson
  | .getSwitchTemperature => getSwitchTemperatureTask.toJson
  | .setSwitchPowerState => setSwitchPowerStateTask.toJson
  | .getPathSwitchCount => getPathSwitchCountTask.toJson
  | .setDeviceNickname => setDeviceNicknameTask.toJson
  | .toggleHistoricalLogging => toggleHistoricalLoggingTask.toJson
  | .getSwitchCapabilities => getSwitchCapabilitiesTask.toJson
  | .installGroupEntry => installGroupEntryTask.toJson
  | .installMeterEntry => installMeterEntryTask.toJson
  | .getDeviceUptime => getDeviceUptimeTask.toJson
  | .restartDevice => restartDeviceTask.toJson
  | .backupConfiguration => backupConfigurationTask.toJson
  | .restoreConfiguration => restoreConfigurationTask.toJson
  | .pingHost => pingHostTask.toJson
  | .tracerouteHost => tracerouteHostTask.toJson
  | .getArpTable => getArpTableTask.toJson
  | .getMacTable => getMacTableTask.toJson
  | .setPortStatus => setPortStatusTask.toJson
  | .getPortStatistics => getPortStatisticsTask.toJson
  | .getDeviceLogs => getDeviceLogsTask.toJson
  | .clearDeviceLogs => clearDeviceLogsTask.toJson
  | .updateDeviceFirmware => updateDeviceFirmwareTask.toJson
  | .getDeviceHealth => getDeviceHealthTask.toJson
  | .monitorRealTimeTraffic => monitorRealTimeTrafficTask.toJson
  | .requestUiForm => requestUIFormTask.toJson

/-- The switch of `from_json(std::unique_ptr<Task>)`. -/
def TaskType.readParams : (type : TaskType) → Json → Except Json.Error type.Params
  | .disableSwitch => disableSwitchTask.fromJson
  | .enableSwitch => enableSwitchTask.fromJson
  | .poweroffSwitch => powerOffSwitchTask.fromJson
  | .poweronSwitch => powerOnSwitchTask.fromJson
  | .installFlowEntry => installFlowEntryTask.fromJson
  | .modifyFlowEntry => modifyFlowEntryTask.fromJson
  | .deleteFlowEntry => deleteFlowEntryTask.fromJson
  | .getTopKFlows => getTopKFlowsTask.fromJson
  | .getSwitchCpuUtilization => getSwitchCpuUtilizationTask.fromJson
  | .getTotalPowerConsumption => getTotalPowerConsumptionTask.fromJson
  | .getASwitchCpuUtilization => getASwitchCpuUtilizationTask.fromJson
  | .getASwitchPowerConsumption => getASwitchPowerConsumptionTask.fromJson
  | .getALinkBandwidthUtilization => getALinkBandwidthUtilizationTask.fromJson
  | .getTopKCongestedLinks => getTopKCongestedLinksTask.fromJson
  | .getTopKBandwidthUsers => getTopKBandwidthUsersTask.fromJson
  | .getPath => getPathTask.fromJson
  | .getActiveFlowCount => getActiveFlowCountTask.fromJson
  | .getFlowEntryCount => getFlowEntryCountTask.fromJson
  | .getFlowEntries => getFlowEntriesTask.fromJson
  | .getNetworkTopology => getNetworkTopologyTask.fromJson
  | .getAllHosts => getAllHostsTask.fromJson
  | .blockHost => blockHostTask.fromJson
  | .getLinkLatency => getLinkLatencyTask.fromJson
  | .getPacketLossRate => getPacketLossRateTask.fromJson
  | .getSwitchPorts => getSwitchPortsTask.fromJson
  | .rerouteFlow => rerouteFlowTask.fromJson
  | .getSwitchMemoryUtilization => getSwitchMemoryUtilizationTask.fromJson
  | .getSwitchTemperature => getSwitchTemperatureTask.fromJson
  | .setSwitchPowerState => setSwitchPowerStateTask.fromJson
  | .getPathSwitchCount => getPathSwitchCountTask.fromJson
  | .setDeviceNickname => setDeviceNicknameTask.fromJson
  | .toggleHistoricalLogging => toggleHistoricalLoggingTask.fromJson
  | .getSwitchCapabilities => getSwitchCapabilitiesTask.fromJson
  | .installGroupEntry => installGroupEntryTask.fromJson
  | .installMeterEntry => installMeterEntryTask.fromJson
  | .getDeviceUptime => getDeviceUptimeTask.fromJson
  | .restartDevice => restartDeviceTask.fromJson
  | .backupConfiguration => backupConfigurationTask.fromJson
  | .restoreConfiguration => restoreConfigurationTask.fromJson
  | .pingHost => pingHostTask.fromJson
  | .tracerouteHost => tracerouteHostTask.fromJson
  | .getArpTable => getArpTableTask.fromJson
  | .getMacTable => getMacTableTask.fromJson
  | .setPortStatus => setPortStatusTask.fromJson
  | .getPortStatistics => getPortStatisticsTask.fromJson
  | .getDeviceLogs => getDeviceLogsTask.fromJson
  | .clearDeviceLogs => clearDeviceLogsTask.fromJson
  | .updateDeviceFirmware => updateDeviceFirmwareTask.fromJson
  | .getDeviceHealth => getDeviceHealthTask.fromJson
  | .monitorRealTimeTraffic => monitorRealTimeTrafficTask.fromJson
  | .requestUiForm => requestUIFormTask.fromJson

/-- `to_json(std::unique_ptr<Task>)` -/
def Task.toJson (task : Task) : Json :=
  .obj (taskToJson task.type task.order task.result
    [("parameters", task.type.writeParams task.params)])

/-- `from_json(std::unique_ptr<Task>)`: the type is read a second time, with the order. -/
def Task.fromJson (j : Json) : Except ResponseError Task := do
  let type ← taskTypeFromString (← json ((← json (j.atField "type")).getString))
  let params ← json (type.readParams j)
  let (_, order) ← taskFromJson j
  return { type := type, order := order, params := params }

/-- The flow entry of a task that installs or modifies one. -/
def TaskType.flowEntryOf : (type : TaskType) → type.Params → Option FlowEntryTask
  | .installFlowEntry, task => some task
  | .modifyFlowEntry, task => some task
  | _, _ => none

def Task.flowEntryOf (task : Task) : Option FlowEntryTask := task.type.flowEntryOf task.params

/-! ## Replies -/

/-- `llmResponse_to_json`, into the fields of an object. -/
def llmResponseToJson (state : State) (fields : List (String × Json)) : List (String × Json) :=
  Json.insertField "state" (.str (stateToString state)) fields

/-- `llmResponse_from_json` -/
def llmResponseFromJson (j : Json) : Except ResponseError State := do
  stateFromString (← json ((← json (j.atField "state")).getString))

/-- `Answer` -/
structure Answer where
  state : State
  explanation : String
  valid : Bool
  tasks : List Task

/-- `to_json(Answer)` -/
def Answer.toJson (ans : Answer) : Json :=
  let fields := Json.insertField "valid" (.bool ans.valid)
    (Json.insertField "explanation" (.str ans.explanation) [])
  let fields :=
    if ans.valid then Json.insertField "tasks" (.arr (ans.tasks.map Task.toJson)) fields else fields
  .obj (llmResponseToJson ans.state fields)

/-- The tasks of an answer; those of an invalid one are not looked at. -/
def tasksFromJson (valid : Bool) (j : Json) : Except ResponseError (List Task) :=
  if valid then do
    match ← json (j.atField "tasks") with
    -- one task that cannot be read rejects the whole answer
    | .arr elems => elems.mapM Task.fromJson
    | _ => .error (.json .typeError)
  else .ok []

/-- `from_json(Answer)` -/
def Answer.fromJson (j : Json) : Except ResponseError Answer := do
  let explanation ← json ((← json (j.atField "explanation")).getString)
  -- a number or a boolean
  let valid := (← json ((← json (j.atField "valid")).getInt)) ≠ 0
  let tasks ← tasksFromJson valid j
  let state ← llmResponseFromJson j
  return { state := state, explanation := explanation, valid := valid, tasks := tasks }

/-- `Discussion` -/
structure Discussion where
  state : State
  prompt : String

/-- `from_json(Discussion)` -/
def Discussion.fromJson (j : Json) : Except ResponseError Discussion := do
  let prompt ← json ((← json (j.atField "prompt")).getString)
  let state ← llmResponseFromJson j
  return { state := state, prompt := prompt }

/-- `Validation` -/
structure Validation where
  state : State
  errorMsg : String

/-- `from_json(Validation)` -/
def Validation.fromJson (j : Json) : Except ResponseError Validation := do
  let errorMsg ← json ((← json (j.atField "error")).getString)
  let state ← llmResponseFromJson j
  return { state := state, errorMsg := errorMsg }

/-- `LLMResponse` and its classes. -/
inductive LLMResponse where
  | discussion (d : Discussion)
  | answer (ans : Answer)
  | validation (v : Validation)

namespace LLMResponse

/-- The `state` of the base class. -/
def state : LLMResponse → State
  | .discussion d => d.state
  | .answer ans => ans.state
  | .validation v => v.state

/-- `from_json(std::unique_ptr<LLMResponse>)`: the class is that of the state. -/
def fromJson (j : Json) : Except ResponseError LLMResponse := do
  match ← stateFromString (← json ((← json (j.atField "state")).getString)) with
  | .discussion => return .discussion (← Discussion.fromJson j)
  | .answer => return .answer (← Answer.fromJson j)
  | .validation => return .validation (← Validation.fromJson j)

end LLMResponse

end Ndtwin.Kernel.LlmResponse
