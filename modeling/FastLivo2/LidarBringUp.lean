import FastLivo2.CommandHandler
import FastLivo2.PubHandler

/-!
# From the search for a lidar to its first frame

The SDK searches for lidars once a second.  One that answers is asked for the type of its firmware
(`QueryFwType`), at its next answer for its addresses (`UpdateLidarCfg`), and when it has taken
those the driver is told, once (`LivoxLidarInfoChange`).  The driver then asks it to take each
setting of the configuration, and remembers in `set_bits` those not yet taken
(`LidarInfoChangeCallback`).  A lidar with no bit left is sampling, and its frames are published.

The callbacks are those of the commands of `CommandHandler`, and each of them may ask for more.
What they ask for goes through `SendCommand` later, in any order, so that the threads interleave.

The lidars are those whose commands `Mid360CommandHandler` and `Mid360sCommandHandler` handle, which
do the same.  The type HAP is left out (`LidarType`): its handler registers a command before it
sends it, and again after that, and it tells the driver of a lidar that refuses its addresses too.
-/

namespace FastLivo2

/-- `LivoxLidarConfigCodeBit`. -/
inductive LivoxLidarConfigCodeBit
  | kConfigDataType
  | kConfigScanPattern
  | kConfigBlindSpot
  | kConfigDualEmit
  deriving DecidableEq, Repr

/-- The settings of a `UserLivoxLidarConfig`, and −1 where the file has none. -/
structure LidarSettings where
  handle : UInt32 := 0
  pclDataType : ℤ := 0
  patternMode : ℤ := 0
  blindSpotSet : ℤ := 0
  dualEmitEn : ℤ := 0
  deriving DecidableEq, Repr

def LidarSettings.value (config : LidarSettings) : LivoxLidarConfigCodeBit → ℤ
  | .kConfigDataType => config.pclDataType
  | .kConfigScanPattern => config.patternMode
  | .kConfigBlindSpot => config.blindSpotSet
  | .kConfigDualEmit => config.dualEmitEn

/-- The settings that there are, in the order of `LidarInfoChangeCallback`. -/
def LidarSettings.configured (config : LidarSettings) : List LivoxLidarConfigCodeBit :=
  [.kConfigDataType, .kConfigScanPattern, .kConfigBlindSpot, .kConfigDualEmit].filter
    fun bit => config.value bit ≠ -1

/-- What a `LidarDevice` of the driver keeps of its settings. -/
structure ConfiguredLidar where
  livoxConfig : LidarSettings := {}
  setBits : Finset LivoxLidarConfigCodeBit := ∅
  /-- `connect_state` is `kConnectStateSampling`. -/
  sampling : Bool := false

/-- What the SDK keeps of a lidar that it found. -/
structure DeviceInfo where
  isUpdateCfg : Bool := false
  isGetLoaderMode : Bool := false
  isLoaderMode : Bool := false
  isCallback : Bool := false
  deriving DecidableEq

/-- What a lidar is asked for, with the callback that goes with it. -/
inductive LidarRequest
  | queryFwType
  | updateLidar (devType : UInt8)
  | setting (bit : LivoxLidarConfigCodeBit)
  | installAttitude
  | workMode
  | imuData
  /-- What others ask for. -/
  | other
  deriving DecidableEq

/-- What the callbacks read of an answer. -/
structure Answer where
  retCode : UInt8 := 0
  errorKey : UInt16 := 0
  /-- The type of the firmware, where the answer has the key and the length for it. -/
  fwType : Option UInt8 := none

def kLivoxLidarTypeMid360 : UInt8 := 9

def kLivoxLidarTypeIndustrialHAP : UInt8 := 10

def kLivoxLidarTypePA : UInt8 := 16

def kLivoxLidarTypeMid360s : UInt8 := 35

/-- The types in `lidars_command_handler_`, which `Init` fills. -/
def commandHandlerTypes : List UInt8 :=
  [kLivoxLidarTypeIndustrialHAP, kLivoxLidarTypeMid360, kLivoxLidarTypeMid360s]

/-- The type of a lidar that answers the search: any but the HAP. -/
structure LidarType where
  devType : UInt8
  not_hap : devType ≠ kLivoxLidarTypeIndustrialHAP
  deriving DecidableEq

def LidarType.mid360 : LidarType := ⟨kLivoxLidarTypeMid360, by decide⟩

/-- The SDK and what the driver keeps of its lidars. -/
structure LivoxLidars where
  commandHandler : GeneralCommandHandler LidarRequest := {}
  /-- `device_dev_type_` of `GeneralCommandHandler`. -/
  deviceDevType : UInt32 → Option UInt8 := fun _ => none
  devices : UInt32 → Option DeviceInfo := fun _ => none
  /-- `lidars_dev_type_` of `DeviceManager`. -/
  lidarsDevType : UInt32 → Option UInt8 := fun _ => none
  /-- `devices_` of the handler of a type. -/
  updated : UInt8 → UInt32 → Bool := fun _ _ => false
  /-- `count` of `QueryFwTypeCallback`. -/
  count : ℕ := 0
  mapIndex : UInt32 → Option ℕ := fun _ => none
  indexCache : ℕ → Bool := fun _ => false
  lidars : ℕ → ConfiguredLidar := fun _ => {}
  /-- The calls of `SendCommand` that callbacks have still to make. -/
  pending : List (UInt32 × LidarRequest) := []

/-- What may happen next. -/
inductive LidarEvent
  /-- A lidar answers the search; `custom` says whether the SDK has addresses for it. -/
  | detection (handle : UInt32) (retCode : UInt8) (type : LidarType) (custom : Bool)
  /-- The call at this place is made. -/
  | call (k : ℕ)
  /-- Somebody else sends a command, or takes a number. -/
  | foreign (handle : UInt32) (path : CommandPath)
  | send (serial : ℕ) (sent : Bool)
  | addCommand (serial : ℕ) (now : ℕ)
  | handler (handle : UInt32) (seqNum : UInt32) (answer : Answer)
  | commandsHandle (now : ℕ)

/-- Why a step is not taken. -/
inductive LidarFault
  | blocked
  /-- A callback reads the answer that there is not. -/
  | nullResponse
  /-- A handler of commands is called that there is not. -/
  | nullHandler
  deriving DecidableEq

namespace LivoxLidars

/-- `GetIndex` of the cache, as in `GetLidarDevice`. -/
def getLidarDevice (s : LivoxLidars) (handle : UInt32) : Option ℕ := s.mapIndex handle

/-- `GetFreeIndex`. -/
def getFreeIndex (s : LivoxLidars) (handle : UInt32) : Option (ℕ × LivoxLidars) :=
  match s.mapIndex handle with
  | some index => some (index, s)
  | none =>
      ((List.range kMaxSourceLidar).find? fun i => !s.indexCache i).map fun i =>
        (i, { s with
          indexCache := Function.update s.indexCache i true
          mapIndex := Function.update s.mapIndex handle (some i) })

/-- `InitLivoxLidar`, for one lidar of the configuration. -/
def addLidar (s : LivoxLidars) (config : LidarSettings) : LivoxLidars :=
  match s.getFreeIndex config.handle with
  | none => s
  | some (index, s) =>
      { s with lidars := Function.update s.lidars index { livoxConfig := config } }

/-- When the driver has been initialised. -/
def start (configs : List LidarSettings) : LivoxLidars := configs.foldl addLidar {}

def ask (s : LivoxLidars) (handle : UInt32) (request : LidarRequest) : LivoxLidars :=
  { s with pending := s.pending ++ [(handle, request)] }

/-! ## The callbacks of the driver -/

/-- The settings of a lidar are asked for, and its attitude. -/
def setConfig (s : LivoxLidars) (handle : UInt32) (index : ℕ) : LivoxLidars :=
  let lidar := s.lidars index
  let bits := lidar.livoxConfig.configured
  { s with
    lidars := Function.update s.lidars index { lidar with setBits := lidar.setBits ∪ bits.toFinset }
    pending := s.pending ++ bits.map (fun bit => (handle, .setting bit)) ++
      [(lidar.livoxConfig.handle, .installAttitude)] }

def lidarInfoChangeCallback (s : LivoxLidars) (handle : UInt32) : LivoxLidars :=
  match s.getLidarDevice handle with
  | none =>
      match s.getFreeIndex handle with
      | none => s
      | some (_, s) => (s.ask handle .workMode).ask handle .imuData
  | some index => ((s.setConfig handle index).ask handle .workMode).ask handle .imuData

/-- A setting has been answered for.  What the answer says is not looked at. -/
def clearBit (s : LivoxLidars) (index : ℕ) (bit : LivoxLidarConfigCodeBit) : LivoxLidars :=
  let lidar := s.lidars index
  let setBits := lidar.setBits.erase bit
  { s with
    lidars := Function.update s.lidars index
      { lidar with setBits := setBits, sampling := lidar.sampling || setBits = ∅ } }

/-- The callback of a setting. -/
def settingCallback (bit : LivoxLidarConfigCodeBit) (s : LivoxLidars) (status : LivoxStatus)
    (handle : UInt32) (response : Option Answer) : Except LidarFault LivoxLidars :=
  match s.getLidarDevice handle with
  | none => .ok s
  | some index =>
      match status with
      | .success => .ok (s.clearBit index bit)
      | .timeout => .ok (s.ask handle (.setting bit))
      | .sendFailed =>
          match response with
          | none => .error .nullResponse
          | some _ => .ok s

def setDataTypeCallback := settingCallback .kConfigDataType

def setPatternModeCallback := settingCallback .kConfigScanPattern

def setBlindSpotCallback := settingCallback .kConfigBlindSpot

def setDualEmitCallback := settingCallback .kConfigDualEmit

def setAttitudeCallback (s : LivoxLidars) (status : LivoxStatus) (handle : UInt32) : LivoxLidars :=
  match s.getLidarDevice handle with
  | none => s
  | some index =>
      match status with
      | .timeout => s.ask (s.lidars index).livoxConfig.handle .installAttitude
      | _ => s

def workModeChangedCallback (s : LivoxLidars) (status : LivoxStatus) (handle : UInt32) :
    LivoxLidars :=
  match status with
  | .success => s
  | _ => s.ask handle .workMode

def enableLivoxLidarImuDataCallback (s : LivoxLidars) (status : LivoxStatus) (handle : UInt32)
    (response : Option Answer) : LivoxLidars :=
  match s.getLidarDevice handle with
  | none => s
  | some _ =>
      match response, status with
      | none, _ => s
      | some _, .timeout => s.ask handle .imuData
      | some _, _ => s

/-! ## The callbacks of the SDK -/

def updateFwType (s : LivoxLidars) (handle : UInt32) (fwType : UInt8) : LivoxLidars :=
  match s.devices handle with
  | none => s
  | some device =>
      { s with
        devices := Function.update s.devices handle
          (some { device with isGetLoaderMode := true, isLoaderMode := fwType = 0 }) }

/-- The type is asked for again, at most eleven times for all lidars together. -/
def queryAgain (s : LivoxLidars) (handle : UInt32) : LivoxLidars :=
  { s with count := s.count + 1 }.ask handle .queryFwType

def queryFwTypeCallback (s : LivoxLidars) (status : LivoxStatus) (handle : UInt32)
    (response : Option Answer) : LivoxLidars :=
  if 10 < s.count then { s.updateFwType handle 1 with count := 0 }
  else
    match status, response with
    | .success, some answer =>
        if answer.retCode ≠ 0 then s.queryAgain handle
        else
          match answer.fwType with
          | none => s.queryAgain handle
          | some fwType => { s with count := 0 }.updateFwType handle fwType
    | _, _ => s.queryAgain handle

def livoxLidarInfoChange (s : LivoxLidars) (handle : UInt32) : LivoxLidars :=
  let device := (s.devices handle).getD {}
  let s := { s with
    devices := Function.update s.devices handle
      (some { device with isUpdateCfg := true, isCallback := true }) }
  if device.isCallback then s else s.lidarInfoChangeCallback handle

def updateLidarCallback (devType : UInt8) (s : LivoxLidars) (status : LivoxStatus)
    (handle : UInt32) (response : Option Answer) : LivoxLidars :=
  match status, response with
  | .success, some answer =>
      if answer.retCode = 0 ∧ answer.errorKey = 0 then
        { s with
          updated := fun d h => (d = devType && h = handle) || s.updated d h }.livoxLidarInfoChange
          handle
      else s
  | _, _ => s

/-- The callback of a command is called. -/
def callback (s : LivoxLidars) (request : LidarRequest) (status : LivoxStatus) (handle : UInt32)
    (response : Option Answer) : Except LidarFault LivoxLidars :=
  match request with
  | .queryFwType => .ok (s.queryFwTypeCallback status handle response)
  | .updateLidar devType => .ok (updateLidarCallback devType s status handle response)
  | .setting .kConfigDataType => setDataTypeCallback s status handle response
  | .setting .kConfigScanPattern => setPatternModeCallback s status handle response
  | .setting .kConfigBlindSpot => setBlindSpotCallback s status handle response
  | .setting .kConfigDualEmit => setDualEmitCallback s status handle response
  | .installAttitude => .ok (s.setAttitudeCallback status handle)
  | .workMode => .ok (s.workModeChangedCallback status handle)
  | .imuData => .ok (s.enableLivoxLidarImuDataCallback status handle response)
  | .other => .ok s

/-- The callback for what has become of a command. -/
def notified (s : LivoxLidars) : Notice LidarRequest Answer → Except LidarFault LivoxLidars
  | .answered c handle answer => s.callback c.cb .success handle (some answer)
  | .timedOut c => s.callback c.cb .timeout c.handle none
  | .sendFailed c => s.callback c.cb .sendFailed c.handle none
  | .issued _ | .sent _ | .displaced _ _ => .ok s

/-! ## One step -/

/-- `GetLidarCommandHandler` finds one. -/
def served (s : LivoxLidars) (handle : UInt32) : Bool :=
  (s.deviceDevType handle).any fun devType => devType ∈ commandHandlerTypes

/-- How the command for a request goes out, where it is found a handler. -/
def path (s : LivoxLidars) (handle : UInt32) : LidarRequest → CommandPath
  | .updateLidar _ => .toPort
  | _ => if s.served handle then .general else .none

/-- `HandleDetectionData` of `DeviceManager`. -/
def deviceManagerHandleDetectionData (s : LivoxLidars) (handle : UInt32) (devType : UInt8)
    (isGetLoaderMode isLoaderMode : Bool) : LivoxLidars :=
  if handle = 0 then s
  else
    match s.lidarsDevType handle with
    | some known =>
        if known ≠ devType then s
        else if isGetLoaderMode && isLoaderMode then s.livoxLidarInfoChange handle else s
    | none =>
        let s := { s with lidarsDevType := Function.update s.lidarsDevType handle (some devType) }
        if isGetLoaderMode && isLoaderMode then s.livoxLidarInfoChange handle else s

/-- `UpdateLidarCfg`, where this is the master of the lidar. -/
def updateLidarCfg (s : LivoxLidars) (handle : UInt32) (devType : UInt8) (custom : Bool) :
    LivoxLidars :=
  if devType ∈ commandHandlerTypes ∧ s.updated devType handle = false ∧ custom = true then
    s.ask handle (.updateLidar devType)
  else s

/-- `HandleDetectionData` of `GeneralCommandHandler`. -/
def handleDetectionData (s : LivoxLidars) (handle : UInt32) (retCode devType : UInt8)
    (custom : Bool) : Except LidarFault LivoxLidars :=
  if retCode ≠ 0 then .ok s
  -- `CreateCommandHandler` knows this type and `Init` does not
  else if devType = kLivoxLidarTypePA then .error .nullHandler
  else
    match s.devices handle with
    | some device =>
        let s := if !device.isUpdateCfg && device.isGetLoaderMode && !device.isLoaderMode then
          s.updateLidarCfg handle devType custom else s
        .ok (s.deviceManagerHandleDetectionData handle devType device.isGetLoaderMode
          device.isLoaderMode)
    | none =>
        .ok ({ s with
          deviceDevType := Function.update s.deviceDevType handle
            (some ((s.deviceDevType handle).getD devType))
          devices := Function.update s.devices handle (some {}) }.ask handle .queryFwType)

/-- A step of the SDK, and the callbacks it calls. -/
def command (s : LivoxLidars) (ev : CommandEvent LidarRequest Answer) :
    Except LidarFault (LivoxLidars × List (Notice LidarRequest Answer)) :=
  match s.commandHandler.step ev with
  | .error _ => .error .blocked
  | .ok (commandHandler, notices) =>
      match notices.foldlM notified { s with commandHandler := commandHandler } with
      | .error fault => .error fault
      | .ok s => .ok (s, notices)

/-- One step. -/
def step (s : LivoxLidars) :
    LidarEvent → Except LidarFault (LivoxLidars × List (Notice LidarRequest Answer))
  | .detection handle retCode type custom =>
      match s.handleDetectionData handle retCode type.devType custom with
      | .error fault => .error fault
      | .ok s => .ok (s, [])
  | .call k =>
      match s.pending[k]? with
      | none => .error .blocked
      | some (handle, request) =>
          { s with pending := s.pending.eraseIdx k }.command
            (.sendCommand handle request (s.path handle request))
  | .foreign handle path => s.command (.sendCommand handle .other path)
  | .send serial sent => s.command (.send serial sent)
  | .addCommand serial now => s.command (.addCommand serial now)
  | .handler handle seqNum answer => s.command (.handler handle seqNum answer)
  | .commandsHandle now => s.command (.commandsHandle now)

end LivoxLidars

end FastLivo2
