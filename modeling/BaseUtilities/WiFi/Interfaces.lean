import BaseUtilities.WiFi.Driver

/-!
# Stations and access points

The classes `WifiSta` and `WifiAp` of `wifi_sta.hpp` and `wifi_ap.hpp`, with the constructors of
`wifi_sta.cpp` and `wifi_ap.cpp`.  `connect` and `reconfigure` of a station call each other; `depth`
is the number of nested calls that the stack has room for.  `netif_`, which only the host names and
addresses use, and the logs are left out.
-/

open Effects Mem

namespace WiFi

/-! ## `WifiSta` -/

namespace WifiSta

/-- `WifiSta::Config`; the callbacks are left out. -/
structure Config where
  ssid : Bytes
  password : Bytes
  phy_rate : Nat
  num_connect_retries : UInt32
  auto_connect : Bool
  channel : UInt8
  set_ap_mac : Bool
  ap_mac : Buffer 6
  deriving DecidableEq

/-- The defaults of its members. -/
def Config.default : Config where
  ssid := []
  password := []
  phy_rate := 16 -- `WIFI_PHY_RATE_MCS0_LGI`
  num_connect_retries := 0
  auto_connect := true
  channel := 0
  set_ap_mac := false
  ap_mac := .zeroed 6

/-- `WifiSta::disconnect` -/
def disconnect : Code Bool := do
  Sys.setConnected_ false
  Sys.setAttempts_ 0
  Sys.setDisconnecting_ true
  let err ← Sys.esp_wifi_disconnect
  return err = .ok

/-- `WifiSta::stop` -/
def stop : Code Bool := disconnect

/-- `reconfigure`, the wait for the end of a connection: at most ten times 100 ms. -/
def awaitDisconnect : Code Unit :=
  Prog.forever 0 fun attempts => do
    let connected_ ← Sys.connected_
    if connected_ ∧ attempts < 10 then
      Sys.sleep_for 100
      return .next (attempts + 1)
    else
      return .done ()

/-- `reconfigure`, the start: disconnect a station that is connected. -/
def leave (was_connected : Bool) : Code Unit := do
  if was_connected then
    let _ ← disconnect
    awaitDisconnect
  else
    return ()

/-- `reconfigure`, the credentials: without an SSID those that are saved. -/
def credentials (config : Config) : Code (Option StaConfig) := do
  if config.ssid = [] then
    let (err, wifi_config) ← Sys.esp_wifi_get_config
    return if err = .ok then some wifi_config else none
  else
    let ssid ← Prog.ofOption ((Buffer.zeroed 32).store? 0 config.ssid)
    let password ← Prog.ofOption ((Buffer.zeroed 64).store? 0 config.password)
    return some ⟨ssid, password, 0, false, .zeroed 6⟩

/-- `reconfigure`, the access point that is looked for. -/
def target (config : Config) (wifi_config : StaConfig) : StaConfig :=
  { wifi_config with
    channel := config.channel
    bssid_set := config.set_ap_mac
    bssid := if config.set_ap_mac then config.ap_mac else wifi_config.bssid }

/-- `reconfigure`, the mode: the current one with a station. -/
def newMode (err : Err) (current_mode : Mode) : Mode :=
  if err = .ok then
    match current_mode with
    | .ap => .apsta
    | .apsta => .apsta
    | _ => .sta
  else
    .sta

/-- `reconfigure`, the mode and the configuration. -/
def configure (wifi_config : StaConfig) (phy_rate : Nat) : Code Bool := do
  let (err, current_mode) ← Sys.esp_wifi_get_mode
  let switched ← WifiBase.switchMode current_mode (newMode err current_mode)
  if switched then
    let err ← Sys.esp_wifi_set_config (.sta wifi_config)
    if err = .ok then
      -- a failure is logged only
      let _ ← Sys.esp_wifi_config_80211_tx_rate .sta phy_rate
      return true
    else
      return false
  else
    return false

/-- `WifiSta::reconfigure`, up to the `connect` at its end. -/
def reconfigureWith (connect : Code Bool) (config : Config) : Code Bool := do
  let was_connected ← Sys.connected_
  leave was_connected
  let wifi_config ← credentials config
  match wifi_config with
  | none => return false
  | some wifi_config =>
    let configured ← configure (target config wifi_config) config.phy_rate
    if configured then
      if was_connected then connect else return true
    else
      return false

/-- `WifiSta::ensure_wifi_ready`, over the call of `reconfigure(config_)`. -/
def ensure_wifi_ready (reconfigure : Code Bool) : Code Bool := do
  let initialized ← WifiBase.is_initialized
  if initialized then
    let (err, current_mode) ← Sys.esp_wifi_get_mode
    if err ≠ .ok ∨ current_mode = .null then
      let reconfigured ← reconfigure
      if reconfigured then WifiBase.start else return false
    else
      let err ← Sys.esp_wifi_start
      return err = .ok || err = .wifiState
  else
    return false

/-- `WifiSta::connect`, over the call of `reconfigure(config_)`. -/
def connectWith (reconfigure : Code Bool) : Code Bool := do
  let ready ← ensure_wifi_ready reconfigure
  if ready then
    Sys.setAttempts_ 0
    Sys.setConnected_ false
    let err ← Sys.esp_wifi_connect
    return err = .ok
  else
    return false

/-- `WifiSta::connect` of a station with the configuration `config_`. -/
def connect : Nat → Config → Code Bool
  | 0, _ => connectWith .fault
  | depth + 1, config_ => connectWith (reconfigureWith (connect depth config_) config_)

/-- `WifiSta::reconfigure` -/
def reconfigure (depth : Nat) (config : Config) : Code Bool :=
  reconfigureWith (connect depth config) config

/-- `WifiSta::get_saved_config`; there is none where the driver has an error. -/
def get_saved_config : Code (Option StaConfig) := do
  let (err, wifi_config) ← Sys.esp_wifi_get_config
  return if err = .ok then some wifi_config else none

/-- `connect(ssid, password)`, the configuration: the strings are copied over what is saved. -/
def withCredentials (wifi_config : StaConfig) (ssid password : Bytes) : Option StaConfig := do
  let ssid ← wifi_config.ssid.store? 0 ssid
  if password = [] then
    some { wifi_config with ssid }
  else
    let password ← wifi_config.password.store? 0 password
    some { wifi_config with ssid, password }

/-- `WifiSta::connect(ssid, password)` of a station with the configuration `config_`. -/
def connect_ssid (depth : Nat) (config_ : Config) (ssid password : Bytes) : Code Bool := do
  if ssid = [] then
    return false
  else
    match ← get_saved_config with
    | none => return false
    | some wifi_config =>
      let wifi_config ← Prog.ofOption (withCredentials wifi_config ssid password)
      let err ← Sys.esp_wifi_set_config (.sta wifi_config)
      if err = .ok then connect depth config_ else return false

/-- The events that `event_handler` tells apart; all others are left alone. -/
inductive StaEvent where
  | start
  | disconnected
  | connected
  | gotIp
  deriving DecidableEq, Repr

/-- `SIZE_MAX` -/
abbrev SIZE_MAX : UInt32 := 0xFFFFFFFF

/-- `event_handler`, the part of a lost connection that tries again. -/
def retry (max_retries : UInt32) : Code Unit := do
  let attempts_ ← Sys.attempts_
  if attempts_ < max_retries ∨ max_retries = SIZE_MAX then
    let _ ← Sys.esp_wifi_connect
    Sys.incAttempts_
  else
    return ()

/-- `WifiSta::event_handler` of a station with the configuration `config_`. -/
def event_handler (config_ : Config) : StaEvent → Code Unit
  | .start => do
    Sys.setConnected_ false
    if config_.auto_connect then
      let _ ← Sys.esp_wifi_connect
      return ()
    else
      return ()
  | .disconnected => do
    Sys.setConnected_ false
    let disconnecting_ ← Sys.disconnecting_
    if disconnecting_ then
      -- an intentional disconnect is not retried
      Sys.setDisconnecting_ false
    else
      retry config_.num_connect_retries
    Sys.on_disconnected
  | .connected => return ()
  | .gotIp => do
    Sys.setAttempts_ 0
    Sys.setConnected_ true
    Sys.on_connected
    Sys.on_got_ip

def register_event_handlers : Code Bool := do
  let err ← Sys.esp_event_handler_instance_register .sta .wifiAny
  if err = .ok then
    let err ← Sys.esp_event_handler_instance_register .sta .gotIp
    return err = .ok
  else
    return false

def unregister_event_handlers : Code Bool := do
  let err ← Sys.esp_event_handler_instance_unregister .sta .wifiAny
  if err = .ok then
    let err ← Sys.esp_event_handler_instance_unregister .sta .gotIp
    return err = .ok
  else
    return false

/-- `WifiSta::init`, the constructor. -/
def init (depth : Nat) (config : Config) : Code Unit := do
  let ready ← Wifi.init
  if ready then
    let registered ← register_event_handlers
    if registered then
      let reconfigured ← reconfigure depth config
      if reconfigured then
        let _ ← WifiBase.start
        return ()
      else
        return ()
    else
      return ()
  else
    return ()

/-- `~WifiSta` -/
def destroy : Code Unit := do
  Sys.setConnected_ false
  Sys.setDisconnecting_ true
  Sys.setAttempts_ 0
  let _ ← unregister_event_handlers
  let (err, mode) ← Sys.esp_wifi_get_mode
  if err = .ok ∧ mode = .apsta then
    let _ ← Sys.esp_wifi_disconnect
    let _ ← Sys.esp_wifi_set_mode .ap
    return ()
  else
    let _ ← Sys.esp_wifi_stop
    return ()

end WifiSta

/-! ## `WifiAp` -/

namespace WifiAp

/-- `WifiAp::Config` -/
structure Config where
  ssid : Bytes
  password : Bytes
  phy_rate : Nat
  channel : UInt8
  max_number_of_stations : UInt8
  deriving DecidableEq

/-- The defaults of its members. -/
def Config.default : Config where
  ssid := []
  password := []
  phy_rate := 16 -- `WIFI_PHY_RATE_MCS0_LGI`
  channel := 1
  max_number_of_stations := 4

/-- `WifiAp::stop` -/
def stop : Code Bool := do
  let (err, mode) ← Sys.esp_wifi_get_mode
  if err = .ok ∧ mode = .apsta then
    let err ← Sys.esp_wifi_set_mode .sta
    return err = .ok
  else
    let err ← Sys.esp_wifi_stop
    return err = .ok

/-- `reconfigure`, the start: stop an access point that runs. -/
def halt (was_running : Bool) : Code Unit := do
  if was_running then
    let _ ← stop
    return ()
  else
    return ()

/-- `reconfigure`, the configuration. -/
def wifiConfig (config : Config) : Code ApConfig := do
  let ssid ← Prog.ofOption ((Buffer.zeroed 32).store? 0 config.ssid)
  let password ← Prog.ofOption ((Buffer.zeroed 64).store? 0 config.password)
  return {
    ssid := ssid
    password := password
    ssid_len := UInt8.ofNat config.ssid.length
    channel := config.channel
    authmode := if config.password = [] then .isOpen else .wpa2Psk
    max_connection := config.max_number_of_stations }

/-- `reconfigure`, the mode: the current one with an access point. -/
def newMode (err : Err) (current_mode : Mode) : Mode :=
  if err = .ok then
    match current_mode with
    | .sta => .apsta
    | .apsta => .apsta
    | _ => .ap
  else
    .ap

/-- `reconfigure`, the mode and the configuration. -/
def configure (wifi_config : ApConfig) (phy_rate : Nat) : Code Bool := do
  let (err, current_mode) ← Sys.esp_wifi_get_mode
  let switched ← WifiBase.switchMode current_mode (newMode err current_mode)
  if switched then
    let err ← Sys.esp_wifi_set_config (.ap wifi_config)
    if err = .ok then
      let err ← Sys.esp_wifi_config_80211_tx_rate .ap phy_rate
      return err = .ok
    else
      return false
  else
    return false

/-- `WifiAp::reconfigure` -/
def reconfigure (config : Config) : Code Bool := do
  let (err, mode) ← Sys.esp_wifi_get_mode
  let was_running : Bool := err = .ok ∧ (mode = .ap ∨ mode = .apsta)
  halt was_running
  let wifi_config ← wifiConfig config
  let configured ← configure wifi_config config.phy_rate
  if configured then
    if was_running then WifiBase.start else return true
  else
    return false

/-- `set_ssid_and_password`, the configuration: the fields of the saved one are cleared first. -/
def withCredentials (wifi_config : ApConfig) (ssid password : Bytes) : Option ApConfig := do
  let ssid_len := UInt8.ofNat ssid.length
  let ssid ← (Buffer.zeroed 32).store? 0 ssid
  if password = [] then
    some { wifi_config with ssid, ssid_len, password := .zeroed 64, authmode := .isOpen }
  else
    let password ← (Buffer.zeroed 64).store? 0 password
    some { wifi_config with ssid, ssid_len, password, authmode := .wpa2Psk }

/-- `WifiAp::set_ssid_and_password` -/
def set_ssid_and_password (ssid password : Bytes) : Code Bool := do
  let (err, wifi_config) ← Sys.esp_wifi_get_config_ap
  if err = .ok then
    let wifi_config ← Prog.ofOption (withCredentials wifi_config ssid password)
    let err ← Sys.esp_wifi_set_config (.ap wifi_config)
    return err = .ok
  else
    return false

def register_event_handlers : Code Bool := do
  let err ← Sys.esp_event_handler_instance_register .ap .wifiAny
  return err = .ok

def unregister_event_handlers : Code Bool := do
  let err ← Sys.esp_event_handler_instance_unregister .ap .wifiAny
  return err = .ok

/-- `WifiAp::init`, the constructor. -/
def init (config : Config) : Code Unit := do
  let ready ← Wifi.init
  if ready then
    let registered ← register_event_handlers
    if registered then
      let reconfigured ← reconfigure config
      if reconfigured then
        let _ ← WifiBase.start
        return ()
      else
        return ()
    else
      return ()
  else
    return ()

/-- `~WifiAp` -/
def destroy : Code Unit := do
  let _ ← unregister_event_handlers
  let _ ← stop
  return ()

end WifiAp

/-! ## `WiFiClass` -/

/-- The members of `WiFiClass`: of a station its `config_`, of an access point that it is there. -/
structure WiFiClass where
  sta_ : Option WifiSta.Config
  ap_ : Bool
  m_mode : Mode
  m_connected : Bool
  deriving DecidableEq

namespace WiFiClass

/-- `WiFiClass::WiFiClass` -/
def constructed : WiFiClass where
  sta_ := none
  ap_ := false
  m_mode := .null
  m_connected := false

/-- `WiFiClass::setMode` -/
def setMode (self : WiFiClass) (mode : Mode) : Code WiFiClass := do
  let err ← Sys.esp_wifi_get_mode_null
  if err = .ok then
    let _ ← Sys.esp_wifi_set_mode mode
    return { self with m_mode := mode }
  else
    return { self with m_mode := mode }

/-- The configuration of the station that `begin` makes. -/
def staConfig (ssid : Bytes) (password : Option Bytes) : WifiSta.Config :=
  { WifiSta.Config.default with
    auto_connect := false
    ssid := ssid
    num_connect_retries := 0xFFFFFFFF -- `SIZE_MAX`
    password := password.getD WifiSta.Config.default.password }

/-- A `unique_ptr` lets go of a station. -/
def destroySta (sta_ : Option WifiSta.Config) : Code Unit := do
  if sta_.isSome then WifiSta.destroy else return ()

/-- A `unique_ptr` lets go of an access point. -/
def destroyAp (ap_ : Bool) : Code Unit := do
  if ap_ then WifiAp.destroy else return ()

/-- `WiFiClass::begin`: the assignment to `sta_` destroys the old station after the new one has been
constructed. -/
def begin (depth : Nat) (self : WiFiClass) (ssid : Bytes) (password : Option Bytes) :
    Code WiFiClass := do
  WifiSta.init depth (staConfig ssid password)
  destroySta self.sta_
  setMode { self with sta_ := some (staConfig ssid password), m_mode := .sta } .sta

/-- `WiFiClass::connect` to the network of the station. -/
def connectSta (depth : Nat) (self : WiFiClass) : Code WiFiClass := do
  match self.sta_ with
  | none => return self
  | some config_ =>
    let connected_ ← Sys.connected_
    if connected_ then
      return self
    else
      let _ ← WifiSta.connect depth config_
      return self

/-- `WiFiClass::connect` -/
def connect (depth : Nat) (self : WiFiClass) (ssid : Bytes) (password : Option Bytes) :
    Code WiFiClass := do
  let self ← self.begin depth ssid password
  self.connectSta depth

/-- `end`, the station. -/
def endSta (sta_ : Option WifiSta.Config) : Code Unit := do
  if sta_.isSome then
    let _ ← WifiSta.stop
    WifiSta.destroy
  else
    return ()

/-- `end` and `softAPend`, the access point. -/
def endAp (ap_ : Bool) : Code Unit := do
  if ap_ then
    let _ ← WifiAp.stop
    WifiAp.destroy
  else
    return ()

/-- `WiFiClass::end` -/
def end_ (self : WiFiClass) : Code WiFiClass := do
  endSta self.sta_
  endAp self.ap_
  return { self with sta_ := none, ap_ := false, m_connected := false, m_mode := .null }

/-- The configuration of the access point that `softAP` makes. -/
def apConfig (ssid : Bytes) (password : Option Bytes) (channel max_connection : Int) :
    WifiAp.Config :=
  { WifiAp.Config.default with
    ssid := ssid
    password :=
      match password with
      | some password =>
        if 8 ≤ password.length then password else WifiAp.Config.default.password
      | none => WifiAp.Config.default.password
    channel := UInt8.ofInt channel
    max_number_of_stations := UInt8.ofInt max_connection }

/-- `WiFiClass::softAP`; `hidden` is not used. -/
def softAP (self : WiFiClass) (ssid : Bytes) (password : Option Bytes)
    (channel : Int) (_hidden : Bool) (max_connection : Int) : Code WiFiClass := do
  WifiAp.init (apConfig ssid password channel max_connection)
  destroyAp self.ap_
  setMode { self with ap_ := true } (if self.sta_.isSome then .apsta else .ap)

/-- `WiFiClass::softAPend` -/
def softAPend (self : WiFiClass) : Code WiFiClass := do
  endAp self.ap_
  setMode { self with ap_ := false } (if self.sta_.isSome then .sta else .null)

end WiFiClass

end WiFi
