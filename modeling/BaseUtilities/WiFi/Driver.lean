import BaseUtilities.Effects.Trace
import BaseUtilities.Memory.Buffer

/-!
# The WiFi driver

The calls of ESP-IDF that `wifi_internal.hpp`, `wifi_sta.hpp` and `wifi_ap.hpp` make.  A mode that
`esp_wifi_get_mode` cannot store is whatever its variable held.  The atomic flags of a station are
written by the event task as well, so that they are read and written by operations too.
-/

open Effects Mem

namespace WiFi

/-- `wifi_mode_t` -/
inductive Mode where
  | null
  | sta
  | ap
  | apsta
  deriving DecidableEq, Repr

/-- `esp_err_t` -/
inductive Err where
  | ok
  | invalidArg
  | invalidState
  | wifiState
  | fail
  deriving DecidableEq, Repr

/-- `wifi_interface_t` -/
inductive Interface where
  | sta
  | ap
  deriving DecidableEq, Repr

/-- The events that handlers are registered for. -/
inductive Handler where
  | wifiAny
  | gotIp
  deriving DecidableEq, Repr

inductive AuthMode where
  | isOpen
  | wpa2Psk
  deriving DecidableEq, Repr

/-- `wifi_sta_config_t`; the fields left out are zero. -/
structure StaConfig where
  ssid : Buffer 32
  password : Buffer 64
  channel : UInt8
  bssid_set : Bool
  bssid : Buffer 6
  deriving DecidableEq

/-- `wifi_ap_config_t`; the fields left out are zero. -/
structure ApConfig where
  ssid : Buffer 32
  password : Buffer 64
  ssid_len : UInt8
  channel : UInt8
  authmode : AuthMode
  max_connection : UInt8
  deriving DecidableEq

/-- `wifi_config_t` -/
inductive WifiConfig where
  | sta (config : StaConfig)
  | ap (config : ApConfig)
  deriving DecidableEq

inductive Op where
  /-- The flag of the singleton `Wifi`. -/
  | initialized_
  | setInitialized_ (b : Bool)
  | esp_netif_init
  | esp_event_loop_create_default
  | esp_wifi_init
  | esp_event_handler_instance_register (iface : Interface) (handler : Handler)
  | esp_event_handler_instance_unregister (iface : Interface) (handler : Handler)
  | esp_wifi_get_mode
  /-- `esp_wifi_get_mode(NULL)` -/
  | esp_wifi_get_mode_null
  | esp_wifi_set_mode (mode : Mode)
  | esp_wifi_start
  | esp_wifi_stop
  | esp_wifi_connect
  | esp_wifi_disconnect
  /-- `esp_wifi_get_config(WIFI_IF_STA, ..)` -/
  | esp_wifi_get_config
  /-- `esp_wifi_get_config(WIFI_IF_AP, ..)` -/
  | esp_wifi_get_config_ap
  | esp_wifi_set_config (config : WifiConfig)
  | esp_wifi_config_80211_tx_rate (iface : Interface) (rate : Nat)
  | connected_
  | setConnected_ (b : Bool)
  | setDisconnecting_ (b : Bool)
  | setAttempts_ (n : Nat)
  | sleep_for (milliseconds : Nat)
  | disconnecting_
  | attempts_
  /-- `attempts_++` -/
  | incAttempts_
  /-- The callbacks of `config_`, each where there is one. -/
  | on_connected
  | on_disconnected
  | on_got_ip
  deriving DecidableEq

abbrev Op.Res : Op → Type
  | .initialized_ => Bool
  | .setInitialized_ _ => Unit
  | .esp_netif_init => Err
  | .esp_event_loop_create_default => Err
  | .esp_wifi_init => Err
  | .esp_event_handler_instance_register _ _ => Err
  | .esp_event_handler_instance_unregister _ _ => Err
  | .esp_wifi_get_mode => Err × Mode
  | .esp_wifi_get_mode_null => Err
  | .esp_wifi_set_mode _ => Err
  | .esp_wifi_start => Err
  | .esp_wifi_stop => Err
  | .esp_wifi_connect => Err
  | .esp_wifi_disconnect => Err
  | .esp_wifi_get_config => Err × StaConfig
  | .esp_wifi_get_config_ap => Err × ApConfig
  | .esp_wifi_set_config _ => Err
  | .esp_wifi_config_80211_tx_rate _ _ => Err
  | .connected_ => Bool
  | .setConnected_ _ => Unit
  | .setDisconnecting_ _ => Unit
  | .setAttempts_ _ => Unit
  | .sleep_for _ => Unit
  | .disconnecting_ => Bool
  | .attempts_ => UInt32
  | .incAttempts_ => Unit
  | .on_connected => Unit
  | .on_disconnected => Unit
  | .on_got_ip => Unit

abbrev Code (α : Type) := Prog Op Op.Res α

abbrev WifiEvent := Event Op Op.Res

namespace Sys

abbrev initialized_ : Code Bool := Prog.perform Op.initialized_
abbrev setInitialized_ (b : Bool) : Code Unit := Prog.perform (Op.setInitialized_ b)
abbrev esp_netif_init : Code Err := Prog.perform Op.esp_netif_init
abbrev esp_event_loop_create_default : Code Err := Prog.perform Op.esp_event_loop_create_default
abbrev esp_wifi_init : Code Err := Prog.perform Op.esp_wifi_init
abbrev esp_event_handler_instance_register (iface : Interface) (handler : Handler) : Code Err :=
  Prog.perform (Op.esp_event_handler_instance_register iface handler)
abbrev esp_event_handler_instance_unregister (iface : Interface) (handler : Handler) : Code Err :=
  Prog.perform (Op.esp_event_handler_instance_unregister iface handler)
abbrev esp_wifi_get_mode : Code (Err × Mode) := Prog.perform Op.esp_wifi_get_mode
abbrev esp_wifi_get_mode_null : Code Err := Prog.perform Op.esp_wifi_get_mode_null
abbrev esp_wifi_set_mode (mode : Mode) : Code Err := Prog.perform (Op.esp_wifi_set_mode mode)
abbrev esp_wifi_start : Code Err := Prog.perform Op.esp_wifi_start
abbrev esp_wifi_stop : Code Err := Prog.perform Op.esp_wifi_stop
abbrev esp_wifi_connect : Code Err := Prog.perform Op.esp_wifi_connect
abbrev esp_wifi_disconnect : Code Err := Prog.perform Op.esp_wifi_disconnect
abbrev esp_wifi_get_config : Code (Err × StaConfig) := Prog.perform Op.esp_wifi_get_config
abbrev esp_wifi_get_config_ap : Code (Err × ApConfig) := Prog.perform Op.esp_wifi_get_config_ap
abbrev esp_wifi_set_config (config : WifiConfig) : Code Err :=
  Prog.perform (Op.esp_wifi_set_config config)
abbrev esp_wifi_config_80211_tx_rate (iface : Interface) (rate : Nat) : Code Err :=
  Prog.perform (Op.esp_wifi_config_80211_tx_rate iface rate)
abbrev connected_ : Code Bool := Prog.perform Op.connected_
abbrev setConnected_ (b : Bool) : Code Unit := Prog.perform (Op.setConnected_ b)
abbrev setDisconnecting_ (b : Bool) : Code Unit := Prog.perform (Op.setDisconnecting_ b)
abbrev setAttempts_ (n : Nat) : Code Unit := Prog.perform (Op.setAttempts_ n)
abbrev sleep_for (milliseconds : Nat) : Code Unit := Prog.perform (Op.sleep_for milliseconds)
abbrev disconnecting_ : Code Bool := Prog.perform Op.disconnecting_
abbrev attempts_ : Code UInt32 := Prog.perform Op.attempts_
abbrev incAttempts_ : Code Unit := Prog.perform Op.incAttempts_
abbrev on_connected : Code Unit := Prog.perform Op.on_connected
abbrev on_disconnected : Code Unit := Prog.perform Op.on_disconnected
abbrev on_got_ip : Code Unit := Prog.perform Op.on_got_ip

end Sys

/-- `Wifi::init` of the singleton. -/
def Wifi.init : Code Bool := do
  let initialized_ ← Sys.initialized_
  if initialized_ then
    return true
  else
    let err ← Sys.esp_netif_init
    if err ≠ .ok ∧ err ≠ .invalidState then
      return false
    else
      let err ← Sys.esp_event_loop_create_default
      if err ≠ .ok ∧ err ≠ .invalidState then
        return false
      else
        let err ← Sys.esp_wifi_init
        if err ≠ .ok then
          return false
        else
          Sys.setInitialized_ true
          return true

namespace WifiBase

/-- `WifiBase::is_initialized` -/
def is_initialized : Code Bool := do
  let (err, mode) ← Sys.esp_wifi_get_mode
  return err = .ok && mode ≠ .null

/-- `esp_wifi_start`, as `start` of a station and of an access point. -/
def start : Code Bool := do
  let err ← Sys.esp_wifi_start
  return err = .ok

/-- The part of `reconfigure` that sets a mode, where it is not the current one. -/
def switchMode (current_mode new_mode : Mode) : Code Bool := do
  if current_mode ≠ new_mode then
    let err ← Sys.esp_wifi_set_mode new_mode
    return err = .ok
  else
    return true

end WifiBase

/-! ## The world of a driver -/

/-- The driver, beside the flag of the singleton. -/
structure World where
  initialized_ : Bool
  initialized : Bool
  mode : Mode
  started : Bool
  deriving DecidableEq, Repr

namespace World

/-- The calls succeed, but for the mode of a driver that is not initialised and the mode without a
place for it; whether a station connects is open. -/
def Allows (w : World) : WifiEvent → Prop
  | ⟨.initialized_, b⟩ => b = w.initialized_
  | ⟨.esp_netif_init, err⟩ => err = .ok ∨ err = .invalidState
  | ⟨.esp_event_loop_create_default, err⟩ => err = .ok ∨ err = .invalidState
  | ⟨.esp_wifi_init, err⟩ => err = .ok
  | ⟨.esp_event_handler_instance_register _ _, err⟩ => err = .ok
  | ⟨.esp_wifi_get_mode, err, mode⟩ =>
    if w.initialized then err = .ok ∧ mode = w.mode else err ≠ .ok
  | ⟨.esp_wifi_get_mode_null, err⟩ => err = .invalidArg
  | ⟨.esp_wifi_set_mode _, err⟩ => err = .ok
  | ⟨.esp_wifi_start, err⟩ => err = .ok
  | ⟨.esp_wifi_stop, err⟩ => err = .ok
  | ⟨.esp_wifi_get_config, err, _⟩ => err = .ok
  | ⟨.esp_wifi_get_config_ap, err, _⟩ => err = .ok
  | ⟨.esp_wifi_set_config _, err⟩ => err = .ok
  | ⟨.esp_wifi_config_80211_tx_rate _ _, err⟩ => err = .ok
  | _ => True

def after (w : World) : WifiEvent → World
  | ⟨.setInitialized_ b, _⟩ => { w with initialized_ := b }
  | ⟨.esp_wifi_init, _⟩ => { w with initialized := true }
  | ⟨.esp_wifi_set_mode mode, _⟩ => { w with mode := mode }
  | ⟨.esp_wifi_start, _⟩ => { w with started := true }
  | ⟨.esp_wifi_stop, _⟩ => { w with started := false }
  | _ => w

/-- Before the first call: a driver that is not initialised, with the mode it will start in. -/
def boot (mode : Mode) : World := ⟨false, false, mode, false⟩

end World

/-- The driver; `may` restricts its answers and those of the event task. -/
def driver (may : World → WifiEvent → Prop) : Env Op Op.Res World :=
  watching (fun w e => w.Allows e ∧ may w e) World.after

end WiFi
