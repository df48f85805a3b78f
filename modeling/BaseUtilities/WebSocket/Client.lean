import BaseUtilities.Effects.Program
import BaseUtilities.Memory.Buffer

/-!
# WebSocket clients

The class `WebsocketClient` of `WebsocketClient.hpp` over `esp_websocket_client`.  The member
`m_connected` is written by the task of the library as well, so that it is read and written by
operations; the other members belong to the owner.  The logs are left out.
-/

open Effects Mem

namespace WebSocket

/-- `esp_websocket_client_config_t`; the fields left out are zero. -/
structure ClientConfig where
  uri : Bytes
  reconnect_timeout_ms : UInt32
  network_timeout_ms : UInt32
  subprotocol : Option Bytes
  cert_pem : Option Bytes
  /-- The certificates of `esp_crt_bundle_attach`. -/
  crt_bundle_attach : Bool
  skip_cert_common_name_check : Bool
  deriving DecidableEq, Repr

/-- `ws_transport_opcodes_t` -/
inductive Opcode where
  | cont
  | text
  | binary
  | close
  | ping
  | pong
  | fin
  | none
  deriving DecidableEq, Repr

def Opcode.number : Opcode → Int32
  | .cont => 0x00
  | .text => 0x01
  | .binary => 0x02
  | .close => 0x08
  | .ping => 0x09
  | .pong => 0x0a
  | .fin => 0x80
  | .none => 0x100

/-- The events that `websocket_event_handler` is registered for. -/
inductive WebsocketEvent where
  | connected
  | disconnected
  | data (op_code : UInt8) (data : Bytes)
  | error (error_handle : Nat)
  | closed
  /-- Any other event. -/
  | other (event_id : Int)
  deriving DecidableEq, Repr

inductive Op where
  | m_connected
  | setM_connected (b : Bool)
  | esp_websocket_client_init (config : ClientConfig)
  | esp_websocket_register_events (client : Nat)
  | esp_websocket_client_start (client : Nat)
  | esp_websocket_client_stop (client : Nat)
  | esp_websocket_client_destroy (client : Nat)
  | esp_websocket_client_is_connected (client : Nat)
  /-- The three sends wait as long as they have to. -/
  | esp_websocket_client_send_text (client : Nat) (data : Bytes)
  | esp_websocket_client_send_bin (client : Nat) (data : Bytes)
  | esp_websocket_client_send_with_opcode (client : Nat) (opcode : Opcode) (data : Bytes)
  /-- The user's callbacks, each where there is one. -/
  | on_connected
  | on_disconnected
  | on_message (op_code : UInt8) (data : Bytes)
  | on_error (error_handle : Nat)
  deriving DecidableEq

/-- What a call answers: a handle or a null pointer, whether `err` is `ESP_OK`, and the number of bytes
sent. -/
abbrev Op.Res : Op → Type
  | .m_connected => Bool
  | .esp_websocket_client_init _ => Option Nat
  | .esp_websocket_client_start _ => Bool
  | .esp_websocket_client_is_connected _ => Bool
  | .esp_websocket_client_send_text _ _ => Int32
  | .esp_websocket_client_send_bin _ _ => Int32
  | .esp_websocket_client_send_with_opcode _ _ _ => Int32
  | _ => Unit

abbrev Code (α : Type) := Prog Op Op.Res α

namespace Sys

abbrev m_connected : Code Bool := Prog.perform Op.m_connected
abbrev setM_connected (b : Bool) : Code Unit := Prog.perform (Op.setM_connected b)
abbrev esp_websocket_client_init (config : ClientConfig) : Code (Option Nat) :=
  Prog.perform (Op.esp_websocket_client_init config)
abbrev esp_websocket_register_events (client : Nat) : Code Unit :=
  Prog.perform (Op.esp_websocket_register_events client)
abbrev esp_websocket_client_start (client : Nat) : Code Bool :=
  Prog.perform (Op.esp_websocket_client_start client)
abbrev esp_websocket_client_stop (client : Nat) : Code Unit :=
  Prog.perform (Op.esp_websocket_client_stop client)
abbrev esp_websocket_client_destroy (client : Nat) : Code Unit :=
  Prog.perform (Op.esp_websocket_client_destroy client)
abbrev esp_websocket_client_is_connected (client : Nat) : Code Bool :=
  Prog.perform (Op.esp_websocket_client_is_connected client)
abbrev esp_websocket_client_send_text (client : Nat) (data : Bytes) : Code Int32 :=
  Prog.perform (Op.esp_websocket_client_send_text client data)
abbrev esp_websocket_client_send_bin (client : Nat) (data : Bytes) : Code Int32 :=
  Prog.perform (Op.esp_websocket_client_send_bin client data)
abbrev esp_websocket_client_send_with_opcode (client : Nat) (opcode : Opcode) (data : Bytes) : Code Int32 :=
  Prog.perform (Op.esp_websocket_client_send_with_opcode client opcode data)
abbrev on_connected : Code Unit := Prog.perform Op.on_connected
abbrev on_disconnected : Code Unit := Prog.perform Op.on_disconnected
abbrev on_message (op_code : UInt8) (data : Bytes) : Code Unit := Prog.perform (Op.on_message op_code data)
abbrev on_error (error_handle : Nat) : Code Unit := Prog.perform (Op.on_error error_handle)

end Sys

/-- The members of a `WebsocketClient`, but for `m_connected` and the callbacks. -/
structure WebsocketClient where
  m_client : Option Nat
  m_url : Bytes
  m_auto_reconnect : Bool
  m_reconnect_delay_ms : UInt32
  m_server_cert : Bytes
  m_skip_cert_common_name_check : Bool
  deriving DecidableEq, Repr

namespace WebsocketClient

/-- `WebsocketClient::WebsocketClient` -/
def constructed : WebsocketClient where
  m_client := none
  m_url := []
  m_auto_reconnect := false
  m_reconnect_delay_ms := 5000
  m_server_cert := []
  m_skip_cert_common_name_check := false

/-- `WebsocketClient::disconnect`, which is also the destructor. -/
def disconnect (self : WebsocketClient) : Code WebsocketClient :=
  match self.m_client with
  | none => return self
  | some m_client => do
    Sys.esp_websocket_client_stop m_client
    Sys.esp_websocket_client_destroy m_client
    Sys.setM_connected false
    return { self with m_client := none }

/-- `connect`, the configuration. -/
def config (self : WebsocketClient) (url : Bytes) (subprotocol : Option Bytes) : ClientConfig where
  uri := url
  reconnect_timeout_ms := self.m_reconnect_delay_ms
  network_timeout_ms := 10 * 1000
  subprotocol := subprotocol.filter (· ≠ [])
  cert_pem := if self.m_server_cert = [] then none else some self.m_server_cert
  crt_bundle_attach := self.m_server_cert = []
  skip_cert_common_name_check := self.m_skip_cert_common_name_check

/-- `connect`, the part behind the `disconnect` of an earlier client. -/
def open_ (self : WebsocketClient) (url : Bytes) (auto_reconnect : Bool) (reconnect_delay_ms : UInt32)
    (subprotocol : Option Bytes) : Code (Bool × WebsocketClient) := do
  let self := { self with
    m_auto_reconnect := auto_reconnect
    m_reconnect_delay_ms := reconnect_delay_ms
    m_url := url }
  let m_client ← Sys.esp_websocket_client_init (self.config url subprotocol)
  match m_client with
  | none => return (false, { self with m_client := none })
  | some m_client =>
    Sys.esp_websocket_register_events m_client
    let started ← Sys.esp_websocket_client_start m_client
    if started then
      return (true, { self with m_client := some m_client })
    else
      Sys.esp_websocket_client_destroy m_client
      return (false, { self with m_client := none })

/-- `WebsocketClient::connect`; `subprotocol` may be a null pointer. -/
def connect (self : WebsocketClient) (url : Bytes) (auto_reconnect : Bool) (reconnect_delay_ms : UInt32)
    (subprotocol : Option Bytes) : Code (Bool × WebsocketClient) := do
  let self ← self.disconnect -- without a client it does nothing
  self.open_ url auto_reconnect reconnect_delay_ms subprotocol

/-- `WebsocketClient::is_connected` -/
def is_connected (self : WebsocketClient) : Code Bool :=
  match self.m_client with
  | none => return false
  | some m_client => do
    let connected ← Sys.esp_websocket_client_is_connected m_client
    if connected then Sys.m_connected else return false

/-- `WebsocketClient::send` -/
def send (self : WebsocketClient) (data : Bytes) (opcode : Int32) : Code Bool := do
  let connected ← self.is_connected
  match connected, self.m_client with
  | true, some m_client =>
    if opcode = Opcode.binary.number then
      let sent ← Sys.esp_websocket_client_send_bin m_client data
      return sent = Int32.ofNat data.length
    else if opcode = Opcode.text.number then
      let sent ← Sys.esp_websocket_client_send_text m_client data
      return sent = Int32.ofNat data.length
    else
      return false
  | _, _ => return false

/-- `WebsocketClient::send_text` of a string. -/
def send_text (self : WebsocketClient) (text : Bytes) : Code Bool := self.send text Opcode.text.number

/-- `WebsocketClient::send_binary` -/
def send_binary (self : WebsocketClient) (data : Bytes) : Code Bool := self.send data Opcode.binary.number

/-- `WebsocketClient::send_frame`; it does not look at `fin`. -/
def send_frame (self : WebsocketClient) (_fin : Bool) (opcode : Opcode) (data : Bytes) : Code Bool := do
  let connected ← self.is_connected
  match connected, self.m_client with
  | true, some m_client =>
    let sent ← Sys.esp_websocket_client_send_with_opcode m_client opcode data
    return sent = Int32.ofNat data.length
  | _, _ => return false

def send_text_frame (self : WebsocketClient) (fin : Bool) (data : Bytes) : Code Bool :=
  self.send_frame fin .text data

def send_binary_frame (self : WebsocketClient) (fin : Bool) (data : Bytes) : Code Bool :=
  self.send_frame fin .binary data

/-- `WebsocketClient::websocket_event_handler` -/
def websocket_event_handler : WebsocketEvent → Code Unit
  | .connected => do
    Sys.setM_connected true
    Sys.on_connected
  | .disconnected => do
    let was_connected ← Sys.m_connected
    Sys.setM_connected false
    if was_connected then
      Sys.on_disconnected
    else
      return ()
  | .data op_code data =>
    if 0 < data.length then Sys.on_message op_code data else return ()
  | .error error_handle => Sys.on_error error_handle
  | .closed => return ()
  | .other _ => return ()

end WebsocketClient

end WebSocket
