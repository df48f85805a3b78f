import BaseUtilities.Effects.Runs
import BaseUtilities.Framing.Fragments
import BaseUtilities.WebSocket.Client

/-!
# What is sent over a connection

The frames that a connected client puts on the wire, and what a receiver makes of them.  Whole messages
arrive as they are sent.  A message in fragments does not, since `send_frame` leaves it to the library
to set the FIN bit, and that is set in every frame.
-/

open Effects Mem Framing

namespace WebSocket

/-- A fragment is sent by `send_text_frame` or by `send_binary_frame`. -/
inductive Kind where
  | text
  | binary
  deriving DecidableEq, Repr

def Kind.opcode : Kind → Opcode
  | .text => .text
  | .binary => .binary

structure FrameCall where
  kind : Kind
  fin : Bool
  data : Bytes
  deriving DecidableEq, Repr

def FrameCall.run (self : WebsocketClient) (c : FrameCall) : Code Bool :=
  match c.kind with
  | .text => self.send_text_frame c.fin c.data
  | .binary => self.send_binary_frame c.fin c.data

/-- Calls one after another. -/
def sendAll {γ : Type} (run : γ → Code Bool) : List γ → Code Unit
  | [] => return ()
  | c :: calls => do
    let _ ← run c
    sendAll run calls

def sendFrames (self : WebsocketClient) : List FrameCall → Code Unit := sendAll fun c => c.run self

/-- A whole message is sent by `send_text` or by `send_binary`. -/
def sendMessage (self : WebsocketClient) : Kind × Bytes → Code Bool
  | (.text, text) => self.send_text text
  | (.binary, data) => self.send_binary data

def sendMessages (self : WebsocketClient) : List (Kind × Bytes) → Code Unit := sendAll (sendMessage self)

/-! ## The wire -/

abbrev WireFrame := Frame Opcode UInt8

/-- The library sends one frame with its FIN bit set. -/
def wireFrame (opcode : Opcode) (data : Bytes) : WireFrame :=
  ⟨true, if opcode = .cont then none else some opcode, data⟩

/-- A send of the client that is connected. -/
def emit (client c : Nat) (wire : List WireFrame) (opcode : Opcode) (data : Bytes) :
    Option (Int32 × List WireFrame) :=
  if c = client then some (Int32.ofNat data.length, wire ++ [wireFrame opcode data]) else none

/-- A client that is connected and stays so, with the frames that it has put on the wire. -/
def connected (client : Nat) : Env Op Op.Res (List WireFrame) :=
  answering fun wire op =>
    match op with
    | .esp_websocket_client_is_connected c => some (decide (c = client), wire)
    | .m_connected => some (true, wire)
    | .esp_websocket_client_send_text c data => emit client c wire .text data
    | .esp_websocket_client_send_bin c data => emit client c wire .binary data
    | .esp_websocket_client_send_with_opcode c opcode data => emit client c wire opcode data
    | _ => none

theorem connected_deterministic (client : Nat) : Deterministic (connected client) :=
  answering_deterministic _

/-! ## Messages in fragments -/

/-- A message that is to be sent, with its fragments after the first. -/
structure Outgoing where
  kind : Kind
  first : Bytes
  rest : List (Kind × Bytes)
  deriving DecidableEq, Repr

/-- The calls for some fragments: all but the last pass `fin` as false. -/
def fragmentCalls (kind : Kind) (data : Bytes) : List (Kind × Bytes) → List FrameCall
  | [] => [⟨kind, true, data⟩]
  | next :: rest => ⟨kind, false, data⟩ :: fragmentCalls next.1 next.2 rest

namespace Outgoing

def calls (m : Outgoing) : List FrameCall := fragmentCalls m.kind m.first m.rest

/-- The frames that the fragments of a message have to be sent in. -/
def frames (m : Outgoing) : List WireFrame :=
  Framing.frames (some m.kind.opcode) m.first (m.rest.map (·.2))

/-- Which of them are continuations. -/
def continues (m : Outgoing) : List Bool := false :: m.rest.map fun _ => true

/-- What a receiver is to make of it. -/
def message (m : Outgoing) : Message Opcode UInt8 := ⟨m.kind.opcode, (m.first :: m.rest.map (·.2)).flatten⟩

end Outgoing

/-- The frames on the wire carry FIN as their calls say, all after the first of a message are
continuations, and a receiver puts the messages together. -/
structure Fragmented (messages : List Outgoing) (wire : List WireFrame) : Prop where
  fins : wire.map (·.fin) = (messages.flatMap Outgoing.calls).map (·.fin)
  continuations : wire.map (·.kind.isNone) = messages.flatMap Outgoing.continues
  reassembled : receive none wire = some (messages.map Outgoing.message, none)

/-! ## Fragments as they have to be sent -/

theorem fragmentCalls_fins (kind : Kind) (data : Bytes) (rest : List (Kind × Bytes)) (k : Option Opcode) :
    (Framing.frames k data (rest.map (·.2))).map (·.fin) = (fragmentCalls kind data rest).map (·.fin) := by
  induction rest generalizing kind data k with
  | nil => rfl
  | cons next rest ih => exact congrArg (false :: ·) (ih next.1 next.2 none)

theorem frames_continue (data : Bytes) (rest : List Bytes) (k : Option Opcode) :
    (Framing.frames k data rest).map (·.kind.isNone) = k.isNone :: rest.map fun _ => true := by
  induction rest generalizing data k with
  | nil => rfl
  | cons next rest ih => exact congrArg (k.isNone :: ·) (ih next none)

/-- Frames that follow the fragments are received as they should be. -/
theorem fragmented_frames (messages : List Outgoing) :
    Fragmented messages (messages.flatMap Outgoing.frames) := by
  constructor
  · rw [List.map_flatMap, List.map_flatMap]
    refine congrArg (List.flatMap · messages) (funext fun m => ?_)
    exact fragmentCalls_fins m.kind m.first m.rest _
  · rw [List.map_flatMap]
    refine congrArg (List.flatMap · messages) (funext fun m => ?_)
    rw [Outgoing.frames, frames_continue, List.map_map]
    rfl
  · induction messages with
    | nil => rfl
    | cons m messages ih =>
      rw [List.flatMap_cons, Outgoing.frames, receive_frames, ih]
      rfl

/-! ## What is sent -/

section

variable {self : WebsocketClient} {client : Nat}

theorem is_connected_run (hclient : self.m_client = some client) (wire : List WireFrame) :
    Exec (connected client) self.is_connected wire (.returned true) wire := by
  have hself : connected client wire (.esp_websocket_client_is_connected client) true wire :=
    congrArg some (Prod.ext (decide_eq_true rfl) rfl)
  rw [WebsocketClient.is_connected, hclient]
  exact Exec.call hself (Exec.call (r := true) rfl .ret)

/-- Whatever `fin` is, a frame is sent with its FIN bit set. -/
theorem send_frame_run (hclient : self.m_client = some client) (fin : Bool) (opcode : Opcode) (data : Bytes)
    (wire : List WireFrame) :
    Exec (connected client) (self.send_frame fin opcode data) wire (.returned true)
      (wire ++ [wireFrame opcode data]) := by
  refine (is_connected_run hclient wire).bind ?_
  rw [hclient]
  exact Exec.call (r := Int32.ofNat data.length) (if_pos rfl) ⟨congrArg _ (decide_eq_true rfl).symm, rfl⟩

/-- The frame of a call. -/
def FrameCall.frame (c : FrameCall) : WireFrame := ⟨true, some c.kind.opcode, c.data⟩

theorem frameCall_run (hclient : self.m_client = some client) (c : FrameCall) (wire : List WireFrame) :
    Exec (connected client) (c.run self) wire (.returned true) (wire ++ [c.frame]) := by
  obtain ⟨kind, fin, data⟩ := c
  cases kind with
  | text => exact send_frame_run hclient fin .text data wire
  | binary => exact send_frame_run hclient fin .binary data wire

/-- Calls that put one frame each on the wire. -/
theorem sendAll_run {γ : Type} {run : γ → Code Bool} {frame : γ → WireFrame}
    (hrun : ∀ c wire, Exec (connected client) (run c) wire (.returned true) (wire ++ [frame c]))
    (calls : List γ) (wire : List WireFrame) :
    Exec (connected client) (sendAll run calls) wire (.returned ()) (wire ++ calls.map frame) := by
  induction calls generalizing wire with
  | nil =>
    rw [List.map_nil, List.append_nil]
    exact .ret
  | cons c calls ih =>
    rw [List.map_cons, List.append_cons]
    exact (hrun c wire).bind (ih _)

theorem sendFrames_run (hclient : self.m_client = some client) (calls : List FrameCall)
    (wire : List WireFrame) :
    Exec (connected client) (sendFrames self calls) wire (.returned ()) (wire ++ calls.map FrameCall.frame) :=
  sendAll_run (frameCall_run hclient) calls wire

/-! ## Whole messages -/

theorem sendMessage_run (hclient : self.m_client = some client) (kind : Kind) (data : Bytes)
    (wire : List WireFrame) :
    Exec (connected client) (sendMessage self (kind, data)) wire (.returned true)
      (wire ++ [⟨true, some kind.opcode, data⟩]) := by
  have hsent : ∀ wire' : List WireFrame,
      Exec (connected client) (.ret (decide (Int32.ofNat data.length = Int32.ofNat data.length))) wire'
        (.returned true) wire' :=
    fun wire' => ⟨congrArg _ (decide_eq_true rfl).symm, rfl⟩
  cases kind with
  | text =>
    refine (is_connected_run hclient wire).bind ?_
    rw [hclient]
    exact Exec.call (r := Int32.ofNat data.length) (if_pos rfl) (hsent _)
  | binary =>
    refine (is_connected_run hclient wire).bind ?_
    rw [hclient]
    exact Exec.call (r := Int32.ofNat data.length) (if_pos rfl) (hsent _)

/-- Whole messages are received as they are sent. -/
theorem sendMessages_received (hclient : self.m_client = some client) (messages : List (Kind × Bytes)) :
    Returns (connected client) (sendMessages self messages)
      (fun _ wire => receive none wire = some (messages.map fun m => ⟨m.1.opcode, m.2⟩, none)) [] := by
  have hrun := sendAll_run (fun m wire => sendMessage_run hclient m.1 m.2 wire) messages []
  refine ((connected_deterministic client).returns_iff hrun).mpr ?_
  have hreceived := receive_whole (messages.map fun m => (⟨m.1.opcode, m.2⟩ : Message Opcode UInt8))
  rw [List.map_map] at hreceived
  exact hreceived

/-! ## Fragments -/

/-- The frames of all calls are those that the fragments have to be sent in just where each message has
one fragment. -/
theorem fragmented_iff (messages : List Outgoing) :
    Fragmented messages ((messages.flatMap Outgoing.calls).map FrameCall.frame) ↔
      ∀ m ∈ messages, m.rest = [] := by
  constructor
  · intro h m hm
    -- FIN is set in every frame, so that every call has passed it.
    have hfins : ∀ c ∈ messages.flatMap Outgoing.calls, c.fin = true := by
      have hmap := h.fins
      rw [List.map_map, List.map_inj_left] at hmap
      exact fun c hc => (hmap c hc).symm
    cases hrest : m.rest with
    | nil => rfl
    | cons next rest =>
      have hfirst : (⟨m.kind, false, m.first⟩ : FrameCall) ∈ m.calls := by
        rw [Outgoing.calls, hrest]
        exact List.mem_cons_self
      cases hfins _ (List.mem_flatMap.mpr ⟨m, hm, hfirst⟩)
  · intro h
    have hframes : (messages.flatMap Outgoing.calls).map FrameCall.frame =
        messages.flatMap Outgoing.frames := by
      rw [List.map_flatMap]
      refine List.flatMap_congr fun m hm => ?_
      rw [Outgoing.calls, Outgoing.frames, h m hm]
      rfl
    rw [hframes]
    exact fragmented_frames messages

/-- On a connected client, fragments are sent as their calls say and received as the messages they are
meant to be if and only if every message has one fragment. -/
theorem sendFrames_fragmented_iff (client : Nat) (self : WebsocketClient)
    (hclient : self.m_client = some client) (messages : List Outgoing) :
    Returns (connected client) (sendFrames self (messages.flatMap Outgoing.calls))
        (fun _ wire => Fragmented messages wire) [] ↔ ∀ m ∈ messages, m.rest = [] := by
  have hrun := sendFrames_run hclient (messages.flatMap Outgoing.calls) []
  rw [(connected_deterministic _).returns_iff hrun, List.nil_append]
  exact fragmented_iff messages

end

/-- A client that has been connected. -/
def connectedClient : WebsocketClient := { WebsocketClient.constructed with m_client := some 1 }

/-- Messages of one fragment each. -/
def wholeMessages : List Outgoing := [⟨.text, [104, 105], []⟩, ⟨.binary, [0, 255], []⟩, ⟨.text, [], []⟩]

/-- The same around one of three fragments. -/
def mixedMessages : List Outgoing :=
  wholeMessages ++ ⟨.binary, [1], [(.binary, [2]), (.binary, [])]⟩ :: wholeMessages

theorem sendFrames_fragmented_iff_mixed :
    Returns (connected 1) (sendFrames connectedClient (wholeMessages.flatMap Outgoing.calls))
        (fun _ wire => Fragmented wholeMessages wire) [] ∧
      ¬Returns (connected 1) (sendFrames connectedClient (mixedMessages.flatMap Outgoing.calls))
        (fun _ wire => Fragmented mixedMessages wire) [] := by
  rw [sendFrames_fragmented_iff 1 connectedClient rfl wholeMessages,
    sendFrames_fragmented_iff 1 connectedClient rfl mixedMessages]
  decide

/-- Two fragments of one message are received as two messages. -/
theorem not_fragmented : ¬∀ (client : Nat) (self : WebsocketClient) (messages : List Outgoing),
    self.m_client = some client →
    Returns (connected client) (sendFrames self (messages.flatMap Outgoing.calls))
      (fun _ wire => Fragmented messages wire) [] := by
  intro h
  have hreturns := h 1 connectedClient [⟨.text, [104], [(.text, [105])]⟩] rfl
  have hclient : connectedClient.m_client = some 1 := rfl
  have hrun := sendFrames_run hclient
    ([⟨.text, [104], [(.text, [105])]⟩].flatMap Outgoing.calls) []
  have hfragmented := ((connected_deterministic _).returns_iff hrun).mp hreturns
  cases hfragmented.reassembled

end WebSocket
