import BaseUtilities.Effects.Interrupts
import BaseUtilities.Effects.Session
import BaseUtilities.WebSocket.Client
import Mathlib.Data.List.Chain

/-!
# Whether the callbacks pair up

A client whose owner calls `connect` and `disconnect` while the task of the library handles the events of
the connection, also in the middle of a call.  `on_connected` and `on_disconnected` alternate exactly
where every connection has been ended by a `DISCONNECTED` event of its own before the next one.
-/

open Effects Mem Relation

namespace WebSocket

/-! ## What has happened -/

inductive Callback where
  | on_connected
  | on_disconnected
  deriving DecidableEq, Repr

/-- The calls alternate, and begin with `on_connected`. -/
def Alternates (log : List Callback) : Prop :=
  log.head? ≠ some .on_disconnected ∧ log.IsChain (· ≠ ·)

/-- The call that is next. -/
def expected (log : List Callback) : Callback :=
  if log.getLast? = some .on_connected then .on_disconnected else .on_connected

theorem alternates_nil : Alternates [] := ⟨by simp, .nil⟩

theorem alternates_snoc (log : List Callback) (c : Callback) :
    Alternates (log ++ [c]) ↔ Alternates log ∧ c = expected log := by
  by_cases hnil : log = []
  · subst hnil
    cases c with
    | on_connected => simp [Alternates, expected]
    | on_disconnected => simp [Alternates, expected]
  · unfold Alternates expected
    obtain ⟨b, hlast⟩ : ∃ b, log.getLast? = some b := ⟨_, List.getLast?_eq_some_getLast hnil⟩
    have hnext : b ≠ c ↔ c = if b = .on_connected then .on_disconnected else .on_connected := by
      cases b with
      | on_connected => cases c <;> simp
      | on_disconnected => cases c <;> simp
    rw [List.head?_append_of_ne_nil log hnil, List.isChain_append, hlast]
    simp only [List.isChain_singleton, true_and, Option.mem_some_iff, List.head?_cons, Option.some.injEq,
      forall_eq', hnext, and_assoc]

/-- The events of a connection, and the end of a client by `esp_websocket_client_destroy`. -/
inductive Happening where
  | connected
  | disconnected
  | closed
  | destroyed
  deriving DecidableEq, Repr

/-- What has become of the last connection. -/
inductive Phase where
  /-- There is none, or `DISCONNECTED` has ended it. -/
  | ended
  | up
  /-- Its client was destroyed before that. -/
  | dropped
  deriving DecidableEq, Repr

def Phase.after : Phase → Happening → Phase
  | _, .connected => .up
  | .up, .disconnected => .ended
  | .up, .destroyed => .dropped
  | phase, _ => phase

def phase (history : List Happening) : Phase := history.foldl Phase.after .ended

/-- Every `CONNECTED` event finds the connection before it ended by a `DISCONNECTED` event. -/
def Paired (history : List Happening) : Prop :=
  ∀ before behind, history = before ++ .connected :: behind → phase before = .ended

theorem phase_snoc (history : List Happening) (h : Happening) :
    phase (history ++ [h]) = (phase history).after h := by
  rw [phase, phase, List.foldl_append]
  rfl

theorem paired_snoc (history : List Happening) (h : Happening) :
    Paired (history ++ [h]) ↔ Paired history ∧ (h = .connected → phase history = .ended) := by
  constructor
  · intro hpaired
    constructor
    · intro before behind heq
      exact hpaired before (behind ++ [h]) (by rw [heq, List.append_assoc, List.cons_append])
    · intro hconnected
      exact hpaired history [] (by rw [hconnected])
  · intro ⟨hpaired, hlast⟩ before behind heq
    rcases List.eq_nil_or_concat behind with rfl | ⟨init, b, rfl⟩
    · obtain ⟨rfl, hh⟩ := List.append_inj' heq rfl
      exact hlast (List.cons.inj hh).1
    · rw [List.concat_eq_append, ← List.cons_append, ← List.append_assoc] at heq
      obtain ⟨rfl, -⟩ := List.append_inj' heq rfl
      exact hpaired before init rfl

/-! ## The library -/

/-- `m_connected`, the client that there is and whether its task runs, what has happened to clients, and
the callbacks that have been called. -/
structure World where
  m_connected : Bool
  client : Option Nat
  running : Bool
  history : List Happening
  log : List Callback
  deriving DecidableEq

namespace World

def fresh : World := ⟨false, none, false, [], []⟩

def Allows (w : World) : Event Op Op.Res → Prop
  | ⟨.m_connected, b⟩ => b = w.m_connected
  | _ => True

instance (w : World) (e : Event Op Op.Res) : Decidable (w.Allows e) := by
  obtain ⟨op, r⟩ := e
  unfold Allows
  split <;> infer_instance

def after (w : World) : Event Op Op.Res → World
  | ⟨.setM_connected b, _⟩ => { w with m_connected := b }
  | ⟨.esp_websocket_client_init _, some client⟩ => { w with client := some client, running := false }
  | ⟨.esp_websocket_client_start client, true⟩ =>
    if w.client = some client then { w with running := true } else w
  | ⟨.esp_websocket_client_stop client, _⟩ =>
    if w.client = some client then { w with running := false } else w
  | ⟨.esp_websocket_client_destroy client, _⟩ =>
    if w.client = some client then
      { w with client := none, running := false, history := w.history ++ [.destroyed] }
    else w
  | ⟨.on_connected, _⟩ => { w with log := w.log ++ [.on_connected] }
  | ⟨.on_disconnected, _⟩ => { w with log := w.log ++ [.on_disconnected] }
  | _ => w

/-- The world of an event that is handled now. -/
def met (w : World) : WebsocketEvent → World
  | .connected => { w with history := w.history ++ [.connected] }
  | .disconnected => { w with history := w.history ++ [.disconnected] }
  | .closed => { w with history := w.history ++ [.closed] }
  | _ => w

end World

/-- The calls of one task. -/
def calls : Env Op Op.Res World := watching World.Allows World.after

/-- The task of the library handles an event.  Between two `CONNECTED` events of a client there is a
`DISCONNECTED` or a `CLOSED` one. -/
inductive Handles (w w' : World) : Prop where
  | handle (event : WebsocketEvent) (hrunning : w.running = true)
    (hlegal : event = .connected → w.history.getLast? ≠ some .connected)
    (h : Exec calls (WebsocketClient.websocket_event_handler event) (w.met event) (.returned ()) w')

/-- The calls of the owner, with events in between. -/
def library : Env Op Op.Res World := interrupted Handles calls

/-! ## Courses -/

/-- An object and its library between two calls of the owner. -/
structure Course where
  self : WebsocketClient
  w : World

inductive Act where
  | connect (url : Bytes) (auto_reconnect : Bool) (reconnect_delay_ms : UInt32) (subprotocol : Option Bytes)
  | disconnect
  | event
  deriving DecidableEq, Repr

inductive Course.Step (s : Course) : Act → Course → Prop where
  | connect {url auto_reconnect reconnect_delay_ms subprotocol b self' w'}
    (h : Exec library (s.self.connect url auto_reconnect reconnect_delay_ms subprotocol) s.w
      (.returned (b, self')) w') :
    Step s (.connect url auto_reconnect reconnect_delay_ms subprotocol) ⟨self', w'⟩
  | disconnect {self' w'} (h : Exec library s.self.disconnect s.w (.returned self') w') :
    Step s .disconnect ⟨self', w'⟩
  | event {w'} (h : Handles s.w w') : Step s .event ⟨s.self, w'⟩

/-! ## What is kept -/

/-- `m_connected` says that the last connection is up, and the callbacks follow the events. -/
structure Tracks (w : World) : Prop where
  flag : w.m_connected = true ↔ phase w.history = .up
  pairs : Alternates w.log ↔ Paired w.history
  next : Paired w.history → (expected w.log = .on_connected ↔ phase w.history = .ended)

theorem expected_snoc_connected (log : List Callback) :
    expected (log ++ [.on_connected]) = .on_disconnected := by
  simp [expected]

theorem expected_snoc_disconnected (log : List Callback) :
    expected (log ++ [.on_disconnected]) = .on_connected := by
  simp [expected]

/-- What the handler leaves. -/
def World.handled (w : World) : WebsocketEvent → World
  | .connected => { w with m_connected := true, log := w.log ++ [.on_connected] }
  | .disconnected =>
    { w with
      m_connected := false
      log := if w.m_connected = true then w.log ++ [.on_disconnected] else w.log }
  | _ => w

theorem handler_spec (event : WebsocketEvent) (w : World) :
    wp calls (fun _ _ => True) (WebsocketClient.websocket_event_handler event)
      (fun _ w' => w' = w.handled event) w := by
  -- The library does not call the handler while it runs, so nothing comes in between.
  have hask : ∀ {op : Op} {f : Op.Res op → Code Unit} {Q : Unit → World → Prop} {w : World},
      (∀ r, w.Allows ⟨op, r⟩ → wp calls (fun _ _ => True) (f r) Q (w.after ⟨op, r⟩)) →
        wp calls (fun _ _ => True) (Prog.perform op >>= f) Q w := by
    intro op f Q w h
    exact wp_ask trivial fun r _ hr => hr.2 ▸ h r hr.1
  unfold WebsocketClient.websocket_event_handler
  cases event with
  | connected =>
    refine hask fun _ _ => wp_perform.mpr ⟨trivial, fun _ _ h => ?_⟩
    exact h.2
  | disconnected =>
    refine hask fun b hb => hask fun _ _ => ?_
    obtain rfl : b = w.m_connected := hb
    -- The callback is told only about connections that were up; the flag is cleared either way.
    by_cases hup : w.m_connected = true
    · rw [if_pos hup]
      refine wp_perform.mpr ⟨trivial, fun _ _ h => h.2.trans ?_⟩
      simp [World.handled, hup, World.after]
    · rw [if_neg hup]
      refine wp_ret.mpr ?_
      simp [World.handled, hup, World.after]
  | data op_code data =>
    dsimp only
    split
    · exact wp_perform.mpr ⟨trivial, fun _ _ h => h.2⟩
    · exact wp_ret.mpr rfl
  | error error_handle => exact wp_perform.mpr ⟨trivial, fun _ _ h => h.2⟩
  | closed => exact wp_ret.mpr rfl
  | other event_id => exact wp_ret.mpr rfl

/-- Something happens that changes nothing of the last connection. -/
theorem Tracks.quiet {w : World} (htracks : Tracks w) {h : Happening} (hne : h ≠ .connected)
    (hsame : (phase w.history).after h = phase w.history) :
    Tracks { w with history := w.history ++ [h] } := by
  obtain ⟨hflag, hpairs, hnext⟩ := htracks
  have hpaired : Paired (w.history ++ [h]) ↔ Paired w.history := by
    rw [paired_snoc]
    exact and_iff_left fun hconnected => absurd hconnected hne
  constructor
  · rw [phase_snoc, hsame]
    exact hflag
  · rw [hpaired]
    exact hpairs
  · rw [phase_snoc, hsame, hpaired]
    exact hnext

/-- The last connection is over, and is not reported. -/
theorem Tracks.dropped {w : World} (htracks : Tracks w) :
    Tracks { w with m_connected := false, history := w.history ++ [.destroyed] } := by
  obtain ⟨hflag, hpairs, hnext⟩ := htracks
  have hpaired : Paired (w.history ++ [.destroyed]) ↔ Paired w.history := by
    rw [paired_snoc]
    exact and_iff_left Happening.noConfusion
  have hended : (phase w.history).after .destroyed = .ended ↔ phase w.history = .ended := by
    cases phase w.history <;> simp [Phase.after]
  have hdown : (phase w.history).after .destroyed ≠ .up := by
    cases phase w.history <;> simp [Phase.after]
  constructor
  · rw [phase_snoc]
    exact ⟨Bool.noConfusion, fun h => absurd h hdown⟩
  · rw [hpaired]
    exact hpairs
  · rw [phase_snoc, hended, hpaired]
    exact hnext

/-- The last connection is over, and is reported. -/
theorem Tracks.reported {w : World} (htracks : Tracks w) (hup : w.m_connected = true) :
    Tracks { w with
      m_connected := false, history := w.history ++ [.disconnected],
      log := w.log ++ [.on_disconnected] } := by
  obtain ⟨hflag, hpairs, hnext⟩ := htracks
  have hphase := hflag.mp hup
  have hpaired : Paired (w.history ++ [.disconnected]) ↔ Paired w.history := by
    rw [paired_snoc]
    exact and_iff_left Happening.noConfusion
  constructor
  · rw [phase_snoc, hphase]
    simp [Phase.after]
  · rw [alternates_snoc, hpaired, hpairs]
    refine and_iff_left_of_imp fun h => ?_
    have hne : expected w.log ≠ .on_connected := by
      rw [Ne, hnext h, hphase]
      exact Phase.noConfusion
    cases heq : expected w.log with
    | on_connected => exact absurd heq hne
    | on_disconnected => rfl
  · rw [expected_snoc_disconnected, phase_snoc, hphase]
    simp [Phase.after]

/-- A connection is up, and is reported. -/
theorem Tracks.connected {w : World} (htracks : Tracks w) :
    Tracks { w with
      m_connected := true, history := w.history ++ [.connected], log := w.log ++ [.on_connected] } := by
  obtain ⟨hflag, hpairs, hnext⟩ := htracks
  constructor
  · simp [phase_snoc, Phase.after]
  · dsimp only
    rw [alternates_snoc, paired_snoc, hpairs]
    constructor
    · intro ⟨hpaired, heq⟩
      exact ⟨hpaired, fun _ => (hnext hpaired).mp heq.symm⟩
    · intro ⟨hpaired, hended⟩
      exact ⟨hpaired, ((hnext hpaired).mpr (hended rfl)).symm⟩
  · dsimp only
    rw [expected_snoc_connected, phase_snoc]
    simp [Phase.after]

/-- An event changes neither the client nor whether its task runs. -/
theorem Handles.tracks {w w' : World} (h : Handles w w') (htracks : Tracks w) :
    Tracks w' ∧ w'.client = w.client ∧ w'.running = w.running := by
  obtain ⟨event, -, -, hexec⟩ := h
  have hend := (handler_spec event _).returned hexec
  subst hend
  cases event with
  | connected => exact ⟨htracks.connected, rfl, rfl⟩
  | disconnected =>
    refine ⟨?_, rfl, rfl⟩
    by_cases hup : w.m_connected = true
    · have hreported := htracks.reported hup
      simpa [World.handled, World.met, hup] using hreported
    · have hne : phase w.history ≠ .up := fun h => hup (htracks.flag.mpr h)
      have hquiet := htracks.quiet (h := .disconnected) Happening.noConfusion (by
        cases hphase : phase w.history with
        | up => exact absurd hphase hne
        | ended => rfl
        | dropped => rfl)
      simpa [World.handled, World.met, hup] using hquiet
  | closed =>
    refine ⟨htracks.quiet Happening.noConfusion ?_, rfl, rfl⟩
    cases phase w.history <;> rfl
  | data op_code data => exact ⟨htracks, rfl, rfl⟩
  | error error_handle => exact ⟨htracks, rfl, rfl⟩
  | other event_id => exact ⟨htracks, rfl, rfl⟩

/-! ## What the calls do -/

/-- Between two calls: the owner knows its client, and without one nothing runs or is connected. -/
structure Kept (owner : WebsocketClient) (w : World) : Prop where
  tracks : Tracks w
  client : w.client = owner.m_client
  idle : w.client = none → w.running = false ∧ w.m_connected = false

section

variable {β : Type} {op : Op} {f : Op.Res op → Code β} {Q : β → World → Prop} {w : World}

/-- A call while events are handled. -/
theorem wp_library (htracks : Tracks w)
    (h : ∀ r w₁, Tracks w₁ → w₁.client = w.client → w₁.Allows ⟨op, r⟩ →
      wp library (fun _ _ => True) (f r) Q (w₁.after ⟨op, r⟩)) :
    wp library (fun _ _ => True) (Prog.perform op >>= f) Q w := by
  have hkept : ∀ w₁ w₂, Tracks w₁ ∧ w₁.client = w.client → Handles w₁ w₂ →
      Tracks w₂ ∧ w₂.client = w.client := by
    intro w₁ w₂ hw hhandles
    obtain ⟨htracks', hclient, -⟩ := hhandles.tracks hw.1
    exact ⟨htracks', hclient.trans hw.2⟩
  refine wp_interrupted hkept trivial ⟨htracks, rfl⟩ fun w₁ r w₂ hw hr => ?_
  obtain ⟨hallows, rfl⟩ := hr
  exact h r w₁ hw.1 hw.2 hallows

/-- A call while the task of the library does not run. -/
theorem wp_stopped (hstopped : w.running = false)
    (h : ∀ r, w.Allows ⟨op, r⟩ → wp library (fun _ _ => True) (f r) Q (w.after ⟨op, r⟩)) :
    wp library (fun _ _ => True) (Prog.perform op >>= f) Q w := by
  have hsame : ∀ w₁ w₂, w₁ = w → Handles w₁ w₂ → w₂ = w := by
    rintro _ w₂ rfl ⟨event, hrunning, -, -⟩
    rw [hstopped] at hrunning
    cases hrunning
  refine wp_interrupted hsame trivial rfl fun w₁ r w₂ hw hr => ?_
  obtain ⟨hallows, rfl⟩ := hr
  rw [hw] at hallows ⊢
  exact h r hallows

end

namespace WebsocketClient

variable {self : WebsocketClient} {w : World}

theorem disconnect_spec (h : Kept self w) :
    wp library (fun _ _ => True) self.disconnect
      (fun self' w' => Kept self' w' ∧ self'.m_client = none) w := by
  unfold disconnect
  split
  · next hnone => exact wp_ret.mpr ⟨h, hnone⟩
  · next client hclient =>
    refine wp_library h.tracks fun _ w₁ htracks hsame _ => ?_
    have hclient₁ : w₁.client = some client := hsame.trans (h.client.trans hclient)
    have hafter : w₁.after ⟨.esp_websocket_client_stop client, ()⟩ = { w₁ with running := false } :=
      if_pos hclient₁
    rw [hafter]
    refine wp_stopped rfl fun _ _ => ?_
    have hdestroyed : World.after { w₁ with running := false } ⟨.esp_websocket_client_destroy client, ()⟩ =
        { w₁ with client := none, running := false, history := w₁.history ++ [.destroyed] } :=
      if_pos hclient₁
    rw [hdestroyed]
    refine wp_stopped rfl fun _ _ => wp_ret.mpr ⟨⟨?_, rfl, fun _ => ⟨rfl, rfl⟩⟩, rfl⟩
    have hdropped := htracks.dropped
    exact ⟨hdropped.flag, hdropped.pairs, hdropped.next⟩

theorem open_spec {url : Bytes} {auto_reconnect : Bool} {reconnect_delay_ms : UInt32}
    {subprotocol : Option Bytes} (h : Kept self w) (hnone : self.m_client = none) :
    wp library (fun _ _ => True) (self.open_ url auto_reconnect reconnect_delay_ms subprotocol)
      (fun r w' => Kept r.2 w') w := by
  -- Without a client nothing is running, so no event comes before the client has been started.
  obtain ⟨hrunning, hconnected⟩ := h.idle (h.client.trans hnone)
  unfold open_
  refine wp_stopped hrunning fun m_client _ => ?_
  cases m_client with
  | none => exact wp_ret.mpr ⟨h.tracks, h.client.trans hnone, h.idle⟩
  | some client =>
    refine wp_stopped rfl fun _ _ => wp_stopped rfl fun started _ => ?_
    -- A client that could not be started is destroyed again.
    cases started with
    | true =>
      have hafter : World.after { w with client := some client, running := false }
          ⟨.esp_websocket_client_start client, true⟩ = { w with client := some client, running := true } :=
        if_pos rfl
      refine wp_ret.mpr ?_
      dsimp only [World.after] at hafter ⊢
      rw [hafter]
      exact ⟨⟨h.tracks.flag, h.tracks.pairs, h.tracks.next⟩, rfl, nofun⟩
    | false =>
      refine wp_stopped rfl fun _ _ => wp_ret.mpr ?_
      have hafter : World.after { w with client := some client, running := false }
          ⟨.esp_websocket_client_destroy client, ()⟩ =
          { w with client := none, running := false, history := w.history ++ [.destroyed] } := if_pos rfl
      dsimp only [World.after] at hafter ⊢
      rw [hafter]
      have hdropped := h.tracks.dropped
      rw [← hconnected] at hdropped
      exact ⟨⟨hdropped.flag, hdropped.pairs, hdropped.next⟩, rfl, fun _ => ⟨rfl, hconnected⟩⟩

theorem connect_spec {url : Bytes} {auto_reconnect : Bool} {reconnect_delay_ms : UInt32}
    {subprotocol : Option Bytes} (h : Kept self w) :
    wp library (fun _ _ => True) (self.connect url auto_reconnect reconnect_delay_ms subprotocol)
      (fun r w' => Kept r.2 w') w :=
  (disconnect_spec h).bind fun _ _ h => open_spec h.1 h.2

end WebsocketClient

theorem Kept.step {s s' : Course} {act : Act} (h : Kept s.self s.w) (hstep : s.Step act s') :
    Kept s'.self s'.w := by
  cases hstep with
  | connect hexec => exact (WebsocketClient.connect_spec h).returned hexec
  | disconnect hexec => exact ((WebsocketClient.disconnect_spec h).returned hexec).1
  | event hhandles =>
    obtain ⟨htracks, hclient, hrunning⟩ := hhandles.tracks h.tracks
    obtain ⟨event, hruns, -, -⟩ := hhandles
    refine ⟨htracks, hclient.trans h.client, fun hnone => ?_⟩
    rw [(h.idle (hclient.symm.trans hnone)).1] at hruns
    cases hruns

/-! ## Courses that are known -/

theorem library_exec {α : Type} {p : Code α} {a : α} {w : World} (tape : Trace Op Op.Res)
    (h : p.replay 0 tape = some (.returned a, [])) (hallowed : Allowed World.Allows World.after w tape) :
    Exec library p w (.returned a) (tape.foldl World.after w) :=
  Prog.replay_exec h (path_watching hallowed).interrupted

theorem handler_exec (event : WebsocketEvent) {w : World} (tape : Trace Op Op.Res)
    (hrunning : w.running = true) (hlegal : event = .connected → w.history.getLast? ≠ some .connected)
    (h : (WebsocketClient.websocket_event_handler event).replay 0 tape = some (.returned (), []))
    (hallowed : Allowed World.Allows World.after (w.met event) tape) :
    Handles w (tape.foldl World.after (w.met event)) :=
  ⟨event, hrunning, hlegal, Prog.replay_exec h (path_watching hallowed)⟩

/-- A new client connects to the address. -/
def openTape (self : WebsocketClient) (url : Bytes) : Trace Op Op.Res :=
  [⟨.esp_websocket_client_init ({ self with m_reconnect_delay_ms := 5000 }.config url (some [])), some 1⟩,
    ⟨.esp_websocket_register_events 1, ()⟩, ⟨.esp_websocket_client_start 1, true⟩]

def closeTape : Trace Op Op.Res :=
  [⟨.esp_websocket_client_stop 1, ()⟩, ⟨.esp_websocket_client_destroy 1, ()⟩, ⟨.setM_connected false, ()⟩]

def connectedTape : Trace Op Op.Res := [⟨.setM_connected true, ()⟩, ⟨.on_connected, ()⟩]

def disconnectedTape : Trace Op Op.Res :=
  [⟨.m_connected, true⟩, ⟨.setM_connected false, ()⟩, ⟨.on_disconnected, ()⟩]

/-! ## The pairing -/

/-- The callbacks alternate exactly where every `CONNECTED` event finds the connection before it ended by
a `DISCONNECTED` event of its own client. -/
theorem alternates_iff (self : WebsocketClient) (hself : self.m_client = none) (s : Course)
    (h : Leads Course.Step (fun _ _ => True) ⟨self, .fresh⟩ s) :
    Alternates s.w.log ↔ Paired s.w.history := by
  have hstart : Kept self .fresh := by
    refine ⟨⟨?_, ?_, ?_⟩, hself.symm, fun _ => ⟨rfl, rfl⟩⟩
    · simp [World.fresh, phase]
    · refine iff_of_true alternates_nil fun before behind heq => ?_
      cases before <;> cases heq
    · exact fun _ => iff_of_true rfl rfl
  have hkept := h.invariant (fun s => Kept s.self s.w) hstart fun _ _ _ h _ => h.step
  exact hkept.tracks.pairs

/-- A connection that the library makes again after it has reported the end of the first. -/
theorem alternates_iff_reconnected :
    ∃ s, Leads Course.Step (fun _ _ => True) ⟨.constructed, .fresh⟩ s ∧
      s.w.log = [.on_connected, .on_disconnected, .on_connected] ∧
      (Alternates s.w.log ↔ Paired s.w.history) := by
  have hstart : Leads Course.Step (fun _ _ => True) ⟨.constructed, .fresh⟩ ⟨.constructed, .fresh⟩ := .start
  have hopen := hstart.step (l := Act.connect (ascii "ws://a") false 5000 (some [])) trivial
    (.connect (library_exec (openTape .constructed (ascii "ws://a")) rfl (by decide)))
  have hconnected := hopen.step trivial
    (.event (handler_exec .connected connectedTape rfl (by decide) rfl (by decide)))
  have hdisconnected := hconnected.step trivial
    (.event (handler_exec .disconnected disconnectedTape rfl (by decide) rfl (by decide)))
  have hagain := hdisconnected.step trivial
    (.event (handler_exec .connected connectedTape rfl (by decide) rfl (by decide)))
  exact ⟨_, hagain, by decide, alternates_iff .constructed rfl _ hagain⟩

/-- A client that is connected, is closed by its owner and is opened again: `on_connected` is called
twice in a row. -/
theorem not_alternates : ¬∀ (self : WebsocketClient), self.m_client = none → ∀ s,
    Leads Course.Step (fun _ _ => True) ⟨self, .fresh⟩ s → Alternates s.w.log := by
  intro h
  have hstart : Leads Course.Step (fun _ _ => True) ⟨.constructed, .fresh⟩ ⟨.constructed, .fresh⟩ := .start
  have hopen := hstart.step (l := Act.connect (ascii "ws://a") false 5000 (some [])) trivial
    (.connect (library_exec (openTape .constructed (ascii "ws://a")) rfl (by decide)))
  have hconnected := hopen.step trivial
    (.event (handler_exec .connected connectedTape rfl (by decide) rfl (by decide)))
  have hclosed := hconnected.step trivial (.disconnect (library_exec closeTape rfl (by decide)))
  have hreopen := hclosed.step (l := Act.connect (ascii "ws://a") false 5000 (some [])) trivial
    (.connect (library_exec (openTape .constructed (ascii "ws://a")) rfl (by decide)))
  have hagain := hreopen.step trivial
    (.event (handler_exec .connected connectedTape rfl (by decide) rfl (by decide)))
  have halternates := (h .constructed rfl _ hagain).2
  exact absurd halternates (by decide)

end WebSocket
