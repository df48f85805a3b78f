import BaseUtilities.WiFi.Interfaces
import BaseUtilities.Effects.Session

/-!
# When a station connects again

A station whose owner calls `connect`, `disconnect` and `stop` while the event task hands the driver's
events to `event_handler`.  The driver posts `STA_DISCONNECTED` for a `disconnect` that finds a
connection, or an attempt at one, and for a connection that it loses.
-/

open Effects Mem

namespace WiFi

/-! ## A station and its driver -/

/-- What the driver has of a connection. -/
inductive Link where
  | idle
  | associating
  | associated
  deriving DecidableEq, Repr

/-- An event that the driver has posted; of a `STA_DISCONNECTED` also whether a `disconnect` has caused
it, which the handler is not told. -/
inductive Posted where
  | start
  | connected
  | gotIp
  | disconnected (caused : Bool)
  deriving DecidableEq, Repr

/-- What the handler is told. -/
def Posted.event : Posted → WifiSta.StaEvent
  | .start => .start
  | .connected => .connected
  | .gotIp => .gotIp
  | .disconnected _ => .disconnected

/-- The flags of a station, and its driver: what `esp_wifi_get_mode` and `esp_wifi_start` answer, the
events that are not handled yet, and how often `esp_wifi_connect` has been called. -/
structure Station where
  connected_ : Bool
  disconnecting_ : Bool
  attempts_ : UInt32
  mode : Err × Mode
  startable : Err
  link : Link
  pending : List Posted
  connects : Nat
  deriving DecidableEq

namespace Station

def Allows (w : Station) : WifiEvent → Prop
  | ⟨.connected_, b⟩ => b = w.connected_
  | ⟨.disconnecting_, b⟩ => b = w.disconnecting_
  | ⟨.attempts_, n⟩ => n = w.attempts_
  | ⟨.esp_wifi_get_mode, r⟩ => r = w.mode
  | ⟨.esp_wifi_start, err⟩ => err = w.startable
  | _ => True

instance (w : Station) (e : WifiEvent) : Decidable (w.Allows e) := by
  obtain ⟨op, r⟩ := e
  unfold Allows
  split <;> infer_instance

def after (w : Station) : WifiEvent → Station
  | ⟨.setConnected_ b, _⟩ => { w with connected_ := b }
  | ⟨.setDisconnecting_ b, _⟩ => { w with disconnecting_ := b }
  | ⟨.setAttempts_ n, _⟩ => { w with attempts_ := .ofNat n }
  | ⟨.incAttempts_, _⟩ => { w with attempts_ := w.attempts_ + 1 }
  | ⟨.esp_wifi_connect, err⟩ =>
    { w with
      connects := w.connects + 1
      link := if err = .ok ∧ w.link = .idle then .associating else w.link }
  | ⟨.esp_wifi_disconnect, _⟩ =>
    if w.link = .idle then w
    else { w with link := .idle, pending := w.pending ++ [.disconnected true] }
  | _ => w

/-- A station that has been constructed. -/
def constructed (mode : Err × Mode) (startable : Err) : Station where
  connected_ := false
  disconnecting_ := false
  attempts_ := 0
  mode := mode
  startable := startable
  link := .idle
  pending := []
  connects := 0

/-- `ensure_wifi_ready` succeeds. -/
def Ready (w : Station) : Prop :=
  w.mode.1 = .ok ∧ w.mode.2 ≠ .null ∧ (w.startable = .ok ∨ w.startable = .wifiState)

instance (w : Station) : Decidable w.Ready := inferInstanceAs (Decidable (_ ∧ _))

/-- What happens to the driver between two calls. -/
inductive Drives (w : Station) : Station → Prop where
  | started : Drives w { w with pending := w.pending ++ [.start] }
  | associated (h : w.link = .associating) :
    Drives w { w with link := .associated, pending := w.pending ++ [.connected] }
  | gotIp (h : w.link = .associated) : Drives w { w with pending := w.pending ++ [.gotIp] }
  | lost (h : w.link ≠ .idle) :
    Drives w { w with link := .idle, pending := w.pending ++ [.disconnected false] }
  /-- Others set the mode of the driver, start it and stop it. -/
  | configured (mode : Err × Mode) (startable : Err) :
      Drives w { w with mode := mode, startable := startable }

end Station

def station : Env Op Op.Res Station := watching Station.Allows Station.after

/-! ## Courses -/

/-- A station in the course of its calls and events: whether `disconnect` has been called since the last
`STA_DISCONNECTED` was handled, and how often `event_handler` has connected again since the last
`connect`, `disconnect` or `GOT_IP`. -/
structure Course where
  w : Station
  asked : Bool
  retries : Nat

inductive Act where
  | connect
  | disconnect
  | stop
  | drive
  | handle (event : Posted)
  deriving DecidableEq, Repr

/-- The course behind an event that has been handled. -/
def Course.handled (c : Course) (w' : Station) : Posted → Course
  | .disconnected _ => ⟨w', false, c.retries + (w'.connects - c.w.connects)⟩
  | .gotIp => ⟨w', c.asked, 0⟩
  | _ => ⟨w', c.asked, c.retries⟩

/-- A call, something that happens to the driver, or an event that is handled. -/
inductive Course.Step (depth : Nat) (config_ : WifiSta.Config) (c : Course) : Act → Course → Prop where
  | connect {b w'} (h : Exec station (WifiSta.connect depth config_) c.w (.returned b) w') :
    Step depth config_ c .connect ⟨w', c.asked, 0⟩
  | disconnect {b w'} (h : Exec station WifiSta.disconnect c.w (.returned b) w') :
    Step depth config_ c .disconnect ⟨w', true, 0⟩
  | stop {b w'} (h : Exec station WifiSta.stop c.w (.returned b) w') :
    Step depth config_ c .stop ⟨w', true, 0⟩
  | drive {w'} (h : c.w.Drives w') : Step depth config_ c .drive ⟨w', c.asked, c.retries⟩
  | handle {event rest w'} (hpending : c.w.pending = event :: rest)
    (h : Exec station (WifiSta.event_handler config_ event.event) { c.w with pending := rest }
      (.returned ()) w') :
    Step depth config_ c (.handle event) (c.handled w' event)

/-- There are attempts left. -/
def Left (max_retries : UInt32) (retries : Nat) : Prop :=
  max_retries = WifiSta.SIZE_MAX ∨ retries < max_retries.toNat

/-- The policy: a `STA_DISCONNECTED` makes the station connect again, once, exactly where no
`disconnect` has caused it and there are attempts left. -/
def Obeys (max_retries : UInt32) (caused : Bool) (c c' : Course) : Prop :=
  (caused = false ∧ Left max_retries c.retries → c'.w.connects = c.w.connects + 1) ∧
    (¬(caused = false ∧ Left max_retries c.retries) → c'.w.connects = c.w.connects)

/-- A `connect` finds the driver ready, or nothing to reset; a `STA_DISCONNECTED` has been caused by a
`disconnect` exactly where there was one since the last `STA_DISCONNECTED`, unless there is no attempt
left in any case. -/
def Meets (max_retries : UInt32) (c : Course) : Act → Prop
  | .connect => c.w.Ready ∨ c.retries = 0
  | .handle (.disconnected caused) => caused = c.asked ∨ ¬Left max_retries c.retries
  | _ => True

/-! ## What the calls do -/

section

variable {α : Type} {Q : α → Station → Prop} {w w' : Station}

theorem wp_station {op : Op} {f : Op.Res op → Code α}
    (h : ∀ r, w.Allows ⟨op, r⟩ → wp station (fun _ _ => True) (f r) Q (w.after ⟨op, r⟩)) :
    wp station (fun _ _ => True) (Prog.perform op >>= f) Q w :=
  Effects.wp_ask trivial fun r _ hr => hr.2 ▸ h r hr.1

namespace WifiSta

/-- The driver answers alike throughout a call, so that `connect` does not get to configure it. -/
theorem ensure_wifi_ready_station (reconfigure : Code Bool) :
    wp station (fun _ _ => True) (ensure_wifi_ready reconfigure)
      (fun b w' => w' = w ∧ b = decide w.Ready) w := by
  unfold ensure_wifi_ready WifiBase.is_initialized
  refine wp_bind.mpr (wp_station fun r hr => wp_ret.mpr ?_)
  obtain rfl : r = w.mode := hr
  dsimp only [Station.after]
  by_cases hmode : w.mode.1 = .ok ∧ w.mode.2 ≠ .null
  · have hinit : (decide (w.mode.1 = .ok) && decide (w.mode.2 ≠ .null)) = true := by simpa using hmode
    rw [if_pos hinit]
    refine wp_station fun r hr => ?_
    obtain rfl : r = w.mode := hr
    dsimp only [Station.after]
    rw [if_neg (by simpa using hmode)]
    refine wp_station fun err herr => wp_ret.mpr ⟨rfl, ?_⟩
    obtain rfl : err = w.startable := herr
    simp [Station.Ready, hmode]
  · have hinit : (decide (w.mode.1 = .ok) && decide (w.mode.2 ≠ .null)) ≠ true := by simpa using hmode
    rw [if_neg hinit]
    refine wp_ret.mpr ⟨rfl, ?_⟩
    have hready : ¬w.Ready := fun h => hmode ⟨h.1, h.2.1⟩
    simp [hready]

/-- `connect` resets the attempts of a driver that is ready, and nothing else of the policy. -/
theorem connect_station (depth : Nat) (config_ : Config) :
    wp station (fun _ _ => True) (connect depth config_)
      (fun _ w' => w'.disconnecting_ = w.disconnecting_ ∧
        w'.attempts_ = if w.Ready then 0 else w.attempts_) w := by
  have hwith : ∀ reconfigure : Code Bool,
      wp station (fun _ _ => True) (connectWith reconfigure)
        (fun _ w' => w'.disconnecting_ = w.disconnecting_ ∧
          w'.attempts_ = if w.Ready then 0 else w.attempts_) w := by
    intro reconfigure
    unfold connectWith
    refine (ensure_wifi_ready_station reconfigure).bind fun ready w' heq => ?_
    obtain ⟨rfl, rfl⟩ := heq
    by_cases hready : w'.Ready
    · rw [if_pos (decide_eq_true hready), if_pos hready]
      refine wp_station fun _ _ => wp_station fun _ _ => wp_station fun err _ => wp_ret.mpr ?_
      exact ⟨rfl, rfl⟩
    · rw [if_neg (by simpa using hready), if_neg hready]
      exact wp_ret.mpr ⟨rfl, rfl⟩
  cases depth with
  | zero => exact hwith _
  | succ depth => exact hwith _

theorem disconnect_station :
    wp station (fun _ _ => True) disconnect (fun _ w' => w'.disconnecting_ = true ∧ w'.attempts_ = 0) w := by
  unfold disconnect
  refine wp_station fun _ _ => wp_station fun _ _ => wp_station fun _ _ => ?_
  refine wp_station fun err _ => wp_ret.mpr ?_
  dsimp only [Station.after]
  split
  · exact ⟨rfl, rfl⟩
  · exact ⟨rfl, rfl⟩

/-- The station connects again, and counts it, if `more`; otherwise it does not. -/
structure Again (w : Station) (more : Prop) (w' : Station) : Prop where
  connects : more → w'.connects = w.connects + 1 ∧ w'.attempts_ = w.attempts_ + 1
  rests : ¬more → w'.connects = w.connects ∧ w'.attempts_ = w.attempts_

theorem retry_station (max_retries : UInt32) :
    wp station (fun _ _ => True) (retry max_retries)
      (fun _ w' => w'.disconnecting_ = w.disconnecting_ ∧
        Again w (w.attempts_ < max_retries ∨ max_retries = SIZE_MAX) w') w := by
  unfold retry
  refine wp_station fun n hn => ?_
  obtain rfl : n = w.attempts_ := hn
  split
  · next hmore =>
    refine wp_station fun err _ => ?_
    exact wp_perform.mpr ⟨trivial, fun _ _ h => h.2 ▸ ⟨rfl, fun _ => ⟨rfl, rfl⟩, absurd hmore⟩⟩
  · next hmore => exact wp_ret.mpr ⟨rfl, fun h => absurd h hmore, fun _ => ⟨rfl, rfl⟩⟩

/-- A `STA_DISCONNECTED` clears the flag; without the flag it is retried. -/
theorem disconnected_station (config_ : Config) :
    wp station (fun _ _ => True) (event_handler config_ .disconnected)
      (fun _ w' => w'.disconnecting_ = false ∧
        Again w (w.disconnecting_ = false ∧
          (w.attempts_ < config_.num_connect_retries ∨ config_.num_connect_retries = SIZE_MAX)) w') w := by
  unfold event_handler
  refine wp_station fun _ _ => wp_station fun b hb => ?_
  obtain rfl : b = w.disconnecting_ := hb
  have hcallback : ∀ {w' : Station} {Q : Unit → Station → Prop}, Q () w' →
      wp station (fun _ _ => True) Sys.on_disconnected Q w' := by
    intro w' Q hQ
    exact wp_perform.mpr ⟨trivial, fun _ _ h => h.2 ▸ hQ⟩
  by_cases hflag : w.disconnecting_ = true
  · rw [if_pos hflag]
    exact wp_station fun _ _ => hcallback ⟨rfl, fun h => by simp [hflag] at h, fun _ => ⟨rfl, rfl⟩⟩
  · have hflag : w.disconnecting_ = false := by simpa using hflag
    rw [if_neg (by simp [hflag])]
    refine (retry_station config_.num_connect_retries).bind fun _ w' h => ?_
    obtain ⟨hsame, hmore⟩ := h
    exact hcallback ⟨hsame.trans hflag, fun h => hmore.connects h.2,
      fun h => hmore.rests fun h' => h ⟨hflag, h'⟩⟩

theorem start_station (config_ : Config) :
    wp station (fun _ _ => True) (event_handler config_ .start)
      (fun _ w' => w'.disconnecting_ = w.disconnecting_ ∧ w'.attempts_ = w.attempts_) w := by
  unfold event_handler
  refine wp_station fun _ _ => ?_
  split
  · exact wp_station fun err _ => wp_ret.mpr ⟨rfl, rfl⟩
  · exact wp_ret.mpr ⟨rfl, rfl⟩

theorem gotIp_station (config_ : Config) :
    wp station (fun _ _ => True) (event_handler config_ .gotIp)
      (fun _ w' => w'.disconnecting_ = w.disconnecting_ ∧ w'.attempts_ = 0) w := by
  unfold event_handler
  refine wp_station fun _ _ => wp_station fun _ _ => wp_station fun _ _ => ?_
  exact wp_perform.mpr ⟨trivial, fun _ _ h => h.2 ▸ ⟨rfl, rfl⟩⟩

end WifiSta

end

/-! ## Courses that are known -/

theorem station_exec {α : Type} {p : Code α} {a : α} {w : Station} (tape : Trace Op Op.Res)
    (h : p.replay 0 tape = some (.returned a, [])) (hallowed : Allowed Station.Allows Station.after w tape) :
    Exec station p w (.returned a) (tape.foldl Station.after w) :=
  Prog.replay_exec h (path_watching hallowed)

/-- The station of `WiFiClass::begin`, which tries again without end. -/
def homeConfig : WifiSta.Config := WiFiClass.staConfig (ascii "home") none

/-- A new station whose driver is ready. -/
def newCourse : Course := ⟨.constructed (.ok, .sta) .ok, false, 0⟩

def connectTape : Trace Op Op.Res :=
  [⟨.esp_wifi_get_mode, .ok, .sta⟩, ⟨.esp_wifi_get_mode, .ok, .sta⟩, ⟨.esp_wifi_start, .ok⟩,
    ⟨.setAttempts_ 0, ()⟩, ⟨.setConnected_ false, ()⟩, ⟨.esp_wifi_connect, .ok⟩]

def disconnectTape : Trace Op Op.Res :=
  [⟨.setConnected_ false, ()⟩, ⟨.setAttempts_ 0, ()⟩, ⟨.setDisconnecting_ true, ()⟩,
    ⟨.esp_wifi_disconnect, .ok⟩]

def gotIpTape : Trace Op Op.Res :=
  [⟨.setAttempts_ 0, ()⟩, ⟨.setConnected_ true, ()⟩, ⟨.on_connected, ()⟩, ⟨.on_got_ip, ()⟩]

/-- A lost connection, where the flag is set. -/
def intendedTape : Trace Op Op.Res :=
  [⟨.setConnected_ false, ()⟩, ⟨.disconnecting_, true⟩, ⟨.setDisconnecting_ false, ()⟩,
    ⟨.on_disconnected, ()⟩]

/-- A lost connection, where it is not. -/
def retriedTape : Trace Op Op.Res :=
  [⟨.setConnected_ false, ()⟩, ⟨.disconnecting_, false⟩, ⟨.attempts_, 0⟩, ⟨.esp_wifi_connect, .ok⟩,
    ⟨.incAttempts_, ()⟩, ⟨.on_disconnected, ()⟩]

/-! ## The policy -/

/-- The flag is set where there was a `disconnect` since the last `STA_DISCONNECTED`, and `attempts_` is
the number of attempts, where that is bounded. -/
structure Course.Kept (max_retries : UInt32) (c : Course) : Prop where
  flag : c.w.disconnecting_ = c.asked
  attempts : max_retries ≠ WifiSta.SIZE_MAX → c.w.attempts_.toNat = c.retries

section

variable {depth : Nat} {config_ : WifiSta.Config} {c c' : Course} {caused : Bool}

/-- What the source compares is what the policy counts. -/
theorem Course.Kept.left_iff {max_retries : UInt32} (h : c.Kept max_retries) :
    (c.w.attempts_ < max_retries ∨ max_retries = WifiSta.SIZE_MAX) ↔ Left max_retries c.retries := by
  unfold Left
  by_cases hmax : max_retries = WifiSta.SIZE_MAX
  · simp [hmax]
  · rw [UInt32.lt_iff_toNat_lt, h.attempts hmax]
    tauto

/-- What the handler of a `STA_DISCONNECTED` does. -/
theorem Course.Kept.handles (h : c.Kept config_.num_connect_retries)
    (hstep : c.Step depth config_ (.handle (.disconnected caused)) c') :
    c'.w.disconnecting_ = false ∧ c'.asked = false ∧
      c'.retries = c.retries + (c'.w.connects - c.w.connects) ∧
      WifiSta.Again c.w (c.asked = false ∧ Left config_.num_connect_retries c.retries) c'.w := by
  cases hstep with
  | handle hpending hexec =>
    have hend := (WifiSta.disconnected_station config_).returned hexec
    refine ⟨hend.1, rfl, rfl, ?_⟩
    obtain ⟨hconnects, hrests⟩ := hend.2
    dsimp only at hconnects hrests
    rw [h.flag, h.left_iff] at hconnects hrests
    exact ⟨hconnects, hrests⟩

/-- In a course that has been in order, a `STA_DISCONNECTED` is handled as the policy says exactly where
it is in order. -/
theorem Course.Kept.obeys_iff (h : c.Kept config_.num_connect_retries)
    (hstep : c.Step depth config_ (.handle (.disconnected caused)) c') :
    Obeys config_.num_connect_retries caused c c' ↔
      Meets config_.num_connect_retries c (.handle (.disconnected caused)) := by
  obtain ⟨-, -, -, hdoes⟩ := h.handles hstep
  unfold Obeys Meets
  by_cases hleft : Left config_.num_connect_retries c.retries
  · -- there are attempts left: the station connects again where the flag is clear
    have hiff : (c'.w.connects = c.w.connects + 1 ↔ c.asked = false) ∧
        (c'.w.connects = c.w.connects ↔ c.asked = true) := by
      by_cases hasked : c.asked = false
      · have := hdoes.connects ⟨hasked, hleft⟩
        simp [hasked, this.1]
      · have := hdoes.rests fun h => hasked h.1
        simp [hasked, this.1]
    rw [hiff.1, hiff.2]
    cases caused with
    | false => simp [hleft]
    | true => simp [hleft]
  · have hrests := hdoes.rests fun h => hleft h.2
    exact ⟨fun _ => .inr hleft, fun _ => ⟨fun h => absurd h.2 hleft, fun _ => hrests.1⟩⟩

/-- Every step that is in order keeps the count. -/
theorem Course.Kept.step {act : Act} (h : c.Kept config_.num_connect_retries)
    (hmeets : Meets config_.num_connect_retries c act) (hstep : c.Step depth config_ act c') :
    c'.Kept config_.num_connect_retries := by
  have hstep' := hstep
  cases hstep with
  | connect hexec =>
    obtain ⟨hflag, hattempts⟩ := (WifiSta.connect_station depth config_).returned hexec
    refine ⟨hflag.trans h.flag, fun hmax => ?_⟩
    dsimp only
    rw [hattempts]
    split
    · rfl
    · next hready =>
      rw [h.attempts hmax]
      exact hmeets.resolve_left hready
  | disconnect hexec =>
    obtain ⟨hflag, hattempts⟩ := WifiSta.disconnect_station.returned hexec
    exact ⟨hflag, fun _ => congrArg UInt32.toNat hattempts⟩
  | stop hexec =>
    obtain ⟨hflag, hattempts⟩ := WifiSta.disconnect_station.returned hexec
    exact ⟨hflag, fun _ => congrArg UInt32.toNat hattempts⟩
  | drive hdrives =>
    cases hdrives with
    | started => exact ⟨h.flag, h.attempts⟩
    | associated _ => exact ⟨h.flag, h.attempts⟩
    | gotIp _ => exact ⟨h.flag, h.attempts⟩
    | lost _ => exact ⟨h.flag, h.attempts⟩
    | configured _ _ => exact ⟨h.flag, h.attempts⟩
  | @handle event rest w' hpending hexec =>
    cases event with
    | start =>
      obtain ⟨hflag, hattempts⟩ := (WifiSta.start_station config_).returned hexec
      refine ⟨hflag.trans h.flag, fun hmax => ?_⟩
      exact (congrArg UInt32.toNat hattempts).trans (h.attempts hmax)
    | connected =>
      obtain ⟨-, rfl⟩ := hexec
      exact ⟨h.flag, h.attempts⟩
    | gotIp =>
      obtain ⟨hflag, hattempts⟩ := (WifiSta.gotIp_station config_).returned hexec
      exact ⟨hflag.trans h.flag, fun _ => congrArg UInt32.toNat hattempts⟩
    | disconnected caused =>
      obtain ⟨hflag, hasked, hretries, hdoes⟩ := h.handles hstep'
      refine ⟨hflag.trans hasked.symm, fun hmax => ?_⟩
      rw [hretries]
      by_cases hagain : c.asked = false ∧ Left config_.num_connect_retries c.retries
      · -- fewer than `num_connect_retries` attempts: the count does not wrap around
        obtain ⟨hconnects, hattempts⟩ := hdoes.connects hagain
        have hlt : c.retries < config_.num_connect_retries.toNat := hagain.2.resolve_left hmax
        have hbound := config_.num_connect_retries.toNat_lt
        rw [hattempts, hconnects, UInt32.toNat_add, h.attempts hmax]
        have hone : (1 : UInt32).toNat = 1 := rfl
        omega
      · obtain ⟨hconnects, hattempts⟩ := hdoes.rests hagain
        rw [hattempts, hconnects, h.attempts hmax]
        omega

/-- The policy of the handler of `STA_DISCONNECTED`, for every station and every order of calls and
events: as long as everything has been in order, the event is handled as the policy says exactly where
the event is in order too. -/
theorem reconnects_iff (depth : Nat) (config_ : WifiSta.Config) (mode : Err × Mode) (startable : Err)
    (c : Course)
    (h : Leads (Course.Step depth config_) (Meets config_.num_connect_retries)
      ⟨.constructed mode startable, false, 0⟩ c)
    (caused : Bool) (c' : Course) (hstep : c.Step depth config_ (.handle (.disconnected caused)) c') :
    Obeys config_.num_connect_retries caused c c' ↔
      Meets config_.num_connect_retries c (.handle (.disconnected caused)) := by
  have hkept : c.Kept config_.num_connect_retries :=
    h.invariant (Course.Kept config_.num_connect_retries) ⟨rfl, fun _ => rfl⟩ fun _ _ _ h => h.step
  exact hkept.obeys_iff hstep

end

/-- The first attempt at a connection fails. -/
def failedCourse : Course :=
  ⟨{ newCourse.w with link := .idle, pending := [.disconnected false], connects := 1 }, false, 0⟩

/-- It is tried again. -/
theorem reconnects_iff_failed :
    ∃ c', failedCourse.Step 0 homeConfig (.handle (.disconnected false)) c' ∧
      Obeys homeConfig.num_connect_retries false failedCourse c' := by
  have hstart : Leads (Course.Step 0 homeConfig) (Meets homeConfig.num_connect_retries) newCourse newCourse :=
    .start
  have hconnect := hstart.step (l := Act.connect) (Or.inr rfl)
    (.connect (station_exec connectTape rfl (by decide)))
  have hlost : Leads (Course.Step 0 homeConfig) (Meets homeConfig.num_connect_retries) newCourse
      failedCourse :=
    hconnect.step (l := Act.drive) trivial (.drive (.lost (by decide)))
  obtain ⟨c', hstep⟩ : ∃ c', failedCourse.Step 0 homeConfig (.handle (.disconnected false)) c' :=
    ⟨_, .handle rfl (station_exec retriedTape rfl (by decide))⟩
  exact ⟨c', hstep, (reconnects_iff 0 homeConfig _ _ failedCourse hlost false c' hstep).mpr (.inl rfl)⟩

/-- After a `disconnect` that finds no connection the station connects, gets its address, and takes
the loss of the connection for intended. -/
theorem not_reconnects : ¬∀ (depth : Nat) (config_ : WifiSta.Config) (mode : Err × Mode) (startable : Err)
    (c : Course), Leads (Course.Step depth config_) (fun _ _ => True)
    ⟨.constructed mode startable, false, 0⟩ c →
      ∀ (caused : Bool) (c' : Course), c.Step depth config_ (.handle (.disconnected caused)) c' →
        Obeys config_.num_connect_retries caused c c' := by
  intro h
  have hstart : Leads (Course.Step 0 homeConfig) (fun _ _ => True) newCourse newCourse := .start
  have hdisconnect := hstart.step trivial (.disconnect (station_exec disconnectTape rfl (by decide)))
  have hconnect := hdisconnect.step trivial (.connect (station_exec connectTape rfl (by decide)))
  have hassociated := hconnect.step trivial (.drive (.associated rfl))
  have hconnected := hassociated.step trivial (.handle rfl (station_exec [] rfl trivial))
  have hserved := hconnected.step trivial (.drive (.gotIp rfl))
  have hgotIp := hserved.step trivial (.handle rfl (station_exec gotIpTape rfl (by decide)))
  have hlost := hgotIp.step trivial (.drive (.lost (by decide)))
  have hobeys := h 0 homeConfig _ _ _ hlost false _ (.handle rfl (station_exec intendedTape rfl (by decide)))
  have hconnects := hobeys.1 ⟨rfl, .inl rfl⟩
  exact absurd hconnects (by decide)

end WiFi
