import BaseUtilities.WiFi.Interfaces
import BaseUtilities.Effects.Session

/-!
# The mode of the driver

What the constructors, destructors and operations of the WiFi classes do to the mode of the driver and
to whether it is started, and when the mode is the one of the stations and access points that there
are.
-/

open Effects Mem

namespace WiFi

/-- No run comes to undefined behaviour. -/
def NoFault : Stop Op → World → Prop
  | .fault, _ => False
  | .asking _, _ => True

section

variable {may : World → WifiEvent → Prop} {α : Type} {Q : α → World → Prop} {w : World}

theorem wp_ask {op : Op} {f : Op.Res op → Code α}
    (h : ∀ r, w.Allows ⟨op, r⟩ → may w ⟨op, r⟩ → wp (driver may) NoFault (f r) Q (w.after ⟨op, r⟩)) :
    wp (driver may) NoFault (Prog.perform op >>= f) Q w := by
  refine wp_bind.mpr (wp_perform.mpr ⟨trivial, ?_⟩)
  rintro r _ ⟨⟨hallows, hmay⟩, rfl⟩
  exact h r hallows hmay

/-- The mode of a driver that is initialised. -/
theorem wp_get_mode {f : Err × Mode → Code α} (hinit : w.initialized = true)
    (h : wp (driver may) NoFault (f (.ok, w.mode)) Q w) :
    wp (driver may) NoFault (Prog.perform Op.esp_wifi_get_mode >>= f) Q w := by
  refine wp_ask fun r hr _ => ?_
  have hr' : if w.initialized then r.1 = .ok ∧ r.2 = w.mode else r.1 ≠ .ok := hr
  rw [if_pos hinit] at hr'
  obtain rfl : r = (.ok, w.mode) := Prod.ext hr'.1 hr'.2
  exact h

end

/-! ## What the parts do -/

namespace World

def initialise (w : World) : World := { w with initialized_ := true, initialized := true }

/-- A new station. -/
def withSta (w : World) : World :=
  { w.initialise with mode := WifiSta.newMode .ok w.mode, started := true }

/-- A new access point. -/
def withAp (w : World) : World :=
  { w.initialise with mode := WifiAp.newMode .ok w.mode, started := true }

/-- `~WifiSta` -/
def withoutSta (w : World) : World :=
  if w.mode = .apsta then { w with mode := .ap } else { w with started := false }

/-- `WifiAp::stop` -/
def withoutAp (w : World) : World :=
  if w.mode = .apsta then { w with mode := .sta } else { w with started := false }

end World

section

variable {may : World → WifiEvent → Prop} {w : World} {Q : Bool → World → Prop}

theorem wifi_init (hinit : w.initialized_ = w.initialized) (hQ : Q true w.initialise) :
    wp (driver may) NoFault Wifi.init Q w := by
  refine wp_ask fun b hb _ => ?_
  obtain rfl : b = w.initialized_ := hb
  split
  · next h =>
    have hw : w.initialise = w := by
      obtain ⟨i, j, m, s⟩ := w
      cases h
      cases hinit
      rfl
    exact wp_ret.mpr (hw ▸ hQ)
  · refine wp_ask fun err herr _ => ?_
    rw [if_neg (by rcases herr with rfl | rfl <;> simp)]
    refine wp_ask fun err herr _ => ?_
    rw [if_neg (by rcases herr with rfl | rfl <;> simp)]
    refine wp_ask fun err herr _ => ?_
    obtain rfl : err = .ok := herr
    rw [if_neg (by simp)]
    exact wp_ask fun _ _ _ => wp_ret.mpr hQ

theorem switchMode_spec {mode : Mode} (hQ : Q true { w with mode := mode }) :
    wp (driver may) NoFault (WifiBase.switchMode w.mode mode) Q w := by
  rw [WifiBase.switchMode]
  split
  · refine wp_ask fun err herr _ => ?_
    obtain rfl : err = .ok := herr
    exact wp_ret.mpr hQ
  · next h =>
    obtain rfl : w.mode = mode := not_not.mp h
    exact wp_ret.mpr hQ

theorem start_spec (hQ : Q true { w with started := true }) :
    wp (driver may) NoFault WifiBase.start Q w := by
  refine wp_ask fun err herr _ => ?_
  obtain rfl : err = .ok := herr
  exact wp_ret.mpr hQ

/-! ### Stations -/

namespace WifiSta

/-- The credentials fit the fields of the driver. -/
def Config.Fits (config : Config) : Prop :=
  config.ssid = [] ∨ (config.ssid.length ≤ 32 ∧ config.password.length ≤ 64)

theorem newMode_ne_null (err : Err) (mode : Mode) : newMode err mode ≠ .null := by
  cases err <;> cases mode <;> decide

theorem disconnect_spec (hQ : ∀ b, Q b w) : wp (driver may) NoFault disconnect Q w := by
  refine wp_ask fun _ _ _ => wp_ask fun _ _ _ => wp_ask fun _ _ _ => wp_ask fun err _ _ => ?_
  exact wp_ret.mpr (hQ _)

theorem leave_spec {Q : Unit → World → Prop} (was_connected : Bool) (hQ : Q () w) :
    wp (driver may) NoFault (leave was_connected) Q w := by
  rw [leave]
  split
  · refine wp_bind.mpr (disconnect_spec fun _ => ?_)
    refine wp_forever (fun _ w' => w' = w) rfl ?_
    rintro attempts _ rfl
    refine wp_ask fun connected_ _ _ => ?_
    split
    · exact wp_ask fun _ _ _ => wp_ret.mpr rfl
    · exact wp_ret.mpr hQ
  · exact wp_ret.mpr hQ

theorem credentials_spec {config : Config} {Q : Option StaConfig → World → Prop}
    (hfits : config.Fits) (hQ : ∀ wifi_config, Q (some wifi_config) w) :
    wp (driver may) NoFault (credentials config) Q w := by
  rw [credentials]
  split
  · refine wp_ask fun r hr _ => ?_
    obtain ⟨err, wifi_config⟩ := r
    obtain rfl : err = .ok := hr
    exact wp_ret.mpr (hQ wifi_config)
  · next hssid =>
    obtain ⟨hssid', hpassword⟩ := hfits.resolve_left hssid
    obtain ⟨ssid, hs, -⟩ := (Buffer.zeroed 32).store?_eq_some 0 config.ssid (by omega)
    obtain ⟨password, hp, -⟩ := (Buffer.zeroed 64).store?_eq_some 0 config.password (by omega)
    rw [hs, hp]
    exact wp_ret.mpr (hQ _)

theorem configure_spec {wifi_config : StaConfig} {phy_rate : Nat} (hinit : w.initialized = true)
    (hQ : Q true { w with mode := newMode .ok w.mode }) :
    wp (driver may) NoFault (configure wifi_config phy_rate) Q w := by
  refine wp_get_mode hinit (wp_bind.mpr (switchMode_spec ?_))
  refine wp_ask fun err herr _ => ?_
  obtain rfl : err = .ok := herr
  exact wp_ask fun _ _ _ => wp_ret.mpr hQ

theorem is_initialized_spec (hinit : w.initialized = true) (hmode : w.mode ≠ .null) (hQ : Q true w) :
    wp (driver may) NoFault WifiBase.is_initialized Q w := by
  refine wp_get_mode hinit (wp_ret.mpr ?_)
  have hvalid : (decide ((Err.ok, w.mode).1 = .ok) && decide ((Err.ok, w.mode).2 ≠ .null)) = true := by
    simpa using hmode
  rwa [hvalid]

/-- A driver with a mode is started again, without a new configuration. -/
theorem ensure_wifi_ready_spec {reconfigure : Code Bool} (hinit : w.initialized = true)
    (hmode : w.mode ≠ .null) (hQ : Q true { w with started := true }) :
    wp (driver may) NoFault (ensure_wifi_ready reconfigure) Q w := by
  refine wp_bind.mpr (is_initialized_spec hinit hmode ?_)
  refine wp_get_mode hinit ?_
  dsimp only
  rw [if_neg (by simpa using hmode)]
  refine wp_ask fun err herr _ => ?_
  obtain rfl : err = .ok := herr
  exact wp_ret.mpr hQ

theorem connectWith_spec {reconfigure : Code Bool} (hinit : w.initialized = true)
    (hmode : w.mode ≠ .null) (hQ : ∀ b, Q b { w with started := true }) :
    wp (driver may) NoFault (connectWith reconfigure) Q w := by
  refine wp_bind.mpr (ensure_wifi_ready_spec hinit hmode ?_)
  refine wp_ask fun _ _ _ => wp_ask fun _ _ _ => wp_ask fun _ _ _ => ?_
  exact wp_ret.mpr (hQ _)

theorem connect_spec {depth : Nat} {config_ : Config} (hinit : w.initialized = true)
    (hmode : w.mode ≠ .null) (hQ : ∀ b, Q b { w with started := true }) :
    wp (driver may) NoFault (connect depth config_) Q w := by
  cases depth with
  | zero => exact connectWith_spec hinit hmode hQ
  | succ depth => exact connectWith_spec hinit hmode hQ

theorem reconfigure_spec {depth : Nat} {config : Config} (hinit : w.initialized = true)
    (hfits : config.Fits) (hQ : Q true { w with mode := newMode .ok w.mode })
    (hstarted : ∀ b, Q b { w with mode := newMode .ok w.mode, started := true }) :
    wp (driver may) NoFault (reconfigure depth config) Q w := by
  refine wp_ask fun was_connected _ _ => ?_
  refine wp_bind.mpr (leave_spec was_connected ?_)
  refine wp_bind.mpr (credentials_spec hfits fun wifi_config => ?_)
  refine wp_bind.mpr (configure_spec hinit ?_)
  rw [if_pos rfl]
  split
  · exact connect_spec hinit (newMode_ne_null .ok w.mode) hstarted
  · exact wp_ret.mpr hQ

theorem register_spec (hQ : Q true w) : wp (driver may) NoFault register_event_handlers Q w := by
  refine wp_ask fun err herr _ => ?_
  obtain rfl : err = .ok := herr
  refine wp_ask fun err herr _ => ?_
  obtain rfl : err = .ok := herr
  exact wp_ret.mpr hQ

theorem unregister_spec (hQ : ∀ b, Q b w) :
    wp (driver may) NoFault unregister_event_handlers Q w := by
  refine wp_ask fun err _ _ => ?_
  split
  · exact wp_ask fun _ _ _ => wp_ret.mpr (hQ _)
  · exact wp_ret.mpr (hQ _)

theorem init_spec {depth : Nat} {config : Config} {Q : Unit → World → Prop}
    (hinit : w.initialized_ = w.initialized) (hfits : config.Fits) (hQ : Q () w.withSta) :
    wp (driver may) NoFault (init depth config) Q w := by
  refine wp_bind.mpr (wifi_init hinit ?_)
  rw [if_pos rfl]
  refine wp_bind.mpr (register_spec ?_)
  rw [if_pos rfl]
  refine wp_bind.mpr (reconfigure_spec rfl hfits ?_ fun b => ?_)
  · exact wp_bind.mpr (start_spec (wp_ret.mpr hQ))
  · split
    · exact wp_bind.mpr (start_spec (wp_ret.mpr hQ))
    · exact wp_ret.mpr hQ

theorem destroy_spec {Q : Unit → World → Prop} (hinit : w.initialized = true) (hQ : Q () w.withoutSta) :
    wp (driver may) NoFault destroy Q w := by
  refine wp_ask fun _ _ _ => wp_ask fun _ _ _ => wp_ask fun _ _ _ => ?_
  refine wp_bind.mpr (unregister_spec fun _ => ?_)
  refine wp_get_mode hinit ?_
  dsimp only [World.after]
  rw [World.withoutSta] at hQ
  by_cases hmode : w.mode = .apsta
  · rw [if_pos hmode] at hQ
    rw [if_pos ⟨rfl, hmode⟩]
    exact wp_ask fun _ _ _ => wp_ask fun _ _ _ => wp_ret.mpr hQ
  · rw [if_neg hmode] at hQ
    rw [if_neg fun h => hmode h.2]
    exact wp_ask fun _ _ _ => wp_ret.mpr hQ

end WifiSta

/-! ### Access points -/

namespace WifiAp

/-- The credentials fit the fields of the driver. -/
def Config.Fits (config : Config) : Prop :=
  config.ssid.length ≤ 32 ∧ config.password.length ≤ 64

theorem stop_spec (hinit : w.initialized = true) (hQ : Q true w.withoutAp) :
    wp (driver may) NoFault stop Q w := by
  refine wp_get_mode hinit ?_
  dsimp only
  rw [World.withoutAp] at hQ
  by_cases hmode : w.mode = .apsta
  · rw [if_pos hmode] at hQ
    rw [if_pos ⟨rfl, hmode⟩]
    refine wp_ask fun err herr _ => ?_
    obtain rfl : err = .ok := herr
    exact wp_ret.mpr hQ
  · rw [if_neg hmode] at hQ
    rw [if_neg fun h => hmode h.2]
    refine wp_ask fun err herr _ => ?_
    obtain rfl : err = .ok := herr
    exact wp_ret.mpr hQ

theorem wifiConfig_spec {config : Config} {Q : ApConfig → World → Prop} (hfits : config.Fits)
    (hQ : ∀ wifi_config, Q wifi_config w) : wp (driver may) NoFault (wifiConfig config) Q w := by
  obtain ⟨hssid, hpassword⟩ := hfits
  obtain ⟨ssid, hs, -⟩ := (Buffer.zeroed 32).store?_eq_some 0 config.ssid (by omega)
  obtain ⟨password, hp, -⟩ := (Buffer.zeroed 64).store?_eq_some 0 config.password (by omega)
  rw [wifiConfig, hs, hp]
  exact wp_ret.mpr (hQ _)

theorem configure_spec {wifi_config : ApConfig} {phy_rate : Nat} (hinit : w.initialized = true)
    (hQ : Q true { w with mode := newMode .ok w.mode }) :
    wp (driver may) NoFault (configure wifi_config phy_rate) Q w := by
  refine wp_get_mode hinit (wp_bind.mpr (switchMode_spec ?_))
  refine wp_ask fun err herr _ => ?_
  obtain rfl : err = .ok := herr
  refine wp_ask fun err herr _ => ?_
  obtain rfl : err = .ok := herr
  exact wp_ret.mpr hQ

theorem halt_spec {Q : Unit → World → Prop} (was_running : Bool) (hinit : w.initialized = true)
    (hQ : Q () w) (hstopped : Q () w.withoutAp) :
    wp (driver may) NoFault (halt was_running) Q w := by
  rw [halt]
  split
  · exact wp_bind.mpr (stop_spec hinit (wp_ret.mpr hstopped))
  · exact wp_ret.mpr hQ

/-- An access point that is stopped on the way comes back with the mode that it would have had. -/
theorem withoutAp_newMode (w : World) (started : Bool) :
    { w.withoutAp with mode := newMode .ok w.withoutAp.mode, started := started } =
      { w with mode := newMode .ok w.mode, started := started } := by
  obtain ⟨initialized_, initialized, mode, started'⟩ := w
  cases mode <;> rfl

theorem reconfigure_spec {config : Config} (hinit : w.initialized = true) (hfits : config.Fits)
    (hQ : ∀ started, Q true { w with mode := newMode .ok w.mode, started := started }) :
    wp (driver may) NoFault (reconfigure config) Q w := by
  refine wp_get_mode hinit ?_
  dsimp only
  -- Running or not, the access point is configured in the same way.
  generalize decide (Err.ok = .ok ∧ (w.mode = .ap ∨ w.mode = .apsta)) = was_running
  have hconfigured : ∀ w' : World, w'.initialized = true →
      (∀ started, Q true { w' with mode := newMode .ok w'.mode, started := started }) →
      wp (driver may) NoFault (do
        let wifi_config ← wifiConfig config
        let configured ← configure wifi_config config.phy_rate
        if configured then
          if was_running then WifiBase.start else return true
        else
          return false) Q w' := by
    intro w' hinit' hQ'
    refine wp_bind.mpr (wifiConfig_spec hfits fun wifi_config => ?_)
    refine wp_bind.mpr (configure_spec hinit' ?_)
    rw [if_pos rfl]
    split
    · exact start_spec (hQ' true)
    · exact wp_ret.mpr (hQ' w'.started)
  -- `stop` may have taken the access point out of the mode; the new mode puts it back.
  refine wp_bind.mpr (halt_spec was_running hinit (hconfigured w hinit hQ) ?_)
  refine hconfigured w.withoutAp ?_ fun started => ?_
  · rw [World.withoutAp]
    split <;> exact hinit
  · rw [withoutAp_newMode]
    exact hQ started

theorem register_spec (hQ : Q true w) : wp (driver may) NoFault register_event_handlers Q w := by
  refine wp_ask fun err herr _ => ?_
  obtain rfl : err = .ok := herr
  exact wp_ret.mpr hQ

theorem init_spec {config : Config} {Q : Unit → World → Prop}
    (hinit : w.initialized_ = w.initialized) (hfits : config.Fits) (hQ : Q () w.withAp) :
    wp (driver may) NoFault (init config) Q w := by
  refine wp_bind.mpr (wifi_init hinit ?_)
  rw [if_pos rfl]
  refine wp_bind.mpr (register_spec ?_)
  rw [if_pos rfl]
  refine wp_bind.mpr (reconfigure_spec rfl hfits fun started => ?_)
  exact wp_bind.mpr (start_spec (wp_ret.mpr hQ))

theorem destroy_spec {Q : Unit → World → Prop} (hinit : w.initialized = true) (hQ : Q () w.withoutAp) :
    wp (driver may) NoFault destroy Q w :=
  wp_bind.mpr (wp_ask fun _ _ _ => wp_ret.mpr (wp_bind.mpr (stop_spec hinit (wp_ret.mpr hQ))))

end WifiAp

/-! ### The operations -/

namespace WiFiClass

variable {depth : Nat} {self : WiFiClass} {Q : WiFiClass → World → Prop}

/-- There is no place for the mode, and so it is not set. -/
theorem setMode_spec {mode : Mode} (hQ : Q { self with m_mode := mode } w) :
    wp (driver may) NoFault (setMode self mode) Q w := by
  refine wp_ask fun err herr _ => ?_
  obtain rfl : err = .invalidArg := herr
  exact wp_ret.mpr hQ

/-- `begin` in a world: where there is a station already, it is destroyed last. -/
def began (self : WiFiClass) (w : World) : World :=
  if self.sta_.isSome then w.withSta.withoutSta else w.withSta

/-- `softAP` in a world: where there is an access point already, it is destroyed last. -/
def opened (self : WiFiClass) (w : World) : World :=
  if self.ap_ then w.withAp.withoutAp else w.withAp

/-- `end`, the station. -/
def leftSta (self : WiFiClass) (w : World) : World :=
  if self.sta_.isSome then w.withoutSta else w

/-- `end` and `softAPend`, the access point: it is stopped twice. -/
def leftAp (self : WiFiClass) (w : World) : World :=
  if self.ap_ then w.withoutAp.withoutAp else w

theorem began_initialized (self : WiFiClass) (w : World) :
    (self.began w).initialized_ = true ∧ (self.began w).initialized = true := by
  rw [began, World.withoutSta]
  split
  · split <;> exact ⟨rfl, rfl⟩
  · exact ⟨rfl, rfl⟩

theorem opened_initialized (self : WiFiClass) (w : World) :
    (self.opened w).initialized_ = true ∧ (self.opened w).initialized = true := by
  rw [opened, World.withoutAp]
  split
  · split <;> exact ⟨rfl, rfl⟩
  · exact ⟨rfl, rfl⟩

theorem leftSta_flags (self : WiFiClass) (w : World) :
    (self.leftSta w).initialized_ = w.initialized_ ∧ (self.leftSta w).initialized = w.initialized := by
  rw [leftSta, World.withoutSta]
  split
  · split <;> exact ⟨rfl, rfl⟩
  · exact ⟨rfl, rfl⟩

theorem withoutAp_flags (w : World) :
    w.withoutAp.initialized_ = w.initialized_ ∧ w.withoutAp.initialized = w.initialized := by
  rw [World.withoutAp]
  split <;> exact ⟨rfl, rfl⟩

theorem leftAp_flags (self : WiFiClass) (w : World) :
    (self.leftAp w).initialized_ = w.initialized_ ∧ (self.leftAp w).initialized = w.initialized := by
  rw [leftAp]
  split
  · obtain ⟨h₁, h₂⟩ := withoutAp_flags w
    obtain ⟨h₁', h₂'⟩ := withoutAp_flags w.withoutAp
    exact ⟨h₁'.trans h₁, h₂'.trans h₂⟩
  · exact ⟨rfl, rfl⟩

theorem begin_spec {ssid : Bytes} {password : Option Bytes} (hinit : w.initialized_ = w.initialized)
    (hfits : (staConfig ssid password).Fits)
    (hQ : Q { self with sta_ := some (staConfig ssid password), m_mode := .sta } (self.began w)) :
    wp (driver may) NoFault (begin depth self ssid password) Q w := by
  refine wp_bind.mpr (WifiSta.init_spec hinit hfits (wp_bind.mpr ?_))
  rw [began] at hQ
  rw [destroySta]
  split
  · next hlive =>
    rw [if_pos hlive] at hQ
    exact WifiSta.destroy_spec rfl (setMode_spec hQ)
  · next hnone =>
    rw [if_neg hnone] at hQ
    exact wp_ret.mpr (setMode_spec hQ)

theorem connect_spec {ssid : Bytes} {password : Option Bytes} (hinit : w.initialized_ = w.initialized)
    (hfits : (staConfig ssid password).Fits) (hmode : (self.began w).mode ≠ .null)
    (hstarted : Q { self with sta_ := some (staConfig ssid password), m_mode := .sta }
      { self.began w with started := true })
    (hconnected : may (self.began w) ⟨.connected_, true⟩ →
      Q { self with sta_ := some (staConfig ssid password), m_mode := .sta } (self.began w)) :
    wp (driver may) NoFault (connect depth self ssid password) Q w := by
  refine wp_bind.mpr (begin_spec hinit hfits (wp_ask fun connected_ _ hmay => ?_))
  split
  · next h =>
    obtain rfl : connected_ = true := h
    exact wp_ret.mpr (hconnected hmay)
  · refine wp_bind.mpr (WifiSta.connect_spec ?_ hmode fun b => wp_ret.mpr hstarted)
    exact (self.began_initialized w).2

theorem softAP_spec {ssid : Bytes} {password : Option Bytes} {channel max_connection : Int}
    (hidden : Bool) (hinit : w.initialized_ = w.initialized)
    (hfits : (apConfig ssid password channel max_connection).Fits)
    (hQ : ∀ mode, Q { self with ap_ := true, m_mode := mode } (self.opened w)) :
    wp (driver may) NoFault (softAP self ssid password channel hidden max_connection) Q w := by
  refine wp_bind.mpr (WifiAp.init_spec hinit hfits (wp_bind.mpr ?_))
  rw [opened] at hQ
  rw [destroyAp]
  split
  · next hlive =>
    rw [if_pos hlive] at hQ
    exact WifiAp.destroy_spec rfl (setMode_spec (hQ _))
  · next hnone =>
    rw [if_neg hnone] at hQ
    exact wp_ret.mpr (setMode_spec (hQ _))

theorem endSta_spec {Q : Unit → World → Prop} (hinit : self.sta_.isSome → w.initialized = true)
    (hQ : Q () (self.leftSta w)) : wp (driver may) NoFault (endSta self.sta_) Q w := by
  rw [leftSta] at hQ
  rw [endSta]
  split
  · next hlive =>
    rw [if_pos hlive] at hQ
    refine wp_bind.mpr (WifiSta.disconnect_spec fun _ => ?_)
    exact WifiSta.destroy_spec (hinit hlive) hQ
  · next hnone =>
    rw [if_neg hnone] at hQ
    exact wp_ret.mpr hQ

theorem endAp_spec {Q : Unit → World → Prop} (hinit : self.ap_ → w.initialized = true)
    (hQ : Q () (self.leftAp w)) : wp (driver may) NoFault (endAp self.ap_) Q w := by
  rw [leftAp] at hQ
  rw [endAp]
  split
  · next hlive =>
    rw [if_pos hlive] at hQ
    refine wp_bind.mpr (WifiAp.stop_spec (hinit hlive) ?_)
    exact WifiAp.destroy_spec ((withoutAp_flags w).2.trans (hinit hlive)) hQ
  · next hnone =>
    rw [if_neg hnone] at hQ
    exact wp_ret.mpr hQ

end WiFiClass

end

/-! ## Sequences of calls -/

/-- The calls of a user of `WiFiClass`. -/
inductive Call where
  | begin (ssid : Bytes) (password : Option Bytes)
  | connect (ssid : Bytes) (password : Option Bytes)
  | softAP (ssid : Bytes) (password : Option Bytes) (channel : Int) (hidden : Bool)
      (max_connection : Int)
  | softAPend
  | end_
  | setMode (mode : Mode)
  deriving DecidableEq

def Call.run (depth : Nat) : Call → WiFiClass → Code WiFiClass
  | .begin ssid password, self => self.begin depth ssid password
  | .connect ssid password, self => self.connect depth ssid password
  | .softAP ssid password channel hidden max_connection, self =>
    self.softAP ssid password channel hidden max_connection
  | .softAPend, self => self.softAPend
  | .end_, self => self.end_
  | .setMode mode, self => self.setMode mode

/-- The object, and the last call that has returned. -/
structure Client where
  self : WiFiClass
  last : Option Call

/-- A user that makes calls as `may` says. -/
def client (depth : Nat) (may : Client → World → Call → Prop) :
    Session Op Op.Res Call Client World where
  run c s := do
    let self ← c.run depth s.self
    return ⟨self, some c⟩
  may := may

/-- The driver is started in the mode of the station and the access point that there are. -/
def Coherent (self : WiFiClass) (w : World) : Prop :=
  match self.sta_.isSome, self.ap_ with
  | true, true => w.started = true ∧ w.mode = .apsta
  | true, false => w.started = true ∧ w.mode = .sta
  | false, true => w.started = true ∧ w.mode = .ap
  | false, false => w.started = false

/-- What the last call owes its user. -/
def Met (s : Client) (w : World) : Prop :=
  match s.last with
  | none => True
  | some (.setMode mode) => w.initialized = true → w.mode = mode
  | some _ => Coherent s.self w

/-- A new station is not connected while the driver is stopped. -/
def Offline (may : World → WifiEvent → Prop) : Prop :=
  ∀ w, may w ⟨.connected_, true⟩ → w.started = true

/-- A station is made where there is none, beside an access point or after nothing but stations; an
access point likewise; `connect` may also replace a station that is alone, where the new one is not connected
before the old one has stopped the driver.  Of the two only a station or an access point that is alone is ended by
itself, and the mode is set to what it is. -/
def InOrder (may : World → WifiEvent → Prop) (s : Client) (w : World) : Call → Prop
  | .begin ssid password =>
    (WiFiClass.staConfig ssid password).Fits ∧ s.self.sta_ = none ∧
      (s.self.ap_ = true ∨ w.mode = .null ∨ w.mode = .sta)
  | .connect ssid password =>
    (WiFiClass.staConfig ssid password).Fits ∧
      ((s.self.sta_ = none ∧ (s.self.ap_ = true ∨ w.mode = .null ∨ w.mode = .sta)) ∨
        (s.self.sta_.isSome ∧ s.self.ap_ = false ∧ Offline may))
  | .softAP ssid password channel _ max_connection =>
    (WiFiClass.apConfig ssid password channel max_connection).Fits ∧ s.self.ap_ = false ∧
      (s.self.sta_.isSome ∨ w.mode = .null ∨ w.mode = .ap)
  | .softAPend => s.self.sta_ = none ∨ s.self.ap_ = false
  | .end_ => True
  | .setMode mode => w.initialized = true → w.mode = mode

namespace Coherent

variable {self : WiFiClass} {w : World} {config : WifiSta.Config} {m_mode : Mode}

theorem began (h : Coherent self w) (hsta : self.sta_ = none)
    (hmode : self.ap_ = true ∨ w.mode = .null ∨ w.mode = .sta) :
    Coherent { self with sta_ := some config, m_mode := m_mode } (self.began w) := by
  obtain ⟨sta_, ap_, _, _⟩ := self
  obtain ⟨_, _, mode, _⟩ := w
  obtain rfl : sta_ = none := hsta
  cases ap_ with
  | true =>
    obtain rfl : mode = .ap := h.2
    exact ⟨rfl, rfl⟩
  | false =>
    obtain rfl | rfl : mode = .null ∨ mode = .sta := hmode.resolve_left nofun
    · exact ⟨rfl, rfl⟩
    · exact ⟨rfl, rfl⟩

theorem restarted (h : Coherent self w) (hlive : self.sta_.isSome) :
    Coherent self { w with started := true } := by
  obtain ⟨sta_, ap_, _, _⟩ := self
  obtain ⟨config_, rfl⟩ := Option.isSome_iff_exists.mp hlive
  cases ap_ with
  | true => exact ⟨rfl, h.2⟩
  | false => exact ⟨rfl, h.2⟩

/-- `connect` starts the driver that the old station has stopped. -/
theorem reconnected (h : Coherent self w) (hsta : self.sta_.isSome) (hap : self.ap_ = false) :
    Coherent { self with sta_ := some config, m_mode := m_mode }
      { self.began w with started := true } := by
  obtain ⟨sta_, ap_, _, _⟩ := self
  obtain ⟨_, _, mode, _⟩ := w
  obtain rfl : ap_ = false := hap
  obtain ⟨config_, rfl⟩ := Option.isSome_iff_exists.mp hsta
  obtain rfl : mode = .sta := h.2
  exact ⟨rfl, rfl⟩

theorem opened (h : Coherent self w) (hap : self.ap_ = false)
    (hmode : self.sta_.isSome ∨ w.mode = .null ∨ w.mode = .ap) :
    Coherent { self with ap_ := true, m_mode := m_mode } (self.opened w) := by
  obtain ⟨sta_, ap_, _, _⟩ := self
  obtain ⟨_, _, mode, _⟩ := w
  obtain rfl : ap_ = false := hap
  cases sta_ with
  | some config_ =>
    obtain rfl : mode = .sta := h.2
    exact ⟨rfl, rfl⟩
  | none =>
    obtain rfl | rfl : mode = .null ∨ mode = .ap := hmode.resolve_left nofun
    · exact ⟨rfl, rfl⟩
    · exact ⟨rfl, rfl⟩

theorem leftAp (h : Coherent self w) (halone : self.sta_ = none ∨ self.ap_ = false) :
    Coherent { self with ap_ := false, m_mode := m_mode } (self.leftAp w) := by
  obtain ⟨sta_, ap_, _, _⟩ := self
  obtain ⟨_, _, mode, _⟩ := w
  cases ap_ with
  | false => exact h
  | true =>
    obtain rfl : sta_ = none := halone.resolve_right nofun
    obtain rfl : mode = .ap := h.2
    rfl

/-- The destructors stop a driver in whatever mode it is. -/
theorem left (h : Coherent self w) : (self.leftAp (self.leftSta w)).started = false := by
  obtain ⟨sta_, ap_, _, _⟩ := self
  obtain ⟨_, _, mode, _⟩ := w
  cases sta_ with
  | none =>
    cases ap_ with
    | false => exact h
    | true =>
      obtain rfl : mode = .ap := h.2
      rfl
  | some config_ =>
    cases ap_ with
    | false =>
      obtain rfl : mode = .sta := h.2
      rfl
    | true =>
      obtain rfl : mode = .apsta := h.2
      rfl

end Coherent

/-- Between two calls. -/
structure Inv (s : Client) (w : World) : Prop where
  flag : w.initialized_ = w.initialized
  live : s.self.sta_.isSome ∨ s.self.ap_ = true → w.initialized = true
  coherent : Coherent s.self w
  met : Met s w

theorem WiFiClass.began_mode (self : WiFiClass) (w : World) : (self.began w).mode ≠ .null := by
  have hmode := WifiSta.newMode_ne_null .ok w.mode
  rw [WiFiClass.began, World.withoutSta]
  split
  · split
    · exact Mode.noConfusion
    · exact hmode
  · exact hmode

theorem call_kept {depth : Nat} {may : World → WifiEvent → Prop} {s : Client} {w : World} (c : Call)
    (h : Inv s w) (hc : InOrder may s w c) :
    wp (driver may) NoFault ((client depth (InOrder may)).run c s) Inv w := by
  obtain ⟨self, last⟩ := s
  obtain ⟨hflag, hlive, hcoherent, -⟩ := h
  -- After every call but `setMode` the user is owed a coherent driver.
  have hnew : ∀ {self' : WiFiClass} {w' : World}, w'.initialized_ = true ∧ w'.initialized = true →
      Coherent self' w' → (∀ mode, c ≠ .setMode mode) →
      wp (driver may) NoFault (return ⟨self', some c⟩ : Code Client) Inv w' := by
    intro self' w' hinit hcoherent' hno
    refine wp_ret.mpr ⟨hinit.1.trans hinit.2.symm, fun _ => hinit.2, hcoherent', ?_⟩
    cases c with
    | setMode mode => exact absurd rfl (hno mode)
    | _ => exact hcoherent'
  -- One case for each function; `InOrder` says in which modes it is called.
  cases c with
  | begin ssid password =>
    obtain ⟨hfits, hsta, hmode⟩ := hc
    refine wp_bind.mpr (WiFiClass.begin_spec hflag hfits (hnew ?_ ?_ nofun))
    · exact self.began_initialized w
    · exact hcoherent.began hsta hmode
  | connect ssid password =>
    obtain ⟨hfits, hwhere⟩ := hc
    have hinit := self.began_initialized w
    refine wp_bind.mpr (WiFiClass.connect_spec hflag hfits (self.began_mode w) ?_ fun hmay => ?_)
    · refine hnew hinit ?_ nofun
      -- A new station, or one in the place of a station that is alone.
      obtain ⟨hsta, hmode⟩ | ⟨hsta, hap, -⟩ := hwhere
      · exact (hcoherent.began hsta hmode).restarted rfl
      · exact hcoherent.reconnected hsta hap
    · refine hnew hinit ?_ nofun
      -- A connected station is not connected again: the driver has to be started as it is.
      obtain ⟨hsta, hmode⟩ | ⟨hsta, hap, hoffline⟩ := hwhere
      · exact hcoherent.began hsta hmode
      · have hsame : { self.began w with started := true } = self.began w := by
          rw [← hoffline _ hmay]
        exact hsame ▸ hcoherent.reconnected hsta hap
  | softAP ssid password channel hidden max_connection =>
    obtain ⟨hfits, hap, hmode⟩ := hc
    refine wp_bind.mpr (WiFiClass.softAP_spec hidden hflag hfits fun m_mode => hnew ?_ ?_ nofun)
    · exact self.opened_initialized w
    · exact hcoherent.opened hap hmode
  | softAPend =>
    -- The access point is left first, and the mode is then set to what remains.
    refine wp_bind.mpr (wp_bind.mpr (WiFiClass.endAp_spec (fun h => hlive (.inr h)) ?_))
    refine WiFiClass.setMode_spec (wp_ret.mpr ?_)
    have hflags := self.leftAp_flags w
    have hcoherent' : ∀ m_mode, Coherent { self with ap_ := false, m_mode := m_mode } (self.leftAp w) :=
      fun _ => hcoherent.leftAp hc
    refine ⟨hflags.1.trans (hflag.trans hflags.2.symm), fun h => ?_, hcoherent' _, hcoherent' _⟩
    exact hflags.2.trans (hlive (.inl (h.resolve_right nofun)))
  | end_ =>
    have hsta := self.leftSta_flags w
    have hap := self.leftAp_flags (self.leftSta w)
    refine wp_bind.mpr (wp_bind.mpr (WiFiClass.endSta_spec (fun h => hlive (.inl h)) (wp_bind.mpr ?_)))
    refine WiFiClass.endAp_spec (fun h => hsta.2.trans (hlive (.inr h))) (wp_ret.mpr (wp_ret.mpr ?_))
    refine ⟨?_, nofun, hcoherent.left, hcoherent.left⟩
    exact (hap.1.trans hsta.1).trans (hflag.trans (hap.2.trans hsta.2).symm)
  | setMode mode =>
    refine wp_bind.mpr (WiFiClass.setMode_spec (wp_ret.mpr ?_))
    exact ⟨hflag, hlive, hcoherent, hc⟩

/-- In order, the driver is always in the mode of the station and the access point that there are, whatever the
event task does. -/
theorem met_of_inOrder (depth : Nat) (mode : Mode) (may : World → WifiEvent → Prop) :
    (client depth (InOrder may)).Sound (driver may) NoFault Met ⟨.constructed, none⟩ (.boot mode) :=
  Session.sound Inv ⟨rfl, nofun, rfl, trivial⟩ (fun _ _ c h hc => call_kept c h hc) fun _ _ h => h.met

/-! ## A mode that is not set -/

/-- `begin("home")` with a driver that does all it is asked to, and then `setMode`. -/
def homeAnswers : Trace Op Op.Res :=
  [⟨.initialized_, false⟩, ⟨.esp_netif_init, .ok⟩, ⟨.esp_event_loop_create_default, .ok⟩,
    ⟨.esp_wifi_init, .ok⟩, ⟨.setInitialized_ true, ()⟩,
    ⟨.esp_event_handler_instance_register .sta .wifiAny, .ok⟩,
    ⟨.esp_event_handler_instance_register .sta .gotIp, .ok⟩,
    ⟨.connected_, false⟩, ⟨.esp_wifi_get_mode, .ok, .null⟩, ⟨.esp_wifi_set_mode .sta, .ok⟩,
    ⟨.esp_wifi_set_config (.sta ⟨(Buffer.zeroed 32).overlay (ascii "home"), .zeroed 64, 0, false,
      .zeroed 6⟩), .ok⟩,
    ⟨.esp_wifi_config_80211_tx_rate .sta 16, .ok⟩, ⟨.esp_wifi_start, .ok⟩,
    ⟨.esp_wifi_get_mode_null, .invalidArg⟩, ⟨.esp_wifi_get_mode_null, .invalidArg⟩]

theorem homeAnswers_path :
    Path (driver fun _ _ => True) (.boot .null) homeAnswers ⟨true, true, .sta, true⟩ := by
  have hallowed : Allowed (fun w e => World.Allows w e ∧ True) World.after (.boot .null) homeAnswers := by
    refine ⟨⟨rfl, trivial⟩, ⟨.inl rfl, trivial⟩, ⟨.inl rfl, trivial⟩, ⟨rfl, trivial⟩,
      ⟨trivial, trivial⟩, ⟨rfl, trivial⟩, ⟨rfl, trivial⟩, ⟨trivial, trivial⟩, ⟨⟨rfl, rfl⟩, trivial⟩,
      ⟨rfl, trivial⟩, ⟨rfl, trivial⟩, ⟨rfl, trivial⟩, ⟨rfl, trivial⟩, ⟨rfl, trivial⟩,
      ⟨rfl, trivial⟩, trivial⟩
  exact path_watching hallowed

/-- `setMode` asks for the current mode without a place for it, fails, and sets none. -/
theorem not_met : ¬∀ (depth : Nat) (mode : Mode),
    (client depth fun _ _ _ => True).Sound (driver fun _ _ => True) NoFault Met
      ⟨.constructed, none⟩ (.boot mode) := by
  intro h
  have hreplay : ((client 0 fun _ _ _ => True).runAll (fun _ _ => true)
      [.begin (ascii "home") none, .setMode .ap] ⟨.constructed, none⟩).replays 2 homeAnswers
        (Outcome.returns fun s => s.last = some (.setMode .ap)) = true := by
    decide +kernel
  obtain ⟨s, hexec, hout⟩ := Prog.replays_returned hreplay homeAnswers_path
  have hlast : s.last = some (.setMode .ap) := of_decide_eq_true hout
  have hreach := Session.Reaches.start.runAll (fun _ _ _ _ => trivial) hexec
  have hmet := (h 0 .null _ _ hreach).1
  rw [Met, hlast] at hmet
  cases hmet rfl

end WiFi
