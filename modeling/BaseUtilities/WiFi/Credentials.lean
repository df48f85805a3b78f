import BaseUtilities.WiFi.Interfaces

/-!
# The credentials that are stored

Four functions put an SSID and a password into the fixed fields of a driver configuration.  Where they
start from cleared fields, strings that fit are stored exactly; `WifiSta::connect(ssid, password)`
starts from the saved configuration, and what that has behind the new strings stays.  None of them
looks at the lengths.
-/

open Effects Mem

namespace WiFi

/-! ## Fields -/

/-- A string and zeros behind it, `n` bytes in all; a longer string is left as it is. -/
def padded (n : Nat) (text : Bytes) : Bytes := text ++ List.replicate (n - text.length) 0

variable {n : Nat}

theorem overlay_eq_padded {b : Buffer n} {text : Bytes} (h : text.length ≤ n) :
    (b.overlay text).bytes = padded n text ↔ ∀ c ∈ b.bytes.drop text.length, c = 0 := by
  unfold padded
  rw [Buffer.overlay_bytes h, List.append_cancel_left_eq, List.eq_replicate_iff]
  constructor
  · intro heq
    exact heq.2
  · intro hall
    have hsize := b.size_eq
    exact ⟨by rw [List.length_drop, hsize], hall⟩

theorem zeroed_overlay {text : Bytes} (h : text.length ≤ n) :
    ((Buffer.zeroed n).overlay text).bytes = padded n text := by
  rw [overlay_eq_padded h]
  intro c hc
  exact List.eq_of_mem_replicate (List.mem_of_mem_drop hc)

theorem zeroed_padded (n : Nat) : (Buffer.zeroed n).bytes = padded n [] := by
  unfold padded Buffer.zeroed
  rw [List.nil_append, List.length_nil, Nat.sub_zero]

/-! ## The world -/

/-- The driver with the configurations that it has saved. -/
structure Saved where
  initialized : Bool
  mode : Mode
  sta : StaConfig
  ap : ApConfig
  deriving DecidableEq

namespace Saved

/-- Any call may fail, but for the mode of a driver that is initialised; what is saved is returned. -/
def Allows (w : Saved) : WifiEvent → Prop
  | ⟨.esp_wifi_get_mode, err, mode⟩ =>
    if w.initialized then err = .ok ∧ mode = w.mode else err ≠ .ok
  | ⟨.esp_wifi_get_config, err, config⟩ => err = .ok → config = w.sta
  | ⟨.esp_wifi_get_config_ap, err, config⟩ => err = .ok → config = w.ap
  | _ => True

def after (w : Saved) : WifiEvent → Saved
  | ⟨.esp_wifi_set_mode mode, .ok⟩ => { w with mode }
  | ⟨.esp_wifi_set_config (.sta config), .ok⟩ => { w with sta := config }
  | ⟨.esp_wifi_set_config (.ap config), .ok⟩ => { w with ap := config }
  | _ => w

end Saved

/-- The driver with what it has saved. -/
def saving : Env Op Op.Res Saved := watching Saved.Allows Saved.after

/-- The fields of a configuration are exactly the credentials. -/
def WifiConfig.Exact (ssid password : Bytes) : WifiConfig → Prop
  | .sta config => config.ssid.bytes = padded 32 ssid ∧ config.password.bytes = padded 64 password
  | .ap config => config.ssid.bytes = padded 32 ssid ∧ config.password.bytes = padded 64 password ∧
    config.ssid_len.toNat = ssid.length

/-- Every configuration that is set is exact, and no copy leaves its field. -/
def SetsExactly (ssid password : Bytes) : Stop Op → Saved → Prop
  | .fault, _ => False
  | .asking (.esp_wifi_set_config config), _ => config.Exact ssid password
  | _, _ => True

/-- Every run of a function stores the credentials exactly, or nothing. -/
def Stores (ssid password : Bytes) (p : Code Bool) (w : Saved) : Prop :=
  wp saving (SetsExactly ssid password) p (fun _ _ => True) w

/-- The strings fit the fields. -/
def Fit (ssid password : Bytes) : Prop := ssid.length ≤ 32 ∧ password.length ≤ 64

variable {α : Type} {ssid password : Bytes} {w : Saved} {Q : α → Saved → Prop}

/-- A call other than `esp_wifi_set_config`. -/
theorem wp_safe {op : Op} {f : Op.Res op → Code α} (hop : ∀ config, op ≠ .esp_wifi_set_config config)
    (h : ∀ r w', w.Allows ⟨op, r⟩ → w' = w.after ⟨op, r⟩ →
      wp saving (SetsExactly ssid password) (f r) Q w') :
    wp saving (SetsExactly ssid password) (Prog.perform op >>= f) Q w := by
  apply wp_ask
  · cases op with
    | esp_wifi_set_config config => exact absurd rfl (hop config)
    | _ => trivial
  · intro r w' hr
    exact h r w' hr.1 hr.2

/-- A copy that leaves its field. -/
theorem not_fits {o : Option α} {β : Type} {f : α → Code β} {R : β → Saved → Prop} (ho : o = none) :
    ¬wp saving (SetsExactly ssid password) (Prog.ofOption o >>= f) R w := by
  intro h
  rw [ho] at h
  exact wp_fault.mp h

/-- Where the name of the network has room, it is the password that has none. -/
theorem long_password (hlong : ¬Fit ssid password) (hssid : ssid.length ≤ 32) :
    64 < password.length ∧ password ≠ [] := by
  have hpassword : 64 < password.length := by
    apply Nat.lt_of_not_le
    intro hle
    exact hlong ⟨hssid, hle⟩
  constructor
  · exact hpassword
  · intro hnil
    rw [hnil] at hpassword
    exact absurd hpassword (by decide)

/-- Copies into cleared fields say that the strings fit. -/
theorem cleared_fit {f : Buffer 32 → Buffer 64 → Code α}
    (h : wp saving (SetsExactly ssid password)
      (do
        let ssid ← Prog.ofOption ((Buffer.zeroed 32).store? 0 ssid)
        let password ← Prog.ofOption ((Buffer.zeroed 64).store? 0 password)
        f ssid password) Q w) :
    Fit ssid password := by
  by_cases hssid : ssid.length ≤ 32
  · refine ⟨hssid, ?_⟩
    rw [Buffer.store?_zero _ hssid] at h
    by_contra hlong
    have hnone : (Buffer.zeroed 64).store? 0 password = none := Buffer.store?_eq_none (by omega)
    exact not_fits hnone h
  · have hnone : (Buffer.zeroed 32).store? 0 ssid = none := Buffer.store?_eq_none (by omega)
    exact absurd h (not_fits hnone)

/-- The driver answers when it is asked for its mode. -/
theorem get_mode_answers (w : Saved) : ∃ r, saving w .esp_wifi_get_mode r w := by
  by_cases hinit : w.initialized
  · refine ⟨(.ok, w.mode), ?_, rfl⟩
    show if w.initialized then _ else _
    rw [if_pos hinit]
    exact ⟨rfl, rfl⟩
  · refine ⟨(.fail, w.mode), ?_, rfl⟩
    show if w.initialized then _ else _
    rw [if_neg hinit]
    decide

/-! ## What comes before and behind -/

theorem switchMode_stores {current_mode mode : Mode} {Q : Bool → Saved → Prop} (hQ : ∀ b w, Q b w) :
    wp saving (SetsExactly ssid password) (WifiBase.switchMode current_mode mode) Q w := by
  unfold WifiBase.switchMode
  split
  · apply wp_safe (by intro config; exact nofun)
    intro err w' _ _
    exact wp_ret.mpr (hQ _ _)
  · exact wp_ret.mpr (hQ _ _)

theorem start_stores : Stores ssid password WifiBase.start w := by
  apply wp_safe (by intro config; exact nofun)
  intro err w' _ _
  exact wp_ret.mpr trivial

namespace WifiSta

theorem leave_stores {Q : Unit → Saved → Prop} (was_connected : Bool) (hQ : Q () w) :
    wp saving (SetsExactly ssid password) (leave was_connected) Q w := by
  unfold leave
  split
  · -- `disconnect`, and the wait
    have hdisconnect : wp saving (SetsExactly ssid password) disconnect (fun _ w' => w' = w) w := by
      unfold disconnect
      apply wp_safe (by intro config; exact nofun)
      intro _ w₁ _ h₁
      apply wp_safe (by intro config; exact nofun)
      intro _ w₂ _ h₂
      apply wp_safe (by intro config; exact nofun)
      intro _ w₃ _ h₃
      apply wp_safe (by intro config; exact nofun)
      intro err w₄ _ h₄
      apply wp_ret.mpr
      rw [h₄, h₃, h₂, h₁]
      rfl
    apply hdisconnect.bind
    intro _ w₁ hw
    rw [hw]
    apply wp_forever (fun _ w' => w' = w) rfl
    intro attempts w₂ h
    rw [h]
    apply wp_safe (by intro config; exact nofun)
    intro connected_ w₃ _ h₃
    rw [h₃]
    split
    · apply wp_safe (by intro config; exact nofun)
      intro _ w₄ _ h₄
      exact wp_ret.mpr h₄
    · exact wp_ret.mpr hQ
  · exact wp_ret.mpr hQ

/-- `connect` sets no configuration: where the driver is initialised it has a mode. -/
theorem connectWith_stores (reconfigure : Code Bool) :
    Stores ssid password (connectWith reconfigure) w := by
  have hready : wp saving (SetsExactly ssid password) (ensure_wifi_ready reconfigure)
      (fun _ _ => True) w := by
    unfold ensure_wifi_ready WifiBase.is_initialized
    rw [wp_bind]
    apply wp_safe (by intro config; exact nofun)
    intro r w₁ hr h₁
    apply wp_ret.mpr
    split
    · next hok =>
      -- the mode is the same when it is asked for again
      have hinit : r.1 = .ok ∧ r.2 ≠ .null := by simpa using hok
      apply wp_safe (by intro config; exact nofun)
      intro r' w₂ hr' h₂
      rw [h₁] at hr'
      have hmode : if w.initialized then r.1 = .ok ∧ r.2 = w.mode else r.1 ≠ .ok := hr
      have hmode' : if w.initialized then r'.1 = .ok ∧ r'.2 = w.mode else r'.1 ≠ .ok := hr'
      split at hmode
      · next hinitialized =>
        rw [if_pos hinitialized] at hmode'
        have hnull : ¬(r'.1 ≠ .ok ∨ r'.2 = .null) := by
          rw [hmode'.1, hmode'.2, ← hmode.2]
          simp [hinit.2]
        dsimp only
        rw [if_neg hnull]
        apply wp_safe (by intro config; exact nofun)
        intro err w₃ _ _
        exact wp_ret.mpr trivial
      · exact absurd hinit.1 hmode
    · exact wp_ret.mpr trivial
  unfold Stores connectWith
  apply hready.bind
  intro ready w₁ _
  split
  · apply wp_safe (by intro config; exact nofun)
    intro _ w₂ _ _
    apply wp_safe (by intro config; exact nofun)
    intro _ w₃ _ _
    apply wp_safe (by intro config; exact nofun)
    intro err w₄ _ _
    exact wp_ret.mpr trivial
  · exact wp_ret.mpr trivial

theorem connect_stores (depth : Nat) (config_ : Config) :
    Stores ssid password (connect depth config_) w := by
  cases depth with
  | zero => exact connectWith_stores _
  | succ depth => exact connectWith_stores _

/-! ## `WifiSta::reconfigure` -/

theorem configure_stores {wifi_config : StaConfig} (phy_rate : Nat)
    (hexact : (WifiConfig.sta wifi_config).Exact ssid password) :
    wp saving (SetsExactly ssid password) (configure wifi_config phy_rate) (fun _ _ => True) w := by
  unfold configure
  apply wp_safe (by intro config; exact nofun)
  intro r w₁ _ _
  rw [wp_bind]
  apply switchMode_stores
  intro switched w₂
  split
  · apply wp_ask hexact
    intro err w₃ _
    split
    · apply wp_safe (by intro config; exact nofun)
      intro _ w₄ _ _
      exact wp_ret.mpr trivial
    · exact wp_ret.mpr trivial
  · exact wp_ret.mpr trivial

/-- With an SSID, `reconfigure` stores strings that fit. -/
theorem reconfigure_stores_iff (depth : Nat) {config : Config} (hssid : config.ssid ≠ []) :
    Stores config.ssid config.password (reconfigure depth config) w ↔
      Fit config.ssid config.password := by
  constructor
  · intro h
    -- a station that is not connected copies first
    have hcopy := wp_answer (r := false) h ⟨trivial, rfl⟩
    have hleave := wp_bind.mp hcopy
    unfold leave at hleave
    rw [if_neg Bool.false_ne_true] at hleave
    have hleft := wp_ret.mp hleave
    have hcredentials := wp_bind.mp hleft
    unfold credentials at hcredentials
    rw [if_neg hssid] at hcredentials
    exact cleared_fit hcredentials
  · intro hfit
    unfold Stores reconfigure reconfigureWith
    apply wp_safe (by intro config; exact nofun)
    intro was_connected w₁ _ _
    rw [wp_bind]
    apply leave_stores
    unfold credentials
    rw [if_neg hssid, Buffer.store?_zero _ hfit.1, Buffer.store?_zero _ hfit.2]
    have hexact : (WifiConfig.sta (target config ⟨(Buffer.zeroed 32).overlay config.ssid,
        (Buffer.zeroed 64).overlay config.password, 0, false, .zeroed 6⟩)).Exact
        config.ssid config.password :=
      ⟨zeroed_overlay hfit.1, zeroed_overlay hfit.2⟩
    apply (configure_stores config.phy_rate hexact).bind
    intro configured w₂ _
    split
    · split
      · exact connect_stores depth config
      · exact wp_ret.mpr trivial
    · exact wp_ret.mpr trivial

/-! ## `WifiSta::connect(ssid, password)` -/

/-- What is saved has only zeros behind the new strings. -/
def Clears (saved : StaConfig) (ssid password : Bytes) : Prop :=
  (∀ c ∈ saved.ssid.bytes.drop ssid.length, c = 0) ∧
    ∀ c ∈ saved.password.bytes.drop password.length, c = 0

theorem withCredentials_exact_iff (saved : StaConfig) (hssid : ssid.length ≤ 32)
    (hpassword : password.length ≤ 64) :
    ∃ config, withCredentials saved ssid password = some config ∧
      ((WifiConfig.sta config).Exact ssid password ↔ Clears saved ssid password) := by
  have hstored : withCredentials saved ssid password =
      some { saved with
        ssid := saved.ssid.overlay ssid, password := saved.password.overlay password } := by
    unfold withCredentials
    rw [Buffer.store?_zero _ hssid]
    by_cases hempty : password = []
    · -- no password: the saved one is kept
      have hkept : saved.password.overlay password = saved.password := by
        apply Buffer.ext
        rw [Buffer.overlay_bytes hpassword, hempty]
        rfl
      rw [hkept]
      simp [hempty]
    · rw [Buffer.store?_zero _ hpassword]
      simp [hempty]
  exact ⟨_, hstored, and_congr (overlay_eq_padded hssid) (overlay_eq_padded hpassword)⟩

theorem withCredentials_eq_none {saved : StaConfig} (hlong : ¬Fit ssid password) :
    withCredentials saved ssid password = none := by
  unfold withCredentials
  by_cases hssid : ssid.length ≤ 32
  · obtain ⟨hpassword, hne⟩ := long_password hlong hssid
    rw [Buffer.store?_zero _ hssid, Buffer.store?_eq_none (b := saved.password) (by omega)]
    simp [hne]
  · rw [Buffer.store?_eq_none (by omega)]
    rfl

/-- `connect(ssid, password)` refuses an empty SSID; others it stores where they fit and cover what is
saved. -/
theorem connect_ssid_stores_iff (depth : Nat) (config_ : Config) :
    Stores ssid password (connect_ssid depth config_ ssid password) w ↔
      ssid = [] ∨ Fit ssid password ∧ Clears w.sta ssid password := by
  unfold Stores connect_ssid
  by_cases hssid : ssid = []
  · rw [if_pos hssid]
    exact ⟨fun _ => .inl hssid, fun _ => wp_ret.mpr trivial⟩
  · rw [if_neg hssid]
    constructor
    · intro h
      right
      -- the saved configuration is returned
      have hsaved := wp_bind.mp h
      unfold get_saved_config at hsaved
      have hanswer := wp_answer (r := ((.ok, w.sta) : Err × StaConfig)) hsaved
        ⟨fun _ => rfl, rfl⟩
      have hcopy := wp_ret.mp hanswer
      by_cases hfit : Fit ssid password
      · obtain ⟨config, hconfig, hiff⟩ := withCredentials_exact_iff w.sta hfit.1 hfit.2
        rw [if_pos rfl] at hcopy
        dsimp only at hcopy
        rw [hconfig] at hcopy
        have hset := (wp_call.mp hcopy).1
        exact ⟨hfit, hiff.mp hset⟩
      · rw [if_pos rfl] at hcopy
        exact absurd hcopy (not_fits (withCredentials_eq_none hfit))
    · intro h
      obtain ⟨hfit, hclears⟩ := h.resolve_left hssid
      unfold get_saved_config
      rw [wp_bind]
      apply wp_safe (by intro config; exact nofun)
      intro r w₁ hr _
      apply wp_ret.mpr
      by_cases hok : r.1 = .ok
      · have hsaved : r.2 = w.sta := hr hok
        obtain ⟨config, hconfig, hiff⟩ := withCredentials_exact_iff w.sta hfit.1 hfit.2
        rw [if_pos hok, hsaved]
        dsimp only
        rw [hconfig]
        apply wp_ask (hiff.mpr hclears)
        intro err w₂ _
        split
        · exact connect_stores depth config_
        · exact wp_ret.mpr trivial
      · rw [if_neg hok]
        exact wp_ret.mpr trivial

end WifiSta

/-! ## Access points -/

namespace WifiAp

theorem ssid_len_exact (hssid : ssid.length ≤ 32) : (UInt8.ofNat ssid.length).toNat = ssid.length := by
  rw [UInt8.toNat_ofNat']
  omega

theorem stop_stores {Q : Bool → Saved → Prop} (hQ : ∀ b w, Q b w) :
    wp saving (SetsExactly ssid password) stop Q w := by
  unfold stop
  apply wp_safe (by intro config; exact nofun)
  intro r w₁ _ _
  dsimp only
  split
  · apply wp_safe (by intro config; exact nofun)
    intro err w₂ _ _
    exact wp_ret.mpr (hQ _ _)
  · apply wp_safe (by intro config; exact nofun)
    intro err w₂ _ _
    exact wp_ret.mpr (hQ _ _)

theorem configure_stores {wifi_config : ApConfig} (phy_rate : Nat)
    (hexact : (WifiConfig.ap wifi_config).Exact ssid password) :
    wp saving (SetsExactly ssid password) (configure wifi_config phy_rate) (fun _ _ => True) w := by
  unfold configure
  apply wp_safe (by intro config; exact nofun)
  intro r w₁ _ _
  rw [wp_bind]
  apply switchMode_stores
  intro switched w₂
  split
  · apply wp_ask hexact
    intro err w₃ _
    split
    · apply wp_safe (by intro config; exact nofun)
      intro err w₄ _ _
      exact wp_ret.mpr trivial
    · exact wp_ret.mpr trivial
  · exact wp_ret.mpr trivial

/-- An access point can be stopped. -/
theorem halt_runs (was_running : Bool) (w : Saved) :
    ∃ w', Exec saving (halt was_running) w (.returned ()) w' := by
  unfold halt
  split
  · obtain ⟨r, hr⟩ := get_mode_answers w
    by_cases hboth : r.1 = .ok ∧ r.2 = .apsta
    · refine ⟨{ w with mode := .sta }, Exec.call hr ?_⟩
      dsimp only [Prog.bind]
      rw [if_pos hboth]
      exact Exec.call (r := .ok) ⟨trivial, rfl⟩ .ret
    · refine ⟨w, Exec.call hr ?_⟩
      dsimp only [Prog.bind]
      rw [if_neg hboth]
      exact Exec.call (r := .ok) ⟨trivial, rfl⟩ .ret
  · exact ⟨w, .ret⟩

theorem halt_stores {Q : Unit → Saved → Prop} (was_running : Bool) (hQ : ∀ w, Q () w) :
    wp saving (SetsExactly ssid password) (halt was_running) Q w := by
  unfold halt
  split
  · rw [wp_bind]
    apply stop_stores
    intro _ w₁
    exact wp_ret.mpr (hQ w₁)
  · exact wp_ret.mpr (hQ w)

theorem reconfigure_stores_iff (config : Config) :
    Stores config.ssid config.password (reconfigure config) w ↔ Fit config.ssid config.password := by
  constructor
  · intro h
    -- One run is enough for this direction: the access point is stopped and the copy begins.
    obtain ⟨r, hr⟩ := get_mode_answers w
    have hhalt := wp_answer (r := r) h hr
    obtain ⟨w₁, hrun⟩ := halt_runs (decide (r.1 = .ok ∧ (r.2 = .ap ∨ r.2 = .apsta))) w
    have hcopy := wp_bind.mp ((wp_bind.mp hhalt).returned hrun)
    unfold wifiConfig at hcopy
    -- The strings are copied into arrays without a check, so a run without a fault had room.
    exact cleared_fit hcopy
  · intro hfit
    unfold Stores reconfigure
    apply wp_safe (by intro config; exact nofun)
    intro r w₁ _ _
    rw [wp_bind]
    apply halt_stores
    intro w₂
    unfold wifiConfig
    rw [Buffer.store?_zero _ hfit.1, Buffer.store?_zero _ hfit.2]
    rw [wp_bind]
    apply wp_ret.mpr
    apply (configure_stores config.phy_rate
      ⟨zeroed_overlay hfit.1, zeroed_overlay hfit.2, ssid_len_exact hfit.1⟩).bind
    -- What is left starts the driver and sets nothing.
    intro configured w₃ _
    split
    · split
      · exact start_stores
      · exact wp_ret.mpr trivial
    · exact wp_ret.mpr trivial

theorem withCredentials_exact (saved : ApConfig) (hfit : Fit ssid password) :
    ∃ config, withCredentials saved ssid password = some config ∧
      (WifiConfig.ap config).Exact ssid password := by
  unfold withCredentials
  rw [Buffer.store?_zero _ hfit.1]
  by_cases hempty : password = []
  · refine ⟨_, if_pos hempty, zeroed_overlay hfit.1, ?_, ssid_len_exact hfit.1⟩
    rw [hempty]
    exact zeroed_padded 64
  · rw [Buffer.store?_zero _ hfit.2]
    exact ⟨_, if_neg hempty, zeroed_overlay hfit.1, zeroed_overlay hfit.2, ssid_len_exact hfit.1⟩

theorem withCredentials_eq_none {saved : ApConfig} (hlong : ¬Fit ssid password) :
    withCredentials saved ssid password = none := by
  unfold withCredentials
  by_cases hssid : ssid.length ≤ 32
  · obtain ⟨hpassword, hne⟩ := long_password hlong hssid
    have hnone : (Buffer.zeroed 64).store? 0 password = none := Buffer.store?_eq_none (by omega)
    rw [Buffer.store?_zero _ hssid, hnone]
    exact if_neg hne
  · have hnone : (Buffer.zeroed 32).store? 0 ssid = none := Buffer.store?_eq_none (by omega)
    rw [hnone]
    rfl

theorem set_ssid_and_password_stores_iff :
    Stores ssid password (set_ssid_and_password ssid password) w ↔ Fit ssid password := by
  unfold Stores set_ssid_and_password
  constructor
  · intro h
    have hcopy := wp_answer (r := (.ok, w.ap)) h ⟨fun _ => rfl, rfl⟩
    by_contra hlong
    dsimp only at hcopy
    rw [if_pos rfl] at hcopy
    exact not_fits (withCredentials_eq_none hlong) hcopy
  · intro hfit
    apply wp_safe (by intro config; exact nofun)
    intro r w₁ hr _
    dsimp only
    split
    · obtain ⟨config, hconfig, hexact⟩ := withCredentials_exact r.2 hfit
      rw [hconfig]
      apply wp_ask hexact
      intro err w₂ _
      exact wp_ret.mpr trivial
    · exact wp_ret.mpr trivial

end WifiAp

/-- Which strings are stored exactly, for every configuration that is saved. -/
theorem credentials_stored_iff (w : Saved) (depth : Nat) (config_ : WifiSta.Config) :
    (∀ config : WifiSta.Config, config.ssid ≠ [] →
      (Stores config.ssid config.password (WifiSta.reconfigure depth config) w ↔
        Fit config.ssid config.password)) ∧
    (∀ ssid password, Stores ssid password (WifiSta.connect_ssid depth config_ ssid password) w ↔
      ssid = [] ∨ Fit ssid password ∧ WifiSta.Clears w.sta ssid password) ∧
    (∀ config : WifiAp.Config,
      Stores config.ssid config.password (WifiAp.reconfigure config) w ↔
        Fit config.ssid config.password) ∧
    ∀ ssid password, Stores ssid password (WifiAp.set_ssid_and_password ssid password) w ↔
      Fit ssid password :=
  ⟨fun _ hssid => WifiSta.reconfigure_stores_iff depth hssid,
    fun _ _ => WifiSta.connect_ssid_stores_iff depth config_,
    fun config => WifiAp.reconfigure_stores_iff config,
    fun _ _ => WifiAp.set_ssid_and_password_stores_iff⟩

/-- The network `home` with the password `secret`. -/
def savedHome : Saved where
  initialized := true
  mode := .sta
  sta := ⟨(Buffer.zeroed 32).overlay (ascii "home"), (Buffer.zeroed 64).overlay (ascii "secret"), 0,
    false, .zeroed 6⟩
  ap := ⟨.zeroed 32, .zeroed 64, 0, 1, .isOpen, 4⟩

/-- To `connect` to an open network the saved password is kept. -/
theorem not_credentials_stored :
    ¬∀ w depth config_ ssid password,
      Stores ssid password (WifiSta.connect_ssid depth config_ ssid password) w := by
  intro hall
  have h := (WifiSta.connect_ssid_stores_iff 1 .default).mp
    (hall savedHome 1 .default (ascii "cafe") [])
  rcases h with hnil | ⟨-, -, hclears⟩
  · exact absurd hnil (by decide)
  · exact absurd (hclears 115 (by decide +kernel)) (by decide)

end WiFi
