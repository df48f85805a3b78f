import BaseUtilities.Ftp.Sockets

/-!
# The socket ledger

The world is the collection of the descriptors that are open.  A session keeps it equal to the
descriptors of the connections that the caller holds, as long as the server's data connection is
accepted: where `acceptConnection` gives its socket up it leaves the descriptor 0 behind, and
`closeFtpClient` closes that; where a listening socket has no name nothing closes it.
-/

open Effects Mem

namespace Ftp

/-- The descriptors that `socket` and `accept` have returned and that are not closed, and those of
them that `listen` has been called on. -/
structure Ledger where
  opened : Multiset Nat
  listening : List Nat

def Ledger.empty : Ledger := ⟨0, []⟩

/-- The system returns no descriptor that is open. -/
def Ledger.Fresh (w : Ledger) (e : FtpEvent) : Prop := ∀ fd ∈ broughtFd e, fd ∉ w.opened

instance (w : Ledger) (e : FtpEvent) : Decidable (w.Fresh e) :=
  inferInstanceAs (Decidable (∀ fd ∈ broughtFd e, fd ∉ w.opened))

def Ledger.after (w : Ledger) : FtpEvent → Ledger
  | ⟨.socket, some fd⟩ => { w with opened := fd ::ₘ w.opened }
  | ⟨.accept _, (some fd, _)⟩ => { w with opened := fd ::ₘ w.opened }
  | ⟨.listen fd, true⟩ => { w with listening := fd :: w.listening }
  | ⟨.closesocket fd, _⟩ => ⟨w.opened.erase fd, w.listening.filter (· ≠ fd)⟩
  | _ => w

/-- Every outcome of every call, `may` permitting. -/
def sockets (may : Ledger → FtpEvent → Prop) : Env Op Op.Res Ledger :=
  watching (fun w e => w.Fresh e ∧ may w e) Ledger.after

/-- Only descriptors that are open are closed or shut down. -/
def Owns : Stop Op → Ledger → Prop
  | .asking (.closesocket fd), w => fd ∈ w.opened
  | .asking (.shutdown fd), w => fd ∈ w.opened
  | _, _ => True

/-- Where nothing is left to close, nothing is open. -/
def Settled (s : Handles) (w : Ledger) : Prop := s.control = none → s.datas = [] → w.opened = 0

/-- Sequences of calls, as `calls` permits. -/
def client (calls : Handles → Request → Prop) : Session Op Op.Res Request Handles Ledger :=
  ⟨Request.run, fun s _ r => calls s r⟩

/-- The ledger balances in every session: what is closed is open, and with the last connection
everything has been closed. -/
def Balanced (calls : Handles → Request → Prop) (may : Ledger → FtpEvent → Prop) : Prop :=
  (client calls).Sound (sockets may) Owns Settled .fresh .empty

/-- No data connection is used behind `quit`, which frees the control connection that it points to. -/
def Attached (s : Handles) : Request → Prop
  | .read i _ _ | .write i _ | .close i => i < s.datas.length → s.control.isSome = true
  | _ => True

instance (s : Handles) (r : Request) : Decidable (Attached s r) := by
  cases r <;> dsimp only [Attached] <;> infer_instance

/-- The data connection comes about: a listening socket has a name, and `select` and `accept` bring
the server's connection. -/
def dataConnects (w : Ledger) : FtpEvent → Bool
  | ⟨.getsockname fd, none⟩ => fd ∉ w.listening
  | ⟨.selectAccept _ _, r⟩ => !r.gaveUp
  | ⟨.accept _, (none, _)⟩ => false
  | _ => true

def DataConnects (w : Ledger) (e : FtpEvent) : Prop := dataConnects w e = true

instance (w : Ledger) (e : FtpEvent) : Decidable (DataConnects w e) :=
  inferInstanceAs (Decidable (_ = true))

/-! ## The rules -/

/-- The ledger holds the descriptors `owned`. -/
def Holds (owned : Multiset Nat) (w : Ledger) : Prop := w.opened = owned

theorem Holds.keeps {may : Ledger → FtpEvent → Prop} {op : Op} (owned : Multiset Nat)
    (hasks : ∀ w, Holds owned w → Owns (.asking op) w)
    (hafter : ∀ (w : Ledger) r, (w.after ⟨op, r⟩).opened = w.opened) :
    Keeps (sockets may) Owns (Holds owned) op where
  asks := hasks
  keeps := by
    rintro w r _ hJ ⟨-, rfl⟩
    exact (hafter w r).trans hJ

theorem Holds.mem {owned : Multiset Nat} {w : Ledger} {fd : Nat} (h : Holds (fd ::ₘ owned) w) :
    fd ∈ w.opened := by
  have hopened : w.opened = fd ::ₘ owned := h
  rw [hopened]
  exact Multiset.mem_cons_self fd owned

theorem socketRules (control : Nat) :
    SocketRules (sockets DataConnects) Owns control Holds (fun _ => True)
      (fun fd w => fd ∈ w.listening) where
  -- Of the calls that prepare a connection only `listen` is noted, and not as a descriptor.
  setup owned op h := by
    cases op with
    | listen fd => exact Holds.keeps owned (fun _ _ => trivial) (fun _ r => by cases r <;> rfl)
    | _ =>
      first
      | exact Holds.keeps owned (fun _ _ => trivial) (fun _ _ => rfl)
      | cases h
  recv owned len := Holds.keeps owned (fun _ _ => trivial) (fun _ _ => rfl)
  send owned data := Holds.keeps owned (fun _ _ => trivial) (fun _ _ => rfl)
  fault _ _ _ := trivial
  socket_asks _ _ _ := trivial
  opened := by
    rintro owned w fd _ rfl ⟨-, rfl⟩
    exact ⟨rfl, trivial⟩
  refused := by
    rintro owned w _ rfl ⟨-, rfl⟩
    exact rfl
  listens := by
    rintro owned w fd _ - ⟨-, rfl⟩
    exact List.mem_cons_self
  -- In this environment the calls that prepare a data connection succeed (`DataConnects`), so the
  -- descriptors that the source forgets on their failure are not lost.
  unnamed := by
    rintro owned w fd _ - hlistens ⟨⟨-, hmay⟩, -⟩
    exact absurd hlistens (of_decide_eq_true hmay)
  close_asks owned w fd h := h.mem
  closed := by
    rintro owned w fd r _ h ⟨-, rfl⟩
    have hopened : w.opened = fd ::ₘ owned := h
    change w.opened.erase fd = owned
    rw [hopened, Multiset.erase_cons_head]
  shutdown owned fd := Holds.keeps _ (fun _ h => h.mem) (fun _ _ => rfl)
  wait owned fd := Holds.keeps owned (fun _ _ => trivial) (fun _ _ => rfl)
  -- Neither does waiting for the server time out.
  gaveUp := by
    rintro owned w fd r _ - ⟨⟨-, hmay⟩, -⟩ hup
    have hconnects : (!r.gaveUp) = true := hmay
    rw [hup] at hconnects
    cases hconnects
  accept_asks _ _ _ _ := trivial
  accepted := by
    rintro owned w listening fd text _ rfl ⟨-, rfl⟩
    exact ⟨rfl, trivial⟩
  unaccepted := by
    rintro owned w listening text _ - ⟨⟨-, hmay⟩, -⟩
    cases hmay

theorem ledger_dataKeeps (owned : Multiset Nat) (fd : Nat) :
    DataKeeps (sockets DataConnects) Owns (Holds owned) (fun _ => True) fd where
  recv _ := Holds.keeps owned (fun _ _ => trivial) (fun _ _ => rfl)
  send _ := Holds.keeps owned (fun _ _ => trivial) (fun _ _ => rfl)
  select _ _ := Holds.keeps owned (fun _ _ => trivial) (fun _ _ => rfl)
  text _ _ _ _ _ _ _ := trivial
  idlecb _ _ _ := Holds.keeps owned (fun _ _ => trivial) (fun _ _ => rfl)
  fault _ _ := trivial

theorem ledger_fileKeeps (owned : Multiset Nat) :
    FileKeeps (sockets DataConnects) Owns (Holds owned) where
  fopen _ _ := Holds.keeps owned (fun _ _ => trivial) (fun _ _ => rfl)
  fflush _ := Holds.keeps owned (fun _ _ => trivial) (fun _ _ => rfl)
  fclose _ := Holds.keeps owned (fun _ _ => trivial) (fun _ _ => rfl)
  unlink _ := Holds.keeps owned (fun _ _ => trivial) (fun _ _ => rfl)

theorem ledger_copyKeeps (owned : Multiset Nat) :
    CopyKeeps (sockets DataConnects) Owns (Holds owned) where
  malloc _ := Holds.keeps owned (fun _ _ => trivial) (fun _ _ => rfl)
  fread _ _ := Holds.keeps owned (fun _ _ => trivial) (fun _ _ => rfl)
  fwrite _ _ := Holds.keeps owned (fun _ _ => trivial) (fun _ _ => rfl)

/-! ## Sessions -/

/-- The descriptors of what a caller holds. -/
def Handles.owned (s : Handles) : Multiset Nat :=
  (s.control.toList.map NetBuf.handle ++ s.datas.map NetBuf.handle : List Nat)

theorem Handles.owned_some (c : NetBuf) (datas : List NetBuf) :
    Handles.owned ⟨some c, datas⟩ = c.handle ::ₘ Handles.owned ⟨none, datas⟩ := rfl

theorem Handles.owned_append (control : Option NetBuf) (datas : List NetBuf) (d : NetBuf) :
    Handles.owned ⟨control, datas ++ [d]⟩ = d.handle ::ₘ Handles.owned ⟨control, datas⟩ := by
  simp only [Handles.owned, List.map_append, List.map_cons, List.map_nil, ← List.append_assoc]
  exact Multiset.coe_eq_coe.mpr (List.perm_append_singleton _ _)

theorem Handles.owned_eraseIdx (control : Option NetBuf) {datas : List NetBuf} {i : Nat}
    {d : NetBuf} (h : datas[i]? = some d) :
    Handles.owned ⟨control, datas⟩ = d.handle ::ₘ Handles.owned ⟨control, datas.eraseIdx i⟩ := by
  obtain ⟨hi, rfl⟩ := List.getElem?_eq_some_iff.mp h
  have hperm := (List.getElem_cons_eraseIdx_perm hi).map NetBuf.handle
  exact Multiset.coe_eq_coe.mpr (((hperm.symm.append_left _).trans List.perm_middle))

theorem Handles.owned_set (control : Option NetBuf) {datas : List NetBuf} {i : Nat} {d d' : NetBuf}
    (h : datas[i]? = some d) (hd : d'.handle = d.handle) :
    Handles.owned ⟨control, datas.set i d'⟩ = Handles.owned ⟨control, datas⟩ := by
  obtain ⟨hi, rfl⟩ := List.getElem?_eq_some_iff.mp h
  have hset : (datas.set i d').map NetBuf.handle = datas.map NetBuf.handle := by
    rw [List.map_set, hd, ← List.getElem_map NetBuf.handle (h := by simpa using hi),
      List.set_getElem_self]
  simp only [Handles.owned, hset]

/-- Between calls the ledger is what the caller holds. -/
structure Held (s : Handles) (w : Ledger) : Prop where
  opened : Holds s.owned w
  dir : ∀ c, s.control = some c → c.dir = .control

theorem Held.of_same {c c' : NetBuf} {datas : List NetBuf} {w : Ledger}
    (hdir : c.dir = .control) (hsame : c.Same c') (hJ : Holds (Handles.owned ⟨some c, datas⟩) w) :
    Held ⟨some c', datas⟩ w where
  opened := by
    rw [Handles.owned_some, hsame.handle_eq]
    exact hJ
  dir := by
    rintro _ ⟨⟩
    exact hsame.dir_eq.trans hdir

theorem Configure.apply_frame (c : Configure) (nControl : NetBuf) :
    (c.apply nControl).handle = nControl.handle ∧ (c.apply nControl).dir = nControl.dir := by
  cases c with
  | setOptions opt => cases opt <;> first | exact ⟨rfl, rfl⟩ | (rename_i m; cases m <;> exact ⟨rfl, rfl⟩)
  | setCallback opt => exact ⟨rfl, rfl⟩
  | clearCallback => exact ⟨rfl, rfl⟩

section

variable {s : Handles} {w : Ledger}

theorem onData_held (h : Held s w) (i : Nat) (f : NetBuf → NetBuf → Client (NetBuf × NetBuf))
    (hf : ∀ nData nControl w, Holds s.owned w →
      wp (sockets DataConnects) Owns (f nData nControl)
        (fun r w => Holds s.owned w ∧ nData.Counted r.1 ∧ nControl.Same r.2) w) :
    wp (sockets DataConnects) Owns (Request.onData s i f) Held w := by
  rw [Request.onData]
  split
  · exact wp_ret.mpr h
  next nData hi =>
  refine (hf nData _ w h.opened).bind ?_
  rintro ⟨nData', nControl⟩ w ⟨hJ, hcounted, hsame⟩
  refine wp_ret.mpr ?_
  obtain ⟨control, datas⟩ := s
  have hJ' : Holds (Handles.owned ⟨control, datas.set i nData'⟩) w := by
    rwa [Handles.owned_set control hi hcounted.handle_eq]
  cases control with
  | none => exact ⟨hJ', fun _ hc => by cases hc⟩
  | some c => exact .of_same (h.dir c rfl) hsame hJ'

theorem closeData_held (h : Held s w) {i : Nat} (hattached : Attached s (.close i)) :
    wp (sockets DataConnects) Owns (Request.closeData s i) Held w := by
  rw [Request.closeData]
  split
  · exact wp_ret.mpr h
  next nData hi =>
  obtain ⟨control, datas⟩ := s
  have hJ := h.opened
  rw [Handles.owned_eraseIdx control hi] at hJ
  have hr := socketRules
  cases control with
  | none => cases hattached (List.getElem?_eq_some_iff.mp hi).1
  | some c =>
    refine (closeFtpClient_spec (hr c.handle) nData (h.dir c rfl) hJ).bind ?_
    rintro ⟨_, c'⟩ w ⟨hsame, hJ⟩
    exact wp_ret.mpr (.of_same (h.dir c rfl) hsame hJ)

theorem onControl_held {c : NetBuf} (h : Held s w) (hc : s.control = some c) (r : Request) :
    wp (sockets DataConnects) Owns (Request.onControl c s r) Held w := by
  obtain ⟨_, datas⟩ := s
  obtain rfl : _ = some c := hc
  have hdir := h.dir c rfl
  have hr := socketRules c.handle
  -- One case for each request; every function is given back the descriptors it was called with.
  cases r with
  | quit =>
    have hJ := h.opened
    rw [Handles.owned_some] at hJ
    refine (quitFtpClient_spec hr hdir hJ).bind fun _ w hJ => wp_ret.mpr ?_
    exact ⟨hJ, fun _ hc => by cases hc⟩
  | configure conf =>
    obtain ⟨hhandle, hdir'⟩ := conf.apply_frame c
    refine wp_ret.mpr ⟨?_, ?_⟩
    · change Holds (Handles.owned ⟨some (conf.apply c), datas⟩) w
      rw [Handles.owned_some, hhandle]
      exact h.opened
    · rintro _ ⟨⟩
      exact hdir'.trans hdir
  | command cmd =>
    refine (cmd.run_keeps (hr.sendKeeps _) (fun _ _ => trivial) ⟨.refl c, h.opened⟩).bind ?_
    rintro c' w ⟨hsame, hJ⟩
    exact wp_ret.mpr (.of_same hdir hsame hJ)
  | transfer t =>
    have hxfer : ∀ localfile path typ mode, wp (sockets DataConnects) Owns
        (xfer localfile path c typ mode)
        (fun r w => c.Same r.2 ∧ Holds (Handles.owned ⟨some c, datas⟩) w) w :=
      fun localfile path typ mode =>
        xfer_spec hr ledger_dataKeeps ledger_fileKeeps ledger_copyKeeps localfile path typ mode
          hdir h.opened
    have hrun : wp (sockets DataConnects) Owns (t.run c)
        (fun c' w => c.Same c' ∧ Holds (Handles.owned ⟨some c, datas⟩) w) w := by
      cases t <;> exact (hxfer _ _ _ _).bind fun _ _ h => wp_ret.mpr h
    exact hrun.bind fun _ _ h' => wp_ret.mpr (.of_same hdir h'.1 h'.2)
  | access path typ mode =>
    refine (accessFtpClient_spec hr path typ mode hdir h.opened).bind ?_
    rintro ⟨c', nData⟩ w ⟨⟨hsame, hpost⟩, -⟩
    -- A data connection that was opened is one more descriptor that the client holds.
    cases nData with
    | none =>
      simp only [Option.toList_none, List.append_nil]
      exact wp_ret.mpr (.of_same hdir hsame hpost)
    | some d =>
      refine wp_ret.mpr (.of_same hdir hsame ?_)
      rw [Option.toList_some, Handles.owned_append]
      exact hpost.1
  | _ => exact wp_ret.mpr h

theorem run_held (h : Held s w) (r : Request) (hattached : Attached s r) :
    wp (sockets DataConnects) Owns (r.run s) Held w := by
  have hdata := ledger_dataKeeps s.owned
  rw [Request.run.eq_def]
  split
  · refine onData_held h _ _ fun nData nControl w hJ => ?_
    refine (readFtpClient_frame _ nControl (hdata nData.handle) hJ).bind fun r w h => ?_
    exact wp_ret.mpr ⟨h.1, h.2.1, h.2.2.same⟩
  · refine onData_held h _ _ fun nData nControl w hJ => ?_
    refine (writeFtpClient_frame _ nControl (hdata nData.handle) hJ).bind ?_
    rintro ⟨_, nData', nControl'⟩ w ⟨hJ, hcounted, hnoted⟩
    exact wp_ret.mpr ⟨hJ, hcounted, hnoted.same⟩
  · exact closeData_held h hattached
  · next hnone =>
    split
    · next hdatas =>
      obtain ⟨_, _⟩ := s
      obtain rfl := hnone
      obtain rfl := hdatas
      refine (connectFtpClient_spec socketRules _ _ h.opened).bind fun c w hpost => wp_ret.mpr ?_
      cases c with
      | none => exact ⟨hpost, fun _ hc => by cases hc⟩
      | some c => exact .of_same hpost.2 (.refl c) hpost.1
    · exact wp_ret.mpr h
  · next c _ _ _ hc => exact onControl_held h hc _
  · exact wp_ret.mpr h

end

/-- As long as data connections come about and none is used behind `quit`, the ledger balances in every
session. -/
theorem balanced_of_dataConnects (s : Handles) (w : Ledger)
    (hreach : (client Attached).Reaches (sockets DataConnects) .fresh .empty s w) :
    Settled s w ∧
      ∀ r, Attached s r → wp (sockets DataConnects) Owns (r.run s) (fun _ _ => True) w := by
  have hbalanced : Balanced Attached DataConnects := by
    refine Session.sound Held ⟨rfl, fun _ hc => by cases hc⟩ (fun s w r h hr => run_held h r hr) ?_
    rintro ⟨_, _⟩ w h rfl rfl
    exact h.opened
  exact hbalanced s w hreach

/-- Connect, choose active mode, open a data connection for a listing. -/
def activeListing : List Request :=
  [.connect (ascii "ftp") 21, .configure (.setOptions (.connmode (some .active))),
    .access none .dir .image]

theorem ok_fits : (ascii "200 ok\r\n").length ≤ BUFFER_SIZE := by decide

/-- The answers to it up to the listening socket 4. -/
def listenAnswers : FtpTrace :=
  [⟨.inetAddr (ascii "ftp"), #v[10, 0, 0, 1]⟩,
    ⟨.socket, some 3⟩,
    ⟨.connect 3 (sockAddr 21 #v[10, 0, 0, 1]), true⟩,
    ⟨.calloc, true⟩,
    ⟨.malloc BUFFER_SIZE, some (.zeroed _)⟩,
    ⟨.recv 3 BUFFER_SIZE, some ⟨ascii "220 ready\r\n", by decide⟩⟩,
    ⟨.send 3 (ascii "TYPE I\r\n"), some ⟨8, by decide⟩⟩,
    ⟨.recv 3 BUFFER_SIZE, some ⟨ascii "200 ok\r\n", ok_fits⟩⟩,
    ⟨.getsockname 3, some (sockAddr 1024 #v[10, 0, 0, 2])⟩,
    ⟨.socket, some 4⟩,
    ⟨.bind 4 (sockAddr 0 #v[10, 0, 0, 2]), true⟩,
    ⟨.listen 4, true⟩]

/-- The server connects to it, and the caller closes the data connection 5. -/
def acceptAnswers : FtpTrace :=
  [⟨.getsockname 4, some (sockAddr 1025 #v[10, 0, 0, 2])⟩,
    ⟨.send 3 (ascii "PORT 10,0,0,2,4,1\r\n"), some ⟨19, by decide⟩⟩,
    ⟨.recv 3 BUFFER_SIZE, some ⟨ascii "200 ok\r\n", ok_fits⟩⟩,
    ⟨.calloc, true⟩,
    ⟨.send 3 (ascii "NLST\r\n"), some ⟨6, by decide⟩⟩,
    ⟨.recv 3 BUFFER_SIZE, some ⟨ascii "150 here\r\n", by decide⟩⟩,
    ⟨.selectAccept 3 4, .ready true false⟩,
    ⟨.accept 4, (some 5, [])⟩,
    ⟨.closesocket 4, ()⟩,
    ⟨.shutdown 5, ()⟩,
    ⟨.closesocket 5, ()⟩,
    ⟨.recv 3 BUFFER_SIZE, some ⟨ascii "226 done\r\n", by decide⟩⟩]

/-- The end of the session. -/
def quitAnswers : FtpTrace :=
  [⟨.send 3 (ascii "QUIT\r\n"), some ⟨6, by decide⟩⟩,
    ⟨.recv 3 BUFFER_SIZE, some ⟨ascii "221 bye\r\n", by decide⟩⟩,
    ⟨.closesocket 3, ()⟩]

theorem balanced_of_dataConnects_example : ∃ s w,
    (client Attached).Reaches (sockets DataConnects) .fresh .empty s w ∧
      s.control.isNone = true ∧ s.datas.isEmpty = true ∧ Settled s w ∧
      ∀ r, Attached s r → wp (sockets DataConnects) Owns (r.run s) (fun _ _ => True) w := by
  have hallowed : Allowed (fun (w : Ledger) e => w.Fresh e ∧ DataConnects w e) Ledger.after .empty
      (listenAnswers ++ acceptAnswers ++ quitAnswers) := by
    decide +kernel
  have hreplay : ((client Attached).runAll (fun s r => decide (Attached s r))
      (activeListing ++ [.close 0, .quit]) .fresh).replays 8
        (listenAnswers ++ acceptAnswers ++ quitAnswers)
        (Outcome.returns fun s => s.control.isNone && s.datas.isEmpty) = true := by
    decide +kernel
  obtain ⟨s, hexec, hout⟩ := Prog.replays_returned hreplay (path_watching hallowed)
  obtain ⟨hcontrol, hdatas⟩ := (Bool.and_eq_true _ _).mp hout
  have hreach := Session.Reaches.start.runAll (fun _ _ _ => of_decide_eq_true) hexec
  exact ⟨s, _, hreach, hcontrol, hdatas, balanced_of_dataConnects s _ hreach⟩

/-! ## A listening socket without a name -/

/-- The answers of a system that has no name for the listening socket. -/
def unnamedAnswers : FtpTrace := listenAnswers ++ ⟨.getsockname 4, none⟩ :: quitAnswers

/-- Nothing closes a listening socket without a name. -/
theorem unnamed_leaks : ¬ Balanced (fun _ _ => True) fun _ _ => True := by
  intro h
  have hallowed : Allowed (fun (w : Ledger) e => w.Fresh e ∧ True) Ledger.after .empty
      unnamedAnswers := by
    decide +kernel
  have hreplay : ((client fun _ _ => True).runAll (fun _ _ => true)
      (activeListing ++ [.quit]) .fresh).replays 8 unnamedAnswers
      (Outcome.returns fun s => s.control.isNone && s.datas.isEmpty) = true := by
    decide +kernel
  obtain ⟨s, hexec, hout⟩ := Prog.replays_returned hreplay (path_watching hallowed)
  obtain ⟨hcontrol, hdatas⟩ := (Bool.and_eq_true _ _).mp hout
  have hreach := Session.Reaches.start.runAll (fun _ _ _ _ => trivial) hexec
  have hzero := (h _ _ hreach).1 (by simpa using hcontrol) (by simpa using hdatas)
  exact absurd hzero (by decide +kernel)

end Ftp
