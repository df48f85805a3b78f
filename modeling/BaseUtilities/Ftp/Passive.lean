import BaseUtilities.Ftp.Commands

/-!
# The address of a passive reply

`openPort` connects where the text of the reply to `PASV` says, and where a text names no address it
makes one up.
-/

open Effects Mem

namespace Ftp

/-! ## `openPort` -/

/-- `openPort` from `socket` on. -/
def openAt (nControl : NetBuf) (sa : SockAddr) (mode : Mode) (dir : Dir) :
    Client (NetBuf × Option NetBuf) := do
  match ← Sys.socket with
  | none => return (nControl, none)
  | some sData =>
    let (nControl, ok) ← portConnect nControl sData sa
    if !ok then
      return (nControl, none)
    else
      return (nControl, ← portData nControl sData mode dir)

/-- `openPort` in passive mode, where `PASV` has been answered. -/
def openPassive (nControl : NetBuf) (mode : Mode) (dir : Dir) : Client (NetBuf × Option NetBuf) := do
  let text ← Prog.ofOption nControl.response.cstr?
  match strchr 40 text with
  | none => return (nControl, none)
  | some cp =>
    let v ← Sys.uninit
    openAt nControl ((scanFields [2, 3, 4, 5, 0, 1] (cp.drop 1) v).map UInt32.toUInt8) mode dir

theorem openPort_passive {nControl : NetBuf} {mode : Mode} {dir : Dir} (hcontrol : nControl.dir = .control)
    (hpassive : nControl.cmode = .passive) (hdir : dir ≠ .control) (hmode : mode = .ascii ∨ mode = .image) :
    openPort nControl mode dir = sendCommand (ascii "PASV") 50 nControl >>= fun r =>
      if r.1 = 0 then return (r.2, none) else openPassive r.2 mode dir := by
  have hmode' : ¬(mode ≠ .ascii ∧ mode ≠ .image) := by
    rcases hmode with rfl | rfl <;> simp
  unfold openPort portAddress
  rw [if_neg (not_not.mpr hcontrol), if_neg hdir, if_neg hmode', hpassive]
  dsimp only
  rw [Prog.bind_bind]
  congr 1
  funext r
  split
  · rfl
  · unfold openPassive
    cases r.2.response.cstr? with
    | none => rfl
    | some text =>
      dsimp only [Prog.ofOption_some, Prog.ret_bind]
      cases strchr 40 text with
      | none => rfl
      | some cp => rfl

/-! ## Where it connects -/

section

variable {nControl : NetBuf} {mode : Mode} {dir : Dir} {text : Bytes} {sa : SockAddr} {t : FtpTrace}

/-- A socket has been made. -/
def HasSocket (t : FtpTrace) : Prop := ∃ fd, (⟨.socket, some fd⟩ : FtpEvent) ∈ t

/-- It has been connected to `sa`, successfully or not. -/
def Dialled (sa : SockAddr) (t : FtpTrace) : Prop := ∃ fd ok, (⟨.connect fd sa, ok⟩ : FtpEvent) ∈ t

/-- `connect` is asked for an address that the text names. -/
def Named (text : Bytes) (stop : Stop Op) : Prop :=
  ∀ fd sa, stop = .asking (.connect fd sa) → ∃ addr port, Names text addr port ∧ sa = sockAddr port addr

/-- What is asked of `p`, which goes on from the reply `text`: it connects where the text says,
as soon as it has a socket, and where the text names no address it returns without a connection. -/
def Decodes (text : Bytes) (p : Client (NetBuf × Option NetBuf)) : Prop :=
  wp recording (fun stop _ => Named text stop) p
    (fun r t => (∀ addr port, Names text addr port → HasSocket t → Dialled (sockAddr port addr) t) ∧
      ((¬∃ addr port, Names text addr port) → r.2 = none)) []

theorem Dialled.append (h : Dialled sa t) (e : FtpEvent) : Dialled sa (t ++ [e]) := by
  obtain ⟨fd, ok, hmem⟩ := h
  exact ⟨fd, ok, List.mem_append_left _ hmem⟩

theorem wp_dialled {α : Type} {op : Op} {f : Op.Res op → Client α} {Q : α → FtpTrace → Prop}
    (hop : ∀ fd sa, op ≠ .connect fd sa) (h : Dialled sa t)
    (hf : ∀ r t, Dialled sa t → wp recording (fun stop _ => Named text stop) (f r) Q t) :
    wp recording (fun stop _ => Named text stop) (Prog.perform op >>= f) Q t := by
  refine wp_ask (fun fd sa' hstop => ?_) fun r t' hr => ?_
  · cases hstop
    exact absurd rfl (hop fd sa')
  · obtain ⟨-, rfl⟩ := hr
    exact hf r _ (h.append _)

theorem portData_dialled (sData : Nat) (h : Dialled sa t) :
    wp recording (fun stop _ => Named text stop) (portData nControl sData mode dir)
      (fun _ t => Dialled sa t) t := by
  unfold portData
  refine wp_dialled (fun _ _ => nofun) h fun allocated t h => ?_
  split
  · exact wp_dialled (fun _ _ => nofun) h fun _ _ h => wp_ret.mpr h
  · split
    · refine wp_dialled (fun _ _ => nofun) h fun buf t h => ?_
      cases buf with
      | none => exact wp_dialled (fun _ _ => nofun) h fun _ _ h => wp_ret.mpr h
      | some buf => exact wp_ret.mpr h
    · exact wp_ret.mpr h

/-- With an address that the text names, `openPort` connects there. -/
theorem openAt_dialled {addr : Vector UInt8 4} {port : UInt16} (hpassive : nControl.cmode = .passive)
    (hnames : Names text addr port) (ht : ¬HasSocket t) :
    wp recording (fun stop _ => Named text stop) (openAt nControl (sockAddr port addr) mode dir)
      (fun _ t => HasSocket t → Dialled (sockAddr port addr) t) t := by
  unfold openAt portConnect
  refine wp_ask (fun _ _ => nofun) fun sData t' hr => ?_
  obtain ⟨-, rfl⟩ := hr
  -- Without a socket nothing is opened, and `text` need not be dialled.
  cases sData with
  | none =>
    refine wp_ret.mpr fun hopened => ?_
    obtain ⟨fd, hmem⟩ := hopened
    rw [List.mem_append, List.mem_singleton] at hmem
    rcases hmem with hmem | heq
    · exact absurd ⟨fd, hmem⟩ ht
    · cases heq
  | some sData =>
    rw [hpassive]
    dsimp only
    rw [Prog.bind_bind]
    refine wp_ask ?_ fun connected t' hr => ?_
    · intro fd sa hstop
      cases hstop
      exact ⟨addr, port, hnames, rfl⟩
    · obtain ⟨-, rfl⟩ := hr
      have hdialled : Dialled (sockAddr port addr) (t ++ [⟨.socket, some sData⟩] ++
          [⟨.connect sData (sockAddr port addr), connected⟩]) :=
        ⟨sData, connected, List.mem_append_right _ List.mem_cons_self⟩
      -- Connected or not, the address has been dialled; a socket that failed is closed.
      cases connected with
      | true =>
        exact (portData_dialled sData hdialled).bind fun _ _ h => wp_ret.mpr fun _ => h
      | false =>
        show wp _ _ (Sys.closesocket sData >>= fun _ => Prog.ret (nControl, none)) _ _
        exact wp_dialled (fun _ _ => nofun) hdialled fun _ _ h => wp_ret.mpr fun _ => h

theorem strchr_none {c : UInt8} {s : Bytes} : strchr c s = none ↔ c ∉ s := by
  induction s with
  | nil => simp [strchr]
  | cons b s ih =>
    rw [strchr, List.mem_cons, not_or]
    split
    · next hb => simp [hb]
    · next hb =>
      rw [ih]
      exact ⟨fun h => ⟨Ne.symm hb, h⟩, And.right⟩

/-- Where the text names no address, an address is made up from what is there. -/
theorem not_decodes {cp : Bytes} (hcstr : nControl.response.cstr? = some text)
    (hpassive : nControl.cmode = .passive) (hcp : strchr 40 text = some cp)
    (hnames : ¬∃ addr port, Names text addr port) : ¬Decodes text (openPassive nControl mode dir) := by
  intro h
  unfold Decodes openPassive openAt portConnect at h
  rw [hcstr, hpassive] at h
  dsimp only [Prog.ofOption_some, Prog.ret_bind] at h
  rw [hcp] at h
  have hv := (wp_call.mp h).2 (Vector.replicate 6 0) _ ⟨trivial, rfl⟩
  have hsocket := (wp_call.mp hv).2 (some 3) _ ⟨trivial, rfl⟩
  obtain ⟨addr, port, hnamed, -⟩ := (wp_call.mp hsocket).1 _ _ rfl
  exact hnames ⟨addr, port, hnamed⟩

end

/-- A control connection with a last reply. -/
def repliedWith (text : Bytes) : NetBuf :=
  { newControl 3 (.zeroed _) with response := (Buffer.zeroed _).strncpy text }

theorem noPort_cstr :
    (repliedWith (ascii "227 (10,0,0,1)")).response.cstr? = some (ascii "227 (10,0,0,1)") := by
  decide +kernel

end Ftp
