import BaseUtilities.Ftp.Hearing
import BaseUtilities.Ftp.Transfers

/-!
# Logging in

What `loginFtpClient` reports of the server's answers.  It asks for the first character in `response`
when the USER command has failed, whether or not a reply was read into it.
-/

open Effects Mem

namespace Ftp

/-! ## The dialogue -/

/-- The control connection during a call: what the server has sent and the client has not received, what
the client has received, and how many commands have reached the server. -/
structure Talk where
  wire : Bytes
  heard : Heard
  asked : Nat

/-- A call of the client.  The replies `answers i` follow on the command `i`, and `recv` delivers some of
what has been sent, or the end of the stream; `send` and `recv` may fail. -/
def Talk.Step (control : Nat) (answers : Nat → List Bytes) (w : Talk) : FtpEvent → Talk → Prop
  | ⟨.send fd _, some x⟩, w' =>
    w' = if fd = control ∧ x.1 ≠ 0 then
        { w with wire := w.wire ++ (answers w.asked).flatten, asked := w.asked + 1 }
      else w
  | ⟨.recv fd len, some x⟩, w' =>
    if fd = control then (w.heard.ended = true → x.1 = []) ∧ ∃ wire, w.wire = x.1 ++ wire ∧
      w' = { w with wire, heard := w.heard.after control ⟨.recv fd len, some x⟩ }
    else w' = w
  | _, w' => w' = w

def talking (control : Nat) (answers : Nat → List Bytes) : Env Op Op.Res Talk :=
  fun w op r w' => w.Step control answers ⟨op, r⟩ w'

/-- The server has sent, in answer to a command of the call, a reply that begins with `2`. -/
def Answered (answers : Nat → List Bytes) (w : Talk) : Prop :=
  ∃ i < w.asked, ∃ r ∈ answers i, r.head? = some 50

/-- `response` ends up with a `2` in front: it had it before the call and no command was sent; or the reply
behind USER breaks off, and the last piece of it shows the `2`, or `response` from before where nothing was
read; or the reply behind the last command shows it. -/
def ShowsTwo (response : Buffer RESPONSE_BUFFER_SIZE) (u : Bytes) (w : Talk) : Prop :=
  w.asked = 0 ∧ response.first = 50 ∨
  w.asked = 1 ∧ takeReplies 1 response (w.heard.lines u) = none ∧
    (shownPieces response (pieces (u ++ w.heard.bytes))).first = 50 ∨
  0 < w.asked ∧ ∃ p ∈ takeReplies w.asked response (w.heard.lines u), p.1.first = 50

/-- Name and password fit the buffer of the commands. -/
def LoginFits (user pass : Bytes) : Prop := user.length + 7 ≤ 64 ∧ pass.length + 7 ≤ 64

section

variable {control n : Nat} {answers : Nat → List Bytes} {response₀ : Buffer RESPONSE_BUFFER_SIZE}
  {u₀ : Bytes} {k : Nat} {nControl : NetBuf} {w w' : Talk} {user pass : Bytes}

theorem talking_listens (control : Nat) (answers : Nat → List Bytes) :
    Listens (talking control answers) control Talk.heard where
  after w op r w' h := by
    cases op with
    | send fd data =>
      cases r with
      | none => exact congrArg Talk.heard h
      | some x =>
        have hstep : w' = _ := h
        rw [hstep]
        split
        · rfl
        · rfl
    | recv fd len =>
      cases r with
      | none => exact congrArg Talk.heard h
      | some x =>
        by_cases hfd : fd = control
        · obtain ⟨-, wire, -, rfl⟩ : _ ∧ ∃ wire, _ ∧ w' = _ := (if_pos hfd).mp h
          rfl
        · have hsame : w' = w := (if_neg hfd).mp h
          rw [hsame, Heard.after, if_neg hfd]
    | _ => exact congrArg Talk.heard h
  last w len x w' h hended := ((if_pos rfl).mp h).1 hended

/-- Receiving sends nothing. -/
theorem keeps_asked (len : Nat) :
    Keeps (talking control answers) (fun _ _ => True) (fun w => w.asked = n) (.recv control len) where
  asks _ _ := trivial
  keeps w r w' hw h := by
    cases r with
    | none =>
      have hsame : w' = w := h
      rw [hsame, hw]
    | some x =>
      obtain ⟨-, wire, -, rfl⟩ : _ ∧ ∃ wire, _ ∧ w' = _ := (if_pos rfl).mp h
      exact hw

/-- A command and its reply: nothing was sent, or one more command, and the reply to it was read. -/
theorem sendCommand_talks (answers : Nat → List Bytes) (cmd : Bytes) (c : UInt8) (hasked : w.asked = n)
    (h : Heeded control Talk.heard response₀ u₀ k nControl w) :
    wp (talking control answers) (fun _ _ => True) (sendCommand cmd c nControl)
      (fun r w' => r = (0, nControl) ∧ w' = w ∨
        HeardReply control Talk.heard response₀ u₀ k c r w' ∧ w'.asked = n + 1) w := by
  have hhandle : nControl.handle = control := by
    obtain ⟨done, u, hreads, -⟩ := h.reads
    exact hreads.handle_eq
  apply sendCommand_hears cmd c h (.inl ⟨rfl, rfl⟩)
  · intro r w' hr hstep
    cases r with
    | none => exact .inl ⟨rfl, hstep⟩
    | some x =>
      have hzero : x.1 = 0 := by simpa using hr
      have hsame : w' = _ := hstep
      rw [if_neg fun hsent => hsent.2 hzero] at hsame
      exact .inl ⟨rfl, hsame⟩
  · intro x w' hx hstep
    have hsent : w' = _ := hstep
    rw [if_pos ⟨hhandle, hx⟩] at hsent
    have hheard : w'.heard = w.heard := by rw [hsent]
    have hcount : w'.asked = n + 1 := by rw [hsent, ← hasked]
    have hkeeps : ∀ len, Keeps (talking control answers) (fun _ _ => True) (fun w => w.asked = n + 1)
        (.recv nControl.handle len) := by
      rw [hhandle]
      exact keeps_asked
    have hread := readResponse_hears (talking_listens control answers) c (h.congr hheard)
    refine (hread.and (readResponse_frame c h.dir_eq hkeeps (fun _ _ => trivial) hcount)).mono ?_
    exact fun r w' hr => .inr ⟨hr.1, hr.2.1⟩

/-- What is said of `response` when a command has failed. -/
theorem verdict_talks {nc : NetBuf} (P : Talk → Prop) (h : nc.response.first = 50 ↔ P w) :
    wp (talking control answers) (fun _ _ => True)
      (if nc.response.first = 50 then return ((1 : Int), nc) else return (0, nc))
      (fun r w => r.1 = 1 ↔ P w) w := by
  split
  · next hfirst => exact wp_ret.mpr (iff_of_true rfl (h.mp hfirst))
  · next hfirst => exact wp_ret.mpr (iff_of_false (by simp) (mt h.mpr hfirst))

/-- The second reply decides. -/
theorem pass_talks {u : Bytes} {nc : NetBuf} (hasked : w.asked = 1)
    (h : Heeded control Talk.heard response₀ u 1 nc w) (hfirst : nc.response.first = 51) (cmd : Bytes) :
    wp (talking control answers) (fun _ _ => True) (sendCommand cmd 50 nc)
      (fun r w => r.1 = 1 ↔ ShowsTwo response₀ u w) w := by
  refine (sendCommand_talks answers cmd 50 hasked h).mono ?_
  rintro r w' (⟨rfl, rfl⟩ | ⟨hreply, hasked'⟩)
  · -- PASS was not sent, and the reply to USER begins with 3.
    refine iff_of_false (by simp) ?_
    obtain ⟨rest, htakes⟩ := h.takes
    rintro (⟨hzero, -⟩ | ⟨-, hnone, -⟩ | ⟨-, q, hq, hq50⟩)
    · omega
    · rw [htakes] at hnone
      cases hnone
    · rw [hasked, htakes] at hq
      obtain rfl := Option.some.inj hq
      rw [hfirst] at hq50
      exact absurd hq50 (by decide)
  · unfold ShowsTwo
    rw [hasked']
    cases hreply with
    | @replied nc' _ h' =>
      obtain ⟨rest, htakes⟩ := h'.takes
      have hresult : (if nc'.response.first = 50 then (1 : Int) else 0) = 1 ↔ nc'.response.first = 50 := by simp
      rw [hresult, htakes]
      simp
    | broken hnone _ =>
      rw [hnone]
      simp

/-- `loginFtpClient` returns 1 exactly where `response` ends up with a `2` in front. -/
theorem loginFtpClient_talks {u before : Bytes} (user pass : Bytes) (hdir : nControl.dir = .control)
    (hunread : nControl.Unread u) :
    wp (talking nControl.handle answers) (fun _ _ => True) (loginFtpClient user pass nControl)
      (fun r w => r.1 = 1 ↔ LoginFits user pass ∧ ShowsTwo nControl.response u w)
      ⟨before, ⟨[], false⟩, 0⟩ := by
  rw [loginFtpClient]
  -- Names and passwords that are too long are refused before anything is sent.
  split
  · next hlong =>
    refine wp_ret.mpr (iff_of_false (by simp) ?_)
    rintro ⟨⟨huser, hpass⟩, -⟩
    omega
  next hshort =>
  have hfits : LoginFits user pass := by
    unfold LoginFits
    omega
  refine wp.mono (Q := fun r w => r.1 = 1 ↔ ShowsTwo nControl.response u w) ?_
    fun r w hr => hr.trans (and_iff_right hfits).symm
  have hstart : Heeded nControl.handle Talk.heard nControl.response u 0 nControl ⟨before, ⟨[], false⟩, 0⟩ :=
    .start hdir rfl hunread rfl
  have huser := sendCommand_talks answers (ascii "USER " ++ user) 51 rfl hstart
  refine huser.bind ?_
  rintro r w (⟨rfl, rfl⟩ | ⟨hreply, hasked⟩)
  · exact verdict_talks (ShowsTwo _ _) (by simp [ShowsTwo])
  cases hreply with
  | @broken nc _ hnone hshown =>
    refine verdict_talks (ShowsTwo _ _) ?_
    unfold ShowsTwo
    rw [hasked, hnone, hshown]
    simp
  | @replied nc _ h =>
    obtain ⟨rest, htakes⟩ := h.takes
    dsimp only
    by_cases hfirst : nc.response.first = 51
    · rw [if_pos hfirst, if_neg Int.one_ne_zero]
      exact pass_talks hasked h hfirst _
    · rw [if_neg hfirst, if_pos rfl]
      refine verdict_talks (ShowsTwo _ _) ?_
      unfold ShowsTwo
      rw [hasked, htakes]
      simp

end

/-- The result 1 is right unless no answer of the server begins with `2` and `response` shows one. -/
theorem login_sound_iff (user pass before : Bytes) (answers : Nat → List Bytes) {nControl : NetBuf} {u : Bytes}
    (hdir : nControl.dir = .control) (hunread : nControl.Unread u) :
    wp (talking nControl.handle answers) (fun _ _ => True) (loginFtpClient user pass nControl)
      (fun r w => (r.1 = 1 → Answered answers w) ↔
        ¬(LoginFits user pass ∧ ShowsTwo nControl.response u w ∧ ¬Answered answers w))
      ⟨before, ⟨[], false⟩, 0⟩ := by
  refine (loginFtpClient_talks user pass hdir hunread).mono ?_
  intro r w hr
  rw [hr, not_and, not_and, and_imp]
  exact ⟨fun h hfits hshows hno => hno (h hfits hshows),
    fun h hfits hshows => not_not.mp (h hfits hshows)⟩

/-- The control connection behind the greeting. -/
def greeted : NetBuf :=
  { exampleControl with response := (Buffer.zeroed _).overlay (ascii "220 ready\n") }

theorem greeted_unread : greeted.Unread [] := ⟨rfl, rfl, _, rfl, rfl⟩

/-- A server that welcomes the user with a reply of three lines, one of them empty. -/
def welcoming : Nat → List Bytes
  | 0 => [ascii "331 pw\r\n"]
  | _ => [ascii "230-Welcome\r\n\r\n230 ok\r\n"]

theorem login_sound_iff_welcomed :
    wp (talking 3 welcoming) (fun _ _ => True) (loginFtpClient (ascii "u") (ascii "p") greeted)
      (fun r w => (r.1 = 1 → Answered welcoming w) ↔
        ¬(LoginFits (ascii "u") (ascii "p") ∧ ShowsTwo greeted.response [] w ∧ ¬Answered welcoming w))
      ⟨[], ⟨[], false⟩, 0⟩ :=
  login_sound_iff (ascii "u") (ascii "p") [] welcoming (rfl : greeted.dir = .control) greeted_unread

/-- The greeting is taken for an answer when the USER command cannot be sent. -/
theorem not_login_sound :
    ¬∀ (user pass before : Bytes) (answers : Nat → List Bytes) (nControl : NetBuf) (u : Bytes),
      nControl.dir = .control → nControl.Unread u →
      wp (talking nControl.handle answers) (fun _ _ => True) (loginFtpClient user pass nControl)
        (fun r w => r.1 = 1 → Answered answers w) ⟨before, ⟨[], false⟩, 0⟩ := by
  intro h
  have hreplay : (loginFtpClient (ascii "u") (ascii "p") greeted).replays 1
      [⟨.send 3 (ascii "USER u\r\n"), none⟩] (Outcome.returns fun r => r.1 = 1) = true := by decide +kernel
  have hpath : Path (talking 3 welcoming) ⟨[], ⟨[], false⟩, 0⟩ [⟨.send 3 (ascii "USER u\r\n"), none⟩]
      ⟨[], ⟨[], false⟩, 0⟩ := .cons rfl .nil
  obtain ⟨r, hexec, hout⟩ := Prog.replays_returned hreplay hpath
  obtain ⟨i, hi, -⟩ := (h _ _ [] welcoming greeted [] rfl greeted_unread).returned hexec (of_decide_eq_true hout)
  exact absurd hi (Nat.not_lt_zero i)

end Ftp
