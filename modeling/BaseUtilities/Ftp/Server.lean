import BaseUtilities.Ftp.Ledger
import BaseUtilities.Ftp.Replies

/-!
# A server on the control connection

An RFC 959 server as an environment of the client: it answers every command line that it receives with
one final reply, and a command line that begins a transfer with a preliminary one before it.
-/

open Effects Mem

namespace Ftp

/-! ## Command lines -/

/-- The command lines of a stream without their CR LF, and what is behind the last CR LF. -/
def commandLines : Bytes → List Bytes × Bytes
  | [] => ([], [])
  | [b] => ([], [b])
  | b :: c :: s =>
    if b = CR ∧ c = LF then ([] :: (commandLines s).1, (commandLines s).2)
    else
      match commandLines (c :: s) with
      | (l :: ls, rest) => ((b :: l) :: ls, rest)
      | ([], rest) => ([], b :: rest)

/-- The string makes one command line with the CR LF that `sendCommand` puts behind it. -/
def OneLine (cmd : Bytes) : Prop := commandLines (cmd ++ [CR, LF]) = ([cmd], [])

instance (cmd : Bytes) : Decidable (OneLine cmd) := inferInstanceAs (Decidable (_ = _))

theorem OneLine.cons {b : UInt8} {cmd : Bytes} (hb : b ≠ CR) (h : OneLine cmd) : OneLine (b :: cmd) := by
  rw [OneLine] at h ⊢
  cases cmd with
  | nil => simp [commandLines, hb]
  | cons c cmd =>
    rw [List.cons_append] at h
    rw [List.cons_append, List.cons_append, commandLines, if_neg fun hcr => hb hcr.1, h]

theorem OneLine.append {verb arg : Bytes} (h : OneLine arg) (hverb : CR ∉ verb) :
    OneLine (verb ++ arg) := by
  induction verb with
  | nil => exact h
  | cons b verb ih =>
    rw [List.mem_cons, not_or] at hverb
    exact .cons (Ne.symm hverb.1) (ih hverb.2)

theorem OneLine.of_not_mem {cmd : Bytes} (h : CR ∉ cmd) : OneLine cmd := by
  have hnil : OneLine [] := by decide
  have := hnil.append h
  rwa [List.append_nil] at this

theorem OneLine.singleton (b : UInt8) : OneLine [b] := by
  simp [OneLine, commandLines, show ¬CR = LF by decide]

/-- The commands that begin a transfer. -/
def beginsTransfer (line : Bytes) : Prop :=
  line.take 4 ∈ [ascii "RETR", ascii "STOR", ascii "LIST", ascii "NLST", ascii "MLSD"]

instance (line : Bytes) : Decidable (beginsTransfer line) := inferInstanceAs (Decidable (_ ∈ _))

/-! ## Replies -/

/-- A line without a NUL, and not its end alone. -/
def IsLine (l : Bytes) : Prop := ∃ init, l = init ++ [LF] ∧ LF ∉ init ∧ init ≠ [] ∧ (0 : UInt8) ∉ init

/-- A reply: a line, and the lines up to the closing one if a `-` follows the code in the first. -/
structure Reply where
  first : Bytes
  more : List Bytes
  lines : ∀ l ∈ first :: more, IsLine l
  code : 3 < first.length
  whole : afterReply (first :: more) = some []

namespace Reply

def bytes (r : Reply) : Bytes := (r.first :: r.more).flatten

def digit (r : Reply) : UInt8 := Ftp.digit r.first

/-- Every line fits `response`. -/
def Short (r : Reply) : Prop := ∀ l ∈ r.first :: r.more, l.length < RESPONSE_BUFFER_SIZE

/-- The command failed. -/
def Refuses (r : Reply) : Prop := r.digit = 52 ∨ r.digit = 53

end Reply

/-- What the server sends for a command line. -/
structure Replies where
  prelim : Option Reply
  final : Reply

namespace Replies

/-- The replies that RFC 959 allows to a command line. -/
structure To (a : Replies) (line : Bytes) : Prop where
  final : 50 ≤ a.final.digit ∧ a.final.digit ≤ 53
  prelim : ∀ r ∈ a.prelim, r.digit = 49 ∧ beginsTransfer line

/-- The reply that comes first. -/
def lead (a : Replies) : Reply := a.prelim.getD a.final

/-- The stream behind it. -/
def behind (a : Replies) : Bytes := if a.prelim.isSome then a.final.bytes else []

def bytes (a : Replies) : Bytes := a.lead.bytes ++ a.behind

end Replies

/-! ## The server -/

/-- The server's end of the control connection: the part of a command line it has received, what it has
sent and the client has not received, and its final reply to the latest command line. -/
structure Server where
  inbox : Bytes
  wire : Bytes
  last : Option Reply

/-- The server receives `data` and answers the command lines that are complete; `plays` says how. -/
def Server.Hears (plays : Bytes → Replies → Prop) (w : Server) (data : Bytes) (w' : Server) : Prop :=
  ∃ as : List Replies,
    List.Forall₂ (fun line a => a.To line ∧ plays line a) (commandLines (w.inbox ++ data)).1 as ∧
    w' = ⟨(commandLines (w.inbox ++ data)).2, w.wire ++ as.flatMap Replies.bytes,
      (as.getLast?.map Replies.final).or w.last⟩

/-- A call of the client.  On the control connection `recv` never fails, and delivers some of what the
server has sent. -/
def Server.Step (control : Nat) (plays : Bytes → Replies → Prop) (w : Server) : FtpEvent → Server → Prop
  | ⟨.send fd data, some sent⟩, w' =>
    if fd = control then w.Hears plays (data.take sent.1) w' else w' = w
  | ⟨.recv fd _, x⟩, w' =>
    if fd = control then ∃ bytes ∈ x, bytes.1 ≠ [] ∧ ∃ wire, w.wire = bytes.1 ++ wire ∧ w' = { w with wire }
    else w' = w
  | e, w' => broughtFd e ≠ some control ∧ w' = w

/-- The client on a control connection to such a server; `may` restricts the answers of the system. -/
def ftpServer (control : Nat) (plays : Bytes → Replies → Prop) (may : Server → FtpEvent → Prop) :
    Env Op Op.Res Server :=
  fun w op r w' => w.Step control plays ⟨op, r⟩ w' ∧ may w ⟨op, r⟩

/-- The client never waits for a reply that is not to come. -/
def Awaits (control : Nat) : Stop Op → Server → Prop
  | .asking (.recv fd _), w => fd = control → w.wire ≠ []
  | _, _ => True

/-! ## What is owed -/

/-- The bytes `s` are what the client has not read of what the server has sent, and the server is not in
the middle of a command line. -/
structure Owed (control : Nat) (s : Bytes) (nControl : NetBuf) (w : Server) : Prop where
  dir_eq : nControl.dir = .control
  handle_eq : nControl.handle = control
  inbox_eq : w.inbox = []
  stream : ∃ u, nControl.Unread u ∧ u ++ w.wire = s

section

variable {control : Nat} {s : Bytes} {nControl : NetBuf} {w : Server}

theorem Owed.respond (h : Owed control s nControl w) (response : Buffer RESPONSE_BUFFER_SIZE) :
    Owed control s { nControl with response } w := by
  obtain ⟨u, hunread, hstream⟩ := h.stream
  exact ⟨h.dir_eq, h.handle_eq, h.inbox_eq, u, ⟨hunread.1, hunread.2, hunread.3⟩, hstream⟩

variable {plays : Bytes → Replies → Prop} {may : Server → FtpEvent → Prop}

/-- The bytes `d` have been received since `w`. -/
def Server.Drained (w : Server) (d : Bytes) (w' : Server) : Prop :=
  ∃ wire, w.wire = d ++ wire ∧ w' = { w with wire }

theorem drained_feeds {n : Nat} {u init : Bytes} (h : u ++ w.wire = init ++ LF :: s) :
    Feeds (ftpServer control plays may) (Awaits control) n control u w.Drained (fun _ _ => False)
      (fun _ _ => False) where
  asks := by
    rintro d w' ⟨wire, hwire, rfl⟩ hline - - hnil
    obtain rfl : wire = [] := hnil
    rw [List.append_nil] at hwire
    rw [← hwire, h] at hline
    simp at hline
  more := by
    rintro d w' x w'' ⟨wire, hwire, rfl⟩ ⟨hstep, -⟩ -
    simp only [Server.Step, if_true, Option.mem_def, Option.some.injEq, exists_eq_left'] at hstep
    obtain ⟨-, wire', rfl, rfl⟩ := hstep
    exact ⟨wire', by rw [hwire, List.append_assoc], rfl⟩
  eof := by
    rintro d w' x w'' - ⟨hstep, -⟩ hnil
    simp only [Server.Step, if_true, Option.mem_def, Option.some.injEq, exists_eq_left'] at hstep
    exact hstep.1 hnil
  error := by
    rintro d w' w'' - ⟨hstep, -⟩
    simp [Server.Step] at hstep
  fault _ _ _ _ := trivial

/-- A line is taken from the stream, and shown. -/
theorem readResponseLine_takes {l : Bytes} (hl : IsLine l) (hshort : l.length < RESPONSE_BUFFER_SIZE)
    (h : Owed control (l ++ s) nControl w) :
    wp (ftpServer control plays may) (Awaits control) (readResponseLine nControl)
      (fun r w' => nControl.Same r.2 ∧ Owed control s r.2 w' ∧ w'.last = w.last ∧ r.1 ≠ -1 ∧
        Shows r.2.response (chomp l) ∧
        (3 ≤ l.length → (r.2.response.bytes[3]? = some 45 ↔ multiLine (chomp l)))) w := by
  obtain ⟨hdir, rfl, hinbox, u, hunread, hstream⟩ := h
  -- The server owes this line first, so what arrives next is its beginning.
  obtain ⟨init, rfl, hline, hne, -⟩ := hl
  have hsplit : u ++ w.wire = init ++ LF :: s := by rw [hstream, List.append_assoc]; rfl
  have hwait : socketWait nControl nControl = .ret (1, nControl) := by
    rw [socketWait, hdir]
    rfl
  have hfeeds : Feeds (ftpServer nControl.handle plays may) (Awaits nControl.handle) RESPONSE_BUFFER_SIZE
      nControl.handle u w.Drained (fun _ _ => False) (fun _ _ => False) := drained_feeds hsplit
  have hread := (readLine_bisim nControl.response nControl (by decide) (by simp [hdir]) hunread).forth.wp
    (fetchLine_rule (by decide) hwait hfeeds ⟨w.wire, rfl, rfl⟩)
  refine hread.bind ?_
  rintro r w' ⟨k, hr, htook⟩
  have hsame := (NetBuf.Same.of_moved hr.moved).respond r.buffer
  refine wp_ret.mpr ⟨hsame, ?_⟩
  have hunread' : NetBuf.Unread { r.ctl with response := r.buffer } k.rest :=
    ⟨hr.unread.1, hr.unread.2, hr.unread.3⟩
  -- The server does not hang up while it owes a line, and a line that is short enough is read to its
  -- end: of the endings only `newline` is left.
  cases htook with
  | eof hfalse => exact hfalse.elim
  | error hfalse => exact hfalse.elim
  | @full d text rest _ hd hsplit' hline' hlen =>
    obtain ⟨wire, hwire, rfl⟩ := hd
    rw [hwire, ← List.append_assoc, ← hsplit', List.append_assoc] at hsplit
    -- A full array would hold the whole line, and with it a line end that it does not have.
    have hinit : init ++ [LF] <+: text := by
      refine List.prefix_of_prefix_length_le ⟨s, ?_⟩ (List.prefix_append text (rest ++ wire)) ?_
      · rw [hsplit, List.append_assoc, List.singleton_append]
      · omega
    exact absurd (hinit.subset (by simp)) hline'
  | @newline d init' rest _ hd hsplit' hline' hne' hlen =>
    obtain ⟨wire, hwire, rfl⟩ := hd
    rw [hwire, ← List.append_assoc, ← hsplit', List.append_assoc, List.cons_append] at hsplit
    obtain ⟨rfl, hrest⟩ := line_unique hline' hline hsplit
    refine ⟨⟨hsame.dir_eq.trans hdir, hsame.handle_eq, hinbox, rest, hunread', hrest⟩, rfl, ?_, ?_, ?_⟩
    · rw [hr.retval_eq]
      simp [Line.retval]
    · dsimp only
      rw [hr.buffer_eq]
      exact Line.shown_bytes _ _ hshort (.inl (by simp))
    · intro hthree
      dsimp only
      rw [hr.buffer_eq]
      exact shown_third nControl.response hshort hthree

/-- What is left of a reply, and behind it `s`. -/
structure Continues (control : Nat) (first : Bytes) (s : Bytes) (nControl : NetBuf) (w : Server)
    (nc : NetBuf) (w' : Server) : Prop where
  same : nControl.Same nc
  last_eq : w'.last = w.last
  owed : ∃ ls, Owed control (ls.flatten ++ s) nc w' ∧ afterClosing first ls = some [] ∧
    ∀ l ∈ ls, IsLine l ∧ l.length < RESPONSE_BUFFER_SIZE

theorem IsLine.text {l : Bytes} (h : IsLine l) : (0 : UInt8) ∉ chomp l := by
  obtain ⟨init, rfl, -, -, hzero⟩ := h
  intro hmem
  have := mem_chomp (by decide) hmem
  simp only [List.mem_append, List.mem_singleton] at this
  exact this.elim hzero (by decide)

/-- `readResponse` takes one reply from the stream. -/
theorem readResponse_takes (c : UInt8) {r : Reply} (hshort : r.Short)
    (h : Owed control (r.bytes ++ s) nControl w) :
    wp (ftpServer control plays may) (Awaits control) (readResponse c nControl)
      (fun res w' => nControl.Same res.2 ∧ Owed control s res.2 w' ∧ w'.last = w.last ∧
        res.2.response.first = r.digit ∧ res.1 = if r.digit = c then 1 else 0) w := by
  have hfirst := r.lines r.first (List.mem_cons_self ..)
  -- Where a reply ends is decided by its lines; the loop of the source is to find the same place.
  have hwhole := r.whole
  rw [Reply.bytes, List.flatten_cons, List.append_assoc] at h
  refine (readResponseLine_takes hfirst (hshort _ (List.mem_cons_self ..)) h).bind ?_
  rintro ⟨rv, nc⟩ w' ⟨hsame, howed, hlast, hrv, hshows, hthird⟩
  have hdigit : nc.response.first = r.digit := by rw [hshows.first, Reply.digit, digit]
  dsimp only
  rw [if_neg hrv]
  have hmulti := hthird (Nat.le_of_lt r.code)
  rw [afterReply] at hwhole
  split
  · next hdash =>
    rw [if_pos (hmulti.mp hdash)] at hwhole
    -- What is kept: the lines still owed, from which the closing line is the last.
    refine wp_forever (Continues control r.first s nControl w)
      ⟨hsame, hlast, r.more, howed, hwhole, fun l hl => ?_⟩ ?_
    · have hl := List.mem_cons_of_mem r.first hl
      exact ⟨r.lines l hl, hshort l hl⟩
    rintro nc' w' ⟨hsame, hlast, ls, howed, hwhole, hls⟩
    cases ls with
    | nil => cases hwhole
    | cons l ls =>
      obtain ⟨hl, hlen⟩ := hls l (List.mem_cons_self ..)
      have hcode : (0 : UInt8) ∉ (chomp r.first).take 3 := fun hmem => hfirst.text (List.mem_of_mem_take hmem)
      rw [List.flatten_cons, List.append_assoc] at howed
      refine (readResponseLine_takes hl hlen howed).bind ?_
      rintro ⟨rv, nc''⟩ w'' ⟨hsame', howed, hlast', hrv, hshows', -⟩
      -- `strncmp` finds the closing line exactly, since the code holds no NUL.
      have hclosing := hshows'.closing_iff hcode (hmulti.mp hdash)
      rw [← hshows.replyMatch_eq hcode (hmulti.mp hdash)] at hclosing
      dsimp only
      rw [if_neg hrv]
      rw [afterClosing] at hwhole
      split
      · next hmatch =>
        have hc := hclosing.mp hmatch
        rw [if_pos hc] at hwhole
        obtain rfl : ls = [] := Option.some.inj hwhole
        have hdigit' : nc''.response.first = r.digit := by
          rw [hshows'.first, Reply.digit, ← closing_digit (hmulti.mp hdash) hc, digit]
        refine wp_ret.mpr ⟨hsame.trans hsame', howed, hlast'.trans hlast, hdigit', ?_⟩
        rw [hdigit']
      · next hmatch =>
        rw [if_neg fun hc => hmatch (hclosing.mpr hc)] at hwhole
        exact wp_ret.mpr ⟨hsame.trans hsame', hlast'.trans hlast, ls, howed, hwhole,
          fun l hl => hls l (List.mem_cons_of_mem _ hl)⟩
  · next hdash =>
    rw [if_neg fun hm => hdash (hmulti.mpr hm)] at hwhole
    obtain hmore : r.more = [] := Option.some.inj hwhole
    rw [hmore] at howed
    refine wp_ret.mpr ⟨hsame, howed, hlast, hdigit, ?_⟩
    rw [hdigit]

end

/-! ## Conditions -/

/-- Replies that the client keeps up with: their lines fit, and a transfer that has no preliminary reply
is refused. -/
structure Orderly (line : Bytes) (a : Replies) : Prop where
  final : a.final.Short
  prelim : ∀ r ∈ a.prelim, r.Short
  refuses : beginsTransfer line → a.prelim = none → a.final.Refuses

/-- The text of an error that cannot be taken for a refusal. -/
def Harmless (text : Bytes) : Prop := text.headD 0 ≠ 52 ∧ text.headD 0 ≠ 53

/-- The system takes a command line whole or not at all, and the one that begins a transfer whole; and
where the control connection alone has something to read, a refusal is on its way. -/
def Steady (control : Nat) (w : Server) : FtpEvent → Prop
  | ⟨.send fd data, none⟩ => fd = control → ¬beginsTransfer data
  | ⟨.send fd data, some sent⟩ =>
    fd = control → sent.1 = data.length ∨ sent.1 = 0 ∧ ¬beginsTransfer data
  | ⟨.select _ _ _, .error text⟩ => Harmless text
  | ⟨.selectAccept _ _, .error text⟩ => Harmless text
  | ⟨.selectAccept _ _, .ready false true⟩ => ∀ r ∈ w.last, r.Refuses
  | ⟨.accept _, (_, text)⟩ => Harmless text
  | _ => True

/-! ## Commands -/

theorem beginsTransfer_append {cmd : Bytes} (h : beginsTransfer cmd) (s : Bytes) :
    beginsTransfer (cmd ++ s) := by
  have hlen : 4 ≤ cmd.length := by
    by_contra hlt
    have htake : (cmd.take 4).length = cmd.length := by
      rw [List.length_take]
      omega
    have hall : ∀ verb ∈ [ascii "RETR", ascii "STOR", ascii "LIST", ascii "NLST", ascii "MLSD"],
        verb.length = 4 := by decide
    have := hall _ h
    omega
  rw [beginsTransfer, List.take_append_of_le_length hlen]
  exact h

section

variable {control : Nat} {nControl : NetBuf} {w : Server}

/-- A command line is answered, or it was not sent. -/
theorem sendCommand_answered (c : UInt8) {cmd : Bytes} (hline : OneLine cmd)
    (h : Owed control [] nControl w) :
    wp (ftpServer control Orderly (Steady control)) (Awaits control) (sendCommand cmd c nControl)
      (fun r w' => nControl.Same r.2 ∧
        (r.1 = 0 ∧ Owed control [] r.2 w' ∧ (beginsTransfer cmd → TEMP_BUFFER_SIZE < cmd.length + 3) ∨
        ∃ a : Replies, a.To cmd ∧ Orderly cmd a ∧ w'.last = some a.final ∧
          Owed control a.behind r.2 w' ∧ r.2.response.first = a.lead.digit ∧
          r.1 = if a.lead.digit = c then 1 else 0)) w := by
  rw [sendCommand.eq_def, if_neg (not_not_intro h.dir_eq)]
  -- A command that does not fit is not sent, and a transfer is then not begun.
  split
  · next hlong => exact wp_ret.mpr ⟨.refl _, .inl ⟨rfl, h, fun _ => hlong⟩⟩
  refine wp_bind.mpr (wp_perform.mpr ⟨trivial, ?_⟩)
  have hhandle := h.handle_eq
  rintro (_ | sent) w' ⟨hstep, hsteady⟩
  · obtain ⟨-, rfl⟩ := hstep
    exact wp_ret.mpr ⟨.refl _, .inl ⟨rfl, h, fun ht =>
      absurd (beginsTransfer_append ht _) (hsteady hhandle)⟩⟩
  · rw [Server.Step, if_pos hhandle] at hstep
    obtain ⟨as, has, rfl⟩ := hstep
    rw [h.inbox_eq, List.nil_append] at has ⊢
    dsimp only
    -- The system takes the command whole, or nothing of it where it begins no transfer.
    rcases hsteady hhandle with hall | ⟨hzero, hno⟩
    · rw [hall, List.take_length, hline] at has ⊢
      cases has with
      | @cons _ a _ as ha has =>
        cases has
        rw [if_neg (by simp)]
        have howed : Owed control (a.lead.bytes ++ a.behind) nControl
            ⟨[], w.wire ++ [a].flatMap Replies.bytes, some a.final⟩ := by
          obtain ⟨u, hunread, hstream⟩ := h.stream
          refine ⟨h.dir_eq, hhandle, rfl, u, hunread, ?_⟩
          rw [← List.append_assoc, hstream, List.nil_append, List.flatMap_singleton, Replies.bytes]
        -- The lead is the preliminary reply if there is one, else the final one.
        have hshort : a.lead.Short := by
          rw [Replies.lead]
          cases hp : a.prelim with
          | none => exact ha.2.final
          | some r => exact ha.2.prelim r hp
        refine (readResponse_takes c hshort howed).mono ?_
        rintro r w' ⟨hsame, howed, hlast, hfirst, hrv⟩
        exact ⟨hsame, .inr ⟨a, ha.1, ha.2, hlast, howed, hfirst, hrv⟩⟩
    · rw [hzero, List.take_zero] at has ⊢
      cases has
      rw [if_pos rfl]
      refine wp_ret.mpr ⟨.refl _, .inl ⟨rfl, ?_, fun ht => absurd (beginsTransfer_append ht _) hno⟩⟩
      obtain ⟨u, hunread, hstream⟩ := h.stream
      exact ⟨h.dir_eq, hhandle, rfl, u, hunread, by simpa using hstream⟩

/-- A command that does not begin a transfer leaves nothing owed. -/
theorem sendCommand_quiet (c : UInt8) {cmd : Bytes} (hline : OneLine cmd) (hno : ¬beginsTransfer cmd)
    (h : Owed control [] nControl w) :
    wp (ftpServer control Orderly (Steady control)) (Awaits control) (sendCommand cmd c nControl)
      (fun r w' => nControl.Same r.2 ∧ Owed control [] r.2 w') w := by
  refine (sendCommand_answered c hline h).mono ?_
  rintro r w' ⟨hsame, ⟨-, howed, -⟩ | ⟨a, ha, -, -, howed, -⟩⟩
  · exact ⟨hsame, howed⟩
  · have hnone : a.prelim = none := Option.eq_none_iff_forall_ne_some.mpr fun r hr => hno (ha.prelim r hr).2
    rw [Replies.behind, hnone] at howed
    exact ⟨hsame, howed⟩

end

end Ftp
