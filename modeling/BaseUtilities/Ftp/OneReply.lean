import BaseUtilities.Effects.Runs
import BaseUtilities.Ftp.Replies

/-!
# One call, one reply

What a call of `readResponse` takes from a stream of whole replies, in whatever pieces `recv` delivers
the stream.  A stream is the bytes in the receive buffer followed by the pieces that are still to come.
-/

open Effects Mem

namespace Ftp

/-! ## Replies -/

/-- A reply of one line, or one whose last line is the first with the code and a blank. -/
inductive FtpReply where
  | line (code text : Bytes)
  | lines (code text : Bytes) (more : List Bytes) (last : Bytes)
  deriving DecidableEq, Repr

namespace FtpReply

def code : FtpReply → Bytes
  | .line code _ => code
  | .lines code _ _ _ => code

/-- The lines between the first one and the last. -/
def more : FtpReply → List Bytes
  | .line _ _ => []
  | .lines _ _ more _ => more

def lastLine : FtpReply → Bytes
  | .line code text => code ++ 32 :: text
  | .lines code _ _ last => code ++ 32 :: last

/-- The lines without their CR LF. -/
def texts : FtpReply → List Bytes
  | .line code text => [code ++ 32 :: text]
  | .lines code text more last => (code ++ 45 :: text) :: (more ++ [code ++ 32 :: last])

def bytes (r : FtpReply) : Bytes := r.texts.flatMap fun t => t ++ [CR, LF]

/-- The code has three digits, every line fits `response`, and no line before the last one has the
code and a blank. -/
structure WellFormed (r : FtpReply) : Prop where
  length_eq : r.code.length = 3
  digits : ∀ b ∈ r.code, 48 ≤ b ∧ b ≤ 57
  fits : ∀ t ∈ r.texts, (t ++ [CR, LF]).length ≤ RESPONSE_BUFFER_SIZE - 1
  goesOn : ∀ t ∈ r.more, ¬r.code ++ [32] <+: t

instance (r : FtpReply) : Decidable r.WellFormed :=
  -- The digits of the code are tried, not all bytes.
  haveI : Decidable (∀ b ∈ r.code, 48 ≤ b ∧ b ≤ 57) := List.decidableBAll _ _
  decidable_of_iff (r.code.length = 3 ∧ (∀ b ∈ r.code, 48 ≤ b ∧ b ≤ 57) ∧
      (∀ t ∈ r.texts, (t ++ [CR, LF]).length ≤ RESPONSE_BUFFER_SIZE - 1) ∧
      ∀ t ∈ r.more, ¬r.code ++ [32] <+: t)
    ⟨fun h => ⟨h.1, h.2.1, h.2.2.1, h.2.2.2⟩, fun h => ⟨h.1, h.2, h.3, h.4⟩⟩

/-- No line has a line feed within it. -/
def Unbroken (r : FtpReply) : Prop := ∀ t ∈ r.texts, LF ∉ t

instance (r : FtpReply) : Decidable r.Unbroken := inferInstanceAs (Decidable (∀ t ∈ r.texts, LF ∉ t))

theorem bytes_line (code text : Bytes) :
    (FtpReply.line code text).bytes = code ++ 32 :: text ++ [CR, LF] := by
  simp [bytes, texts]

theorem bytes_lines (code text : Bytes) (more : List Bytes) (last : Bytes) :
    (FtpReply.lines code text more last).bytes =
      code ++ 45 :: text ++ [CR, LF] ++ (more ++ [code ++ 32 :: last]).flatMap fun t => t ++ [CR, LF] := by
  simp [bytes, texts]

end FtpReply

/-- A code of digits has no NUL. -/
theorem FtpReply.WellFormed.code_text {r : FtpReply} (h : r.WellFormed) : (0 : UInt8) ∉ r.code :=
  fun hmem => absurd (h.digits 0 hmem).1 (by decide)

/-! ## Streams -/

/-- Every `recv` on the control connection delivers one piece; nothing else is called. -/
def Provides (control : Nat) (pieces : List Bytes) : FtpEvent → List Bytes → Prop
  | ⟨.recv fd _, some x⟩, pieces' => fd = control ∧ pieces = x.1 :: pieces'
  | _, _ => False

def delivering (control : Nat) : Env Op Op.Res (List Bytes) :=
  fun pieces op r pieces' => Provides control pieces ⟨op, r⟩ pieces'

theorem delivering_deterministic (control : Nat) : Deterministic (delivering control) := by
  intro pieces op r pieces₁ r' pieces₂ h h'
  cases op with
  | recv fd len =>
    cases r with
    | none => exact h.elim
    | some x =>
      cases r' with
      | none => exact h'.elim
      | some x' =>
        have heq : x.1 :: pieces₁ = x'.1 :: pieces₂ := h.2.symm.trans h'.2
        obtain ⟨hx, hpieces⟩ := List.cons.inj heq
        exact ⟨congrArg some (Subtype.ext hx), hpieces⟩
  | _ => exact h.elim

/-- The control connection has the stream `s` in front of it: what it has received and not read, and
the pieces that are to come, each small enough for one `recv`. -/
structure Arriving (control : Nat) (s : Bytes) (nControl : NetBuf) (pieces : List Bytes) : Prop where
  dir_eq : nControl.dir = .control
  handle_eq : nControl.handle = control
  sizes : ∀ p ∈ pieces, p ≠ [] ∧ p.length ≤ BUFFER_SIZE
  stream : ∃ u, nControl.Unread u ∧ u ++ pieces.flatten = s

/-- What is left of a stream is determined by the state it is left in. -/
theorem Arriving.unique {control : Nat} {s s' : Bytes} {nControl : NetBuf} {pieces : List Bytes}
    (h : Arriving control s nControl pieces) (h' : Arriving control s' nControl pieces) : s = s' := by
  obtain ⟨u, hunread, rfl⟩ := h.stream
  obtain ⟨u', hunread', rfl⟩ := h'.stream
  obtain ⟨-, -, b, hb, hload⟩ := hunread
  obtain ⟨-, -, b', hb', hload'⟩ := hunread'
  obtain rfl : b = b' := Option.some.inj (hb.symm.trans hb')
  obtain rfl : u = u' := Option.some.inj (hload.symm.trans hload')
  rfl

/-! ## Lines -/

section

variable {n : Nat} {ctl nControl : NetBuf} {pieces : List Bytes} {init s : Bytes}

/-- However a line arrives, it is read up to its line end. -/
theorem fetchLoop_run {r : Reading} (hsplit : r.rest ++ pieces.flatten = init ++ LF :: s) (hline : LF ∉ init)
    (hne : r.text ++ init ≠ []) (hlen : (r.text ++ init).length + 1 < n) (heof : r.eof = false)
    (hwait : socketWait ctl r.nControl = .ret (1, r.nControl))
    (hpieces : ∀ p ∈ pieces, p ≠ [] ∧ p.length ≤ BUFFER_SIZE) :
    ∃ rest pieces', rest ++ pieces'.flatten = s ∧ pieces' <:+ pieces ∧
      Exec (delivering ctl.handle) (Prog.forever r (fetchBody n ctl)) pieces
        (.returned ⟨.newline, r.text ++ init ++ [LF], rest, r.nControl⟩) pieces' := by
  induction pieces generalizing r init with
  | nil =>
    rw [List.flatten_nil, List.append_nil] at hsplit
    refine ⟨s, [], List.append_nil s, List.suffix_refl [], ?_⟩
    refine .loop_done ?_ Exec.ret
    rw [fetchBody_newline hsplit hline hne hlen]
    exact Exec.ret
  | cons p pieces ih =>
    by_cases hmem : LF ∈ r.rest
    · -- the line end has been received
      obtain ⟨init', rest, hrest, hline'⟩ := List.eq_append_cons_of_mem hmem
      rw [hrest, List.append_assoc, List.cons_append] at hsplit
      obtain ⟨rfl, rfl⟩ := line_unique hline' hline hsplit
      refine ⟨rest, p :: pieces, rfl, List.suffix_refl _, ?_⟩
      refine .loop_done ?_ Exec.ret
      rw [fetchBody_newline hrest hline hne hlen]
      exact Exec.ret
    · obtain ⟨hp, hsize⟩ := hpieces p (List.mem_cons_self ..)
      obtain ⟨init', rfl⟩ : ∃ init', init = r.rest ++ init' := by
        rcases List.append_eq_append_iff.mp hsplit with ⟨init', hinit, -⟩ | ⟨rest', hrest, hrest'⟩
        · exact ⟨init', hinit⟩
        · cases rest' with
          | nil => exact ⟨[], by simpa using hrest.symm⟩
          | cons b rest' =>
            obtain rfl : LF = b := (List.cons.inj hrest').1
            exact absurd (by rw [hrest]; simp) hmem
      rw [List.append_assoc, List.append_cancel_left_eq, List.flatten_cons] at hsplit
      rw [← List.append_assoc] at hne hlen
      have hpass := fetchBody_more hmem (n := n) (by rw [List.length_append] at hlen; omega) heof hwait
      have hempty : p.isEmpty = false := by simpa using hp
      obtain ⟨rest, pieces', hrest, hsuffix, hrun⟩ := ih (r := ⟨r.text ++ r.rest, p, false, r.nControl⟩)
        hsplit (fun h => hline (List.mem_append_right _ h)) hne hlen rfl hwait
        fun q hq => hpieces q (List.mem_cons_of_mem _ hq)
      refine ⟨rest, pieces', hrest, hsuffix.trans (List.suffix_cons ..), ?_⟩
      have hnext : Exec (delivering ctl.handle) (fetchBody n ctl r) (p :: pieces)
          (.returned (.next ⟨r.text ++ r.rest, p, false, r.nControl⟩)) pieces := by
        rw [hpass]
        refine Exec.call (r := some ⟨p, hsize⟩) ⟨rfl, rfl⟩ ?_
        dsimp only
        rw [hempty]
        exact Exec.ret
      rw [← List.append_assoc]
      exact hnext.loop_next hrun

/-- A call of `readLine` on the control connection reads one line. -/
theorem readResponseLine_run {control : Nat} (h : Arriving control (init ++ LF :: s) nControl pieces)
    (hline : LF ∉ init) (hne : init ≠ []) (hfits : (init ++ [LF]).length < RESPONSE_BUFFER_SIZE) :
    ∃ rv nc pieces',
      Exec (delivering control) (readResponseLine nControl) pieces (.returned (rv, nc)) pieces' ∧
        rv ≠ -1 ∧ Arriving control s nc pieces' ∧ Shows nc.response (chomp (init ++ [LF])) ∧
        (3 ≤ (init ++ [LF]).length →
          (nc.response.bytes[3]? = some 45 ↔ multiLine (chomp (init ++ [LF])))) := by
  obtain ⟨hdir, rfl, hsizes, u, hunread, hstream⟩ := h
  -- On the control connection `socketWait` returns at once.
  have hwait : socketWait nControl nControl = .ret (1, nControl) := by
    rw [socketWait, hdir]
    rfl
  have hlen : init.length + 1 < RESPONSE_BUFFER_SIZE := by simpa using hfits
  -- The run is found for the abstract reader and carried over to the source's loop.
  obtain ⟨rest, pieces', hrest, hsuffix, hrun⟩ :=
    fetchLoop_run (r := ⟨[], u, false, nControl⟩) hstream hline hne hlen rfl hwait hsizes
  obtain ⟨r, hr, hread⟩ :=
    (readLine_bisim nControl.response nControl (by decide) (by simp [hdir]) hunread).run hrun
  rw [List.nil_append] at hr
  have hsame := (NetBuf.Same.of_moved hr.moved).respond r.buffer
  refine ⟨r.retval, { r.ctl with response := r.buffer }, pieces', hread.bind Exec.ret, ?_, ?_, ?_, ?_⟩
  · rw [hr.retval_eq]
    simp [Line.retval]
  · refine ⟨hsame.dir_eq.trans hdir, hsame.handle_eq, fun p hp => hsizes p (hsuffix.subset hp),
      rest, ?_, hrest⟩
    exact ⟨hr.unread.1, hr.unread.2, hr.unread.3⟩
  · dsimp only
    rw [hr.buffer_eq]
    exact Line.shown_bytes _ _ hfits (.inl (by simp))
  · intro hthree
    dsimp only
    rw [hr.buffer_eq]
    exact shown_third nControl.response hfits hthree

end

/-! ## Replies that are read -/

section

variable {control : Nat} {nControl : NetBuf} {pieces : List Bytes} {text code s : Bytes}

/-- A line with CR LF at its end is shown with LF. -/
theorem readResponseLine_text (h : Arriving control (text ++ [CR, LF] ++ s) nControl pieces)
    (hline : LF ∉ text) (hfits : (text ++ [CR, LF]).length ≤ RESPONSE_BUFFER_SIZE - 1) :
    ∃ rv nc pieces',
      Exec (delivering control) (readResponseLine nControl) pieces (.returned (rv, nc)) pieces' ∧
        rv ≠ -1 ∧ Arriving control s nc pieces' ∧ Shows nc.response (text ++ [LF]) ∧
        (3 < text.length → (nc.response.bytes[3]? = some 45 ↔ text[3]? = some 45)) := by
  have hcr : text ++ [CR, LF] = text ++ [CR] ++ [LF] := by rw [List.append_assoc]; rfl
  have hline' : LF ∉ text ++ [CR] := by
    rw [List.mem_append, not_or]
    exact ⟨hline, by decide⟩
  rw [hcr] at hfits
  rw [hcr, List.append_assoc, List.singleton_append] at h
  obtain ⟨rv, nc, pieces', hrun, hrv, hnext, hshows, hthird⟩ :=
    readResponseLine_run h hline' (by simp) (Nat.lt_of_le_of_lt hfits (by decide))
  rw [← hcr, chomp_crlf] at hshows hthird
  refine ⟨rv, nc, pieces', hrun, hrv, hnext, hshows, fun hlong => ?_⟩
  rw [hthird (by rw [List.length_append]; omega), multiLine, List.getElem?_append_left hlong]

/-- The code and a blank are looked for in the text of a line. -/
theorem closes_iff (hcode : code.length = 3) :
    (text ++ [LF]).take 4 = code ++ [32] ↔ code ++ [32] <+: text := by
  have hfour : (code ++ [32]).length = 4 := by rw [List.length_append, hcode]; rfl
  rw [List.prefix_iff_eq_take, hfour]
  by_cases hlong : 4 ≤ text.length
  · rw [List.take_append_of_le_length hlong]
    exact eq_comm
  · constructor
    · intro heq
      rw [List.take_of_length_le (by rw [List.length_append, List.length_singleton]; omega)] at heq
      have hlast := List.append_inj_right' heq rfl
      exact absurd hlast (by decide)
    · intro heq
      have := congrArg List.length heq
      rw [hfour, List.length_take] at this
      omega

/-- The loop of `readResponse` takes the lines up to the one with the code and a blank. -/
theorem closingLoop_run (c : UInt8) (hcode : code.length = 3) (hzero : (0 : UInt8) ∉ code)
    {more : List Bytes} {last : Bytes} (hmore : ∀ t ∈ more, ¬code ++ [32] <+: t)
    (hlines : ∀ t ∈ more ++ [code ++ 32 :: last],
      LF ∉ t ∧ (t ++ [CR, LF]).length ≤ RESPONSE_BUFFER_SIZE - 1)
    (h : Arriving control ((more ++ [code ++ 32 :: last]).flatMap (fun t => t ++ [CR, LF]) ++ s)
      nControl pieces) :
    ∃ nc pieces',
      Exec (delivering control)
        (Prog.forever nControl fun nControl => do
          let (rv, nControl) ← readResponseLine nControl
          if rv = -1 then
            return Iter.done ((0 : Int), nControl)
          else if matches4 4 nControl.response.bytes (code ++ [32] ++ [0]) then
            return .done (if nControl.response.first = c then 1 else 0, nControl)
          else
            return .next nControl) pieces
        (.returned (if nc.response.first = c then 1 else 0, nc)) pieces' ∧
        Arriving control s nc pieces' ∧ Shows nc.response (code ++ 32 :: last ++ [LF]) := by
  have hfour : (code ++ [32]).length = 4 := by rw [List.length_append, hcode]; rfl
  have hzero' : (0 : UInt8) ∉ code ++ [32] := by
    rw [List.mem_append, not_or]
    exact ⟨hzero, by decide⟩
  have hmatches : ∀ {nc : NetBuf} {t : Bytes}, Shows nc.response (t ++ [LF]) →
      (matches4 4 nc.response.bytes (code ++ [32] ++ [0]) = true ↔ code ++ [32] <+: t) := by
    intro nc t hshows
    rw [matches4_iff hfour hzero', hshows.take_iff hfour hzero', closes_iff hcode]
  -- On the lines before the closing one: none of them matches.
  induction more generalizing nControl pieces with
  | nil =>
    obtain ⟨hline, hfits⟩ := hlines (code ++ 32 :: last) (by simp)
    rw [List.nil_append, List.flatMap_singleton] at h
    obtain ⟨rv, nc, pieces', hrun, hrv, hnext, hshows, -⟩ := readResponseLine_text h hline hfits
    have hmatch := (hmatches hshows).mpr ⟨last, by rw [List.append_assoc, List.singleton_append]⟩
    refine ⟨nc, pieces', .loop_done (hrun.bind ?_) Exec.ret, hnext, hshows⟩
    dsimp only
    rw [if_neg hrv, if_pos hmatch]
    exact Exec.ret
  | cons t more ih =>
    obtain ⟨hline, hfits⟩ := hlines t (by simp)
    rw [List.cons_append, List.flatMap_cons, List.append_assoc] at h
    obtain ⟨rv, nc, pieces', hrun, hrv, hnext, hshows, -⟩ := readResponseLine_text h hline hfits
    have hmatch := mt (hmatches hshows).mp (hmore t (List.mem_cons_self ..))
    obtain ⟨nc', pieces'', hloop, hend⟩ := ih (fun t ht => hmore t (List.mem_cons_of_mem _ ht))
      (fun t ht => hlines t (List.mem_cons_of_mem _ ht)) hnext
    refine ⟨nc', pieces'', .loop_next (hrun.bind ?_) hloop, hend⟩
    dsimp only
    rw [if_neg hrv, if_neg hmatch]
    exact Exec.ret

/-- A call of `readResponse` takes one reply. -/
theorem readResponse_run (c : UInt8) {r : FtpReply} (hr : r.WellFormed) (hunbroken : r.Unbroken)
    (h : Arriving control (r.bytes ++ s) nControl pieces) :
    ∃ nc pieces',
      Exec (delivering control) (readResponse c nControl) pieces
        (.returned (if r.bytes.headD 0 = c then 1 else 0, nc)) pieces' ∧
      Arriving control s nc pieces' ∧ Shows nc.response (r.lastLine ++ [LF]) := by
  have hzero := hr.code_text
  obtain ⟨a, b, d, habd⟩ := List.length_eq_three.mp hr.length_eq
  -- The fourth character of the first line decides which branch the source takes.
  cases r with
  | line code text =>
    obtain rfl : code = [a, b, d] := habd
    rw [FtpReply.bytes_line] at h ⊢
    obtain ⟨rv, nc, pieces', hrun, hrv, hnext, hshows, hthird⟩ :=
      readResponseLine_text h (hunbroken _ (List.mem_singleton_self _))
        (hr.fits _ (List.mem_singleton_self _))
    refine ⟨nc, pieces', hrun.bind ?_, hnext, hshows⟩
    have hdash : nc.response.bytes[3]? ≠ some 45 := by
      rw [Ne, hthird (by simp)]
      intro hblank
      exact absurd (Option.some.inj hblank) (by decide)
    dsimp only
    rw [if_neg hrv, if_neg hdash, hshows.first]
    exact Exec.ret
  | lines code text more last =>
    obtain rfl : code = [a, b, d] := habd
    rw [FtpReply.bytes_lines, List.append_assoc] at h
    obtain ⟨rv, nc, pieces', hrun, hrv, hnext, hshows, hthird⟩ :=
      readResponseLine_text h (hunbroken _ (List.mem_cons_self ..)) (hr.fits _ (List.mem_cons_self ..))
    have hdash : nc.response.bytes[3]? = some 45 := (hthird (by simp)).mpr rfl
    have hmatch : replyMatch nc.response = [a, b, d] ++ [32] ++ [0] := hshows.replyMatch_eq hzero rfl
    obtain ⟨nc', pieces'', hloop, hend, hlast⟩ := closingLoop_run c hr.length_eq hzero hr.goesOn
      (fun t ht => ⟨hunbroken t (List.mem_cons_of_mem _ ht), hr.fits t (List.mem_cons_of_mem _ ht)⟩) hnext
    refine ⟨nc', pieces'', hrun.bind ?_, hend, hlast⟩
    have hfirst : nc'.response.first = (FtpReply.lines [a, b, d] text more last).bytes.headD 0 := by
      rw [hlast.first, FtpReply.bytes_lines]
      rfl
    dsimp only
    rw [if_neg hrv, if_pos hdash, hmatch, ← hfirst]
    exact hloop

end

/-! ## The replies of a stream -/

/-- One call of `readResponse` after another, with the characters that they expect. -/
def readResponses (cs : List UInt8) (nControl : NetBuf) : Client NetBuf :=
  match cs with
  | [] => return nControl
  | c :: cs => do
    let (_, nControl) ← readResponse c nControl
    readResponses cs nControl

/-- Where the stream is made up of the replies `rs`, the call with `c` that follows the calls with `cs`
finds the bytes of the reply `r` and those behind it, and leaves those behind it, with the last line of
`r` in `response`. -/
def ConsumesReply (control : Nat) (rs : List FtpReply) (nControl : NetBuf) (pieces : List Bytes)
    (cs : List UInt8) (c : UInt8) (r : FtpReply) : Prop :=
  ∃ nc before rv nc' after,
    Yields (delivering control) (readResponses cs nControl) pieces nc before ∧
    Arriving control ((rs.drop cs.length).flatMap FtpReply.bytes) nc before ∧
    Yields (delivering control) (readResponse c nc) before (rv, nc') after ∧
    Arriving control ((rs.drop (cs.length + 1)).flatMap FtpReply.bytes) nc' after ∧
    Shows nc'.response (r.lastLine ++ [LF]) ∧
    rv = if r.bytes.headD 0 = c then 1 else 0

theorem readResponses_run {control : Nat} {rs : List FtpReply} {nControl : NetBuf} {pieces : List Bytes}
    (hrs : ∀ r ∈ rs, r.WellFormed ∧ r.Unbroken)
    (h : Arriving control (rs.flatMap FtpReply.bytes) nControl pieces) {cs : List UInt8}
    (hcs : cs.length ≤ rs.length) :
    ∃ nc before, Exec (delivering control) (readResponses cs nControl) pieces (.returned nc) before ∧
      Arriving control ((rs.drop cs.length).flatMap FtpReply.bytes) nc before := by
  induction cs generalizing rs nControl pieces with
  | nil => exact ⟨nControl, pieces, Exec.ret, h⟩
  | cons c cs ih =>
    cases rs with
    | nil => cases hcs
    | cons r rs =>
      obtain ⟨hwell, hunbroken⟩ := hrs r (List.mem_cons_self ..)
      rw [List.flatMap_cons] at h
      obtain ⟨nc, pieces', hrun, hnext, -⟩ := readResponse_run c hwell hunbroken h
      obtain ⟨nc', before, hruns, hbefore⟩ :=
        ih (fun r hr => hrs r (List.mem_cons_of_mem _ hr)) hnext (Nat.le_of_succ_le_succ hcs)
      exact ⟨nc', before, hrun.bind hruns, hbefore⟩

/-- Each call takes one reply: in a stream of well-formed replies whose lines have no line feed within
them, for every way in which the stream is delivered. -/
theorem readResponse_consumes (control : Nat) (nControl : NetBuf) (pieces : List Bytes)
    (rs : List FtpReply) (hrs : ∀ r ∈ rs, r.WellFormed ∧ r.Unbroken)
    (h : Arriving control (rs.flatMap FtpReply.bytes) nControl pieces) (cs : List UInt8) (c : UInt8)
    (r : FtpReply) (hr : rs[cs.length]? = some r) : ConsumesReply control rs nControl pieces cs c r := by
  obtain ⟨hlt, hget⟩ := List.getElem?_eq_some_iff.mp hr
  obtain ⟨nc, before, hruns, hbefore⟩ := readResponses_run hrs h (Nat.le_of_lt hlt)
  have hdrop : rs.drop cs.length = r :: rs.drop (cs.length + 1) := by rw [List.drop_eq_getElem_cons hlt, hget]
  obtain ⟨hwell, hunbroken⟩ := hrs r (List.mem_of_getElem? hr)
  have hstream := hbefore
  rw [hdrop, List.flatMap_cons] at hstream
  obtain ⟨nc', after, hrun, hafter, hshows⟩ := readResponse_run c hwell hunbroken hstream
  have hone := delivering_deterministic control
  exact ⟨nc, before, _, nc', after, hone.yields hruns, hbefore, hone.yields hrun, hafter, hshows, rfl⟩

/-- The second of two replies, in pieces that do not end where lines do. -/
theorem readResponse_consumes_second :
    ConsumesReply 3
      [.line (ascii "220") (ascii "ready"), .lines (ascii "250") (ascii "a") [[], ascii "250-b"] (ascii "c")]
      (newControl 3 (.zeroed _)) [ascii "220 ready\r", ascii "\n250-a\r\n\r\n250-b\r\n25", ascii "0 c\r\n"]
      [50] 50 (.lines (ascii "250") (ascii "a") [[], ascii "250-b"] (ascii "c")) :=
  readResponse_consumes 3 _ _ _ (by decide +kernel)
    ⟨rfl, rfl, by decide, [], newControl_unread 3 _, by decide⟩ [50] 50 _
    (by decide)

/-- A line feed within a line ends the reply there. -/
theorem readResponse_line_feed :
    (∀ r ∈ [FtpReply.line (ascii "220") (ascii "a\nb")], r.WellFormed) ∧
      Arriving 3 ([FtpReply.line (ascii "220") (ascii "a\nb")].flatMap FtpReply.bytes)
        (newControl 3 (.zeroed _)) [ascii "220 a\nb\r\n"] ∧
      ¬ConsumesReply 3 [.line (ascii "220") (ascii "a\nb")] (newControl 3 (.zeroed _))
        [ascii "220 a\nb\r\n"] [] 50 (.line (ascii "220") (ascii "a\nb")) := by
  have hstream : Arriving 3 (ascii "220 a" ++ LF :: ascii "b\r\n") (newControl 3 (.zeroed _))
      [ascii "220 a\nb\r\n"] :=
    ⟨rfl, rfl, by decide, [], newControl_unread 3 _, by decide⟩
  refine ⟨by decide +kernel, hstream, ?_⟩
  rintro ⟨nc, before, rv, nc', after, hnone, -, hcall, hleft, -⟩
  obtain ⟨hnc, rfl⟩ := hnone.run
  obtain rfl := Outcome.returned.inj hnc
  obtain ⟨rv', nc'', after', hline, hrv, hrest, -, hthird⟩ :=
    readResponseLine_run hstream (by decide) (by decide) (by decide)
  have hdash : nc''.response.bytes[3]? ≠ some 45 := by
    rw [Ne, hthird (by decide)]
    decide
  have hrun : Exec (delivering 3) (readResponse 50 (newControl 3 (.zeroed _))) [ascii "220 a\nb\r\n"]
      (.returned (if nc''.response.first = 50 then 1 else 0, nc'')) after' := by
    refine hline.bind ?_
    dsimp only
    rw [if_neg hrv, if_neg hdash]
    exact Exec.ret
  obtain ⟨heq, rfl⟩ := hcall.only.returned hrun
  obtain rfl : nc'' = nc' := congrArg Prod.snd heq
  exact absurd (hrest.unique hleft) (by decide)

end Ftp
