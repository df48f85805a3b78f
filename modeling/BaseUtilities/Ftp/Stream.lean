import BaseUtilities.Ftp.Frame

/-!
# Lines of a stream

What reading a line takes from a stream that is delivered in pieces.  `Feeds` follows the bytes
delivered during one call of `readLine`, in any environment; the rule says where in them the line
ends.
-/

open Effects Mem

namespace Ftp

/-- A stream on which `readLine` leaves an array of `n` bytes: a line end alone, or `n` bytes of which
none but the last is a line end. -/
def Overruns (n : Nat) (s : Bytes) : Prop :=
  s.head? = some LF ∨ n ≤ s.length ∧ LF ∉ s.take (n - 1)

/-- A stream has at most one way to begin with a line. -/
theorem line_unique {l l' s s' : Bytes} (hl : LF ∉ l) (hl' : LF ∉ l')
    (h : l ++ LF :: s = l' ++ LF :: s') : l = l' ∧ s = s' := by
  induction l generalizing l' with
  | nil =>
    cases l' with
    | nil => exact ⟨rfl, (List.cons.inj h).2⟩
    | cons c l' => exact absurd (List.mem_cons.mpr (.inl (List.cons.inj h).1)) hl'
  | cons c l ih =>
    cases l' with
    | nil => exact absurd (List.mem_cons.mpr (.inl (List.cons.inj h).1.symm)) hl
    | cons c' l' =>
      rw [List.mem_cons, not_or] at hl hl'
      simp only [List.cons_append, List.cons.injEq] at h
      obtain ⟨rfl, rfl⟩ := ih hl.2 hl'.2 h.2
      exact ⟨by rw [h.1], rfl⟩

section

variable {W : Type} {E : Env Op Op.Res W} {ok : Stop Op → W → Prop} {n fd : Nat} {u : Bytes}
  {G Eof Err : Bytes → W → Prop} {w : W}

/-- `G d` holds where `d` has been delivered behind the unread bytes `u`; `Eof d` where the end of the
stream was met after it, and `Err d` where `recv` failed. -/
structure Feeds (E : Env Op Op.Res W) (ok : Stop Op → W → Prop) (n fd : Nat) (u : Bytes)
    (G Eof Err : Bytes → W → Prop) : Prop where
  asks : ∀ d w, G d w → LF ∉ u ++ d → (u ++ d).length + 1 < n → ok (.asking (.recv fd BUFFER_SIZE)) w
  more : ∀ d w x w', G d w → E w (.recv fd BUFFER_SIZE) (some x) w' → x.1 ≠ [] → G (d ++ x.1) w'
  eof : ∀ d w x w', G d w → E w (.recv fd BUFFER_SIZE) (some x) w' → x.1 = [] → Eof d w'
  error : ∀ d w w', G d w → E w (.recv fd BUFFER_SIZE) none w' → Err d w'
  fault : ∀ d w, G d w → Overruns n (u ++ d) → ok .fault w

/-- What was taken for a line. -/
inductive Took (n : Nat) (u : Bytes) (G Eof Err : Bytes → W → Prop) (nControl : NetBuf) :
    Line → W → Prop where
  | newline {d init rest : Bytes} {w : W} (h : G d w) (hsplit : init ++ LF :: rest = u ++ d)
      (hline : LF ∉ init) (hne : init ≠ []) (hlen : init.length + 1 < n) :
      Took n u G Eof Err nControl ⟨.newline, init ++ [LF], rest, nControl⟩ w
  | full {d text rest : Bytes} {w : W} (h : G d w) (hsplit : text ++ rest = u ++ d)
      (hline : LF ∉ text) (hlen : text.length + 1 = n) :
      Took n u G Eof Err nControl ⟨.full, text, rest, nControl⟩ w
  | eof {d : Bytes} {w : W} (h : Eof d w) (hline : LF ∉ u ++ d) (hlen : (u ++ d).length + 1 < n) :
      Took n u G Eof Err nControl ⟨.eof, u ++ d, [], nControl⟩ w
  | error {d : Bytes} {w : W} (h : Err d w) (hline : LF ∉ u ++ d) (hlen : (u ++ d).length + 1 < n) :
      Took n u G Eof Err nControl ⟨.error, u ++ d, [], nControl⟩ w

/-- What one pass takes, in front of what it leaves. -/
theorem Reading.copied_prefix (s : Reading) :
    (memccpy LF (s.rest.take (s.offered n))).1 <+: s.rest :=
  List.IsPrefix.trans ⟨_, memccpy_append_drop LF (s.rest.take (s.offered n))⟩ (List.take_prefix _ _)

theorem Reading.take_append (s : Reading) : (s.take n).text ++ (s.take n).rest = s.text ++ s.rest := by
  rw [Reading.take, List.append_assoc, List.prefix_iff_eq_append.mp s.copied_prefix]

theorem Reading.take_length {s : Reading} (h : s.text.length ≤ n) : (s.take n).text.length ≤ n := by
  have hcopied := s.copied_length (n := n)
  have hoffered : s.offered n ≤ n - s.text.length := by
    rw [Reading.offered]
    split <;> omega
  rw [Reading.take, List.length_append]
  omega

/-- The line end, if one was met, is the last byte taken. -/
theorem Reading.take_found {s : Reading} (h : LF ∉ s.text) (hfound : s.found n = true) :
    ∃ init, (s.take n).text = init ++ [LF] ∧ LF ∉ init := by
  obtain ⟨init, hinit, hline⟩ := memccpy_found hfound
  refine ⟨s.text ++ init, by rw [Reading.take, hinit, List.append_assoc], ?_⟩
  rw [List.mem_append, not_or]
  exact ⟨h, hline⟩

theorem Reading.take_missing {s : Reading} (h : LF ∉ s.text) (hfound : s.found n = false) :
    LF ∉ (s.take n).text := by
  obtain ⟨-, hline⟩ := memccpy_missing hfound
  rw [Reading.take, List.mem_append, not_or, (memccpy_missing hfound).1]
  exact ⟨h, hline⟩

/-- A pass leaves the array at a line end alone, or where it has taken `n` bytes. -/
theorem Reading.overruns {s : Reading} {v : Bytes} (h : LF ∉ s.text) (hv : s.text ++ s.rest = v)
    (hbad : n ≤ (s.take n).text.length ∨ s.found n = true ∧ (s.take n).text.length < 2) :
    Overruns n v := by
  have hprefix : (s.take n).text <+: v := ⟨_, s.take_append.trans hv⟩
  rcases hbad with hfull | ⟨hfound, hshort⟩
  · refine .inr ⟨Nat.le_trans hfull hprefix.length_le, ?_⟩
    have htake : v.take (n - 1) = (s.take n).text.take (n - 1) := by
      obtain ⟨r, hr⟩ := hprefix
      rw [← hr, List.take_append_of_le_length (by omega)]
    rw [htake]
    cases hfound : s.found n with
    | false => exact fun hmem => Reading.take_missing h hfound (List.mem_of_mem_take hmem)
    | true =>
      obtain ⟨init, hinit, hline⟩ := Reading.take_found h hfound
      rw [hinit] at hfull ⊢
      rw [List.length_append, List.length_singleton] at hfull
      rw [List.take_append_of_le_length (by omega)]
      exact fun hmem => hline (List.mem_of_mem_take hmem)
  · obtain ⟨init, hinit, -⟩ := Reading.take_found h hfound
    rw [hinit] at hshort hprefix
    rw [List.length_append, List.length_singleton] at hshort
    obtain rfl : init = [] := List.length_eq_zero_iff.mp (by omega)
    obtain ⟨r, rfl⟩ := hprefix
    exact .inl rfl

/-- A line in the course of being read. -/
structure Follows (n : Nat) (u : Bytes) (G Eof : Bytes → W → Prop) (nControl : NetBuf) (s : Reading)
    (w : W) : Prop where
  nControl_eq : s.nControl = nControl
  line : LF ∉ s.text
  room : s.text.length < n
  split : ∃ d, s.text ++ s.rest = u ++ d ∧
    if s.eof then s.rest = [] ∧ s.text.length + 1 < n ∧ Eof d w else G d w

/-- Where bytes are left to be taken the stream has not ended. -/
theorem Follows.of_rest {nControl : NetBuf} {s : Reading} (h : Follows n u G Eof nControl s w)
    (hrest : s.rest ≠ []) : ∃ d, s.text ++ s.rest = u ++ d ∧ G d w := by
  obtain ⟨d, hsplit, hd⟩ := h.split
  refine ⟨d, hsplit, ?_⟩
  split at hd
  · exact absurd hd.1 hrest
  · exact hd

theorem fetchBody_rule {ctl nControl : NetBuf} {s : Reading}
    (hwait : socketWait ctl nControl = .ret (1, nControl)) (hfeeds : Feeds E ok n ctl.handle u G Eof Err)
    (h : Follows n u G Eof nControl s w) :
    wp E ok (fetchBody n ctl s)
      (Iter.post (Follows n u G Eof nControl) (Took n u G Eof Err nControl)) w := by
  have hnil : s.rest = [] → s.take n = s ∧ s.found n = false := Reading.take_nil
  have hsplit : (s.take n).text ++ (s.take n).rest = s.text ++ s.rest := s.take_append
  rw [fetchBody]
  dsimp only
  -- No room for the terminator: what was offered is more than a line that fits.
  split
  · next hfault =>
    obtain ⟨d, hd, hG⟩ := h.of_rest hfault.1
    exact wp_fault.mpr (hfeeds.fault d w hG (Reading.overruns h.line hd (.inl hfault.2)))
  next hroom =>
  -- Otherwise the terminator is inside of the array, whatever was copied.
  have hlen : (s.take n).text.length < n := by
    by_cases hrest : s.rest = []
    · rw [(hnil hrest).1]
      exact h.room
    · exact Nat.lt_of_not_le fun hfull => hroom ⟨hrest, hfull⟩
  split
  · next hfound =>
    have hrest : s.rest ≠ [] := fun hrest => by simp [(hnil hrest).2] at hfound
    obtain ⟨d, hd, hG⟩ := h.of_rest hrest
    obtain ⟨init, hinit, hline⟩ := Reading.take_found h.line hfound
    -- A line end alone, where the source would look back before the array.
    split
    · next hshort =>
      exact wp_fault.mpr (hfeeds.fault d w hG (Reading.overruns h.line hd (.inr ⟨hfound, hshort⟩)))
    · next hlong =>
      rw [hd, hinit, List.append_assoc] at hsplit
      rw [hinit, List.length_append, List.length_singleton] at hlen hlong
      have hne : init ≠ [] := fun hi => by simp [hi] at hlong
      refine wp_ret.mpr ?_
      rw [hinit, show (s.take n).nControl = nControl from h.nControl_eq]
      exact .newline hG hsplit hline hne hlen
  next hmissing =>
  have hmissing : s.found n = false := by simpa using hmissing
  have hline := Reading.take_missing h.line hmissing
  -- The array is full.
  split
  · next hfull =>
    obtain ⟨d, hd, hG⟩ : ∃ d, s.text ++ s.rest = u ++ d ∧ G d w := by
      obtain ⟨d, hd, hstate⟩ := h.split
      refine ⟨d, hd, ?_⟩
      split at hstate
      · rw [(hnil hstate.1).1] at hfull
        omega
      · exact hstate
    refine wp_ret.mpr ?_
    rw [show (s.take n).nControl = nControl from h.nControl_eq]
    exact .full hG (hsplit.trans hd) hline hfull
  next hmore =>
  have hrest : (s.take n).rest = [] := Reading.take_rest h.room hmissing hmore
  have hshort : (s.take n).text.length + 1 < n := by omega
  obtain ⟨d, hd, hstate⟩ := h.split
  rw [hd, hrest, List.append_nil] at hsplit
  rw [hsplit] at hline hshort
  have heof : (s.take n).eof = s.eof := rfl
  rw [heof]
  -- The stream had ended before this copy.
  split
  · next hended =>
    rw [if_pos hended] at hstate
    refine wp_ret.mpr ?_
    rw [hsplit, hrest, show (s.take n).nControl = nControl from h.nControl_eq]
    exact .eof hstate.2.2 hline hshort
  next hgoing =>
  rw [if_neg hgoing] at hstate
  rw [show (s.take n).nControl = nControl from h.nControl_eq, hwait, Prog.ret_bind]
  dsimp only
  rw [if_neg Int.one_ne_zero]
  -- Everything is consumed, so the next bytes are asked for.
  refine wp_call.mpr ⟨hfeeds.asks d w hstate hline hshort, fun r w' hr => ?_⟩
  cases r with
  | none =>
    refine wp_ret.mpr ?_
    rw [hsplit, hrest]
    exact .error (hfeeds.error d w w' hstate hr) hline hshort
  | some x =>
    refine wp_ret.mpr ⟨rfl, by rw [hsplit]; exact hline, by rw [hsplit]; omega, ?_⟩
    dsimp only
    rw [hsplit]
    -- An empty answer is noted as the end of the stream; the loop goes round once more.
    by_cases hx : x.1 = []
    · refine ⟨d, by rw [hx, List.append_nil], ?_⟩
      rw [hx]
      exact ⟨rfl, hshort, hfeeds.eof d w x w' hstate hr hx⟩
    · refine ⟨d ++ x.1, List.append_assoc .., ?_⟩
      rw [if_neg (by simpa using hx)]
      exact hfeeds.more d w x w' hstate hr hx

/-- The rule for reading a line. -/
theorem fetchLine_rule {ctl nControl : NetBuf} (hn : 0 < n)
    (hwait : socketWait ctl nControl = .ret (1, nControl)) (hfeeds : Feeds E ok n ctl.handle u G Eof Err)
    (hG : G [] w) :
    wp E ok (fetchLine n ctl u nControl) (Took n u G Eof Err nControl) w :=
  wp_forever (Follows n u G Eof nControl) ⟨rfl, by simp, hn, [], by simp, hG⟩ fun _ _ h =>
    fetchBody_rule hwait hfeeds h

end

/-! ## A line in one piece -/

theorem memccpy_of_not_mem {c : UInt8} {src : Bytes} (h : c ∉ src) : memccpy c src = (src, false) := by
  induction src with
  | nil => rfl
  | cons b src ih =>
    rw [List.mem_cons, not_or] at h
    rw [memccpy, if_neg (Ne.symm h.1), ih h.2]

theorem memccpy_line_append {c : UInt8} {init : Bytes} (h : c ∉ init) (s : Bytes) :
    memccpy c (init ++ c :: s) = (init ++ [c], true) := by
  induction init with
  | nil => simp [memccpy]
  | cons b init ih =>
    rw [List.mem_cons, not_or] at h
    rw [List.cons_append, memccpy, if_neg (Ne.symm h.1), ih h.2]
    rfl

theorem memccpy_line {c : UInt8} {init : Bytes} (h : c ∉ init) :
    memccpy c (init ++ [c]) = (init ++ [c], true) :=
  memccpy_line_append h []

/-- Bytes of which none but the last can be the one that is looked for. -/
theorem memccpy_whole {c : UInt8} {src : Bytes} (h : c ∉ src.dropLast) :
    ∃ found, memccpy c src = (src, found) := by
  rcases List.eq_nil_or_concat src with rfl | ⟨init, b, rfl⟩
  · exact ⟨false, rfl⟩
  · rw [List.concat_eq_append] at h ⊢
    rw [List.dropLast_concat] at h
    by_cases hb : b = c
    · subst hb
      exact ⟨true, memccpy_line h⟩
    · refine ⟨false, memccpy_of_not_mem ?_⟩
      rw [List.mem_append, List.mem_singleton, not_or]
      exact ⟨h, Ne.symm hb⟩

/-- Nothing has been received on a new connection. -/
theorem newControl_unread (fd : Nat) (buf : Buffer BUFFER_SIZE) : (newControl fd buf).Unread [] :=
  ⟨rfl, rfl, buf, rfl, Buffer.load?_eq_some (Nat.zero_le _)⟩

/-! ## Passes -/

section

variable {n : Nat} {ctl : NetBuf} {r : Reading}

/-- What a pass takes of bytes without a line end. -/
theorem Reading.take_missing_eq (hline : LF ∉ r.rest.take (r.offered n)) :
    r.take n = { r with
      text := r.text ++ r.rest.take (r.offered n), rest := r.rest.drop (r.rest.take (r.offered n)).length } ∧
      r.found n = false := by
  unfold Reading.take Reading.found
  rw [memccpy_of_not_mem hline]
  exact ⟨rfl, rfl⟩

/-- Bytes without a line end that leave room are taken as they are. -/
theorem Reading.take_all (hline : LF ∉ r.rest) (hlen : (r.text ++ r.rest).length < n) :
    r.take n = { r with text := r.text ++ r.rest, rest := [] } ∧ r.found n = false := by
  rw [List.length_append] at hlen
  have hoffered : r.offered n = r.rest.length := by
    unfold Reading.offered
    rw [if_pos (by omega)]
  have htake := Reading.take_missing_eq (n := n) (r := r) (by
    rw [hoffered, List.take_length]
    exact hline)
  rwa [hoffered, List.take_length, List.drop_length] at htake

/-- A pass without a line end waits for more bytes. -/
theorem fetchBody_more (hline : LF ∉ r.rest) (hlen : (r.text ++ r.rest).length + 1 < n) (heof : r.eof = false)
    (hwait : socketWait ctl r.nControl = .ret (1, r.nControl)) :
    fetchBody n ctl r =
      .call (.recv ctl.handle BUFFER_SIZE) fun
        | none => .ret (.done ⟨.error, r.text ++ r.rest, [], r.nControl⟩)
        | some x => .ret (.next ⟨r.text ++ r.rest, x.1, x.1.isEmpty, r.nControl⟩) := by
  obtain ⟨htake, hfound⟩ := Reading.take_all (n := n) hline (by omega)
  rw [fetchBody, htake, hfound]
  dsimp only
  rw [if_neg fun h => by omega, if_neg Bool.false_ne_true, if_neg (by omega), heof,
    if_neg Bool.false_ne_true, hwait, Prog.ret_bind]
  dsimp only
  rw [if_neg Int.one_ne_zero]
  exact congrArg (Prog.call _) (funext fun x => by cases x <;> rfl)

/-- A pass that meets a line end. -/
theorem fetchBody_newline {init rest : Bytes} (hrest : r.rest = init ++ LF :: rest) (hline : LF ∉ init)
    (hne : r.text ++ init ≠ []) (hlen : (r.text ++ init).length + 1 < n) :
    fetchBody n ctl r = .ret (.done ⟨.newline, r.text ++ init ++ [LF], rest, r.nControl⟩) := by
  have hpos := List.length_pos_iff.mpr hne
  rw [List.length_append] at hlen hpos
  -- What is offered to `memccpy` reaches behind the line end, so it stops there.
  have hoffered : init.length + 1 ≤ r.offered n := by
    unfold Reading.offered
    rw [hrest, List.length_append, List.length_cons]
    split
    · omega
    · omega
  obtain ⟨k, hk⟩ := Nat.exists_eq_add_of_le hoffered
  rw [Nat.add_assoc, Nat.add_comm 1 k] at hk
  have hcopy : memccpy LF (r.rest.take (r.offered n)) = (init ++ [LF], true) := by
    rw [hrest, hk, List.take_length_add_append, List.take_succ_cons, memccpy_line_append hline]
  have htake : r.take n = { r with text := r.text ++ init ++ [LF], rest } := by
    unfold Reading.take
    have hsplit : init ++ LF :: rest = init ++ [LF] ++ rest := by
      rw [List.append_assoc, List.singleton_append]
    rw [hcopy, hrest, hsplit]
    dsimp only
    rw [List.drop_left, List.append_assoc]
  have hfound : r.found n = true := by
    unfold Reading.found
    rw [hcopy]
  rw [fetchBody, htake, hfound]
  dsimp only
  rw [if_neg fun h => ?_, if_pos rfl, if_neg ?_]
  · rfl
  · simp only [List.length_append, List.length_singleton]
    omega
  · simp only [List.length_append, List.length_singleton] at h
    omega

end

section

variable {W : Type} {E : Env Op Op.Res W} {ok : Stop Op → W → Prop} {n : Nat} {ctl nControl : NetBuf}
  {Q : Line → W → Prop} {w w' : W} {x : Chunk BUFFER_SIZE}

/-- The first `recv` of a line. -/
theorem wp_fetchLine_recv (h : wp E ok (fetchLine n ctl [] nControl) Q w) (hn : 1 < n)
    (hwait : socketWait ctl nControl = .ret (1, nControl))
    (hx : E w (.recv ctl.handle BUFFER_SIZE) (some x) w') :
    wp E ok (Prog.forever ⟨[], x.1, x.1.isEmpty, nControl⟩ (fetchBody n ctl)) Q w' := by
  have hbody := wp_loop_unfold.mp h
  rw [fetchBody_more (by simp) (by simpa using hn) rfl hwait] at hbody
  have hnext := (wp_call.mp hbody).2 (some x) w' hx
  exact (wp_ret.mp hnext :)

/-- A line that is delivered in one piece. -/
theorem wp_fetchLine_piece (h : wp E ok (fetchLine n ctl [] nControl) Q w) (hn : 1 < n)
    (hwait : socketWait ctl nControl = .ret (1, nControl)) {found : Bool} (hne : x.1 ≠ [])
    (hlen : x.1.length ≤ n) (hcopy : memccpy LF x.1 = (x.1, found))
    (hx : E w (.recv ctl.handle BUFFER_SIZE) (some x) w') :
    if n ≤ x.1.length ∨ found = true ∧ x.1.length < 2 then ok .fault w'
    else if found = true then Q ⟨.newline, x.1, [], nControl⟩ w'
    else x.1.length + 1 = n → Q ⟨.full, x.1, [], nControl⟩ w' := by
  -- One iteration receives the piece, the next one copies it: this is the next one.
  have hbody := wp_loop_unfold.mp (wp_fetchLine_recv h hn hwait hx)
  have hempty : x.1.isEmpty = false := by simpa using hne
  have hoffered : Reading.offered n ⟨[], x.1, false, nControl⟩ = x.1.length := if_pos hlen
  have htake : Reading.take n ⟨[], x.1, false, nControl⟩ = ⟨x.1, [], false, nControl⟩ := by
    simp [Reading.take, hoffered, hcopy]
  have hfound : Reading.found n ⟨[], x.1, false, nControl⟩ = found := by
    simp [Reading.found, hoffered, hcopy]
  rw [hempty, fetchBody, htake, hfound] at hbody
  dsimp only at hbody
  -- The three outcomes of a copy that took the whole piece.
  split
  · next hbad =>
    by_cases hfull : n ≤ x.1.length
    · rw [if_pos ⟨hne, hfull⟩] at hbody
      exact wp_fault.mp hbody
    · obtain ⟨hf, hshort⟩ := hbad.resolve_left hfull
      rw [if_neg fun h => hfull h.2, if_pos hf, if_pos hshort] at hbody
      exact wp_fault.mp hbody
  next hgood =>
  rw [not_or] at hgood
  rw [if_neg fun h => hgood.1 h.2] at hbody
  split
  · next hf =>
    rw [if_pos hf, if_neg fun hshort => hgood.2 ⟨hf, hshort⟩] at hbody
    have hdone := wp_ret.mp hbody
    exact wp_ret.mp hdone
  · next hf =>
    intro hfull
    rw [if_neg hf, if_pos hfull] at hbody
    have hdone := wp_ret.mp hbody
    exact wp_ret.mp hdone

/-- The end of a stream of which nothing is left. -/
theorem wp_fetchLine_end (h : wp E ok (fetchLine n ctl [] nControl) Q w) (hn : 1 < n)
    (hwait : socketWait ctl nControl = .ret (1, nControl)) (hnil : x.1 = [])
    (hx : E w (.recv ctl.handle BUFFER_SIZE) (some x) w') : Q ⟨.eof, [], [], nControl⟩ w' := by
  have hbody := wp_loop_unfold.mp (wp_fetchLine_recv h hn hwait hx)
  have hone : ¬1 = n := by omega
  obtain ⟨htake, hfound⟩ := Reading.take_nil (n := n) (s := ⟨[], [], true, nControl⟩) rfl
  rw [hnil, List.isEmpty_nil, fetchBody, htake, hfound] at hbody
  dsimp only at hbody
  rw [if_neg (fun h => h.1 rfl), if_neg Bool.false_ne_true, if_neg (by simpa using hone),
    if_pos rfl] at hbody
  have hdone := wp_ret.mp hbody
  exact wp_ret.mp hdone

end

/-! ## The caller's array -/

theorem chomp_length_le (text : Bytes) : (chomp text).length ≤ text.length := by
  rw [chomp]
  split
  · next h =>
    have := congrArg List.length h
    simp only [List.length_drop, List.length_cons, List.length_nil] at this
    rw [List.length_append, List.length_take, List.length_singleton]
    omega
  · exact Nat.le_refl _

theorem Line.content_length_le (l : Line) : l.content.length ≤ l.text.length := by
  rw [Line.content]
  split
  · exact chomp_length_le l.text
  · exact Nat.le_of_eq List.length_set
  · exact Nat.le_refl _

/-- A line that fits is at the start of the array, with a zero behind it. -/
theorem Line.shown_bytes {n : Nat} (l : Line) (buffer : Buffer n) (hlen : l.text.length < n)
    (h : l.text ≠ [] ∨ l.ending = .full) : ∃ rest, (l.shown buffer).bytes = l.content ++ 0 :: rest := by
  have hle := l.content_length_le
  have hshown : l.shown buffer = buffer.overlay (l.content ++ l.padding) := by
    rw [Line.shown, if_neg]
    rintro ⟨htext, hfull⟩
    exact h.elim (· htext) hfull
  rw [hshown, Buffer.overlay_bytes, Line.padding, List.append_assoc, List.cons_append]
  · exact ⟨_, rfl⟩
  · simp only [Line.padding, List.length_append, List.length_cons, List.length_replicate]
    omega

/-- The value that `readFtpClient` makes of a line's. -/
def Line.count (l : Line) : Int := if l.retval = -1 then 0 else l.retval

/-- A line read without an error, as its caller finds it. -/
theorem Took.count_eq {W : Type} {n : Nat} {u : Bytes} {G Eof : Bytes → W → Prop} {nControl : NetBuf}
    {l : Line} {w : W} (h : Took n u G Eof (fun _ _ => False) nControl l w) (buffer : Buffer n) :
    l.count = l.content.length ∧ (l.shown buffer).bytes.take l.content.length = l.content := by
  have hshown : l.text.length < n → l.text ≠ [] ∨ l.ending = .full →
      (l.shown buffer).bytes.take l.content.length = l.content := by
    intro hlen htext
    obtain ⟨rest, hbytes⟩ := l.shown_bytes buffer hlen htext
    rw [hbytes, List.take_left' rfl]
  have hcount : ∀ k : Nat, l.retval = k → l.count = k := by
    intro k hk
    rw [Line.count, hk, if_neg (by omega)]
  cases h with
  | @newline d init rest w _ _ _ _ hlen =>
    exact ⟨hcount _ rfl, hshown (by simpa using hlen) (.inl (by simp))⟩
  | @full d text rest w _ _ _ hlen =>
    refine ⟨hcount _ ?_, hshown (by dsimp only; omega) (.inr rfl)⟩
    simp [Line.retval, Line.content]
  | @eof d w _ _ hlen =>
    by_cases htext : u ++ d = []
    · simp [Line.count, Line.retval, Line.content, htext]
    · refine ⟨hcount _ ?_, hshown (by dsimp only; omega) (.inl htext)⟩
      simp only [Line.retval, Line.content, htext, if_false]
  | error h => exact h.elim

/-! ## Data connections -/

/-- A data connection of a download in ASCII mode without a callback; `u` is received and not yet
read. -/
structure Reads (control : Nat) (nData : NetBuf) (u : Bytes) : Prop where
  dir_eq : nData.dir = .read
  idlecb_eq : nData.idlecb = none
  handle_ne : nData.handle ≠ control
  unread : nData.Unread u

theorem Reads.counted {control : Nat} {nData nData' : NetBuf} {u u' : Bytes} (h : Reads control nData u)
    (hcounted : nData.Counted nData') (hunread : nData'.Unread u') : Reads control nData' u' :=
  ⟨hcounted.dir_eq.trans h.dir_eq, hcounted.idlecb_eq.trans h.idlecb_eq, by
    rw [hcounted.handle_eq]
    exact h.handle_ne, hunread⟩

end Ftp
