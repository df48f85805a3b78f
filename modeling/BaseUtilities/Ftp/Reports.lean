import BaseUtilities.Ftp.Newlines
import BaseUtilities.Ftp.Transfers

/-!
# What `writeLine` reports

`writeLine` returns the length of its input where `send` has accepted all of its translation.  A wait
that is given up makes it return the number of bytes it has copied so far; in front of the last piece
these are all bytes, although that piece is not sent.
-/

open Effects Mem

namespace Ftp

/-- `socketWait` gives up: `select` fails, or the callback returns 0. -/
def givesUp : FtpEvent → Bool
  | ⟨.select _ _ _, .error _⟩ => true
  | ⟨.idlecb _ _ _, rv⟩ => rv = 0
  | _ => false

/-- The result `rv` of `writeLine` is the length of its input only where all of its translation has
been accepted, and is -1 or less than that otherwise. -/
structure Honest (buf : Bytes) (rv : Int) (t : FtpTrace) : Prop where
  full : rv = buf.length → sent t = crlfFrom 0 buf
  short : rv ≠ buf.length → rv = -1 ∨ 0 ≤ rv ∧ rv < buf.length

/-- A wait is given up where no more than a buffer of the translation is left. -/
def GivesUpLast (buf : Bytes) (t : FtpTrace) : Prop :=
  ∃ pre e post, t = pre ++ e :: post ∧ givesUp e = true ∧
    (crlfFrom 0 buf).length ≤ (sent pre).length + BUFFER_SIZE

/-- Nothing is sent but on the descriptor `fd`, and no behaviour is undefined. -/
def SendsOn (fd : Nat) : Stop Op → FtpTrace → Prop
  | .asking (.send fd' _), _ => fd' = fd
  | .asking _, _ => True
  | .fault, _ => False

section

variable {buf rest : Bytes} {t : FtpTrace} {rv : Int} {fd : Nat} {nData nControl : NetBuf}

/-! ## Waits -/

theorem sent_mono {pre post : FtpTrace} (h : t = pre ++ post) : (sent pre).length ≤ (sent t).length := by
  rw [h, sent_append, List.length_append]
  omega

/-- Nothing is given up late where more than a buffer is still to be sent in the end. -/
theorem not_givesUpLast (h : (sent t).length + BUFFER_SIZE < (crlfFrom 0 buf).length) :
    ¬GivesUpLast buf t := by
  intro hlast
  obtain ⟨pre, e, post, heq, -, hle⟩ := hlast
  have := sent_mono heq
  omega

theorem not_givesUpLast_of_any (h : t.any givesUp = false) : ¬GivesUpLast buf t := by
  intro hlast
  obtain ⟨pre, e, post, rfl, he, -⟩ := hlast
  simp [he] at h

/-- A call that is no send. -/
theorem sent_quiet {t₁ : FtpTrace} {e : FtpEvent} (he : sent [e] = []) (h : sent t₁ = sent t) :
    sent (t₁ ++ [e]) = sent t := by
  rw [sent_append, he, List.append_nil, h]

/-- A wait sends nothing, and where it fails it was given up last. -/
theorem socketWait_waits (ctl nControl : NetBuf) (ht : t.any givesUp = false) :
    wp recording (SendsOn fd) (socketWait ctl nControl)
      (fun r t' => sent t' = sent t ∧
        (r.1 ≠ 0 ∧ t'.any givesUp = false ∨
          r.1 = 0 ∧ ∃ pre e, t' = pre ++ [e] ∧ givesUp e = true ∧ sent pre = sent t)) t := by
  unfold socketWait
  split
  · exact wp_ret.mpr ⟨rfl, .inl ⟨Int.one_ne_zero, ht⟩⟩
  · exact wp_ret.mpr ⟨rfl, .inl ⟨Int.one_ne_zero, ht⟩⟩
  · apply wp_forever (fun _ t' => sent t' = sent t ∧ t'.any givesUp = false) ⟨rfl, ht⟩
    intro _ t₁ h
    have hsent := h.1
    have hnone := h.2
    apply wp_ask trivial
    intro r t₂ hr
    obtain ⟨-, rfl⟩ := hr
    have hsent' : sent (t₁ ++ [⟨.select ctl.handle ctl.dir ctl.idletime, r⟩]) = sent t :=
      sent_quiet rfl hsent
    cases r with
    | error text =>
      -- `select` fails
      exact wp_ret.mpr ⟨hsent', .inr ⟨rfl, t₁, _, rfl, rfl, hsent⟩⟩
    | ready => exact wp_ret.mpr ⟨hsent', .inl ⟨Int.one_ne_zero, by simp [hnone, givesUp]⟩⟩
    | timeout =>
      apply wp_ask trivial
      intro rv t₃ hrv
      obtain ⟨-, rfl⟩ := hrv
      apply wp_ret.mpr
      split
      · next hgo => exact ⟨sent_quiet rfl hsent', by simp [hnone, givesUp, hgo]⟩
      · next hstop =>
        -- the callback returns 0
        have hup : givesUp ⟨.idlecb _ ctl.xfered ctl.idlearg, rv⟩ = true := by simpa [givesUp] using hstop
        exact ⟨sent_quiet rfl hsent', .inr ⟨rfl, _, _, rfl, hup, hsent'⟩⟩

/-! ## Sends -/

/-- A result of `writeLine` is honest, or the last wait was given up and it is the full length. -/
def HonestOrGivenUp (buf : Bytes) (rv : Int) (t : FtpTrace) : Prop :=
  ¬GivesUpLast buf t ∧ Honest buf rv t ∨
    GivesUpLast buf t ∧ rv = buf.length ∧ sent t ≠ crlfFrom 0 buf

theorem HonestOrGivenUp.iff (h : HonestOrGivenUp buf rv t) : Honest buf rv t ↔ ¬GivesUpLast buf t := by
  rcases h with ⟨hno, hhonest⟩ | ⟨hlast, hrv, hsent⟩
  · exact ⟨fun _ => hno, fun _ => hhonest⟩
  · constructor
    · intro hhonest
      exact absurd (hhonest.full hrv) hsent
    · intro hno
      exact absurd hlast hno

/-- Between two sends: nothing was given up, and `rest` is still to be sent. -/
def Unsent (buf rest : Bytes) (t : FtpTrace) : Prop :=
  sent t ++ rest = crlfFrom 0 buf ∧ t.any givesUp = false

theorem HonestOrGivenUp.failed (ht : t.any givesUp = false) : HonestOrGivenUp buf (-1) t :=
  .inl ⟨not_givesUpLast_of_any ht, by
    constructor
    · intro hlen
      omega
    · intro _
      exact .inl rfl⟩

/-- A send of the first `nb` bytes of the buffer: all of it, with more behind it, or the last piece. -/
theorem writeFlush_reports {nbp : Buffer BUFFER_SIZE} {nb : Nat} {x : Int} (hpos : 0 < nb)
    (hnb : nb ≤ BUFFER_SIZE)
    (hx : rest ≠ [] ∧ nb = BUFFER_SIZE ∧ 0 ≤ x ∧ x < buf.length ∨ rest = [] ∧ x = buf.length)
    (hJ : Unsent buf (nbp.bytes.take nb ++ rest) t) :
    wp recording (SendsOn nData.handle) (writeFlush nData nControl nbp nb x)
      (fun r t => match r.1 with
        | none => Unsent buf rest t
        | some v => HonestOrGivenUp buf v t) t := by
  obtain ⟨himage, ht⟩ := hJ
  have hpiece := nbp.take_length hnb
  have hlength : (sent t).length + nb + rest.length = (crlfFrom 0 buf).length := by
    rw [← himage, List.length_append, List.length_append, hpiece]
    omega
  unfold writeFlush
  apply (socketWait_waits nData nControl ht).bind
  intro r t' hwait
  obtain ⟨hsent, hwait⟩ := hwait
  dsimp only
  split
  · next hready =>
    obtain ⟨-, pre, e, rfl, he, hpre⟩ := hwait.resolve_left fun h => h.1 hready
    apply wp_ret.mpr
    show HonestOrGivenUp buf x (pre ++ [e])
    rcases hx with ⟨hrest, hfull, hlo, hhi⟩ | ⟨hrest, hlen⟩
    · -- in front of a full buffer with more behind it the result is short
      have hbehind := List.length_pos_iff.mpr hrest
      have hlt : (sent (pre ++ [e])).length + BUFFER_SIZE < (crlfFrom 0 buf).length := by
        rw [hsent]
        omega
      refine .inl ⟨not_givesUpLast hlt, ?_, fun _ => .inr ⟨hlo, hhi⟩⟩
      intro heq
      omega
    · -- in front of the last piece it is the full length
      subst hrest
      rw [List.length_nil] at hlength
      refine .inr ⟨⟨pre, e, [], rfl, he, ?_⟩, hlen, ?_⟩
      · rw [hpre]
        omega
      · intro hall
        rw [← hall, hsent] at hlength
        omega
  · next hready =>
    obtain ⟨-, hnone⟩ := hwait.resolve_right fun h => hready h.1
    have hasks : SendsOn nData.handle (.asking (.send nData.handle (nbp.bytes.take nb))) t' := rfl
    apply wp_ask hasks
    intro w t'' hw
    obtain ⟨-, rfl⟩ := hw
    have hnone' : (t' ++ [(⟨.send nData.handle (nbp.bytes.take nb), w⟩ : FtpEvent)]).any givesUp = false := by
      simp [hnone, givesUp]
    cases w with
    | none => exact wp_ret.mpr (.failed hnone')
    | some k =>
      apply wp_ret.mpr
      dsimp only
      split
      · next heq =>
        split at heq
        · cases heq
        · next hall =>
          -- all of the piece is accepted
          have hk : k.1 = nb := not_not.mp hall
          refine ⟨?_, hnone'⟩
          have hpiece' : sent [(⟨.send nData.handle (nbp.bytes.take nb), some k⟩ : FtpEvent)] =
              nbp.bytes.take nb := by
            show (nbp.bytes.take nb).take k.1 ++ [] = _
            rw [List.append_nil, hk, List.take_take, Nat.min_self]
          rw [sent_append, hpiece', hsent, List.append_assoc]
          exact himage
      · next v heq =>
        split at heq
        · obtain rfl := Option.some.inj heq
          exact .failed hnone'
        · cases heq

/-! ## `writeLine` -/

theorem writeLine_reports {nbp : Buffer BUFFER_SIZE} (hdir : nData.dir = .write)
    (hbuf : nData.buf = some nbp) :
    wp recording (SendsOn nData.handle) (writeLine buf nData nControl) (fun r t => HonestOrGivenUp buf r.1 t)
      [] := by
  have hrule : wp recording (SendsOn nData.handle) (writeLine buf nData nControl) _ [] :=
    writeLine_rule (J := fun rest _ t => Unsent buf rest t) (K := fun v _ t => HonestOrGivenUp buf v t)
      hdir hbuf ?_ ?_ ⟨rfl, rfl⟩
  · apply hrule.mono
    intro r t h
    rcases h.2 with ⟨hlen, hsent, ht⟩ | hreported
    · rw [List.append_nil] at hsent
      exact .inl ⟨not_givesUpLast_of_any ht, fun _ => hsent, fun hne => absurd hlen hne⟩
    · exact hreported
  · -- a full buffer
    intro nbp rest nc x t hrest hx hJ
    have htake := nbp.take_all
    rw [← htake] at hJ
    exact writeFlush_reports (by decide) (Nat.le_refl _)
      (.inl ⟨hrest, rfl, Int.natCast_nonneg x, Int.ofNat_lt.mpr hx⟩) hJ
  · -- the last piece
    intro s nc t hpos hnb hJ
    rw [WriteState.out, ← List.append_nil (s.nbp.bytes.take s.nb)] at hJ
    exact writeFlush_reports hpos hnb (.inr ⟨rfl, rfl⟩) hJ

/-- In every run `writeLine` reports what `send` has accepted if and only if no wait is given up where
no more than a buffer of the translation is left. -/
theorem writeLine_honest_iff (buf : Bytes) (nData nControl : NetBuf) :
    wp recording (fun stop t => nData.buf ≠ none → SendsOn nData.handle stop t)
      (writeLine buf nData nControl) (fun r t => Honest buf r.1 t ↔ ¬GivesUpLast buf t) [] := by
  by_cases hdir : nData.dir = .write
  · cases hbuf : nData.buf with
    | none =>
      unfold writeLine
      rw [if_neg (not_not.mpr hdir), hbuf]
      exact wp_fault.mpr fun hno => absurd rfl hno
    | some nbp =>
      apply ((writeLine_reports hdir hbuf).weaken fun _ _ h _ => h).mono
      intro r t h
      exact h.iff
  · unfold writeLine
    rw [if_pos hdir]
    exact wp_ret.mpr (HonestOrGivenUp.failed rfl).iff

end

/-! ## An abort in front of the last piece -/

/-- A data connection for an upload in ASCII mode, with a callback. -/
def uploadData : NetBuf :=
  { newData exampleControl 4 (some (.zeroed _)) .write with idlecb := some ⟨0⟩ }

/-- The callback aborts before anything is sent. -/
def abortedLast : FtpTrace := [⟨.select 4 .write ⟨0, 0⟩, .timeout⟩, ⟨.idlecb ⟨0⟩ 0 0, (0 : Int)⟩]

theorem not_honest : ¬∀ (buf : Bytes) (nData nControl : NetBuf), nData.dir = .write →
    nData.buf ≠ none →
    wp recording (fun _ _ => True) (writeLine buf nData nControl) (fun r t => Honest buf r.1 t) [] := by
  intro h
  have hwp := h [97] uploadData exampleControl rfl nofun
  have hallowed : Allowed (fun _ _ => True) (fun t e => t ++ [e]) [] abortedLast :=
    ⟨trivial, trivial, trivial⟩
  have hreplay : (writeLine [97] uploadData exampleControl).replays 4 abortedLast
      (Outcome.returns fun r => r.1 = 1) = true := by
    decide +kernel
  obtain ⟨r, hexec, hout⟩ := Prog.replays_returned hreplay (path_watching hallowed)
  have hone : r.1 = 1 := of_decide_eq_true hout
  exact absurd ((hwp.returned hexec).full hone) (by decide)

end Ftp
