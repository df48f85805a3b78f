import BaseUtilities.Files.Content

/-!
# What short transfers lose

`read_all` and `writeline` put their results together from transfers that each can be short or fail.
`read_all` takes what one `::read` delivers for the whole file, and `writeline` adds the -1 of a
newline that was not written to the bytes of the string that were.
-/

open Effects Mem

namespace Files

/-! ## What the results say -/

/-- `read_all` returns the file, or nothing. -/
def WholeOrEmpty (content text : Bytes) : Prop := text = content ∨ text = []

/-- `writeline` returns the length of the line exactly when all of it was appended, and any other
number of bytes that it returns is the number of those appended. -/
structure Counted (content str : Bytes) (n : Int) (w : OpenFile) : Prop where
  all : n = str.length + 1 ↔ w.content = content ++ (str ++ [LF])
  other : 0 ≤ n → n ≠ str.length + 1 → (w.content.length : Int) = content.length + n

/-- Nothing is lost without a word: of a file that is read, wherever its position is, and of a line
that is appended to it. -/
structure NoSilentLoss (fd : Nat) (content str : Bytes) (reads writes : Stream' Transfer) : Prop where
  read_all : ∀ pos, Returns (serving fd) (opened fd).read_all (fun text _ => WholeOrEmpty content text)
    ⟨content, pos, reads, writes⟩
  writeline : Returns (serving fd) ((opened fd).writeline str) (Counted content str)
    ⟨content, content.length, reads, writes⟩

/-- The first read of a whole file delivers a part of it. -/
def CutShort (content : Bytes) (reads : Stream' Transfer) : Prop :=
  ∃ n ∈ reads.head.moved content.length, 0 < n.1 ∧ n.1 < content.length

/-- A first write moves some of a string, and the write behind it fails. -/
def NewlineLost (str : Bytes) (writes : Stream' Transfer) : Prop :=
  (∃ n ∈ writes.head.moved str.length, 0 < n.1) ∧ (writes.get 1).moved 1 = none

section

variable (fd : Nat) (content str : Bytes) (reads writes : Stream' Transfer)

/-! ## Reading -/

theorem read_all_empty (pos : Nat) :
    Exec (serving fd) (opened fd).read_all ⟨[], pos, reads, writes⟩ (.returned [])
      ⟨[], pos, reads, writes⟩ := by
  unfold FileHandle.read_all
  rw [if_pos (opened_is_open fd)]
  exact (size_run fd ⟨[], pos, reads, writes⟩).bind .ret

/-- `read_all` returns what one read delivers from the start of the file. -/
theorem read_all_run (pos : Nat) (hne : content ≠ []) :
    Exec (serving fd) (opened fd).read_all ⟨content, pos, reads, writes⟩
      (.returned (OpenFile.coming ⟨content, 0, reads, writes⟩ content.length))
      (OpenFile.advanced ⟨content, 0, reads, writes⟩
        (OpenFile.coming ⟨content, 0, reads, writes⟩ content.length)) := by
  have hsize : ¬((content.length : Int) ≤ 0) := by
    have hpos := List.length_pos_iff.mpr hne
    omega
  unfold FileHandle.read_all
  rw [if_pos (opened_is_open fd)]
  refine (size_run fd ⟨content, pos, reads, writes⟩).bind ?_
  show Exec _ (if (content.length : Int) ≤ 0 then _ else _) _ _ _
  rw [if_neg hsize]
  refine (seek_run fd ⟨content, pos, reads, writes⟩ 0).bind ?_
  exact (read_run fd ⟨content, 0, reads, writes⟩ content.length).bind .ret

/-- A part of a file is neither the file nor empty where it is a proper one. -/
theorem wholeOrEmpty_take (n : Nat) :
    WholeOrEmpty content (content.take n) ↔ ¬(0 < n ∧ n < content.length) := by
  constructor
  · rintro (hall | hnone) ⟨hpos, hlt⟩
    · have hlen := congrArg List.length hall
      rw [List.length_take] at hlen
      omega
    · have hlen := congrArg List.length hnone
      rw [List.length_take, List.length_nil] at hlen
      omega
  · intro h
    by_cases hpos : 0 < n
    · have hle : content.length ≤ n := Nat.le_of_not_lt fun hlt => h ⟨hpos, hlt⟩
      exact .inl (List.take_of_length_le hle)
    · rw [Nat.eq_zero_of_not_pos hpos]
      exact .inr rfl

theorem read_all_iff (pos : Nat) :
    Returns (serving fd) (opened fd).read_all (fun text _ => WholeOrEmpty content text)
      ⟨content, pos, reads, writes⟩ ↔ ¬CutShort content reads := by
  by_cases hne : content = []
  · subst hne
    rw [(serving_deterministic fd).returns_iff (read_all_empty fd reads writes pos)]
    refine ⟨fun _ => ?_, fun _ => .inl rfl⟩
    rintro ⟨n, -, -, hlt⟩
    exact Nat.not_lt_zero n.1 hlt
  · have hrun := read_all_run fd content reads writes pos hne
    rw [(serving_deterministic fd).returns_iff hrun]
    unfold CutShort OpenFile.coming OpenFile.delivered
    cases reads.head.moved content.length with
    | none => simp [WholeOrEmpty]
    | some n =>
      have hpart := wholeOrEmpty_take content n.1
      simpa [OpenFile.rest] using hpart

/-! ## Writing -/

theorem writeline_counted_failed (h : writes.head.moved str.length = none) :
    Returns (serving fd) ((opened fd).writeline str) (Counted content str)
      ⟨content, content.length, reads, writes⟩ := by
  have hrun := writeline_failed fd ⟨content, content.length, reads, writes⟩ h
  refine ((serving_deterministic fd).returns_iff hrun).mpr ?_
  rw [OpenFile.extended_end rfl, List.append_nil]
  constructor
  · constructor
    · intro hn
      omega
    · intro heq
      have hlen := congrArg List.length heq
      simp only [List.length_append, List.length_cons] at hlen
      omega
  · intro hn
    omega

/-- What the two writes of a line leave, and how many bytes they report. -/
theorem writeline_at_end {n : { n : Nat // n ≤ str.length }} (h : writes.head.moved str.length = some n) :
    ∃ w, Exec (serving fd) ((opened fd).writeline str) ⟨content, content.length, reads, writes⟩
        (.returned (n.1 + FileHandle.ssize (((writes.get 1).moved 1).map (·.1)))) w ∧
      w.content = content ++ (str.take n.1 ++
        [LF].take ((((writes.get 1).moved 1).map (·.1)).getD 0)) := by
  have hrun := writeline_run fd ⟨content, content.length, reads, writes⟩ h
  have hlen : (content ++ str.take n.1).length = content.length + (str.take n.1).length :=
    List.length_append
  have hfirst := OpenFile.extended_end (w := ⟨content, content.length, reads, writes⟩) rfl (str.take n.1)
  refine ⟨_, hrun, ?_⟩
  rw [hfirst, OpenFile.extended_end hlen.symm, ← List.append_assoc]
  rfl

variable {content str}

/-- Where the newline is lost, the number says one byte too few. -/
theorem counted_lost {n : Nat} {w : OpenFile} (hn : n ≤ str.length)
    (hcontent : w.content = content ++ str.take n) :
    Counted content str (n + -1) w ↔ ¬0 < n := by
  have hlen : w.content.length = content.length + n := by
    rw [hcontent, List.length_append, List.length_take_of_le hn]
  constructor
  · intro h hpos
    have hother := h.other (by omega) (by omega)
    omega
  · intro hzero
    constructor
    · constructor
      · intro heq
        omega
      · intro heq
        have hall := congrArg List.length heq
        simp only [List.length_append, List.length_cons] at hall
        omega
    · intro hnonneg
      omega

/-- Where both writes come to something, the number is that of the bytes written. -/
theorem counted_written {n m : Nat} {w : OpenFile} (hn : n ≤ str.length) (hm : m ≤ 1)
    (hcontent : w.content = content ++ (str.take n ++ [LF].take m)) :
    Counted content str (n + m) w := by
  have hlen : w.content.length = content.length + (n + m) := by
    rw [hcontent, List.length_append, List.length_append, List.length_take_of_le hn,
      List.length_take_of_le hm]
  constructor
  · constructor
    · intro heq
      obtain rfl : n = str.length := by omega
      obtain rfl : m = 1 := by omega
      rw [hcontent, List.take_length]
      rfl
    · intro heq
      have hall := congrArg List.length heq
      simp only [List.length_append, List.length_singleton] at hall
      omega
  · intro _ _
    omega

variable (content str)

theorem writeline_iff :
    Returns (serving fd) ((opened fd).writeline str) (Counted content str)
      ⟨content, content.length, reads, writes⟩ ↔ ¬NewlineLost str writes := by
  cases hfirst : writes.head.moved str.length with
  | none =>
    refine ⟨fun _ => ?_, fun _ => writeline_counted_failed fd content str reads writes hfirst⟩
    rintro ⟨⟨n, hn, -⟩, -⟩
    rw [hfirst] at hn
    cases hn
  | some n =>
    obtain ⟨w, hrun, hcontent⟩ := writeline_at_end fd content str reads writes hfirst
    rw [(serving_deterministic fd).returns_iff hrun]
    cases hlast : (writes.get 1).moved 1 with
    | none =>
      rw [hlast, Option.map_none, Option.getD_none, List.take_zero, List.append_nil] at hcontent
      have hlost : NewlineLost str writes ↔ 0 < n.1 := by simp [NewlineLost, hfirst, hlast]
      rw [hlost]
      exact counted_lost n.2 hcontent
    | some m =>
      rw [hlast] at hcontent
      have hkept : ¬NewlineLost str writes := by simp [NewlineLost, hlast]
      exact iff_of_true (counted_written n.2 m.2 hcontent) hkept

/-! ## When nothing is lost without a word -/

/-- Nothing is lost without a word unless the read of a file is cut short, or the newline of a line is
lost behind some of the string. -/
theorem noSilentLoss_iff :
    NoSilentLoss fd content str reads writes ↔
      ¬CutShort content reads ∧ ¬NewlineLost str writes := by
  constructor
  · intro h
    exact ⟨(read_all_iff fd content reads writes 0).mp (h.read_all 0),
      (writeline_iff fd content str reads writes).mp h.writeline⟩
  · rintro ⟨hread, hwrite⟩
    exact ⟨fun pos => (read_all_iff fd content reads writes pos).mpr hread,
      (writeline_iff fd content str reads writes).mpr hwrite⟩

end

/-- One byte of two is returned for the whole file; and of a line of one byte without its newline,
`writeline` says that nothing was written. -/
theorem not_noSilentLoss :
    ¬NoSilentLoss 3 [97, 98] [99] (.const (.short 1)) full ∧
      ¬NoSilentLoss 3 [] [99] full (.cons .full (.const .failed)) := by
  constructor
  · intro h
    apply (read_all_iff 3 [97, 98] (.const (.short 1)) full 0).mp (h.read_all 0)
    exact ⟨⟨1, by decide⟩, rfl, by decide, by decide⟩
  · intro h
    apply (writeline_iff 3 [] [99] full (.cons .full (.const .failed))).mp h.writeline
    exact ⟨⟨⟨1, by decide⟩, rfl, by decide⟩, rfl⟩

end Files
