import BaseUtilities.Files.Content
import BaseUtilities.Memory.Text

/-!
# Lines that are written and read back

`getline` reports a line where it has met a delimiter or has read a byte, so that what it yields from
one call to the next are the lines of the file behind the position: empty ones between delimiters, an
unfinished one at the end, and none behind a delimiter that ends the file.
-/

open Effects Mem

namespace Files

/-! ## The caller -/

/-- Write strings, one `writeline` after another. -/
def writelines (self : FileHandle) : List Bytes → Code Unit
  | [] => return ()
  | line :: lines => do
    let _ ← self.writeline line
    writelines self lines

/-- A call of `getline`, and another one unless it returns false. -/
def getlinesLoop (self : FileHandle) (delimiter : UInt8) (read : List Bytes × Bytes) :
    Code (Iter (List Bytes × Bytes) (List Bytes)) := do
  let (more, line) ← self.getline read.2 delimiter
  if more then
    return .next (read.1 ++ [line], line)
  else
    return .done read.1

/-- The lines that `getline` yields until it returns false. -/
def getlines (self : FileHandle) (delimiter : UInt8) : Code (List Bytes) :=
  Prog.forever ([], []) (getlinesLoop self delimiter)

/-- Lines are written, and read again from the start. -/
def rewritten (self : FileHandle) (lines : List Bytes) : Code (List Bytes) := do
  writelines self lines
  let _ ← self.seek 0 .begin
  getlines self LF

/-! ## One line -/

section

variable {fd : Nat} {content : Bytes} {d : UInt8}

/-- A pass of `getline` over a byte that is no delimiter. -/
theorem getlineLoop_next {pos : Nat} {c : UInt8} {s : Bytes} (hrest : content.drop pos = c :: s)
    (hc : c ≠ d) (line : Bytes) :
    Exec (serving fd) ((opened fd).getlineLoop d line) (steady content pos)
      (.returned (.next (line ++ [c]))) (steady content (pos + 1)) := by
  have hread := steady_read fd content pos 1
  rw [hrest] at hread
  refine hread.bind ?_
  show Exec _ (if c = d then _ else _) _ _ _
  rw [if_neg hc]
  exact .ret

theorem getlineLoop_delimiter {pos : Nat} {s : Bytes} (hrest : content.drop pos = d :: s)
    (line : Bytes) :
    Exec (serving fd) ((opened fd).getlineLoop d line) (steady content pos)
      (.returned (.done (true, line))) (steady content (pos + 1)) := by
  have hread := steady_read fd content pos 1
  rw [hrest] at hread
  refine hread.bind ?_
  show Exec _ (if d = d then _ else _) _ _ _
  rw [if_pos rfl]
  exact .ret

theorem getlineLoop_end {pos : Nat} (hrest : content.drop pos = []) (line : Bytes) :
    Exec (serving fd) ((opened fd).getlineLoop d line) (steady content pos)
      (.returned (.done (!line.isEmpty, line))) (steady content pos) := by
  have hread := steady_read fd content pos 1
  rw [hrest] at hread
  exact hread.bind .ret

theorem drop_append {pos : Nat} {l s : Bytes} (h : content.drop pos = l ++ s) :
    content.drop (pos + l.length) = s := by
  rw [← List.drop_drop, h, List.drop_left]

/-- The passes over a line that a delimiter ends. -/
theorem getlineLoop_ended {l s : Bytes} (hl : d ∉ l) {pos : Nat}
    (hrest : content.drop pos = l ++ d :: s) (line : Bytes) :
    Exec (serving fd) (Prog.forever line ((opened fd).getlineLoop d)) (steady content pos)
      (.returned (true, line ++ l)) (steady content (pos + (l.length + 1))) := by
  induction l generalizing pos line with
  | nil =>
    rw [List.append_nil]
    exact .loop_done (getlineLoop_delimiter hrest line) .ret
  | cons c l ih =>
    have hc : c ≠ d := fun heq => hl (heq ▸ List.mem_cons_self)
    have hl' : d ∉ l := fun hmem => hl (List.mem_cons_of_mem c hmem)
    have hnext : content.drop (pos + 1) = l ++ d :: s := drop_append (l := [c]) hrest
    have hih := ih hl' hnext (line ++ [c])
    rw [List.append_assoc, List.singleton_append, Nat.add_assoc, Nat.add_comm 1] at hih
    exact .loop_next (getlineLoop_next hrest hc line) hih

/-- The passes over the end of a file without a delimiter. -/
theorem getlineLoop_unended {l : Bytes} (hl : d ∉ l) {pos : Nat} (hrest : content.drop pos = l)
    (line : Bytes) :
    Exec (serving fd) (Prog.forever line ((opened fd).getlineLoop d)) (steady content pos)
      (.returned (!(line ++ l).isEmpty, line ++ l)) (steady content (pos + l.length)) := by
  induction l generalizing pos line with
  | nil =>
    rw [List.append_nil]
    exact .loop_done (getlineLoop_end hrest line) .ret
  | cons c l ih =>
    have hc : c ≠ d := fun heq => hl (heq ▸ List.mem_cons_self)
    have hl' : d ∉ l := fun hmem => hl (List.mem_cons_of_mem c hmem)
    have hnext : content.drop (pos + 1) = l := drop_append (l := [c]) hrest
    have hih := ih hl' hnext (line ++ [c])
    rw [List.append_assoc, List.singleton_append, Nat.add_assoc, Nat.add_comm 1] at hih
    exact .loop_next (getlineLoop_next hrest hc line) hih

/-- `getline` on a file that is not empty is its loop. -/
theorem getline_run {pos : Nat} {r : Bool × Bytes} {w : OpenFile} (hne : content ≠ [])
    (hloop : Exec (serving fd) (Prog.forever [] ((opened fd).getlineLoop d)) (steady content pos)
      (.returned r) w) (line : Bytes) :
    Exec (serving fd) ((opened fd).getline line d) (steady content pos) (.returned r) w := by
  unfold FileHandle.getline
  rw [if_pos (opened_is_open fd)]
  refine (size_run fd (steady content pos)).bind ?_
  have hsize : ¬((content.length : Int) ≤ 0) := by
    have hpos := List.length_pos_iff.mpr hne
    omega
  show Exec _ (if (content.length : Int) ≤ 0 then _ else _) _ _ _
  rw [if_neg hsize]
  exact hloop

theorem getline_empty (pos : Nat) (line : Bytes) :
    Exec (serving fd) ((opened fd).getline line d) (steady [] pos) (.returned (false, line))
      (steady [] pos) := by
  unfold FileHandle.getline
  rw [if_pos (opened_is_open fd)]
  exact (size_run fd (steady [] pos)).bind .ret

/-! ## All lines -/

/-- At the end of a file there are no more lines. -/
theorem getlines_end {pos : Nat} (hrest : content.drop pos = []) (read : List Bytes × Bytes) :
    Exec (serving fd) (Prog.forever read (getlinesLoop (opened fd) d)) (steady content pos)
      (.returned read.1) (steady content pos) := by
  have hline : ∃ line', Exec (serving fd) ((opened fd).getline read.2 d) (steady content pos)
      (.returned (false, line')) (steady content pos) := by
    by_cases hne : content = []
    · rw [hne]
      exact ⟨read.2, getline_empty pos read.2⟩
    · exact ⟨[], getline_run hne (getlineLoop_unended List.not_mem_nil hrest []) read.2⟩
  obtain ⟨line', hline⟩ := hline
  exact .loop_done (hline.bind .ret) .ret

/-- What `getline` yields from a position on are the lines behind it. -/
theorem getlines_run {s : Bytes} {pos : Nat} (hrest : content.drop pos = s)
    (read : List Bytes × Bytes) :
    Exec (serving fd) (Prog.forever read (getlinesLoop (opened fd) d)) (steady content pos)
      (.returned (read.1 ++ linesOf d s)) (steady content (pos + s.length)) := by
  -- On the lines that are left: the loop of `getline` takes one of them off in each iteration.
  induction s using lines_induction d generalizing pos read with
  | nil =>
    rw [linesOf_nil, List.append_nil]
    exact getlines_end hrest read
  | unended l hl hne =>
    have hcontent : content ≠ [] := by
      rintro rfl
      exact hne (hrest.symm.trans List.drop_nil)
    have hline : Exec (serving fd) ((opened fd).getline read.2 d) _ _ _ :=
      getline_run hcontent (getlineLoop_unended hl hrest []) read.2
    have hmore : (!([] ++ l).isEmpty) = true := by simpa using hne
    rw [hmore] at hline
    -- The last line has no delimiter: `getline` met the end of the file after it had read something, so
    -- it still reports success, and only the next call fails.
    have hend : content.drop (pos + l.length) = [] := by
      rw [← List.drop_drop, hrest, List.drop_length]
    rw [linesOf_unended d hl hne]
    exact .loop_next (hline.bind .ret) (getlines_end hend (read.1 ++ [l], l))
  | ended l s hl ih =>
    have hcontent : content ≠ [] := by
      rintro rfl
      simp at hrest
    have hline : Exec (serving fd) ((opened fd).getline read.2 d) _ _ _ :=
      getline_run hcontent (getlineLoop_ended hl hrest []) read.2
    have hnext : content.drop (pos + (l.length + 1)) = s := by
      have hsplit : content.drop pos = (l ++ [d]) ++ s := by
        rw [hrest, List.append_assoc, List.singleton_append]
      have hdrop := drop_append hsplit
      rwa [List.length_append] at hdrop
    have hih := ih hnext (read.1 ++ [l], l)
    rw [List.append_assoc, List.singleton_append] at hih
    rw [linesOf_ended d hl, List.length_append, List.length_cons, Nat.add_comm s.length,
      ← Nat.add_assoc l.length, ← Nat.add_assoc pos]
    exact .loop_next (hline.bind .ret) hih

theorem getlines_start (content : Bytes) :
    Exec (serving fd) (getlines (opened fd) d) (steady content 0) (.returned (linesOf d content))
      (steady content (0 + content.length)) :=
  getlines_run (show content.drop 0 = content from List.drop_zero) ([], [])

theorem writelines_run (lines : List Bytes) :
    Exec (serving fd) (writelines (opened fd) lines) (steady content content.length) (.returned ())
      (steady (content ++ lines.flatMap fun l => l ++ [LF])
        (content ++ lines.flatMap fun l => l ++ [LF]).length) := by
  induction lines generalizing content with
  | nil =>
    rw [List.flatMap_nil, List.append_nil]
    exact .ret
  | cons line lines ih =>
    rw [List.flatMap_cons, ← List.append_assoc]
    exact (steady_writeline fd content line).bind ih

theorem rewritten_run {lines : List Bytes} (h : ∀ l ∈ lines, LF ∉ l) :
    ∃ w, Exec (serving fd) (rewritten (opened fd) lines) (steady [] 0) (.returned lines) w := by
  have hwritten : Exec (serving fd) (writelines (opened fd) lines) (steady [] 0) _ _ :=
    writelines_run lines
  have hread : Exec (serving fd) (getlines (opened fd) LF) _ _ _ :=
    getlines_start (lines.flatMap fun l => l ++ [LF])
  rw [linesOf_flatMap LF h] at hread
  exact ⟨_, hwritten.bind ((seek_run fd _ 0).bind hread)⟩

end

/-! ## Round trips -/

/-- Lines that are written to an empty file are the lines that are read back; and the lines of any
file, joined by the delimiter, are the file, up to a delimiter at its end. -/
theorem lines_roundTrip (fd : Nat) :
    (∀ lines : List { l : Bytes // LF ∉ l },
      Returns (serving fd) (rewritten (opened fd) (lines.map (·.1)))
        (fun read _ => read = lines.map (·.1)) (steady [] 0)) ∧
    ∀ (content : Bytes) (d : UInt8),
      Returns (serving fd) (getlines (opened fd) d)
        (fun read _ => [d].intercalate read = content ∨ [d].intercalate read ++ [d] = content)
        (steady content 0) := by
  refine ⟨fun lines => ?_, fun content d => ?_⟩
  · have hlines : ∀ l ∈ lines.map (·.1), LF ∉ l := by
      intro l hl
      obtain ⟨l', -, rfl⟩ := List.mem_map.mp hl
      exact l'.2
    obtain ⟨w, hrun⟩ : ∃ w, Exec (serving fd) _ _ _ w := rewritten_run hlines
    exact ((serving_deterministic fd).returns_iff hrun).mpr rfl
  · exact ((serving_deterministic fd).returns_iff (getlines_start content)).mpr
      (linesOf_joined d content)

end Files
