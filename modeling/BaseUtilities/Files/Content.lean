import BaseUtilities.Effects.Runs
import BaseUtilities.Files.FileHandle
import Mathlib.Data.Stream.Init

/-!
# The file behind a handle

One regular file that is open, and what its transfers come to.  A `::read` or `::write` can move fewer
bytes than it is asked for, or fail; which of that the coming ones do is part of the state, so that a
statement about every state is one about every sequence of results.
-/

open Effects Mem

namespace Files

/-! ## Transfers -/

/-- What a `::read` or `::write` does: all that it can, at most `n` bytes of it, or nothing at all. -/
inductive Transfer where
  | full
  | short (n : Nat)
  | failed
  deriving DecidableEq, Repr

/-- The number of bytes that a transfer of at most `count` bytes moves. -/
def Transfer.moved (t : Transfer) (count : Nat) : Option { n : Nat // n ≤ count } :=
  match t with
  | .full => some ⟨count, Nat.le_refl count⟩
  | .short n => some ⟨min n count, Nat.min_le_right n count⟩
  | .failed => none

/-- Every result that a transfer can have is the one of some `Transfer`. -/
theorem Transfer.moved_surjective {count : Nat} (r : Option { n : Nat // n ≤ count }) :
    ∃ t : Transfer, t.moved count = r := by
  cases r with
  | none => exact ⟨.failed, rfl⟩
  | some n => exact ⟨.short n.1, congrArg some (Subtype.ext (Nat.min_eq_left n.2))⟩

@[simp] theorem Transfer.moved_full (count : Nat) :
    Transfer.full.moved count = some ⟨count, Nat.le_refl count⟩ := rfl

/-- The transfers that move all that they can. -/
abbrev full : Stream' Transfer := .const .full

/-! ## Open files -/

/-- A file, the position of its descriptor, and the reads and writes to come. -/
structure OpenFile where
  content : Bytes
  pos : Nat
  reads : Stream' Transfer
  writes : Stream' Transfer

namespace OpenFile

/-- The bytes behind the position. -/
def rest (w : OpenFile) : Bytes := w.content.drop w.pos

/-- What the next `::read` of `count` bytes delivers. -/
def delivered (w : OpenFile) (count : Nat) : Option { data : Bytes // data.length ≤ count } :=
  (w.reads.head.moved count).map fun n =>
    ⟨w.rest.take n.1, Nat.le_trans (List.length_take_le n.1 w.rest) n.2⟩

/-- The bytes that the next `::read` of `count` bytes moves, none where it fails. -/
def coming (w : OpenFile) (count : Nat) : Bytes := ((w.delivered count).map (·.1)).getD []

/-- The bytes of `data` that the next `::write` moves, none where it fails. -/
def taken (w : OpenFile) (data : Bytes) : Bytes :=
  data.take (((w.writes.head.moved data.length).map (·.1)).getD 0)

/-- The content with `data` written at the position; zeros fill the room between. -/
def overwritten (w : OpenFile) (data : Bytes) : Bytes :=
  w.content.take w.pos ++ List.replicate (w.pos - w.content.length) 0 ++ data ++
    w.content.drop (w.pos + data.length)

/-- The file after a read that has delivered `data`. -/
def advanced (w : OpenFile) (data : Bytes) : OpenFile :=
  { w with pos := w.pos + data.length, reads := w.reads.tail }

/-- The file after a write that has moved `data`. -/
def extended (w : OpenFile) (data : Bytes) : OpenFile :=
  { w with
    content := if data = [] then w.content else w.overwritten data
    pos := w.pos + data.length
    writes := w.writes.tail }

/-- The place that `::lseek` counts from. -/
def base (w : OpenFile) : SeekOrigin → Int
  | .begin => 0
  | .current => w.pos
  | .end_ => w.content.length

/-- The answers to the calls on the descriptor `fd`. -/
def answer (fd : Int) (w : OpenFile) : (op : Op) → Option (Op.Res op × OpenFile)
  | .fstat d => if d = fd then some (some w.content.length, w) else none
  | .lseek d offset origin =>
    if d = fd then
      if 0 ≤ w.base origin + offset then
        some (w.base origin + offset, { w with pos := (w.base origin + offset).toNat })
      else
        some ((-1 : Int), w)
    else none
  | .fsync d => if d = fd then some ((0 : Int), w) else none
  | .read d count =>
    if d = fd then some (w.delivered count, w.advanced (w.coming count)) else none
  | .write d data =>
    if d = fd then some (w.writes.head.moved data.length, w.extended (w.taken data)) else none
  | _ => none

end OpenFile

/-- The system, for a program that only uses the descriptor `fd`. -/
def serving (fd : Nat) : Env Op Op.Res OpenFile := answering (OpenFile.answer fd)

theorem serving_deterministic (fd : Nat) : Deterministic (serving fd) := answering_deterministic _

/-! ## What the calls of a handle come to -/

/-- The handle of the descriptor `fd`. -/
def opened (fd : Nat) : FileHandle := ⟨fd⟩

@[simp] theorem opened_is_open (fd : Nat) : (opened fd).is_open = true :=
  decide_eq_true (Int.natCast_nonneg fd)

section

variable (fd : Nat) (w : OpenFile)

theorem size_run : Exec (serving fd) (opened fd).size w (.returned (w.content.length : Int)) w := by
  unfold FileHandle.size
  rw [if_pos (opened_is_open fd)]
  exact (exec_perform (if_pos rfl)).bind .ret

theorem seek_run (offset : Nat) :
    Exec (serving fd) ((opened fd).seek offset .begin) w (.returned (offset : Int))
      { w with pos := offset } := by
  unfold FileHandle.seek
  rw [if_pos (opened_is_open fd)]
  apply exec_perform
  simp [OpenFile.answer, OpenFile.base, opened]

theorem read_run (count : Nat) :
    Exec (serving fd) ((opened fd).read count) w (.returned ((w.delivered count).map (·.1)))
      (w.advanced (w.coming count)) := by
  unfold FileHandle.read
  rw [if_pos (opened_is_open fd)]
  exact (exec_perform (if_pos rfl)).bind .ret

theorem write_run (data : Bytes) :
    Exec (serving fd) ((opened fd).write data) w
      (.returned ((w.writes.head.moved data.length).map (·.1))) (w.extended (w.taken data)) := by
  unfold FileHandle.write
  rw [if_pos (opened_is_open fd)]
  exact (exec_perform (if_pos rfl)).bind .ret

/-- `writeline` writes the newline behind whatever the string has come to. -/
theorem writeline_run {str : Bytes} {n : { n : Nat // n ≤ str.length }}
    (hn : w.writes.head.moved str.length = some n) :
    Exec (serving fd) ((opened fd).writeline str) w
      (.returned (n.1 + FileHandle.ssize (((w.writes.get 1).moved 1).map (·.1))))
      ((w.extended (str.take n.1)).extended ((w.extended (str.take n.1)).taken [LF])) := by
  have hfirst := write_run fd w str
  rw [OpenFile.taken, hn, Option.map_some, Option.getD_some] at hfirst
  refine hfirst.bind ?_
  have hsize : ¬FileHandle.ssize (some n.1) < 0 := Int.not_lt.mpr (Int.natCast_nonneg n.1)
  rw [if_neg hsize]
  exact (write_run fd (w.extended (str.take n.1)) [LF]).bind .ret

theorem writeline_failed {str : Bytes} (hn : w.writes.head.moved str.length = none) :
    Exec (serving fd) ((opened fd).writeline str) w (.returned (-1)) (w.extended []) := by
  have hfirst := write_run fd w str
  rw [OpenFile.taken, hn] at hfirst
  exact hfirst.bind .ret

end

/-- What a write at the end of the file leaves. -/
theorem OpenFile.extended_end {w : OpenFile} (h : w.pos = w.content.length) (data : Bytes) :
    w.extended data = ⟨w.content ++ data, w.content.length + data.length, w.reads, w.writes.tail⟩ := by
  unfold extended overwritten
  rw [h, Nat.sub_self, List.take_length, List.drop_of_length_le (Nat.le_add_right _ _)]
  by_cases hdata : data = []
  · rw [if_pos hdata, hdata, List.append_nil]
  · rw [if_neg hdata, List.replicate_zero, List.append_nil, List.append_nil]

/-! ## Files whose transfers are full -/

/-- A file whose reads and writes all move what they are asked for. -/
def steady (content : Bytes) (pos : Nat) : OpenFile := ⟨content, pos, full, full⟩

section

variable (fd : Nat) (content : Bytes)

theorem steady_read (pos count : Nat) :
    Exec (serving fd) ((opened fd).read count) (steady content pos)
      (.returned (some ((content.drop pos).take count)))
      (steady content (pos + ((content.drop pos).take count).length)) :=
  read_run fd (steady content pos) count

theorem steady_writeline (str : Bytes) :
    Exec (serving fd) ((opened fd).writeline str) (steady content content.length)
      (.returned ((str.length + 1 : Nat) : Int))
      (steady (content ++ (str ++ [LF])) (content ++ (str ++ [LF])).length) := by
  have h := writeline_run fd (steady content content.length)
    (Transfer.moved_full str.length : (steady content content.length).writes.head.moved _ = _)
  have hend : (steady content content.length).extended (str.take str.length) =
      steady (content ++ str) (content ++ str).length := by
    rw [OpenFile.extended_end rfl, List.take_length, List.length_append]
    rfl
  rw [hend] at h
  have hlast : (steady (content ++ str) (content ++ str).length).extended [LF] =
      steady (content ++ (str ++ [LF])) (content ++ (str ++ [LF])).length := by
    have hlen : (content ++ str ++ [LF]).length = (content ++ str).length + 1 := List.length_append
    rw [OpenFile.extended_end rfl, ← List.append_assoc, hlen]
    rfl
  rw [← hlast]
  exact h

end

end Files
