import Mathlib.Data.List.Basic
import Mathlib.Data.List.Infix
import Mathlib.Tactic.Common

namespace ArchCompSystems.Library

/-- One read of at most `size` elements from a stream: it would block, or it returns some. -/
inductive Cut (size : Nat) where
  | blocked
  | elements (count : Nat) (some : 0 < count) (le : count ≤ size)

namespace Cut

variable {size : Nat} {α : Type}

def length : Cut size → Nat
  | .blocked => 0
  | .elements count _ _ => count

def total : List (Cut size) → Nat
  | [] => 0
  | cut :: cuts => cut.length + total cuts

def pieces : List (Cut size) → List α → List (Option (List α))
  | [], _ => []
  | .blocked :: cuts, stream => none :: pieces cuts stream
  | .elements count _ _ :: cuts, stream => some (stream.take count) :: pieces cuts (stream.drop count)

def wholePieces (size : Nat) (read : List (Option (List α))) : List (List α) :=
  read.filterMap fun piece => piece.filter fun elements => elements.length = size

def AllShort (cuts : List (Cut size)) : Prop := ∀ cut ∈ cuts, cut.length < size

/-- No read of full size comes after a shorter one that was not blocked. -/
def NoWholeAfterShort : List (Cut size) → Prop
  | [] => True
  | .blocked :: cuts => NoWholeAfterShort cuts
  | .elements count _ _ :: cuts => if count = size then NoWholeAfterShort cuts else AllShort cuts

/-- How many elements the reads take from the first short one on. -/
def totalFromShort : List (Cut size) → Nat
  | [] => 0
  | .blocked :: cuts => totalFromShort cuts
  | .elements count _ _ :: cuts => if count = size then totalFromShort cuts else count + total cuts

def Frames (size : Nat) (frames : List (List α)) : Prop := ∀ frame ∈ frames, frame.length = size

theorem Frames.length_flatten {frames : List (List α)} (each : Frames size frames) :
    frames.flatten.length = frames.length * size := by
  rw [List.length_flatten, List.map_eq_replicate_iff.mpr each, List.sum_replicate_nat]

theorem Frames.tail {frame : List α} {frames : List (List α)} (each : Frames size (frame :: frames)) :
    Frames size frames := fun other member => each other (List.mem_cons_of_mem _ member)

theorem wholePieces_blocked (read : List (Option (List α))) :
    wholePieces size (none :: read) = wholePieces size read := rfl

theorem wholePieces_whole {piece : List α} {read : List (Option (List α))} (whole : piece.length = size) :
    wholePieces size (some piece :: read) = piece :: wholePieces size read := by
  simp [wholePieces, whole, Option.filter]

theorem wholePieces_short {piece : List α} {read : List (Option (List α))} (short : piece.length ≠ size) :
    wholePieces size (some piece :: read) = wholePieces size read := by
  simp [wholePieces, short, Option.filter]

theorem frames_wholePieces (read : List (Option (List α))) : Frames size (wholePieces size read) := by
  intro frame member
  obtain ⟨piece, -, kept⟩ := List.mem_filterMap.mp member
  exact of_decide_eq_true (Option.filter_eq_some_iff.mp kept).2

theorem length_pieces_le (cuts : List (Cut size)) (stream : List α) :
    ∀ piece ∈ pieces cuts stream, ∀ elements ∈ piece, elements.length ≤ size := by
  induction cuts generalizing stream with
  | nil => simp [pieces]
  | cons cut cuts ih =>
    cases cut with
    | blocked =>
      rintro piece (_ | ⟨_, later⟩) elements member
      · cases member
      · exact ih stream piece later elements member
    | elements count some le =>
      rintro piece (_ | ⟨_, later⟩) elements member
      · cases member
        exact Nat.le_trans (List.length_take_le _ _) le
      · exact ih (stream.drop count) piece later elements member

theorem wholePieces_allShort {cuts : List (Cut size)} (short : AllShort cuts) (stream : List α) :
    wholePieces size (pieces cuts stream) = [] := by
  induction cuts generalizing stream with
  | nil => rfl
  | cons cut cuts ih =>
    have shorter := short cut (List.mem_cons_self ..)
    have rest := fun stream => ih (fun other member => short other (List.mem_cons_of_mem _ member)) stream
    cases cut with
    | blocked => exact rest stream
    | elements count pos le =>
      simp only [length] at shorter
      rw [pieces, wholePieces_short (by rw [List.length_take]; omega), rest]

theorem wholePieces_prefix {cuts : List (Cut size)} {frames : List (List α)}
    (safe : NoWholeAfterShort cuts) (each : Frames size frames)
    (enough : total cuts ≤ frames.flatten.length) :
    wholePieces size (pieces cuts frames.flatten) <+: frames := by
  induction cuts generalizing frames with
  | nil => exact List.nil_prefix
  | cons cut cuts ih =>
    cases cut with
    | blocked => exact ih safe each (by simpa [total, length] using enough)
    | elements count pos le =>
      rw [NoWholeAfterShort] at safe
      split at safe
      · rename_i whole
        subst whole
        cases frames with
        | nil =>
          simp only [total, length, List.flatten_nil, List.length_nil] at enough
          omega
        | cons frame frames =>
          have full := each frame (List.mem_cons_self ..)
          have left : total cuts ≤ frames.flatten.length := by
            simp only [total, length, List.flatten_cons, List.length_append, full] at enough
            omega
          rw [pieces, List.flatten_cons, List.take_left' full, List.drop_left' full,
            wholePieces_whole full]
          exact List.cons_prefix_cons.mpr ⟨rfl, ih safe each.tail left⟩
      · rename_i short
        rw [pieces, wholePieces_short (by rw [List.length_take]; omega), wholePieces_allShort safe]
        exact List.nil_prefix

def wholeCount : List (Cut size) → Nat
  | [] => 0
  | cut :: cuts => (if cut.length = size then 1 else 0) + wholeCount cuts

theorem length_wholePieces (pos : 0 < size) {cuts : List (Cut size)} {stream : List α}
    (enough : total cuts ≤ stream.length) :
    (wholePieces size (pieces cuts stream)).length = wholeCount cuts := by
  induction cuts generalizing stream with
  | nil => rfl
  | cons cut cuts ih =>
    cases cut with
    | blocked =>
      rw [pieces, wholePieces_blocked, wholeCount, if_neg (by simp only [length]; omega), Nat.zero_add]
      exact ih (by simpa [total, length] using enough)
    | elements count some le =>
      simp only [total, length] at enough
      have left : total cuts ≤ (stream.drop count).length := by rw [List.length_drop]; omega
      have taken : (stream.take count).length = count := by rw [List.length_take]; omega
      by_cases whole : count = size
      · rw [pieces, wholePieces_whole (taken.trans whole), List.length_cons, ih left, wholeCount,
          if_pos (by simpa only [length] using whole), Nat.add_comm]
      · rw [pieces, wholePieces_short (by rw [taken]; exact whole), ih left, wholeCount,
          if_neg (by simpa only [length] using whole), Nat.zero_add]

theorem wholeCount_of_allShort {cuts : List (Cut size)} (short : AllShort cuts) : wholeCount cuts = 0 := by
  induction cuts with
  | nil => rfl
  | cons cut cuts ih =>
    rw [wholeCount, if_neg (Nat.ne_of_lt (short cut (List.mem_cons_self ..))),
      ih fun other member => short other (List.mem_cons_of_mem _ member)]

/-- Without whole pieces after short ones, what is read is the kept frames and the short rest. -/
theorem total_eq {cuts : List (Cut size)} (pos : 0 < size) (safe : NoWholeAfterShort cuts) :
    total cuts = wholeCount cuts * size + totalFromShort cuts := by
  induction cuts with
  | nil => simp [total, wholeCount, totalFromShort]
  | cons cut cuts ih =>
    cases cut with
    | blocked =>
      have other : ¬ 0 = size := by omega
      simpa [total, wholeCount, totalFromShort, length, other] using ih safe
    | elements count some le =>
      rw [NoWholeAfterShort] at safe
      split at safe
      · rename_i whole
        have rest := ih safe
        rw [total, wholeCount, totalFromShort, if_pos (by simpa only [length] using whole), if_pos whole,
          rest, length, whole, Nat.add_mul]
        omega
      · rename_i short
        rw [total, wholeCount, totalFromShort, if_neg (by simpa only [length] using short), if_neg short,
          wholeCount_of_allShort safe, length]
        omega

/-- The reads of a whole frame's length from the first short one on: none is of full size. -/
theorem noWholeAfterShort_of_totalFromShort {cuts : List (Cut size)}
    (few : totalFromShort cuts < size) : NoWholeAfterShort cuts := by
  have short_of_total : ∀ cuts : List (Cut size), total cuts < size → AllShort cuts := by
    intro cuts less cut member
    induction cuts with
    | nil => cases member
    | cons other cuts ih =>
      simp only [total] at less
      rcases List.mem_cons.mp member with rfl | later
      · omega
      · exact ih (by omega) later
  induction cuts with
  | nil => exact True.intro
  | cons cut cuts ih =>
    cases cut with
    | blocked => exact ih few
    | elements count some le =>
      rw [totalFromShort] at few
      rw [NoWholeAfterShort]
      split
      · rename_i whole
        rw [if_pos whole] at few
        exact ih few
      · rename_i short
        rw [if_neg short] at few
        exact short_of_total cuts (by omega)

theorem wholePieces_take {cuts : List (Cut size)} {frames : List (List α)}
    (few : totalFromShort cuts < size) (each : Frames size frames)
    (enough : total cuts ≤ frames.flatten.length) :
    wholePieces size (pieces cuts frames.flatten) = frames.take (total cuts / size) := by
  have pos : 0 < size := by omega
  have safe := noWholeAfterShort_of_totalFromShort few
  have kept := List.prefix_iff_eq_take.mp ( wholePieces_prefix safe each enough)
  rw [kept, length_wholePieces pos enough, total_eq pos safe, Nat.mul_comm,
    Nat.mul_add_div pos, Nat.div_eq_of_lt few, Nat.add_zero]

theorem mem_wholePieces_replicate {cuts : List (Cut size)} {count : Nat} {value : α} {piece : List α}
    (member : piece ∈ wholePieces size (pieces cuts (List.replicate count value))) :
    piece = List.replicate size value := by
  induction cuts generalizing count with
  | nil => cases member
  | cons cut cuts ih =>
    cases cut with
    | blocked => exact ih member
    | elements taken some le =>
      rw [pieces, List.take_replicate, List.drop_replicate] at member
      by_cases whole : (List.replicate (min taken count) value).length = size
      · rw [wholePieces_whole whole] at member
        rcases List.mem_cons.mp member with rfl | later
        · rw [List.length_replicate] at whole
          rw [whole]
        · exact ih later
      · rw [wholePieces_short whole] at member
        exact ih member

theorem wholeCount_pos {cuts : List (Cut size)} (whole : ¬ AllShort cuts) : 0 < wholeCount cuts := by
  induction cuts with
  | nil => exact absurd (fun _ member => by cases member) whole
  | cons cut cuts ih =>
    rw [wholeCount]
    by_cases full : cut.length = size
    · rw [if_pos full]
      omega
    · have less : cut.length < size := by
        cases cut with
        | blocked => exact Nat.pos_of_ne_zero fun zero => full (by simp only [length, zero])
        | elements count some le => exact Nat.lt_of_le_of_ne le full
      have rest : ¬ AllShort cuts := fun short => whole fun other member => by
        rcases List.mem_cons.mp member with rfl | later
        · exact less
        · exact short other later
      exact Nat.lt_of_lt_of_le (ih rest) (Nat.le_add_left _ _)

def marked (size : Nat) (mark value : α) : List α := mark :: List.replicate (size - 1) value

theorem length_marked (pos : 0 < size) (mark value : α) : (marked size mark value).length = size := by
  rw [marked, List.length_cons, List.length_replicate]
  omega

/-- A marked frame followed by `count` equal ones. -/
def markedFrames (size count : Nat) (mark value : α) : List (List α) :=
  marked size mark value :: List.replicate count (List.replicate size value)

theorem frames_markedFrames (pos : 0 < size) (count : Nat) (mark value : α) :
    Frames size (markedFrames size count mark value) := by
  rintro frame (_ | ⟨_, member⟩)
  · exact length_marked pos mark value
  · rw [List.eq_of_mem_replicate member, List.length_replicate]

theorem flatten_markedFrames (count : Nat) (mark value : α) :
    (markedFrames size count mark value).flatten =
      mark :: List.replicate (size - 1 + count * size) value := by
  rw [markedFrames, List.flatten_cons, List.flatten_replicate_replicate, marked, List.cons_append,
    List.replicate_append_replicate]

theorem not_prefix_of_short {cuts : List (Cut size)} {count : Nat} {some : 0 < count}
    {le : count ≤ size} (short : count ≠ size) (whole : ¬ AllShort cuts) {mark value : α}
    (other : mark ≠ value) : ¬ wholePieces size (pieces (.elements count some le :: cuts)
      (markedFrames size (total cuts) mark value).flatten) <+:
        markedFrames size (total cuts) mark value := by
  have pos : 0 < size := by omega
  have most := Nat.le_mul_of_pos_right (total cuts) pos
  obtain ⟨before, rfl⟩ : ∃ before, count = before + 1 := ⟨count - 1, by omega⟩
  rw [pieces, flatten_markedFrames, List.drop_succ_cons, List.drop_replicate, wholePieces_short
    (by rw [List.length_take, List.length_cons, List.length_replicate]; omega)]
  have kept := @length_wholePieces size α pos cuts
    (List.replicate (size - 1 + total cuts * size - before) value)
    (by rw [List.length_replicate]; omega)
  have constant := @mem_wholePieces_replicate size α cuts
    (size - 1 + total cuts * size - before) value
  cases read : wholePieces size (pieces cuts
      (List.replicate (size - 1 + total cuts * size - before) value)) with
  | nil =>
    rw [read, List.length_nil] at kept
    exact absurd kept.symm (Nat.ne_of_gt (wholeCount_pos whole))
  | cons piece rest =>
    have first := constant (by rw [read]; exact List.mem_cons_self ..)
    intro leads
    have same := (List.cons_prefix_cons.mp leads).1
    obtain ⟨size', rfl⟩ : ∃ size', size = size' + 1 := ⟨size - 1, by omega⟩
    rw [first, marked, List.replicate_succ] at same
    exact other (List.cons.inj same).1.symm

theorem exists_not_prefix {cuts : List (Cut size)} (pos : 0 < size) (desynchronised : ¬ NoWholeAfterShort cuts)
    {mark value : α} (other : mark ≠ value) :
    ∃ frames : List (List α), Frames size frames ∧ total cuts ≤ frames.flatten.length ∧
      ¬ wholePieces size (pieces cuts frames.flatten) <+: frames := by
  induction cuts with
  | nil => exact absurd True.intro desynchronised
  | cons cut cuts ih =>
    cases cut with
    | blocked =>
      obtain ⟨frames, each, enough, differs⟩ := ih desynchronised
      exact ⟨frames, each, by simpa [total, length] using enough, differs⟩
    | elements count some le =>
      rw [NoWholeAfterShort] at desynchronised
      split at desynchronised
      · rename_i whole
        subst whole
        obtain ⟨frames, each, enough, differs⟩ := ih desynchronised
        have full : (List.replicate count value).length = count := List.length_replicate ..
        refine ⟨List.replicate count value :: frames, ?_, ?_, ?_⟩
        · rintro frame (_ | ⟨_, member⟩)
          · exact full
          · exact each frame member
        · simp only [total, length, List.flatten_cons, List.length_append, full]
          omega
        · rw [pieces, List.flatten_cons, List.take_left' full, List.drop_left' full,
            wholePieces_whole full]
          exact fun leads => differs (List.cons_prefix_cons.mp leads).2
      · rename_i short
        refine ⟨_, frames_markedFrames pos (total cuts) mark value, ?_,
          not_prefix_of_short short desynchronised other⟩
        have most := Nat.le_mul_of_pos_right (total cuts) pos
        rw [flatten_markedFrames, List.length_cons, List.length_replicate, total, length]
        omega

/-- The reader keeps the frames that were read wholly, whatever they are, exactly when it reads less
    than a frame from the first short piece on. -/
theorem keeps_frames_iff {cuts : List (Cut size)} (pos : 0 < size) {mark value : α} (other : mark ≠ value) :
    (∀ frames : List (List α), Frames size frames → total cuts ≤ frames.flatten.length →
      wholePieces size (pieces cuts frames.flatten) = frames.take (total cuts / size)) ↔
    totalFromShort cuts < size := by
  constructor
  · intro kept
    by_contra many
    have safe : NoWholeAfterShort cuts := by
      by_contra desynchronised
      obtain ⟨frames, each, enough, differs⟩ := exists_not_prefix pos desynchronised other
      rw [kept frames each enough] at differs
      exact differs (List.take_prefix _ _)
    have each : Frames size (List.replicate (total cuts) (List.replicate size value)) := by
      intro frame member
      rw [List.eq_of_mem_replicate member, List.length_replicate]
    have enough : total cuts ≤ (List.replicate (total cuts) (List.replicate size value)).flatten.length := by
      rw [each.length_flatten, List.length_replicate]
      exact Nat.le_mul_of_pos_right _ pos
    have lengths := congrArg List.length (kept _ each enough)
    rw [length_wholePieces pos enough, List.length_take, List.length_replicate,
      Nat.min_eq_left (Nat.div_le_self _ _), total_eq pos safe, Nat.mul_comm,
      Nat.mul_add_div pos] at lengths
    have := Nat.div_pos (Nat.le_of_not_lt many) pos
    omega
  · intro few frames each enough
    exact wholePieces_take few each enough

/-- What the reader keeps is a prefix of the frames, whatever they are, exactly when no whole piece
    comes after a short one. -/
theorem keeps_prefix_iff {cuts : List (Cut size)} (pos : 0 < size) {mark value : α} (other : mark ≠ value) :
    (∀ frames : List (List α), Frames size frames → total cuts ≤ frames.flatten.length →
      wholePieces size (pieces cuts frames.flatten) <+: frames) ↔ NoWholeAfterShort cuts := by
  constructor
  · intro kept
    by_contra desynchronised
    obtain ⟨frames, each, enough, differs⟩ := exists_not_prefix pos desynchronised other
    exact differs (kept frames each enough)
  · intro safe frames each enough
    exact wholePieces_prefix safe each enough

end Cut

end ArchCompSystems.Library
