import ArchCompSystems.OsIhw2.MemoryInvariant

namespace ArchCompSystems.OsIhw2.Mark8

open Library Library.Program

variable {τ : Type} [DecidableEq τ] [Fintype τ] {tieType : TieType}
variable {v : TieView τ} {ms : τ → Local} {w : τ} {l : Local}

/-- The worker's own part of a move: its record fits, and it does not exit. -/
structure Moved (before after : Local) : Prop where
  fits : Fits after.record after.stage
  places : after.record.place = .exited ↔ before.record.place = .exited

theorem Counted.rests {before after : Stage} (counted : Counted tieType v ms) (moved : Moved (ms w) l)
    (here : (ms w).stage = before) (there : l.stage = after) (mine : StageOk tieType v (v.info w) after)
    (users : ∀ g, after.users g = before.users g) (special : after.special = before.special) :
    Counted tieType v (Function.update ms w l) := by
  subst here there
  exact counted.stay rfl (fun _ _ => rfl) mine moved.fits (fun _ _ => rfl)
    ((counted.exits w).trans moved.places.symm) users special

theorem Counted.sets {before after : Stage} {info : SharedMemoryInfo} (counted : Counted tieType v ms)
    (moved : Moved (ms w) l) (here : (ms w).stage = before) (there : l.stage = after)
    (mine : StageOk tieType v info after) (users : ∀ g, after.users g = before.users g)
    (special : after.special = before.special) :
    Counted tieType { v with info := Function.update v.info w info } (Function.update ms w l) := by
  subst here there
  refine counted.stay rfl (fun u other => Function.update_of_ne other ..) ?_ moved.fits (fun _ _ => rfl)
    ((counted.exits w).trans moved.places.symm) users special
  simpa only [Function.update_self] using mine

theorem Counted.creates {semId : Nat → Which → Option Id} (counted : Counted tieType v ms)
    (moved : Moved (ms w) l) (here : (ms w).stage = .entering)
    (after : l.stage = .created v.segmentsCreated false) (noSegment : v.segment = none) :
    Counted tieType
      { v with
        segment := some v.segmentsCreated
        segmentsCreated := v.segmentsCreated + 1
        counter := Function.update v.counter v.segmentsCreated 0
        semId := semId }
      (Function.update ms w l) := by
  have noUser : ∀ g u, (ms u).stage.users g = 0 := by
    intro g u
    by_contra user
    have current := counted.current_of_user (Nat.pos_of_ne_zero user)
    rw [noSegment] at current
    cases current
  have noSpecial : ∀ u, (ms u).stage.special = 0 := by
    intro u
    have ok := counted.stages u
    cases stage : (ms u).stage <;> rw [stage] at ok <;> simp only [Stage.special, Nat.one_ne_zero] <;>
      simp [StageOk, noSegment] at ok
  have noneSpecial : held (fun l => l.stage.special) ms = 0 := held_eq_zero noSpecial
  have noReference : held (fun l => l.stage.users v.segmentsCreated) ms = 0 := held_eq_zero (noUser _)
  have zero : v.counter v.segmentsCreated = 0 := by
    rw [counted.counter, noReference]
    rfl
  have sameCounter : Function.update v.counter v.segmentsCreated 0 = v.counter := by
    rw [← zero, Function.update_eq_self]
  have outside := counted.stages w
  rw [here] at outside
  refine counted.move (fun u _ => ?_) ?_ moved.fits (fun _ _ => rfl) ((counted.exits w).trans moved.places.symm)
    (fun g => ?_) ?_ (fun _ => noneSpecial) ?_
  · exact (counted.stages u).of_ordinary (noSpecial u) (.inr fun g => noUser g u) (Nat.le_succ _)
  · rw [after]
    refine ⟨outside, rfl, Function.update_self .., ?_, (counted.served noneSpecial).absent noSegment⟩
    intro impossible
    cases impossible
  · rw [here, after, sameCounter]
    rfl
  · intro g current
    cases current
    exact Nat.lt_succ_self _
  · intro none
    rw [here, after, noneSpecial] at none
    cases none

theorem Counted.goesOn {counter : Nat → Int} {semId : Nat → Which → Option Id} {semaphore : Which → Option Nat}
    (counted : Counted tieType v ms) (moved : Moved (ms w) l) (before : (ms w).stage.special = 1)
    (after : l.stage.special = 1)
    (mine : StageOk tieType { v with counter := counter, semId := semId, semaphore := semaphore } (v.info w) l.stage)
    (counts : ∀ g, counter g + (ms w).stage.users g = v.counter g + l.stage.users g) :
    Counted tieType { v with counter := counter, semId := semId, semaphore := semaphore }
      (Function.update ms w l) := by
  refine counted.move (fun u other => ?_) mine moved.fits (fun _ _ => rfl) ((counted.exits w).trans moved.places.symm)
    counts counted.old ?_ ?_
  · exact (counted.stages u).of_ordinary (counted.others_ordinary before other) (.inl rfl) (Nat.le_refl _)
  · intro grows
    omega
  · intro none
    have present := le_held (fun l => l.stage.special) ms w
    rw [before] at present
    omega

theorem Counted.starts {g : Nat} (counted : Counted tieType v ms) (moved : Moved (ms w) l)
    (here : (ms w).stage = .filling g) (after : l.stage = .building g (fun _ => none) fun _ => false) :
    Counted tieType { v with counter := Function.update v.counter g 1 } (Function.update ms w l) := by
  have ok := counted.stages w
  rw [here] at ok
  obtain ⟨info, current, zero, absent⟩ := ok
  refine counted.goesOn moved (by rw [here]; rfl) (by rw [after]; rfl) ?_ fun h => ?_
  · rw [after]
    exact ⟨info, current, absent, fun which impossible => by cases impossible⟩
  · rw [here, after]
    simp only [Stage.users]
    by_cases same : h = g
    · rw [same, Function.update_self, zero, if_pos rfl]
      rfl
    · rw [Function.update_of_ne same, if_neg (Ne.symm same)]

theorem Counted.fills {g : Nat} {semId : Nat → Which → Option Id} (counted : Counted tieType v ms)
    (moved : Moved (ms w) l) (here : (ms w).stage = .filling g) (after : l.stage = .filling g) :
    Counted tieType { v with counter := Function.update v.counter g 0, semId := semId } (Function.update ms w l) := by
  have ok := counted.stages w
  rw [here] at ok
  obtain ⟨info, current, zero, absent⟩ := ok
  have same : Function.update v.counter g 0 = v.counter := by
    rw [← zero, Function.update_eq_self]
  rw [same]
  refine counted.goesOn moved (by rw [here]; rfl) (by rw [after]; rfl) ?_ fun h => ?_
  · rw [after]
    exact ⟨info, current, zero, absent⟩
  · rw [here, after]

theorem Counted.makes {g n : Nat} {which : Which} {made : Which → Option Nat} (counted : Counted tieType v ms)
    (moved : Moved (ms w) l) (here : (ms w).stage = .building g made fun _ => false)
    (after : l.stage = .building g (Function.update made which (some n)) fun _ => false) :
    Counted tieType { v with semaphore := Function.update v.semaphore which (some n) } (Function.update ms w l) := by
  have ok := counted.stages w
  rw [here] at ok
  obtain ⟨info, current, same, -⟩ := ok
  refine counted.goesOn moved (by rw [here]; rfl) (by rw [after]; rfl) ?_ fun h => ?_
  · rw [after]
    refine ⟨info, current, fun other => ?_, fun other impossible => by cases impossible⟩
    by_cases differs : other = which
    · subst differs
      simp only [Function.update_self]
    · simp only [Function.update_of_ne differs]
      exact same other
  · rw [here, after]
    rfl

def withSemId (semId : Nat → Which → Option Id) (g : Nat) (which : Which) (stored : Option Id) :
    Nat → Which → Option Id := Function.update semId g (Function.update (semId g) which stored)

omit [DecidableEq τ] [Fintype τ] in
theorem Serves.store {g n : Nat} {which other : Which} (serves : other ≠ which → Serves tieType v g other)
    (made : v.semaphore which = some n) :
    Serves tieType { v with semId := withSemId v.semId g which (some (semIdOf tieType which n)) } g other := by
  by_cases differs : other = which
  · subst differs
    exact ⟨n, made, by simp [withSemId]⟩
  · obtain ⟨n', present, stored⟩ := serves differs
    refine ⟨n', present, ?_⟩
    simp only [withSemId, Function.update_self, Function.update_of_ne differs]
    exact stored

theorem Counted.stores {g n : Nat} {which : Which} {made : Which → Option Nat} {stored : Which → Bool}
    (counted : Counted tieType v ms) (moved : Moved (ms w) l) (here : (ms w).stage = .building g made stored)
    (isMade : made which = some n)
    (after : l.stage = if allStored (Function.update stored which true) then .counted g
      else .building g made (Function.update stored which true)) :
    Counted tieType { v with semId := withSemId v.semId g which (some (semIdOf tieType which n)) }
      (Function.update ms w l) := by
  have ok := counted.stages w
  rw [here] at ok
  obtain ⟨info, current, same, serves⟩ := ok
  have special : (ms w).stage.special = 1 := by rw [here]; rfl
  have isMade' : v.semaphore which = some n := (same which).trans isMade
  have serves' : ∀ other, Function.update stored which true other = true →
      Serves tieType { v with semId := withSemId v.semId g which (some (semIdOf tieType which n)) } g other := by
    intro other isStored
    refine Serves.store (fun differs => ?_) isMade'
    rw [Function.update_of_ne differs] at isStored
    exact serves other isStored
  by_cases complete : allStored (Function.update stored which true) = true
  · rw [if_pos complete] at after
    refine counted.move (fun u other => ?_) ?_ moved.fits (fun _ _ => rfl) ((counted.exits w).trans moved.places.symm)
      (fun h => by rw [here, after]; rfl) counted.old ?_ ?_
    · exact (counted.stages u).of_ordinary (counted.others_ordinary special other) (.inl rfl) (Nat.le_refl _)
    · rw [after]
      exact ⟨info, current⟩
    · intro grows
      rw [here, after] at grows
      exact absurd grows (Nat.not_lt_zero _)
    · intro _
      refine ⟨fun h current' => ?_, fun impossible => ?_⟩
      · rw [current, Option.some.injEq] at current'
        subst current'
        have user : 0 < (ms w).stage.users g := by rw [here]; simp [Stage.users]
        refine ⟨counted.positive_of_user user, fun other => serves' other ?_⟩
        simp only [allStored, Bool.and_eq_true] at complete
        cases other
        · exact complete.1.1
        · exact complete.1.2
        · exact complete.2
      · rw [current] at impossible
        cases impossible
  · rw [if_neg complete] at after
    refine counted.goesOn moved special (by rw [after]; rfl) ?_ fun h => by rw [here, after]; rfl
    rw [after]
    exact ⟨info, current, same, serves'⟩

theorem Counted.joins {g : Nat} (counted : Counted tieType v ms) (moved : Moved (ms w) l)
    (here : (ms w).stage = .joined g) (after : l.stage = .counted g) (positive : 1 ≤ v.counter g) :
    Counted tieType { v with counter := Function.update v.counter g (v.counter g + 1) } (Function.update ms w l) := by
  have info := counted.stages w
  rw [here] at info
  have current := counted.current_of_positive positive
  refine counted.move (fun u other => ?_) ?_ moved.fits (fun _ _ => rfl) ((counted.exits w).trans moved.places.symm)
    (fun h => ?_) counted.old ?_ ?_
  · exact (counted.stages u).of_counter current positive
  · rw [after]
    exact ⟨info, current⟩
  · rw [here, after]
    simp only [Stage.users]
    by_cases same : h = g
    · rw [same, Function.update_self, if_pos rfl]
      simp
    · rw [Function.update_of_ne same, if_neg (Ne.symm same)]
  · intro grows
    rw [here, after] at grows
    exact absurd grows (Nat.lt_irrefl _)
  · intro none
    rw [here, after] at none
    have served := counted.served none
    refine ⟨fun h current' => ?_, served.absent⟩
    obtain ⟨positive', serves⟩ := served.present h current'
    refine ⟨?_, serves⟩
    rw [current, Option.some.injEq] at current'
    simp only [current', Function.update_self]
    omega

theorem Counted.ordinary_of_last {g : Nat} {u : τ} (counted : Counted tieType v ms) (current : v.segment = some g)
    (here : (ms w).stage = .leaving g) (last : v.counter g - 1 = 0) : (ms u).stage.special = 0 := by
  have notZero : ∀ {h : Nat}, v.segment = some h → v.counter h ≠ 0 := by
    intro h same zero
    rw [current, Option.some.injEq] at same
    subst same
    omega
  have ok := counted.stages u
  cases stage : (ms u).stage with
  | created h named =>
    rw [stage] at ok
    exact absurd ok.2.2.1 (notZero ok.2.1)
  | filling h =>
    rw [stage] at ok
    exact absurd ok.2.2.1 (notZero ok.2.1)
  | removing h removed =>
    rw [stage] at ok
    exact absurd ok.2.1 (notZero ok.1)
  | deleting h removed which n =>
    rw [stage] at ok
    exact absurd ok.2.1 (notZero ok.1)
  | unlinking h =>
    rw [stage] at ok
    exact absurd ok.2.1 (notZero ok.1)
  | building h made stored =>
    rw [stage] at ok
    have same := ok.2.1
    rw [current, Option.some.injEq] at same
    subst same
    have other : u ≠ w := by
      rintro rfl
      rw [here] at stage
      cases stage
    have both := add_le_held (fun l => l.stage.users g) ms other
    have total := counted.counter g
    have mine : (ms w).stage.users g = 1 := by rw [here]; simp [Stage.users]
    have theirs : (ms u).stage.users g = 1 := by rw [stage]; simp [Stage.users]
    omega
  | _ => rfl

theorem Counted.releases {g : Nat} (counted : Counted tieType v ms) (moved : Moved (ms w) l)
    (here : (ms w).stage = .leaving g)
    (after : l.stage = if v.counter g - 1 = 0 then .removing g (fun _ => false) else .detaching g) :
    Counted tieType { v with counter := Function.update v.counter g (v.counter g - 1) } (Function.update ms w l) := by
  have ok := counted.stages w
  rw [here] at ok
  obtain ⟨info, current⟩ := ok
  have user : (ms w).stage.users g = 1 := by rw [here]; simp [Stage.users]
  have user' : 0 < (ms w).stage.users g := by omega
  have positive := counted.positive_of_user user'
  have counts : ∀ h, l.stage.users h = 0 →
      Function.update v.counter g (v.counter g - 1) h + (ms w).stage.users h = v.counter h + l.stage.users h := by
    intro h none
    rw [none]
    by_cases same : h = g
    · rw [same, Function.update_self, user]
      simp
    · rw [Function.update_of_ne same, here]
      simp [Stage.users, Ne.symm same]
  have others : ∀ u, u ≠ w → StageOk tieType
      { v with counter := Function.update v.counter g (v.counter g - 1) } (v.info u) (ms u).stage :=
    fun u _ => (counted.stages u).of_counter current positive
  by_cases last : v.counter g - 1 = 0
  · rw [if_pos last] at after
    have noSpecial : held (fun l => l.stage.special) ms = 0 :=
      held_eq_zero fun u => counted.ordinary_of_last current here last
    obtain ⟨-, serves⟩ := (counted.served noSpecial).present g current
    refine counted.move others ?_ moved.fits (fun _ _ => rfl) ((counted.exits w).trans moved.places.symm)
      (fun h => counts h (by rw [after]; rfl)) counted.old (fun _ => noSpecial) ?_
    · rw [after]
      refine ⟨current, ?_, fun which => serves which⟩
      simp only [Function.update_self]
      exact last
    · intro none
      rw [here, after, noSpecial] at none
      cases none
  · rw [if_neg last] at after
    refine counted.move others ?_ moved.fits (fun _ _ => rfl) ((counted.exits w).trans moved.places.symm)
      (fun h => counts h (by rw [after]; rfl)) counted.old ?_ ?_
    · rw [after]
      exact True.intro
    · intro grows
      rw [here, after] at grows
      exact absurd grows (Nat.not_lt_zero _)
    · intro none
      rw [here, after] at none
      have served := counted.served none
      refine ⟨fun h current' => ?_, served.absent⟩
      obtain ⟨-, serves⟩ := served.present h current'
      refine ⟨?_, serves⟩
      rw [current, Option.some.injEq] at current'
      simp only [current', Function.update_self]
      rw [current'] at last positive
      omega

theorem Counted.deletes {g n : Nat} {which : Which} {removed : Which → Bool} (counted : Counted tieType v ms)
    (moved : Moved (ms w) l) (here : (ms w).stage = .deleting g removed which n)
    (after : l.stage = .removing g (Function.update removed which true)) :
    Counted tieType { v with semaphore := Function.update v.semaphore which none } (Function.update ms w l) := by
  have ok := counted.stages w
  rw [here] at ok
  obtain ⟨current, zero, each, -⟩ := ok
  refine counted.goesOn moved (by rw [here]; rfl) (by rw [after]; rfl) ?_ fun h => by rw [here, after]; rfl
  rw [after]
  refine ⟨current, zero, fun other => ?_⟩
  by_cases differs : other = which
  · subst differs
    simp only [Function.update_self, if_true]
  · simp only [Function.update_of_ne differs, Serves]
    exact each other

theorem Counted.unlinks {g : Nat} (counted : Counted tieType v ms) (moved : Moved (ms w) l)
    (here : (ms w).stage = .unlinking g) (after : l.stage = .left) :
    Counted tieType { v with segment := none } (Function.update ms w l) := by
  have ok := counted.stages w
  rw [here] at ok
  obtain ⟨current, zero, absent⟩ := ok
  have special : (ms w).stage.special = 1 := by rw [here]; rfl
  have noUser : ∀ u h, (ms u).stage.users h = 0 := by
    intro u h
    by_contra user
    have current' := counted.current_of_user (Nat.pos_of_ne_zero user)
    rw [current, Option.some.injEq] at current'
    exact user (by rw [← current']; exact counted.users_eq_zero zero u)
  refine counted.move (fun u other => ?_) ?_ moved.fits (fun _ _ => rfl) ((counted.exits w).trans moved.places.symm)
    (fun h => by rw [here, after]; rfl) ?_ ?_ ?_
  · exact (counted.stages u).of_ordinary (counted.others_ordinary special other) (.inr (noUser u)) (Nat.le_refl _)
  · rw [after]
    exact True.intro
  · intro h impossible
    cases impossible
  · intro grows
    rw [here, after] at grows
    exact absurd grows (Nat.not_lt_zero _)
  · intro _
    exact ⟨fun h impossible => (by cases impossible), fun _ => absent⟩

end ArchCompSystems.OsIhw2.Mark8
