import ArchCompSystems.Ihw4.SlotInvariant

namespace ArchCompSystems.Ihw4.Versions

open Library Library.Program

section

variable {n : Nat} {version : Version} {string : List UInt8} {s s' : State n} {ms : Thread n → Stage}
  {slots slots' : Entries} {t : Thread n} {stage stage' : Stage}

theorem resultsComparer_eq {number : Nat → Nat} {a b : Nat} (first : number a < 2 ^ 31) (second : number b < 2 ^ 31) :
    resultsComparer number (some a) (some b) = (number a : Int) - number b := by
  unfold resultsComparer
  simp only [Option.map_some, Option.getD_some]
  rw [BitVec.toInt_eq_toNat_cond, BitVec.toNat_setWidth, BitVec.toNat_sub, BitVec.toNat_ofNat, BitVec.toNat_ofNat,
    Nat.mod_eq_of_lt (show number a < 2 ^ 64 by omega), Nat.mod_eq_of_lt (show number b < 2 ^ 64 by omega)]
  split <;> omega

theorem resultsComparer_consistent {number : Nat → Nat} {results : List (Option Nat)}
    (few : ∀ result ∈ results, ∃ a, result = some a ∧ number a < 2 ^ 31) :
    Consistent (resultsComparer number) results := by
  intro first member second member'
  obtain ⟨a, rfl, boundA⟩ := few first member
  obtain ⟨b, rfl, boundB⟩ := few second member'
  rw [resultsComparer_eq boundA boundB, resultsComparer_eq boundB boundA]
  refine ⟨by omega, fun third member'' => ?_⟩
  obtain ⟨c, rfl, boundC⟩ := few third member''
  rw [resultsComparer_eq boundB boundC, resultsComparer_eq boundA boundC]
  omega

theorem SlotsOk.perm (ok : SlotsOk string s slots) (perm : slots'.Perm slots) : SlotsOk string s slots' where
  length := perm.length_eq.trans ok.length
  nodup := (perm.map Prod.snd).nodup_iff.mpr ok.nodup
  inside slot member := ok.inside slot (perm.mem_iff.mp member)
  counted slot member := ok.counted slot (perm.mem_iff.mp member)
  allocated slot member := ok.allocated slot (perm.mem_iff.mp member)
  number slot member := ok.number slot (perm.mem_iff.mp member)
  codes slot member := ok.codes slot (perm.mem_iff.mp member)

def State.slotOf (s : State n) (result : Option Nat) : Nat × Nat := (result.getD 0, s.shared.chunkNo (result.getD 0))

theorem results_eq (filled : ∀ i slot, slots[i]? = some slot → s.resultsArray i = some slot.1) :
    s.results slots.length = slots.map fun slot => some slot.1 := by
  refine List.ext_getElem? fun i => ?_
  rw [State.results, List.getElem?_map, List.getElem?_map]
  rcases Nat.lt_or_ge i slots.length with inside | beyond
  · have taken : slots[i]? = some slots[i] := List.getElem?_eq_getElem inside
    rw [List.getElem?_range inside, taken]
    exact congrArg some (filled i _ taken)
  · rw [List.getElem?_eq_none (by simpa using beyond), List.getElem?_eq_none beyond]
    rfl

/-- `qsort` permutes the slots, and orders them by their chunks unless there are too many. -/
theorem Slotting.sorts (slotting : Slotting version string s ms slots) (some : 0 < n) {written : OutFile → List Code}
    (known : ms .main = .printing slots written) {sorted : List (Option Nat)}
    (done : Sorts (resultsComparer s.shared.chunkNo) (s.results slots.length) sorted) :
    ∃ slots' : Entries, slots'.Perm slots ∧ (maxChunkNo string < 2 ^ 31 → slots'.Pairwise (·.2 ≤ ·.2)) ∧
      Slotting version string { s with
          resultsArray := fun i => if i < slots.length then sorted[i]?.getD none else s.resultsArray i }
        (Function.update ms .main (.printing slots' written)) slots' := by
  obtain ⟨-, exited, -, same⟩ := slotting.ok known
  have ended : ∀ i, ms (.encoder i) = .ended := fun i => slotting.exited i (exited i)
  obtain ⟨-, filled⟩ := slotting.all_slotted some ended (by rw [known]; exact ⟨rfl, rfl⟩)
  have ok := slotting.slotsOk
  rw [results_eq filled] at done
  have members : ∀ result ∈ sorted, ∃ slot ∈ slots, result = Option.some slot.1 := fun result member => by
    obtain ⟨slot, stored, rfl⟩ := List.mem_map.mp (done.1.mem_iff.mp member)
    exact ⟨slot, stored, rfl⟩
  have back : (slots.map fun slot => Option.some slot.1).map s.slotOf = slots := by
    rw [List.map_map]
    refine (List.map_congr_left fun slot stored => ?_).trans (List.map_id slots)
    exact Prod.ext rfl (ok.number slot stored)
  have perm : (sorted.map s.slotOf).Perm slots := by
    have mapped := done.1.map s.slotOf
    rwa [back] at mapped
  refine ⟨sorted.map s.slotOf, perm, fun few => ?_, ?_⟩
  · have bound : ∀ slot ∈ slots, s.shared.chunkNo slot.1 < 2 ^ 31 := fun slot stored => by
      rw [ok.number slot stored]
      exact Nat.lt_trans (ok.inside slot stored) few
    have ordered := done.2 (resultsComparer_consistent fun result member => by
      obtain ⟨slot, stored, rfl⟩ := List.mem_map.mp member
      exact ⟨slot.1, rfl, bound slot stored⟩)
    refine List.pairwise_map.mpr (ordered.imp_of_mem fun {first second} member member' compared => ?_)
    obtain ⟨slot, stored, rfl⟩ := members first member
    obtain ⟨slot', stored', rfl⟩ := members second member'
    rw [resultsComparer_eq (bound slot stored) (bound slot' stored')] at compared
    simp only [State.slotOf, Option.getD_some]
    omega
  · refine slotting.move (fun u other => ?_) ⟨rfl, exited, rfl, same⟩ (fun within => nomatch within)
      (fun u _ within => (slotting.critical u within).2)
      (slotting.still_apart (by simp [Stage.chunk]) (by simp [Stage.node]))
      ((ok.perm perm).frame rfl (Nat.le_refl _) (Nat.le_refl _) fun _ _ => ⟨rfl, rfl⟩) (fun i slot taken => ?_)
      (fun k inside counted => ?_) (slotting.still_exited known (by simp) rfl)
    · cases u with
      | main => exact absurd rfl other
      | encoder i =>
        have last := slotting.ok (ended i)
        rw [ended i]
        exact last
    · rw [List.getElem?_map] at taken
      obtain ⟨result, present, rfl⟩ := Option.map_eq_some_iff.mp taken
      obtain ⟨slot, -, rfl⟩ := members result (List.mem_of_getElem? present)
      have inside : i < slots.length := by
        rw [← perm.length_eq, List.length_map]
        exact (List.getElem?_eq_some_iff.mp present).1
      refine .inl ?_
      simp only [if_pos inside, present]
      rfl
    · rcases slotting.complete k inside counted with stored | ⟨u, his⟩
      · exact .inl ((perm.map Prod.snd).mem_iff.mpr stored)
      · cases u with
        | main => rw [known] at his; cases his
        | encoder i => rw [ended i] at his; cases his

def Slotted (version : Version) (string : List UInt8) (s' : State n) (ms : Thread n → Stage) (t : Thread n)
    (stage : Stage) (c : Call n) (answer : c.Answer) : Prop :=
  ∃ stage', (slotOrder n version string).moves stage c answer stage' ∧
    ∃ slots', Slotting version string s' (Function.update ms t stage') slots'

variable {c : Call n} {answer : c.Answer}

theorem Quiet.rfl : Quiet s s := ⟨Eq.refl _, Eq.refl _, Eq.refl _, Eq.refl _, Eq.refl _, Eq.refl _, Eq.refl _, Eq.refl _⟩

theorem Slotting.perform_idle (slotting : Slotting version string s ms slots) {seen : Nat}
    (known : ms t = .idle seen) (allowed : (slotOrder n version string).allowed (.idle seen) c)
    (performed : perform t c answer s = some s') : Slotted version string s' ms t (.idle seen) c answer := by
  obtain ⟨encoder, later⟩ := slotting.ok known
  cases c <;> try exact (allowed : False).elim
  case fetchAddChunkNo =>
    obtain ⟨rfl, ⟨⟩⟩ := Option.ite_none_right_eq_some.mp performed
    refine ⟨_, ⟨later, rfl⟩, slots, slotting.counts known encoder (by simp) ⟨rfl, rfl⟩ (fun u k _ counting => ?_)
      ⟨rfl, rfl, rfl⟩ (fun within => nomatch within) fun _ claims => claims⟩
    have third := (slotting.critical u (by rw [counting]; rfl)).1
    exact absurd (third.symm.trans allowed) (by decide)
  case enterCritical =>
    obtain ⟨free, ⟨⟩⟩ := Option.ite_none_right_eq_some.mp performed
    exact ⟨_, rfl, slots, slotting.enters known (by simp) allowed free ⟨encoder, later⟩ rfl rfl rfl⟩

theorem Slotting.perform_entered (slotting : Slotting version string s ms slots) {seen : Nat}
    (known : ms t = .entered seen) (allowed : (slotOrder n version string).allowed (.entered seen) c)
    (performed : perform t c answer s = some s') : Slotted version string s' ms t (.entered seen) c answer := by
  obtain ⟨encoder, later⟩ := slotting.ok known
  cases c <;> try exact (allowed : False).elim
  case shared c =>
    cases c <;> try exact (allowed : False).elim
    case loadCurrentChunkNo =>
      obtain ⟨shared, done, rfl⟩ := Option.map_eq_some_iff.mp performed
      obtain ⟨rfl, ⟨⟩⟩ := Option.ite_none_right_eq_some.mp done
      exact ⟨_, ⟨later, rfl⟩, slots, slotting.calmly known (by simp) Quiet.rfl rfl ⟨encoder, rfl⟩
        (fun within => within) rfl rfl rfl⟩

theorem Slotting.perform_counting (slotting : Slotting version string s ms slots) {chunkNo : Nat}
    (known : ms t = .counting chunkNo) (allowed : (slotOrder n version string).allowed (.counting chunkNo) c)
    (performed : perform t c answer s = some s') : Slotted version string s' ms t (.counting chunkNo) c answer := by
  obtain ⟨encoder, rfl⟩ := slotting.ok known
  have own := (slotting.critical t (by rw [known]; rfl)).2
  cases c <;> try exact (allowed : False).elim
  case shared c =>
    cases c <;> try exact (allowed : False).elim
    case storeCurrentChunkNo next =>
      obtain ⟨⟩ := performed
      obtain rfl : next = _ + 1 := allowed
      refine ⟨_, rfl, slots, slotting.counts known encoder (by simp) ⟨rfl, rfl⟩ (fun u k other counting => ?_)
        ⟨rfl, rfl, rfl⟩ (fun within => within) fun _ claims => claims⟩
      exact slotting.others own u other (by rw [counting]; rfl)

theorem Slotting.perform_counted (slotting : Slotting version string s ms slots) {chunkNo : Nat}
    (known : ms t = .counted chunkNo) (allowed : (slotOrder n version string).allowed (.counted chunkNo) c)
    (performed : perform t c answer s = some s') : Slotted version string s' ms t (.counted chunkNo) c answer := by
  have claims : Claims s.shared slots t chunkNo := slotting.ok known
  cases c <;> try exact (allowed : False).elim
  case leaveCritical =>
    obtain ⟨⟩ := performed
    exact ⟨_, rfl, slots, slotting.leaves known (by simp) rfl claims rfl rfl rfl rfl⟩

theorem Slotting.perform_claimed (slotting : Slotting version string s ms slots) {chunkNo : Nat}
    (known : ms t = .claimed chunkNo) (allowed : (slotOrder n version string).allowed (.claimed chunkNo) c)
    (performed : perform t c answer s = some s') : Slotted version string s' ms t (.claimed chunkNo) c answer := by
  have claims : Claims s.shared slots t chunkNo := slotting.ok known
  have still : ∀ {s' : State n}, Quiet s s' → s'.critical = s.critical →
      Slotting version string s' (Function.update ms t (.claimed chunkNo)) slots := fun quiet owner =>
    slotting.calmly known (by simp) quiet owner (claims.frame (Nat.le_of_eq quiet.current.symm))
      (fun within => within) rfl rfl rfl
  cases c <;> try exact (allowed : False).elim
  case printText file bytes =>
    obtain ⟨⟩ := performed
    exact ⟨_, rfl, slots, still ⟨rfl, rfl, rfl, rfl, rfl, rfl, rfl, rfl⟩ rfl⟩
  case enterCritical =>
    obtain ⟨free, ⟨⟩⟩ := Option.ite_none_right_eq_some.mp performed
    exact ⟨_, rfl, slots, slotting.enters known (by simp) allowed free claims rfl rfl rfl⟩
  case shared c =>
    cases c <;> try exact (allowed : False).elim
    case lock mutex =>
      cases mutex <;> try exact (allowed : False).elim
      obtain ⟨shared, done, rfl⟩ := Option.map_eq_some_iff.mp performed
      obtain ⟨-, ⟨⟩⟩ := Option.ite_none_right_eq_some.mp done
      exact ⟨_, rfl, slots, still ⟨rfl, rfl, rfl, rfl, rfl, rfl, rfl, rfl⟩ rfl⟩
    case unlock mutex =>
      cases mutex <;> try exact (allowed : False).elim
      obtain ⟨⟩ := performed
      exact ⟨_, rfl, slots, still ⟨rfl, rfl, rfl, rfl, rfl, rfl, rfl, rfl⟩ rfl⟩
    case newNode number =>
      obtain ⟨rfl, inside⟩ := allowed
      obtain ⟨shared, done, rfl⟩ := Option.map_eq_some_iff.mp performed
      obtain ⟨rfl, ⟨⟩⟩ := Option.ite_none_right_eq_some.mp done
      exact ⟨_, rfl, slots, slotting.creates known inside⟩
    case exit =>
      cases t with
      | main => exact absurd rfl claims.encoder
      | encoder i =>
        obtain ⟨⟩ := performed
        exact ⟨_, rfl, slots, slotting.exits known allowed⟩

theorem Slotting.perform_logging (slotting : Slotting version string s ms slots) {chunkNo : Nat}
    (known : ms t = .logging chunkNo) (allowed : (slotOrder n version string).allowed (.logging chunkNo) c)
    (performed : perform t c answer s = some s') : Slotted version string s' ms t (.logging chunkNo) c answer := by
  have claims : Claims s.shared slots t chunkNo := slotting.ok known
  cases c <;> try exact (allowed : False).elim
  case printText file bytes =>
    obtain ⟨⟩ := performed
    exact ⟨_, rfl, slots, slotting.calmly known (by simp) ⟨rfl, rfl, rfl, rfl, rfl, rfl, rfl, rfl⟩ rfl claims
      (fun within => within) rfl rfl rfl⟩
  case leaveCritical =>
    obtain ⟨⟩ := performed
    exact ⟨_, rfl, slots, slotting.leaves known (by simp) rfl claims rfl rfl rfl rfl⟩

theorem Slotting.perform_filling (slotting : Slotting version string s ms slots) {chunkNo node count : Nat}
    (known : ms t = .filling chunkNo node count)
    (allowed : (slotOrder n version string).allowed (.filling chunkNo node count) c)
    (performed : perform t c answer s = some s') :
    Slotted version string s' ms t (.filling chunkNo node count) c answer := by
  obtain ⟨claims, owns, codes⟩ := slotting.ok known
  have complete : (∀ i, count ≤ i → i < encodeChunkSize → chunkCode string chunkNo i = 0) →
      ∀ i, i < encodeChunkSize → s.shared.encodedString node i = chunkCode string chunkNo i := fun filled i inside => by
    rw [codes i]
    split
    · rfl
    · exact (filled i (by omega) inside).symm
  cases c <;> try exact (allowed : False).elim
  case fetchAddArraySize =>
    obtain ⟨rfl, ⟨⟩⟩ := Option.ite_none_right_eq_some.mp performed
    refine ⟨_, rfl, _, slotting.assigns known (by simp) claims owns (complete allowed.2) ⟨rfl, rfl, rfl⟩
      (fun u k a i _ sized => ?_) ⟨rfl, rfl, rfl⟩ (fun within => nomatch within)
      fun _ taken => ⟨claims.encoder, taken⟩⟩
    have third := (slotting.critical u (by rw [sized]; rfl)).1
    exact absurd (third.symm.trans allowed.1) (by decide)
  case enterCritical =>
    obtain ⟨free, ⟨⟩⟩ := Option.ite_none_right_eq_some.mp performed
    exact ⟨_, rfl, slots, slotting.enters known (by simp) allowed.1 free ⟨claims, owns, complete allowed.2⟩ rfl rfl rfl⟩
  case shared c =>
    cases c <;> try exact (allowed : False).elim
    case storeCode node' i code =>
      obtain ⟨rfl, rfl, rfl⟩ := allowed
      obtain ⟨⟩ := performed
      exact ⟨_, rfl, slots, slotting.encodes known⟩

theorem Slotting.perform_sizing (slotting : Slotting version string s ms slots) {chunkNo node : Nat}
    (known : ms t = .sizing chunkNo node) (allowed : (slotOrder n version string).allowed (.sizing chunkNo node) c)
    (performed : perform t c answer s = some s') : Slotted version string s' ms t (.sizing chunkNo node) c answer := by
  obtain ⟨claims, owns, codes⟩ := slotting.ok known
  cases c <;> try exact (allowed : False).elim
  case loadArraySize =>
    obtain ⟨rfl, ⟨⟩⟩ := Option.ite_none_right_eq_some.mp performed
    exact ⟨_, rfl, slots, slotting.calmly known (by simp) Quiet.rfl rfl ⟨claims, owns, codes, rfl⟩
      (fun within => within) rfl rfl rfl⟩

theorem Slotting.perform_sized (slotting : Slotting version string s ms slots) {chunkNo node index : Nat}
    (known : ms t = .sized chunkNo node index)
    (allowed : (slotOrder n version string).allowed (.sized chunkNo node index) c)
    (performed : perform t c answer s = some s') :
    Slotted version string s' ms t (.sized chunkNo node index) c answer := by
  obtain ⟨claims, owns, codes, rfl⟩ := slotting.ok known
  have own := (slotting.critical t (by rw [known]; rfl)).2
  cases c <;> try exact (allowed : False).elim
  case storeArraySize size =>
    obtain ⟨⟩ := performed
    obtain rfl : size = _ + 1 := allowed
    refine ⟨_, rfl, _, slotting.assigns known (by simp) claims owns codes ⟨rfl, rfl, rfl⟩
      (fun u k a i other sized => ?_) ⟨rfl, rfl, rfl⟩ (fun within => within) fun _ taken => ⟨claims.encoder, taken⟩⟩
    exact slotting.others own u other (by rw [sized]; rfl)

theorem Slotting.perform_indexed (slotting : Slotting version string s ms slots) {chunkNo node index : Nat}
    (known : ms t = .indexed chunkNo node index)
    (allowed : (slotOrder n version string).allowed (.indexed chunkNo node index) c)
    (performed : perform t c answer s = some s') :
    Slotted version string s' ms t (.indexed chunkNo node index) c answer := by
  have taken := slotting.ok known
  cases c <;> try exact (allowed : False).elim
  case leaveCritical =>
    obtain ⟨⟩ := performed
    exact ⟨_, rfl, slots, slotting.leaves known (by simp) rfl taken rfl rfl rfl rfl⟩

theorem Slotting.perform_placing (slotting : Slotting version string s ms slots) {chunkNo node index : Nat}
    (known : ms t = .placing chunkNo node index)
    (allowed : (slotOrder n version string).allowed (.placing chunkNo node index) c)
    (performed : perform t c answer s = some s') :
    Slotted version string s' ms t (.placing chunkNo node index) c answer := by
  cases c <;> try exact (allowed : False).elim
  case storeResult i result =>
    obtain ⟨rfl, rfl⟩ := allowed
    obtain ⟨⟩ := performed
    exact ⟨_, rfl, slots, slotting.places known⟩

theorem Slotting.perform_placed (slotting : Slotting version string s ms slots) {seen : Nat}
    (known : ms t = .placed seen) (allowed : (slotOrder n version string).allowed (.placed seen) c)
    (performed : perform t c answer s = some s') : Slotted version string s' ms t (.placed seen) c answer := by
  obtain ⟨encoder, later⟩ := slotting.ok known
  cases c <;> try exact (allowed : False).elim
  case printText file bytes =>
    obtain ⟨⟩ := performed
    exact ⟨_, rfl, slots, slotting.calmly known (by simp) ⟨rfl, rfl, rfl, rfl, rfl, rfl, rfl, rfl⟩ rfl
      ⟨encoder, later⟩ (fun within => within) rfl rfl rfl⟩
  case enterCritical =>
    obtain ⟨free, ⟨⟩⟩ := Option.ite_none_right_eq_some.mp performed
    exact ⟨_, rfl, slots, slotting.enters known (by simp) allowed free ⟨encoder, later⟩ rfl rfl rfl⟩
  case shared c =>
    cases c <;> try exact (allowed : False).elim
    case lock mutex =>
      cases mutex <;> try exact (allowed : False).elim
      obtain ⟨shared, done, rfl⟩ := Option.map_eq_some_iff.mp performed
      obtain ⟨-, ⟨⟩⟩ := Option.ite_none_right_eq_some.mp done
      exact ⟨_, rfl, slots, slotting.calmly known (by simp) ⟨rfl, rfl, rfl, rfl, rfl, rfl, rfl, rfl⟩ rfl
        ⟨encoder, later⟩ (fun within => within) rfl rfl rfl⟩
    case unlock mutex =>
      cases mutex <;> try exact (allowed : False).elim
      obtain ⟨⟩ := performed
      exact ⟨_, rfl, slots, slotting.calmly known (by simp) ⟨rfl, rfl, rfl, rfl, rfl, rfl, rfl, rfl⟩ rfl
        ⟨encoder, later⟩ (fun within => within) rfl rfl rfl⟩
    case loadCode node i =>
      obtain ⟨shared, done, rfl⟩ := Option.map_eq_some_iff.mp performed
      obtain ⟨-, ⟨⟩⟩ := Option.ite_none_right_eq_some.mp done
      exact ⟨_, rfl, slots, slotting.stay known⟩

theorem Slotting.perform_quoting (slotting : Slotting version string s ms slots) {seen : Nat}
    (known : ms t = .quoting seen) (allowed : (slotOrder n version string).allowed (.quoting seen) c)
    (performed : perform t c answer s = some s') : Slotted version string s' ms t (.quoting seen) c answer := by
  obtain ⟨encoder, later⟩ := slotting.ok known
  cases c <;> try exact (allowed : False).elim
  case printText file bytes =>
    obtain ⟨⟩ := performed
    exact ⟨_, rfl, slots, slotting.calmly known (by simp) ⟨rfl, rfl, rfl, rfl, rfl, rfl, rfl, rfl⟩ rfl
      ⟨encoder, later⟩ (fun within => within) rfl rfl rfl⟩
  case leaveCritical =>
    obtain ⟨⟩ := performed
    exact ⟨_, rfl, slots, slotting.leaves known (by simp) rfl ⟨encoder, later⟩ rfl rfl rfl rfl⟩
  case shared c =>
    cases c <;> try exact (allowed : False).elim
    case loadCode node i =>
      obtain ⟨shared, done, rfl⟩ := Option.map_eq_some_iff.mp performed
      obtain ⟨-, ⟨⟩⟩ := Option.ite_none_right_eq_some.mp done
      exact ⟨_, rfl, slots, slotting.stay known⟩

theorem Slotting.perform_joining (slotting : Slotting version string s ms slots) {count : Nat}
    (known : ms t = .joining count) (allowed : (slotOrder n version string).allowed (.joining count) c)
    (performed : perform t c answer s = some s') : Slotted version string s' ms t (.joining count) c answer := by
  obtain ⟨rfl, -⟩ := slotting.ok known
  cases c <;> try exact (allowed : False).elim
  case shared c =>
    cases c <;> try exact (allowed : False).elim
    case join i =>
      obtain rfl : i.val = count := allowed
      obtain ⟨shared, done, rfl⟩ := Option.map_eq_some_iff.mp performed
      obtain ⟨ended, ⟨⟩⟩ := Option.ite_none_right_eq_some.mp done
      obtain ⟨last, further⟩ := slotting.joins known ended
      by_cases all : i.val + 1 = n
      · refine ⟨_, ?_, slots, (last all).2⟩
        exact (if_pos all).mpr ⟨slots, (last all).1, rfl⟩
      · refine ⟨_, ?_, slots, further⟩
        exact (if_neg all).mpr rfl

theorem Slotting.perform_printing (slotting : Slotting version string s ms slots) (some : 0 < n)
    {known' : Entries} {written : OutFile → List Code} (known : ms t = .printing known' written)
    (allowed : (slotOrder n version string).allowed (.printing known' written) c)
    (performed : perform t c answer s = Option.some s') :
    Slotted version string s' ms t (.printing known' written) c answer := by
  obtain ⟨rfl, exited, rfl, same⟩ := slotting.ok known
  have ended : ∀ i, ms (.encoder i) = .ended := fun i => slotting.exited i (exited i)
  obtain ⟨-, filled⟩ := slotting.all_slotted some ended (by rw [known]; exact ⟨rfl, rfl⟩)
  cases c <;> try exact (allowed : False).elim
  case printText file bytes =>
    obtain ⟨⟩ := performed
    exact ⟨_, rfl, known', slotting.calmly known (by simp) ⟨rfl, rfl, rfl, rfl, rfl, rfl, rfl, rfl⟩ rfl
      ⟨rfl, exited, rfl, same⟩ (fun within => within) rfl rfl rfl⟩
  case loadArraySize =>
    obtain ⟨rfl, ⟨⟩⟩ := Option.ite_none_right_eq_some.mp performed
    exact ⟨_, ⟨slotting.slotsOk.length.symm, rfl⟩, known', slotting.stay known⟩
  case loadResult i =>
    obtain ⟨rfl, ⟨⟩⟩ := Option.ite_none_right_eq_some.mp performed
    have taken : known'[i]? = Option.some known'[i] := List.getElem?_eq_getElem allowed
    refine ⟨_, ⟨?_, rfl⟩, known', slotting.stay known⟩
    rw [taken]
    exact filled i _ taken
  case qsort size =>
    obtain rfl : size = known'.length := allowed
    obtain ⟨done, ⟨⟩⟩ := Option.ite_none_right_eq_some.mp performed
    obtain ⟨sorted, perm, ordered, after⟩ := slotting.sorts some known done
    exact ⟨_, ⟨sorted, perm, ordered, rfl⟩, sorted, after⟩
  case shared c =>
    cases c <;> try exact (allowed : False).elim
    case loadCode node i =>
      obtain ⟨shared, done, rfl⟩ := Option.map_eq_some_iff.mp performed
      obtain ⟨rfl, ⟨⟩⟩ := Option.ite_none_right_eq_some.mp done
      refine ⟨_, ⟨fun number member => ?_, rfl⟩, known', slotting.stay known⟩
      exact slotting.slotsOk.codes (node, number) member i allowed.2
    case print file code =>
      obtain ⟨⟩ := performed
      exact ⟨_, rfl, known', slotting.prints known file code _⟩

theorem Slotting.perform (slotting : Slotting version string s ms slots) (some : 0 < n)
    (allowed : (slotOrder n version string).allowed (ms t) c)
    (performed : Versions.perform t c answer s = Option.some s') :
    ∃ stage', (slotOrder n version string).moves (ms t) c answer stage' ∧
      ∃ slots', Slotting version string s' (Function.update ms t stage') slots' := by
  cases known : ms t <;> rw [known] at allowed
  case idle _ => exact slotting.perform_idle known allowed performed
  case entered _ => exact slotting.perform_entered known allowed performed
  case counting _ => exact slotting.perform_counting known allowed performed
  case counted _ => exact slotting.perform_counted known allowed performed
  case claimed _ => exact slotting.perform_claimed known allowed performed
  case logging _ => exact slotting.perform_logging known allowed performed
  case filling _ _ _ => exact slotting.perform_filling known allowed performed
  case sizing _ _ => exact slotting.perform_sizing known allowed performed
  case sized _ _ _ => exact slotting.perform_sized known allowed performed
  case indexed _ _ _ => exact slotting.perform_indexed known allowed performed
  case placing _ _ _ => exact slotting.perform_placing known allowed performed
  case placed _ => exact slotting.perform_placed known allowed performed
  case quoting _ => exact slotting.perform_quoting known allowed performed
  case ended => cases c <;> exact (allowed : False).elim
  case joining _ => exact slotting.perform_joining known allowed performed
  case printing _ _ => exact slotting.perform_printing some known allowed performed

end

end ArchCompSystems.Ihw4.Versions
