import ArchCompSystems.Ihw4.WritingInvariant

namespace ArchCompSystems.Ihw4.Versions

open Library Library.Program

section

variable {n : Nat} {version : Version} {string : List UInt8} {s s' : State n} {ms : Thread n → Phase}
  {records records' : List Record} {t : Thread n} {phase phase' : Phase}

theorem lock_write (notThird : version ≠ .version3) {answer : Unit}
    (performed : perform t (.shared (.lock .write)) answer s = some s') :
    writer version s = none ∧ s' = s.withWriter version (some t) := by
  obtain ⟨shared, done, rfl⟩ := Option.map_eq_some_iff.mp performed
  obtain ⟨free, ⟨⟩⟩ := Option.ite_none_right_eq_some.mp done
  cases version with
  | version1 => exact ⟨free, rfl⟩
  | version2 => exact ⟨free, rfl⟩
  | version3 => exact absurd rfl notThird

theorem unlock_write (notThird : version ≠ .version3) {answer : Unit}
    (performed : perform t (.shared (.unlock .write)) answer s = some s') : s' = s.withWriter version none := by
  obtain ⟨⟩ := performed
  cases version with
  | version1 => rfl
  | version2 => rfl
  | version3 => exact absurd rfl notThird

theorem enter_critical (third : version = .version3) {answer : Unit}
    (performed : perform t .enterCritical answer s = some s') :
    writer version s = none ∧ s' = s.withWriter version (some t) := by
  subst third
  obtain ⟨free, ⟨⟩⟩ := Option.ite_none_right_eq_some.mp performed
  exact ⟨free, rfl⟩

theorem leave_critical (third : version = .version3) {answer : Unit}
    (performed : perform t .leaveCritical answer s = some s') : s' = s.withWriter version none := by
  subst third
  exact (Option.some.inj performed).symm

/-- A call has a move that keeps the records. -/
def Answered (version : Version) (string : List UInt8) (s' : State n) (ms : Thread n → Phase) (t : Thread n)
    (phase : Phase) (c : Call n) (answer : c.Answer) : Prop :=
  ∃ phase', (writingOrder n version string).moves phase c answer phase' ∧
    ∃ records', Mirroring version string s' (Function.update ms t phase') records'

variable {c : Call n} {answer : c.Answer}

theorem Mirroring.perform_idle (mirroring : Mirroring version string s ms records)
    (known : ms t = .idle) (allowed : (writingOrder n version string).allowed .idle c)
    (performed : perform t c answer s = some s') : Answered version string s' ms t .idle c answer := by
  have encoder : t ≠ .main := mirroring.ok known
  cases c <;> try exact (allowed : False).elim
  case enterCritical =>
    obtain ⟨free, rfl⟩ := enter_critical allowed performed
    exact ⟨_, rfl, records, mirroring.enters known encoder (by simp) free encoder rfl ⟨rfl, rfl⟩ (by simp [Phase.chunk])⟩
  case fetchAddChunkNo =>
    obtain ⟨rfl, ⟨⟩⟩ := Option.ite_none_right_eq_some.mp performed
    refine ⟨_, rfl, records, mirroring.calmly known encoder (by simp) ⟨fun _ => Nat.succ_pos _, rfl, rfl, rfl⟩
      ⟨encoder, Nat.succ_pos _⟩ (by cases version <;> rfl) (fun holds => holds) (.inr rfl) rfl ⟨rfl, rfl⟩
      (fun _ => ?_) (by simp [Phase.chunk])⟩
    rcases Nat.eq_zero_or_pos s.shared.currentChunkNo with first | later
    · exact .inr (congrArg some first)
    · exact .inl later
  case shared c =>
    cases c <;> try exact (allowed : False).elim
    case goesOn => exact nomatch answer
    case lock mutex =>
      cases mutex <;> try exact (allowed : False).elim
      obtain ⟨shared, done, rfl⟩ := Option.map_eq_some_iff.mp performed
      obtain ⟨-, ⟨⟩⟩ := Option.ite_none_right_eq_some.mp done
      exact ⟨_, rfl, records, mirroring.calmly known encoder (by simp) ⟨fun counter => counter, rfl, rfl, rfl⟩
        encoder (by cases version <;> rfl) (fun third => absurd third allowed) (.inr rfl) rfl ⟨rfl, rfl⟩ .inl
        (by simp [Phase.chunk])⟩

theorem Mirroring.perform_entered (mirroring : Mirroring version string s ms records)
    (known : ms t = .entered) (allowed : (writingOrder n version string).allowed .entered c)
    (performed : perform t c answer s = some s') : Answered version string s' ms t .entered c answer := by
  have encoder : t ≠ .main := mirroring.ok known
  cases c <;> try exact (allowed : False).elim
  case shared c =>
    cases c <;> try exact (allowed : False).elim
    case goesOn => exact nomatch answer
    case loadCurrentChunkNo =>
      obtain ⟨shared, done, rfl⟩ := Option.map_eq_some_iff.mp performed
      obtain ⟨rfl, ⟨⟩⟩ := Option.ite_none_right_eq_some.mp done
      exact ⟨_, rfl, records, mirroring.calmly known encoder (by simp) ⟨fun counter => counter, rfl, rfl, rfl⟩
        ⟨encoder, fun later => later⟩ (by cases version <;> rfl) (fun holds => holds) (.inr rfl) rfl ⟨rfl, rfl⟩ .inl
        (by simp [Phase.chunk])⟩

theorem Mirroring.perform_loaded (mirroring : Mirroring version string s ms records) {chunkNo : Nat}
    (known : ms t = .loaded chunkNo) (allowed : (writingOrder n version string).allowed (.loaded chunkNo) c)
    (performed : perform t c answer s = some s') : Answered version string s' ms t (.loaded chunkNo) c answer := by
  obtain ⟨encoder, later⟩ := mirroring.ok known
  cases c <;> try exact (allowed : False).elim
  case shared c =>
    cases c <;> try exact (allowed : False).elim
    case goesOn => exact nomatch answer
    case storeCurrentChunkNo next =>
      obtain ⟨⟩ := performed
      obtain rfl : next = chunkNo + 1 := allowed
      refine ⟨_, rfl, records, mirroring.calmly known encoder (by simp) ⟨fun _ => Nat.succ_pos _, rfl, rfl, rfl⟩
        ⟨encoder, Nat.succ_pos _⟩ (by cases version <;> rfl) (fun holds => holds) (.inr rfl) rfl ⟨rfl, rfl⟩
        (fun _ => ?_) (by simp [Phase.chunk])⟩
      rcases Nat.eq_zero_or_pos chunkNo with rfl | positive
      · exact .inr rfl
      · exact .inl (later positive)

theorem Mirroring.perform_counted (mirroring : Mirroring version string s ms records) {chunkNo : Nat}
    (known : ms t = .counted chunkNo) (allowed : (writingOrder n version string).allowed (.counted chunkNo) c)
    (performed : perform t c answer s = some s') : Answered version string s' ms t (.counted chunkNo) c answer := by
  obtain ⟨encoder, counter⟩ := mirroring.ok known
  cases c <;> try exact (allowed : False).elim
  case leaveCritical =>
    obtain rfl := leave_critical allowed performed
    refine ⟨_, rfl, records, mirroring.leaves known encoder (by simp) allowed ⟨encoder, ?_⟩ (fun holds => holds) rfl
      ⟨rfl, rfl⟩ fun chunk => chunk⟩
    rw [currentChunkNo_withWriter]
    exact counter
  case shared c =>
    cases c <;> try exact (allowed : False).elim
    case goesOn => exact nomatch answer
    case unlock mutex =>
      cases mutex <;> try exact (allowed : False).elim
      obtain ⟨⟩ := performed
      exact ⟨_, rfl, records, mirroring.calmly known encoder (by simp) ⟨fun counter => counter, rfl, rfl, rfl⟩
        ⟨encoder, counter⟩ (by cases version <;> rfl) (fun holds => holds.elim) (.inr rfl) rfl ⟨rfl, rfl⟩ .inl
        fun chunk => chunk⟩

theorem Mirroring.perform_taken (mirroring : Mirroring version string s ms records) {chunkNo : Nat}
    (known : ms t = .taken chunkNo) (allowed : (writingOrder n version string).allowed (.taken chunkNo) c)
    (performed : perform t c answer s = some s') : Answered version string s' ms t (.taken chunkNo) c answer := by
  obtain ⟨encoder, counter⟩ := mirroring.ok known
  have begins : writer version s = none → chunkNo < maxChunkNo string →
      Mirroring version string (s.withWriter version (some t))
        (Function.update ms t (.opening chunkNo nothing)) records := fun free inside =>
    mirroring.begins known encoder (by simp) free ⟨encoder, inside⟩ rfl rfl fun chunk => chunk
  cases c <;> try exact (allowed : False).elim
  case enterCritical =>
    obtain ⟨free, rfl⟩ := enter_critical allowed.1 performed
    exact ⟨_, rfl, records, begins free allowed.2⟩
  case shared c =>
    cases c <;> try exact (allowed : False).elim
    case goesOn => exact nomatch answer
    case lock mutex =>
      cases mutex <;> try exact (allowed : False).elim
      obtain ⟨free, rfl⟩ := lock_write allowed.1 performed
      exact ⟨_, rfl, records, begins free allowed.2⟩
    case exit =>
      cases t with
      | main => exact absurd rfl encoder
      | encoder i =>
        obtain ⟨⟩ := performed
        exact ⟨_, rfl, records, mirroring.exits known allowed⟩

theorem Mirroring.perform_opening (mirroring : Mirroring version string s ms records) {chunkNo : Nat}
    (known : ms t = .opening chunkNo printed) (allowed : (writingOrder n version string).allowed (.opening chunkNo printed) c)
    (performed : perform t c answer s = some s') : Answered version string s' ms t (.opening chunkNo printed) c answer := by
  obtain ⟨encoder, inside⟩ := mirroring.ok known
  have ends : Tells version string (.newChunk chunkNo) printed →
      Mirroring version string (s.withWriter version none)
        (Function.update ms t (.opened chunkNo)) (records ++ [.newChunk chunkNo]) := fun tells =>
    mirroring.ends known encoder (by simp) True.intro rfl tells True.intro ⟨encoder, inside⟩
      (fun holds => holds) rfl rfl .inl
  cases c <;> try exact (allowed : False).elim
  case printText file bytes =>
    obtain ⟨⟩ := performed
    exact ⟨_, rfl, records, mirroring.prints known encoder (by simp) rfl file bytes rfl ⟨encoder, inside⟩
      (fun holds => holds) rfl rfl⟩
  case leaveCritical =>
    obtain rfl := leave_critical allowed.1 performed
    exact ⟨_, rfl, _, ends allowed.2⟩
  case shared c =>
    cases c <;> try exact (allowed : False).elim
    case goesOn => exact nomatch answer
    case unlock mutex =>
      cases mutex <;> try exact (allowed : False).elim
      obtain rfl := unlock_write allowed.1 performed
      exact ⟨_, rfl, _, ends allowed.2⟩

theorem Mirroring.perform_opened (mirroring : Mirroring version string s ms records) {chunkNo : Nat}
    (known : ms t = .opened chunkNo) (allowed : (writingOrder n version string).allowed (.opened chunkNo) c)
    (performed : perform t c answer s = some s') : Answered version string s' ms t (.opened chunkNo) c answer := by
  cases c <;> try exact (allowed : False).elim
  case shared c =>
    cases c <;> try exact (allowed : False).elim
    case goesOn => exact nomatch answer
    case newNode number =>
      obtain ⟨shared, done, rfl⟩ := Option.map_eq_some_iff.mp performed
      obtain ⟨rfl, ⟨⟩⟩ := Option.ite_none_right_eq_some.mp done
      exact ⟨_, rfl, records, mirroring.creates known⟩

theorem Mirroring.perform_filling (mirroring : Mirroring version string s ms records) {chunkNo node : Nat} {codes : Nat → Code}
    (known : ms t = .filling chunkNo node codes) (allowed : (writingOrder n version string).allowed (.filling chunkNo node codes) c)
    (performed : perform t c answer s = some s') : Answered version string s' ms t (.filling chunkNo node codes) c answer := by
  obtain ⟨encoder, inside, allocated, same⟩ := mirroring.ok known
  have stores : ∀ {s' : State n}, Calm s s' → writer version s' = writer version s → s'.output = s.output →
      s'.shared.currentChunkNo = s.shared.currentChunkNo →
      Mirroring version string s' (Function.update ms t (.stored chunkNo node codes)) records :=
    fun calm owner output counter => mirroring.calmly known encoder (by simp) calm
      ⟨encoder, inside, calm.allocated.symm ▸ allocated, (congrFun calm.encodedString node).trans same⟩ owner
      (fun holds => holds.elim) (.inl rfl) output ⟨rfl, rfl⟩ (fun counted => .inl (counter ▸ counted))
      fun chunk => chunk
  cases c <;> try exact (allowed : False).elim
  case enterCritical =>
    obtain ⟨free, rfl⟩ := enter_critical allowed performed
    have calm := @calm_withWriter n version s (some t)
    exact ⟨_, rfl, records, mirroring.enters known encoder (by simp) free
      ⟨encoder, inside, calm.allocated.symm ▸ allocated, (congrFun calm.encodedString node).trans same⟩ rfl
      ⟨rfl, rfl⟩ fun chunk => chunk⟩
  case fetchAddArraySize =>
    obtain ⟨rfl, ⟨⟩⟩ := Option.ite_none_right_eq_some.mp performed
    exact ⟨_, rfl, records, mirroring.calmly known encoder (by simp) ⟨fun counter => counter, rfl, rfl, rfl⟩
      ⟨encoder, inside, allocated, same⟩ (by cases version <;> rfl) (fun holds => holds) (.inl rfl) rfl
      ⟨rfl, rfl⟩ .inl fun chunk => chunk⟩
  case storeResult index result =>
    obtain ⟨⟩ := performed
    exact ⟨_, rfl, records, stores ⟨fun counter => counter, rfl, rfl, rfl⟩ (by cases version <;> rfl) rfl rfl⟩
  case shared c =>
    by_cases linking : Linking c
    · refine ⟨.filling chunkNo node codes, ?_, records, mirroring.links known linking performed⟩
      cases c <;> first
        | exact rfl
        | exact linking.elim
    · cases c <;> try exact (allowed : False).elim
      case storeCode node' i code =>
        obtain rfl : node' = node := allowed
        obtain ⟨⟩ := performed
        exact ⟨_, rfl, records, mirroring.encodes known i code⟩
      case unlock mutex =>
        cases mutex <;> try exact (allowed : False).elim
        obtain ⟨⟩ := performed
        exact ⟨_, rfl, records, stores ⟨fun counter => counter, rfl, rfl, rfl⟩ (by cases version <;> rfl) rfl rfl⟩
      case lock mutex =>
        cases mutex <;> try exact (allowed : False).elim
        exact absurd True.intro linking
      all_goals exact absurd True.intro linking

theorem Mirroring.perform_indexing (mirroring : Mirroring version string s ms records) {chunkNo node : Nat} {codes : Nat → Code}
    (known : ms t = .indexing chunkNo node codes) (allowed : (writingOrder n version string).allowed (.indexing chunkNo node codes) c)
    (performed : perform t c answer s = some s') : Answered version string s' ms t (.indexing chunkNo node codes) c answer := by
  obtain ⟨encoder, inside, allocated, same⟩ := mirroring.ok known
  cases c <;> try exact (allowed : False).elim
  case loadArraySize =>
    obtain ⟨-, ⟨⟩⟩ := Option.ite_none_right_eq_some.mp performed
    exact ⟨_, rfl, records, mirroring.stay known⟩
  case storeArraySize size =>
    obtain ⟨⟩ := performed
    exact ⟨_, rfl, records, mirroring.calmly known encoder (by simp) ⟨fun counter => counter, rfl, rfl, rfl⟩
      ⟨encoder, inside, allocated, same⟩ (by cases version <;> rfl) (fun holds => holds) (.inl rfl) rfl
      ⟨rfl, rfl⟩ .inl fun chunk => chunk⟩
  case leaveCritical =>
    obtain rfl := leave_critical allowed performed
    have calm := @calm_withWriter n version s none
    exact ⟨_, rfl, records, mirroring.leaves known encoder (by simp) allowed
      ⟨encoder, inside, calm.allocated.symm ▸ allocated, (congrFun calm.encodedString node).trans same⟩
      (fun holds => holds) rfl ⟨rfl, rfl⟩ fun chunk => chunk⟩
  case shared c =>
    cases c <;> try exact (allowed : False).elim
    case goesOn => exact nomatch answer

theorem Mirroring.perform_stored (mirroring : Mirroring version string s ms records) {chunkNo node : Nat} {codes : Nat → Code}
    (known : ms t = .stored chunkNo node codes) (allowed : (writingOrder n version string).allowed (.stored chunkNo node codes) c)
    (performed : perform t c answer s = some s') : Answered version string s' ms t (.stored chunkNo node codes) c answer := by
  obtain ⟨encoder, inside, allocated, same⟩ := mirroring.ok known
  have begins : writer version s = none → Mirroring version string (s.withWriter version (some t))
      (Function.update ms t (.quoting chunkNo node codes nothing)) records := fun free =>
    have calm := @calm_withWriter n version s (some t)
    mirroring.begins known encoder (by simp) free
      ⟨encoder, inside, calm.allocated.symm ▸ allocated, (congrFun calm.encodedString node).trans same⟩ rfl rfl
      fun chunk => chunk
  cases c <;> try exact (allowed : False).elim
  case enterCritical =>
    obtain ⟨free, rfl⟩ := enter_critical allowed performed
    exact ⟨_, rfl, records, begins free⟩
  case shared c =>
    cases c <;> try exact (allowed : False).elim
    case goesOn => exact nomatch answer
    case lock mutex =>
      cases mutex <;> try exact (allowed : False).elim
      obtain ⟨free, rfl⟩ := lock_write allowed performed
      exact ⟨_, rfl, records, begins free⟩

theorem Mirroring.perform_quoting (mirroring : Mirroring version string s ms records) {chunkNo node : Nat} {codes : Nat → Code}
    (known : ms t = .quoting chunkNo node codes printed) (allowed : (writingOrder n version string).allowed (.quoting chunkNo node codes printed) c)
    (performed : perform t c answer s = some s') : Answered version string s' ms t (.quoting chunkNo node codes printed) c answer := by
  obtain ⟨encoder, inside, allocated, same⟩ := mirroring.ok known
  have ends : Tells version string (resultRecord string chunkNo codes) printed →
      Mirroring version string (s.withWriter version none) (Function.update ms t .idle)
        (records ++ [resultRecord string chunkNo codes]) := fun tells => by
    have recordOk : RecordOk n string (resultRecord string chunkNo codes) := by
      refine ⟨?_, inside, by rw [List.length_map, List.length_range]⟩
      cases t with
      | main => exact absurd rfl encoder
      | encoder i => exact i.pos
    refine mirroring.ends known encoder (by simp) True.intro rfl tells recordOk encoder (fun holds => holds) rfl rfl
      fun chunk => .inr ⟨(List.range (chunkSize string chunkNo)).map codes, ?_⟩
    cases chunk
    rfl
  cases c <;> try exact (allowed : False).elim
  case printText file bytes =>
    obtain ⟨⟩ := performed
    exact ⟨_, rfl, records, mirroring.prints known encoder (by simp) rfl file bytes rfl
      ⟨encoder, inside, allocated, same⟩ (fun holds => holds) rfl rfl⟩
  case leaveCritical =>
    obtain rfl := leave_critical allowed.1 performed
    exact ⟨_, rfl, _, ends allowed.2⟩
  case shared c =>
    cases c <;> try exact (allowed : False).elim
    case goesOn => exact nomatch answer
    case loadCode node' i =>
      obtain rfl : node' = node := allowed
      obtain ⟨shared, done, rfl⟩ := Option.map_eq_some_iff.mp performed
      obtain ⟨rfl, ⟨⟩⟩ := Option.ite_none_right_eq_some.mp done
      exact ⟨_, ⟨congrFun same i, rfl⟩, records, mirroring.stay known⟩
    case unlock mutex =>
      cases mutex <;> try exact (allowed : False).elim
      obtain rfl := unlock_write allowed.1 performed
      exact ⟨_, rfl, _, ends allowed.2⟩

theorem not_performed_ended (allowed : (writingOrder n version string).allowed .ended c) : IsEmpty c.Answer := by
  cases c <;> try exact (allowed : False).elim
  case shared c =>
    cases c <;> try exact (allowed : False).elim
    case goesOn => exact ⟨fun answer => answer.elim⟩

theorem Mirroring.perform_joining (mirroring : Mirroring version string s ms records) {count : Nat}
    (known : ms t = .joining count) (allowed : (writingOrder n version string).allowed (.joining count) c)
    (performed : perform t c answer s = some s') : Answered version string s' ms t (.joining count) c answer := by
  obtain ⟨rfl, -⟩ := mirroring.ok known
  cases c <;> try exact (allowed : False).elim
  case shared c =>
    cases c <;> try exact (allowed : False).elim
    case goesOn => exact nomatch answer
    case join i =>
      obtain rfl : i.val = count := allowed
      obtain ⟨shared, done, rfl⟩ := Option.map_eq_some_iff.mp performed
      obtain ⟨ended, ⟨⟩⟩ := Option.ite_none_right_eq_some.mp done
      obtain ⟨last, further⟩ := mirroring.joins known ended
      by_cases all : i.val + 1 = n
      · refine ⟨_, ?_, records, last all⟩
        exact (if_pos all).mpr ⟨s.memory, rfl⟩
      · refine ⟨_, ?_, records, further⟩
        exact (if_neg all).mpr rfl

theorem Mirroring.perform_finishing (mirroring : Mirroring version string s ms records) {memory : Memory}
    (known : ms t = .finishing memory printed) (allowed : (writingOrder n version string).allowed (.finishing memory printed) c)
    (performed : perform t c answer s = some s') : Answered version string s' ms t (.finishing memory printed) c answer := by
  obtain ⟨rfl, -, same⟩ := mirroring.ok known
  cases c <;> try exact (allowed : False).elim
  case printText file bytes =>
    obtain ⟨⟩ := performed
    refine ⟨_, rfl, records, mirroring.finishes_printing known ?_ ?_ ?_ ?_ file bytes ?_⟩
    · exact ⟨fun counter => counter, rfl, rfl, rfl⟩
    · rfl
    · cases version <;> rfl
    · rfl
    · rfl
  case loadArraySize =>
    obtain ⟨rfl, ⟨⟩⟩ := Option.ite_none_right_eq_some.mp performed
    exact ⟨_, ⟨congrArg Memory.arraySize same, rfl⟩, records, mirroring.stay known⟩
  case loadResult i =>
    obtain ⟨rfl, ⟨⟩⟩ := Option.ite_none_right_eq_some.mp performed
    exact ⟨_, ⟨congrFun (congrArg Memory.resultsArray same) i, rfl⟩, records, mirroring.stay known⟩
  case qsort size =>
    obtain ⟨-, ⟨⟩⟩ := Option.ite_none_right_eq_some.mp performed
    refine ⟨_, rfl, records, mirroring.finishes known ⟨fun counter => counter, rfl, rfl, rfl⟩ ?_
      (by cases version <;> rfl) rfl rfl⟩
    rw [← same]
    rfl
  case shared c =>
    cases c <;> try exact (allowed : False).elim
    case goesOn => exact nomatch answer
    case loadHead =>
      obtain ⟨shared, done, rfl⟩ := Option.map_eq_some_iff.mp performed
      obtain ⟨rfl, ⟨⟩⟩ := Option.ite_none_right_eq_some.mp done
      exact ⟨_, ⟨congrArg (fun memory => memory.links.head) same, rfl⟩, records, mirroring.stay known⟩
    case loadNext node =>
      obtain ⟨shared, done, rfl⟩ := Option.map_eq_some_iff.mp performed
      obtain ⟨rfl, ⟨⟩⟩ := Option.ite_none_right_eq_some.mp done
      exact ⟨_, ⟨congrArg (fun memory => memory.links.next node) same, rfl⟩, records, mirroring.stay known⟩
    case loadCode node i =>
      obtain ⟨shared, done, rfl⟩ := Option.map_eq_some_iff.mp performed
      obtain ⟨rfl, ⟨⟩⟩ := Option.ite_none_right_eq_some.mp done
      exact ⟨_, ⟨congrArg (fun memory => memory.encodedString node i) same, rfl⟩, records, mirroring.stay known⟩
    case print file code =>
      obtain ⟨⟩ := performed
      refine ⟨_, rfl, records, mirroring.finishes_printing known ?_ ?_ ?_ ?_ file (codeText code) ?_⟩
      · exact ⟨fun counter => counter, rfl, rfl, rfl⟩
      · rfl
      · cases version <;> rfl
      · rfl
      · rfl

theorem Mirroring.perform (mirroring : Mirroring version string s ms records) {c : Call n} {answer : c.Answer}
    (allowed : (writingOrder n version string).allowed (ms t) c)
    (performed : Versions.perform t c answer s = some s') :
    ∃ phase', (writingOrder n version string).moves (ms t) c answer phase' ∧
      ∃ records', Mirroring version string s' (Function.update ms t phase') records' := by
  cases known : ms t <;> rw [known] at allowed
  case idle => exact mirroring.perform_idle known allowed performed
  case entered => exact mirroring.perform_entered known allowed performed
  case loaded _ => exact mirroring.perform_loaded known allowed performed
  case counted _ => exact mirroring.perform_counted known allowed performed
  case taken _ => exact mirroring.perform_taken known allowed performed
  case opening _ _ => exact mirroring.perform_opening known allowed performed
  case opened _ => exact mirroring.perform_opened known allowed performed
  case filling _ _ _ => exact mirroring.perform_filling known allowed performed
  case indexing _ _ _ => exact mirroring.perform_indexing known allowed performed
  case stored _ _ _ => exact mirroring.perform_stored known allowed performed
  case quoting _ _ _ _ => exact mirroring.perform_quoting known allowed performed
  case ended => exact (not_performed_ended allowed).elim answer
  case joining _ => exact mirroring.perform_joining known allowed performed
  case finishing _ _ => exact mirroring.perform_finishing known allowed performed

end

end ArchCompSystems.Ihw4.Versions
