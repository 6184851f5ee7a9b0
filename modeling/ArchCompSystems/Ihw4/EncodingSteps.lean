import ArchCompSystems.Ihw4.Completeness

namespace ArchCompSystems.Ihw4

open Library Library.Program

section

variable {n : Nat} {string : List UInt8} {s s' : State n} {ms : Thread n → Stage} {entries : Entries} {t : Thread n}

/-- A call has a move that keeps the entries. -/
def Encoded (string : List UInt8) (s' : State n) (ms : Thread n → Stage) (t : Thread n) (stage : Stage) (c : Call n)
    (answer : c.Answer) : Prop :=
  ∃ stage', (callOrder n string).moves stage c answer stage' ∧
    ∃ entries', Encoding string s' (Function.update ms t stage') entries'

variable {c : Call n} {answer : c.Answer}

theorem Encoding.perform_idle (encoding : Encoding string s ms entries) {seen : Nat} (known : ms t = .idle seen)
    (allowed : (callOrder n string).allowed (.idle seen) c) (performed : perform t c answer s = some s') :
    Encoded string s' ms t (.idle seen) c answer := by
  cases c <;> try exact (allowed : False).elim
  case lock mutex =>
    obtain ⟨free, ⟨⟩⟩ := Option.ite_none_right_eq_some.mp performed
    cases mutex with
    | get => exact ⟨_, ⟨s.currentChunkNo, (encoding.ok known).2, rfl⟩, entries, encoding.locks_get known free⟩
    | store => exact allowed.elim
    | write => exact ⟨_, rfl, entries, (encoding.write_lock _).stay known⟩
  case unlock mutex =>
    obtain ⟨⟩ := performed
    cases mutex with
    | get => exact allowed.elim
    | store => exact allowed.elim
    | write => exact ⟨_, rfl, entries, (encoding.write_lock _).stay known⟩
  case log value =>
    obtain ⟨⟩ := performed
    exact ⟨_, rfl, entries, encoding.stay known⟩
  case loadCode node i =>
    obtain ⟨-, ⟨⟩⟩ := Option.ite_none_right_eq_some.mp performed
    exact ⟨_, rfl, entries, encoding.stay known⟩

theorem Encoding.perform_counting (encoding : Encoding string s ms entries) {seen chunkNo : Nat}
    (known : ms t = .counting seen chunkNo) (allowed : (callOrder n string).allowed (.counting seen chunkNo) c)
    (performed : perform t c answer s = some s') : Encoded string s' ms t (.counting seen chunkNo) c answer := by
  cases c <;> try exact (allowed : False).elim
  case loadCurrentChunkNo =>
    obtain ⟨rfl, ⟨⟩⟩ := Option.ite_none_right_eq_some.mp performed
    exact ⟨_, ⟨(encoding.ok known).2.2, rfl⟩, entries, encoding.stay known⟩
  case storeCurrentChunkNo next =>
    obtain rfl := allowed
    obtain ⟨⟩ := performed
    exact ⟨_, rfl, entries, encoding.counts known⟩

theorem Encoding.perform_counted (encoding : Encoding string s ms entries) {chunkNo : Nat}
    (known : ms t = .counted chunkNo) (allowed : (callOrder n string).allowed (.counted chunkNo) c)
    (performed : perform t c answer s = some s') : Encoded string s' ms t (.counted chunkNo) c answer := by
  cases c <;> try exact (allowed : False).elim
  case unlock mutex =>
    obtain ⟨⟩ := performed
    cases mutex with
    | get => exact ⟨_, rfl, entries, encoding.unlocks_get known⟩
    | store => exact allowed.elim
    | write => exact allowed.elim

theorem Encoding.perform_claimed (encoding : Encoding string s ms entries) {chunkNo : Nat}
    (known : ms t = .claimed chunkNo) (allowed : (callOrder n string).allowed (.claimed chunkNo) c)
    (performed : perform t c answer s = some s') : Encoded string s' ms t (.claimed chunkNo) c answer := by
  cases c <;> try exact (allowed : False).elim
  case lock mutex =>
    obtain ⟨free, ⟨⟩⟩ := Option.ite_none_right_eq_some.mp performed
    cases mutex with
    | get => exact allowed.elim
    | store => exact allowed.elim
    | write => exact ⟨_, rfl, entries, (encoding.write_lock _).stay known⟩
  case unlock mutex =>
    obtain ⟨⟩ := performed
    cases mutex with
    | get => exact allowed.elim
    | store => exact allowed.elim
    | write => exact ⟨_, rfl, entries, (encoding.write_lock _).stay known⟩
  case log value =>
    obtain ⟨⟩ := performed
    exact ⟨_, rfl, entries, encoding.stay known⟩
  case newNode number =>
    obtain ⟨rfl, inside⟩ := allowed
    obtain ⟨rfl, ⟨⟩⟩ := Option.ite_none_right_eq_some.mp performed
    exact ⟨_, rfl, entries, encoding.creates known inside⟩
  case exit =>
    cases t with
    | main =>
      obtain ⟨claimed, -, -⟩ := encoding.not_main known
      cases claimed
    | encoder i =>
      obtain ⟨⟩ := performed
      exact ⟨_, rfl, entries, encoding.ends known allowed⟩

theorem Encoding.perform_filling (encoding : Encoding string s ms entries) {chunkNo node count : Nat}
    (known : ms t = .filling chunkNo node count)
    (allowed : (callOrder n string).allowed (.filling chunkNo node count) c)
    (performed : perform t c answer s = some s') : Encoded string s' ms t (.filling chunkNo node count) c answer := by
  cases c <;> try exact (allowed : False).elim
  case lock mutex =>
    obtain ⟨free, ⟨⟩⟩ := Option.ite_none_right_eq_some.mp performed
    cases mutex with
    | get => exact allowed.elim
    | store =>
      obtain ⟨entry, after⟩ := encoding.locks_store known free allowed
      exact ⟨_, ⟨s.links, entries, entry, rfl⟩, entries, after⟩
    | write => exact allowed.elim
  case storeCode node' i code =>
    obtain ⟨rfl, rfl, rfl⟩ := allowed
    obtain ⟨⟩ := performed
    exact ⟨_, rfl, entries, encoding.encodes known⟩

theorem Encoding.perform_storing (encoding : Encoding string s ms entries) {chunkNo node : Nat} {links : Links}
    {known' : Entries} (known : ms t = .storing chunkNo node links known')
    (allowed : (callOrder n string).allowed (.storing chunkNo node links known') c)
    (performed : perform t c answer s = some s') :
    Encoded string s' ms t (.storing chunkNo node links known') c answer := by
  obtain ⟨-, owns, -, same, listed, -⟩ := encoding.ok known
  cases c <;> try exact (allowed : False).elim
  case unlock mutex =>
    obtain ⟨⟩ := performed
    cases mutex with
    | get => exact allowed.elim
    | store =>
      obtain ⟨inserted, perm, sorted, represents⟩ := allowed
      exact ⟨_, rfl, inserted, encoding.stores known perm sorted represents⟩
    | write => exact allowed.elim
  case storeNext a target =>
    obtain ⟨⟩ := performed
    rw [same]
    refine ⟨_, rfl, entries, encoding.relinks known (fun b notOwn notListed => ?_) fun _ _ _ => rfl⟩
    refine Function.update_of_ne (fun equal => ?_) ..
    subst equal
    exact allowed.elim notOwn notListed
  case storePrev a target =>
    obtain ⟨⟩ := performed
    rw [same]
    refine ⟨_, rfl, entries, encoding.relinks known (fun _ _ _ => rfl) fun b notOwn notListed => ?_⟩
    refine Function.update_of_ne (fun equal => ?_) ..
    subst equal
    exact allowed.elim notOwn notListed
  case storeHead target =>
    obtain ⟨⟩ := performed
    rw [same]
    exact ⟨_, rfl, entries, encoding.relinks known (fun _ _ _ => rfl) fun _ _ _ => rfl⟩
  case storeTail target =>
    obtain ⟨⟩ := performed
    rw [same]
    exact ⟨_, rfl, entries, encoding.relinks known (fun _ _ _ => rfl) fun _ _ _ => rfl⟩
  case loadChunkNo a =>
    obtain ⟨rfl, ⟨⟩⟩ := Option.ite_none_right_eq_some.mp performed
    refine ⟨_, ⟨fun number member => ?_, rfl⟩, entries, encoding.stay known⟩
    rcases List.mem_cons.mp member with mine | member
    · obtain ⟨⟩ := mine
      exact owns.number
    · exact encoding.entriesOk.number (a, number) (listed ▸ member)
  -- what is left reads a link
  all_goals
    obtain ⟨rfl, ⟨⟩⟩ := Option.ite_none_right_eq_some.mp performed
    exact ⟨_, ⟨by rw [same], rfl⟩, entries, encoding.stay known⟩

theorem Encoding.perform_joining (encoding : Encoding string s ms entries) (some : 0 < n) {count : Nat}
    (known : ms t = .joining count) (allowed : (callOrder n string).allowed (.joining count) c)
    (performed : perform t c answer s = Option.some s') : Encoded string s' ms t (.joining count) c answer := by
  cases c <;> try exact (allowed : False).elim
  case join i =>
    obtain ⟨ended, ⟨⟩⟩ := Option.ite_none_right_eq_some.mp performed
    obtain rfl := (encoding.ok known).1
    obtain rfl : i.val = count := allowed
    by_cases last : i.val + 1 = n
    · obtain ⟨all, after⟩ := encoding.joins_last known ended last
      obtain ⟨represents, complete⟩ := encoding.all_listed some fun j => encoding.exited j (all j)
      refine ⟨_, ?_, entries, after⟩
      exact (if_pos last).mpr ⟨s.links, entries, represents, complete, rfl⟩
    · refine ⟨_, ?_, entries, encoding.joins known ended⟩
      exact (if_neg last).mpr rfl

theorem Encoding.perform_printing (encoding : Encoding string s ms entries) {links : Links} {known' : Entries}
    {written : OutFile → List Code} (known : ms t = .printing links known' written)
    (allowed : (callOrder n string).allowed (.printing links known' written) c)
    (performed : perform t c answer s = some s') :
    Encoded string s' ms t (.printing links known' written) c answer := by
  obtain ⟨-, -, same, listed, -⟩ := encoding.ok known
  cases c <;> try exact (allowed : False).elim
  case loadCode node i =>
    obtain ⟨rfl, ⟨⟩⟩ := Option.ite_none_right_eq_some.mp performed
    refine ⟨_, ⟨fun number member => ?_, rfl⟩, entries, encoding.stay known⟩
    exact encoding.entriesOk.codes (node, number) (listed ▸ member) i allowed.2
  case loadNext a =>
    obtain ⟨rfl, ⟨⟩⟩ := Option.ite_none_right_eq_some.mp performed
    exact ⟨_, ⟨by rw [same], rfl⟩, entries, encoding.stay known⟩
  case loadHead =>
    obtain ⟨rfl, ⟨⟩⟩ := Option.ite_none_right_eq_some.mp performed
    exact ⟨_, ⟨by rw [same], rfl⟩, entries, encoding.stay known⟩
  case print file code =>
    obtain ⟨⟩ := performed
    exact ⟨_, rfl, entries, encoding.prints known file code⟩

theorem Encoding.perform (encoding : Encoding string s ms entries) (some : 0 < n)
    (allowed : (callOrder n string).allowed (ms t) c) (performed : perform t c answer s = Option.some s') :
    ∃ stage', (callOrder n string).moves (ms t) c answer stage' ∧
      ∃ entries', Encoding string s' (Function.update ms t stage') entries' := by
  cases known : ms t <;> rw [known] at allowed
  case idle seen => exact encoding.perform_idle known allowed performed
  case counting seen chunkNo => exact encoding.perform_counting known allowed performed
  case counted chunkNo => exact encoding.perform_counted known allowed performed
  case claimed chunkNo => exact encoding.perform_claimed known allowed performed
  case filling chunkNo node count => exact encoding.perform_filling known allowed performed
  case storing chunkNo node links known' => exact encoding.perform_storing known allowed performed
  case ended => cases c <;> exact (allowed : False).elim
  case joining count => exact encoding.perform_joining some known allowed performed
  case printing links known' written => exact encoding.perform_printing known allowed performed

end

end ArchCompSystems.Ihw4
