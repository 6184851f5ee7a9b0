import ArchCompSystems.Ihw4.Encoding
import Mathlib.Data.List.Sort

namespace ArchCompSystems.Ihw4

open Library Library.Program

section

variable {n : Nat}

/-- A thread has claimed a chunk that is not in the list. -/
structure Claims (s : State n) (entries : Entries) (t : Thread n) (chunkNo : Nat) : Prop where
  encoder : t ≠ .main
  counted : chunkNo < s.currentChunkNo
  missing : chunkNo ∉ entries.map Prod.snd

structure Owns (string : List UInt8) (s : State n) (entries : Entries) (chunkNo node : Nat) : Prop where
  inside : chunkNo < maxChunkNo string
  allocated : node < s.allocated
  fresh : node ∉ entries.map Prod.fst
  number : s.chunkNo node = chunkNo

def ThreadOk (string : List UInt8) (s : State n) (entries : Entries) (t : Thread n) : Stage → Prop
  | .idle seen => t ≠ .main ∧ seen ≤ s.currentChunkNo
  | .counting _ chunkNo => t ≠ .main ∧ s.owner .get = some t ∧ s.currentChunkNo = chunkNo
  | .counted chunkNo => s.owner .get = some t ∧ Claims s entries t chunkNo
  | .claimed chunkNo => Claims s entries t chunkNo
  | .filling chunkNo node count => Claims s entries t chunkNo ∧ Owns string s entries chunkNo node ∧
      s.links.prev node = none ∧
      ∀ i, s.encodedString node i = if i < count then chunkCode string chunkNo i else 0
  | .storing chunkNo node links known => Claims s entries t chunkNo ∧ Owns string s entries chunkNo node ∧
      s.owner .store = some t ∧ s.links = links ∧ known = entries ∧
      ∀ i, i < encodeChunkSize → s.encodedString node i = chunkCode string chunkNo i
  | .ended => t ≠ .main ∧ maxChunkNo string ≤ s.currentChunkNo
  | .joining count => t = .main ∧ (∀ i, i.val < count → s.exited i = true) ∧ s.written = fun _ => []
  | .printing links known written => t = .main ∧ (∀ i, s.exited i = true) ∧ s.links = links ∧
      known = entries ∧ s.written = written

structure EntriesOk (string : List UInt8) (s : State n) (entries : Entries) : Prop where
  sorted : entries.Pairwise (·.2 < ·.2)
  inside : ∀ entry ∈ entries, entry.2 < maxChunkNo string
  counted : ∀ entry ∈ entries, entry.2 < s.currentChunkNo
  allocated : ∀ entry ∈ entries, entry.1 < s.allocated
  number : ∀ entry ∈ entries, s.chunkNo entry.1 = entry.2
  codes : ∀ entry ∈ entries, ∀ i, i < encodeChunkSize →
    s.encodedString entry.1 i = chunkCode string entry.2 i

/-- Two threads have no chunk and no node in common. -/
structure Apart (first second : Stage) : Prop where
  chunk : ∀ k, first.chunk = some k → second.chunk ≠ some k
  node : ∀ a, first.node = some a → second.node ≠ some a

/-- Every chunk that was counted is in the list or somebody's. -/
structure Encoding (string : List UInt8) (s : State n) (ms : Thread n → Stage) (entries : Entries) : Prop where
  threads : ∀ t, ThreadOk string s entries t (ms t)
  apart : ∀ t u, t ≠ u → Apart (ms t) (ms u)
  entriesOk : EntriesOk string s entries
  complete : ∀ k, k < maxChunkNo string → k < s.currentChunkNo →
    k ∈ entries.map Prod.snd ∨ ∃ t, (ms t).chunk = some k
  listed : (∀ t, (ms t).inStore = false) → s.links.Represents (entries.map Prod.fst)
  exited : ∀ i, s.exited i = true → ms (.encoder i) = .ended
  unallocated : ∀ a, s.allocated ≤ a → s.links.next a = none ∧ s.links.prev a = none

/-- What a thread at a stage relies on is still there. -/
structure Keeps (s s' : State n) (t : Thread n) (stage : Stage) : Prop where
  owner : ∀ mutex, mutex ≠ .write → s.owner mutex = some t → s'.owner mutex = some t
  current : s.currentChunkNo ≤ s'.currentChunkNo
  counting : ∀ seen chunkNo, stage = .counting seen chunkNo → s'.currentChunkNo = s.currentChunkNo
  allocated : s.allocated ≤ s'.allocated
  node : ∀ a, stage.node = some a → s'.chunkNo a = s.chunkNo a ∧ s'.encodedString a = s.encodedString a ∧
    s'.links.prev a = s.links.prev a
  links : (stage.inStore = true ∨ ∃ links entries written, stage = .printing links entries written) →
    s'.links = s.links
  exited : ∀ i, s.exited i = true → s'.exited i = true
  written : t = .main → s'.written = s.written

variable {string : List UInt8} {s s' : State n} {ms : Thread n → Stage} {entries : Entries} {t : Thread n}
  {stage : Stage}

theorem Claims.frame {chunkNo : Nat} (claims : Claims s entries t chunkNo)
    (current : s.currentChunkNo ≤ s'.currentChunkNo) : Claims s' entries t chunkNo :=
  ⟨claims.encoder, Nat.lt_of_lt_of_le claims.counted current, claims.missing⟩

theorem Owns.frame {chunkNo node : Nat} (owns : Owns string s entries chunkNo node)
    (allocated : s.allocated ≤ s'.allocated) (number : s'.chunkNo node = s.chunkNo node) :
    Owns string s' entries chunkNo node :=
  ⟨owns.inside, Nat.lt_of_lt_of_le owns.allocated allocated, owns.fresh, number.trans owns.number⟩

theorem ThreadOk.frame (ok : ThreadOk string s entries t stage) (keeps : Keeps s s' t stage) :
    ThreadOk string s' entries t stage := by
  cases stage with
  | idle seen => exact ⟨ok.1, Nat.le_trans ok.2 keeps.current⟩
  | counting seen chunkNo =>
    exact ⟨ok.1, keeps.owner .get (by simp) ok.2.1, (keeps.counting seen chunkNo rfl).trans ok.2.2⟩
  | counted chunkNo => exact ⟨keeps.owner .get (by simp) ok.1, ok.2.frame keeps.current⟩
  | claimed chunkNo => exact Claims.frame ok keeps.current
  | filling chunkNo node count =>
    obtain ⟨claims, owns, unlinked, codes⟩ := ok
    obtain ⟨number, encoded, prev⟩ := keeps.node node rfl
    refine ⟨claims.frame keeps.current, owns.frame keeps.allocated number, prev.trans unlinked, fun i => ?_⟩
    rw [encoded]
    exact codes i
  | storing chunkNo node links known =>
    obtain ⟨claims, owns, owner, same, known, codes⟩ := ok
    obtain ⟨number, encoded, -⟩ := keeps.node node rfl
    refine ⟨claims.frame keeps.current, owns.frame keeps.allocated number, keeps.owner .store (by simp) owner,
      (keeps.links (.inl rfl)).trans same, known, fun i inside => ?_⟩
    rw [encoded]
    exact codes i inside
  | ended => exact ⟨ok.1, Nat.le_trans ok.2 keeps.current⟩
  | joining count =>
    exact ⟨ok.1, fun i before => keeps.exited i (ok.2.1 i before), (keeps.written ok.1).trans ok.2.2⟩
  | printing links known written =>
    exact ⟨ok.1, fun i => keeps.exited i (ok.2.1 i), (keeps.links (.inr ⟨_, _, _, rfl⟩)).trans ok.2.2.1, ok.2.2.2.1,
      (keeps.written ok.1).trans ok.2.2.2.2⟩

theorem Encoding.move (encoding : Encoding string s ms entries)
    (keeps : ∀ u, u ≠ t → Keeps s s' u (ms u)) (mine : ThreadOk string s' entries t stage)
    (apart : ∀ u, u ≠ t → Apart stage (ms u) ∧ Apart (ms u) stage) (entriesOk : EntriesOk string s' entries)
    (complete : ∀ k, k < maxChunkNo string → k < s'.currentChunkNo → k < s.currentChunkNo ∨ stage.chunk = some k)
    (passed : ∀ k, k < maxChunkNo string → (ms t).chunk = some k → stage.chunk = some k)
    (listed : (∀ u, u ≠ t → (ms u).inStore = false) → stage.inStore = false →
      s'.links.Represents (entries.map Prod.fst))
    (exited : ∀ i, s'.exited i = true → s.exited i = true ∧ t ≠ .encoder i ∨ t = .encoder i ∧ stage = .ended)
    (unallocated : ∀ a, s'.allocated ≤ a → s'.links.next a = none ∧ s'.links.prev a = none) :
    Encoding string s' (Function.update ms t stage) entries where
  threads := by
    intro u
    by_cases same : u = t
    · subst same
      rwa [Function.update_self]
    · rw [Function.update_of_ne same]
      exact (encoding.threads u).frame (keeps u same)
  apart := by
    intro u v other
    by_cases same : u = t
    · subst same
      rw [Function.update_self, Function.update_of_ne other.symm]
      exact (apart v other.symm).1
    · rw [Function.update_of_ne same]
      by_cases same' : v = t
      · subst same'
        rw [Function.update_self]
        exact (apart u same).2
      · rw [Function.update_of_ne same']
        exact encoding.apart u v other
  entriesOk := entriesOk
  complete := by
    intro k inside counted
    rcases complete k inside counted with before | mine
    · rcases encoding.complete k inside before with stored | ⟨u, claimed⟩
      · exact .inl stored
      · refine .inr ⟨u, ?_⟩
        by_cases same : u = t
        · subst same
          rw [Function.update_self]
          exact passed k inside claimed
        · rwa [Function.update_of_ne same]
    · exact .inr ⟨t, by rwa [Function.update_self]⟩
  listed := by
    intro nobody
    refine listed (fun u other => ?_) ?_
    · have outside := nobody u
      rwa [Function.update_of_ne other] at outside
    · have outside := nobody t
      rwa [Function.update_self] at outside
  exited := by
    intro i ended
    rcases exited i ended with ⟨before, other⟩ | ⟨rfl, last⟩
    · rw [Function.update_of_ne (Ne.symm other)]
      exact encoding.exited i before
    · rw [Function.update_self]
      exact last
  unallocated := unallocated

theorem Keeps.rfl : Keeps s s t stage :=
  ⟨fun _ _ owner => owner, Nat.le_refl _, fun _ _ _ => Eq.refl _, Nat.le_refl _,
    fun _ _ => ⟨Eq.refl _, Eq.refl _, Eq.refl _⟩, fun _ => Eq.refl _, fun _ ended => ended, fun _ => Eq.refl _⟩

theorem Keeps.owners {owner : Mutex → Option (Thread n)}
    (kept : ∀ mutex, mutex ≠ .write → s.owner mutex = some t → owner mutex = some t) :
    Keeps s { s with owner := owner } t stage :=
  ⟨kept, Nat.le_refl _, fun _ _ _ => Eq.refl _, Nat.le_refl _,
    fun _ _ => ⟨Eq.refl _, Eq.refl _, Eq.refl _⟩, fun _ => Eq.refl _, fun _ ended => ended, fun _ => Eq.refl _⟩

theorem Keeps.lock {mutex : Mutex} {u : Thread n} (free : s.owner mutex = none) :
    Keeps s { s with owner := Function.update s.owner mutex (some t) } u stage := by
  refine Keeps.owners fun other _ owner => ?_
  have apart : other ≠ mutex := fun same => by rw [same, free] at owner; cases owner
  rw [Function.update_of_ne apart]
  exact owner

theorem Keeps.unlock {mutex : Mutex} {u : Thread n} (other : u ≠ t) (own : s.owner mutex = some t) :
    Keeps s { s with owner := Function.update s.owner mutex none } u stage := by
  refine Keeps.owners fun third _ owner => ?_
  have apart : third ≠ mutex := fun same => by
    rw [same, own] at owner
    exact other (Option.some.inj owner).symm
  rw [Function.update_of_ne apart]
  exact owner

theorem Encoding.ok (encoding : Encoding string s ms entries) (known : ms t = stage) :
    ThreadOk string s entries t stage := known ▸ encoding.threads t

theorem Encoding.still_apart (encoding : Encoding string s ms entries)
    (chunk : ∀ k, stage.chunk = some k → (ms t).chunk = some k)
    (node : ∀ a, stage.node = some a → (ms t).node = some a) (u : Thread n) (other : u ≠ t) :
    Apart stage (ms u) ∧ Apart (ms u) stage := by
  have before := encoding.apart t u other.symm
  have after := encoding.apart u t other
  exact ⟨⟨fun k mine => before.chunk k (chunk k mine), fun a mine => before.node a (node a mine)⟩,
    ⟨fun k his mine => after.chunk k his (chunk k mine), fun a his mine => after.node a his (node a mine)⟩⟩

theorem Encoding.not_main (encoding : Encoding string s ms entries)
    (known : ms .main = stage) : stage.chunk = none ∧ stage.node = none ∧ stage.inStore = false := by
  have ok := encoding.ok known
  cases stage with
  | idle seen => exact absurd rfl ok.1
  | counting seen chunkNo => exact absurd rfl ok.1
  | counted chunkNo => exact absurd rfl ok.2.encoder
  | claimed chunkNo => exact absurd rfl (Claims.encoder ok)
  | filling chunkNo node count => exact absurd rfl ok.1.encoder
  | storing chunkNo node links known => exact absurd rfl ok.1.encoder
  | ended => exact absurd rfl ok.1
  | joining count => exact ⟨rfl, rfl, rfl⟩
  | printing links known written => exact ⟨rfl, rfl, rfl⟩

theorem Encoding.nobody_prints (encoding : Encoding string s ms entries) (known : ms t = stage)
    (encoder : t ≠ .main) (running : stage ≠ .ended) (u : Thread n) (links : Links) (known' : Entries)
    (written : OutFile → List Code) : ms u ≠ .printing links known' written := by
  intro prints
  obtain ⟨-, exited, -⟩ := encoding.ok prints
  cases t with
  | main => exact encoder rfl
  | encoder i => exact running (known.symm.trans (encoding.exited i (exited i)))

theorem Encoding.stay (encoding : Encoding string s ms entries) (known : ms t = stage) :
    Encoding string s (Function.update ms t stage) entries := by
  rw [← known, Function.update_eq_self]
  exact encoding

theorem Encoding.write_lock (encoding : Encoding string s ms entries) (owner : Option (Thread n)) :
    Encoding string { s with owner := Function.update s.owner .write owner } ms entries where
  threads u := (encoding.threads u).frame (Keeps.owners fun mutex other own => by
    rw [Function.update_of_ne other]
    exact own)
  apart := encoding.apart
  entriesOk := ⟨encoding.entriesOk.sorted, encoding.entriesOk.inside, encoding.entriesOk.counted,
    encoding.entriesOk.allocated, encoding.entriesOk.number, encoding.entriesOk.codes⟩
  complete := encoding.complete
  listed := encoding.listed
  exited := encoding.exited
  unallocated := encoding.unallocated

theorem EntriesOk.frame (ok : EntriesOk string s entries) (current : s.currentChunkNo ≤ s'.currentChunkNo)
    (allocated : s.allocated ≤ s'.allocated)
    (nodes : ∀ a ∈ entries.map Prod.fst, s'.chunkNo a = s.chunkNo a ∧ s'.encodedString a = s.encodedString a) :
    EntriesOk string s' entries where
  sorted := ok.sorted
  inside := ok.inside
  counted entry member := Nat.lt_of_lt_of_le (ok.counted entry member) current
  allocated entry member := Nat.lt_of_lt_of_le (ok.allocated entry member) allocated
  number entry member := (nodes entry.1 (List.mem_map_of_mem member)).1.trans (ok.number entry member)
  codes entry member i inside := by
    rw [(nodes entry.1 (List.mem_map_of_mem member)).2]
    exact ok.codes entry member i inside

theorem EntriesOk.same (ok : EntriesOk string s entries) (current : s'.currentChunkNo = s.currentChunkNo)
    (allocated : s'.allocated = s.allocated) (number : s'.chunkNo = s.chunkNo)
    (encoded : s'.encodedString = s.encodedString) : EntriesOk string s' entries :=
  ok.frame (Nat.le_of_eq current.symm) (Nat.le_of_eq allocated.symm)
    fun a _ => ⟨congrFun number a, congrFun encoded a⟩

theorem Encoding.listed_others (encoding : Encoding string s ms entries) (known : ms t = stage)
    (outside : stage.inStore = false) (others : ∀ u, u ≠ t → (ms u).inStore = false) :
    s.links.Represents (entries.map Prod.fst) := encoding.listed fun u => by
  by_cases same : u = t
  · rw [same, known, outside]
  · exact others u same

theorem Encoding.still_exited (encoding : Encoding string s ms entries) (known : ms t = stage)
    (running : stage ≠ .ended) {after : Stage} (i : Fin n) (ended : s.exited i = true) :
    s.exited i = true ∧ t ≠ .encoder i ∨ t = .encoder i ∧ after = .ended :=
  .inl ⟨ended, fun same => running (by rw [← known, same, encoding.exited i ended])⟩

theorem Encoding.claims (encoding : Encoding string s ms entries) {u : Thread n} {k : Nat}
    (chunk : (ms u).chunk = some k) : Claims s entries u k := by
  have ok := encoding.threads u
  cases known : ms u <;> rw [known] at ok chunk <;> cases chunk
  · exact ok.2
  · exact ok
  · exact ok.1
  · exact ok.1

theorem Encoding.owns (encoding : Encoding string s ms entries) {u : Thread n} {a : Nat}
    (node : (ms u).node = some a) : ∃ chunkNo, (ms u).chunk = some chunkNo ∧
      Owns string s entries chunkNo a := by
  have ok := encoding.threads u
  cases known : ms u <;> rw [known] at ok node <;> cases node
  · exact ⟨_, rfl, ok.2.1⟩
  · exact ⟨_, rfl, ok.2.1⟩

theorem Encoding.locks_get (encoding : Encoding string s ms entries) {seen : Nat} (known : ms t = .idle seen)
    (free : s.owner .get = none) : Encoding string { s with owner := Function.update s.owner .get (some t) }
      (Function.update ms t (.counting seen s.currentChunkNo)) entries :=
  encoding.move (fun _ _ => Keeps.lock free) ⟨(encoding.ok known).1, by simp, rfl⟩
    (encoding.still_apart (by simp [Stage.chunk]) (by simp [Stage.node]))
    (encoding.entriesOk.same rfl rfl rfl rfl) (fun _ _ counted => .inl counted)
    (by rw [known]; simp [Stage.chunk]) (fun others _ => encoding.listed_others known rfl others)
    (encoding.still_exited known (by simp)) encoding.unallocated

theorem Encoding.counts (encoding : Encoding string s ms entries) {seen chunkNo : Nat}
    (known : ms t = .counting seen chunkNo) : Encoding string { s with currentChunkNo := chunkNo + 1 }
      (Function.update ms t (.counted chunkNo)) entries := by
  obtain ⟨encoder, owner, current⟩ := encoding.ok known
  have grows : s.currentChunkNo ≤ chunkNo + 1 := by omega
  refine encoding.move ?_ ⟨owner, encoder, Nat.lt_succ_self _, ?_⟩ ?_ (encoding.entriesOk.frame grows
    (Nat.le_refl _) fun _ _ => ⟨rfl, rfl⟩) ?_ (by rw [known]; simp [Stage.chunk])
    (fun others _ => encoding.listed_others known rfl others) (encoding.still_exited known (by simp))
    encoding.unallocated
  · intro u other
    refine ⟨fun _ _ owner => owner, grows, fun seen' other' counting => ?_, Nat.le_refl _,
      fun _ _ => ⟨rfl, rfl, rfl⟩, fun _ => rfl, fun _ ended => ended, fun _ => rfl⟩
    have own := (encoding.ok counting).2.1
    rw [owner] at own
    exact absurd (Option.some.inj own).symm other
  · intro stored
    obtain ⟨entry, member, same⟩ := List.mem_map.mp stored
    have counted := encoding.entriesOk.counted entry member
    omega
  · intro u other
    have below : (ms u).chunk ≠ some chunkNo := fun claimed => by
      have counted := (encoding.claims claimed).counted
      omega
    exact ⟨⟨fun k mine => by cases mine; exact below, by simp [Stage.node]⟩,
      ⟨fun k his mine => by cases mine; exact below his, by simp [Stage.node]⟩⟩
  · intro k _ counted
    rcases Nat.lt_succ_iff_lt_or_eq.mp counted with before | rfl
    · exact .inl (current ▸ before)
    · exact .inr rfl

theorem Encoding.unlocks_get (encoding : Encoding string s ms entries) {chunkNo : Nat}
    (known : ms t = .counted chunkNo) :
    Encoding string { s with owner := Function.update s.owner .get none }
      (Function.update ms t (.claimed chunkNo)) entries := by
  obtain ⟨owner, claims⟩ := encoding.ok known
  exact encoding.move (fun _ other => Keeps.unlock other owner) (claims.frame (Nat.le_refl _))
    (encoding.still_apart (by rw [known]; exact fun _ same => same) (by simp [Stage.node]))
    (encoding.entriesOk.same rfl rfl rfl rfl) (fun _ _ counted => .inl counted)
    (by rw [known]; exact fun _ _ same => same) (fun others _ => encoding.listed_others known rfl others)
    (encoding.still_exited known (by simp)) encoding.unallocated

theorem Encoding.creates (encoding : Encoding string s ms entries) {chunkNo : Nat}
    (known : ms t = .claimed chunkNo) (inside : chunkNo < maxChunkNo string) :
    Encoding string { s with
        links := { s.links with
          next := Function.update s.links.next s.allocated none
          prev := Function.update s.links.prev s.allocated none }
        chunkNo := Function.update s.chunkNo s.allocated chunkNo
        encodedString := Function.update s.encodedString s.allocated fun _ => 0
        allocated := s.allocated + 1 }
      (Function.update ms t (.filling chunkNo s.allocated 0)) entries := by
  obtain ⟨unlinkedNext, unlinkedPrev⟩ := encoding.unallocated s.allocated (Nat.le_refl _)
  -- A fresh node has no links, so zeroing them changes nothing.
  have next : Function.update s.links.next s.allocated none = s.links.next :=
    Function.update_eq_self_iff.mpr unlinkedNext.symm
  have prev : Function.update s.links.prev s.allocated none = s.links.prev :=
    Function.update_eq_self_iff.mpr unlinkedPrev.symm
  rw [next, prev]
  have claims : Claims s entries t chunkNo := encoding.ok known
  have below : ∀ u a, (ms u).node = some a → a ≠ s.allocated := fun u a node => by
    obtain ⟨_, -, owns⟩ := encoding.owns node
    exact Nat.ne_of_lt owns.allocated
  have listed : ∀ a ∈ entries.map Prod.fst, a ≠ s.allocated := fun a member => by
    obtain ⟨entry, stored, rfl⟩ := List.mem_map.mp member
    exact Nat.ne_of_lt (encoding.entriesOk.allocated entry stored)
  refine encoding.move ?_ ⟨claims.frame (Nat.le_refl _), ⟨inside, Nat.lt_succ_self _, ?_, by simp⟩,
    unlinkedPrev, by simp⟩ ?_ (encoding.entriesOk.frame (Nat.le_refl _) (Nat.le_succ _) ?_)
    (fun _ _ counted => .inl counted) (by rw [known]; exact fun _ _ same => same)
    (fun others _ => encoding.listed_others known rfl others) (encoding.still_exited known (by simp))
    (fun a beyond => encoding.unallocated a (Nat.le_of_succ_le beyond))
  · intro u _
    refine ⟨fun _ _ owner => owner, Nat.le_refl _, fun _ _ _ => rfl, Nat.le_succ _, fun a node => ?_,
      fun _ => rfl, fun _ ended => ended, fun _ => rfl⟩
    exact ⟨Function.update_of_ne (below u a node) .., Function.update_of_ne (below u a node) .., rfl⟩
  · exact fun member => listed _ member rfl
  · intro u other
    have before := encoding.apart t u other.symm
    have after := encoding.apart u t other
    rw [known] at before after
    exact ⟨⟨before.chunk, fun a mine his => below u a his (Option.some.inj mine).symm⟩,
      ⟨after.chunk, fun a his mine => below u a his (Option.some.inj mine).symm⟩⟩
  · intro a member
    exact ⟨Function.update_of_ne (listed a member) .., Function.update_of_ne (listed a member) ..⟩

theorem Encoding.ends (encoding : Encoding string s ms entries) {i : Fin n} {chunkNo : Nat}
    (known : ms (.encoder i) = .claimed chunkNo) (beyond : maxChunkNo string ≤ chunkNo) :
    Encoding string { s with exited := Function.update s.exited i true }
      (Function.update ms (.encoder i) .ended) entries := by
  have claims : Claims s entries (.encoder i) chunkNo := encoding.ok known
  refine encoding.move ?_ ⟨by simp, Nat.le_trans beyond (Nat.le_of_lt claims.counted)⟩
    (encoding.still_apart (by simp [Stage.chunk]) (by simp [Stage.node]))
    (encoding.entriesOk.same rfl rfl rfl rfl) (fun _ _ counted => .inl counted) ?_
    (fun others _ => encoding.listed_others known rfl others) ?_ encoding.unallocated
  · intro u _
    refine ⟨fun _ _ owner => owner, Nat.le_refl _, fun _ _ _ => rfl, Nat.le_refl _,
      fun _ _ => ⟨rfl, rfl, rfl⟩, fun _ => rfl, fun j ended => ?_, fun _ => rfl⟩
    by_cases same : j = i
    · subst same
      exact Function.update_self ..
    · exact (Function.update_of_ne same ..).trans ended
  · rw [known]
    rintro k inside ⟨⟩
    omega
  · intro j ended
    by_cases same : j = i
    · exact .inr ⟨by rw [same], rfl⟩
    · have before : s.exited j = true := by
        simpa only [Function.update_of_ne same] using ended
      exact .inl ⟨before, by simpa using Ne.symm same⟩

theorem Encoding.encodes (encoding : Encoding string s ms entries) {chunkNo node count : Nat}
    (known : ms t = .filling chunkNo node count) :
    Encoding string { s with
        encodedString := Function.update s.encodedString node
          (Function.update (s.encodedString node) count (chunkCode string chunkNo count)) }
      (Function.update ms t (.filling chunkNo node (count + 1))) entries := by
  obtain ⟨claims, owns, unlinked, codes⟩ := encoding.ok known
  refine encoding.move ?_ ⟨claims.frame (Nat.le_refl _), owns.frame (Nat.le_refl _) rfl, unlinked, ?_⟩
    (encoding.still_apart (by rw [known]; exact fun _ same => same) (by rw [known]; exact fun _ same => same))
    (encoding.entriesOk.frame (Nat.le_refl _) (Nat.le_refl _) ?_) (fun _ _ counted => .inl counted)
    (by rw [known]; exact fun _ _ same => same) (fun others _ => encoding.listed_others known rfl others)
    (encoding.still_exited known (by simp)) encoding.unallocated
  · intro u other
    refine ⟨fun _ _ owner => owner, Nat.le_refl _, fun _ _ _ => rfl, Nat.le_refl _, fun a his => ?_,
      fun _ => rfl, fun _ ended => ended, fun _ => rfl⟩
    have apart : a ≠ node := fun same =>
      (encoding.apart t u other.symm).node node (by rw [known]; rfl) (same ▸ his)
    exact ⟨rfl, Function.update_of_ne apart .., rfl⟩
  · intro i
    simp only [Function.update_self]
    by_cases same : i = count
    · subst same
      rw [Function.update_self, if_pos (Nat.lt_succ_self _)]
    · rw [Function.update_of_ne same, codes i]
      have bound : i < count ↔ i < count + 1 := by omega
      simp only [bound]
  · intro a member
    exact ⟨rfl, Function.update_of_ne (ne_of_mem_of_not_mem member owns.fresh) ..⟩

theorem EntriesOk.nodup (ok : EntriesOk string s entries) : (entries.map Prod.snd).Nodup :=
  (List.pairwise_map.mpr ok.sorted).imp Nat.ne_of_lt

theorem EntriesOk.few (ok : EntriesOk string s entries) : entries.length ≤ maxChunkNo string := by
  have subset : entries.map Prod.snd ⊆ List.range (maxChunkNo string) := fun k member => by
    obtain ⟨entry, stored, rfl⟩ := List.mem_map.mp member
    exact List.mem_range.mpr (ok.inside entry stored)
  have bound := (ok.nodup.subperm subset).length_le
  rwa [List.length_map, List.length_range] at bound

theorem Encoding.locks_store (encoding : Encoding string s ms entries) {chunkNo node count : Nat}
    (known : ms t = .filling chunkNo node count) (free : s.owner .store = none)
    (filled : ∀ i, count ≤ i → i < encodeChunkSize → chunkCode string chunkNo i = 0) :
    Entry string chunkNo node s.links entries ∧
      Encoding string { s with owner := Function.update s.owner .store (some t) }
        (Function.update ms t (.storing chunkNo node s.links entries)) entries := by
  obtain ⟨claims, owns, unlinked, codes⟩ := encoding.ok known
  have nobody : ∀ u, (ms u).inStore = false := fun u => by
    have ok := encoding.threads u
    cases stage : ms u with
    | storing chunkNo node links entries =>
      rw [stage] at ok
      have owner := ok.2.2.1
      rw [free] at owner
      cases owner
    | _ => rfl
  refine ⟨⟨encoding.listed nobody, encoding.entriesOk.sorted, encoding.entriesOk.few, owns.fresh, unlinked,
    claims.missing⟩, ?_⟩
  refine encoding.move (fun _ _ => Keeps.lock free) ⟨claims.frame (Nat.le_refl _),
    owns.frame (Nat.le_refl _) rfl, by simp, rfl, rfl, fun i inside => ?_⟩
    (encoding.still_apart (by rw [known]; exact fun _ same => same) (by rw [known]; exact fun _ same => same))
    (encoding.entriesOk.same rfl rfl rfl rfl) (fun _ _ counted => .inl counted)
    (by rw [known]; exact fun _ _ same => same) (fun _ no => nomatch no)
    (encoding.still_exited known (by simp)) encoding.unallocated
  rw [codes i]
  split
  · rfl
  · exact (filled i (by omega) inside).symm

theorem Encoding.relinks (encoding : Encoding string s ms entries) {chunkNo node : Nat} {links links' : Links}
    {known' : Entries} (known : ms t = .storing chunkNo node links known')
    (next : ∀ a, a ≠ node → a ∉ known'.map Prod.fst → links'.next a = links.next a)
    (prev : ∀ a, a ≠ node → a ∉ known'.map Prod.fst → links'.prev a = links.prev a) :
    Encoding string { s with links := links' } (Function.update ms t (.storing chunkNo node links' known'))
      entries := by
  obtain ⟨claims, owns, owner, rfl, rfl, codes⟩ := encoding.ok known
  refine encoding.move ?_ ⟨claims.frame (Nat.le_refl _), owns.frame (Nat.le_refl _) rfl, owner, rfl, rfl, codes⟩
    (encoding.still_apart (by rw [known]; exact fun _ same => same) (by rw [known]; exact fun _ same => same))
    (encoding.entriesOk.same rfl rfl rfl rfl) (fun _ _ counted => .inl counted)
    (by rw [known]; exact fun _ _ same => same) (fun _ no => nomatch no)
    (encoding.still_exited known (by simp)) ?_
  · intro u other
    refine ⟨fun _ _ owner => owner, Nat.le_refl _, fun _ _ _ => rfl, Nat.le_refl _, fun a his => ?_, ?_,
      fun _ ended => ended, fun _ => rfl⟩
    · obtain ⟨_, -, apart⟩ := encoding.owns his
      refine ⟨rfl, rfl, prev a (fun same => ?_) apart.fresh⟩
      exact (encoding.apart t u other.symm).node node (by rw [known]; rfl) (same ▸ his)
    · rintro (inside | ⟨_, _, _, prints⟩)
      · cases stage : ms u with
        | storing chunkNo' node' links' entries' =>
          have own := (encoding.ok stage).2.2.1
          rw [owner] at own
          exact absurd (Option.some.inj own).symm other
        | _ => rw [stage] at inside; cases inside
      · exact absurd prints (encoding.nobody_prints known claims.encoder (by simp) u _ _ _)
  · intro a beyond
    have notOwn : a ≠ node := (Nat.ne_of_lt (Nat.lt_of_lt_of_le owns.allocated beyond)).symm
    have notListed : a ∉ known'.map Prod.fst := fun member => by
      obtain ⟨entry, stored, rfl⟩ := List.mem_map.mp member
      have below := encoding.entriesOk.allocated entry stored
      exact absurd (Nat.lt_of_lt_of_le below beyond) (Nat.lt_irrefl _)
    simp only [next a notOwn notListed, prev a notOwn notListed]
    exact encoding.unallocated a beyond

/-- What another thread knows stays true of the list with the stored node. -/
theorem Encoding.widen (encoding : Encoding string s ms entries) {chunkNo node : Nat} {links : Links}
    {inserted : Entries} (known : ms t = .storing chunkNo node links entries)
    (perm : inserted.Perm ((node, chunkNo) :: entries)) {u : Thread n} (other : u ≠ t) :
    ThreadOk string s inserted u (ms u) := by
  obtain ⟨claims, -, owner, -, -, -⟩ := encoding.ok known
  have fst : ∀ a, a ∈ inserted.map Prod.fst ↔ a = node ∨ a ∈ entries.map Prod.fst := fun a => by
    rw [(perm.map Prod.fst).mem_iff, List.map_cons, List.mem_cons]
  have snd : ∀ k, k ∈ inserted.map Prod.snd ↔ k = chunkNo ∨ k ∈ entries.map Prod.snd := fun k => by
    rw [(perm.map Prod.snd).mem_iff, List.map_cons, List.mem_cons]
  have claimed : ∀ k, Claims s entries u k → (ms u).chunk = some k → Claims s inserted u k := fun k his chunk => by
    refine ⟨his.encoder, his.counted, fun member => ?_⟩
    rcases (snd k).mp member with rfl | member
    · exact (encoding.apart t u other.symm).chunk k (by rw [known]; rfl) chunk
    · exact his.missing member
  have ok := encoding.threads u
  cases stage : ms u with
  | idle seen => rw [stage] at ok; exact ok
  | counting seen chunkNo => rw [stage] at ok; exact ok
  | counted k => rw [stage] at ok; exact ⟨ok.1, claimed k ok.2 (by rw [stage]; rfl)⟩
  | claimed k => rw [stage] at ok; exact claimed k ok (by rw [stage]; rfl)
  | filling k a count =>
    rw [stage] at ok
    obtain ⟨his, own, unlinked, codes⟩ := ok
    refine ⟨claimed k his (by rw [stage]; rfl), ⟨own.inside, own.allocated, fun member => ?_, own.number⟩,
      unlinked, codes⟩
    rcases (fst a).mp member with rfl | member
    · exact (encoding.apart t u other.symm).node a (by rw [known]; rfl) (by rw [stage]; rfl)
    · exact own.fresh member
  | storing k a links entries =>
    rw [stage] at ok
    have own := ok.2.2.1
    rw [owner] at own
    exact absurd (Option.some.inj own).symm other
  | ended => rw [stage] at ok; exact ok
  | joining count => rw [stage] at ok; exact ok
  | printing links entries written =>
    exact absurd stage (encoding.nobody_prints known claims.encoder (by simp) u _ _ _)

theorem Encoding.entriesOk_insert (encoding : Encoding string s ms entries) {chunkNo node : Nat} {links : Links}
    {inserted : Entries} (known : ms t = .storing chunkNo node links entries)
    (perm : inserted.Perm ((node, chunkNo) :: entries)) (sorted : inserted.Pairwise (·.2 < ·.2)) :
    EntriesOk string s inserted := by
  obtain ⟨claims, owns, -, -, -, codes⟩ := encoding.ok known
  have entry_cases : ∀ entry ∈ inserted, entry = (node, chunkNo) ∨ entry ∈ entries := fun entry member =>
    List.mem_cons.mp (perm.mem_iff.mp member)
  have ok := encoding.entriesOk
  refine ⟨sorted, ?_, ?_, ?_, ?_, ?_⟩ <;> intro entry member <;>
    rcases entry_cases entry member with rfl | before
  · exact owns.inside
  · exact ok.inside entry before
  · exact claims.counted
  · exact ok.counted entry before
  · exact owns.allocated
  · exact ok.allocated entry before
  · exact owns.number
  · exact ok.number entry before
  · exact codes
  · exact ok.codes entry before

theorem Encoding.stores (encoding : Encoding string s ms entries) {chunkNo node : Nat} {links : Links}
    {known' inserted : Entries} (known : ms t = .storing chunkNo node links known')
    (perm : inserted.Perm ((node, chunkNo) :: known')) (sorted : inserted.Pairwise (·.2 < ·.2))
    (represents : links.Represents (inserted.map Prod.fst)) :
    Encoding string { s with owner := Function.update s.owner .store none }
      (Function.update ms t (.idle (chunkNo + 1))) inserted := by
  obtain ⟨claims, -, owner, rfl, rfl, -⟩ := encoding.ok known
  have snd : ∀ k, k ∈ inserted.map Prod.snd ↔ k = chunkNo ∨ k ∈ known'.map Prod.snd := fun k => by
    rw [(perm.map Prod.snd).mem_iff, List.map_cons, List.mem_cons]
  constructor
  · intro u
    by_cases same : u = t
    · subst same
      rw [Function.update_self]
      exact ⟨claims.encoder, claims.counted⟩
    · rw [Function.update_of_ne same]
      exact (encoding.widen known perm same).frame (Keeps.unlock same owner)
  · intro u v other
    by_cases same : u = t
    · subst same
      rw [Function.update_self]
      exact ⟨by simp [Stage.chunk], by simp [Stage.node]⟩
    · rw [Function.update_of_ne same]
      by_cases same' : v = t
      · subst same'
        rw [Function.update_self]
        exact ⟨by simp [Stage.chunk], by simp [Stage.node]⟩
      · rw [Function.update_of_ne same']
        exact encoding.apart u v other
  · exact (encoding.entriesOk_insert known perm sorted).same rfl rfl rfl rfl
  · intro k inside counted
    rcases encoding.complete k inside counted with stored | ⟨u, claimed⟩
    · exact .inl ((snd k).mpr (.inr stored))
    · by_cases same : u = t
      · subst same
        rw [known] at claimed
        exact .inl ((snd k).mpr (.inl (Option.some.inj claimed).symm))
      · exact .inr ⟨u, by rwa [Function.update_of_ne same]⟩
  · exact fun _ => represents
  · intro i ended
    have last := encoding.exited i ended
    have other : Thread.encoder i ≠ t := fun same => by
      rw [same, known] at last
      cases last
    rw [Function.update_of_ne other]
    exact last
  · exact encoding.unallocated

theorem Encoding.all_listed (encoding : Encoding string s ms entries) (some : 0 < n)
    (ended : ∀ i, ms (.encoder i) = .ended) : s.links.Represents (entries.map Prod.fst) ∧
      entries.map Prod.snd = List.range (maxChunkNo string) := by
  have last : ∀ t, (ms t).chunk = none ∧ (ms t).inStore = false := fun t => by
    cases t with
    | encoder i =>
      rw [ended i]
      exact ⟨rfl, rfl⟩
    | main =>
      obtain ⟨chunk, -, outside⟩ := encoding.not_main rfl
      exact ⟨chunk, outside⟩
  refine ⟨encoding.listed fun t => (last t).2, ?_⟩
  have beyond := (encoding.ok (ended ⟨0, some⟩)).2
  have members : ∀ k, k ∈ entries.map Prod.snd ↔ k ∈ List.range (maxChunkNo string) := by
    intro k
    rw [List.mem_range]
    constructor
    · intro member
      obtain ⟨entry, stored, rfl⟩ := List.mem_map.mp member
      exact encoding.entriesOk.inside entry stored
    · intro inside
      refine (encoding.complete k inside (Nat.lt_of_lt_of_le inside beyond)).resolve_right ?_
      rintro ⟨t, claimed⟩
      rw [(last t).1] at claimed
      cases claimed
  have perm := (List.perm_ext_iff_of_nodup encoding.entriesOk.nodup List.nodup_range).mpr members
  exact perm.eq_of_pairwise (fun a b _ _ less more => absurd (Nat.lt_trans less more) (Nat.lt_irrefl _))
    (List.pairwise_map.mpr encoding.entriesOk.sorted) List.pairwise_lt_range

theorem Encoding.joins (encoding : Encoding string s ms entries) {i : Fin n}
    (known : ms .main = .joining i.val) (ended : s.exited i = true) :
    Encoding string s (Function.update ms .main (.joining (i.val + 1))) entries := by
  obtain ⟨-, before, written⟩ := encoding.ok known
  refine encoding.move (fun _ _ => Keeps.rfl) ⟨rfl, fun j bound => ?_, written⟩
    (encoding.still_apart (by simp [Stage.chunk]) (by simp [Stage.node])) encoding.entriesOk
    (fun _ _ counted => .inl counted) (by rw [known]; simp [Stage.chunk])
    (fun others _ => encoding.listed_others known rfl others) (encoding.still_exited known (by simp))
    encoding.unallocated
  rcases Nat.lt_succ_iff_lt_or_eq.mp bound with earlier | same
  · exact before j earlier
  · rwa [Fin.ext same]

theorem Encoding.joins_last (encoding : Encoding string s ms entries) {i : Fin n}
    (known : ms .main = .joining i.val) (ended : s.exited i = true) (last : i.val + 1 = n) :
    (∀ j, s.exited j = true) ∧
      Encoding string s (Function.update ms .main (.printing s.links entries fun _ => [])) entries := by
  obtain ⟨-, before, written⟩ := encoding.ok known
  have all : ∀ j, s.exited j = true := fun j => by
    have bound := j.isLt
    rcases Nat.lt_or_eq_of_le (show j.val ≤ i.val by omega) with earlier | same
    · exact before j earlier
    · rwa [Fin.ext same]
  exact ⟨all, encoding.move (fun _ _ => Keeps.rfl) ⟨rfl, all, rfl, rfl, written⟩
    (encoding.still_apart (by simp [Stage.chunk]) (by simp [Stage.node])) encoding.entriesOk
    (fun _ _ counted => .inl counted) (by rw [known]; simp [Stage.chunk])
    (fun others _ => encoding.listed_others known rfl others) (encoding.still_exited known (by simp))
    encoding.unallocated⟩

theorem Encoding.prints (encoding : Encoding string s ms entries) {links : Links} {known' : Entries}
    {written : OutFile → List Code} (known : ms t = .printing links known' written) (file : OutFile)
    (code : Code) : Encoding string { s with written := Function.update s.written file (s.written file ++ [code]) }
      (Function.update ms t (.printing links known' (Function.update written file (written file ++ [code]))))
      entries := by
  obtain ⟨rfl, all, rfl, rfl, rfl⟩ := encoding.ok known
  refine encoding.move (fun u other => ?_) ⟨rfl, all, rfl, rfl, rfl⟩
    (encoding.still_apart (by simp [Stage.chunk]) (by simp [Stage.node]))
    (encoding.entriesOk.same rfl rfl rfl rfl) (fun _ _ counted => .inl counted) (by rw [known]; simp [Stage.chunk])
    (fun others _ => encoding.listed_others known rfl others) (encoding.still_exited known (by simp))
    encoding.unallocated
  exact ⟨fun _ _ owner => owner, Nat.le_refl _, fun _ _ _ => rfl, Nat.le_refl _, fun _ _ => ⟨rfl, rfl, rfl⟩,
    fun _ => rfl, fun _ ended => ended, fun main => absurd main other⟩

end

end ArchCompSystems.Ihw4
