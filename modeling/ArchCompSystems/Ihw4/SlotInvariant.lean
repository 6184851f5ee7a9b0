import ArchCompSystems.Ihw4.Codes
import ArchCompSystems.Ihw4.SlotOrder

namespace ArchCompSystems.Ihw4.Versions

open Library Library.Program

section

variable {n : Nat}

def StageOk (string : List UInt8) (s : State n) (slots : Entries) (t : Thread n) : Stage → Prop
  | .idle seen | .entered seen | .placed seen | .quoting seen => t ≠ .main ∧ seen ≤ s.shared.currentChunkNo
  | .counting chunkNo => t ≠ .main ∧ s.shared.currentChunkNo = chunkNo
  | .counted chunkNo | .claimed chunkNo | .logging chunkNo => Claims s.shared slots t chunkNo
  | .filling chunkNo node count => Claims s.shared slots t chunkNo ∧ Owns string s.shared slots chunkNo node ∧
      ∀ i, s.shared.encodedString node i = if i < count then chunkCode string chunkNo i else 0
  | .sizing chunkNo node => Claims s.shared slots t chunkNo ∧ Owns string s.shared slots chunkNo node ∧
      ∀ i, i < encodeChunkSize → s.shared.encodedString node i = chunkCode string chunkNo i
  | .sized chunkNo node index => Claims s.shared slots t chunkNo ∧ Owns string s.shared slots chunkNo node ∧
      (∀ i, i < encodeChunkSize → s.shared.encodedString node i = chunkCode string chunkNo i) ∧
      s.currentArraySize = index
  | .indexed chunkNo node index | .placing chunkNo node index => t ≠ .main ∧ slots[index]? = some (node, chunkNo)
  | .ended => t ≠ .main ∧ maxChunkNo string ≤ s.shared.currentChunkNo
  | .joining count => t = .main ∧ (∀ i, i.val < count → s.shared.exited i = true) ∧ s.shared.written = fun _ => []
  | .printing known written => t = .main ∧ (∀ i, s.shared.exited i = true) ∧ known = slots ∧ s.shared.written = written

structure SlotsOk (string : List UInt8) (s : State n) (slots : Entries) : Prop where
  length : slots.length = s.currentArraySize
  nodup : (slots.map Prod.snd).Nodup
  inside : ∀ slot ∈ slots, slot.2 < maxChunkNo string
  counted : ∀ slot ∈ slots, slot.2 < s.shared.currentChunkNo
  allocated : ∀ slot ∈ slots, slot.1 < s.shared.allocated
  number : ∀ slot ∈ slots, s.shared.chunkNo slot.1 = slot.2
  codes : ∀ slot ∈ slots, ∀ i, i < encodeChunkSize → s.shared.encodedString slot.1 i = chunkCode string slot.2 i

/-- Two threads have no chunk and no node in common. -/
structure StagesApart (first second : Stage) : Prop where
  chunk : ∀ k, first.chunk = some k → second.chunk ≠ some k
  node : ∀ a, first.node = some a → second.node ≠ some a

/-- Every chunk that was counted has a slot or is somebody's, and every slot holds its node or is
    about to. -/
structure Slotting (version : Version) (string : List UInt8) (s : State n) (ms : Thread n → Stage)
    (slots : Entries) : Prop where
  threads : ∀ t, StageOk string s slots t (ms t)
  critical : ∀ t, (ms t).critical = true → version = .version3 ∧ s.critical = some t
  apart : ∀ t u, t ≠ u → StagesApart (ms t) (ms u)
  slotsOk : SlotsOk string s slots
  filled : ∀ i slot, slots[i]? = some slot → s.resultsArray i = some slot.1 ∨ ∃ t, (ms t).slot = some (slot, i)
  complete : ∀ k, k < maxChunkNo string → k < s.shared.currentChunkNo →
    k ∈ slots.map Prod.snd ∨ ∃ t, (ms t).chunk = some k
  exited : ∀ i, s.shared.exited i = true → ms (.encoder i) = .ended

/-- What a thread at a stage relies on is still there. -/
structure StageKeeps (s s' : State n) (t : Thread n) (stage : Stage) : Prop where
  current : s.shared.currentChunkNo ≤ s'.shared.currentChunkNo
  counting : ∀ k, stage = .counting k → s'.shared.currentChunkNo = s.shared.currentChunkNo
  allocated : s.shared.allocated ≤ s'.shared.allocated
  node : ∀ a, stage.node = some a → s'.shared.chunkNo a = s.shared.chunkNo a ∧
    s'.shared.encodedString a = s.shared.encodedString a
  size : ∀ k a i, stage = .sized k a i → s'.currentArraySize = s.currentArraySize
  exited : ∀ i, s.shared.exited i = true → s'.shared.exited i = true
  written : t = .main → s'.shared.written = s.shared.written

variable {version : Version} {string : List UInt8} {s s' : State n} {ms : Thread n → Stage}
  {slots slots' : Entries} {t : Thread n} {stage stage' : Stage}

theorem StageOk.frame (ok : StageOk string s slots t stage) (keeps : StageKeeps s s' t stage) :
    StageOk string s' slots t stage := by
  cases stage with
  | idle seen | entered seen | placed seen | quoting seen => exact ⟨ok.1, Nat.le_trans ok.2 keeps.current⟩
  | counting k => exact ⟨ok.1, (keeps.counting k rfl).trans ok.2⟩
  | counted k | claimed k | logging k => exact Claims.frame ok keeps.current
  | filling k node count =>
    obtain ⟨claims, owns, codes⟩ := ok
    obtain ⟨number, encoded⟩ := keeps.node node rfl
    exact ⟨claims.frame keeps.current, owns.frame keeps.allocated number,
      fun i => (congrFun encoded i).trans (codes i)⟩
  | sizing k node =>
    obtain ⟨claims, owns, codes⟩ := ok
    obtain ⟨number, encoded⟩ := keeps.node node rfl
    exact ⟨claims.frame keeps.current, owns.frame keeps.allocated number,
      fun i inside => (congrFun encoded i).trans (codes i inside)⟩
  | sized k node index =>
    obtain ⟨claims, owns, codes, size⟩ := ok
    obtain ⟨number, encoded⟩ := keeps.node node rfl
    exact ⟨claims.frame keeps.current, owns.frame keeps.allocated number,
      fun i inside => (congrFun encoded i).trans (codes i inside), (keeps.size k node index rfl).trans size⟩
  | indexed k node index | placing k node index => exact ok
  | ended => exact ⟨ok.1, Nat.le_trans ok.2 keeps.current⟩
  | joining count =>
    exact ⟨ok.1, fun i before => keeps.exited i (ok.2.1 i before), (keeps.written ok.1).trans ok.2.2⟩
  | printing known written =>
    exact ⟨ok.1, fun i => keeps.exited i (ok.2.1 i), ok.2.2.1, (keeps.written ok.1).trans ok.2.2.2⟩

theorem Slotting.move (slotting : Slotting version string s ms slots)
    (threads : ∀ u, u ≠ t → StageOk string s' slots' u (ms u)) (mine : StageOk string s' slots' t stage')
    (critical : stage'.critical = true → version = .version3 ∧ s'.critical = some t)
    (others : ∀ u, u ≠ t → (ms u).critical = true → s'.critical = some u)
    (apart : ∀ u, u ≠ t → StagesApart stage' (ms u) ∧ StagesApart (ms u) stage')
    (slotsOk : SlotsOk string s' slots')
    (filled : ∀ i slot, slots'[i]? = some slot → s'.resultsArray i = some slot.1 ∨ stage'.slot = some (slot, i) ∨
      ∃ u, u ≠ t ∧ (ms u).slot = some (slot, i))
    (complete : ∀ k, k < maxChunkNo string → k < s'.shared.currentChunkNo →
      k ∈ slots'.map Prod.snd ∨ stage'.chunk = some k ∨ ∃ u, u ≠ t ∧ (ms u).chunk = some k)
    (exited : ∀ i, s'.shared.exited i = true →
      s.shared.exited i = true ∧ t ≠ .encoder i ∨ t = .encoder i ∧ stage' = .ended) :
    Slotting version string s' (Function.update ms t stage') slots' where
  threads := by
    intro u
    by_cases same : u = t
    · subst same
      rwa [Function.update_self]
    · rw [Function.update_of_ne same]
      exact threads u same
  critical := by
    intro u inside
    by_cases same : u = t
    · subst same
      rw [Function.update_self] at inside
      exact critical inside
    · rw [Function.update_of_ne same] at inside
      exact ⟨(slotting.critical u inside).1, others u same inside⟩
  apart := by
    intro u v other
    by_cases same : u = t
    · subst same
      rw [Function.update_self, Function.update_of_ne other.symm]
      exact (apart v other.symm).1
    · rw [Function.update_of_ne same]
      by_cases same' : v = t
      · subst same'
        rw [Function.update_self]
        exact (apart u same).2
      · rw [Function.update_of_ne same']
        exact slotting.apart u v other
  slotsOk := slotsOk
  filled := by
    intro i slot taken
    rcases filled i slot taken with stored | mine | ⟨u, other, his⟩
    · exact .inl stored
    · exact .inr ⟨t, by rwa [Function.update_self]⟩
    · exact .inr ⟨u, by rwa [Function.update_of_ne other]⟩
  complete := by
    intro k inside counted
    rcases complete k inside counted with stored | mine | ⟨u, other, his⟩
    · exact .inl stored
    · exact .inr ⟨t, by rwa [Function.update_self]⟩
    · exact .inr ⟨u, by rwa [Function.update_of_ne other]⟩
  exited := by
    intro i ended
    rcases exited i ended with ⟨before, other⟩ | ⟨rfl, last⟩
    · rw [Function.update_of_ne (Ne.symm other)]
      exact slotting.exited i before
    · rw [Function.update_self]
      exact last

theorem Slotting.ok (slotting : Slotting version string s ms slots) (known : ms t = stage) :
    StageOk string s slots t stage := known ▸ slotting.threads t

theorem Slotting.free (slotting : Slotting version string s ms slots) (free : s.critical = none) (u : Thread n) :
    ¬ (ms u).critical = true := fun inside => by
  have owner := (slotting.critical u inside).2
  rw [free] at owner
  cases owner

theorem Slotting.others (slotting : Slotting version string s ms slots) (own : s.critical = some t) (u : Thread n)
    (other : u ≠ t) : ¬ (ms u).critical = true := fun inside => by
  have owner := (slotting.critical u inside).2
  rw [own] at owner
  exact other (Option.some.inj owner).symm

theorem Slotting.still_apart (slotting : Slotting version string s ms slots)
    (chunk : ∀ k, stage'.chunk = some k → (ms t).chunk = some k)
    (node : ∀ a, stage'.node = some a → (ms t).node = some a) (u : Thread n) (other : u ≠ t) :
    StagesApart stage' (ms u) ∧ StagesApart (ms u) stage' := by
  have before := slotting.apart t u other.symm
  have after := slotting.apart u t other
  exact ⟨⟨fun k mine => before.chunk k (chunk k mine), fun a mine => before.node a (node a mine)⟩,
    ⟨fun k his mine => after.chunk k his (chunk k mine), fun a his mine => after.node a his (node a mine)⟩⟩

theorem Slotting.still_exited (slotting : Slotting version string s ms slots) (known : ms t = stage)
    (running : stage ≠ .ended) (exited : s'.shared.exited = s.shared.exited) (i : Fin n)
    (ended : s'.shared.exited i = true) :
    s.shared.exited i = true ∧ t ≠ .encoder i ∨ t = .encoder i ∧ stage' = .ended := by
  rw [exited] at ended
  exact .inl ⟨ended, fun same => running (by rw [← known, same, slotting.exited i ended])⟩

theorem Slotting.still_filled (slotting : Slotting version string s ms slots) (known : ms t = stage)
    (slot : stage'.slot = stage.slot) (i : Nat) (slot' : Nat × Nat) (taken : slots[i]? = some slot') :
    s.resultsArray i = some slot'.1 ∨ stage'.slot = some (slot', i) ∨
      ∃ u, u ≠ t ∧ (ms u).slot = some (slot', i) := by
  rcases slotting.filled i slot' taken with stored | ⟨u, his⟩
  · exact .inl stored
  · by_cases same : u = t
    · rw [same, known, ← slot] at his
      exact .inr (.inl his)
    · exact .inr (.inr ⟨u, same, his⟩)

theorem Slotting.still_complete (slotting : Slotting version string s ms slots) (known : ms t = stage) {k : Nat}
    (inside : k < maxChunkNo string) (counted : k < s.shared.currentChunkNo)
    (passed : stage.chunk = some k → stage'.chunk = some k) :
    k ∈ slots.map Prod.snd ∨ stage'.chunk = some k ∨ ∃ u, u ≠ t ∧ (ms u).chunk = some k := by
  rcases slotting.complete k inside counted with stored | ⟨u, his⟩
  · exact .inl stored
  · by_cases same : u = t
    · rw [same, known] at his
      exact .inr (.inl (passed his))
    · exact .inr (.inr ⟨u, same, his⟩)

theorem SlotsOk.frame (ok : SlotsOk string s slots) (size : s'.currentArraySize = s.currentArraySize)
    (current : s.shared.currentChunkNo ≤ s'.shared.currentChunkNo)
    (allocated : s.shared.allocated ≤ s'.shared.allocated)
    (nodes : ∀ a ∈ slots.map Prod.fst, s'.shared.chunkNo a = s.shared.chunkNo a ∧
      s'.shared.encodedString a = s.shared.encodedString a) : SlotsOk string s' slots where
  length := ok.length.trans size.symm
  nodup := ok.nodup
  inside := ok.inside
  counted slot member := Nat.lt_of_lt_of_le (ok.counted slot member) current
  allocated slot member := Nat.lt_of_lt_of_le (ok.allocated slot member) allocated
  number slot member := (nodes slot.1 (List.mem_map_of_mem member)).1.trans (ok.number slot member)
  codes slot member i inside :=
    (congrFun (nodes slot.1 (List.mem_map_of_mem member)).2 i).trans (ok.codes slot member i inside)

theorem SlotsOk.few (ok : SlotsOk string s slots) : slots.length ≤ maxChunkNo string := by
  have subset : slots.map Prod.snd ⊆ List.range (maxChunkNo string) := fun k member => by
    obtain ⟨slot, stored, rfl⟩ := List.mem_map.mp member
    exact List.mem_range.mpr (ok.inside slot stored)
  have bound := (ok.nodup.subperm subset).length_le
  rwa [List.length_map, List.length_range] at bound

structure Quiet (s s' : State n) : Prop where
  current : s'.shared.currentChunkNo = s.shared.currentChunkNo
  allocated : s'.shared.allocated = s.shared.allocated
  chunkNo : s'.shared.chunkNo = s.shared.chunkNo
  encodedString : s'.shared.encodedString = s.shared.encodedString
  exited : s'.shared.exited = s.shared.exited
  written : s'.shared.written = s.shared.written
  size : s'.currentArraySize = s.currentArraySize
  resultsArray : s'.resultsArray = s.resultsArray

theorem Quiet.keeps (quiet : Quiet s s') (u : Thread n) (stage : Stage) : StageKeeps s s' u stage :=
  ⟨Nat.le_of_eq quiet.current.symm, fun _ _ => quiet.current, Nat.le_of_eq quiet.allocated.symm,
    fun a _ => ⟨congrFun quiet.chunkNo a, congrFun quiet.encodedString a⟩, fun _ _ _ _ => quiet.size,
    fun i ended => (congrFun quiet.exited i).trans ended, fun _ => quiet.written⟩

theorem Slotting.quietly (slotting : Slotting version string s ms slots) (known : ms t = stage)
    (running : stage ≠ .ended) (quiet : Quiet s s') (mine : StageOk string s' slots t stage')
    (critical : stage'.critical = true → version = .version3 ∧ s'.critical = some t)
    (others : ∀ u, u ≠ t → (ms u).critical = true → s'.critical = some u)
    (chunk : stage'.chunk = stage.chunk) (node : stage'.node = stage.node) (slot : stage'.slot = stage.slot) :
    Slotting version string s' (Function.update ms t stage') slots := by
  refine slotting.move (fun u _ => (slotting.threads u).frame (quiet.keeps u _)) mine critical others
    (slotting.still_apart (fun k own => by rwa [known, ← chunk]) fun a own => by rwa [known, ← node])
    (slotting.slotsOk.frame quiet.size (Nat.le_of_eq quiet.current.symm) (Nat.le_of_eq quiet.allocated.symm)
      fun a _ => ⟨congrFun quiet.chunkNo a, congrFun quiet.encodedString a⟩)
    (fun i slot' taken => ?_) (fun k inside counted => ?_) (slotting.still_exited known running quiet.exited)
  · rw [quiet.resultsArray]
    exact slotting.still_filled known slot i slot' taken
  · rw [quiet.current] at counted
    exact slotting.still_complete known inside counted fun own => chunk.trans own

theorem Slotting.calmly (slotting : Slotting version string s ms slots) (known : ms t = stage)
    (running : stage ≠ .ended) (quiet : Quiet s s') (owner : s'.critical = s.critical)
    (mine : StageOk string s' slots t stage') (critical : stage'.critical = true → stage.critical = true)
    (chunk : stage'.chunk = stage.chunk) (node : stage'.node = stage.node) (slot : stage'.slot = stage.slot) :
    Slotting version string s' (Function.update ms t stage') slots := by
  refine slotting.quietly known running quiet mine (fun inside => ?_) (fun u _ inside => ?_) chunk node slot
  · rw [owner]
    exact slotting.critical t (known.symm ▸ critical inside)
  · rw [owner]
    exact (slotting.critical u inside).2

theorem Slotting.enters (slotting : Slotting version string s ms slots) (known : ms t = stage)
    (running : stage ≠ .ended) (third : version = .version3) (free : s.critical = none)
    (mine : StageOk string { s with critical := some t } slots t stage')
    (chunk : stage'.chunk = stage.chunk) (node : stage'.node = stage.node) (slot : stage'.slot = stage.slot) :
    Slotting version string { s with critical := some t } (Function.update ms t stage') slots :=
  slotting.quietly known running ⟨rfl, rfl, rfl, rfl, rfl, rfl, rfl, rfl⟩ mine (fun _ => ⟨third, rfl⟩)
    (fun u _ inside => absurd inside (slotting.free free u)) chunk node slot

theorem Slotting.leaves (slotting : Slotting version string s ms slots) (known : ms t = stage)
    (running : stage ≠ .ended) (inside : stage.critical = true)
    (mine : StageOk string { s with critical := none } slots t stage') (outside : stage'.critical = false)
    (chunk : stage'.chunk = stage.chunk) (node : stage'.node = stage.node) (slot : stage'.slot = stage.slot) :
    Slotting version string { s with critical := none } (Function.update ms t stage') slots := by
  have own := (slotting.critical t (known.symm ▸ inside)).2
  exact slotting.quietly known running ⟨rfl, rfl, rfl, rfl, rfl, rfl, rfl, rfl⟩ mine
    (fun within => by rw [outside] at within; cases within)
    (fun u other within => absurd within (slotting.others own u other)) chunk node slot

theorem Slotting.stay (slotting : Slotting version string s ms slots) (known : ms t = stage) :
    Slotting version string s (Function.update ms t stage) slots := by
  rw [← known, Function.update_eq_self]
  exact slotting

theorem Slotting.claims (slotting : Slotting version string s ms slots) {u : Thread n} {k : Nat}
    (chunk : (ms u).chunk = some k) : Claims s.shared slots u k := by
  have ok := slotting.threads u
  cases known : ms u <;> rw [known] at ok chunk <;> cases chunk
  · exact ok
  · exact ok
  · exact ok
  · exact ok.1
  · exact ok.1
  · exact ok.1

theorem Slotting.owns (slotting : Slotting version string s ms slots) {u : Thread n} {a : Nat}
    (node : (ms u).node = some a) : ∃ k, (ms u).chunk = some k ∧ Owns string s.shared slots k a := by
  have ok := slotting.threads u
  cases known : ms u <;> rw [known] at ok node <;> cases node
  · exact ⟨_, rfl, ok.2.1⟩
  · exact ⟨_, rfl, ok.2.1⟩
  · exact ⟨_, rfl, ok.2.1⟩

theorem Slotting.counts (slotting : Slotting version string s ms slots) (known : ms t = stage)
    (encoder : t ≠ .main) (running : stage ≠ .ended) (before : stage.chunk = none ∧ stage.slot = none)
    (alone : ∀ u k, u ≠ t → ms u ≠ .counting k)
    (after : stage'.chunk = some s.shared.currentChunkNo ∧ stage'.node = none ∧ stage'.slot = none)
    (critical : stage'.critical = true → stage.critical = true)
    (mine : ∀ s' : State n, Claims s'.shared slots t s.shared.currentChunkNo → StageOk string s' slots t stage') :
    Slotting version string { s with shared := { s.shared with currentChunkNo := s.shared.currentChunkNo + 1 } }
      (Function.update ms t stage') slots := by
  have below : ∀ slot ∈ slots, slot.2 ≠ s.shared.currentChunkNo := fun slot member =>
    Nat.ne_of_lt (slotting.slotsOk.counted slot member)
  refine slotting.move (fun u other => (slotting.threads u).frame ?_)
    (mine _ ⟨encoder, Nat.lt_succ_self _, fun stored => ?_⟩) (fun inside => ?_) (fun u _ inside => ?_)
    (fun u other => ?_) (slotting.slotsOk.frame rfl (Nat.le_succ _) (Nat.le_refl _) fun _ _ => ⟨rfl, rfl⟩)
    (fun i slot taken => slotting.still_filled known (by rw [before.2, after.2.2]) i slot taken)
    (fun k inside counted => ?_) (slotting.still_exited known running rfl)
  · exact ⟨Nat.le_succ _, fun k counting => absurd counting (alone u k other), Nat.le_refl _,
      fun _ _ => ⟨rfl, rfl⟩, fun _ _ _ _ => rfl, fun _ ended => ended, fun _ => rfl⟩
  · obtain ⟨slot, member, same⟩ := List.mem_map.mp stored
    exact below slot member same
  · exact slotting.critical t (known.symm ▸ critical inside)
  · exact (slotting.critical u inside).2
  · have free : (ms u).chunk ≠ some s.shared.currentChunkNo := fun claimed =>
      absurd (slotting.claims claimed).counted (Nat.lt_irrefl _)
    refine ⟨⟨fun k own his => ?_, fun a own => ?_⟩, ⟨fun k his own => ?_, fun a _ own => ?_⟩⟩
    · rw [after.1] at own
      exact free (Option.some.inj own ▸ his)
    · rw [after.2.1] at own
      cases own
    · rw [after.1] at own
      exact free (Option.some.inj own ▸ his)
    · rw [after.2.1] at own
      cases own
  · rcases Nat.lt_succ_iff_lt_or_eq.mp counted with earlier | rfl
    · exact slotting.still_complete known inside earlier fun own => by rw [before.1] at own; cases own
    · exact .inr (.inl after.1)

theorem Slotting.creates (slotting : Slotting version string s ms slots) {k : Nat} (known : ms t = .claimed k)
    (inside : k < maxChunkNo string) {links : Links} : Slotting version string { s with shared := { s.shared with
        links := links
        chunkNo := Function.update s.shared.chunkNo s.shared.allocated k
        encodedString := Function.update s.shared.encodedString s.shared.allocated fun _ => 0
        allocated := s.shared.allocated + 1 } }
      (Function.update ms t (.filling k s.shared.allocated 0)) slots := by
  have claims : Claims s.shared slots t k := slotting.ok known
  have below : ∀ u a, (ms u).node = some a → a ≠ s.shared.allocated := fun u a node => by
    obtain ⟨_, -, owns⟩ := slotting.owns node
    exact Nat.ne_of_lt owns.allocated
  have listed : ∀ a ∈ slots.map Prod.fst, a ≠ s.shared.allocated := fun a member => by
    obtain ⟨slot, stored, rfl⟩ := List.mem_map.mp member
    exact Nat.ne_of_lt (slotting.slotsOk.allocated slot stored)
  refine slotting.move (fun u _ => (slotting.threads u).frame ?_)
    ⟨claims.frame (Nat.le_refl _), ⟨inside, Nat.lt_succ_self _, fun member => listed _ member rfl, by simp⟩, by simp⟩
    (fun within => nomatch within) (fun u _ within => (slotting.critical u within).2) (fun u other => ?_)
    (slotting.slotsOk.frame rfl (Nat.le_refl _) (Nat.le_succ _) fun a member =>
      ⟨Function.update_of_ne (listed a member) .., Function.update_of_ne (listed a member) ..⟩)
    (slotting.still_filled known rfl) (fun _ inside counted => slotting.still_complete known inside counted fun own => own)
    (slotting.still_exited known (by simp) rfl)
  · exact ⟨Nat.le_refl _, fun _ _ => rfl, Nat.le_succ _, fun a node => ⟨Function.update_of_ne (below u a node) ..,
      Function.update_of_ne (below u a node) ..⟩, fun _ _ _ _ => rfl, fun _ ended => ended, fun _ => rfl⟩
  · have before := slotting.apart t u other.symm
    have after := slotting.apart u t other
    rw [known] at before after
    exact ⟨⟨before.chunk, fun a mine his => below u a his (Option.some.inj mine).symm⟩,
      ⟨after.chunk, fun a his mine => below u a his (Option.some.inj mine).symm⟩⟩

theorem Slotting.encodes (slotting : Slotting version string s ms slots) {k node count : Nat}
    (known : ms t = .filling k node count) : Slotting version string { s with shared := { s.shared with
        encodedString := Function.update s.shared.encodedString node
          (Function.update (s.shared.encodedString node) count (chunkCode string k count)) } }
      (Function.update ms t (.filling k node (count + 1))) slots := by
  obtain ⟨claims, owns, codes⟩ := slotting.ok known
  refine slotting.move (fun u other => (slotting.threads u).frame ?_)
    ⟨claims.frame (Nat.le_refl _), owns.frame (Nat.le_refl _) rfl, fun i => ?_⟩
    (fun within => nomatch within) (fun u _ within => (slotting.critical u within).2)
    (slotting.still_apart (by rw [known]; exact fun _ same => same) (by rw [known]; exact fun _ same => same))
    (slotting.slotsOk.frame rfl (Nat.le_refl _) (Nat.le_refl _) fun a member =>
      ⟨rfl, Function.update_of_ne (ne_of_mem_of_not_mem member owns.fresh) ..⟩)
    (slotting.still_filled known rfl) (fun _ inside counted => slotting.still_complete known inside counted fun own => own)
    (slotting.still_exited known (by simp) rfl)
  · refine ⟨Nat.le_refl _, fun _ _ => rfl, Nat.le_refl _, fun a his => ⟨rfl, ?_⟩, fun _ _ _ _ => rfl,
      fun _ ended => ended, fun _ => rfl⟩
    have apart : a ≠ node := fun same =>
      (slotting.apart t u other.symm).node node (by rw [known]; rfl) (same ▸ his)
    exact Function.update_of_ne apart ..
  · simp only [Function.update_self]
    by_cases same : i = count
    · subst same
      rw [Function.update_self, if_pos (Nat.lt_succ_self _)]
    · rw [Function.update_of_ne same, codes i]
      have bound : i < count ↔ i < count + 1 := by omega
      simp only [bound]

theorem Slotting.exits (slotting : Slotting version string s ms slots) {i : Fin n} {k : Nat}
    (known : ms (.encoder i) = .claimed k) (beyond : maxChunkNo string ≤ k) :
    Slotting version string { s with shared := { s.shared with
        exited := Function.update s.shared.exited i true } }
      (Function.update ms (.encoder i) .ended) slots := by
  have claims : Claims s.shared slots (.encoder i) k := slotting.ok known
  refine slotting.move (fun u _ => (slotting.threads u).frame ?_)
    ⟨by simp, Nat.le_trans beyond (Nat.le_of_lt claims.counted)⟩
    (fun within => nomatch within) (fun u _ within => (slotting.critical u within).2)
    (slotting.still_apart (by simp [Stage.chunk]) (by simp [Stage.node]))
    (slotting.slotsOk.frame rfl (Nat.le_refl _) (Nat.le_refl _) fun _ _ => ⟨rfl, rfl⟩)
    (slotting.still_filled known rfl) (fun k' inside counted => ?_) (fun j ended => ?_)
  · refine ⟨Nat.le_refl _, fun _ _ => rfl, Nat.le_refl _, fun _ _ => ⟨rfl, rfl⟩, fun _ _ _ _ => rfl,
      fun j ended => ?_, fun _ => rfl⟩
    by_cases same : j = i
    · subst same
      exact Function.update_self ..
    · exact (Function.update_of_ne same ..).trans ended
  · refine slotting.still_complete known inside counted fun own => ?_
    cases own
    exact absurd inside (Nat.not_lt.mpr beyond)
  · by_cases same : j = i
    · exact .inr ⟨by rw [same], rfl⟩
    · have before : s.shared.exited j = true := by simpa only [Function.update_of_ne same] using ended
      exact .inl ⟨before, by simpa using Ne.symm same⟩

theorem StageOk.widen {slot : Nat × Nat} (ok : StageOk string s slots t stage)
    (chunk : stage.chunk ≠ some slot.2) (node : stage.node ≠ some slot.1)
    (prints : ∀ known written, stage ≠ .printing known written) : StageOk string s (slots ++ [slot]) t stage := by
  have claims : ∀ {k : Nat}, stage.chunk = some k → Claims s.shared slots t k →
      Claims s.shared (slots ++ [slot]) t k := fun own claims => by
    refine ⟨claims.encoder, claims.counted, fun member => ?_⟩
    rw [List.map_append, List.mem_append] at member
    rcases member with before | last
    · exact claims.missing before
    · exact chunk (by rw [own, List.mem_singleton.mp last])
  have owns : ∀ {k a : Nat}, stage.node = some a → Owns string s.shared slots k a →
      Owns string s.shared (slots ++ [slot]) k a := fun own owns => by
    refine ⟨owns.inside, owns.allocated, fun member => ?_, owns.number⟩
    rw [List.map_append, List.mem_append] at member
    rcases member with before | last
    · exact owns.fresh before
    · exact node (by rw [own, List.mem_singleton.mp last])
  cases stage with
  | idle _ | entered _ | placed _ | quoting _ | counting _ | ended | joining _ => exact ok
  | counted k | claimed k | logging k => exact claims rfl ok
  | filling k a count => exact ⟨claims rfl ok.1, owns rfl ok.2.1, ok.2.2⟩
  | sizing k a => exact ⟨claims rfl ok.1, owns rfl ok.2.1, ok.2.2⟩
  | sized k a index => exact ⟨claims rfl ok.1, owns rfl ok.2.1, ok.2.2⟩
  | indexed k a index | placing k a index =>
    exact ⟨ok.1, (List.getElem?_append_left (List.getElem?_eq_some_iff.mp ok.2).1).trans ok.2⟩
  | printing known written => exact absurd rfl (prints known written)

theorem Slotting.nobody_prints (slotting : Slotting version string s ms slots) (known : ms t = stage)
    (encoder : t ≠ .main) (running : stage ≠ .ended) (u : Thread n) (known' : Entries)
    (written : OutFile → List Code) : ms u ≠ .printing known' written := by
  intro prints
  obtain ⟨-, exited, -⟩ := slotting.ok prints
  cases t with
  | main => exact encoder rfl
  | encoder i => exact running (known.symm.trans (slotting.exited i (exited i)))

theorem Slotting.assigns (slotting : Slotting version string s ms slots) {k node : Nat} (known : ms t = stage)
    (running : stage ≠ .ended) (claims : Claims s.shared slots t k) (owns : Owns string s.shared slots k node)
    (codes : ∀ i, i < encodeChunkSize → s.shared.encodedString node i = chunkCode string k i)
    (before : stage.chunk = some k ∧ stage.node = some node ∧ stage.slot = none)
    (alone : ∀ u k a i, u ≠ t → ms u ≠ .sized k a i)
    (after : stage'.chunk = none ∧ stage'.node = none ∧ stage'.slot = some ((node, k), s.currentArraySize))
    (critical : stage'.critical = true → stage.critical = true)
    (mine : ∀ s' : State n, (slots ++ [(node, k)])[s.currentArraySize]? = some (node, k) →
      StageOk string s' (slots ++ [(node, k)]) t stage') :
    Slotting version string { s with currentArraySize := s.currentArraySize + 1 }
      (Function.update ms t stage') (slots ++ [(node, k)]) := by
  have length := slotting.slotsOk.length
  have last : (slots ++ [(node, k)])[s.currentArraySize]? = some (node, k) := by
    rw [← length, List.getElem?_append_right (Nat.le_refl _), Nat.sub_self]
    rfl
  have ok := slotting.slotsOk
  have slot_cases : ∀ slot ∈ slots ++ [(node, k)], slot ∈ slots ∨ slot = (node, k) := fun slot member =>
    (List.mem_append.mp member).imp id List.mem_singleton.mp
  refine slotting.move (fun u other => ?_) (mine _ last) (fun within => ?_)
    (fun u _ within => (slotting.critical u within).2) (fun u _ => ?_) ?_ (fun i slot taken => ?_)
    (fun k' inside counted => ?_) (slotting.still_exited known running rfl)
  · have apart := slotting.apart t u other.symm
    rw [known] at apart
    refine ((slotting.threads u).widen (apart.chunk k before.1) (apart.node node before.2.1)
      (slotting.nobody_prints known claims.encoder running u)).frame ?_
    exact ⟨Nat.le_refl _, fun _ _ => rfl, Nat.le_refl _, fun _ _ => ⟨rfl, rfl⟩,
      fun k a i sized => absurd sized (alone u k a i other), fun _ ended => ended, fun _ => rfl⟩
  · exact slotting.critical t (known.symm ▸ critical within)
  · exact ⟨⟨fun _ own => (nomatch after.1.symm.trans own), fun _ own => (nomatch after.2.1.symm.trans own)⟩,
      ⟨fun _ _ own => (nomatch after.1.symm.trans own), fun _ _ own => (nomatch after.2.1.symm.trans own)⟩⟩
  · constructor
    · rw [List.length_append, length]
      rfl
    · rw [List.map_append]
      refine List.nodup_append.mpr ⟨ok.nodup, List.nodup_singleton _, fun a member b single same => ?_⟩
      rw [same, List.mem_singleton.mp single] at member
      exact claims.missing member
    all_goals
      intro slot member
      rcases slot_cases slot member with stored | rfl
    · exact ok.inside slot stored
    · exact owns.inside
    · exact ok.counted slot stored
    · exact claims.counted
    · exact ok.allocated slot stored
    · exact owns.allocated
    · exact ok.number slot stored
    · exact owns.number
    · exact ok.codes slot stored
    · exact codes
  · rcases Nat.lt_or_ge i slots.length with inside | beyond
    · rw [List.getElem?_append_left inside] at taken
      rcases slotting.filled i slot taken with stored | ⟨u, his⟩
      · exact .inl stored
      · refine .inr (.inr ⟨u, fun same => ?_, his⟩)
        rw [same, known, before.2.2] at his
        cases his
    · have index : i = s.currentArraySize := by
        have bound := (List.getElem?_eq_some_iff.mp taken).1
        rw [List.length_append, List.length_singleton] at bound
        omega
      subst index
      rw [last] at taken
      exact .inr (.inl (Option.some.inj taken ▸ after.2.2))
  · have stored : k ∈ (slots ++ [(node, k)]).map Prod.snd := by simp
    rcases slotting.complete k' inside counted with earlier | ⟨u, his⟩
    · exact .inl (by rw [List.map_append]; exact List.mem_append_left _ earlier)
    · by_cases same : u = t
      · rw [same, known, before.1] at his
        exact .inl (Option.some.inj his ▸ stored)
      · exact .inr (.inr ⟨u, same, his⟩)

theorem Slotting.places (slotting : Slotting version string s ms slots) {k node index : Nat}
    (known : ms t = .placing k node index) :
    Slotting version string { s with resultsArray := Function.update s.resultsArray index (some node) }
      (Function.update ms t (.placed (k + 1))) slots := by
  obtain ⟨encoder, taken⟩ := slotting.ok known
  have counted : k < s.shared.currentChunkNo :=
    slotting.slotsOk.counted (node, k) (List.mem_of_getElem? taken)
  refine slotting.move (fun u _ => (slotting.threads u).frame ?_) ⟨encoder, counted⟩
    (fun within => nomatch within) (fun u _ within => (slotting.critical u within).2)
    (slotting.still_apart (by simp [Stage.chunk]) (by simp [Stage.node]))
    (slotting.slotsOk.frame rfl (Nat.le_refl _) (Nat.le_refl _) fun _ _ => ⟨rfl, rfl⟩)
    (fun i slot taken' => ?_)
    (fun _ inside counted => slotting.still_complete known inside counted fun own => nomatch own)
    (slotting.still_exited known (by simp) rfl)
  · exact ⟨Nat.le_refl _, fun _ _ => rfl, Nat.le_refl _, fun _ _ => ⟨rfl, rfl⟩, fun _ _ _ _ => rfl,
      fun _ ended => ended, fun _ => rfl⟩
  · by_cases same : i = index
    · subst same
      rw [taken] at taken'
      obtain rfl := Option.some.inj taken'
      exact .inl (Function.update_self ..)
    · rcases slotting.filled i slot taken' with stored | ⟨u, his⟩
      · exact .inl ((Function.update_of_ne same ..).trans stored)
      · refine .inr (.inr ⟨u, fun equal => ?_, his⟩)
        rw [equal, known] at his
        obtain ⟨⟩ := his
        exact same rfl

theorem Slotting.all_slotted (slotting : Slotting version string s ms slots) (some : 0 < n)
    (ended : ∀ i, ms (.encoder i) = .ended) (main : (ms .main).chunk = none ∧ (ms .main).slot = none) :
    (slots.map Prod.snd).Perm (List.range (maxChunkNo string)) ∧
      ∀ i slot, slots[i]? = Option.some slot → s.resultsArray i = Option.some slot.1 := by
  have last : ∀ t, (ms t).chunk = none ∧ (ms t).slot = none := fun t => by
    cases t with
    | main => exact main
    | encoder i => rw [ended i]; exact ⟨rfl, rfl⟩
  have counted := (slotting.ok (ended ⟨0, some⟩)).2
  refine ⟨(List.perm_ext_iff_of_nodup slotting.slotsOk.nodup List.nodup_range).mpr fun k => ?_,
    fun i slot taken => ?_⟩
  · rw [List.mem_range]
    constructor
    · intro member
      obtain ⟨slot, stored, rfl⟩ := List.mem_map.mp member
      exact slotting.slotsOk.inside slot stored
    · intro inside
      rcases slotting.complete k inside (Nat.lt_of_lt_of_le inside counted) with stored | ⟨t, his⟩
      · exact stored
      · rw [(last t).1] at his
        cases his
  · rcases slotting.filled i slot taken with stored | ⟨t, his⟩
    · exact stored
    · rw [(last t).2] at his
      cases his

theorem Slotting.joins (slotting : Slotting version string s ms slots) {i : Fin n}
    (known : ms .main = .joining i) (ended : s.shared.exited i = true) :
    (i.val + 1 = n → (slots.map Prod.snd).Perm (List.range (maxChunkNo string)) ∧
      Slotting version string s (Function.update ms .main (.printing slots fun _ => [])) slots) ∧
      Slotting version string s (Function.update ms .main (.joining (i + 1))) slots := by
  obtain ⟨-, before, nothing⟩ := slotting.ok known
  have joined : ∀ j : Fin n, j.val < i.val + 1 → s.shared.exited j = true := fun j below => by
    rcases Nat.lt_succ_iff_lt_or_eq.mp below with earlier | same
    · exact before j earlier
    · rw [Fin.ext same]
      exact ended
  have quiet : Quiet s s := ⟨rfl, rfl, rfl, rfl, rfl, rfl, rfl, rfl⟩
  constructor
  · intro last
    have all : ∀ j, s.shared.exited j = true := fun j => joined j (Nat.lt_of_lt_of_eq j.isLt last.symm)
    obtain ⟨complete, -⟩ := slotting.all_slotted i.pos (fun j => slotting.exited j (all j))
      (by rw [known]; exact ⟨rfl, rfl⟩)
    exact ⟨complete, slotting.calmly known (by simp) quiet rfl ⟨rfl, all, rfl, nothing⟩ (fun within => nomatch within)
      rfl rfl rfl⟩
  · exact slotting.calmly known (by simp) quiet rfl ⟨rfl, joined, nothing⟩ (fun within => nomatch within) rfl rfl rfl

theorem Slotting.prints (slotting : Slotting version string s ms slots) {known' : Entries}
    {written : OutFile → List Code} (known : ms .main = .printing known' written) (file : OutFile) (code : Code)
    (output : OutFile → List UInt8) :
    Slotting version string { s with
        shared := { s.shared with written := Function.update s.shared.written file (s.shared.written file ++ [code]) }
        output := output }
      (Function.update ms .main (.printing known' (Function.update written file (written file ++ [code])))) slots := by
  obtain ⟨-, exited, same, rfl⟩ := slotting.ok known
  refine slotting.move (fun u other => (slotting.threads u).frame ?_) ⟨rfl, exited, same, rfl⟩
    (fun within => nomatch within) (fun u _ within => (slotting.critical u within).2)
    (slotting.still_apart (by simp [Stage.chunk]) (by simp [Stage.node]))
    (slotting.slotsOk.frame rfl (Nat.le_refl _) (Nat.le_refl _) fun _ _ => ⟨rfl, rfl⟩)
    (slotting.still_filled known rfl)
    (fun _ inside counted => slotting.still_complete known inside counted fun own => nomatch own)
    (slotting.still_exited known (by simp) rfl)
  exact ⟨Nat.le_refl _, fun _ _ => rfl, Nat.le_refl _, fun _ _ => ⟨rfl, rfl⟩, fun _ _ _ _ => rfl,
    fun _ ended => ended, fun main => absurd main other⟩

end

end ArchCompSystems.Ihw4.Versions
