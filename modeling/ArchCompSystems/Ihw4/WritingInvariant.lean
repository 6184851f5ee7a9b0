import ArchCompSystems.Ihw4.Codes
import ArchCompSystems.Ihw4.Writing

namespace ArchCompSystems.Ihw4.Versions

open Library Library.Program

section

variable {n : Nat}

def writer (version : Version) (s : State n) : Option (Thread n) :=
  match version with
  | .version1 | .version2 => s.shared.owner .write
  | .version3 => s.critical

def State.memory (s : State n) : Memory :=
  ⟨s.shared.links, s.shared.encodedString, s.currentArraySize, s.resultsArray⟩

def Phase.holds (version : Version) : Phase → Prop
  | .opening _ _ | .quoting _ _ _ _ => True
  | .entered | .loaded _ | .counted _ | .indexing _ _ _ => version = .version3
  | _ => False

def ThreadOk (string : List UInt8) (s : State n) (t : Thread n) : Phase → Prop
  | .idle | .entered => t ≠ .main
  | .loaded chunkNo => t ≠ .main ∧ (0 < chunkNo → 0 < s.shared.currentChunkNo)
  | .counted _ | .taken _ | .ended => t ≠ .main ∧ 0 < s.shared.currentChunkNo
  | .opening chunkNo _ | .opened chunkNo => t ≠ .main ∧ chunkNo < maxChunkNo string
  | .filling chunkNo node codes | .indexing chunkNo node codes | .stored chunkNo node codes
  | .quoting chunkNo node codes _ => t ≠ .main ∧ chunkNo < maxChunkNo string ∧ node < s.shared.allocated ∧
      s.shared.encodedString node = codes
  | .joining count => t = .main ∧ ∀ i, i.val < count → s.shared.exited i = true
  | .finishing memory _ => t = .main ∧ (∀ i, s.shared.exited i = true) ∧ s.memory = memory

/-- The streams hold the records, and what is printed of the one that a thread is at. -/
structure Voice (version : Version) (string : List UInt8) (output : OutFile → List UInt8)
    (ms : Thread n → Phase) (records : List Record) : Prop where
  silent : (∀ t, (ms t).spoken = none) → ∀ file, output file = records.flatMap (Record.printed version string file)
  speaking : ∀ t printed, (ms t).spoken = some printed →
    ∀ file, output file = records.flatMap (Record.printed version string file) ++ printed file

def RecordOk (n : Nat) (string : List UInt8) : Record → Prop
  | .result chunkNo codes => 0 < n ∧ chunkNo < maxChunkNo string ∧ codes.length = chunkSize string chunkNo
  | _ => True

structure Mirroring (version : Version) (string : List UInt8) (s : State n) (ms : Thread n → Phase)
    (records : List Record) : Prop where
  threads : ∀ t, ThreadOk string s t (ms t)
  holds : ∀ t, (ms t).holds version → writer version s = some t
  apart : ∀ t u a codes codes', t ≠ u → (ms t).node = some (a, codes) → (ms u).node ≠ some (a, codes')
  voice : Voice version string s.output ms records
  recordsOk : ∀ record ∈ records, RecordOk n string record
  first : 0 < s.shared.currentChunkNo → 0 < maxChunkNo string →
    (∃ codes, .result 0 codes ∈ records) ∨ ∃ t, (ms t).chunk = some 0
  exited : ∀ i, s.shared.exited i = true → ms (.encoder i) = .ended

/-- What a thread in a phase relies on is still there. -/
structure Keeps (s s' : State n) (phase : Phase) : Prop where
  counter : 0 < s.shared.currentChunkNo → 0 < s'.shared.currentChunkNo
  allocated : s.shared.allocated ≤ s'.shared.allocated
  node : ∀ a codes, phase.node = some (a, codes) → s'.shared.encodedString a = s.shared.encodedString a
  exited : ∀ i, s.shared.exited i = true → s'.shared.exited i = true
  memory : ∀ memory printed, phase = .finishing memory printed → s'.memory = s.memory

variable {version : Version} {string : List UInt8} {s s' : State n} {ms : Thread n → Phase}
  {records records' : List Record} {t : Thread n} {phase phase' : Phase}

theorem ThreadOk.frame (ok : ThreadOk string s t phase) (keeps : Keeps s s' phase) :
    ThreadOk string s' t phase := by
  have nodes : ∀ {k node : Nat} {codes : Nat → Code}, phase.node = some (node, codes) →
      (t ≠ .main ∧ k < maxChunkNo string ∧ node < s.shared.allocated ∧ s.shared.encodedString node = codes) →
      t ≠ .main ∧ k < maxChunkNo string ∧ node < s'.shared.allocated ∧ s'.shared.encodedString node = codes :=
    fun known ⟨encoder, inside, allocated, same⟩ =>
      ⟨encoder, inside, Nat.lt_of_lt_of_le allocated keeps.allocated, (keeps.node _ _ known).trans same⟩
  cases phase with
  | idle | entered | opening _ _ | opened _ => exact ok
  | loaded chunkNo => exact ⟨ok.1, fun later => keeps.counter (ok.2 later)⟩
  | counted _ | taken _ | ended => exact ⟨ok.1, keeps.counter ok.2⟩
  | filling chunkNo node codes | indexing chunkNo node codes | stored chunkNo node codes
  | quoting chunkNo node codes _ => exact nodes rfl ok
  | joining count => exact ⟨ok.1, fun i before => keeps.exited i (ok.2 i before)⟩
  | finishing memory printed =>
    exact ⟨ok.1, fun i => keeps.exited i (ok.2.1 i), (keeps.memory memory printed rfl).trans ok.2.2⟩

theorem Mirroring.move (mirroring : Mirroring version string s ms records)
    (keeps : ∀ u, u ≠ t → Keeps s s' (ms u)) (mine : ThreadOk string s' t phase')
    (holds : phase'.holds version → writer version s' = some t)
    (others : ∀ u, u ≠ t → (ms u).holds version → writer version s' = some u)
    (apart : ∀ u a codes codes', u ≠ t → phase'.node = some (a, codes) → (ms u).node ≠ some (a, codes'))
    (voice : Voice version string s'.output (Function.update ms t phase') records')
    (recordsOk : ∀ record ∈ records', RecordOk n string record) (grows : records ⊆ records')
    (counted : 0 < s'.shared.currentChunkNo → 0 < s.shared.currentChunkNo ∨ phase'.chunk = some 0)
    (passed : 0 < maxChunkNo string → (ms t).chunk = some 0 →
      phase'.chunk = some 0 ∨ ∃ codes, .result 0 codes ∈ records')
    (exited : ∀ i, s'.shared.exited i = true →
      s.shared.exited i = true ∧ t ≠ .encoder i ∨ t = .encoder i ∧ phase' = .ended) :
    Mirroring version string s' (Function.update ms t phase') records' where
  threads := by
    intro u
    by_cases same : u = t
    · subst same
      rwa [Function.update_self]
    · rw [Function.update_of_ne same]
      exact (mirroring.threads u).frame (keeps u same)
  holds := by
    intro u inside
    by_cases same : u = t
    · subst same
      rw [Function.update_self] at inside
      exact holds inside
    · rw [Function.update_of_ne same] at inside
      exact others u same inside
  apart := by
    intro u v a codes codes' other
    by_cases same : u = t
    · subst same
      rw [Function.update_self, Function.update_of_ne other.symm]
      exact apart v a codes codes' other.symm
    · rw [Function.update_of_ne same]
      by_cases same' : v = t
      · subst same'
        rw [Function.update_self]
        exact fun his mine => apart u a codes' codes same mine his
      · rw [Function.update_of_ne same']
        exact mirroring.apart u v a codes codes' other
  voice := voice
  recordsOk := recordsOk
  first := by
    intro counter some
    have own : phase'.chunk = Option.some 0 → ∃ u, (Function.update ms t phase' u).chunk = Option.some 0 :=
      fun chunk => ⟨t, by rwa [Function.update_self]⟩
    rcases counted counter with before | chunk
    · rcases mirroring.first before some with ⟨codes, member⟩ | ⟨u, chunk⟩
      · exact .inl ⟨codes, grows member⟩
      · by_cases same : u = t
        · subst same
          rcases passed some chunk with chunk | recorded
          · exact .inr (own chunk)
          · exact .inl recorded
        · exact .inr ⟨u, by rwa [Function.update_of_ne same]⟩
    · exact .inr (own chunk)
  exited := by
    intro i ended
    rcases exited i ended with ⟨before, other⟩ | ⟨rfl, last⟩
    · rw [Function.update_of_ne (Ne.symm other)]
      exact mirroring.exited i before
    · rw [Function.update_self]
      exact last

theorem Mirroring.ok (mirroring : Mirroring version string s ms records) (known : ms t = phase) :
    ThreadOk string s t phase := known ▸ mirroring.threads t

theorem Mirroring.nobody_finishes (mirroring : Mirroring version string s ms records) (known : ms t = phase)
    (encoder : t ≠ .main) (running : phase ≠ .ended) (u : Thread n) (memory : Memory)
    (printed : OutFile → List UInt8) : ms u ≠ .finishing memory printed := by
  intro finishes
  obtain ⟨-, exited, -⟩ := mirroring.ok finishes
  cases t with
  | main => exact encoder rfl
  | encoder i => exact running (known.symm.trans (mirroring.exited i (exited i)))

theorem Mirroring.spoken_cases (mirroring : Mirroring version string s ms records) {u : Thread n}
    {printed : OutFile → List UInt8} (spoken : (ms u).spoken = some printed) :
    (ms u).holds version ∧ u ≠ .main ∧ ms u ≠ .ended ∨ u = .main ∧ ∀ i, ms (.encoder i) = .ended := by
  have ok := mirroring.threads u
  cases known : ms u <;> rw [known] at ok spoken <;> try cases spoken
  · exact .inl ⟨True.intro, ok.1, by simp⟩
  · exact .inl ⟨True.intro, ok.1, by simp⟩
  · exact .inr ⟨ok.1, fun i => mirroring.exited i (ok.2.1 i)⟩

theorem Mirroring.free (mirroring : Mirroring version string s ms records) (free : writer version s = none)
    (u : Thread n) : ¬ (ms u).holds version := fun holds => by
  have owner := mirroring.holds u holds
  rw [free] at owner
  cases owner

theorem Mirroring.others (mirroring : Mirroring version string s ms records) (own : writer version s = some t)
    (u : Thread n) (other : u ≠ t) : ¬ (ms u).holds version := fun holds => by
  have owner := mirroring.holds u holds
  rw [own] at owner
  exact other (Option.some.inj owner).symm

theorem Mirroring.alone (mirroring : Mirroring version string s ms records) {printed : OutFile → List UInt8}
    (spoken : (ms t).spoken = some printed) (u : Thread n) (other : u ≠ t) : (ms u).spoken = none := by
  cases his : (ms u).spoken with
  | none => rfl
  | some bytes =>
    exfalso
    rcases mirroring.spoken_cases spoken with ⟨holds, encoder, running⟩ | ⟨rfl, ended⟩ <;>
      rcases mirroring.spoken_cases his with ⟨holds', encoder', running'⟩ | ⟨rfl, ended'⟩
    · exact mirroring.others (mirroring.holds t holds) u other holds'
    · cases t with
      | main => exact encoder rfl
      | encoder i => exact running (ended' i)
    · cases u with
      | main => exact encoder' rfl
      | encoder i => exact running' (ended i)
    · exact other rfl

theorem Mirroring.silence (mirroring : Mirroring version string s ms records) (known : ms t = phase)
    (encoder : t ≠ .main) (running : phase ≠ .ended) (free : writer version s = none) (u : Thread n) :
    (ms u).spoken = none := by
  cases spoken : (ms u).spoken with
  | none => rfl
  | some printed =>
    rcases mirroring.spoken_cases spoken with ⟨holds, -⟩ | ⟨rfl, ended⟩
    · exact absurd holds (mirroring.free free u)
    · cases t with
      | main => exact absurd rfl encoder
      | encoder i => exact absurd (known.symm.trans (ended i)) running

variable {output : OutFile → List UInt8} {printed : OutFile → List UInt8}

theorem Voice.still (voice : Voice version string output ms records) (same : phase'.spoken = (ms t).spoken) :
    Voice version string output (Function.update ms t phase') records := by
  have spoken : ∀ u, (Function.update ms t phase' u).spoken = (ms u).spoken := fun u => by
    by_cases equal : u = t
    · subst equal
      rw [Function.update_self, same]
    · rw [Function.update_of_ne equal]
  refine ⟨fun silent => voice.silent fun u => (spoken u).symm.trans (silent u), fun u printed his => ?_⟩
  exact voice.speaking u printed ((spoken u).symm.trans his)

theorem Voice.begins (voice : Voice version string output ms records) (silent : ∀ u, (ms u).spoken = none)
    (begun : phase'.spoken = some nothing) :
    Voice version string output (Function.update ms t phase') records := by
  refine ⟨fun nobody => ?_, fun u printed his => ?_⟩
  · have own := nobody t
    rw [Function.update_self, begun] at own
    cases own
  · intro file
    by_cases same : u = t
    · subst same
      rw [Function.update_self, begun] at his
      obtain rfl := Option.some.inj his
      rw [voice.silent silent]
      exact (List.append_nil _).symm
    · rw [Function.update_of_ne same, silent u] at his
      cases his

theorem Voice.prints (voice : Voice version string output ms records) (spoken : (ms t).spoken = some printed)
    (alone : ∀ u, u ≠ t → (ms u).spoken = none) (file : OutFile) (bytes : List UInt8)
    (further : phase'.spoken = some (say printed file bytes)) :
    Voice version string (say output file bytes) (Function.update ms t phase') records := by
  refine ⟨fun nobody => ?_, fun u printed' his => ?_⟩
  · have own := nobody t
    rw [Function.update_self, further] at own
    cases own
  · intro other
    by_cases same : u = t
    · subst same
      rw [Function.update_self, further] at his
      obtain rfl := Option.some.inj his
      by_cases this : other = file
      · subst this
        rw [say_self, say_self, voice.speaking u printed spoken, List.append_assoc]
      · rw [say_of_ne _ _ this, say_of_ne _ _ this]
        exact voice.speaking u printed spoken other
    · rw [Function.update_of_ne same, alone u same] at his
      cases his

theorem Voice.ends (voice : Voice version string output ms records) (spoken : (ms t).spoken = some printed)
    (alone : ∀ u, u ≠ t → (ms u).spoken = none) {record : Record} (tells : Tells version string record printed)
    (silent : phase'.spoken = none) :
    Voice version string output (Function.update ms t phase') (records ++ [record]) := by
  refine ⟨fun _ file => ?_, fun u printed' his => ?_⟩
  · rw [voice.speaking t printed spoken file, tells file, List.flatMap_append, List.flatMap_singleton]
  · by_cases same : u = t
    · subst same
      rw [Function.update_self, silent] at his
      cases his
    · rw [Function.update_of_ne same, alone u same] at his
      cases his

/-- The nodes, and what tells that threads have ended, stay as they are. -/
structure Calm (s s' : State n) : Prop where
  counter : 0 < s.shared.currentChunkNo → 0 < s'.shared.currentChunkNo
  allocated : s'.shared.allocated = s.shared.allocated
  encodedString : s'.shared.encodedString = s.shared.encodedString
  exited : s'.shared.exited = s.shared.exited

theorem Mirroring.keeps (mirroring : Mirroring version string s ms records) (known : ms t = phase)
    (encoder : t ≠ .main) (running : phase ≠ .ended) (calm : Calm s s') (u : Thread n) : Keeps s s' (ms u) :=
  ⟨calm.counter, Nat.le_of_eq calm.allocated.symm, fun a _ _ => congrFun calm.encodedString a,
    fun i ended => (congrFun calm.exited i).trans ended,
    fun _ _ finishes => absurd finishes (mirroring.nobody_finishes known encoder running u _ _)⟩

theorem Mirroring.still_apart (mirroring : Mirroring version string s ms records)
    (node : ∀ a codes, phase'.node = some (a, codes) → ∃ codes, (ms t).node = some (a, codes)) (u : Thread n)
    (a : Nat) (codes codes' : Nat → Code) (other : u ≠ t) (mine : phase'.node = some (a, codes)) :
    (ms u).node ≠ some (a, codes') := by
  obtain ⟨before, own⟩ := node a codes mine
  exact mirroring.apart t u a before codes' other.symm own

theorem Mirroring.still_exited (mirroring : Mirroring version string s ms records) (known : ms t = phase)
    (running : phase ≠ .ended) (exited : s'.shared.exited = s.shared.exited) (i : Fin n)
    (ended : s'.shared.exited i = true) :
    s.shared.exited i = true ∧ t ≠ .encoder i ∨ t = .encoder i ∧ phase' = .ended := by
  rw [exited] at ended
  exact .inl ⟨ended, fun same => running (by rw [← known, same, mirroring.exited i ended])⟩

theorem Mirroring.advances (mirroring : Mirroring version string s ms records) (known : ms t = phase)
    (encoder : t ≠ .main) (running : phase ≠ .ended) (calm : Calm s s') (mine : ThreadOk string s' t phase')
    (holds : phase'.holds version → writer version s' = some t)
    (others : ∀ u, u ≠ t → (ms u).holds version → writer version s' = some u)
    (node : phase'.node = phase.node ∨ phase'.node = none)
    (voice : Voice version string s'.output (Function.update ms t phase') records')
    (recordsOk : ∀ record ∈ records', RecordOk n string record) (grows : records ⊆ records')
    (counted : 0 < s'.shared.currentChunkNo → 0 < s.shared.currentChunkNo ∨ phase'.chunk = some 0)
    (passed : 0 < maxChunkNo string → phase.chunk = some 0 →
      phase'.chunk = some 0 ∨ ∃ codes, .result 0 codes ∈ records') :
    Mirroring version string s' (Function.update ms t phase') records' := by
  refine mirroring.move (fun u _ => mirroring.keeps known encoder running calm u) mine holds others
    (mirroring.still_apart fun a codes own => ?_) voice recordsOk grows counted (known ▸ passed)
    (mirroring.still_exited known running calm.exited)
  rcases node with same | gone
  · exact ⟨codes, by rw [known, ← same, own]⟩
  · rw [gone] at own
    cases own

theorem Mirroring.quietly (mirroring : Mirroring version string s ms records) (known : ms t = phase)
    (encoder : t ≠ .main) (running : phase ≠ .ended) (calm : Calm s s') (mine : ThreadOk string s' t phase')
    (holds : phase'.holds version → writer version s' = some t)
    (others : ∀ u, u ≠ t → (ms u).holds version → writer version s' = some u)
    (node : phase'.node = phase.node ∨ phase'.node = none) (output : s'.output = s.output)
    (silent : phase.spoken = none ∧ phase'.spoken = none)
    (counted : 0 < s'.shared.currentChunkNo → 0 < s.shared.currentChunkNo ∨ phase'.chunk = some 0)
    (passed : phase.chunk = some 0 → phase'.chunk = some 0) :
    Mirroring version string s' (Function.update ms t phase') records := by
  refine mirroring.advances known encoder running calm mine holds others node ?_ mirroring.recordsOk
    (List.Subset.refl _) counted fun _ chunk => .inl (passed chunk)
  rw [output]
  exact mirroring.voice.still (by rw [known, silent.1, silent.2])

theorem Mirroring.calmly (mirroring : Mirroring version string s ms records) (known : ms t = phase)
    (encoder : t ≠ .main) (running : phase ≠ .ended) (calm : Calm s s') (mine : ThreadOk string s' t phase')
    (owner : writer version s' = writer version s) (holds : phase'.holds version → phase.holds version)
    (node : phase'.node = phase.node ∨ phase'.node = none) (output : s'.output = s.output)
    (silent : phase.spoken = none ∧ phase'.spoken = none)
    (counted : 0 < s'.shared.currentChunkNo → 0 < s.shared.currentChunkNo ∨ phase'.chunk = some 0)
    (passed : phase.chunk = some 0 → phase'.chunk = some 0) :
    Mirroring version string s' (Function.update ms t phase') records := by
  refine mirroring.quietly known encoder running calm mine (fun inside => ?_) (fun u _ his => ?_) node output
    silent counted passed
  · rw [owner]
    exact mirroring.holds t (known.symm ▸ holds inside)
  · rw [owner]
    exact mirroring.holds u his

def State.withWriter (version : Version) (s : State n) (owner : Option (Thread n)) : State n :=
  match version with
  | .version1 | .version2 =>
    { s with shared := { s.shared with owner := Function.update s.shared.owner .write owner } }
  | .version3 => { s with critical := owner }

theorem writer_withWriter (s : State n) (owner : Option (Thread n)) :
    writer version (s.withWriter version owner) = owner := by
  cases version <;> simp [writer, State.withWriter]

theorem calm_withWriter (s : State n) (owner : Option (Thread n)) : Calm s (s.withWriter version owner) := by
  cases version <;> exact ⟨fun counter => counter, rfl, rfl, rfl⟩

theorem output_withWriter (s : State n) (owner : Option (Thread n)) :
    (s.withWriter version owner).output = s.output := by
  cases version <;> rfl

theorem currentChunkNo_withWriter (s : State n) (owner : Option (Thread n)) :
    (s.withWriter version owner).shared.currentChunkNo = s.shared.currentChunkNo := by
  cases version <;> rfl

theorem Mirroring.enters (mirroring : Mirroring version string s ms records) (known : ms t = phase)
    (encoder : t ≠ .main) (running : phase ≠ .ended) (free : writer version s = none)
    (mine : ThreadOk string (s.withWriter version (some t)) t phase') (node : phase'.node = phase.node)
    (silent : phase.spoken = none ∧ phase'.spoken = none) (passed : phase.chunk = some 0 → phase'.chunk = some 0) :
    Mirroring version string (s.withWriter version (some t)) (Function.update ms t phase') records := by
  refine mirroring.quietly known encoder running (calm_withWriter s _) mine (fun _ => writer_withWriter s _)
    (fun u _ his => absurd his (mirroring.free free u)) (.inl node) (output_withWriter s _) silent ?_ passed
  rw [currentChunkNo_withWriter]
  exact .inl

theorem Mirroring.leaves (mirroring : Mirroring version string s ms records) (known : ms t = phase)
    (encoder : t ≠ .main) (running : phase ≠ .ended) (held : phase.holds version)
    (mine : ThreadOk string (s.withWriter version none) t phase') (outside : ¬ phase'.holds version)
    (node : phase'.node = phase.node) (silent : phase.spoken = none ∧ phase'.spoken = none)
    (passed : phase.chunk = some 0 → phase'.chunk = some 0) :
    Mirroring version string (s.withWriter version none) (Function.update ms t phase') records := by
  have own := mirroring.holds t (known.symm ▸ held)
  refine mirroring.quietly known encoder running (calm_withWriter s _) mine (fun inside => absurd inside outside)
    (fun u other his => absurd his (mirroring.others own u other)) (.inl node) (output_withWriter s _) silent ?_ passed
  rw [currentChunkNo_withWriter]
  exact .inl

theorem Mirroring.begins (mirroring : Mirroring version string s ms records) (known : ms t = phase)
    (encoder : t ≠ .main) (running : phase ≠ .ended) (free : writer version s = none)
    (mine : ThreadOk string (s.withWriter version (some t)) t phase') (node : phase'.node = phase.node)
    (begun : phase'.spoken = some nothing) (passed : phase.chunk = some 0 → phase'.chunk = some 0) :
    Mirroring version string (s.withWriter version (some t)) (Function.update ms t phase') records := by
  refine mirroring.advances known encoder running (calm_withWriter s _) mine (fun _ => writer_withWriter s _)
    (fun u _ his => absurd his (mirroring.free free u)) (.inl node) ?_ mirroring.recordsOk (List.Subset.refl _) ?_
    fun _ chunk => .inl (passed chunk)
  · rw [output_withWriter]
    exact mirroring.voice.begins (mirroring.silence known encoder running free) begun
  · rw [currentChunkNo_withWriter]
    exact .inl

theorem Mirroring.ends (mirroring : Mirroring version string s ms records) (known : ms t = phase)
    (encoder : t ≠ .main) (running : phase ≠ .ended) (held : phase.holds version)
    (spoken : phase.spoken = some printed) {record : Record} (tells : Tells version string record printed)
    (recordOk : RecordOk n string record) (mine : ThreadOk string (s.withWriter version none) t phase')
    (outside : ¬ phase'.holds version) (node : phase'.node = none) (silent : phase'.spoken = none)
    (passed : phase.chunk = some 0 → phase'.chunk = some 0 ∨ ∃ codes, record = .result 0 codes) :
    Mirroring version string (s.withWriter version none) (Function.update ms t phase') (records ++ [record]) := by
  have own := mirroring.holds t (known.symm ▸ held)
  have spoken : (ms t).spoken = some printed := by rw [known, spoken]
  refine mirroring.advances known encoder running (calm_withWriter s _) mine (fun inside => absurd inside outside)
    (fun u other his => absurd his (mirroring.others own u other)) (.inr node) ?_ ?_
    (List.subset_append_left ..) ?_ ?_
  · rw [output_withWriter]
    exact mirroring.voice.ends spoken (mirroring.alone spoken) tells silent
  · intro other member
    rcases List.mem_append.mp member with before | last
    · exact mirroring.recordsOk other before
    · rw [List.mem_singleton.mp last]
      exact recordOk
  · rw [currentChunkNo_withWriter]
    exact .inl
  · intro _ chunk
    rcases passed chunk with still | ⟨codes, rfl⟩
    · exact .inl still
    · exact .inr ⟨codes, List.mem_append_right _ (List.mem_singleton_self _)⟩

theorem Mirroring.prints (mirroring : Mirroring version string s ms records) (known : ms t = phase)
    (encoder : t ≠ .main) (running : phase ≠ .ended) (spoken : phase.spoken = some printed)
    (file : OutFile) (bytes : List UInt8) (further : phase'.spoken = some (say printed file bytes))
    (mine : ThreadOk string { s with output := say s.output file bytes } t phase')
    (holds : phase'.holds version → phase.holds version) (node : phase'.node = phase.node)
    (chunk : phase'.chunk = phase.chunk) :
    Mirroring version string { s with output := say s.output file bytes } (Function.update ms t phase') records := by
  have owner : writer version { s with output := say s.output file bytes } = writer version s := by
    cases version <;> rfl
  have spoken : (ms t).spoken = some printed := by rw [known, spoken]
  refine mirroring.advances known encoder running ⟨fun counter => counter, rfl, rfl, rfl⟩ mine ?_ ?_ (.inl node)
    (mirroring.voice.prints spoken (mirroring.alone spoken) file bytes further) mirroring.recordsOk
    (List.Subset.refl _) .inl fun _ first => .inl (chunk.trans first)
  · intro inside
    rw [owner]
    exact mirroring.holds t (known.symm ▸ holds inside)
  · intro u _ his
    rw [owner]
    exact mirroring.holds u his

theorem Mirroring.creates (mirroring : Mirroring version string s ms records) {chunkNo : Nat}
    (known : ms t = .opened chunkNo) {links : Links} {number : Nat → Nat} :
    Mirroring version string { s with shared := { s.shared with
        links := links
        chunkNo := number
        encodedString := Function.update s.shared.encodedString s.shared.allocated fun _ => 0
        allocated := s.shared.allocated + 1 } }
      (Function.update ms t (.filling chunkNo s.shared.allocated fun _ => 0)) records := by
  obtain ⟨encoder, inside⟩ := mirroring.ok known
  have below : ∀ u a codes, (ms u).node = some (a, codes) → a ≠ s.shared.allocated := fun u a codes node => by
    have ok := mirroring.threads u
    cases his : ms u <;> rw [his] at ok node <;> cases node <;> exact Nat.ne_of_lt ok.2.2.1
  refine mirroring.move (fun u _ => ?_) ⟨encoder, inside, Nat.lt_succ_self _, Function.update_self ..⟩
    (fun holds => holds.elim) (fun u _ his => ?_) (fun u a codes codes' _ mine his => ?_)
    (mirroring.voice.still (by rw [known]; rfl)) mirroring.recordsOk (List.Subset.refl _) .inl
    (fun _ chunk => .inl (by rwa [known] at chunk)) (mirroring.still_exited known (by simp) rfl)
  · exact ⟨fun counter => counter, Nat.le_succ _, fun a codes node => Function.update_of_ne (below u a codes node) ..,
      fun _ ended => ended, fun _ _ finishes => absurd finishes (mirroring.nobody_finishes known encoder (by simp) u _ _)⟩
  · have owner := mirroring.holds u his
    cases version <;> exact owner
  · cases mine
    exact below u _ codes' his rfl

theorem Mirroring.encodes (mirroring : Mirroring version string s ms records) {chunkNo node : Nat}
    {codes : Nat → Code} (known : ms t = .filling chunkNo node codes) (i : Nat) (code : Code) :
    Mirroring version string { s with shared := { s.shared with
        encodedString := Function.update s.shared.encodedString node
          (Function.update (s.shared.encodedString node) i code) } }
      (Function.update ms t (.filling chunkNo node (Function.update codes i code))) records := by
  obtain ⟨encoder, inside, allocated, same⟩ := mirroring.ok known
  have others : ∀ u a codes', u ≠ t → (ms u).node = some (a, codes') → a ≠ node := fun u a codes' other his equal =>
    mirroring.apart t u node codes codes' other.symm (by rw [known]; rfl) (equal ▸ his)
  refine mirroring.move (fun u other => ?_) ⟨encoder, inside, allocated, ?_⟩ (fun holds => holds.elim)
    (fun u _ his => ?_) (mirroring.still_apart fun a codes' own => ⟨codes, ?_⟩)
    (mirroring.voice.still (by rw [known]; rfl)) mirroring.recordsOk (List.Subset.refl _) .inl
    (fun _ chunk => .inl (by rwa [known] at chunk)) (mirroring.still_exited known (by simp) rfl)
  · exact ⟨fun counter => counter, Nat.le_refl _,
      fun a codes' his => Function.update_of_ne (others u a codes' other his) .., fun _ ended => ended,
      fun _ _ finishes => absurd finishes (mirroring.nobody_finishes known encoder (by simp) u _ _)⟩
  · rw [← same]
    exact Function.update_self ..
  · have owner := mirroring.holds u his
    cases version <;> exact owner
  · cases own
    rw [known]
    rfl

theorem Mirroring.exits (mirroring : Mirroring version string s ms records) {i : Fin n} {chunkNo : Nat}
    (known : ms (.encoder i) = .taken chunkNo) (beyond : maxChunkNo string ≤ chunkNo) :
    Mirroring version string { s with shared := { s.shared with
        exited := Function.update s.shared.exited i true } }
      (Function.update ms (.encoder i) .ended) records := by
  obtain ⟨encoder, counter⟩ := mirroring.ok known
  refine mirroring.move (fun u _ => ?_) ⟨encoder, counter⟩ (fun holds => holds.elim) (fun u _ his => ?_)
    (fun _ _ _ _ _ mine => nomatch mine) (mirroring.voice.still (by rw [known]; rfl)) mirroring.recordsOk
    (List.Subset.refl _) .inl (fun some chunk => ?_) (fun j ended => ?_)
  · refine ⟨fun counter => counter, Nat.le_refl _, fun _ _ _ => rfl, fun j ended => ?_,
      fun _ _ finishes => absurd finishes (mirroring.nobody_finishes known encoder (by simp) u _ _)⟩
    by_cases same : j = i
    · subst same
      exact Function.update_self ..
    · exact (Function.update_of_ne same ..).trans ended
  · have owner := mirroring.holds u his
    cases version <;> exact owner
  · rw [known] at chunk
    cases chunk
    exact absurd some (Nat.not_lt.mpr beyond)
  · by_cases same : j = i
    · exact .inr ⟨by rw [same], rfl⟩
    · have before : s.shared.exited j = true := by simpa only [Function.update_of_ne same] using ended
      exact .inl ⟨before, by simpa using Ne.symm same⟩

theorem Mirroring.main_moves (mirroring : Mirroring version string s ms records) (calm : Calm s s')
    (mine : ThreadOk string s' .main phase') (known : (ms .main).chunk = none)
    (outside : ¬ phase'.holds version) (node : phase'.node = none) (owner : writer version s' = writer version s)
    (counter : s'.shared.currentChunkNo = s.shared.currentChunkNo)
    (voice : Voice version string s'.output (Function.update ms .main phase') records) :
    Mirroring version string s' (Function.update ms .main phase') records := by
  refine mirroring.move (fun u other => ?_) mine (fun inside => absurd inside outside) (fun u _ his => ?_)
    (fun _ _ _ _ _ own => by rw [node] at own; cases own) voice mirroring.recordsOk (List.Subset.refl _)
    (fun counted => .inl (counter ▸ counted)) (fun _ chunk => by rw [known] at chunk; cases chunk)
    (fun i ended => .inl ⟨(congrFun calm.exited i).symm.trans ended, by simp⟩)
  · refine ⟨calm.counter, Nat.le_of_eq calm.allocated.symm, fun a _ _ => congrFun calm.encodedString a,
      fun i ended => (congrFun calm.exited i).trans ended, fun _ _ finishes => ?_⟩
    exact absurd (mirroring.ok finishes).1 other
  · rw [owner]
    exact mirroring.holds u his

theorem Mirroring.joins (mirroring : Mirroring version string s ms records) {i : Fin n}
    (known : ms .main = .joining i) (ended : s.shared.exited i = true) :
    (i.val + 1 = n → Mirroring version string s (Function.update ms .main (.finishing s.memory nothing)) records) ∧
      Mirroring version string s (Function.update ms .main (.joining (i + 1))) records := by
  obtain ⟨-, before⟩ := mirroring.ok known
  have joined : ∀ j : Fin n, j.val < i.val + 1 → s.shared.exited j = true := fun j below => by
    rcases Nat.lt_succ_iff_lt_or_eq.mp below with earlier | same
    · exact before j earlier
    · rw [Fin.ext same]
      exact ended
  have calm : Calm s s := ⟨fun counter => counter, rfl, rfl, rfl⟩
  have chunk : (ms .main).chunk = none := by rw [known]; rfl
  have voice := mirroring.voice
  refine ⟨fun last => mirroring.main_moves calm ⟨rfl, fun j => joined j (Nat.lt_of_lt_of_eq j.isLt last.symm), rfl⟩ chunk
    (fun holds => holds) rfl rfl rfl (voice.begins (fun u => ?_) rfl),
    mirroring.main_moves calm ⟨rfl, joined⟩ chunk (fun holds => holds) rfl rfl rfl
      (voice.still (by rw [known]; rfl))⟩
  cases spoken : (ms u).spoken with
  | none => rfl
  | some bytes =>
    rcases mirroring.spoken_cases spoken with ⟨-, encoder, running⟩ | ⟨rfl, -⟩
    · cases u with
      | main => exact absurd rfl encoder
      | encoder j => exact absurd (mirroring.exited j (joined j (Nat.lt_of_lt_of_eq j.isLt last.symm))) running
    · rw [known] at spoken
      cases spoken

theorem Mirroring.finishes (mirroring : Mirroring version string s ms records) {memory memory' : Memory}
    (known : ms .main = .finishing memory printed) (calm : Calm s s') (kept : s'.memory = memory')
    (owner : writer version s' = writer version s) (counter : s'.shared.currentChunkNo = s.shared.currentChunkNo)
    (output : s'.output = s.output) :
    Mirroring version string s' (Function.update ms .main (.finishing memory' printed)) records := by
  obtain ⟨-, exited, -⟩ := mirroring.ok known
  refine mirroring.main_moves calm ⟨rfl, fun i => (congrFun calm.exited i).trans (exited i), kept⟩
    (by rw [known]; rfl) (fun holds => holds) rfl owner counter ?_
  rw [output]
  exact mirroring.voice.still (by rw [known]; rfl)

theorem Mirroring.finishes_printing (mirroring : Mirroring version string s ms records) {memory : Memory}
    (known : ms .main = .finishing memory printed) (calm : Calm s s') (kept : s'.memory = s.memory)
    (owner : writer version s' = writer version s) (counter : s'.shared.currentChunkNo = s.shared.currentChunkNo)
    (file : OutFile) (bytes : List UInt8) (output : s'.output = say s.output file bytes) :
    Mirroring version string s' (Function.update ms .main (.finishing memory (say printed file bytes))) records := by
  obtain ⟨-, exited, same⟩ := mirroring.ok known
  have spoken : (ms .main).spoken = some printed := by rw [known]; rfl
  refine mirroring.main_moves calm ⟨rfl, fun i => (congrFun calm.exited i).trans (exited i), kept.trans same⟩
    (by rw [known]; rfl) (fun holds => holds) rfl owner counter ?_
  rw [output]
  exact mirroring.voice.prints spoken (mirroring.alone spoken) file bytes rfl

theorem Mirroring.stay (mirroring : Mirroring version string s ms records) (known : ms t = phase) :
    Mirroring version string s (Function.update ms t phase) records := by
  rw [← known, Function.update_eq_self]
  exact mirroring

theorem Mirroring.links (mirroring : Mirroring version string s ms records) {chunkNo node : Nat}
    {codes : Nat → Code} (known : ms t = .filling chunkNo node codes) {c : Ihw4.Call n} (linking : Linking c)
    {answer : c.Answer} (performed : perform t (.shared c) answer s = some s') :
    Mirroring version string s' (Function.update ms t (.filling chunkNo node codes)) records := by
  obtain ⟨encoder, inside, allocated, same⟩ := mirroring.ok known
  have still : ∀ {s' : State n}, Calm s s' → writer version s' = writer version s → s'.output = s.output →
      s'.shared.currentChunkNo = s.shared.currentChunkNo →
      Mirroring version string s' (Function.update ms t (.filling chunkNo node codes)) records :=
    fun calm owner output counter => by
      refine mirroring.calmly known encoder (by simp) calm ⟨encoder, inside, ?_, ?_⟩ owner (fun holds => holds)
        (.inl rfl) output ⟨rfl, rfl⟩ (fun counted => .inl (counter ▸ counted)) fun chunk => chunk
      · rw [calm.allocated]
        exact allocated
      · rw [calm.encodedString]
        exact same
  obtain ⟨shared, done, rfl⟩ := Option.map_eq_some_iff.mp performed
  cases c <;> try exact linking.elim
  case lock mutex =>
    cases mutex <;> try exact (linking : False).elim
    obtain ⟨-, ⟨⟩⟩ := Option.ite_none_right_eq_some.mp done
    exact still ⟨fun counter => counter, rfl, rfl, rfl⟩ (by cases version <;> rfl) rfl rfl
  case goesOn => exact answer.elim
  all_goals
    first
    | (obtain ⟨⟩ := done
       exact still ⟨fun counter => counter, rfl, rfl, rfl⟩ (by cases version <;> rfl) rfl rfl)
    | (obtain ⟨-, ⟨⟩⟩ := Option.ite_none_right_eq_some.mp done
       exact still ⟨fun counter => counter, rfl, rfl, rfl⟩ (by cases version <;> rfl) rfl rfl)

end

end ArchCompSystems.Ihw4.Versions
