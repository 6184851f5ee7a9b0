import ArchCompSystems.Ihw4.Mirroring
import ArchCompSystems.Ihw4.Slots

namespace ArchCompSystems.Ihw4.Versions

open Library Library.Program

def listOrder (n : Nat) (string : List UInt8) : Protocol (Call n) Call.Answer Ihw4.Stage where
  allowed stage call := match call with
    | .shared c => (callOrder n string).allowed stage c
    | .printText _ _ => True
    | _ => False
  moves stage call answer stage' := match call, answer with
    | .shared c, answer => (callOrder n string).moves stage c answer stage'
    | _, _ => stage' = stage

section

variable {n : Nat} {string : List UInt8}

theorem common_lists {α : Type} {p : Ihw4.EncoderProgram n α} {post : α → Ihw4.Stage → Prop} {stage : Ihw4.Stage}
    (follows : (callOrder n string).Follows post p stage) : (listOrder n string).Follows post (common p) stage :=
  Protocol.follows_lift.mpr (Protocol.follows_weaken (P := callOrder n string) (fun _ _ allowed => allowed)
    (fun _ _ _ _ moved => by
      obtain ⟨answer, rfl, moved⟩ := moved
      exact moved) follows)

theorem writeNewChunkLog_lists (outputFile : Bool) (chunkNo : Nat) : (listOrder n string).Follows
    (fun _ stage => stage = .claimed chunkNo) (writeNewChunkLog .version1 outputFile chunkNo)
    (.claimed chunkNo) := by
  refine Protocol.follows_call True.intro ?_
  rintro ⟨⟩ _ rfl
  refine Protocol.follows_call True.intro ?_
  rintro ⟨⟩ _ rfl
  cases outputFile with
  | false =>
    refine Protocol.follows_call True.intro ?_
    rintro ⟨⟩ _ rfl
    exact rfl
  | true =>
    refine Protocol.follows_call True.intro ?_
    rintro ⟨⟩ _ rfl
    refine Protocol.follows_call True.intro ?_
    rintro ⟨⟩ _ rfl
    exact rfl

theorem writeResultLog_lists (outputFile : Bool) (chunkNo result size seen : Nat) :
    (listOrder n string).Follows (fun _ stage => stage = .idle seen)
      (writeResultLog .version1 outputFile string chunkNo result size) (.idle seen) := by
  have quotes : (do
      writeResult .version1 .stdout string chunkNo result size
      if outputFile then writeResult .version1 .outputFile string chunkNo result size :
      EncoderProgram n Unit).Calls Quoting := by
    refine calls_bind (writeResult_quotes ..) fun _ => ?_
    cases outputFile with
    | false => exact True.intro
    | true => exact writeResult_quotes ..
  refine Protocol.follows_call True.intro ?_
  rintro ⟨⟩ _ rfl
  refine Protocol.follows_bind.mpr (Protocol.follows_mono ?_ (Protocol.follows_of_calls quotes
    (quoting_cases (fun _ _ => True.intro) fun _ _ => True.intro)
    fun c answer stage' quotes => quoting_cases (motive := fun c => ∀ answer,
      (listOrder n string).moves (.idle seen) c answer stage' → stage' = .idle seen)
      (fun _ _ _ moved => moved) (fun _ _ _ moved => moved) c quotes answer))
  rintro ⟨⟩ _ rfl
  refine Protocol.follows_call True.intro ?_
  rintro ⟨⟩ _ rfl
  exact rfl

theorem encoderRound_lists (noTerminator : 0 ∉ string) (outputFile : Bool) (seen : Nat) :
    (listOrder n string).Follows (fun flow stage => match flow with
      | .next _ => ∃ later, seen < later ∧ later ≤ maxChunkNo string ∧ stage = .idle later
      | .exit _ => ∃ chunkNo, maxChunkNo string ≤ chunkNo ∧ stage = .claimed chunkNo)
    (encoderRound .version1 string outputFile) (.idle seen) := by
  refine Protocol.follows_bind.mpr (Protocol.follows_mono ?_ (common_lists (Ihw4.getNextChunkNo_follows seen)))
  rintro chunkNo _ ⟨later, rfl⟩
  split
  · rename_i beyond
    exact ⟨chunkNo, Nat.le_of_not_lt beyond, rfl⟩
  · rename_i below
    have inside := Decidable.not_not.mp below
    refine Protocol.follows_bind.mpr (Protocol.follows_mono ?_ (writeNewChunkLog_lists outputFile chunkNo))
    rintro ⟨⟩ _ rfl
    refine Protocol.follows_call ⟨rfl, inside⟩ ?_
    rintro node _ rfl
    refine Protocol.follows_bind.mpr (Protocol.follows_mono ?_
      (common_lists (Ihw4.encodeChunk_follows noTerminator chunkNo node)))
    rintro size _ ⟨count, rfl, filled⟩
    refine Protocol.follows_bind.mpr (Protocol.follows_mono ?_ (common_lists (Ihw4.storeResult_follows filled)))
    rintro ⟨⟩ _ rfl
    refine Protocol.follows_bind.mpr (Protocol.follows_mono ?_
      (writeResultLog_lists outputFile chunkNo node size (chunkNo + 1)))
    rintro ⟨⟩ _ rfl
    exact ⟨chunkNo + 1, Nat.lt_succ_of_le later, inside, rfl⟩

theorem encoder_lists (noTerminator : 0 ∉ string) (outputFile : Bool) :
    (listOrder n string).Follows (fun _ stage => stage = .ended) (encoder .version1 string outputFile) (.idle 0) := by
  refine Protocol.follows_bind.mpr (Protocol.follows_mono ?_
    (@Protocol.follows_forFrom _ _ _ _ _ (listOrder n string) (.idle 0) _
      (fun i _ stage => ∃ seen, i ≤ seen ∧ seen ≤ maxChunkNo string ∧ stage = .idle seen)
      (fun _ stage => ∃ chunkNo, maxChunkNo string ≤ chunkNo ∧ stage = .claimed chunkNo)
      (Ihw4.rounds string) 0 () ?_ ⟨0, Nat.le_refl _, Nat.zero_le _, rfl⟩))
  · rintro (_ | _) stage after
    · obtain ⟨seen, least, most, -⟩ := after
      unfold Ihw4.rounds at least
      omega
    · obtain ⟨chunkNo, beyond, rfl⟩ := after
      refine ⟨beyond, ?_⟩
      rintro ⟨⟩ _ rfl
      exact rfl
  · rintro i ⟨⟩ _ - - ⟨seen, least, -, rfl⟩
    refine Protocol.follows_mono ?_ (encoderRound_lists noTerminator outputFile seen)
    rintro (_ | _) stage after
    · obtain ⟨later, more, most, rfl⟩ := after
      exact ⟨later, by omega, most, rfl⟩
    · exact after

theorem printEncodingResults_lists {links : Links} {entries : Entries} {written : OutFile → List Code}
    (files : List OutFile) (represents : links.Represents (entries.map Prod.fst))
    (complete : entries.map Prod.snd = List.range (maxChunkNo string)) : (listOrder n string).Follows
      (fun _ stage => ∃ written', stage = .printing links entries written' ∧ ∀ file,
        written' file = written file ++ files.flatMap fun other =>
          if other = file then printedCodes string else [])
      (printEncodingResults string (fun file => common (printTo (Ihw4.rounds string) file)) files)
      (.printing links entries written) := by
  have length : entries.length = maxChunkNo string := by
    rw [← List.length_map (f := Prod.snd), complete, List.length_range]
  have codes : (entries.flatMap fun entry => printedChunk string entry.2) = printedCodes string := by
    rw [printedCodes, ← complete, List.flatMap_map]
  induction files generalizing written with
  | nil => exact ⟨written, rfl, by simp⟩
  | cons first files ih =>
    refine Protocol.follows_call True.intro ?_
    rintro ⟨⟩ _ rfl
    refine Protocol.follows_bind.mpr (Protocol.follows_mono ?_ (common_lists (Ihw4.printTo_follows first represents
      (length ▸ Nat.lt_succ_self _))))
    rintro ⟨⟩ _ rfl
    refine Protocol.follows_call True.intro ?_
    rintro ⟨⟩ _ rfl
    refine Protocol.follows_mono ?_ ih
    rintro ⟨⟩ _ ⟨written', rfl, after⟩
    refine ⟨written', rfl, fun file => ?_⟩
    rw [after, codes, List.flatMap_cons]
    by_cases same : first = file
    · subst same
      rw [Function.update_self, if_pos rfl, List.append_assoc]
    · rw [Function.update_of_ne (Ne.symm same), if_neg same, List.nil_append]

theorem main_lists (outputFile : Bool) (some : 0 < n) : (listOrder n string).Follows
    (fun _ => Ihw4.Printed string (filesOf outputFile)) (main .version1 string outputFile) (.joining 0) := by
  refine Protocol.follows_bind.mpr (Protocol.follows_mono ?_
    (common_lists (Ihw4.joinThreads_follows (Nat.le_refl n) some)))
  rintro ⟨⟩ stage joined
  rw [if_pos rfl] at joined
  obtain ⟨links, entries, represents, complete, rfl⟩ := joined
  refine Protocol.follows_mono ?_ (printEncodingResults_lists (filesOf outputFile) represents complete)
  rintro ⟨⟩ _ ⟨written', rfl, after⟩
  exact after

end

section

variable {n : Nat} {version : Version} {string : List UInt8} {outputFile : Bool}
  {pool : Pool (Thread n) (Call n) Call.Answer (State n)}

theorem perform_lists {s s' : State n} {ms : Thread n → Ihw4.Stage} {t : Thread n} {c : Call n} {answer : c.Answer}
    {entries : Entries} (encoding : Encoding string s.shared ms entries) (some : 0 < n)
    (allowed : (listOrder n string).allowed (ms t) c) (performed : perform t c answer s = Option.some s') :
    ∃ stage', (listOrder n string).moves (ms t) c answer stage' ∧
      ∃ entries', Encoding string s'.shared (Function.update ms t stage') entries' := by
  cases c <;> try exact (allowed : False).elim
  case shared c =>
    obtain ⟨shared, answered, rfl⟩ := Option.map_eq_some_iff.mp performed
    exact encoding.perform some allowed answered
  case printText file bytes =>
    obtain ⟨⟩ := performed
    exact ⟨_, rfl, entries, encoding.stay rfl⟩

theorem Reach.encoding (some : 0 < n) (noTerminator : 0 ∉ string) (reach : Reach n .version1 string outputFile pool) :
    ∃ ms, pool.Governed (fun _ => listOrder n string) Ihw4.initialStage (Ihw4.Final string outputFile)
      (fun s ms => ∃ entries, Encoding string s.shared ms entries) ms := by
  refine Pool.Reach.governed ?_ (fun _ _ _ => rfl)
    ⟨fun _ => .nil, ?_, _, Ihw4.encoding_start n string outputFile⟩ reach
  · rintro s ms t c answer s' ⟨entries, encoding⟩ allowed performed
    exact perform_lists encoding some allowed performed
  · intro t
    cases t with
    | encoder i => exact encoder_lists noTerminator outputFile
    | main => exact main_lists outputFile some

def firstStage : Thread n → Stage
  | .encoder _ => .idle 0
  | .main => .joining 0

def LastStage (string : List UInt8) (outputFile : Bool) (t : Thread n) (stage : Stage) : Prop :=
  match t with
  | .encoder _ => stage = .ended
  | .main => Printed string (filesOf outputFile) stage

theorem slotting_start (n : Nat) (version : Version) (string : List UInt8) (outputFile : Bool) :
    Slotting version string (start n version string outputFile).state firstStage [] where
  threads := by
    intro t
    cases t with
    | encoder i => exact ⟨by simp, Nat.zero_le _⟩
    | main => exact ⟨rfl, fun _ before => absurd before (Nat.not_lt_zero _), rfl⟩
  critical := by
    intro t inside
    cases t <;> cases inside
  apart := by
    intro t u _
    cases t <;> exact ⟨by simp [firstStage, Stage.chunk], by simp [firstStage, Stage.node]⟩
  slotsOk := ⟨rfl, List.nodup_nil, by simp, by simp, by simp, by simp, by simp⟩
  filled := by simp
  complete := fun k _ counted => absurd counted (Nat.not_lt_zero _)
  exited := fun i ended => nomatch ended

theorem Reach.slotting (notFirst : version ≠ .version1) (some : 0 < n) (noTerminator : 0 ∉ string)
    (few : maxChunkNo string < 2 ^ 31) (reach : Reach n version string outputFile pool) :
    ∃ ms, pool.Governed (fun _ => slotOrder n version string) firstStage (LastStage string outputFile)
      (fun s ms => ∃ slots, Slotting version string s ms slots) ms := by
  refine Pool.Reach.governed ?_ (fun _ _ _ => rfl)
    ⟨fun _ => .nil, ?_, _, slotting_start n version string outputFile⟩ reach
  · rintro s ms t c answer s' ⟨slots, slotting⟩ allowed performed
    exact slotting.perform some allowed performed
  · intro t
    cases t with
    | encoder i => exact encoder_slots notFirst noTerminator outputFile
    | main => exact main_slots notFirst few outputFile some

def emptyOrder : Protocol (Call n) Call.Answer Unit where
  allowed _ call := match call with
    | .printText _ _ | .shared .loadHead | .loadArraySize | .qsort _ => True
    | _ => False
  moves _ call answer _ := match call, answer with
    | .shared .loadHead, answer => answer = none
    | .loadArraySize, answer => answer = 0
    | _, _ => True

theorem printEncodingResults_empty {printCodes : OutFile → EncoderProgram n Unit}
    (each : ∀ file, emptyOrder.Follows (fun _ _ => True) (printCodes file) ()) (files : List OutFile) :
    emptyOrder.Follows (fun _ _ => True) (printEncodingResults string printCodes files) () := by
  induction files with
  | nil => exact True.intro
  | cons first files ih =>
    refine Protocol.follows_call True.intro fun _ _ _ => ?_
    refine Protocol.follows_bind.mpr (Protocol.follows_mono (fun _ _ _ => ?_) (each first))
    exact Protocol.follows_call True.intro fun _ _ _ => ih

theorem printTo_empty (rounds : Nat) (file : OutFile) :
    emptyOrder.Follows (fun _ _ => True) (common (n := n) (printTo (rounds + 1) file)) () := by
  refine Protocol.follows_lift.mpr (Protocol.follows_call True.intro ?_)
  rintro _ ⟨⟩ ⟨_, rfl, rfl⟩
  exact True.intro

theorem sortResults_empty {rest : EncoderProgram n Unit} (follows : emptyOrder.Follows (fun _ _ => True) rest ()) :
    emptyOrder.Follows (fun _ _ => True) (sortResults >>= fun _ => rest) () :=
  Protocol.follows_bind.mpr (Protocol.follows_call True.intro fun _ _ _ =>
    Protocol.follows_call True.intro fun _ _ _ => follows)

theorem main_empty : emptyOrder.Follows (fun _ _ => True) (main (n := 0) version string outputFile) () := by
  cases version with
  | version1 => exact printEncodingResults_empty (printTo_empty _) _
  | version2 =>
    refine sortResults_empty (printEncodingResults_empty ?_ _)
    intro file
    refine Protocol.follows_call True.intro ?_
    rintro _ ⟨⟩ rfl
    exact True.intro
  | version3 =>
    refine sortResults_empty (Protocol.follows_call True.intro ?_)
    rintro _ ⟨⟩ rfl
    refine printEncodingResults_empty ?_ _
    intro file
    exact True.intro

structure Nothing (s : State n) : Prop where
  head : s.shared.links.head = none
  size : s.currentArraySize = 0
  written : ∀ file, s.shared.written file = []

theorem Nothing.perform {s s' : State n} {t : Thread n} {c : Call n} {answer : c.Answer} (nothing : Nothing s)
    (allowed : emptyOrder.allowed () c) (performed : perform t c answer s = some s') :
    emptyOrder.moves () c answer () ∧ Nothing s' := by
  cases c <;> try exact (allowed : False).elim
  case shared c =>
    cases c <;> try exact (allowed : False).elim
    case loadHead =>
      obtain ⟨shared, answered, rfl⟩ := Option.map_eq_some_iff.mp performed
      obtain ⟨rfl, ⟨⟩⟩ := Option.ite_none_right_eq_some.mp answered
      exact ⟨nothing.head, nothing.head, nothing.size, nothing.written⟩
  case printText file bytes =>
    obtain ⟨⟩ := performed
    exact ⟨True.intro, nothing.head, nothing.size, nothing.written⟩
  case loadArraySize =>
    obtain ⟨rfl, ⟨⟩⟩ := Option.ite_none_right_eq_some.mp performed
    exact ⟨nothing.size, nothing⟩
  case qsort size =>
    obtain ⟨-, ⟨⟩⟩ := Option.ite_none_right_eq_some.mp performed
    exact ⟨True.intro, nothing.head, nothing.size, nothing.written⟩

theorem Reach.nothing {pool : Pool (Thread 0) (Call 0) Call.Answer (State 0)}
    (reach : Reach 0 version string outputFile pool) :
    ∃ ms, pool.Governed (fun _ => emptyOrder) (fun _ => ()) (fun _ _ => True) (fun s _ => Nothing s) ms := by
  refine Pool.Reach.governed ?_ (fun _ _ _ => rfl) ⟨fun _ => .nil, ?_, rfl, rfl, fun _ => rfl⟩ reach
  · intro s ms t c answer s' nothing allowed performed
    exact ⟨(), nothing.perform allowed performed⟩
  · intro t
    cases t with
    | encoder i => exact i.elim0
    | main => exact main_empty

/-- The length with which `results_array` is allocated. -/
def resultsArraySize : Version → List UInt8 → Nat
  | .version1, _ => 0
  | .version2, string => maxChunkNo string
  | .version3, string => string.length

theorem maxChunkNo_le (notFirst : version ≠ .version1) : maxChunkNo string ≤ resultsArraySize version string := by
  cases version with
  | version1 => exact absurd rfl notFirst
  | version2 => exact Nat.le_refl _
  | version3 =>
    show maxChunkNo string ≤ string.length
    unfold maxChunkNo encodeChunkSize
    omega

/-- No loop is cut off, and `results_array` is written inside. -/
structure StaysInside (version : Version) (string : List UInt8)
    (pool : Pool (Thread n) (Call n) Call.Answer (State n)) : Prop where
  goesOn : ∀ t next, pool.programs t ≠ .call (.shared .goesOn) next
  stored : ∀ t index node next, pool.programs t = .call (.storeResult index node) next →
    index < resultsArraySize version string

theorem Slotting.stored {s : State n} {ms : Thread n → Stage} {slots : Entries} {t : Thread n} {index node : Nat}
    (notFirst : version ≠ .version1) (slotting : Slotting version string s ms slots)
    (allowed : (slotOrder n version string).allowed (ms t) (.storeResult index node)) :
    index < resultsArraySize version string := by
  cases known : ms t <;> rw [known] at allowed <;> try exact allowed.elim
  case placing chunkNo node' index' =>
    obtain ⟨rfl, rfl⟩ := allowed
    have ok := slotting.threads t
    rw [known] at ok
    have listed : slots[index]? = some (node, chunkNo) := ok.2
    have inside : index < slots.length := (List.getElem?_eq_some_iff.mp listed).1
    exact Nat.lt_of_lt_of_le inside (Nat.le_trans slotting.slotsOk.few (maxChunkNo_le notFirst))

theorem Reach.staysInside (noTerminator : 0 ∉ string) (few : maxChunkNo string < 2 ^ 31)
    (reach : Reach n version string outputFile pool) : StaysInside version string pool := by
  rcases Nat.eq_zero_or_pos n with rfl | some
  · obtain ⟨ms, governed⟩ := reach.nothing
    refine ⟨fun t next current => ?_, fun t index node next current => ?_⟩
    all_goals
      have following := governed.follows t
      rw [current] at following
      exact following.1.elim
  · by_cases first : version = .version1
    · subst first
      obtain ⟨ms, governed⟩ := reach.encoding some noTerminator
      refine ⟨fun t next current => ?_, fun t index node next current => ?_⟩
      · have following := governed.follows t
        rw [current] at following
        have allowed : (callOrder n string).allowed (ms t) .goesOn := following.1
        cases known : ms t <;> rw [known] at allowed <;> exact allowed
      · have following := governed.follows t
        rw [current] at following
        exact following.1.elim
    · obtain ⟨ms, governed⟩ := reach.slotting first some noTerminator few
      obtain ⟨slots, slotting⟩ := governed.agrees
      refine ⟨fun t next current => ?_, fun t index node next current => ?_⟩
      · have following := governed.follows t
        rw [current] at following
        have allowed := following.1
        cases known : ms t <;> rw [known] at allowed <;> exact allowed
      · have following := governed.follows t
        rw [current] at following
        exact slotting.stored first following.1

theorem Reach.printed (noTerminator : 0 ∉ string) (few : maxChunkNo string < 2 ^ 31)
    (reach : Reach n version string outputFile pool) (ended : pool.programs .main = .done ())
    {file : OutFile} (member : file ∈ filesOf outputFile) :
    pool.state.shared.written file = if n = 0 then [] else printedCodes string := by
  rcases Nat.eq_zero_or_pos n with rfl | some
  · obtain ⟨ms, governed⟩ := reach.nothing
    exact governed.agrees.written file
  · rw [if_neg (Nat.ne_of_gt some)]
    by_cases first : version = .version1
    · subst first
      obtain ⟨ms, governed⟩ := reach.encoding some noTerminator
      obtain ⟨entries, encoding⟩ := governed.agrees
      have following := governed.follows .main
      rw [ended] at following
      have printed : Ihw4.Printed string (filesOf outputFile) (ms .main) := following
      cases known : ms .main <;> rw [known] at printed <;> try exact printed.elim
      obtain ⟨-, -, -, -, same⟩ := encoding.ok known
      rw [same, printed file]
      cases outputFile <;> cases file <;> simp_all [filesOf]
    · obtain ⟨ms, governed⟩ := reach.slotting first some noTerminator few
      obtain ⟨slots, slotting⟩ := governed.agrees
      have following := governed.follows .main
      rw [ended] at following
      have printed : Printed string (filesOf outputFile) (ms .main) := following
      cases known : ms .main <;> rw [known] at printed <;> try exact printed.elim
      have ok := slotting.threads .main
      rw [known] at ok
      rw [ok.2.2.2, printed file]
      cases outputFile <;> cases file <;> simp_all [filesOf]

/-- The three versions are equivalent: whatever the order of their threads' calls, they stay inside of
    `results_array` and print the same codes. -/
theorem versions_equivalent (noTerminator : 0 ∉ string) (few : maxChunkNo string < 2 ^ 31)
    (reach : Reach n version string outputFile pool) : StaysInside version string pool ∧
      (pool.programs .main = .done () → ∀ (n' : Nat) (version' : Version)
        (pool' : Pool (Thread n') (Call n') Call.Answer (State n')), (n' = 0 ↔ n = 0) →
        Reach n' version' string outputFile pool' → pool'.programs .main = .done () →
        ∀ file ∈ filesOf outputFile, pool'.state.shared.written file = pool.state.shared.written file) := by
  refine ⟨reach.staysInside noTerminator few, fun ended n' version' pool' threads reach' ended' file member => ?_⟩
  rw [reach.printed noTerminator few ended member, reach'.printed noTerminator few ended' member]
  exact if_congr threads rfl rfl

end

/-- Two encoders and two chunks in the second version and in the first. -/
theorem two_versions_equivalent : ∃ pool pool' : Pool (Thread 2) (Call 2) Call.Answer (State 2),
    Reach 2 .version2 twoChunks true pool ∧ (∀ t, pool.programs t = .done ()) ∧
      Reach 2 .version1 twoChunks true pool' ∧ (∀ t, pool'.programs t = .done ()) ∧
      StaysInside .version2 twoChunks pool ∧
      ∀ file ∈ filesOf true, pool'.state.shared.written file = pool.state.shared.written file := by
  obtain ⟨pool, reach, ended⟩ := @exists_ended .version2 twoChunks 1 26 655 796 (by decide +kernel)
  obtain ⟨pool', reach', ended'⟩ := @exists_ended .version1 twoChunks 4 37 666 794 (by decide +kernel)
  obtain ⟨inside, same⟩ := versions_equivalent (by decide +kernel) (by decide +kernel) reach
  exact ⟨pool, pool', reach, ended, reach', ended', inside,
    same (ended .main) 2 .version1 pool' Iff.rfl reach' (ended' .main)⟩

end ArchCompSystems.Ihw4.Versions
