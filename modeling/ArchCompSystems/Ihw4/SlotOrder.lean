import ArchCompSystems.Ihw4.Encoding
import ArchCompSystems.Ihw4.Versions

namespace ArchCompSystems.Ihw4.Versions

open Library Library.Program

/-- How far a thread has come. From `counting` to `counted`, and from `sizing` to `indexed`, the third
    version is in a section. A slot is a node with its chunk number. -/
inductive Stage where
  | idle (seen : Nat)
  | entered (seen : Nat)
  | counting (chunkNo : Nat)
  | counted (chunkNo : Nat)
  | claimed (chunkNo : Nat)
  | logging (chunkNo : Nat)
  | filling (chunkNo node count : Nat)
  | sizing (chunkNo node : Nat)
  | sized (chunkNo node index : Nat)
  | indexed (chunkNo node index : Nat)
  | placing (chunkNo node index : Nat)
  | placed (seen : Nat)
  | quoting (seen : Nat)
  | ended
  | joining (count : Nat)
  | printing (slots : Entries) (written : OutFile → List Code)

namespace Stage

def chunk : Stage → Option Nat
  | .counted chunkNo | .claimed chunkNo | .logging chunkNo | .filling chunkNo _ _ | .sizing chunkNo _
  | .sized chunkNo _ _ => some chunkNo
  | _ => none

def node : Stage → Option Nat
  | .filling _ node _ | .sizing _ node | .sized _ node _ => some node
  | _ => none

def slot : Stage → Option ((Nat × Nat) × Nat)
  | .indexed chunkNo node index | .placing chunkNo node index => some ((node, chunkNo), index)
  | _ => none

def critical : Stage → Bool
  | .entered _ | .counting _ | .counted _ | .logging _ | .sizing _ _ | .sized _ _ _ | .indexed _ _ _
  | .quoting _ => true
  | _ => false

end Stage

def slotOrder (n : Nat) (version : Version) (string : List UInt8) : Protocol (Call n) Call.Answer Stage where
  allowed stage call := match stage, call with
    | .idle _, .fetchAddChunkNo => version = .version2
    | .idle _, .enterCritical => version = .version3
    | .entered _, .shared .loadCurrentChunkNo => True
    | .counting chunkNo, .shared (.storeCurrentChunkNo next) => next = chunkNo + 1
    | .counted _, .leaveCritical | .logging _, .leaveCritical | .indexed _ _ _, .leaveCritical
    | .quoting _, .leaveCritical => version = .version3
    | .claimed _, .enterCritical | .placed _, .enterCritical => version = .version3
    | .claimed _, .shared (.lock .write) | .claimed _, .shared (.unlock .write) | .placed _, .shared (.lock .write)
    | .placed _, .shared (.unlock .write) => version = .version2
    | .claimed _, .printText _ _ | .logging _, .printText _ _ | .placed _, .printText _ _
    | .quoting _, .printText _ _ | .placed _, .shared (.loadCode _ _) | .quoting _, .shared (.loadCode _ _) => True
    | .claimed chunkNo, .shared (.newNode number) => number = chunkNo ∧ chunkNo < maxChunkNo string
    | .claimed chunkNo, .shared .exit => maxChunkNo string ≤ chunkNo
    | .filling chunkNo node count, .shared (.storeCode node' i code) =>
      node' = node ∧ i = count ∧ code = chunkCode string chunkNo count
    | .filling chunkNo _ count, .fetchAddArraySize =>
      version = .version2 ∧ ∀ i, count ≤ i → i < encodeChunkSize → chunkCode string chunkNo i = 0
    | .filling chunkNo _ count, .enterCritical =>
      version = .version3 ∧ ∀ i, count ≤ i → i < encodeChunkSize → chunkCode string chunkNo i = 0
    | .sizing _ _, .loadArraySize => True
    | .sized _ _ index, .storeArraySize size => size = index + 1
    | .placing _ node index, .storeResult i result => i = index ∧ result = node
    | .joining count, .shared (.join i) => i.val = count
    | .printing _ _, .printText _ _ | .printing _ _, .loadArraySize | .printing _ _, .shared (.print _ _) => True
    | .printing slots _, .qsort size => size = slots.length
    | .printing slots _, .loadResult i => i < slots.length
    | .printing slots _, .shared (.loadCode node i) => node ∈ slots.map Prod.fst ∧ i < encodeChunkSize
    | _, _ => False
  moves stage call answer stage' := match stage, call, answer with
    | .idle seen, .fetchAddChunkNo, chunkNo => seen ≤ chunkNo ∧ stage' = .claimed chunkNo
    | .idle seen, .enterCritical, _ => stage' = .entered seen
    | .entered seen, .shared .loadCurrentChunkNo, chunkNo => seen ≤ chunkNo ∧ stage' = .counting chunkNo
    | .counting chunkNo, .shared (.storeCurrentChunkNo _), _ => stage' = .counted chunkNo
    | .counted chunkNo, .leaveCritical, _ | .logging chunkNo, .leaveCritical, _ => stage' = .claimed chunkNo
    | .claimed chunkNo, .enterCritical, _ => stage' = .logging chunkNo
    | .claimed chunkNo, .shared (.newNode _), node => stage' = .filling chunkNo node 0
    | .claimed _, .shared .exit, _ => stage' = .ended
    | .filling chunkNo node count, .shared (.storeCode _ _ _), _ => stage' = .filling chunkNo node (count + 1)
    | .filling chunkNo node _, .fetchAddArraySize, index => stage' = .placing chunkNo node index
    | .filling chunkNo node _, .enterCritical, _ => stage' = .sizing chunkNo node
    | .sizing chunkNo node, .loadArraySize, index => stage' = .sized chunkNo node index
    | .sized chunkNo node index, .storeArraySize _, _ => stage' = .indexed chunkNo node index
    | .indexed chunkNo node index, .leaveCritical, _ => stage' = .placing chunkNo node index
    | .placing chunkNo _ _, .storeResult _ _, _ => stage' = .placed (chunkNo + 1)
    | .placed seen, .enterCritical, _ => stage' = .quoting seen
    | .placed seen, .shared (.unlock .write), _ | .quoting seen, .leaveCritical, _ => stage' = .idle seen
    | .joining count, .shared (.join _), _ =>
      if count + 1 = n then ∃ slots : Entries, (slots.map Prod.snd).Perm (List.range (maxChunkNo string)) ∧
        stage' = .printing slots fun _ => []
      else stage' = .joining (count + 1)
    | .printing slots written, .loadArraySize, answer =>
      answer = slots.length ∧ stage' = .printing slots written
    | .printing slots written, .loadResult i, answer =>
      answer = slots[i]?.map Prod.fst ∧ stage' = .printing slots written
    | .printing slots written, .shared (.loadCode node i), answer =>
      (∀ number, (node, number) ∈ slots → answer = chunkCode string number i) ∧ stage' = .printing slots written
    | .printing slots written, .shared (.print file code), _ =>
      stage' = .printing slots (Function.update written file (written file ++ [code]))
    | .printing slots written, .qsort _, _ => ∃ sorted : Entries, sorted.Perm slots ∧
      (maxChunkNo string < 2 ^ 31 → sorted.Pairwise (·.2 ≤ ·.2)) ∧ stage' = .printing sorted written
    | stage, _, _ => stage' = stage

section

variable {n : Nat} {version : Version} {string : List UInt8}

def Quoting : Call n → Prop
  | .printText _ _ | .shared (.loadCode _ _) => True
  | _ => False

theorem writeResult_quotes (version : Version) (file : OutFile) (string : List UInt8) (chunkNo result size : Nat) :
    (writeResult (n := n) version file string chunkNo result size).Calls Quoting := by
  refine calls_bind ((calls_request ..).mpr True.intro) fun _ => calls_bind (calls_forFrom (fun i _ => ?_) ..)
    fun _ => (calls_request ..).mpr True.intro
  exact calls_bind ((calls_request ..).mpr True.intro) fun code =>
    calls_bind ((calls_request ..).mpr True.intro) fun _ => True.intro

theorem quoting_follows {p : EncoderProgram n Unit} (quotes : p.Calls Quoting) {stage : Stage}
    (allowed : ∀ c, Quoting c → (slotOrder n version string).allowed stage c)
    (stays : ∀ c answer stage', Quoting c → (slotOrder n version string).moves stage c answer stage' →
      stage' = stage) : (slotOrder n version string).Follows (fun _ stage' => stage' = stage) p stage :=
  Protocol.follows_of_calls quotes allowed stays

theorem quoting_cases {motive : Call n → Prop} (print : ∀ file bytes, motive (.printText file bytes))
    (load : ∀ node i, motive (.shared (.loadCode node i))) (c : Call n) (quotes : Quoting c) : motive c := by
  cases c <;> try exact quotes.elim
  case printText file bytes => exact print file bytes
  case shared c =>
    cases c <;> try exact (quotes : False).elim
    case loadCode node i => exact load node i

theorem writeNewChunkLog_slots (notFirst : version ≠ .version1) (outputFile : Bool) (chunkNo : Nat) :
    (slotOrder n version string).Follows (fun _ stage => stage = .claimed chunkNo)
      (writeNewChunkLog version outputFile chunkNo) (.claimed chunkNo) := by
  cases version with
  | version1 => exact absurd rfl notFirst
  | version2 =>
    refine Protocol.follows_call rfl ?_
    rintro ⟨⟩ _ rfl
    refine Protocol.follows_call True.intro ?_
    rintro ⟨⟩ _ rfl
    cases outputFile with
    | false =>
      refine Protocol.follows_call rfl ?_
      rintro ⟨⟩ _ rfl
      exact rfl
    | true =>
      refine Protocol.follows_call True.intro ?_
      rintro ⟨⟩ _ rfl
      refine Protocol.follows_call rfl ?_
      rintro ⟨⟩ _ rfl
      exact rfl
  | version3 =>
    refine Protocol.follows_call rfl ?_
    rintro ⟨⟩ _ rfl
    refine Protocol.follows_call True.intro ?_
    rintro ⟨⟩ _ rfl
    cases outputFile with
    | false =>
      refine Protocol.follows_call rfl ?_
      rintro ⟨⟩ _ rfl
      exact rfl
    | true =>
      refine Protocol.follows_call True.intro ?_
      rintro ⟨⟩ _ rfl
      refine Protocol.follows_call rfl ?_
      rintro ⟨⟩ _ rfl
      exact rfl

theorem writeResultLog_slots (notFirst : version ≠ .version1) (outputFile : Bool) (chunkNo result size seen : Nat) :
    (slotOrder n version string).Follows (fun _ stage => stage = .idle seen)
      (writeResultLog version outputFile string chunkNo result size) (.placed seen) := by
  have body : ∀ stage, (∀ c, Quoting c → (slotOrder n version string).allowed stage c) →
      (∀ c answer stage', Quoting c → (slotOrder n version string).moves stage c answer stage' → stage' = stage) →
      (slotOrder n version string).Follows (fun _ stage' => stage' = stage) (do
        writeResult version .stdout string chunkNo result size
        if outputFile then writeResult version .outputFile string chunkNo result size) stage :=
    fun stage allowed stays => by
      refine quoting_follows ?_ allowed stays
      refine calls_bind (writeResult_quotes ..) fun _ => ?_
      cases outputFile with
      | false => exact True.intro
      | true => exact writeResult_quotes ..
  cases version with
  | version1 => exact absurd rfl notFirst
  | version2 =>
    refine Protocol.follows_call rfl ?_
    rintro ⟨⟩ _ rfl
    refine Protocol.follows_bind.mpr (Protocol.follows_mono ?_ (body (.placed seen)
      (quoting_cases (fun _ _ => True.intro) fun _ _ => True.intro)
      fun c answer stage' quotes => quoting_cases (motive := fun c => ∀ answer,
        (slotOrder n .version2 string).moves (.placed seen) c answer stage' → stage' = .placed seen)
        (fun _ _ _ moved => moved) (fun _ _ _ moved => moved) c quotes answer))
    rintro ⟨⟩ _ rfl
    refine Protocol.follows_call rfl ?_
    rintro ⟨⟩ _ rfl
    exact rfl
  | version3 =>
    refine Protocol.follows_call rfl ?_
    rintro ⟨⟩ _ rfl
    refine Protocol.follows_bind.mpr (Protocol.follows_mono ?_ (body (.quoting seen)
      (quoting_cases (fun _ _ => True.intro) fun _ _ => True.intro)
      fun c answer stage' quotes => quoting_cases (motive := fun c => ∀ answer,
        (slotOrder n .version3 string).moves (.quoting seen) c answer stage' → stage' = .quoting seen)
        (fun _ _ _ moved => moved) (fun _ _ _ moved => moved) c quotes answer))
    rintro ⟨⟩ _ rfl
    refine Protocol.follows_call rfl ?_
    rintro ⟨⟩ _ rfl
    exact rfl

theorem getNextChunkNo_slots (notFirst : version ≠ .version1) (seen : Nat) : (slotOrder n version string).Follows
    (fun chunkNo stage => seen ≤ chunkNo ∧ stage = .claimed chunkNo) (getNextChunkNo version) (.idle seen) := by
  cases version with
  | version1 => exact absurd rfl notFirst
  | version2 => exact ⟨rfl, fun _ _ moved => moved⟩
  | version3 =>
    refine Protocol.follows_call rfl ?_
    rintro ⟨⟩ _ rfl
    refine Protocol.follows_call True.intro ?_
    rintro chunkNo _ ⟨later, rfl⟩
    refine Protocol.follows_call rfl ?_
    rintro ⟨⟩ _ rfl
    refine Protocol.follows_call rfl ?_
    rintro ⟨⟩ _ rfl
    exact ⟨later, rfl⟩

theorem encodeChunk_slots (noTerminator : 0 ∉ string) (chunkNo node : Nat) : (slotOrder n version string).Follows
    (fun _ stage => ∃ count, stage = .filling chunkNo node count ∧
      ∀ i, count ≤ i → i < encodeChunkSize → chunkCode string chunkNo i = 0)
    (common (encodeChunk string chunkNo node)) (.filling chunkNo node 0) := by
  refine Protocol.follows_lift.mpr (Protocol.follows_bind.mpr (Protocol.follows_mono ?_
    (@Protocol.follows_forFrom _ _ _ _ _ _ (Stage.filling chunkNo node 0) _
      (fun i _ stage => stage = .filling chunkNo node i)
      (fun _ stage => ∃ count, stage = .filling chunkNo node count ∧
        ∀ i, count ≤ i → i < encodeChunkSize → chunkCode string chunkNo i = 0) _ 0 () ?_ rfl)))
  · rintro (_ | size) stage after
    · exact ⟨_, after, fun i behind inside => by omega⟩
    · exact after
  · rintro i ⟨⟩ _ - - rfl
    simp only
    split
    · rename_i ended
      exact ⟨i, rfl, fun j later _ => chunkCode_behind noTerminator later ended⟩
    · refine Protocol.follows_call ⟨rfl, rfl, rfl⟩ ?_
      rintro _ _ ⟨⟨⟩, -, rfl⟩
      exact rfl

theorem storeResult_slots (notFirst : version ≠ .version1) (rounds : Nat) {chunkNo node count : Nat}
    (filled : ∀ i, count ≤ i → i < encodeChunkSize → chunkCode string chunkNo i = 0) :
    (slotOrder n version string).Follows (fun _ stage => stage = .placed (chunkNo + 1))
      (storeResult version rounds node) (.filling chunkNo node count) := by
  cases version with
  | version1 => exact absurd rfl notFirst
  | version2 =>
    refine Protocol.follows_call ⟨rfl, filled⟩ ?_
    rintro index _ rfl
    refine ⟨⟨rfl, rfl⟩, ?_⟩
    rintro ⟨⟩ _ rfl
    exact rfl
  | version3 =>
    refine Protocol.follows_call ⟨rfl, filled⟩ ?_
    rintro ⟨⟩ _ rfl
    refine Protocol.follows_call True.intro ?_
    rintro index _ rfl
    refine Protocol.follows_call rfl ?_
    rintro ⟨⟩ _ rfl
    refine Protocol.follows_call rfl ?_
    rintro ⟨⟩ _ rfl
    refine ⟨⟨rfl, rfl⟩, ?_⟩
    rintro ⟨⟩ _ rfl
    exact rfl

theorem encoderRound_slots (notFirst : version ≠ .version1) (noTerminator : 0 ∉ string) (outputFile : Bool)
    (seen : Nat) : (slotOrder n version string).Follows
    (fun flow stage => match flow with
      | .next _ => ∃ later, seen < later ∧ later ≤ maxChunkNo string ∧ stage = .idle later
      | .exit _ => ∃ chunkNo, maxChunkNo string ≤ chunkNo ∧ stage = .claimed chunkNo)
    (encoderRound version string outputFile) (.idle seen) := by
  refine Protocol.follows_bind.mpr (Protocol.follows_mono ?_ (getNextChunkNo_slots notFirst seen))
  rintro chunkNo _ ⟨later, rfl⟩
  split
  · rename_i beyond
    exact ⟨chunkNo, Nat.le_of_not_lt beyond, rfl⟩
  · rename_i below
    have inside := Decidable.not_not.mp below
    refine Protocol.follows_bind.mpr (Protocol.follows_mono ?_ (writeNewChunkLog_slots notFirst outputFile chunkNo))
    rintro ⟨⟩ _ rfl
    refine Protocol.follows_call ⟨rfl, inside⟩ ?_
    rintro node _ rfl
    refine Protocol.follows_bind.mpr (Protocol.follows_mono ?_ (encodeChunk_slots noTerminator chunkNo node))
    rintro size _ ⟨count, rfl, filled⟩
    refine Protocol.follows_bind.mpr (Protocol.follows_mono ?_ (storeResult_slots notFirst _ filled))
    rintro ⟨⟩ _ rfl
    refine Protocol.follows_bind.mpr (Protocol.follows_mono ?_
      (writeResultLog_slots notFirst outputFile chunkNo node size (chunkNo + 1)))
    rintro ⟨⟩ _ rfl
    exact ⟨chunkNo + 1, Nat.lt_succ_of_le later, inside, rfl⟩

theorem encoder_slots (notFirst : version ≠ .version1) (noTerminator : 0 ∉ string) (outputFile : Bool) :
    (slotOrder n version string).Follows (fun _ stage => stage = .ended)
      (encoder version string outputFile) (.idle 0) := by
  refine Protocol.follows_bind.mpr (Protocol.follows_mono ?_
    (@Protocol.follows_forFrom _ _ _ _ _ (slotOrder n version string) (.idle 0) _
      (fun i _ stage => ∃ seen, i ≤ seen ∧ seen ≤ maxChunkNo string ∧ stage = .idle seen)
      (fun _ stage => ∃ chunkNo, maxChunkNo string ≤ chunkNo ∧ stage = .claimed chunkNo)
      (Ihw4.rounds string) 0 () ?_ ⟨0, Nat.le_refl _, Nat.zero_le _, rfl⟩))
  · rintro (_ | _) stage after
    · obtain ⟨seen, least, most, -⟩ := after
      unfold Ihw4.rounds at least
      omega
    · obtain ⟨chunkNo, beyond, rfl⟩ := after
      refine ⟨beyond, ?_⟩
      rintro ⟨⟩ _ rfl
      exact rfl
  · rintro i ⟨⟩ _ - - ⟨seen, least, -, rfl⟩
    refine Protocol.follows_mono ?_ (encoderRound_slots notFirst noTerminator outputFile seen)
    rintro (_ | _) stage after
    · obtain ⟨later, more, most, rfl⟩ := after
      exact ⟨later, Nat.lt_of_le_of_lt least more, most, rfl⟩
    · exact after

variable {slots : Entries} {written : OutFile → List Code}

theorem printChunk_slots (file : OutFile) {node number : Nat} (listed : (node, number) ∈ slots) :
    (slotOrder n version string).Follows (fun _ stage => stage = .printing slots
        (Function.update written file (written file ++ printedChunk string number)))
      (common (printChunk file node)) (.printing slots written) := by
  have inside : node ∈ slots.map Prod.fst := List.mem_map_of_mem listed
  refine Protocol.follows_lift.mpr (Protocol.follows_bind.mpr (Protocol.follows_mono ?_
    (@Protocol.follows_forFrom _ _ _ _ _ _ (Stage.printing slots written) _
      (fun i _ stage => (∀ j, j < i → chunkCode string number j ≠ noCode) ∧ stage = .printing slots
        (Function.update written file (written file ++ (List.range i).map (chunkCode string number))))
      (fun _ stage => stage = .printing slots
        (Function.update written file (written file ++ printedChunk string number)))
      encodeChunkSize 0 () ?_ ⟨by simp, by simp⟩)))
  · rintro (_ | _) stage after
    · obtain ⟨nonzero, rfl⟩ := after
      rw [Nat.zero_add] at nonzero ⊢
      rw [printedChunk, takeWhile_range (Nat.le_refl _) nonzero fun beyond => absurd beyond (Nat.lt_irrefl _)]
      exact rfl
    · exact after
  · rintro i ⟨⟩ _ - bound ⟨nonzero, rfl⟩
    rw [Nat.zero_add] at bound
    refine Protocol.follows_call ⟨inside, bound⟩ ?_
    rintro code _ ⟨_, rfl, known, rfl⟩
    rw [known number listed]
    split
    · rename_i ended
      rw [printedChunk, takeWhile_range (Nat.le_of_lt bound) nonzero fun _ => ended]
      exact rfl
    · rename_i present
      refine Protocol.follows_call ⟨inside, bound⟩ ?_
      rintro code _ ⟨_, rfl, known, rfl⟩
      rw [known number listed]
      refine Protocol.follows_call True.intro ?_
      rintro _ _ ⟨⟨⟩, -, rfl⟩
      refine ⟨fun j before => ?_, ?_⟩
      · rcases Nat.lt_succ_iff_lt_or_eq.mp before with earlier | rfl
        · exact nonzero j earlier
        · exact present
      · rw [Function.update_idem, Function.update_self, List.range_succ, List.map_append, List.append_assoc]
        rfl

theorem printResults_slots (file : OutFile) : (slotOrder n version string).Follows
    (fun _ stage => stage = .printing slots
      (Function.update written file (written file ++ slots.flatMap fun slot => printedChunk string slot.2)))
    (printResults slots.length file) (.printing slots written) := by
  refine Protocol.follows_bind.mpr (Protocol.follows_mono ?_
    (@Protocol.follows_forFrom _ _ _ _ Empty (slotOrder n version string) (.printing slots written) _
      (fun i _ stage => stage = .printing slots (Function.update written file
        (written file ++ (slots.take i).flatMap fun slot => printedChunk string slot.2)))
      (fun _ _ => True) slots.length 0 () ?_ (by simp)))
  · rintro (_ | impossible) stage after
    · rw [Nat.zero_add, List.take_length] at after
      exact after
    · exact impossible.elim
  · rintro i ⟨⟩ _ - bound rfl
    rw [Nat.zero_add] at bound
    refine Protocol.follows_call bound ?_
    rintro _ _ ⟨rfl, rfl⟩
    have known : slots[i]? = some slots[i] := List.getElem?_eq_getElem bound
    rw [known]
    have member : (slots[i].1, slots[i].2) ∈ slots := List.getElem_mem bound
    refine Protocol.follows_bind.mpr (Protocol.follows_mono ?_ (printChunk_slots file member))
    rintro ⟨⟩ _ rfl
    rw [Function.update_idem, Function.update_self, List.append_assoc, List.take_add_one, known,
      List.flatMap_append]
    simp

theorem printEncodingResults_slots {printCodes : OutFile → EncoderProgram n Unit}
    (each : ∀ file written, (slotOrder n version string).Follows
      (fun _ stage => stage = .printing slots
        (Function.update written file (written file ++ slots.flatMap fun slot => printedChunk string slot.2)))
      (printCodes file) (.printing slots written)) (files : List OutFile) :
    (slotOrder n version string).Follows
      (fun _ stage => ∃ written', stage = .printing slots written' ∧ ∀ file,
        written' file = written file ++ files.flatMap fun other =>
          if other = file then slots.flatMap fun slot => printedChunk string slot.2 else [])
      (printEncodingResults string printCodes files) (.printing slots written) := by
  induction files generalizing written with
  | nil => exact ⟨written, rfl, by simp⟩
  | cons first files ih =>
    refine Protocol.follows_call True.intro ?_
    rintro ⟨⟩ _ rfl
    refine Protocol.follows_bind.mpr (Protocol.follows_mono ?_ (each first written))
    rintro ⟨⟩ _ rfl
    refine Protocol.follows_call True.intro ?_
    rintro ⟨⟩ _ rfl
    refine Protocol.follows_mono ?_ ih
    rintro ⟨⟩ _ ⟨written', rfl, after⟩
    refine ⟨written', rfl, fun file => ?_⟩
    rw [after, List.flatMap_cons]
    by_cases same : first = file
    · subst same
      rw [Function.update_self, if_pos rfl, List.append_assoc]
    · rw [Function.update_of_ne (Ne.symm same), if_neg same, List.nil_append]

def Printed (string : List UInt8) (files : List OutFile) : Stage → Prop
  | .printing _ written => ∀ file, written file = files.flatMap fun other =>
      if other = file then printedCodes string else []
  | _ => False

theorem slots_sorted {sorted : Entries} (perm : sorted.Perm slots)
    (complete : (slots.map Prod.snd).Perm (List.range (maxChunkNo string)))
    (ordered : sorted.Pairwise (·.2 ≤ ·.2)) : sorted.map Prod.snd = List.range (maxChunkNo string) := by
  refine @List.Perm.eq_of_pairwise _ (· ≤ ·) _ _ ?_ (List.pairwise_map.mpr ordered) ?_
    ((perm.map Prod.snd).trans complete)
  · intro a b _ _ first second
    exact Nat.le_antisymm first second
  · exact List.pairwise_le_range

theorem printAll_slots (notFirst : version ≠ .version1) (few : maxChunkNo string < 2 ^ 31) (outputFile : Bool)
    (complete : (slots.map Prod.snd).Perm (List.range (maxChunkNo string))) : (slotOrder n version string).Follows
      (fun _ => Printed string (filesOf outputFile)) (printAll version string outputFile)
      (.printing slots fun _ => []) := by
  have printed : ∀ {sorted : Entries} {stage : Stage}, sorted.map Prod.snd = List.range (maxChunkNo string) →
      (∃ written', stage = .printing sorted written' ∧ ∀ file,
        written' file = [] ++ (filesOf outputFile).flatMap fun other =>
          if other = file then sorted.flatMap fun slot => printedChunk string slot.2 else []) →
      Printed string (filesOf outputFile) stage := fun ordered ⟨written', same, after⟩ => by
    subst same
    intro file
    rw [after, List.nil_append, printedCodes, ← ordered, List.flatMap_map]
  have sorts : ∀ (rest : EncoderProgram n Unit) post, (∀ sorted : Entries,
      sorted.map Prod.snd = List.range (maxChunkNo string) →
        (slotOrder n version string).Follows post rest (.printing sorted fun _ => [])) →
      (slotOrder n version string).Follows post (sortResults >>= fun _ => rest) (.printing slots fun _ => []) :=
    fun rest post follows => by
      refine Protocol.follows_bind.mpr (Protocol.follows_call True.intro ?_)
      rintro _ _ ⟨rfl, rfl⟩
      refine Protocol.follows_call rfl ?_
      rintro _ _ ⟨sorted, perm, ordered, rfl⟩
      exact follows sorted (slots_sorted perm complete (ordered few))
  cases version with
  | version1 => exact absurd rfl notFirst
  | version2 =>
    refine sorts _ _ fun sorted ordered => Protocol.follows_mono (fun _ _ => printed ordered)
      (printEncodingResults_slots (fun file written => ?_) (filesOf outputFile))
    refine Protocol.follows_call True.intro ?_
    rintro _ _ ⟨rfl, rfl⟩
    exact printResults_slots file
  | version3 =>
    refine sorts _ _ fun sorted ordered => Protocol.follows_call True.intro ?_
    rintro _ _ ⟨rfl, rfl⟩
    exact Protocol.follows_mono (fun _ _ => printed ordered)
      (printEncodingResults_slots (fun file written => printResults_slots file) (filesOf outputFile))

theorem joinThreads_slots {count : Nat} (bound : count ≤ n) (some : 0 < n) :
    (slotOrder n version string).Follows (fun _ stage =>
        if count = n then ∃ slots : Entries, (slots.map Prod.snd).Perm (List.range (maxChunkNo string)) ∧
          stage = .printing slots fun _ => []
        else stage = .joining count)
      (common (joinThreads n count)) (.joining 0) := by
  induction count with
  | zero =>
    refine Protocol.follows_pure.mpr ?_
    rw [if_neg (Nat.ne_of_lt some)]
  | succ count ih =>
    refine Protocol.follows_lift.mpr (Protocol.follows_bind.mpr (Protocol.follows_mono ?_
      (Protocol.follows_lift.mp (ih (Nat.le_of_succ_le bound)))))
    rintro ⟨⟩ stage before
    rw [if_neg (Nat.ne_of_lt bound)] at before
    subst before
    have inside : count < n := bound
    rw [dif_pos inside]
    refine ⟨rfl, ?_⟩
    rintro _ stage' ⟨⟨⟩, -, moved⟩
    exact moved

theorem main_slots (notFirst : version ≠ .version1) (few : maxChunkNo string < 2 ^ 31) (outputFile : Bool)
    (some : 0 < n) : (slotOrder n version string).Follows (fun _ => Printed string (filesOf outputFile))
      (main version string outputFile) (.joining 0) := by
  refine Protocol.follows_bind.mpr (Protocol.follows_mono ?_ (joinThreads_slots (Nat.le_refl n) some))
  rintro ⟨⟩ stage joined
  rw [if_pos rfl] at joined
  obtain ⟨slots, complete, rfl⟩ := joined
  exact printAll_slots notFirst few outputFile complete

end

end ArchCompSystems.Ihw4.Versions
