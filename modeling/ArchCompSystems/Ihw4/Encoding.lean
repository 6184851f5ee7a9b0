import ArchCompSystems.Ihw4.Program
import ArchCompSystems.Library.Protocol

namespace ArchCompSystems.Ihw4

open Library Library.Program

abbrev Entries := List (Nat × Nat)

/-- How far a thread has come. Inside of the section of `store_lock` it knows the list. -/
inductive Stage where
  | idle (seen : Nat)
  | counting (seen chunkNo : Nat)
  | counted (chunkNo : Nat)
  | claimed (chunkNo : Nat)
  | filling (chunkNo node count : Nat)
  | storing (chunkNo node : Nat) (links : Links) (entries : Entries)
  | ended
  | joining (count : Nat)
  | printing (links : Links) (entries : Entries) (written : OutFile → List Code)

namespace Stage

def chunk : Stage → Option Nat
  | .counted chunkNo | .claimed chunkNo | .filling chunkNo _ _ | .storing chunkNo _ _ _ => some chunkNo
  | _ => none

def node : Stage → Option Nat
  | .filling _ node _ | .storing _ node _ _ => some node
  | _ => none

def inStore : Stage → Bool
  | .storing _ _ _ _ => true
  | _ => false

end Stage

def chunkCode (string : List UInt8) (chunkNo i : Nat) : Code :=
  encodeChar (charAt string (chunkNo * encodeChunkSize + i))

/-- The list as a thread finds it that is about to store a node. -/
structure Entry (string : List UInt8) (chunkNo node : Nat) (links : Links) (entries : Entries) : Prop where
  represents : links.Represents (entries.map Prod.fst)
  sorted : entries.Pairwise (·.2 < ·.2)
  few : entries.length ≤ maxChunkNo string
  fresh : node ∉ entries.map Prod.fst
  unlinked : links.prev node = none
  missing : chunkNo ∉ entries.map Prod.snd

def callOrder (n : Nat) (string : List UInt8) : Protocol (Call n) Call.Answer Stage where
  allowed stage call := match stage, call with
    | .idle _, .lock .get => True
    | .counting _ _, .loadCurrentChunkNo => True
    | .counting _ chunkNo, .storeCurrentChunkNo next => next = chunkNo + 1
    | .counted _, .unlock .get => True
    | .claimed chunkNo, .newNode number => number = chunkNo ∧ chunkNo < maxChunkNo string
    | .claimed chunkNo, .exit => maxChunkNo string ≤ chunkNo
    | .idle _, .lock .write | .idle _, .unlock .write | .idle _, .log _ | .idle _, .loadCode _ _
    | .claimed _, .lock .write | .claimed _, .unlock .write | .claimed _, .log _ => True
    | .filling chunkNo node count, .storeCode node' i code =>
      node' = node ∧ i = count ∧ code = chunkCode string chunkNo count
    | .filling chunkNo _ count, .lock .store => ∀ i, count ≤ i → i < encodeChunkSize → chunkCode string chunkNo i = 0
    | .storing _ _ _ _, .loadHead | .storing _ _ _ _, .loadTail | .storing _ _ _ _, .loadNext _
    | .storing _ _ _ _, .loadPrev _ | .storing _ _ _ _, .loadChunkNo _ => True
    | .storing _ node _ entries, .storeNext a _ | .storing _ node _ entries, .storePrev a _ =>
      a = node ∨ a ∈ entries.map Prod.fst
    | .storing _ _ _ _, .storeHead _ | .storing _ _ _ _, .storeTail _ => True
    | .storing chunkNo node links entries, .unlock .store => ∃ inserted : Entries,
      inserted.Perm ((node, chunkNo) :: entries) ∧ inserted.Pairwise (·.2 < ·.2) ∧
        links.Represents (inserted.map Prod.fst)
    | .joining count, .join i => i.val = count
    | .printing _ _ _, .loadHead | .printing _ _ _, .loadNext _ | .printing _ _ _, .print _ _ => True
    | .printing _ entries _, .loadCode node i => node ∈ entries.map Prod.fst ∧ i < encodeChunkSize
    | _, _ => False
  moves stage call answer stage' := match stage, call, answer with
    | .idle seen, .lock .get, _ => ∃ chunkNo, seen ≤ chunkNo ∧ stage' = .counting seen chunkNo
    | .counting seen chunkNo, .loadCurrentChunkNo, answer =>
      answer = chunkNo ∧ stage' = .counting seen chunkNo
    | .counting _ chunkNo, .storeCurrentChunkNo _, _ => stage' = .counted chunkNo
    | .counted chunkNo, .unlock .get, _ => stage' = .claimed chunkNo
    | .claimed chunkNo, .newNode _, node => stage' = .filling chunkNo node 0
    | .claimed _, .exit, _ => stage' = .ended
    | .filling chunkNo node count, .storeCode _ _ _, _ => stage' = .filling chunkNo node (count + 1)
    | .filling chunkNo node _, .lock .store, _ => ∃ links entries,
      Entry string chunkNo node links entries ∧ stage' = .storing chunkNo node links entries
    | .storing chunkNo node links entries, .loadHead, answer =>
      answer = links.head ∧ stage' = .storing chunkNo node links entries
    | .storing chunkNo node links entries, .loadTail, answer =>
      answer = links.tail ∧ stage' = .storing chunkNo node links entries
    | .storing chunkNo node links entries, .loadNext a, answer =>
      answer = links.next a ∧ stage' = .storing chunkNo node links entries
    | .storing chunkNo node links entries, .loadPrev a, answer =>
      answer = links.prev a ∧ stage' = .storing chunkNo node links entries
    | .storing chunkNo node links entries, .loadChunkNo a, answer =>
      (∀ number, (a, number) ∈ (node, chunkNo) :: entries → answer = number) ∧
        stage' = .storing chunkNo node links entries
    | .storing chunkNo node links entries, .storeNext a target, _ =>
      stage' = .storing chunkNo node { links with next := Function.update links.next a target } entries
    | .storing chunkNo node links entries, .storePrev a target, _ =>
      stage' = .storing chunkNo node { links with prev := Function.update links.prev a target } entries
    | .storing chunkNo node links entries, .storeHead target, _ =>
      stage' = .storing chunkNo node { links with head := target } entries
    | .storing chunkNo node links entries, .storeTail target, _ =>
      stage' = .storing chunkNo node { links with tail := target } entries
    | .storing chunkNo _ _ _, .unlock .store, _ => stage' = .idle (chunkNo + 1)
    | .joining count, .join _, _ =>
      if count + 1 = n then ∃ links entries, links.Represents (entries.map Prod.fst) ∧
        entries.map Prod.snd = List.range (maxChunkNo string) ∧
          stage' = .printing links entries fun _ => []
      else stage' = .joining (count + 1)
    | .printing links entries written, .loadHead, answer =>
      answer = links.head ∧ stage' = .printing links entries written
    | .printing links entries written, .loadNext a, answer =>
      answer = links.next a ∧ stage' = .printing links entries written
    | .printing links entries written, .loadCode node i, answer =>
      (∀ number, (node, number) ∈ entries → answer = chunkCode string number i) ∧
        stage' = .printing links entries written
    | .printing links entries written, .print file code, _ =>
      stage' = .printing links entries (Function.update written file (written file ++ [code]))
    | stage, _, _ => stage' = stage

section

variable {n : Nat} {string : List UInt8}

theorem getNextChunkNo_follows (seen : Nat) : (callOrder n string).Follows
    (fun chunkNo stage => seen ≤ chunkNo ∧ stage = .claimed chunkNo) getNextChunkNo (.idle seen) := by
  refine Protocol.follows_call True.intro ?_
  rintro ⟨⟩ _ ⟨chunkNo, later, rfl⟩
  refine Protocol.follows_call True.intro ?_
  rintro _ _ ⟨rfl, rfl⟩
  refine Protocol.follows_call rfl ?_
  rintro ⟨⟩ _ rfl
  refine Protocol.follows_call True.intro ?_
  rintro ⟨⟩ _ rfl
  exact ⟨later, rfl⟩

theorem writeNewChunkLog_follows (chunkNo : Nat) : (callOrder n string).Follows
    (fun _ stage => stage = .claimed chunkNo) (writeNewChunkLog chunkNo) (.claimed chunkNo) := by
  refine Protocol.follows_call True.intro ?_
  rintro ⟨⟩ _ rfl
  refine Protocol.follows_call True.intro ?_
  rintro ⟨⟩ _ rfl
  refine Protocol.follows_call True.intro ?_
  rintro ⟨⟩ _ rfl
  refine ⟨True.intro, ?_⟩
  rintro ⟨⟩ _ rfl
  exact rfl

theorem writeResultLog_follows (result encodedSize seen : Nat) : (callOrder n string).Follows
    (fun _ stage => stage = .idle seen) (writeResultLog result encodedSize) (.idle seen) := by
  refine Protocol.follows_call True.intro ?_
  rintro ⟨⟩ _ rfl
  refine Protocol.follows_bind.mpr (Protocol.follows_mono ?_
    (@Protocol.follows_forFrom _ _ _ _ Empty (callOrder n string) (.idle seen) _
      (fun _ _ stage => stage = .idle seen) (fun _ _ => True) _ 0 () ?_ rfl))
  · rintro (_ | impossible) stage after
    · obtain rfl : stage = .idle seen := after
      refine ⟨True.intro, ?_⟩
      rintro ⟨⟩ _ rfl
      exact rfl
    · exact impossible.elim
  · rintro i ⟨⟩ _ - - rfl
    refine Protocol.follows_call True.intro ?_
    rintro code _ rfl
    refine Protocol.follows_call True.intro ?_
    rintro ⟨⟩ _ rfl
    exact rfl

theorem encodeChar_zero : encodeChar 0 = 0 := by decide

theorem length_le_of_charAt (noTerminator : 0 ∉ string) {position : Nat} (ended : charAt string position = 0) :
    string.length ≤ position := by
  by_contra inside
  have known := List.getElem?_eq_getElem (Nat.lt_of_not_le inside)
  rw [charAt, known, Option.getD_some] at ended
  exact noTerminator (ended ▸ List.getElem_mem _)

theorem chunkCode_behind (noTerminator : 0 ∉ string) {chunkNo i j : Nat} (later : i ≤ j)
    (ended : charAt string (chunkNo * encodeChunkSize + i) = 0) : chunkCode string chunkNo j = 0 := by
  have outside := length_le_of_charAt noTerminator ended
  rw [chunkCode, charAt, List.getElem?_eq_none (by omega), Option.getD_none, encodeChar_zero]

theorem encodeChunk_follows (noTerminator : 0 ∉ string) (chunkNo node : Nat) : (callOrder n string).Follows
    (fun _ stage => ∃ count, stage = .filling chunkNo node count ∧
      ∀ i, count ≤ i → i < encodeChunkSize → chunkCode string chunkNo i = 0)
    (encodeChunk string chunkNo node) (.filling chunkNo node 0) := by
  refine Protocol.follows_bind.mpr (Protocol.follows_mono ?_
    (@Protocol.follows_forFrom _ _ _ _ _ (callOrder n string) (.filling chunkNo node 0) _
      (fun i _ stage => stage = .filling chunkNo node i)
      (fun _ stage => ∃ count, stage = .filling chunkNo node count ∧
        ∀ i, count ≤ i → i < encodeChunkSize → chunkCode string chunkNo i = 0) _ 0 () ?_ rfl))
  · rintro (_ | size) stage after
    · exact ⟨_, after, fun i behind inside => by omega⟩
    · exact after
  · rintro i ⟨⟩ _ - - rfl
    simp only
    split
    · rename_i ended
      exact ⟨i, rfl, fun j later _ => chunkCode_behind noTerminator later ended⟩
    · refine Protocol.follows_call ⟨rfl, rfl, rfl⟩ ?_
      rintro ⟨⟩ _ rfl
      exact rfl

def Place (entries : Entries) (chunkNo : Nat) : Option Nat → Prop
  | some a => ∃ pre number post, entries = pre ++ (a, number) :: post ∧ number < chunkNo ∧
      ∀ entry ∈ post, chunkNo < entry.2
  | none => ∀ entry ∈ entries, chunkNo < entry.2

variable {chunkNo node : Nat} {links : Links} {entries : Entries}

theorem findPlace_follows {rounds : Nat} (entry : Entry string chunkNo node links entries)
    (enough : entries.length < rounds) : (callOrder n string).Follows
      (fun place stage => Place entries chunkNo place ∧ stage = .storing chunkNo node links entries)
      (findPlace rounds node) (.storing chunkNo node links entries) := by
  refine Protocol.follows_call True.intro ?_
  rintro _ _ ⟨rfl, rfl⟩
  refine Protocol.follows_bind.mpr (Protocol.follows_mono ?_
    (@Protocol.follows_forFrom _ _ _ _ _ (callOrder n string) (.storing chunkNo node links entries) _
      (fun i currentNode stage => stage = .storing chunkNo node links entries ∧
        ∃ pre post, entries = pre ++ post ∧ post.length = i ∧ (∀ entry ∈ post, chunkNo < entry.2) ∧
          Links.Segment links.prev currentNode (pre.map Prod.fst).reverse none)
      (fun place stage => Place entries chunkNo place ∧ stage = .storing chunkNo node links entries)
      rounds 0 links.tail ?_ ⟨rfl, entries, [], by simp, rfl, by simp, entry.represents.backward⟩))
  · rintro (currentNode | place) stage after
    · -- The list has fewer nodes than there are rounds.
      obtain ⟨-, pre, post, rfl, length, -⟩ := after
      rw [List.length_append] at enough
      omega
    · exact after
  · rintro i currentNode _ - - ⟨rfl, pre, post, rfl, rfl, behind, segment⟩
    rcases List.eq_nil_or_concat pre with rfl | ⟨pre, ⟨a, number⟩, rfl⟩
    · obtain rfl : currentNode = none := segment
      exact ⟨behind, rfl⟩
    · rw [List.concat_eq_append, List.map_append, List.reverse_append] at segment
      obtain ⟨rfl, rest⟩ := segment
      rw [List.concat_eq_append] at entry ⊢
      have listed : (a, number) ∈ pre ++ [(a, number)] ++ post := by simp
      refine Protocol.follows_call True.intro ?_
      rintro first _ ⟨known, rfl⟩
      rw [known number (List.mem_cons_of_mem _ listed)]
      refine Protocol.follows_call True.intro ?_
      rintro second _ ⟨known, rfl⟩
      rw [known chunkNo (List.mem_cons_self ..)]
      split
      · rename_i less
        exact ⟨⟨pre, number, post, by simp, less, behind⟩, rfl⟩
      · rename_i notLess
        refine Protocol.follows_call True.intro ?_
        rintro _ _ ⟨rfl, rfl⟩
        refine ⟨rfl, pre, (a, number) :: post, by simp, rfl, ?_, rest⟩
        intro other member
        rcases List.mem_cons.mp member with rfl | member
        · have stored : number ∈ (pre ++ [(a, number)] ++ post).map Prod.snd := List.mem_map_of_mem listed
          have missing : chunkNo ≠ number := (ne_of_mem_of_not_mem stored entry.missing).symm
          exact Nat.lt_of_le_of_ne (Nat.le_of_not_lt notLess) missing
        · exact behind other member

theorem insertBehind_follows {pre post : Entries} {a number : Nat}
    (listed : entries = pre ++ (a, number) :: post)
    (represents : links.Represents (entries.map Prod.fst)) : (callOrder n string).Follows
      (fun _ stage => stage = .storing chunkNo node (links.insertAfter a node) entries)
      (insertBehind a node) (.storing chunkNo node links entries) := by
  have inside : a ∈ entries.map Prod.fst := by simp [listed]
  refine Protocol.follows_call True.intro ?_
  rintro _ _ ⟨rfl, rfl⟩
  refine Protocol.follows_call (.inr inside) ?_
  rintro ⟨⟩ _ rfl
  refine Protocol.follows_call (.inl rfl) ?_
  rintro ⟨⟩ _ rfl
  refine Protocol.follows_call (.inl rfl) ?_
  rintro ⟨⟩ _ rfl
  rw [listed, List.map_append] at represents
  have following := represents.split.2.1
  unfold Links.insertAfter
  cases next : links.next a with
  | none =>
    refine ⟨True.intro, ?_⟩
    rintro ⟨⟩ _ rfl
    rfl
  | some b =>
    refine ⟨.inr ?_, ?_⟩
    · cases post with
      | nil => rw [next] at following; cases following
      | cons entry post =>
        rw [next] at following
        obtain ⟨⟨⟩, -⟩ := following
        simp [listed]
    · rintro ⟨⟩ _ rfl
      rfl

theorem insertAtHead_follows (represents : links.Represents (entries.map Prod.fst)) :
    (callOrder n string).Follows
      (fun _ stage => stage = .storing chunkNo node (links.insertFront node) entries)
      (insertAtHead node) (.storing chunkNo node links entries) := by
  refine Protocol.follows_call True.intro ?_
  rintro _ _ ⟨rfl, rfl⟩
  refine Protocol.follows_call True.intro ?_
  rintro ⟨⟩ _ rfl
  refine Protocol.follows_call (.inl rfl) ?_
  rintro ⟨⟩ _ rfl
  have following := represents.forward
  unfold Links.insertFront
  cases next : links.head with
  | none =>
    refine ⟨True.intro, ?_⟩
    rintro ⟨⟩ _ rfl
    rfl
  | some b =>
    refine ⟨.inr ?_, ?_⟩
    · cases entries with
      | nil => rw [next] at following; cases following
      | cons entry entries =>
        rw [next] at following
        obtain ⟨⟨⟩, -⟩ := following
        simp
    · rintro ⟨⟩ _ rfl
      rfl

def insertLinks (links : Links) (place : Option Nat) (node : Nat) : Links :=
  match place with
  | some a => links.insertAfter a node
  | none => links.insertFront node

theorem insertAt_follows {place : Option Nat} (entry : Entry string chunkNo node links entries)
    (found : Place entries chunkNo place) : (callOrder n string).Follows
      (fun _ stage => stage = .storing chunkNo node (insertLinks links place node) entries)
      (insertAt place node) (.storing chunkNo node links entries) := by
  cases place with
  | none => exact insertAtHead_follows entry.represents
  | some a =>
    obtain ⟨pre, number, post, rfl, -, -⟩ := found
    exact insertBehind_follows rfl entry.represents

theorem Entry.insert {place : Option Nat} (entry : Entry string chunkNo node links entries)
    (found : Place entries chunkNo place) : ∃ inserted : Entries, inserted.Perm ((node, chunkNo) :: entries) ∧
      inserted.Pairwise (·.2 < ·.2) ∧ (insertLinks links place node).Represents (inserted.map Prod.fst) := by
  cases place with
  | none =>
    refine ⟨(node, chunkNo) :: entries, List.Perm.refl _, ?_, ?_⟩
    · exact List.pairwise_cons.mpr ⟨found, entry.sorted⟩
    · exact entry.represents.insertFront entry.fresh entry.unlinked
  | some a =>
    obtain ⟨pre, number, post, rfl, less, behind⟩ := found
    have sorted := List.pairwise_append.mp entry.sorted
    have rest := List.pairwise_cons.mp sorted.2.1
    refine ⟨pre ++ (a, number) :: (node, chunkNo) :: post, ?_, ?_, ?_⟩
    · rw [show pre ++ (a, number) :: (node, chunkNo) :: post =
        (pre ++ [(a, number)]) ++ (node, chunkNo) :: post by simp,
        show pre ++ (a, number) :: post = (pre ++ [(a, number)]) ++ post by simp]
      exact List.perm_middle
    · refine List.pairwise_append.mpr ⟨sorted.1, List.pairwise_cons.mpr ⟨?_,
        List.pairwise_cons.mpr ⟨behind, rest.2⟩⟩, ?_⟩
      · intro other member
        rcases List.mem_cons.mp member with rfl | member
        · exact less
        · exact rest.1 other member
      · intro first member other later
        have before := sorted.2.2 first member
        rcases List.mem_cons.mp later with rfl | later
        · exact before _ (List.mem_cons_self ..)
        · rcases List.mem_cons.mp later with rfl | later
          · exact Nat.lt_trans (before _ (List.mem_cons_self ..)) less
          · exact before other (List.mem_cons_of_mem _ later)
    · have represents := entry.represents
      have fresh := entry.fresh
      simp only [List.map_append, List.map_cons] at represents fresh ⊢
      exact represents.insertAfter fresh

theorem storeResult_follows {count : Nat}
    (filled : ∀ i, count ≤ i → i < encodeChunkSize → chunkCode string chunkNo i = 0) :
    (callOrder n string).Follows (fun _ stage => stage = .idle (chunkNo + 1))
      (storeResult (Ihw4.rounds string) node) (.filling chunkNo node count) := by
  refine Protocol.follows_call filled ?_
  rintro ⟨⟩ _ ⟨links, entries, entry, rfl⟩
  have enough : entries.length < Ihw4.rounds string := Nat.lt_succ_of_le entry.few
  refine Protocol.follows_bind.mpr (Protocol.follows_mono ?_ (findPlace_follows entry enough))
  rintro place _ ⟨found, rfl⟩
  refine Protocol.follows_bind.mpr (Protocol.follows_mono ?_ (insertAt_follows entry found))
  rintro ⟨⟩ _ rfl
  refine ⟨entry.insert found, ?_⟩
  rintro ⟨⟩ _ rfl
  exact rfl

theorem encoderRound_follows (noTerminator : 0 ∉ string) (seen : Nat) : (callOrder n string).Follows
    (fun flow stage => match flow with
      | .next _ => ∃ later, seen < later ∧ later ≤ maxChunkNo string ∧ stage = .idle later
      | .exit _ => ∃ chunkNo, maxChunkNo string ≤ chunkNo ∧ stage = .claimed chunkNo)
    (encoderRound string) (.idle seen) := by
  refine Protocol.follows_bind.mpr (Protocol.follows_mono ?_ (getNextChunkNo_follows seen))
  rintro chunkNo _ ⟨later, rfl⟩
  split
  · rename_i beyond
    exact ⟨chunkNo, Nat.le_of_not_lt beyond, rfl⟩
  · rename_i inside
    refine Protocol.follows_bind.mpr (Protocol.follows_mono ?_ (writeNewChunkLog_follows chunkNo))
    rintro ⟨⟩ _ rfl
    refine Protocol.follows_call ⟨rfl, Decidable.not_not.mp inside⟩ ?_
    rintro node _ rfl
    refine Protocol.follows_bind.mpr (Protocol.follows_mono ?_ (encodeChunk_follows noTerminator chunkNo node))
    rintro encodedSize _ ⟨count, rfl, filled⟩
    refine Protocol.follows_bind.mpr (Protocol.follows_mono ?_ (storeResult_follows filled))
    rintro ⟨⟩ _ rfl
    refine Protocol.follows_bind.mpr (Protocol.follows_mono ?_ (writeResultLog_follows _ _ _))
    rintro ⟨⟩ _ rfl
    exact ⟨chunkNo + 1, Nat.lt_succ_of_le later, Decidable.not_not.mp inside, rfl⟩

theorem encoder_follows (noTerminator : 0 ∉ string) :
    (callOrder n string).Follows (fun _ stage => stage = .ended) (encoder string) (.idle 0) := by
  refine Protocol.follows_bind.mpr (Protocol.follows_mono ?_
    (@Protocol.follows_forFrom _ _ _ _ _ (callOrder n string) (.idle 0) _
      (fun i _ stage => ∃ seen, i ≤ seen ∧ seen ≤ maxChunkNo string ∧ stage = .idle seen)
      (fun _ stage => ∃ chunkNo, maxChunkNo string ≤ chunkNo ∧ stage = .claimed chunkNo)
      (Ihw4.rounds string) 0 () ?_ ⟨0, Nat.le_refl _, Nat.zero_le _, rfl⟩))
  · rintro (_ | _) stage after
    · obtain ⟨seen, least, most, -⟩ := after
      unfold Ihw4.rounds at least
      omega
    · obtain ⟨chunkNo, beyond, rfl⟩ := after
      refine ⟨beyond, ?_⟩
      rintro ⟨⟩ _ rfl
      exact rfl
  · rintro i ⟨⟩ _ - - ⟨seen, least, -, rfl⟩
    refine Protocol.follows_mono ?_ (encoderRound_follows noTerminator seen)
    rintro (_ | _) stage after
    · obtain ⟨later, more, most, rfl⟩ := after
      exact ⟨later, Nat.lt_of_le_of_lt least more, most, rfl⟩
    · exact after

def printedChunk (string : List UInt8) (chunkNo : Nat) : List Code :=
  ((List.range encodeChunkSize).map (chunkCode string chunkNo)).takeWhile (· ≠ noCode)

def printedCodes (string : List UInt8) : List Code :=
  (List.range (maxChunkNo string)).flatMap (printedChunk string)

def Printed (string : List UInt8) (files : List OutFile) : Stage → Prop
  | .printing _ _ written => ∀ file, written file = files.flatMap fun other =>
      if other = file then printedCodes string else []
  | _ => False

variable {written : OutFile → List Code}

theorem takeWhile_range {code : Nat → Code} {size i : Nat} (bound : i ≤ size)
    (nonzero : ∀ j, j < i → code j ≠ noCode) (ended : i < size → code i = noCode) :
    ((List.range size).map code).takeWhile (· ≠ noCode) = (List.range i).map code := by
  obtain ⟨rest, rfl⟩ := Nat.exists_eq_add_of_le bound
  have front : ∀ c ∈ (List.range i).map code, decide (c ≠ noCode) = true := by
    intro c member
    obtain ⟨j, inside, rfl⟩ := List.mem_map.mp member
    exact decide_eq_true (nonzero j (List.mem_range.mp inside))
  rw [List.range_add, List.map_append, List.takeWhile_append_of_pos front]
  cases rest with
  | zero => simp
  | succ rest =>
    rw [List.range_succ_eq_map, List.map_cons, List.map_cons, Nat.add_zero, ended (by omega)]
    simp

theorem printChunk_follows (file : OutFile) {number : Nat} (listed : (node, number) ∈ entries) :
    (callOrder n string).Follows (fun _ stage => stage = .printing links entries
        (Function.update written file (written file ++ printedChunk string number)))
      (printChunk file node) (.printing links entries written) := by
  have inside : node ∈ entries.map Prod.fst := List.mem_map_of_mem listed
  refine Protocol.follows_bind.mpr (Protocol.follows_mono ?_
    (@Protocol.follows_forFrom _ _ _ _ _ (callOrder n string) (.printing links entries written) _
      (fun i _ stage => (∀ j, j < i → chunkCode string number j ≠ noCode) ∧
        stage = .printing links entries
          (Function.update written file (written file ++ (List.range i).map (chunkCode string number))))
      (fun _ stage => stage = .printing links entries
        (Function.update written file (written file ++ printedChunk string number)))
      encodeChunkSize 0 () ?_ ⟨by simp, by simp⟩))
  · rintro (_ | _) stage after
    · obtain ⟨nonzero, rfl⟩ := after
      rw [Nat.zero_add] at nonzero ⊢
      rw [printedChunk, takeWhile_range (Nat.le_refl _) nonzero fun beyond => absurd beyond (Nat.lt_irrefl _)]
      exact rfl
    · exact after
  · rintro i ⟨⟩ _ - bound ⟨nonzero, rfl⟩
    rw [Nat.zero_add] at bound
    refine Protocol.follows_call ⟨inside, bound⟩ ?_
    rintro code _ ⟨known, rfl⟩
    rw [known number listed]
    split
    · rename_i ended
      rw [printedChunk, takeWhile_range (Nat.le_of_lt bound) nonzero fun _ => ended]
      exact rfl
    · rename_i present
      refine Protocol.follows_call ⟨inside, bound⟩ ?_
      rintro code _ ⟨known, rfl⟩
      rw [known number listed]
      refine Protocol.follows_call True.intro ?_
      rintro ⟨⟩ _ rfl
      refine ⟨fun j before => ?_, ?_⟩
      · rcases Nat.lt_succ_iff_lt_or_eq.mp before with earlier | rfl
        · exact nonzero j earlier
        · exact present
      · rw [Function.update_idem, Function.update_self, List.range_succ, List.map_append, List.append_assoc]
        rfl

theorem printTo_follows (file : OutFile) (represents : links.Represents (entries.map Prod.fst))
    {rounds : Nat} (enough : entries.length < rounds) : (callOrder n string).Follows
      (fun _ stage => stage = .printing links entries
        (Function.update written file (written file ++ entries.flatMap fun entry => printedChunk string entry.2)))
      (printTo rounds file) (.printing links entries written) := by
  refine Protocol.follows_call True.intro ?_
  rintro _ _ ⟨rfl, rfl⟩
  refine Protocol.follows_bind.mpr (Protocol.follows_mono ?_
    (@Protocol.follows_forFrom _ _ _ _ _ (callOrder n string) (.printing links entries written) _
      (fun i current stage => ∃ pre post, entries = pre ++ post ∧ pre.length = i ∧
        Links.Segment links.next current (post.map Prod.fst) none ∧ stage = .printing links entries
          (Function.update written file
            (written file ++ pre.flatMap fun entry => printedChunk string entry.2)))
      (fun _ stage => stage = .printing links entries (Function.update written file
        (written file ++ entries.flatMap fun entry => printedChunk string entry.2)))
      rounds 0 links.head ?_ ⟨[], entries, rfl, rfl, represents.forward, by simp⟩))
  · rintro (_ | _) stage after
    · obtain ⟨pre, post, rfl, length, -⟩ := after
      rw [List.length_append] at enough
      omega
    · exact after
  · rintro i current _ - - ⟨pre, post, listed, rfl, segment, rfl⟩
    cases post with
    | nil =>
      obtain rfl : current = none := segment
      rw [List.append_nil] at listed
      rw [listed]
      exact rfl
    | cons entry post =>
      obtain ⟨rfl, rest⟩ := segment
      have member : (entry.1, entry.2) ∈ entries := by simp [listed]
      refine Protocol.follows_bind.mpr (Protocol.follows_mono ?_ (printChunk_follows file member))
      rintro ⟨⟩ _ rfl
      refine Protocol.follows_call True.intro ?_
      rintro _ _ ⟨rfl, rfl⟩
      refine ⟨pre ++ [entry], post, by simp [listed], by simp, rest, ?_⟩
      rw [Function.update_idem, Function.update_self, List.flatMap_append, List.append_assoc]
      simp

theorem printEncodingResults_follows (files : List OutFile)
    (represents : links.Represents (entries.map Prod.fst))
    (complete : entries.map Prod.snd = List.range (maxChunkNo string)) : (callOrder n string).Follows
      (fun _ stage => ∃ written', stage = .printing links entries written' ∧ ∀ file,
        written' file = written file ++ files.flatMap fun other =>
          if other = file then printedCodes string else [])
      (printEncodingResults (Ihw4.rounds string) files) (.printing links entries written) := by
  have length : entries.length = maxChunkNo string := by
    rw [← List.length_map (f := Prod.snd), complete, List.length_range]
  have codes : (entries.flatMap fun entry => printedChunk string entry.2) = printedCodes string := by
    rw [printedCodes, ← complete, List.flatMap_map]
  induction files generalizing written with
  | nil => exact ⟨written, rfl, by simp⟩
  | cons first files ih =>
    refine Protocol.follows_bind.mpr (Protocol.follows_mono ?_ (printTo_follows first represents
      (length ▸ Nat.lt_succ_self _)))
    rintro ⟨⟩ _ rfl
    refine Protocol.follows_mono ?_ ih
    rintro ⟨⟩ _ ⟨written', rfl, after⟩
    refine ⟨written', rfl, fun file => ?_⟩
    rw [after, codes, List.flatMap_cons]
    by_cases same : first = file
    · subst same
      rw [Function.update_self, if_pos rfl, List.append_assoc]
    · rw [Function.update_of_ne (Ne.symm same), if_neg same, List.nil_append]

theorem joinThreads_follows {count : Nat} (bound : count ≤ n) (some : 0 < n) :
    (callOrder n string).Follows (fun _ stage =>
        if count = n then ∃ links entries, links.Represents (entries.map Prod.fst) ∧
          entries.map Prod.snd = List.range (maxChunkNo string) ∧
          stage = .printing links entries fun _ => []
        else stage = .joining count)
      (joinThreads n count) (.joining 0) := by
  induction count with
  | zero =>
    refine Protocol.follows_pure.mpr ?_
    rw [if_neg (Nat.ne_of_lt some)]
  | succ count ih =>
    refine Protocol.follows_bind.mpr (Protocol.follows_mono ?_ (ih (Nat.le_of_succ_le bound)))
    rintro ⟨⟩ stage before
    rw [if_neg (Nat.ne_of_lt bound)] at before
    subst before
    have inside : count < n := bound
    rw [dif_pos inside]
    refine ⟨rfl, ?_⟩
    rintro ⟨⟩ stage' moved
    exact moved

theorem main_follows (outputFile : Bool) (some : 0 < n) : (callOrder n string).Follows
    (fun _ => Printed string (filesOf outputFile)) (main string outputFile) (.joining 0) := by
  refine Protocol.follows_bind.mpr (Protocol.follows_mono ?_ (joinThreads_follows (Nat.le_refl n) some))
  rintro ⟨⟩ stage joined
  rw [if_pos rfl] at joined
  obtain ⟨links, entries, represents, complete, rfl⟩ := joined
  refine Protocol.follows_mono ?_ (printEncodingResults_follows (filesOf outputFile) represents complete)
  rintro ⟨⟩ _ ⟨written', rfl, after⟩
  exact after

end

end ArchCompSystems.Ihw4
