import ArchCompSystems.Ihw4.Encoding

namespace ArchCompSystems.Ihw4

open Library Library.Program

section

variable {n : Nat} {s : State n} {t : Thread n} {nodes : List Nat} {node rounds : Nat}

/-- The list of the package, in the order of the chunk numbers, and from its tail in reverse. -/
structure SortedList (s : State n) (nodes : List Nat) : Prop where
  represents : s.links.Represents nodes
  sorted : nodes.Pairwise fun a b => s.chunkNo a < s.chunkNo b

/-- What `store_result` relies on. -/
structure Storable (s : State n) (nodes : List Nat) (node : Nat) : Prop where
  list : SortedList s nodes
  free : s.owner .store = none
  missing : s.chunkNo node ∉ nodes.map s.chunkNo
  next : s.links.next node = none
  prev : s.links.prev node = none

/-- What it leaves: one node more in the list, and everything but links as it was. -/
structure StoredIn (s : State n) (nodes : List Nat) (node : Nat) (s' : State n) : Prop where
  same : ∃ links, s' = { s with links := links }
  list : ∃ nodes', SortedList s' nodes' ∧ nodes'.Perm (node :: nodes)
  others : ∀ b, b ∉ node :: nodes → s'.links.next b = s.links.next b ∧ s'.links.prev b = s.links.prev b

def entriesOf (s : State n) (nodes : List Nat) : Entries := nodes.map fun a => (a, s.chunkNo a)

theorem map_fst_entriesOf : (entriesOf s nodes).map Prod.fst = nodes := by
  rw [entriesOf, List.map_map]
  exact List.map_id nodes

theorem Storable.entry (storable : Storable s nodes node) :
    Entry (List.replicate (nodes.length * encodeChunkSize) 1) (s.chunkNo node) node s.links (entriesOf s nodes) where
  represents := by
    rw [map_fst_entriesOf]
    exact storable.list.represents
  sorted := List.pairwise_map.mpr storable.list.sorted
  few := by
    rw [entriesOf, List.length_map, maxChunkNo, List.length_replicate, encodeChunkSize]
    omega
  fresh := by
    rw [map_fst_entriesOf]
    exact fun member => storable.missing (List.mem_map_of_mem member)
  unlinked := storable.prev
  missing := by
    rw [entriesOf, List.map_map]
    exact storable.missing

def Linking : Call n → Prop
  | .loadHead | .loadTail | .loadNext _ | .loadPrev _ | .loadChunkNo _ | .storeNext _ _ | .storePrev _ _
  | .storeHead _ | .storeTail _ | .goesOn => True
  | _ => False

theorem findPlace_links : (findPlace rounds node : EncoderProgram n (Option Nat)).Calls Linking := by
  refine calls_bind ((calls_request Linking .loadTail).mpr True.intro) fun tail => ?_
  refine calls_bind (calls_forFrom (fun _ current => ?_) ..) fun flow => ?_
  · cases current with
    | none => exact True.intro
    | some a =>
      refine calls_bind ((calls_request Linking (.loadChunkNo a)).mpr True.intro) fun first => ?_
      refine calls_bind ((calls_request Linking (.loadChunkNo node)).mpr True.intro) fun second => ?_
      split
      · exact True.intro
      · exact ⟨True.intro, fun _ => True.intro⟩
  · cases flow with
    | next _ => exact ⟨True.intro, fun answer => nomatch answer⟩
    | exit place => exact True.intro

theorem insertAt_links (place : Option Nat) : (insertAt place node : EncoderProgram n Unit).Calls Linking := by
  cases place with
  | none =>
    refine ⟨True.intro, fun head => ⟨True.intro, fun _ => ⟨True.intro, fun _ => ?_⟩⟩⟩
    cases head <;> exact ⟨True.intro, fun _ => True.intro⟩
  | some a =>
    refine ⟨True.intro, fun next => ⟨True.intro, fun _ => ⟨True.intro, fun _ => ⟨True.intro, fun _ => ?_⟩⟩⟩⟩
    cases next <;> exact ⟨True.intro, fun _ => True.intro⟩

def Pictures (s : State n) (t : Thread n) (nodes : List Nat) (node : Nat) (now : State n) (stage : Stage) : Prop :=
  ∃ links, stage = .storing (s.chunkNo node) node links (entriesOf s nodes) ∧
    now = { s with owner := Function.update s.owner .store (some t), links := links } ∧
    ∀ b, b ∉ node :: nodes → links.next b = s.links.next b ∧ links.prev b = s.links.prev b

theorem pictures_call {string : List UInt8} {now : State n} {stage : Stage} {c : Call n}
    (pictures : Pictures s t nodes node now stage) (allowed : (callOrder n string).allowed stage c)
    (linking : Linking c) : ∃ answer now' stage', (machine n).perform t c answer now = some now' ∧
      (∀ other after, (machine n).perform t c other now = some after → other = answer) ∧
      (callOrder n string).moves stage c answer stage' ∧ Pictures s t nodes node now' stage' := by
  obtain ⟨links, rfl, rfl, others⟩ := pictures
  have numbers : ∀ a number, (a, number) ∈ (node, s.chunkNo node) :: entriesOf s nodes → s.chunkNo a = number := by
    intro a number member
    rcases List.mem_cons.mp member with same | member
    · obtain ⟨⟩ := same
      rfl
    · obtain ⟨b, -, same⟩ := List.mem_map.mp member
      obtain ⟨⟩ := same
      rfl
  have outside : ∀ {a b : Nat}, a = node ∨ a ∈ (entriesOf s nodes).map Prod.fst → b ∉ node :: nodes → b ≠ a := by
    rintro a b inside notIn rfl
    rw [map_fst_entriesOf] at inside
    exact notIn (List.mem_cons.mpr inside)
  cases c <;> try exact (linking : False).elim
  case loadHead => exact ⟨_, _, _, if_pos rfl, fun _ _ read => (Option.ite_none_right_eq_some.mp read).1,
    ⟨rfl, rfl⟩, links, rfl, rfl, others⟩
  case loadTail => exact ⟨_, _, _, if_pos rfl, fun _ _ read => (Option.ite_none_right_eq_some.mp read).1,
    ⟨rfl, rfl⟩, links, rfl, rfl, others⟩
  case loadNext a => exact ⟨_, _, _, if_pos rfl, fun _ _ read => (Option.ite_none_right_eq_some.mp read).1,
    ⟨rfl, rfl⟩, links, rfl, rfl, others⟩
  case loadPrev a => exact ⟨_, _, _, if_pos rfl, fun _ _ read => (Option.ite_none_right_eq_some.mp read).1,
    ⟨rfl, rfl⟩, links, rfl, rfl, others⟩
  case loadChunkNo a => exact ⟨_, _, _, if_pos rfl, fun _ _ read => (Option.ite_none_right_eq_some.mp read).1,
    ⟨numbers a, rfl⟩, links, rfl, rfl, others⟩
  case storeNext a target =>
    refine ⟨(), _, _, rfl, fun _ _ _ => rfl, rfl, _, rfl, rfl, fun b notIn => ⟨?_, (others b notIn).2⟩⟩
    exact (Function.update_of_ne (outside allowed notIn) ..).trans (others b notIn).1
  case storePrev a target =>
    refine ⟨(), _, _, rfl, fun _ _ _ => rfl, rfl, _, rfl, rfl, fun b notIn => ⟨(others b notIn).1, ?_⟩⟩
    exact (Function.update_of_ne (outside allowed notIn) ..).trans (others b notIn).2
  case storeHead target => exact ⟨(), _, _, rfl, fun _ _ _ => rfl, rfl, _, rfl, rfl, others⟩
  case storeTail target => exact ⟨(), _, _, rfl, fun _ _ _ => rfl, rfl, _, rfl, rfl, others⟩
  case goesOn => exact (allowed : False).elim

theorem surely_linking {α : Type} {string : List UInt8} {p : EncoderProgram n α} {post : α → Stage → Prop}
    {now : State n} {stage : Stage} (calls : p.Calls Linking) (follows : (callOrder n string).Follows post p stage)
    (pictures : Pictures s t nodes node now stage) :
    (machine n).Surely t p (fun value now' => ∃ stage', post value stage' ∧ Pictures s t nodes node now' stage') now :=
  Protocol.surely_of_follows (fun _ _ _ pictures allowed linking => pictures_call pictures allowed linking)
    calls follows pictures

theorem storeResult_stores (storable : Storable s nodes node) (enough : nodes.length < rounds) :
    (machine n).Surely t (storeResult rounds node) (fun _ s' => StoredIn s nodes node s') s := by
  have entry := storable.entry
  have locked : (machine n).perform t (.lock .store) () s =
      some { s with owner := Function.update s.owner .store (some t) } := if_pos storable.free
  refine Machine.surely_bind.mpr ⟨(), _, locked, fun _ _ _ => rfl, Machine.surely_bind.mpr (Machine.surely_mono ?_
    (surely_linking findPlace_links (findPlace_follows entry (by rwa [entriesOf, List.length_map]))
      ⟨s.links, rfl, rfl, fun _ _ => ⟨rfl, rfl⟩⟩))⟩
  rintro place now ⟨stage, ⟨found, rfl⟩, pictures⟩
  refine Machine.surely_bind.mpr (Machine.surely_mono ?_ (surely_linking (insertAt_links place)
    (insertAt_follows entry found) pictures))
  rintro ⟨⟩ now ⟨_, rfl, links, same, rfl, others⟩
  obtain ⟨-, -, rfl, -⟩ := Stage.storing.inj same
  obtain ⟨inserted, perm, sorted, represents⟩ := entry.insert found
  refine ⟨(), _, rfl, fun _ _ _ => rfl, ?_⟩
  have owner : Function.update (Function.update s.owner .store (some t)) .store none = s.owner := by
    rw [Function.update_idem, ← storable.free, Function.update_eq_self]
  simp only [owner]
  refine ⟨⟨_, rfl⟩, ⟨inserted.map Prod.fst, ⟨represents, ?_⟩, ?_⟩, others⟩
  · have numbered : ∀ entry ∈ inserted, s.chunkNo entry.1 = entry.2 := by
      intro entry member
      rcases List.mem_cons.mp (perm.mem_iff.mp member) with rfl | member
      · rfl
      · obtain ⟨b, -, rfl⟩ := List.mem_map.mp member
        rfl
    refine List.pairwise_map.mpr (sorted.imp_of_mem fun {a b} first second less => ?_)
    simp only [numbered a first, numbered b second]
    exact less
  · have nodesPerm := perm.map Prod.fst
    rwa [List.map_cons, map_fst_entriesOf] at nodesPerm

/-- The threads' calls in the order in which they get the lock. -/
def SurelyStored (rounds : Nat) : List (Thread n × Nat) → (State n → Prop) → State n → Prop
  | [], post, s => post s
  | (t, node) :: calls, post, s =>
    (machine n).Surely t (storeResult rounds node) (fun _ s' => SurelyStored rounds calls post s') s

theorem surelyStored_mono {calls : List (Thread n × Nat)} {post weaker : State n → Prop}
    (implies : ∀ s', post s' → weaker s') (stored : SurelyStored rounds calls post s) :
    SurelyStored rounds calls weaker s := by
  induction calls generalizing s with
  | nil => exact implies s stored
  | cons call calls ih => exact Machine.surely_mono (fun _ _ later => ih later) stored

/-- Whatever calls come in whatever order, each ends, and the list is then the old nodes and the new ones
    in the order of their chunk numbers, in both directions; numbers and codes are as before. -/
theorem storeResult_maintains_list {calls : List (Thread n × Nat)} (list : SortedList s nodes)
    (free : s.owner .store = none) (distinct : ((calls.map Prod.snd ++ nodes).map s.chunkNo).Nodup)
    (unlinked : ∀ call ∈ calls, s.links.next call.2 = none ∧ s.links.prev call.2 = none)
    (enough : calls.length + nodes.length ≤ rounds) :
    SurelyStored rounds calls (fun s' => (∃ links, s' = { s with links := links }) ∧
      ∃ nodes', SortedList s' nodes' ∧ nodes'.Perm (calls.map Prod.snd ++ nodes)) s := by
  induction calls generalizing s nodes with
  | nil => exact ⟨⟨s.links, rfl⟩, nodes, list, List.Perm.refl _⟩
  | cons call calls ih =>
    obtain ⟨t, node⟩ := call
    rw [List.map_cons, List.cons_append, List.map_cons, List.nodup_cons] at distinct
    obtain ⟨first, distinct⟩ := distinct
    obtain ⟨next, prev⟩ := unlinked (t, node) (List.mem_cons_self ..)
    have missing : s.chunkNo node ∉ nodes.map s.chunkNo := fun member =>
      first (by rw [List.map_append]; exact List.mem_append_right _ member)
    have less : nodes.length < rounds := by
      rw [List.length_cons] at enough
      omega
    refine Machine.surely_mono ?_ (storeResult_stores ⟨list, free, missing, next, prev⟩ less)
    rintro ⟨⟩ s' ⟨⟨links, rfl⟩, ⟨nodes', list', perm⟩, others⟩
    have moved : (calls.map Prod.snd ++ nodes').Perm (node :: (calls.map Prod.snd ++ nodes)) :=
      (perm.append_left _).trans List.perm_middle
    refine surelyStored_mono ?_ (ih list' free ?_ (fun call member => ?_) ?_)
    · rintro s' ⟨⟨links', rfl⟩, nodes'', list'', perm'⟩
      exact ⟨⟨links', rfl⟩, nodes'', list'', perm'.trans moved⟩
    · exact ((moved.map s.chunkNo).nodup_iff).mpr (List.nodup_cons.mpr ⟨first, distinct⟩)
    · have outside : call.2 ∉ node :: nodes := by
        rw [List.map_append] at first distinct
        have number : s.chunkNo call.2 ∈ (calls.map Prod.snd).map s.chunkNo :=
          List.mem_map_of_mem (List.mem_map_of_mem member)
        intro inside
        rcases List.mem_cons.mp inside with same | listed
        · exact first (List.mem_append_left _ (same ▸ number))
        · exact (List.nodup_append.mp distinct).2.2 _ number _ (List.mem_map_of_mem listed) rfl
      obtain ⟨sameNext, samePrev⟩ := others call.2 outside
      obtain ⟨next', prev'⟩ := unlinked call (List.mem_cons_of_mem _ member)
      exact ⟨sameNext.trans next', samePrev.trans prev'⟩
    · have length := perm.length_eq
      rw [List.length_cons] at length enough
      omega

end

/-- Two nodes, the second chunk first. -/
theorem two_nodes_listed : SurelyStored 2 [(.encoder 0, 1), (.encoder 0, 0)] (fun s' : State 1 =>
    (∃ links, s' = { (start 1 [] false).state with chunkNo := id, links := links }) ∧
      ∃ nodes, SortedList s' nodes ∧ nodes.Perm [1, 0]) { (start 1 [] false).state with chunkNo := id } :=
  @storeResult_maintains_list 1 { (start 1 [] false).state with chunkNo := id } [] 2 [(.encoder 0, 1), (.encoder 0, 0)]
    ⟨Links.represents_empty, List.Pairwise.nil⟩ rfl (by decide) (fun _ _ => ⟨rfl, rfl⟩) (by decide)

end ArchCompSystems.Ihw4
