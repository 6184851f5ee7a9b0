import ArchCompSystems.Library.Cuts
import ArchCompSystems.Library.Protocol
import ArchCompSystems.OsIhw3.ClientTools

namespace ArchCompSystems.OsIhw3

open Library Library.Program

def takenBy : ClientEvent → Nat
  | ⟨.recv _, answer⟩ => RecvAnswer.length answer
  | _ => 0

/-- The record with which `receive_data` returns true. -/
def returnedBy : ClientEvent → Option (List UInt8)
  | ⟨.recv size, .received bytes⟩ => if bytes.length = size then some bytes else none
  | _ => none

/-- After this call `receive_data` returns false. -/
def gaveUp : ClientEvent → Bool
  | ⟨.recv _, .failed _⟩ => true
  | ⟨.recv size, .received bytes⟩ => decide (bytes.length ≠ size ∧ bytes.length ≠ 0)
  | _ => false

def consumed (history : List ClientEvent) : Nat := (history.map takenBy).sum

/-- The records that `receive_data` has returned, oldest first. -/
def returned (history : List ClientEvent) : List (List UInt8) := history.filterMap returnedBy

/-- `receive_data` has not returned false. -/
def Reading (history : List ClientEvent) : Prop := ∀ event ∈ history, gaveUp event = false

/-- The bytes of the records and of what follows them. -/
def streamOf (records : List (List UInt8)) (ending : List UInt8) : List UInt8 := records.flatten ++ ending

section

variable {event : ClientEvent} {history : List ClientEvent}

@[simp] theorem consumed_concat : consumed (history ++ [event]) = consumed history + takenBy event := by
  simp [consumed]

@[simp] theorem returned_concat :
    returned (history ++ [event]) = returned history ++ (returnedBy event).toList := by
  cases known : returnedBy event <;> simp [returned, known]

theorem reading_concat : Reading (history ++ [event]) ↔ Reading history ∧ gaveUp event = false := by
  simp [Reading, or_imp, forall_and]

/-- Calls of `recv` come one after another until `receive_data` returns false. -/
def readsRecords (size : Nat) : Protocol ClientCall ClientCall.Answer (List ClientEvent) where
  allowed history call := match call with
    | .peek _ => Reading history
    | .recv bufferSize => Reading history ∧ bufferSize = size
    | _ => True
  moves history call answer history' := history' = history ++ [⟨call, answer⟩]

abbrev ReadsOn (size : Nat) (p : ClientProgram α) (post : α → List ClientEvent → Prop) : Prop :=
  ∀ history, Reading history → (readsRecords size).Follows post p history

variable {size rounds : Nat}

theorem clientShouldStop_follows :
    ReadsOn size clientShouldStop fun _ history => Reading history := by
  intro history reading
  refine Protocol.follows_call reading ?_
  rintro answer _ rfl
  exact reading_concat.mpr ⟨reading, rfl⟩

theorem receiveData_follows :
    ReadsOn size (receiveData rounds size) fun received history => received ≠ none → Reading history := by
  intro history reading
  refine Protocol.follows_bind.mpr (Protocol.follows_mono ?_
    (@Protocol.follows_forFrom _ _ _ _ _ (readsRecords size) history _
      (fun _ _ history => Reading history) (fun received history => received ≠ none → Reading history)
      rounds 0 () ?_ reading))
  · rintro (_ | received) history' after
    · exact ⟨True.intro, fun answer => nomatch answer⟩
    · exact after
  · rintro i ⟨⟩ history' - - reading
    refine Protocol.follows_call ⟨reading, rfl⟩ ?_
    rintro answer _ rfl
    cases answer with
    | failed error => exact fun something => absurd rfl something
    | received bytes =>
      simp only
      by_cases short : bytes.length ≠ size ∧ bytes.length ≠ 0
      · rw [if_pos short]
        exact fun something => absurd rfl something
      · have going : Reading (history' ++ [⟨.recv size, .received bytes⟩]) :=
          reading_concat.mpr ⟨reading, decide_eq_false short⟩
        rw [if_neg short]
        split
        · exact going
        · exact fun _ => going

theorem clientLoop_follows {round : ClientProgram Bool}
    (each : ReadsOn size round fun goesOn history => goesOn = true → Reading history) :
    ReadsOn size (clientLoop rounds round) fun _ _ => True := by
  intro history reading
  refine Protocol.follows_bind.mpr (Protocol.follows_mono ?_
    (@Protocol.follows_forFrom _ _ _ _ Unit (readsRecords size) history _
      (fun _ _ history => Reading history) (fun _ _ => True) rounds 0 () ?_ reading))
  · rintro (_ | _) history' -
    · exact ⟨True.intro, fun answer => nomatch answer⟩
    · exact True.intro
  · rintro i ⟨⟩ history' - - reading
    refine Protocol.follows_bind.mpr (Protocol.follows_mono ?_ (each history' reading))
    rintro (_ | _) later after
    · exact True.intro
    · exact after rfl

theorem stop_or {α : Type} {stopped : α} {rest : ClientProgram α}
    {post : α → List ClientEvent → Prop} (stop : ∀ history, post stopped history)
    (follows : ReadsOn size rest post) :
    ReadsOn size (do if ← clientShouldStop then return stopped else rest) post := by
  intro history reading
  refine Protocol.follows_bind.mpr (Protocol.follows_mono ?_ (clientShouldStop_follows history reading))
  rintro (_ | _) later after
  · exact follows later after
  · exact stop later

theorem secondWorkerRound_follows : ReadsOn sizeofPin (secondWorkerRound rounds)
    fun goesOn history => goesOn = true → Reading history := by
  refine stop_or (fun _ no => nomatch no) fun history reading => ?_
  refine Protocol.follows_bind.mpr (Protocol.follows_bind.mpr
    (Protocol.follows_mono ?_ (receiveData_follows history reading)))
  rintro (_ | bytes) received after
  · exact fun no => nomatch no
  · refine stop_or (fun _ no => nomatch no) (fun later going => ?_) received (after (by simp))
    refine Protocol.follows_call True.intro ?_
    rintro sent _ rfl
    exact fun _ => reading_concat.mpr ⟨going, rfl⟩

theorem thirdWorkerRound_follows : ReadsOn sizeofPin (thirdWorkerRound rounds)
    fun goesOn history => goesOn = true → Reading history := by
  refine stop_or (fun _ no => nomatch no) fun history reading => ?_
  refine Protocol.follows_bind.mpr (Protocol.follows_bind.mpr
    (Protocol.follows_mono ?_ (receiveData_follows history reading)))
  rintro (_ | bytes) received after
  · exact fun no => nomatch no
  · exact fun _ => after (by simp)

theorem logsCollectorRound_follows : ReadsOn maxServerLogSize (logsCollectorRound rounds)
    fun goesOn history => goesOn = true → Reading history := by
  refine stop_or (fun _ no => nomatch no) fun history reading => ?_
  refine Protocol.follows_bind.mpr (Protocol.follows_mono ?_ (receiveData_follows history reading))
  rintro (_ | bytes) received after
  · exact fun no => nomatch no
  · exact fun _ => after (by simp)

theorem sendCommandToServer_follows (cmd : List UInt8) : ReadsOn sizeofServerCommandResult
    (sendCommandToServer rounds cmd) fun resp history =>
      resp ≠ clientNoConnection → Reading history := by
  intro history reading
  refine Protocol.follows_call True.intro ?_
  rintro sent _ rfl
  have going : Reading (history ++ [⟨.sendto cmd, sent⟩]) := reading_concat.mpr ⟨reading, rfl⟩
  split
  · exact fun failed => absurd rfl failed
  · refine Protocol.follows_bind.mpr (Protocol.follows_mono ?_ (receiveData_follows _ going))
    rintro (_ | bytes) received after
    · exact fun failed => absurd rfl failed
    · exact fun _ => after (by simp)

theorem managerRound_follows : ReadsOn sizeofServerCommandResult (managerRound rounds)
    fun goesOn history => goesOn = true → Reading history := by
  refine stop_or (fun _ no => nomatch no) fun history reading => ?_
  refine Protocol.follows_call True.intro ?_
  rintro wanted _ rfl
  cases wanted with
  | false => exact fun no => nomatch no
  | true =>
    refine Protocol.follows_call True.intro ?_
    rintro cmd _ rfl
    refine Protocol.follows_bind.mpr (Protocol.follows_mono ?_ (sendCommandToServer_follows cmd _
      (reading_concat.mpr ⟨reading_concat.mpr ⟨reading, rfl⟩, rfl⟩)))
    rintro resp later after goesOn
    refine after fun failed => ?_
    rw [failed] at goesOn
    cases goesOn

theorem startRuntimeLoop_follows (client : RecordClient) :
    ReadsOn client.recordSize (client.startRuntimeLoop rounds) fun _ _ => True := by
  cases client with
  | secondWorker => exact clientLoop_follows secondWorkerRound_follows
  | thirdWorker => exact clientLoop_follows thirdWorkerRound_follows
  | logsCollector => exact clientLoop_follows logsCollectorRound_follows
  | manager => exact clientLoop_follows managerRound_follows

end

/-- The socket answered this event after `before`, and `receive_data` had not returned false. -/
def InOrder (size : Nat) (stream : List UInt8) (before : List ClientEvent) : ClientEvent → Prop
  | ⟨.peek bufferSize, answer⟩ =>
    Reading before ∧ Socket.Delivers ⟨stream.drop (consumed before)⟩ bufferSize answer
  | ⟨.recv bufferSize, answer⟩ => Reading before ∧ bufferSize = size ∧
      Socket.Delivers ⟨stream.drop (consumed before)⟩ bufferSize answer
  | _ => True

def ReadsStream (size : Nat) (stream : List UInt8) (history : List ClientEvent) : Prop :=
  ∀ before event after, history = before ++ event :: after → InOrder size stream before event

section

variable {size : Nat} {stream : List UInt8} {event : ClientEvent} {history : List ClientEvent}

theorem readsStream_concat : ReadsStream size stream (history ++ [event]) ↔
    ReadsStream size stream history ∧ InOrder size stream history event := by
  constructor
  · intro reads
    refine ⟨fun before other after same => ?_, reads history event [] rfl⟩
    exact reads before other (after ++ [event]) (by rw [same]; simp)
  · rintro ⟨reads, last⟩ before other after same
    rcases List.eq_nil_or_concat after with rfl | ⟨after, final, rfl⟩
    · obtain ⟨rfl, ⟨⟩⟩ := List.append_inj' same rfl
      exact last
    · rw [List.concat_eq_append, ← List.cons_append, ← List.append_assoc] at same
      exact reads before other after (List.append_inj' same rfl).1

/-- A client's history was answered from the stream, of which the socket has the rest. -/
structure AnsweredFrom (size : Nat) (stream : List UInt8) (socket : Socket)
    (histories : Unit → List ClientEvent) : Prop where
  unread : socket.unread = stream.drop (consumed (histories ()))
  reads : ReadsStream size stream (histories ())

theorem AnsweredFrom.perform {socket socket' : Socket} {histories : Unit → List ClientEvent}
    {c : ClientCall} {answer : c.Answer} (answered : AnsweredFrom size stream socket histories)
    (allowed : (readsRecords size).allowed (histories ()) c)
    (performed : socket.perform c answer = some socket') : AnsweredFrom size stream socket'
      (Function.update histories () (histories () ++ [⟨c, answer⟩])) := by
  have quiet : takenBy ⟨c, answer⟩ = 0 → socket' = socket →
      socket'.unread = stream.drop (consumed (histories () ++ [⟨c, answer⟩])) := by
    rintro nothing rfl
    rw [consumed_concat, nothing, Nat.add_zero, answered.unread]
  suffices rest : socket'.unread = stream.drop (consumed (histories () ++ [⟨c, answer⟩])) ∧
      InOrder size stream (histories ()) ⟨c, answer⟩ by
    refine ⟨?_, ?_⟩ <;> rw [Function.update_self]
    · exact rest.1
    · exact readsStream_concat.mpr ⟨answered.reads, rest.2⟩
  cases c with
  | peek bufferSize =>
    obtain ⟨delivers, ⟨⟩⟩ := Option.ite_none_right_eq_some.mp performed
    refine ⟨quiet rfl rfl, allowed, ?_⟩
    rw [← answered.unread]
    exact delivers
  | recv bufferSize =>
    obtain ⟨delivers, ⟨⟩⟩ := Option.ite_none_right_eq_some.mp performed
    refine ⟨?_, allowed.1, allowed.2, ?_⟩
    · rw [consumed_concat, answered.unread, List.drop_drop]
      rfl
    · rw [← answered.unread]
      exact delivers
  | sendto bytes =>
    obtain ⟨⟩ := performed
    exact ⟨quiet rfl rfl, True.intro⟩
  | nextUserCommand =>
    obtain ⟨⟩ := performed
    exact ⟨quiet rfl rfl, True.intro⟩
  | getCommandArgs =>
    obtain ⟨⟩ := performed
    exact ⟨quiet rfl rfl, True.intro⟩
  | goesOn => exact answer.elim

theorem clientPool_governed (client : RecordClient) (rounds : Nat) (stream : List UInt8) :
    (clientPool client rounds stream).Governed (fun _ => readsRecords client.recordSize) (fun _ => [])
      (fun _ _ => True) (AnsweredFrom client.recordSize stream) (fun _ => []) where
  trace _ := .nil
  follows _ := startRuntimeLoop_follows client [] (by simp [Reading])
  agrees := ⟨rfl, by simp [ReadsStream]⟩

theorem trace_history {before after : List ClientEvent}
    (trace : (readsRecords size).Trace [] before after) : after = before := by
  induction trace with
  | nil => rfl
  | snoc _ _ moved ih => rw [moved, ih]

theorem ClientReach.readsStream {client : RecordClient} {rounds : Nat}
    {pool : Pool Unit ClientCall ClientCall.Answer Socket} (reach : ClientReach client rounds stream pool) :
    ReadsStream client.recordSize stream (pool.history ()) := by
  obtain ⟨histories, governed⟩ := Pool.Reach.governed
    (fun s histories _ c answer s' answered allowed performed =>
      ⟨_, rfl, AnsweredFrom.perform answered allowed performed⟩)
    (fun _ _ _ => rfl) (clientPool_governed client rounds stream) reach
  rw [← trace_history (governed.trace ())]
  exact governed.agrees.reads

end

/-- The stream ends with the shutdown message, or the server sends none. -/
def endingOf (shutdown : Bool) : List UInt8 := if shutdown then shutdownMessage else []

/-- What a client makes of its stream. -/
structure Decodes (records : List (List UInt8)) (shutdown : Bool)
    (history : List ClientEvent) : Prop where
  returned_prefix : returned history <+: records
  /-- What `receive_data` returns does not reach into the shutdown message. -/
  returned_records : ∀ before bufferSize bytes after,
    history = before ++ ⟨.recv bufferSize, .received bytes⟩ :: after → bytes.length = bufferSize →
    consumed before + bytes.length ≤ records.flatten.length
  /-- `client_should_stop` returns true only for a failure or at the shutdown message. -/
  stops : ∀ before bufferSize answer after, history = before ++ ⟨.peek bufferSize, answer⟩ :: after →
    stopsOn answer = true → (∃ error, answer = .failed error) ∨
      shutdown = true ∧ consumed before = records.flatten.length ∧
        (streamOf records (endingOf shutdown)).drop (consumed before) = shutdownMessage

/-- No `client_should_stop` is answered with exactly the first two bytes of a record whose first two
    bytes are those of the shutdown message. -/
def Unsplit (records : List (List UInt8)) (history : List ClientEvent) : Prop :=
  ∀ before bufferSize bytes after, history = before ++ ⟨.peek bufferSize, .received bytes⟩ :: after →
    bytes.length = shutdownMessageSize →
    ∀ record ∈ records[(returned before).length]?, record.take shutdownMessageSize ≠ shutdownMessage

section

variable {size : Nat} {records : List (List UInt8)} {shutdown : Bool} {ending : List UInt8}
  {history before : List ClientEvent}

theorem drop_streamOf (frames : Cut.Frames size records) {k : Nat} (bound : k ≤ records.length) :
    (streamOf records ending).drop (k * size) = streamOf (records.drop k) ending := by
  have first : Cut.Frames size (records.take k) := fun record member =>
    frames record (List.mem_of_mem_take member)
  have length : (records.take k).flatten.length = k * size := by
    rw [first.length_flatten, List.length_take, Nat.min_eq_left bound]
  have split : streamOf records ending = (records.take k).flatten ++ streamOf (records.drop k) ending := by
    rw [streamOf, streamOf, ← List.append_assoc, ← List.flatten_append, List.take_append_drop]
  rw [split, ← length, List.drop_left]

/-- Records have been read from the start of the stream, and nothing else. -/
structure AtRecord (size : Nat) (records : List (List UInt8)) (history : List ClientEvent) : Prop where
  consumed_eq : consumed history = (returned history).length * size
  returned_prefix : returned history <+: records

theorem AtRecord.recv (at' : AtRecord size records history) (frames : Cut.Frames size records)
    (short : ending.length < size) {bytes : List UInt8}
    (delivered : bytes <+: (streamOf records ending).drop (consumed history)) (full : bytes.length = size) :
    records[(returned history).length]? = some bytes := by
  have bound := at'.returned_prefix.length_le
  rw [at'.consumed_eq, drop_streamOf frames bound] at delivered
  cases rest : records.drop (returned history).length with
  | nil =>
    rw [rest] at delivered
    have := delivered.length_le
    simp only [streamOf, List.flatten_nil, List.nil_append] at this
    omega
  | cons record later =>
    have next : records[(returned history).length]? = some record := by
      rw [← List.head?_drop, rest]
      rfl
    have length := frames record (List.mem_of_getElem? next)
    rw [rest, streamOf, List.flatten_cons, List.append_assoc] at delivered
    have same : bytes.length = record.length := full.trans length.symm
    have part : bytes <+: record :=
      List.prefix_of_prefix_length_le delivered (List.prefix_append ..) (Nat.le_of_eq same)
    rw [next, part.eq_of_length same]

theorem AtRecord.snoc (at' : AtRecord size records history) {record : List UInt8}
    (next : records[(returned history).length]? = some record) :
    returned history ++ [record] <+: records := by
  obtain ⟨rest, same⟩ := at'.returned_prefix
  rw [← same, List.getElem?_append_right (Nat.le_refl _), Nat.sub_self] at next
  cases rest with
  | nil => cases next
  | cons first rest =>
    obtain rfl := Option.some.inj next
    exact ⟨rest, by rw [← same]; simp⟩

theorem ReadsStream.atRecord (pos : 0 < size) (frames : Cut.Frames size records) (short : ending.length < size)
    (reads : ReadsStream size (streamOf records ending) history) (reading : Reading history) :
    AtRecord size records history := by
  induction history using List.reverseRecOn with
  | nil => exact ⟨by simp [consumed, returned], List.nil_prefix⟩
  | append_singleton history event ih =>
    obtain ⟨earlier, last⟩ := readsStream_concat.mp reads
    obtain ⟨going, kept⟩ := reading_concat.mp reading
    have at' := ih earlier going
    have quiet : takenBy event = 0 → returnedBy event = none →
        AtRecord size records (history ++ [event]) := by
      intro nothing unreturned
      refine ⟨?_, ?_⟩
      · rw [consumed_concat, returned_concat, nothing, unreturned, Option.toList_none, List.append_nil]
        exact at'.consumed_eq
      · rw [returned_concat, unreturned, Option.toList_none, List.append_nil]
        exact at'.returned_prefix
    obtain ⟨call, answer⟩ := event
    cases call with
    | recv bufferSize =>
      obtain ⟨-, rfl, delivers⟩ := last
      cases answer with
      | failed error => cases kept
      | received bytes =>
        by_cases full : bytes.length = bufferSize
        · have next := at'.recv frames short delivers.1 full
          have last : returnedBy ⟨.recv bufferSize, .received bytes⟩ = some bytes := if_pos full
          refine ⟨?_, ?_⟩
          · rw [consumed_concat, returned_concat, last, Option.toList_some, List.length_append,
              List.length_singleton, Nat.add_mul, Nat.one_mul, at'.consumed_eq]
            exact congrArg (_ + ·) full
          · rw [returned_concat, last]
            exact at'.snoc next
        · have empty : bytes.length = 0 := by
            have := of_decide_eq_false kept
            omega
          exact quiet empty (if_neg full)
    | peek _ => exact quiet rfl rfl
    | sendto _ => exact quiet rfl rfl
    | nextUserCommand => exact quiet rfl rfl
    | getCommandArgs => exact quiet rfl rfl
    | goesOn => exact answer.elim

theorem ReadsStream.returned_prefix (pos : 0 < size) (frames : Cut.Frames size records)
    (short : ending.length < size) (reads : ReadsStream size (streamOf records ending) history) :
    returned history <+: records := by
  induction history using List.reverseRecOn with
  | nil => exact List.nil_prefix
  | append_singleton history event ih =>
    obtain ⟨earlier, last⟩ := readsStream_concat.mp reads
    rw [returned_concat]
    cases known : returnedBy event with
    | none =>
      rw [Option.toList_none, List.append_nil]
      exact ih earlier
    | some record =>
      obtain ⟨call, answer⟩ := event
      cases call <;> cases answer <;> try cases known
      rename_i bufferSize bytes
      obtain ⟨full, ⟨⟩⟩ := Option.ite_none_right_eq_some.mp known
      obtain ⟨reading, rfl, delivers⟩ := last
      have at' := earlier.atRecord pos frames short reading
      exact at'.snoc (at'.recv frames short delivers.1 full)

theorem ReadsStream.earlier {stream : List UInt8} {event : ClientEvent} {after : List ClientEvent}
    (reads : ReadsStream size stream history) (same : history = before ++ event :: after) :
    ReadsStream size stream before := fun first other rest split =>
  reads first other (rest ++ event :: after) (by rw [same, split]; simp)

theorem AtRecord.peek (at' : AtRecord size records history) (frames : Cut.Frames size records)
    {record bytes : List UInt8} (next : records[(returned history).length]? = some record)
    (delivered : bytes <+: (streamOf records ending).drop (consumed history)) (inside : bytes.length ≤ size) :
    bytes = record.take bytes.length := by
  obtain ⟨bound, known⟩ := List.getElem?_eq_some_iff.mp next
  rw [at'.consumed_eq, drop_streamOf frames (Nat.le_of_lt bound), List.drop_eq_getElem_cons bound, known,
    streamOf, List.flatten_cons, List.append_assoc] at delivered
  have length : bytes.length = (record.take bytes.length).length := by
    rw [List.length_take, frames record (List.mem_of_getElem? next), Nat.min_eq_left inside]
  have part : bytes <+: record.take bytes.length := List.prefix_of_prefix_length_le delivered
    ((List.take_prefix _ record).trans (List.prefix_append ..)) (Nat.le_of_eq length)
  exact part.eq_of_length length

theorem shutdown_shorter (client : RecordClient) (shutdown : Bool) :
    (endingOf shutdown).length < client.recordSize := by
  cases client <;> cases shutdown <;> decide

theorem shutdownMessageSize_le (client : RecordClient) : shutdownMessageSize ≤ client.recordSize := by
  cases client <;> decide

/-- In every run, a client decodes its stream exactly if no peek splits a record that begins as the
    shutdown message does. -/
theorem decodes_iff {client : RecordClient} {rounds : Nat} (frames : ∀ record ∈ records,
      record.length = client.recordSize) {pool : Pool Unit ClientCall ClientCall.Answer Socket}
    (reach : ClientReach client rounds (streamOf records (endingOf shutdown)) pool) :
    Decodes records shutdown (pool.history ()) ↔ Unsplit records (pool.history ()) := by
  have short := shutdown_shorter client shutdown
  have pos : 0 < client.recordSize := Nat.zero_lt_of_lt short
  have reads := reach.readsStream
  have total : records.flatten.length = records.length * client.recordSize :=
    Cut.Frames.length_flatten frames
  constructor
  · intro decodes before bufferSize bytes after same length record next starts
    obtain ⟨reading, delivered, -, -⟩ := reads before _ after same
    have at' := (reads.earlier same).atRecord pos frames short reading
    have bound : (returned before).length < records.length := (List.getElem?_eq_some_iff.mp next).1
    -- The peek shows the first bytes of the record, which look like the shutdown message.
    have shown : bytes = shutdownMessage := by
      rw [at'.peek frames next delivered (length ▸ shutdownMessageSize_le client), length, starts]
    rcases decodes.stops before bufferSize _ after same (by rw [shown]; rfl) with ⟨error, failed⟩ | ⟨-, at_end, -⟩
    · cases failed
    · rw [at'.consumed_eq, total] at at_end
      exact absurd (Nat.eq_of_mul_eq_mul_right pos at_end) (Nat.ne_of_lt bound)
  · intro unsplit
    refine ⟨reads.returned_prefix pos frames short, ?_, ?_⟩
    · intro before bufferSize bytes after same full
      obtain ⟨reading, rfl, delivered, -, -⟩ := reads before _ after same
      have at' := (reads.earlier same).atRecord pos frames short reading
      have next := at'.recv frames short delivered full
      rw [at'.consumed_eq, total, full, ← Nat.succ_mul]
      exact Nat.mul_le_mul_right _ (List.getElem?_eq_some_iff.mp next).1
    · intro before bufferSize answer after same stops
      obtain ⟨reading, delivers⟩ := reads before _ after same
      cases answer with
      | failed error => exact .inl ⟨error, rfl⟩
      | received bytes =>
        obtain ⟨delivered, -, -⟩ := delivers
        obtain rfl : bytes = shutdownMessage := eq_of_beq ((Bool.and_eq_true ..).mp stops).2
        have at' := (reads.earlier same).atRecord pos frames short reading
        cases next : records[(returned before).length]? with
        | some record =>
          have starts := at'.peek frames next delivered (shutdownMessageSize_le client)
          exact absurd starts.symm (unsplit before bufferSize _ after same rfl record next)
        | none =>
          have all : (returned before).length = records.length :=
            Nat.le_antisymm at'.returned_prefix.length_le (List.getElem?_eq_none_iff.mp next)
          have unread := @drop_streamOf _ _ (endingOf shutdown) frames _ (Nat.le_of_eq all)
          rw [← at'.consumed_eq, all, List.drop_length] at unread
          rw [unread] at delivered ⊢
          refine .inr ?_
          cases shutdown with
          | false => cases delivered.length_le
          | true => exact ⟨rfl, by rw [at'.consumed_eq, total, all], rfl⟩

end

/-- The answers of a peek that sees two bytes, and of a `recv` that gets all. -/
def twoBytesPeeked : (call : ClientCall) → Socket → Option call.Answer
  | .peek _, socket => some (.received (socket.unread.take 2))
  | .recv size, socket => some (.received (socket.unread.take size))
  | .sendto bytes, _ => some (.sent bytes.length)
  | .nextUserCommand, _ => some false
  | .getCommandArgs, _ => some []
  | .goesOn, _ => none

def peekedShutdown : List ClientEvent → Bool
  | [⟨.peek _, .received bytes⟩] => bytes == shutdownMessage
  | _ => false

/-- Not every stream is decoded: a second worker stops at the first two bytes of pin 42. -/
theorem pin_42_stops_second_worker : ¬ ∀ (client : RecordClient) (rounds : Nat)
    (records : List (List UInt8)) (shutdown : Bool) (pool : Pool Unit ClientCall ClientCall.Answer Socket),
    (∀ record ∈ records, record.length = client.recordSize) →
    ClientReach client rounds (streamOf records (endingOf shutdown)) pool →
    Decodes records shutdown (pool.history ()) := by
  intro all
  obtain ⟨pool, reach, history⟩ := @Pool.exists_reach_of_replay _ _ _ _ _ socketMachine (fun _ _ => True)
    (clientPool .secondWorker 1 (streamOf [Pin.bytes ⟨42⟩] (endingOf false))) (fun _ _ => true)
    [.go () 1 twoBytesPeeked] (fun pool => peekedShutdown (pool.history ())) (fun _ _ _ => True.intro) (by decide)
  have decodes := all .secondWorker 1 [Pin.bytes ⟨42⟩] false pool (by decide) reach
  unfold peekedShutdown at history
  split at history
  · rename_i bufferSize bytes known
    obtain rfl := eq_of_beq history
    rcases decodes.stops [] bufferSize _ [] known rfl with ⟨error, failed⟩ | ⟨none, -⟩
    · cases failed
    · cases none
  · cases history

/-- A third worker that reads pin 7 and then the shutdown message. -/
theorem third_worker_reads_pin_7 : ∃ pool : Pool Unit ClientCall ClientCall.Answer Socket,
    returned (pool.history ()) = [Pin.bytes ⟨7⟩] ∧
    (Decodes [Pin.bytes ⟨7⟩] true (pool.history ()) ↔ Unsplit [Pin.bytes ⟨7⟩] (pool.history ())) := by
  obtain ⟨pool, reach, read⟩ := @Pool.exists_reach_of_replay _ _ _ _ _ socketMachine (fun _ _ => True)
    (clientPool .thirdWorker 2 (streamOf [Pin.bytes ⟨7⟩] (endingOf true))) (fun _ _ => true)
    [.go () 3 twoBytesPeeked] (fun pool => returned (pool.history ()) == [Pin.bytes ⟨7⟩])
    (fun _ _ _ => True.intro) (by decide)
  exact ⟨pool, eq_of_beq read, decodes_iff (by decide) reach⟩

end ArchCompSystems.OsIhw3
