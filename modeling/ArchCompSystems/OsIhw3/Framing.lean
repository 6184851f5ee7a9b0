import ArchCompSystems.Library.Cuts
import ArchCompSystems.OsIhw3.Environment
import ArchCompSystems.OsIhw3.Transfers

namespace ArchCompSystems.OsIhw3

open Library Library.Program

/-- A call of `poll_workers` that completed, however its calls were answered. -/
structure PollCall (c : ClientType) where
  pinsQ : PinsQueue
  wellFormed : pinsQ.WellFormed
  history : List ServerEvent
  result : Bool × PinsQueue
  completes : (pollWorkers c pinsQ).Completes history result

/-- The answer of a `recv` on the worker's descriptor. -/
def recvFrom (fd : Int) : ServerEvent → Option RecvAnswer
  | ⟨.recv fd' _, answer⟩ => if fd' = fd then some answer else none
  | _ => none

def filledPin : RecvAnswer → Option Pin
  | .received bytes => if bytes.length = sizeofPin then some (Pin.ofBytes bytes) else none
  | .failed _ => none

/-- The descriptor and the pin of a `recv` that filled the pin. -/
def filling : ServerEvent → Option (Int × Pin)
  | ⟨.recv fd _, answer⟩ => (filledPin answer).map (fd, ·)
  | _ => none

namespace PollCall

variable {c : ClientType}

def queued (call : PollCall c) : List Pin :=
  call.result.2.contents.drop call.pinsQ.contents.length

def queuedFor (fd : Int) (call : PollCall c) : List Pin :=
  (((call.history.filterMap filling).map Prod.fst).zip call.queued).filterMap
    fun (source, pin) => if source = fd then some pin else none

end PollCall

def queuedFor {c : ClientType} (fd : Int) (calls : List (PollCall c)) : List Pin :=
  calls.flatMap (PollCall.queuedFor fd)

/-- The answers of the successive `recv`s on a worker's descriptor. -/
def recvAnswers {c : ClientType} (fd : Int) (calls : List (PollCall c)) : List RecvAnswer :=
  calls.flatMap fun call => call.history.filterMap (recvFrom fd)

/-- `EAGAIN`, or the bytes that were there. -/
def recvAnswer : Option (List UInt8) → RecvAnswer
  | none => .failed .eagain
  | some bytes => .received bytes

/-- What `recv` answers when the stream of the pins written is cut in this way. -/
def answersOf (cuts : List (Cut sizeofPin)) (written : List Pin) : List RecvAnswer :=
  (Cut.pieces cuts (written.flatMap Pin.bytes)).map recvAnswer

section

variable {c : ClientType} {history : List ServerEvent}

theorem filling_of_transfers (d : ClientType) : (transfers (some d) history).filterMap (fun
      | .received _ fd pin => some (fd, pin)
      | .handed _ _ _ _ => none) = history.filterMap filling := by
  induction history generalizing d with
  | nil => rfl
  | cons event rest ih =>
    obtain ⟨e, polled⟩ : ∃ e, polledAfter (some d) event = some e := by
      unfold polledAfter
      split <;> exact ⟨_, rfl⟩
    rw [transfers, polled, List.filterMap_append, ih e]
    obtain ⟨call, answer⟩ := event
    cases call with
    | recv fd size =>
      cases answer with
      | failed error => rfl
      | received bytes =>
        by_cases full : bytes.length = sizeofPin <;> simp [transferIn, filling, filledPin, full]
    | send fd payload => cases payload <;> rfl
    | _ => rfl

theorem filling_for (fd : Int) : (history.filterMap filling).filterMap
      (fun (source, pin) => if source = fd then some pin else none) =
    (history.filterMap (recvFrom fd)).filterMap filledPin := by
  rw [List.filterMap_filterMap, List.filterMap_filterMap]
  congr 1
  funext event
  obtain ⟨call, answer⟩ := event
  cases call with
  | recv source size =>
    cases filled : filledPin answer with
    | none => by_cases same : source = fd <;> simp [filling, recvFrom, filled, same]
    | some pin => by_cases same : source = fd <;> simp [filling, recvFrom, filled, same]
  | _ => rfl

theorem PollCall.queuedFor_eq (fd : Int) (call : PollCall c) :
    call.queuedFor fd = (call.history.filterMap (recvFrom fd)).filterMap filledPin := by
  obtain ⟨moved, transferred, received, rfl, -, contents⟩ :=
    always_iff.mp (pollWorkers_polls call.wellFormed) _ _ call.completes
  have filled := @filling_of_transfers call.history c
  rw [transferred, List.filterMap_map] at filled
  have pins : received = call.history.filterMap filling := filled ▸ List.filterMap_some.symm
  have zipped : (received.map Prod.fst).zip (received.map Prod.snd) = received :=
    (List.zip_of_prod rfl rfl).symm
  rw [queuedFor, queued, contents, List.drop_left, ← pins, zipped, pins, filling_for]

theorem queuedFor_eq (fd : Int) (calls : List (PollCall c)) :
    queuedFor fd calls = (recvAnswers fd calls).filterMap filledPin := by
  rw [recvAnswers, List.filterMap_flatMap, queuedFor]
  exact congrArg (List.flatMap · calls) (funext (PollCall.queuedFor_eq fd))

theorem filledPin_pieces (read : List (Option (List UInt8))) :
    (read.map recvAnswer).filterMap filledPin =
      (Cut.wholePieces sizeofPin read).map Pin.ofBytes := by
  induction read with
  | nil => rfl
  | cons piece read ih =>
    cases piece with
    | none => exact ih
    | some bytes =>
      by_cases full : bytes.length = sizeofPin
      · rw [Cut.wholePieces_whole full, List.map_cons, List.map_cons,
          @List.filterMap_cons_some _ _ _ _ _ (Pin.ofBytes bytes) (by simp [recvAnswer, filledPin, full]), ih]
      · rw [Cut.wholePieces_short full, List.map_cons,
          List.filterMap_cons_none (by simp [recvAnswer, filledPin, full]), ih]

end

/-- However a worker's stream is cut this way, what is queued is a prefix of what it wrote. -/
def PinsFramed (cuts : List (Cut sizeofPin)) : Prop :=
  ∀ (c : ClientType) (fd : Int) (calls : List (PollCall c)) (written : List Pin),
    recvAnswers fd calls = answersOf cuts written → Cut.total cuts ≤ written.length * sizeofPin →
    queuedFor fd calls <+: written

/-- However a worker's stream is cut this way, every pin that was read wholly is queued. -/
def PinsKept (cuts : List (Cut sizeofPin)) : Prop :=
  ∀ (c : ClientType) (fd : Int) (calls : List (PollCall c)) (written : List Pin),
    recvAnswers fd calls = answersOf cuts written → Cut.total cuts ≤ written.length * sizeofPin →
    queuedFor fd calls = written.take (Cut.total cuts / sizeofPin)

section

variable {cuts : List (Cut sizeofPin)}

theorem frames_bytes (written : List Pin) : Cut.Frames sizeofPin (written.map Pin.bytes) := by
  intro frame member
  obtain ⟨pin, -, rfl⟩ := List.mem_map.mp member
  exact pin.length_bytes

theorem length_bytes (written : List Pin) :
    (written.map Pin.bytes).flatten.length = written.length * sizeofPin := by
  rw [(frames_bytes written).length_flatten, List.length_map]

theorem map_ofBytes_bytes (written : List Pin) : (written.map Pin.bytes).map Pin.ofBytes = written := by
  simp [Function.comp_def, Pin.ofBytes_bytes]

theorem map_bytes_ofBytes {frames : List (List UInt8)} (each : Cut.Frames sizeofPin frames) :
    (frames.map Pin.ofBytes).map Pin.bytes = frames := by
  rw [List.map_map]
  exact (List.map_congr_left fun frame member => Pin.bytes_ofBytes (each frame member)).trans
    (List.map_id frames)

theorem queuedFor_of_answers {c : ClientType} {fd : Int} {calls : List (PollCall c)} {written : List Pin}
    (answers : recvAnswers fd calls = answersOf cuts written) : queuedFor fd calls =
      (Cut.wholePieces sizeofPin (Cut.pieces cuts (written.map Pin.bytes).flatten)).map Pin.ofBytes := by
  rw [queuedFor_eq, answers, answersOf, filledPin_pieces, List.flatMap_def]

theorem queuedFor_prefix_iff {c : ClientType} {fd : Int} {calls : List (PollCall c)} {written : List Pin}
    (answers : recvAnswers fd calls = answersOf cuts written) : queuedFor fd calls <+: written ↔
      Cut.wholePieces sizeofPin (Cut.pieces cuts (written.map Pin.bytes).flatten) <+:
        written.map Pin.bytes := by
  rw [queuedFor_of_answers answers]
  constructor
  · intro leads
    have mapped := leads.map Pin.bytes
    rwa [map_bytes_ofBytes (Cut.frames_wholePieces _)] at mapped
  · intro leads
    have mapped := leads.map Pin.ofBytes
    rwa [map_ofBytes_bytes] at mapped

theorem queuedFor_eq_take_iff {c : ClientType} {fd : Int} {calls : List (PollCall c)} {written : List Pin}
    (answers : recvAnswers fd calls = answersOf cuts written) (count : Nat) :
    queuedFor fd calls = written.take count ↔
      Cut.wholePieces sizeofPin (Cut.pieces cuts (written.map Pin.bytes).flatten) =
        (written.map Pin.bytes).take count := by
  rw [queuedFor_of_answers answers, ← List.map_take]
  constructor
  · intro same
    have mapped := congrArg (List.map Pin.bytes) same
    rwa [map_bytes_ofBytes (Cut.frames_wholePieces _)] at mapped
  · intro same
    rw [same, map_ofBytes_bytes]

def oneWorker : ServerState :=
  ((initServer.setFd .firstStageWorkerClient 0 5).setArrSize .firstStageWorkerClient 1).setErrno
    mainThread .eagain

def Environment.answering (answer : RecvAnswer) : Environment :=
  { Environment.calm with receives := fun _ _ => answer }

theorem exists_pollCall (piece : Option (List UInt8)) (fits : ∀ bytes ∈ piece, bytes.length ≤ sizeofPin) :
    ∃ call : PollCall .firstStageWorkerClient,
      call.history.filterMap (recvFrom 5) = [recvAnswer piece] := by
  have answered : ((Environment.answering (recvAnswer piece)).runs
      (pollWorkers .firstStageWorkerClient .zero) oneWorker).map
        (fun out => out.1.filterMap (recvFrom 5)) = some [recvAnswer piece] := by
    match piece, fits with
    | none, _ => rfl
    | some [], _ | some [_], _ | some [_, _], _ | some [_, _, _], _ | some [_, _, _, _], _ => rfl
    | some (_ :: _ :: _ :: _ :: _ :: _), fits => exact absurd (fits _ rfl) (by simp [sizeofPin])
  obtain ⟨⟨history, result, s⟩, run, answers⟩ := Option.map_eq_some_iff.mp answered
  exact ⟨⟨.zero, PinsQueue.zero_wellFormed, history, result, (Environment.runs_of_eq_some run).completes⟩,
    answers⟩

theorem exists_pollCalls (written : List Pin) (cuts : List (Cut sizeofPin)) :
    ∃ calls : List (PollCall .firstStageWorkerClient), recvAnswers 5 calls = answersOf cuts written := by
  have each : ∀ read : List (Option (List UInt8)), (∀ piece ∈ read, ∀ bytes ∈ piece,
      bytes.length ≤ sizeofPin) → ∃ calls : List (PollCall .firstStageWorkerClient),
        recvAnswers 5 calls = read.map recvAnswer := by
    intro read fits
    induction read with
    | nil => exact ⟨[], rfl⟩
    | cons piece read ih =>
      obtain ⟨calls, answers⟩ := ih fun other member => fits other (List.mem_cons_of_mem _ member)
      obtain ⟨call, answer⟩ := exists_pollCall piece (fits piece (List.mem_cons_self ..))
      refine ⟨call :: calls, ?_⟩
      rw [recvAnswers, List.flatMap_cons, answer, List.map_cons, List.singleton_append]
      exact congrArg (recvAnswer piece :: ·) answers
  exact each _ (Cut.length_pieces_le cuts _)

theorem pinsFramed_iff : PinsFramed cuts ↔ Cut.NoWholeAfterShort cuts := by
  have framed := @Cut.keeps_prefix_iff sizeofPin UInt8 cuts (by decide) 1 0 (by decide)
  rw [← framed]
  constructor
  · intro pinsFramed frames each enough
    obtain ⟨calls, answers⟩ := exists_pollCalls (frames.map Pin.ofBytes) cuts
    have kept := pinsFramed _ 5 calls _ answers (by rwa [List.length_map, ← each.length_flatten])
    rwa [queuedFor_prefix_iff answers, map_bytes_ofBytes each] at kept
  · intro always c fd calls written answers enough
    rw [queuedFor_prefix_iff answers]
    exact always _ (frames_bytes written) (by rwa [length_bytes])

theorem pinsKept_iff : PinsKept cuts ↔ Cut.totalFromShort cuts < sizeofPin := by
  have kept := @Cut.keeps_frames_iff sizeofPin UInt8 cuts (by decide) 1 0 (by decide)
  rw [← kept]
  constructor
  · intro pinsKept frames each enough
    obtain ⟨calls, answers⟩ := exists_pollCalls (frames.map Pin.ofBytes) cuts
    have taken := pinsKept _ 5 calls _ answers (by rwa [List.length_map, ← each.length_flatten])
    rwa [queuedFor_eq_take_iff answers, map_bytes_ofBytes each] at taken
  · intro always c fd calls written answers enough
    rw [queuedFor_eq_take_iff answers]
    exact always _ (frames_bytes written) (by rwa [length_bytes])

/-- The pins that are queued for a worker are a prefix of those that it wrote exactly when no `recv`
    that fills a pin comes after a short one, and every pin that was read wholly is among them exactly
    when less than a pin is read from the first short `recv` on. -/
theorem framing_survives (cuts : List (Cut sizeofPin)) :
    (PinsFramed cuts ↔ Cut.NoWholeAfterShort cuts) ∧
      (PinsKept cuts ↔ Cut.totalFromShort cuts < sizeofPin) := ⟨pinsFramed_iff, pinsKept_iff⟩

/-- A short `recv` drops its bytes, and the next pin is put together from two. -/
theorem pins_mixed_after_short : ¬ ∀ cuts : List (Cut sizeofPin), PinsFramed cuts := by
  intro framed
  have safe := pinsFramed_iff.mp (framed [.elements 1 (by decide) (by decide),
    .elements 4 (by decide) (by decide)])
  exact absurd (safe (.elements 4 (by decide) (by decide)) (List.mem_singleton_self _)) (by decide)

end

end ArchCompSystems.OsIhw3
