import ArchCompSystems.OsIhw3.Decoding

namespace ArchCompSystems.OsIhw3

open Library Library.Program Library.Machine

/-- A look at the connection finds no reason to stop, `recv` hands over all that it is asked for and
    what is sent is taken whole. -/
def Socket.Attends (socket : Socket) : ClientEvent → Prop
  | ⟨.peek _, answer⟩ => stopsOn answer = false
  | ⟨.recv size, answer⟩ => answer = RecvAnswer.received (socket.unread.take size)
  | ⟨.sendto bytes, answer⟩ => answer = SendAnswer.sent bytes.length
  | _ => True

/-- No call is disturbed while a whole record is unread. -/
def Attended (size : Nat) (socket : Socket) : List ClientEvent → Prop
  | [] => True
  | event :: rest => (size ≤ socket.unread.length → socket.Attends event) ∧
      Attended size ⟨socket.unread.drop (takenBy event)⟩ rest

def wholeRecords (size : Nat) (stream : List UInt8) : List UInt8 :=
  stream.take (stream.length / size * size)

section

variable {size : Nat} {stream : List UInt8}

theorem wholeRecords_of_lt (short : stream.length < size) : wholeRecords size stream = [] := by
  rw [wholeRecords, Nat.div_eq_of_lt short, Nat.zero_mul, List.take_zero]

theorem wholeRecords_of_le (positive : 0 < size) (whole : size ≤ stream.length) :
    wholeRecords size stream = stream.take size ++ wholeRecords size (stream.drop size) := by
  have one_more : stream.length / size = (stream.length - size) / size + 1 := by
    rw [← Nat.add_div_right _ positive, Nat.sub_add_cancel whole]
  rw [wholeRecords, wholeRecords, List.length_drop, one_more, Nat.succ_mul, Nat.add_comm, List.take_add]

end

def readingRound (rounds size : Nat) (go : List UInt8 → ClientProgram Bool) : ClientProgram Bool := do
  if ← clientShouldStop then return false
  match ← receiveData rounds size with
  | none => return false
  | some bytes => go bytes

def RecordClient.goOn : RecordClient → List UInt8 → ClientProgram Bool
  | .secondWorker, bytes => do
    if ← clientShouldStop then return false
    clientSendPin (Pin.ofBytes bytes)
  | _, _ => return true

theorem bind_clientReceivePin {α : Type} {rounds : Nat} {rest : Option Pin → ClientProgram α} :
    (clientReceivePin rounds >>= rest) =
      receiveData rounds sizeofPin >>= fun received => rest (received.map Pin.ofBytes) :=
  bind_assoc _ _ _

theorem startRuntimeLoop_eq {client : RecordClient} (receives : client ≠ .manager) (rounds : Nat) :
    client.startRuntimeLoop rounds =
      clientLoop rounds (readingRound rounds client.recordSize client.goOn) := by
  have same_round : ∀ {first second : Option (List UInt8) → ClientProgram Bool} {size : Nat},
      (∀ received, first received = second received) →
      (do if ← clientShouldStop then return false
          receiveData rounds size >>= first) =
        (do if ← clientShouldStop then return false
            receiveData rounds size >>= second) := by
    intro first second _ same
    rw [funext same]
  cases client with
  | manager => exact absurd rfl receives
  | logsCollector => exact congrArg (clientLoop rounds) (same_round fun received => by cases received <;> rfl)
  | secondWorker =>
    refine congrArg (clientLoop rounds) ?_
    simp only [secondWorkerRound, bind_clientReceivePin]
    exact same_round fun received => by cases received <;> rfl
  | thirdWorker =>
    refine congrArg (clientLoop rounds) ?_
    simp only [thirdWorkerRound, bind_clientReceivePin]
    exact same_round fun received => by cases received <;> rfl

/-- Whatever the connection does with the stream, each call of `client_should_stop` and `receive_data`
    comes to an end and the client leaves its loop. -/
def LeavesLoop (client : RecordClient) (stream : List UInt8) : Prop :=
  ∃ enough, ∀ rounds, enough ≤ rounds →
    socketMachine.Avoids () (· = .goesOn) (client.startRuntimeLoop rounds) ⟨stream⟩

/-- The client has received every whole record of the stream. -/
def ConsumesRecords (client : RecordClient) (stream : List UInt8) (history : List ClientEvent) : Prop :=
  (returned history).flatten = wholeRecords client.recordSize stream

/-- The client leaves its loop after the server's close, when it has consumed the records. -/
structure StopsAfterClose (client : RecordClient) (stream : List UInt8) : Prop where
  leaves : LeavesLoop client stream
  consumes : ∀ rounds history socket,
    socketMachine.Runs () (client.startRuntimeLoop rounds) ⟨stream⟩ history () socket →
    ConsumesRecords client stream history

section

variable {rounds size : Nat} {socket : Socket} {client : RecordClient} {stream : List UInt8}

@[simp] theorem sizeofPin_pos : 0 < sizeofPin := by decide

theorem recordSize_pos (client : RecordClient) : 0 < client.recordSize := by
  cases client <;> decide

theorem perform_recv {answer : RecvAnswer} {after : Socket}
    (performed : socketMachine.perform () (.recv size) answer socket = some after) :
    socket.Delivers size answer ∧ after = ⟨socket.unread.drop answer.length⟩ := by
  obtain ⟨delivers, same⟩ := Option.ite_none_right_eq_some.mp performed
  exact ⟨delivers, (Option.some.inj same).symm⟩

theorem perform_peek {answer : RecvAnswer} {after : Socket}
    (performed : socketMachine.perform () (.peek size) answer socket = some after) : after = socket := by
  obtain ⟨_, same⟩ := Option.ite_none_right_eq_some.mp performed
  exact (Option.some.inj same).symm

/-- What `receive_data` makes of the answer of its `recv`. -/
def receiveFlow (size : Nat) : RecvAnswer → LoopFlow Unit (Option (List UInt8))
  | .failed _ => .exit none
  | .received bytes =>
    if bytes.length ≠ size ∧ bytes.length ≠ 0 then .exit none
    else if bytes.length = 0 then .next () else .exit (some bytes)

theorem receiveFlow_whole {bytes : List UInt8} (positive : 0 < size) (whole : bytes.length = size) :
    receiveFlow size (.received bytes) = .exit (some bytes) := by
  rw [receiveFlow, if_neg fun short => short.1 whole, if_neg (by omega)]

theorem receiveFlow_short {bytes : List UInt8} (short : bytes.length ≠ size) (some_bytes : bytes.length ≠ 0) :
    receiveFlow size (.received bytes) = .exit none := if_pos ⟨short, some_bytes⟩

theorem receiveFlow_end : receiveFlow size (.received []) = .next () := by simp [receiveFlow]

/-- One round of `receive_data`. -/
def receiveOnce (size : Nat) : ClientProgram (LoopFlow Unit (Option (List UInt8))) := do
  return receiveFlow size (← ClientCall.make (.recv size))

theorem receiveData_eq : receiveData rounds size = (forFrom (fun _ _ => receiveOnce size) rounds 0 () >>= fun flow =>
    match flow with
    | .next () => clientGoesOn
    | .exit received => return received) := by
  have same_round : receiveOnce size = (do
      let readBytes : RecvAnswer ← ClientCall.make (.recv size)
      match readBytes with
      | .failed _ => return .exit none
      | .received bytes =>
        if bytes.length ≠ size ∧ bytes.length ≠ 0 then return .exit none
        else if bytes.length = 0 then return .next () else return .exit (some bytes)) := by
    refine congrArg (ClientCall.make (.recv size) >>= ·) (funext fun readBytes => ?_)
    cases readBytes with
    | failed error => rfl
    | received bytes => simp only [receiveFlow, apply_ite pure]
  rw [same_round]
  rfl

theorem wp_receiveOnce (left : socket.unread ≠ []) : socketMachine.wp () (receiveOnce size) (fun _ flow after =>
    ∃ received, flow = .exit received ∧
      ∀ bytes, received = some bytes → after.unread.length + size = socket.unread.length) socket := by
  refine wp_bind.mpr fun answer after performed => wp_done.mpr ?_
  obtain ⟨delivers, rfl⟩ := perform_recv performed
  match answer with
  | .failed error => exact ⟨none, rfl, nofun⟩
  | .received bytes =>
    obtain ⟨isPrefix, -, onlyAtEnd⟩ := delivers
    have some_bytes : bytes.length ≠ 0 := fun empty => left (onlyAtEnd (List.eq_nil_of_length_eq_zero empty))
    by_cases whole : bytes.length = size
    · refine ⟨some bytes, receiveFlow_whole (by omega) whole, fun _ _ => ?_⟩
      have bound := isPrefix.length_le
      simp only [RecvAnswer.length, List.length_drop]
      omega
    · exact ⟨none, receiveFlow_short whole some_bytes, nofun⟩

theorem receiveData_returns (left : socket.unread ≠ []) :
    socketMachine.Avoids () (· = .goesOn) (receiveData (rounds + 1) size) socket ∧
      socketMachine.wp () (receiveData (rounds + 1) size) (fun _ received after => ∀ bytes,
        received = some bytes → after.unread.length + size = socket.unread.length) socket := by
  have loop : socketMachine.wp () (forFrom (fun _ _ => receiveOnce size) (rounds + 1) 0 ()) (fun _ flow after =>
      ∃ received, flow = .exit received ∧
        ∀ bytes, received = some bytes → after.unread.length + size = socket.unread.length) socket := by
    refine wp_bind.mpr (wp_mono ?_ (wp_receiveOnce left))
    rintro _ _ after ⟨received, rfl, taken⟩
    exact ⟨received, rfl, taken⟩
  rw [receiveData_eq]
  constructor
  · refine avoids_bind (avoids_of_calls (calls_forFrom (fun _ _ => ?_) _ _ _) _) (wp_mono ?_ loop)
    · exact calls_bind (by simp [ClientCall.make]) fun _ => calls_pure _ _
    · rintro _ _ after ⟨received, rfl, _⟩
      exact True.intro
  · refine wp_bind.mpr (wp_mono ?_ loop)
    rintro _ _ after ⟨received, rfl, taken⟩
    exact taken

theorem avoids_clientShouldStop : socketMachine.Avoids () (· = .goesOn) clientShouldStop socket :=
  avoids_of_calls (calls_bind (by simp [ClientCall.make]) fun _ => calls_pure _ _) socket

theorem wp_clientShouldStop : socketMachine.wp () clientShouldStop (fun _ _ after => after = socket) socket := by
  refine wp_bind.mpr fun answer after performed => ?_
  exact perform_peek performed

theorem avoids_goOn (client : RecordClient) (bytes : List UInt8) :
    socketMachine.Avoids () (· = .goesOn) (client.goOn bytes) socket := by
  cases client with
  | secondWorker =>
    refine avoids_bind avoids_clientShouldStop (wp_mono (fun _ stops _ _ => ?_) wp_clientShouldStop)
    cases stops with
    | true => exact True.intro
    | false => exact ⟨by simp, fun _ _ _ => True.intro⟩
  | _ => exact True.intro

theorem wp_goOn (client : RecordClient) (bytes : List UInt8) :
    socketMachine.wp () (client.goOn bytes) (fun _ _ after => after = socket) socket := by
  cases client with
  | secondWorker =>
    refine wp_bind.mpr (wp_mono ?_ wp_clientShouldStop)
    rintro _ stops _ rfl
    cases stops with
    | true => exact rfl
    | false => exact fun _ _ performed => (Option.some.inj performed).symm
  | _ => exact rfl

theorem readingRound_takes (rounds size : Nat) (client : RecordClient) (left : socket.unread ≠ []) :
    socketMachine.Avoids () (· = .goesOn) (readingRound (rounds + 1) size client.goOn) socket ∧
    socketMachine.wp () (readingRound (rounds + 1) size client.goOn) (fun _ more after =>
      more = true → after.unread.length + size = socket.unread.length) socket := by
  constructor
  · refine avoids_bind avoids_clientShouldStop (wp_mono ?_ wp_clientShouldStop)
    rintro _ stops _ rfl
    cases stops with
    | true => exact True.intro
    | false =>
      refine avoids_bind (receiveData_returns left).1 (wp_mono ?_ (receiveData_returns left).2)
      intro _ received after _
      cases received with
      | none => exact True.intro
      | some bytes => exact avoids_goOn client bytes
  · refine wp_bind.mpr (wp_mono ?_ wp_clientShouldStop)
    rintro _ stops _ rfl
    cases stops with
    | true => exact nofun
    | false =>
      refine wp_bind.mpr (wp_mono ?_ (receiveData_returns left).2)
      intro _ received after taken
      cases received with
      | none => exact nofun
      | some bytes =>
        refine wp_mono ?_ (wp_goOn client bytes)
        rintro _ _ _ rfl _
        exact taken bytes rfl

/-- `while (round())`, as one round of a loop. -/
def goOnWhile (round : ClientProgram Bool) : ClientProgram (LoopFlow Unit Unit) := do
  if ← round then return .next () else return .exit ()

theorem clientLoop_eq (round : ClientProgram Bool) : clientLoop rounds round =
    (forFrom (fun _ _ => goOnWhile round) rounds 0 () >>= fun flow =>
      match flow with
      | .next () => clientGoesOn
      | .exit () => return ()) := rfl

theorem goOnWhile_takes (rounds size : Nat) (client : RecordClient) (left : socket.unread ≠ []) :
    socketMachine.Avoids () (· = .goesOn) (goOnWhile (readingRound (rounds + 1) size client.goOn)) socket ∧
    socketMachine.wp () (goOnWhile (readingRound (rounds + 1) size client.goOn)) (fun _ flow after =>
      flow = .next () → after.unread.length + size = socket.unread.length) socket := by
  obtain ⟨avoids, takes⟩ := readingRound_takes rounds size client left
  refine ⟨avoids_bind avoids (wp_mono ?_ takes), wp_bind.mpr (wp_mono ?_ takes)⟩
  · intro _ more _ _
    cases more <;> exact True.intro
  · intro _ more after taken
    cases more with
    | false => exact nofun
    | true => exact fun _ => taken rfl

theorem clientLoop_leaves (client : RecordClient) (partly : ¬ client.recordSize ∣ stream.length)
    (enough : stream.length < rounds) : socketMachine.Avoids () (· = .goesOn)
      (clientLoop rounds (readingRound rounds client.recordSize client.goOn)) ⟨stream⟩ := by
  obtain ⟨further, rfl⟩ := Nat.exists_eq_succ_of_ne_zero (Nat.ne_zero_of_lt enough)
  have left : ∀ (i : Nat) (s : Socket), i * client.recordSize + s.unread.length = stream.length →
      s.unread ≠ [] := by
    intro i s taken none_left
    rw [none_left, List.length_nil, Nat.add_zero] at taken
    exact partly ⟨i, by rw [← taken, Nat.mul_comm]⟩
  let taken (i : Nat) (_ : Unit) (s : Socket) : Prop := i * client.recordSize + s.unread.length = stream.length
  have each : ∀ i carried s, taken i carried s →
      socketMachine.wp () (goOnWhile (readingRound (further + 1) client.recordSize client.goOn))
        (fun _ flow after => ∀ carried', flow = .next carried' → taken (i + 1) carried' after) s := by
    intro i _ s before
    refine wp_mono ?_ (goOnWhile_takes further client.recordSize client (left i s before)).2
    rintro _ _ after record carried' rfl
    have size_eq := record rfl
    have passed : i * client.recordSize + s.unread.length = stream.length := before
    show (i + 1) * client.recordSize + after.unread.length = stream.length
    rw [Nat.succ_mul]
    omega
  have start : taken 0 () ⟨stream⟩ := by simp [taken]
  have loop := @wp_forFrom _ _ _ _ _ _ socketMachine ()
    (fun _ _ => goOnWhile (readingRound (further + 1) client.recordSize client.goOn))
    (fun i _ => taken i) (fun _ _ _ => True) (further + 1) 0 () [] ⟨stream⟩
    (fun i _ carried s _ _ before => wp_mono (fun _ flow _ kept => by
      cases flow with
      | next carried' => exact kept carried' rfl
      | exit _ => exact True.intro) (each i carried s before)) start
  have avoids := @avoids_forFrom _ _ _ _ _ _ socketMachine () (· = .goesOn)
    (fun _ _ => goOnWhile (readingRound (further + 1) client.recordSize client.goOn))
    taken (further + 1) 0 () ⟨stream⟩ (fun i carried s _ _ before =>
      ⟨(goOnWhile_takes further client.recordSize client (left i s before)).1,
        wp_mono (fun _ flow _ kept => by
          cases flow with
          | next carried' => exact kept carried' rfl
          | exit _ => exact True.intro) (each i carried s before)⟩) start
  rw [clientLoop_eq]
  refine avoids_bind avoids (wp_mono ?_ loop)
  intro _ flow after taken
  cases flow with
  | exit _ => exact True.intro
  | next _ =>
    have size_pos := recordSize_pos client
    have some_rounds : (0 + (further + 1)) * client.recordSize + after.unread.length = stream.length := taken
    have grows : further + 1 ≤ (0 + (further + 1)) * client.recordSize := by
      rw [Nat.zero_add]
      exact Nat.le_mul_of_pos_right _ size_pos
    omega

theorem receiveOnce_at_end : socketMachine.Can () (receiveOnce size)
    (fun flow after => flow = .next () ∧ after = ⟨[]⟩) ⟨[]⟩ := by
  refine can_bind.mpr ⟨.received [], ⟨[]⟩, rfl, ?_⟩
  exact ⟨receiveFlow_end, rfl⟩

theorem receiveData_spins : ¬ socketMachine.Avoids () (· = .goesOn) (receiveData rounds size) ⟨[]⟩ := by
  have spins : ∀ count start, socketMachine.Can () (forFrom (fun _ _ => receiveOnce size) count start ())
      (fun flow _ => flow = .next ()) ⟨[]⟩ := by
    intro count
    induction count with
    | zero => exact fun start => rfl
    | succ count ih =>
      intro start
      refine can_bind.mpr (can_mono ?_ receiveOnce_at_end)
      rintro _ _ ⟨rfl, rfl⟩
      exact ih (start + 1)
  rw [receiveData_eq]
  refine not_avoids_bind (can_mono ?_ (spins rounds 0))
  rintro _ _ rfl avoids
  exact avoids.1 rfl

theorem clientShouldStop_can : socketMachine.Can () clientShouldStop (fun stops after =>
    stops = false ∧ after = socket) socket :=
  can_bind.mpr ⟨.failed .eagain, socket, rfl, rfl, rfl⟩

theorem receiveData_can (positive : 0 < size) (whole : size ≤ stream.length) :
    socketMachine.Can () (receiveData (rounds + 1) size) (fun received after =>
      received = some (stream.take size) ∧ after = ⟨stream.drop size⟩) ⟨stream⟩ := by
  have taken : (stream.take size).length = size := by
    rw [List.length_take, Nat.min_eq_left whole]
  have delivers : Socket.Delivers ⟨stream⟩ size (.received (stream.take size)) := by
    refine ⟨List.take_prefix _ _, Nat.le_of_eq taken, fun empty => ?_⟩
    rw [empty, List.length_nil] at taken
    omega
  have once : socketMachine.Can () (receiveOnce size) (fun flow after =>
      flow = .exit (some (stream.take size)) ∧ after = ⟨stream.drop size⟩) ⟨stream⟩ := by
    refine can_bind.mpr ⟨.received (stream.take size), ⟨stream.drop size⟩, ?_, ?_⟩
    · simp only [socketMachine, Socket.perform, if_pos delivers, RecvAnswer.length, taken]
    · exact ⟨receiveFlow_whole positive taken, rfl⟩
  rw [receiveData_eq]
  refine can_bind.mpr (can_bind.mpr (can_mono ?_ once))
  rintro _ _ ⟨rfl, rfl⟩
  exact ⟨rfl, rfl⟩

theorem goOn_can (client : RecordClient) (bytes : List UInt8) :
    socketMachine.Can () (client.goOn bytes) (fun more after => more = true ∧ after = socket) socket := by
  cases client with
  | secondWorker =>
    refine can_bind.mpr (can_mono ?_ clientShouldStop_can)
    rintro _ _ ⟨rfl, rfl⟩
    exact ⟨.sent sizeofPin, _, rfl, rfl, rfl⟩
  | _ => exact ⟨rfl, rfl⟩

theorem readingRound_spins {go : List UInt8 → ClientProgram Bool}
    (spins : ¬ socketMachine.Avoids () (· = .goesOn) (receiveData rounds size) socket) :
    ¬ socketMachine.Avoids () (· = .goesOn) (readingRound rounds size go) socket := by
  refine not_avoids_bind (can_mono ?_ clientShouldStop_can)
  rintro _ _ ⟨rfl, rfl⟩
  exact not_avoids_bind_left spins

theorem readingRound_can (client : RecordClient) (positive : 0 < size) (whole : size ≤ stream.length) :
    socketMachine.Can () (readingRound (rounds + 1) size client.goOn) (fun more after =>
      more = true ∧ after = ⟨stream.drop size⟩) ⟨stream⟩ := by
  refine can_bind.mpr (can_mono ?_ clientShouldStop_can)
  rintro _ _ ⟨rfl, rfl⟩
  refine can_bind.mpr (can_mono ?_ (receiveData_can positive whole))
  rintro _ _ ⟨rfl, rfl⟩
  exact goOn_can client _

theorem readingRound_goes_on (client : RecordClient) (rounds : Nat) (records : client.recordSize ∣ stream.length) :
    ¬ socketMachine.Avoids () (· = .goesOn) (readingRound rounds client.recordSize client.goOn) ⟨stream⟩ ∨
      socketMachine.Can () (readingRound rounds client.recordSize client.goOn) (fun more after =>
        more = true ∧ client.recordSize ∣ after.unread.length) ⟨stream⟩ := by
  rcases rounds with _ | further
  · exact .inl (readingRound_spins fun avoids => avoids.1 rfl)
  rcases Nat.eq_zero_or_pos stream.length with empty | some_left
  · rw [List.eq_nil_of_length_eq_zero empty]
    exact .inl (readingRound_spins receiveData_spins)
  · refine .inr (can_mono ?_ (readingRound_can client (recordSize_pos client)
      (Nat.le_of_dvd some_left records)))
    rintro _ _ ⟨rfl, rfl⟩
    refine ⟨rfl, ?_⟩
    rw [List.length_drop]
    exact Nat.dvd_sub records (Nat.dvd_refl _)

theorem forFrom_goes_on (client : RecordClient) {finish : LoopFlow Unit Unit → ClientProgram Unit}
    (last : finish (.next ()) = clientGoesOn) (count start : Nat)
    (records : client.recordSize ∣ socket.unread.length) : ¬ socketMachine.Avoids () (· = .goesOn)
      (forFrom (fun _ _ => goOnWhile (readingRound rounds client.recordSize client.goOn)) count start () >>= finish)
      socket := by
  induction count generalizing start socket with
  | zero =>
    rw [forFrom, done_bind, last]
    exact fun avoids => avoids.1 rfl
  | succ count ih =>
    rcases readingRound_goes_on client rounds records with spins | takes
    · exact not_avoids_bind_left (not_avoids_bind_left (not_avoids_bind_left spins))
    · rw [forFrom, bind_assoc]
      refine not_avoids_bind (can_bind.mpr (can_mono ?_ takes))
      rintro _ after ⟨rfl, fewer⟩
      exact ih (start + 1) fewer

theorem clientLoop_goes_on (client : RecordClient) (rounds : Nat) (records : client.recordSize ∣ stream.length) :
    ¬ socketMachine.Avoids () (· = .goesOn)
      (clientLoop rounds (readingRound rounds client.recordSize client.goOn)) ⟨stream⟩ := by
  rw [clientLoop_eq]
  exact forFrom_goes_on client rfl rounds 0 records

theorem returned_append (first later : List ClientEvent) :
    returned (first ++ later) = returned first ++ returned later := List.filterMap_append

theorem returned_recv_whole {bytes : List UInt8} (whole : bytes.length = size) :
    returned [⟨.recv size, .received bytes⟩] = [bytes] := by
  simp [returned, returnedBy, whole]

theorem returned_recv_short {bytes : List UInt8} (short : bytes.length ≠ size) :
    returned [⟨.recv size, .received bytes⟩] = [] := by
  simp [returned, returnedBy, short]

theorem consumed_append (first later : List ClientEvent) :
    consumed (first ++ later) = consumed first + consumed later := by
  simp only [consumed, List.map_append, List.sum_append]

theorem consumed_cons (event : ClientEvent) (history : List ClientEvent) :
    consumed (event :: history) = takenBy event + consumed history := List.sum_cons

theorem attended_append {history later : List ClientEvent} : Attended size socket (history ++ later) ↔
    Attended size socket history ∧ Attended size ⟨socket.unread.drop (consumed history)⟩ later := by
  induction history generalizing socket with
  | nil => simp [Attended, consumed]
  | cons event history ih =>
    simp only [List.cons_append, Attended, ih, List.drop_drop, and_assoc, consumed_cons]

theorem attended_one {event : ClientEvent} :
    Attended size socket [event] ↔ (size ≤ socket.unread.length → socket.Attends event) := iff_of_eq (and_true _)

theorem wp_consumed {α : Type} {p : ClientProgram α} : socketMachine.wp () p
    (fun history _ after => after = ⟨socket.unread.drop (consumed history)⟩) socket := by
  refine wp_iff_runs.mpr fun history _ after run => ?_
  induction run with
  | done => rfl
  | @call c _ answer _ _ _ _ _ performed _ ih =>
    rw [ih, consumed_cons, ← List.drop_drop]
    cases c with
    | peek size => rw [perform_peek performed]; rfl
    | recv size => rw [(perform_recv performed).2]; rfl
    | goesOn => exact answer.elim
    | _ => rw [← Option.some.inj performed]; rfl

theorem wholeRecords_eq_nil_iff (positive : 0 < size) : wholeRecords size stream = [] ↔ ¬ size ≤ stream.length := by
  constructor
  · intro none_whole whole
    rw [wholeRecords_of_le positive whole] at none_whole
    have taken := congrArg List.length (List.append_eq_nil_iff.mp none_whole).1
    rw [List.length_take, List.length_nil] at taken
    omega
  · exact fun short => wholeRecords_of_lt (Nat.lt_of_not_le short)

/-- No record has been returned and no byte taken, and no call was disturbed. -/
structure Idle (size : Nat) (socket : Socket) (history : List ClientEvent) (after : Socket) : Prop where
  returned_eq : returned history = []
  consumed_eq : consumed history = 0
  attended : Attended size socket history
  same : after = socket

/-- No record has been returned although one was unread, unless no call was disturbed. -/
structure Stopped (size : Nat) (socket : Socket) (history : List ClientEvent) : Prop where
  returned_eq : returned history = []
  attended_iff : Attended size socket history ↔ ¬ size ≤ socket.unread.length

section

variable {first later : List ClientEvent} {middle after : Socket}

theorem Idle.attended_append (idle : Idle size socket first middle) :
    Attended size socket (first ++ later) ↔ Attended size socket later := by
  rw [OsIhw3.attended_append, idle.consumed_eq, List.drop_zero, and_iff_right idle.attended]

theorem Idle.returned_append (idle : Idle size socket first middle) :
    returned (first ++ later) = returned later := by
  rw [OsIhw3.returned_append, idle.returned_eq, List.nil_append]

theorem Idle.trans (idle : Idle size socket first middle) (also : Idle size middle later after) :
    Idle size socket (first ++ later) after := by
  obtain rfl := idle.same
  refine ⟨idle.returned_append.trans also.returned_eq, ?_, idle.attended_append.mpr also.attended, also.same⟩
  have none_taken := idle.consumed_eq
  have none_taken' := also.consumed_eq
  simp only [consumed, List.map_append, List.sum_append] at none_taken none_taken' ⊢
  omega

theorem Idle.stopped (idle : Idle size socket first middle) (stopped : Stopped size socket later) :
    Stopped size socket (first ++ later) :=
  ⟨idle.returned_append.trans stopped.returned_eq, idle.attended_append.trans stopped.attended_iff⟩

theorem stopped_of_disturbed {event : ClientEvent} (nothing : returned [event] = [])
    (disturbed : size ≤ socket.unread.length → ¬ socket.Attends event) : Stopped size socket [event] :=
  ⟨nothing, attended_one.trans ⟨fun attends whole => disturbed whole (attends whole),
    fun short whole => absurd whole short⟩⟩

def ContinuesOrStops (size : Nat) (socket : Socket) (history : List ClientEvent) (after : Socket) : Bool → Prop
  | true => Idle size socket history after
  | false => Stopped size socket history

/-- What `receive_data` returns and leaves. -/
def ReceivesRecord (size : Nat) (socket : Socket) (history : List ClientEvent) (after : Socket) :
    Option (List UInt8) → Prop
  | none => Stopped size socket history
  | some bytes => returned history = [bytes] ∧ consumed history = size ∧ Attended size socket history ∧
      size ≤ socket.unread.length ∧ bytes = socket.unread.take size ∧ after = ⟨socket.unread.drop size⟩

theorem Idle.receivesRecord {received : Option (List UInt8)} (idle : Idle size socket first socket)
    (receives : ReceivesRecord size socket later after received) :
    ReceivesRecord size socket (first ++ later) after received := by
  cases received with
  | none => exact idle.stopped receives
  | some bytes =>
    obtain ⟨one, taken, attended, rest⟩ := receives
    refine ⟨idle.returned_append.trans one, ?_, idle.attended_append.mpr attended, rest⟩
    have none_taken := idle.consumed_eq
    simp only [consumed, List.map_append, List.sum_append] at none_taken taken ⊢
    omega

end

theorem wp_clientShouldStop_goesOn : socketMachine.wp () clientShouldStop (fun history stops after =>
    ContinuesOrStops size socket history after !stops) socket := by
  refine wp_bind.mpr fun (answer : RecvAnswer) after performed => wp_done.mpr ?_
  show ContinuesOrStops size socket [⟨.peek netBufferSize, answer⟩] after !stopsOn answer
  cases stops : stopsOn answer with
  | false => exact ⟨rfl, rfl, attended_one.mpr fun _ => stops, perform_peek performed⟩
  | true => exact stopped_of_disturbed rfl fun _ attends => absurd (stops.symm.trans attends) (by decide)

theorem wp_goOn_goesOn (client : RecordClient) (bytes : List UInt8) : socketMachine.wp () (client.goOn bytes)
    (fun history more after => ContinuesOrStops size socket history after more) socket := by
  cases client with
  | secondWorker =>
    refine wp_bind.mpr (wp_mono ?_ (@wp_clientShouldStop_goesOn size socket))
    intro first stops middle looked
    cases stops with
    | true =>
      show Stopped size socket (first ++ [])
      rw [List.append_nil]
      exact looked
    | false =>
      have idle : Idle size socket first middle := looked
      obtain rfl := idle.same
      refine fun (answer : SendAnswer) _ performed => wp_done.mpr ?_
      obtain rfl := Option.some.inj performed
      by_cases sent : answer = .sent sizeofPin
      · subst sent
        refine idle.trans ⟨rfl, rfl, attended_one.mpr fun _ => ?_, rfl⟩
        exact congrArg SendAnswer.sent (Pin.length_bytes _).symm
      · rw [decide_eq_false sent]
        refine idle.stopped (stopped_of_disturbed rfl fun _ attends => sent ?_)
        exact Eq.trans attends (congrArg SendAnswer.sent (Pin.length_bytes _))
  | _ => exact ⟨rfl, rfl, True.intro, rfl⟩

theorem wp_receiveOnce_receives (positive : 0 < size) : socketMachine.wp () (receiveOnce size)
    (fun history flow after => match flow with
      | .next _ => Idle size socket history after
      | .exit received => ReceivesRecord size socket history after received) socket := by
  refine wp_bind.mpr fun answer after performed => wp_done.mpr ?_
  obtain ⟨delivers, rfl⟩ := perform_recv performed
  match answer with
  | .failed error => exact stopped_of_disturbed rfl fun _ => nofun
  | .received bytes =>
    obtain ⟨isPrefix, -, onlyAtEnd⟩ := delivers
    by_cases whole : bytes.length = size
    · have enough := isPrefix.length_le
      have taken : bytes = socket.unread.take size := whole ▸ List.prefix_iff_eq_take.mp isPrefix
      rw [receiveFlow_whole positive whole]
      refine ⟨returned_recv_whole whole, ?_, attended_one.mpr fun _ => congrArg _ taken, by omega, taken, ?_⟩
      · exact whole
      · rw [← whole]
        rfl
    by_cases ended : bytes = []
    · subst ended
      rw [receiveFlow_end]
      refine ⟨returned_recv_short whole, rfl, attended_one.mpr fun more => ?_, rfl⟩
      rw [onlyAtEnd rfl, List.length_nil] at more
      omega
    · rw [receiveFlow_short whole fun empty => ended (List.eq_nil_of_length_eq_zero empty)]
      refine stopped_of_disturbed (returned_recv_short whole) fun more attends => whole ?_
      rw [RecvAnswer.received.inj attends, List.length_take, Nat.min_eq_left more]

theorem wp_receiveData_receives (positive : 0 < size) : socketMachine.wp () (receiveData rounds size)
    (fun history received after => ReceivesRecord size socket history after received) socket := by
  have loop := @wp_forFrom _ _ _ _ _ _ socketMachine () (fun _ _ => receiveOnce size)
    (fun _ history _ s => Idle size socket history s)
    (fun history received s => ReceivesRecord size socket history s received) rounds 0 () [] socket
    (fun _ history _ s _ _ idle => by
      obtain rfl := idle.same
      refine wp_mono ?_ (wp_receiveOnce_receives positive)
      intro later flow after outcome
      cases flow with
      | next _ => exact idle.trans outcome
      | exit received => exact idle.receivesRecord outcome) ⟨rfl, rfl, True.intro, rfl⟩
  rw [receiveData_eq]
  refine wp_bind.mpr (wp_mono ?_ loop)
  intro history flow after outcome
  cases flow with
  | next _ => exact fun answer => answer.elim
  | exit received =>
    refine wp_pure.mpr ?_
    rw [List.append_nil]
    exact outcome

/-- After a round that is not the last, its record and the whole ones after it are those from before, and
    no call was disturbed; the last round has left no whole record if no call was disturbed. -/
def RoundConsumes (size : Nat) (socket : Socket) (history : List ClientEvent) (after : Socket) : Bool → Prop
  | true => Attended size socket history ∧
      (returned history).flatten ++ wholeRecords size after.unread = wholeRecords size socket.unread
  | false => (returned history).flatten = wholeRecords size socket.unread ↔ Attended size socket history

theorem Stopped.roundConsumes {history : List ClientEvent} {after : Socket} (positive : 0 < size)
    (stopped : Stopped size socket history) : RoundConsumes size socket history after false := by
  show (returned history).flatten = _ ↔ _
  rw [stopped.returned_eq, List.flatten_nil, stopped.attended_iff, ← wholeRecords_eq_nil_iff positive, eq_comm]

theorem wp_readingRound_consumes (client : RecordClient) (positive : 0 < size) : socketMachine.wp ()
    (readingRound rounds size client.goOn) (fun history more after =>
      RoundConsumes size socket history after more) socket := by
  refine wp_bind.mpr (wp_mono ?_ (@wp_clientShouldStop_goesOn size socket))
  intro first stops middle looked
  cases stops with
  | true =>
    refine wp_done.mpr ?_
    rw [List.append_nil]
    exact Stopped.roundConsumes positive looked
  | false =>
    have idle : Idle size socket first middle := looked
    obtain rfl := idle.same
    refine wp_bind.mpr (wp_mono ?_ (wp_receiveData_receives positive))
    intro second received after outcome
    cases received with
    | none =>
      refine wp_done.mpr ?_
      rw [List.append_nil]
      exact (idle.stopped outcome).roundConsumes positive
    | some bytes =>
      obtain ⟨one, consumed_eq, attended, whole, taken, rfl⟩ := outcome
      refine wp_mono ?_ (@wp_goOn_goesOn size _ client bytes)
      intro third more last goes
      have attended_iff : Attended size middle (first ++ (second ++ third)) ↔
          Attended size ⟨middle.unread.drop size⟩ third := by
        rw [idle.attended_append, attended_append, consumed_eq, and_iff_right attended]
      have records : returned third = [] → (returned (first ++ (second ++ third))).flatten = bytes := by
        intro none_returned
        rw [idle.returned_append, returned_append, one, none_returned, List.append_nil, List.flatten_singleton]
      cases more with
      | true =>
        have kept : Idle size _ third last := goes
        obtain rfl := kept.same
        refine ⟨attended_iff.mpr kept.attended, ?_⟩
        rw [records kept.returned_eq, wholeRecords_of_le positive whole, ← taken]
      | false =>
        have stopped : Stopped size _ third := goes
        show (returned (first ++ (second ++ third))).flatten = _ ↔ _
        rw [attended_iff, records stopped.returned_eq, stopped.attended_iff, wholeRecords_of_le positive whole, ← taken,
          ← wholeRecords_eq_nil_iff positive, List.self_eq_append_right]

theorem wp_clientLoop_consumes (client : RecordClient) (positive : 0 < size) : socketMachine.wp ()
    (clientLoop rounds (readingRound rounds size client.goOn)) (fun history _ _ =>
      (returned history).flatten = wholeRecords size stream ↔ Attended size ⟨stream⟩ history) ⟨stream⟩ := by
  have loop := @wp_forFrom _ _ _ _ _ _ socketMachine ()
    (fun _ _ => goOnWhile (readingRound rounds size client.goOn))
    (fun _ history _ s => s = ⟨stream.drop (consumed history)⟩ ∧ Attended size ⟨stream⟩ history ∧
      (returned history).flatten ++ wholeRecords size s.unread = wholeRecords size stream)
    (fun history _ _ => (returned history).flatten = wholeRecords size stream ↔ Attended size ⟨stream⟩ history)
    rounds 0 () [] ⟨stream⟩
    (fun _ history _ s _ _ before => by
      obtain ⟨rfl, attended, records⟩ := before
      refine wp_bind.mpr (wp_mono ?_ (wp_and wp_consumed (wp_readingRound_consumes client positive)))
      rintro later more after ⟨rest, outcome⟩
      have attended_iff : Attended size ⟨stream⟩ (history ++ (later ++ [])) ↔
          Attended size ⟨stream.drop (consumed history)⟩ later := by
        rw [List.append_nil, attended_append, and_iff_right attended]
      have flattened : (returned (history ++ (later ++ []))).flatten =
          (returned history).flatten ++ (returned later).flatten := by
        rw [List.append_nil, returned_append, List.flatten_append]
      cases more with
      | true =>
        obtain ⟨attended_later, records_later⟩ := outcome
        refine ⟨?_, attended_iff.mpr attended_later, ?_⟩
        · rw [rest, List.drop_drop, consumed_append, consumed_append]
          rfl
        · rw [flattened, List.append_assoc, records_later, records]
      | false =>
        show (returned (history ++ (later ++ []))).flatten = _ ↔ _
        rw [flattened, attended_iff, ← records, List.append_cancel_left_eq]
        exact outcome) ⟨rfl, True.intro, rfl⟩
  rw [clientLoop_eq]
  refine wp_bind.mpr (wp_mono ?_ loop)
  intro history flow after outcome
  cases flow with
  | next _ => exact fun answer => answer.elim
  | exit _ =>
    refine wp_pure.mpr ?_
    rw [List.append_nil]
    exact outcome

end

/-- After the server's orderly close a client leaves its loop on every connection exactly if the stream does not
    end with a whole record, and in every run it has consumed the records exactly if no call is disturbed while a
    whole record is unread. -/
theorem stopsAfterClose_iff {client : RecordClient} {stream : List UInt8} (receives : client ≠ .manager) :
    (LeavesLoop client stream ↔ ¬ client.recordSize ∣ stream.length) ∧
      ∀ rounds history socket, socketMachine.Runs () (client.startRuntimeLoop rounds) ⟨stream⟩ history () socket →
        (ConsumesRecords client stream history ↔ Attended client.recordSize ⟨stream⟩ history) := by
  refine ⟨⟨?_, fun partly => ⟨stream.length + 1, fun rounds enough => ?_⟩⟩, fun rounds history socket run => ?_⟩
  · rintro ⟨enough, leaves⟩ records
    have avoids := leaves enough (Nat.le_refl _)
    rw [startRuntimeLoop_eq receives] at avoids
    exact clientLoop_goes_on client enough records avoids
  · rw [startRuntimeLoop_eq receives]
    exact clientLoop_leaves client partly enough
  · rw [startRuntimeLoop_eq receives] at run
    exact wp_iff_runs.mp (wp_clientLoop_consumes client (recordSize_pos client)) _ _ _ run

/-- Nothing arrives while a client looks at its connection, `recv` waits for the record and the peer has gone when
    a pin is sent. -/
def peerGone : (call : ClientCall) → Socket → Option call.Answer
  | .peek _, _ => some (.failed .eagain)
  | .recv size, socket => some (.received (socket.unread.take size))
  | .sendto _, _ => some (.failed .epipe)
  | .nextUserCommand, _ => some false
  | .getCommandArgs, _ => some []
  | .goesOn, _ => none

/-- The calls of a second worker whose pin finds nobody any more. -/
def unsentPin : List ClientEvent :=
  [⟨.peek netBufferSize, .failed .eagain⟩, ⟨.recv sizeofPin, .received (Pin.bytes ⟨7⟩)⟩,
    ⟨.peek netBufferSize, .failed .eagain⟩, ⟨.sendto (Pin.bytes ⟨7⟩), .failed .epipe⟩]

/-- A second worker that is sent a pin and the shutdown message stops after the pin, also when it cannot send it. -/
theorem second_worker_stops : LeavesLoop .secondWorker (Pin.bytes ⟨7⟩ ++ shutdownMessage) ∧
    (∃ socket, socketMachine.Runs () (RecordClient.secondWorker.startRuntimeLoop 2)
      ⟨Pin.bytes ⟨7⟩ ++ shutdownMessage⟩ unsentPin () socket) ∧
    ConsumesRecords .secondWorker (Pin.bytes ⟨7⟩ ++ shutdownMessage) unsentPin := by
  obtain ⟨leaves_iff, consumes_iff⟩ := @stopsAfterClose_iff .secondWorker (Pin.bytes ⟨7⟩ ++ shutdownMessage) (by decide)
  have run : socketMachine.Runs () (RecordClient.secondWorker.startRuntimeLoop 2)
      ⟨Pin.bytes ⟨7⟩ ++ shutdownMessage⟩ unsentPin () ⟨shutdownMessage⟩ :=
    @runs_of_exec _ _ _ _ _ socketMachine () peerGone _ _ _ _ _ rfl
  refine ⟨leaves_iff.mpr (by decide), ⟨_, run⟩, (consumes_iff _ _ _ run).mpr ?_⟩
  have none_whole : ¬ sizeofPin ≤ shutdownMessage.length := by decide
  exact ⟨fun _ => rfl, fun _ => rfl, fun _ => rfl, fun whole => absurd whole none_whole, True.intro⟩

/-- A third worker that has received a pin before the server closed stays in its loop. -/
theorem third_worker_stays : ¬ ∀ (client : RecordClient) (stream : List UInt8), client ≠ .manager →
    StopsAfterClose client stream := by
  intro stop
  obtain ⟨⟨enough, leaves⟩, -⟩ := stop .thirdWorker (Pin.bytes ⟨7⟩) (by decide)
  have avoids := leaves enough (Nat.le_refl _)
  rw [startRuntimeLoop_eq (by decide)] at avoids
  exact clientLoop_goes_on .thirdWorker enough (Nat.dvd_refl _) avoids

end ArchCompSystems.OsIhw3
