import ArchCompSystems.OsIhw3.Footprints
import ArchCompSystems.OsIhw3.Framing

namespace ArchCompSystems.OsIhw3

open Library Library.Program

/-- What `send_client_type_info` sends. -/
def ClientType.bytes (c : ClientType) : List UInt8 := [UInt8.ofNat c.toRaw, 0, 0, 0]

theorem clientTypeOfBytes_bytes (c : ClientType) : clientTypeOfBytes c.bytes = c.toRaw := by
  cases c <;> rfl

/-- The answers of successive `recv`s on a connection on which this stream arrives. -/
def Delivered : List UInt8 → List RecvAnswer → Prop
  | _, [] => True
  | stream, .failed error :: answers => error = .eagain ∧ Delivered stream answers
  | stream, .received bytes :: answers =>
    bytes ≠ [] ∧ bytes.length ≤ sizeofClientType ∧ bytes <+: stream ∧
      Delivered (stream.drop bytes.length) answers

/-- The answers of the `recv`s on a connection. -/
def recvsOn (fd : Int) (history : List ServerEvent) : List RecvAnswer := history.filterMap (recvFrom fd)

def registeredAs (fd : Int) (history : List ServerEvent) : List ClientType :=
  history.filterMap fun event => match event.1 with
    | .storeFd c _ fd' => if fd' = fd then some c else none
    | _ => none

def consumedBytes (answers : List RecvAnswer) : Nat := (answers.map RecvAnswer.length).sum

@[simp] theorem recvsOn_append (fd : Int) (history later : List ServerEvent) :
    recvsOn fd (history ++ later) = recvsOn fd history ++ recvsOn fd later := List.filterMap_append ..

@[simp] theorem registeredAs_append (fd : Int) (history later : List ServerEvent) :
    registeredAs fd (history ++ later) = registeredAs fd history ++ registeredAs fd later :=
  List.filterMap_append ..

@[simp] theorem recvsOn_nil (fd : Int) : recvsOn fd [] = [] := rfl

@[simp] theorem registeredAs_nil (fd : Int) : registeredAs fd [] = [] := rfl

@[simp] theorem consumedBytes_append (answers later : List RecvAnswer) :
    consumedBytes (answers ++ later) = consumedBytes answers + consumedBytes later := by
  simp only [consumedBytes, List.map_append, List.sum_append]

/-- Whatever else is answered, and whatever the server has registered, a client whose `recv`s are
    answered in this way is registered under its type, after the four bytes of it, or rejected. -/
def NeverMislabels (c : ClientType) (answers : List RecvAnswer) : Prop :=
  ∀ t s clientAddr clientAddrlen fd history value s',
    machine.Runs t (handleNewClient clientAddr clientAddrlen fd) s history value s' →
    recvsOn fd history <+: answers →
    (∀ registered ∈ registeredAs fd history, registered = c ∧ consumedBytes (recvsOn fd history) = sizeofClientType) ∧
      (value = true → c ∈ registeredAs fd history)

/-- `before` are at most fifteen answers none of which is whole, and then come all four bytes. -/
structure FirstWhole (before : List RecvAnswer) (bytes : List UInt8) (answers : List RecvAnswer) : Prop where
  leads : before ++ [.received bytes] <+: answers
  whole : bytes.length = sizeofClientType
  tries : before.length < 16
  short : ∀ answer ∈ before, answer.length ≠ sizeofClientType

/-- The first `recv` of four bytes comes before any other bytes, or they are no type. -/
def TypeWhole (answers : List RecvAnswer) : Prop :=
  ∀ before bytes, FirstWhole before bytes answers →
    consumedBytes before = 0 ∨ ClientType.ofRaw (clientTypeOfBytes bytes) = none

theorem delivered_of_nothing {stream : List UInt8} {before : List RecvAnswer} {bytes : List UInt8}
    {answers : List RecvAnswer} (delivered : Delivered stream answers)
    (leads : before ++ [.received bytes] <+: answers) (nothing : consumedBytes before = 0) : bytes <+: stream := by
  obtain ⟨rest, rfl⟩ := leads
  induction before with
  | nil => exact delivered.2.2.1
  | cons answer before ih =>
    cases answer with
    | failed error => exact ih (by simpa [consumedBytes, RecvAnswer.length] using nothing) delivered.2
    | received piece =>
      have empty : piece = [] := by
        simp only [consumedBytes, List.map_cons, List.sum_cons, RecvAnswer.length] at nothing
        exact List.length_eq_zero_iff.mp (by omega)
      exact absurd empty delivered.1

theorem eq_bytes_of_prefix {c : ClientType} {bytes further : List UInt8} (leads : bytes <+: c.bytes ++ further)
    (whole : bytes.length = sizeofClientType) : bytes = c.bytes := by
  rw [List.prefix_iff_eq_take.mp leads, whole]
  rfl

section

variable {fd : Int}

def Call.LeavesHandshake : Call → Prop
  | .recv _ _ | .storeFd _ _ _ => False
  | _ => True

theorem Call.Plain.leavesHandshake {call : Call} (plain : call.Plain) : call.LeavesHandshake := by
  cases call <;> first | exact True.intro | exact plain.elim

theorem always_leavesHandshake {α : Type} {p : ServerProgram α} (leaves : p.Calls Call.LeavesHandshake) :
    p.Always fun history _ => recvsOn fd history = [] ∧ registeredAs fd history = [] := by
  refine always_of_calls ⟨rfl, rfl⟩ ?_ leaves
  rintro ⟨call, answer⟩ history harmless ⟨received, registered⟩
  cases call <;> first | exact ⟨received, registered⟩ | exact harmless.elim

/-- `i` tries, none of them whole. -/
structure Tries (fd : Int) (i : Nat) (history : List ServerEvent) : Prop where
  unregistered : registeredAs fd history = []
  count : (recvsOn fd history).length = i
  short : ∀ answer ∈ recvsOn fd history, answer.length ≠ sizeofClientType

theorem Tries.next {i : Nat} {history : List ServerEvent} {answer : RecvAnswer} (tries : Tries fd i history)
    (short : answer.length ≠ sizeofClientType) :
    Tries fd (i + 1) (history ++ [⟨.recv fd sizeofClientType, answer⟩]) := by
  have received : recvsOn fd [⟨.recv fd sizeofClientType, answer⟩] = [answer] := by simp [recvsOn, recvFrom]
  refine ⟨?_, ?_, ?_⟩
  · rw [registeredAs_append, tries.unregistered]
    rfl
  · rw [recvsOn_append, received, List.length_append, tries.count, List.length_singleton]
  · rw [recvsOn_append, received]
    intro other member
    rcases List.mem_append.mp member with earlier | last
    · exact tries.short other earlier
    · obtain rfl := List.mem_singleton.mp last
      exact short

theorem receiveClientType_tries (fd : Int) : (receiveClientType fd).Always fun history result =>
    registeredAs fd history = [] ∧ ∀ type, result = some type →
      ∃ before bytes, FirstWhole before bytes (recvsOn fd history) ∧
        recvsOn fd history = before ++ [.received bytes] ∧ type = clientTypeOfBytes bytes := by
  unfold receiveClientType
  refine always_bind.mpr (Machine.wp_mono ?_ (@Machine.wp_forFrom _ _ _ _ _ _ (freeMachine _ _) () _
    (fun i history _ _ => Tries fd i history)
    (fun history bytes _ => ∃ before, registeredAs fd history = [] ∧ recvsOn fd history = before ++ [.received bytes] ∧
      FirstWhole before bytes (recvsOn fd history)) 16 0 () [] () ?_ ⟨rfl, rfl, nofun⟩))
  · intro history flow _ after
    cases flow with
    | next carried =>
      refine always_bind.mpr fun _ _ _ => ?_
      simp only [List.nil_append] at after
      exact ⟨by simpa [registeredAs] using after.unregistered, nofun⟩
    | exit bytes =>
      obtain ⟨before, unregistered, received, first⟩ := after
      simp only [List.nil_append] at unregistered received first
      simp only [always_pure, List.append_nil]
      refine ⟨unregistered, ?_⟩
      rintro type same
      cases same
      exact ⟨before, bytes, first, received, rfl⟩
  · intro i history _ _ _ bound tries
    refine Machine.wp_bind.mpr fun answer _ _ => ?_
    cases answer with
    | failed error =>
      have nothing : (RecvAnswer.failed error).length ≠ sizeofClientType := Nat.zero_ne_add_one 3
      exact tries.next nothing
    | received bytes =>
      refine Machine.wp_done.mpr ?_
      dsimp only
      split
      · rename_i whole
        have received : recvsOn fd (history ++ [⟨.recv fd sizeofClientType, .received bytes⟩]) =
            recvsOn fd history ++ [.received bytes] := by simp [recvsOn, recvFrom]
        refine ⟨recvsOn fd history, ?_, received, ?_⟩
        · rw [registeredAs_append, tries.unregistered]
          rfl
        · exact ⟨received ▸ List.prefix_refl _, whole, by rw [tries.count]; omega, tries.short⟩
      · rename_i short
        exact tries.next short

def Handshakes {α : Type} (fd : Int) (p : ServerProgram α)
    (post : List RecvAnswer → List ClientType → α → Prop) : Prop :=
  p.Always fun history result => post (recvsOn fd history) (registeredAs fd history) result

section

variable {α β : Type} {p : ServerProgram α} {f : α → ServerProgram β} {c : ClientType}
  {post : List RecvAnswer → List ClientType → β → Prop}

theorem handshakes_pure {value : β} (holds : post [] [] value) : Handshakes fd (pure value) post := holds

theorem handshakes_bind {first : List RecvAnswer → List ClientType → α → Prop} (before : Handshakes fd p first)
    (rest : ∀ received registered value, first received registered value → Handshakes fd (f value)
      fun later alsoRegistered => post (received ++ later) (registered ++ alsoRegistered)) :
    Handshakes fd (p >>= f) post := by
  refine always_bind.mpr (always_mono (fun history value holds => ?_) before)
  refine always_mono (fun later result after => ?_) (rest _ _ value holds)
  rwa [recvsOn_append, registeredAs_append]

theorem handshakes_quiet_bind (leaves : p.Calls Call.LeavesHandshake)
    (rest : ∀ value, Handshakes fd (f value) post) : Handshakes fd (p >>= f) post := by
  have silent : Handshakes fd p fun received registered _ => received = [] ∧ registered = [] :=
    always_leavesHandshake leaves
  refine handshakes_bind silent ?_
  rintro _ _ value ⟨rfl, rfl⟩
  exact rest value

end

/-- Nothing is received, and the connection is registered under this type if it `registers`. -/
def RegistersOnly (c : ClientType) (received : List RecvAnswer) (registered : List ClientType) (registers : Prop) :
    Prop :=
  received = [] ∧ (registers → registered = [c]) ∧ (registered = [] ∨ registered = [c])

theorem insertIntoSlot_registers {c : ClientType} {clientAddr : SockaddrIn} {i : Nat} :
    Handshakes fd (insertIntoSlot c clientAddr fd i) fun received registered flow => match flow with
      | .next () => received = [] ∧ registered = []
      | .exit _ => received = [] ∧ registered = [c] := by
  unfold insertIntoSlot
  refine handshakes_quiet_bind (calls_make True.intro) fun slot => ?_
  split
  · exact handshakes_pure ⟨rfl, rfl⟩
  · refine handshakes_quiet_bind (calls_make True.intro) fun _ => ?_
    refine handshakes_quiet_bind (assert_calls (fun _ => True.intro) _ _) fun _ => ?_
    refine handshakes_quiet_bind (calls_make True.intro) fun _ => ?_
    refine handshakes_quiet_bind (calls_bind (calls_make True.intro) fun _ => calls_make True.intro) fun _ => ?_
    refine handshakes_quiet_bind ((fillClientMetainfo_calls c i clientAddr).mono
      fun _ => Call.Plain.leavesHandshake) fun _ => ?_
    refine always_bind.mpr fun _ _ _ => ?_
    simp [recvsOn, recvFrom, registeredAs]

theorem insertNewClientIntoArrays_registers {c : ClientType} {clientAddr : SockaddrIn} :
    Handshakes fd (insertNewClientIntoArrays c clientAddr fd) fun received registered index => match index with
      | none => received = [] ∧ registered = []
      | some _ => received = [] ∧ registered = [c] := by
  unfold insertNewClientIntoArrays
  refine handshakes_quiet_bind (calls_make True.intro) fun _ => ?_
  refine handshakes_quiet_bind (assert_calls (fun _ => True.intro) _ _) fun _ => ?_
  refine always_bind.mpr (always_mono ?_ (@always_forFrom _ _ _ _ _
    (fun history _ => recvsOn fd history = [] ∧ registeredAs fd history = [])
    (fun history _ => recvsOn fd history = [] ∧ registeredAs fd history = [c]) _ 0 () ?_ ⟨rfl, rfl⟩))
  · intro history flow after
    cases flow with
    | next carried => simpa using after
    | exit i => simpa using after
  · rintro i history carried ⟨received, registered⟩
    refine always_mono (fun later flow after => ?_) insertIntoSlot_registers
    cases flow <;> simpa [received, registered] using after

theorem mutexWrappers_leave (c : ClientType) :
    (serverLockMutexOf c).Calls Call.LeavesHandshake ∧ (serverUnlockMutexOf c).Calls Call.LeavesHandshake :=
  mutexWrappers_calls (fun _ => True.intro) (fun _ => True.intro) (fun _ => Call.Plain.leavesHandshake) c

theorem registerClient_registers {c : ClientType} {clientAddr : SockaddrIn} :
    Handshakes fd (registerClient c clientAddr fd) fun received registered index =>
      RegistersOnly c received registered (∃ i, index = some (some i)) := by
  unfold registerClient
  refine handshakes_quiet_bind (mutexWrappers_leave c).1 fun locked => ?_
  split
  · exact handshakes_pure ⟨rfl, nofun, .inl rfl⟩
  · refine handshakes_bind insertNewClientIntoArrays_registers ?_
    rintro received registered index inserted
    refine handshakes_quiet_bind (mutexWrappers_leave c).2 fun unlocked => ?_
    cases index with
    | none =>
      obtain ⟨rfl, rfl⟩ := inserted
      split <;> exact handshakes_pure ⟨rfl, nofun, .inl rfl⟩
    | some i =>
      obtain ⟨rfl, rfl⟩ := inserted
      split <;> exact handshakes_pure ⟨rfl, fun _ => rfl, .inr rfl⟩

theorem handleClientOfType_registers {c : ClientType} {clientAddr : SockaddrIn} :
    Handshakes fd (handleClientOfType c clientAddr fd) fun received registered accepted =>
      RegistersOnly c received registered (accepted = true) := by
  unfold handleClientOfType
  refine handshakes_bind registerClient_registers ?_
  rintro _ registered index ⟨rfl, registers, under⟩
  match index with
  | none => exact handshakes_pure ⟨rfl, nofun, by simpa using under⟩
  | some none =>
    exact handshakes_quiet_bind (calls_make True.intro) fun _ => handshakes_pure ⟨rfl, nofun, by simpa using under⟩
  | some (some i) =>
    refine handshakes_quiet_bind (calls_make True.intro) fun _ => ?_
    refine handshakes_quiet_bind (calls_make True.intro) fun _ => ?_
    refine handshakes_quiet_bind (calls_make True.intro) fun _ => ?_
    exact handshakes_pure ⟨rfl, fun _ => by simpa using registers ⟨i, rfl⟩, by simpa using under⟩

theorem handleNewClient_handshakes {clientAddr : SockaddrIn} {clientAddrlen : Nat} :
    Handshakes fd (handleNewClient clientAddr clientAddrlen fd) fun received registered accepted =>
      registered = [] ∧ accepted = false ∨ ∃ before bytes c, FirstWhole before bytes received ∧
        received = before ++ [.received bytes] ∧ ClientType.ofRaw (clientTypeOfBytes bytes) = some c ∧
        (registered = [] ∨ registered = [c]) ∧ (accepted = true → registered = [c]) := by
  unfold handleNewClient
  split
  · exact handshakes_quiet_bind (calls_make True.intro) fun _ => handshakes_pure (.inl ⟨rfl, rfl⟩)
  refine handshakes_quiet_bind (calls_make True.intro) fun _ => ?_
  split
  · exact handshakes_quiet_bind (calls_make True.intro) fun _ => handshakes_pure (.inl ⟨rfl, rfl⟩)
  refine handshakes_quiet_bind (calls_make True.intro) fun _ => ?_
  split
  · exact handshakes_quiet_bind (calls_make True.intro) fun _ => handshakes_pure (.inl ⟨rfl, rfl⟩)
  have tries : Handshakes fd (receiveClientType fd) fun received registered result =>
      registered = [] ∧ ∀ type, result = some type → ∃ before bytes, FirstWhole before bytes received ∧
        received = before ++ [.received bytes] ∧ type = clientTypeOfBytes bytes := receiveClientType_tries fd
  refine handshakes_bind tries ?_
  rintro received _ result ⟨rfl, whole⟩
  cases result with
  | none => exact handshakes_quiet_bind (calls_make True.intro) fun _ => handshakes_pure (.inl ⟨rfl, rfl⟩)
  | some type =>
    obtain ⟨before, bytes, first, ends, rfl⟩ := whole type rfl
    dsimp only
    split
    · exact handshakes_quiet_bind (calls_make True.intro) fun _ => handshakes_pure (.inl ⟨rfl, rfl⟩)
    · rename_i c named
      refine always_mono ?_ handleClientOfType_registers
      rintro history accepted ⟨nothing, registers, under⟩
      refine .inr ⟨before, bytes, c, ?_, ?_, named, by simpa using under, by simpa using registers⟩
      · rwa [nothing, List.append_nil]
      · rwa [nothing, List.append_nil]

end

theorem neverMislabels_of_typeWhole {c : ClientType} {further : List UInt8} {answers : List RecvAnswer}
    (delivered : Delivered (c.bytes ++ further) answers) (typeWhole : TypeWhole answers) :
    NeverMislabels c answers := by
  intro t s clientAddr clientAddrlen fd history value s' run leads
  rcases always_iff.mp handleNewClient_handshakes history value run.completes with
    ⟨unregistered, rejected⟩ | ⟨before, bytes, named, first, ends, isType, under, accepts⟩
  · rw [unregistered, rejected]
    exact ⟨nofun, nofun⟩
  · have here : FirstWhole before bytes answers := ⟨first.leads.trans leads, first.whole, first.tries, first.short⟩
    rcases typeWhole before bytes here with nothing | noType
    · obtain rfl := eq_bytes_of_prefix (delivered_of_nothing delivered here.leads nothing) first.whole
      obtain rfl : named = c := by
        rw [clientTypeOfBytes_bytes, ClientType.ofRaw_toRaw, Option.some.injEq] at isType
        exact isType.symm
      have four : consumedBytes (recvsOn fd history) = sizeofClientType := by
        rw [ends, consumedBytes_append, nothing, Nat.zero_add]
        rfl
      constructor
      · intro registered member
        rcases under with none | one
        · rw [none] at member
          cases member
        · rw [one] at member
          exact ⟨List.mem_singleton.mp member, four⟩
      · intro accepted
        rw [accepts accepted]
        exact List.mem_singleton_self _
    · rw [noType] at isType
      cases isType

/-- A server without clients, after a `recv` that found nothing. -/
def idleServer : ServerState := initServer.setErrno mainThread .eagain

def triesOf (fd : Int) (answers : List RecvAnswer) : List ServerEvent :=
  answers.map fun answer => ⟨.recv fd sizeofClientType, answer⟩

theorem recvsOn_triesOf (fd : Int) (answers : List RecvAnswer) : recvsOn fd (triesOf fd answers) = answers := by
  induction answers with
  | nil => rfl
  | cons answer answers ih => simpa [triesOf, recvsOn, recvFrom] using ih

theorem registeredAs_triesOf (fd : Int) (answers : List RecvAnswer) : registeredAs fd (triesOf fd answers) = [] :=
  List.filterMap_eq_nil_iff.mpr fun event member => by
    obtain ⟨answer, -, rfl⟩ := List.mem_map.mp member
    rfl

theorem delivered_prefix {stream : List UInt8} {first answers : List RecvAnswer} (leads : first <+: answers)
    (delivered : Delivered stream answers) : Delivered stream first := by
  obtain ⟨rest, rfl⟩ := leads
  induction first generalizing stream with
  | nil => exact True.intro
  | cons answer first ih =>
    cases answer with
    | failed error => exact ⟨delivered.1, ih delivered.2⟩
    | received bytes => exact ⟨delivered.1, delivered.2.1, delivered.2.2.1, ih delivered.2.2.2⟩

theorem perform_try {fd : Int} {answer : RecvAnswer} (fits : answer.length ≤ sizeofClientType)
    (empty : ∀ error, answer = .failed error → error = .eagain) :
    machine.perform mainThread (.recv fd sizeofClientType) answer idleServer = some idleServer := by
  refine (if_pos fits).trans (congrArg some ?_)
  cases answer with
  | failed error =>
    obtain rfl := empty error rfl
    simp only [RecvAnswer.error, ServerState.afterError, ServerState.setErrno, idleServer, Function.update_idem]
  | received bytes => rfl

theorem delivered_fits {stream : List UInt8} {answers : List RecvAnswer} (delivered : Delivered stream answers) :
    ∀ answer ∈ answers, answer.length ≤ sizeofClientType ∧ ∀ error, answer = .failed error → error = .eagain := by
  induction answers generalizing stream with
  | nil => exact nofun
  | cons first answers ih =>
    rintro answer (_ | ⟨_, later⟩)
    · cases first with
      | failed error =>
        refine ⟨Nat.zero_le _, ?_⟩
        rintro _ same
        cases same
        exact delivered.1
      | received bytes => exact ⟨delivered.2.1, nofun⟩
    · cases first with
      | failed error => exact ih delivered.2 answer later
      | received bytes => exact ih delivered.2.2.2 answer later

/-- The loop body of `receive_client_type`. -/
def tryReceive (fd : Int) : ServerProgram (LoopFlow Unit (List UInt8)) := do
  match ← recv fd sizeofClientType with
  | .received bytes =>
    if bytes.length = sizeofClientType then return .exit bytes else return .next ()
  | .failed _ => return .next ()

theorem runs_tryReceive {fd : Int} {answer : RecvAnswer} {flow : LoopFlow Unit (List UInt8)}
    (fits : answer.length ≤ sizeofClientType ∧ ∀ error, answer = .failed error → error = .eagain)
    (result : flow = match answer with
      | .received bytes => if bytes.length = sizeofClientType then .exit bytes else .next ()
      | .failed _ => .next ()) :
    machine.Runs mainThread (tryReceive fd) idleServer [⟨.recv fd sizeofClientType, answer⟩] flow idleServer := by
  subst result
  refine Machine.Runs.call (perform_try fits.1 fits.2) ?_
  cases answer with
  | failed error => exact .done _ _
  | received bytes =>
    change machine.Runs mainThread (if _ then _ else _) _ _ (if _ then _ else _) _
    split <;> exact .done _ _

theorem runs_tries {fd : Int} {before : List RecvAnswer} {bytes : List UInt8} {count start : Nat}
    (fits : ∀ answer ∈ before, answer.length ≤ sizeofClientType ∧ ∀ error, answer = .failed error → error = .eagain)
    (whole : bytes.length = sizeofClientType) (tries : before.length < count)
    (short : ∀ answer ∈ before, answer.length ≠ sizeofClientType) :
    machine.Runs mainThread (forFrom (fun _ _ => tryReceive fd) count start ())
      idleServer (triesOf fd (before ++ [.received bytes])) (.exit bytes) idleServer := by
  induction before generalizing count start with
  | nil =>
    obtain ⟨count, rfl⟩ : ∃ fewer, count = fewer + 1 := ⟨count - 1, by simp at tries; omega⟩
    have last := @runs_tryReceive fd (.received bytes) _ ⟨Nat.le_of_eq whole, nofun⟩ (if_pos whole).symm
    exact last.bind (.done _ _)
  | cons answer before ih =>
    obtain ⟨count, rfl⟩ : ∃ fewer, count = fewer + 1 := ⟨count - 1, by simp at tries; omega⟩
    have partly := short answer (List.mem_cons_self ..)
    have first := @runs_tryReceive fd answer (.next ()) (fits answer (List.mem_cons_self ..)) (by
      cases answer with
      | failed error => rfl
      | received piece => exact (if_neg partly).symm)
    have rest := @ih count (start + 1) (fun other member => fits other (List.mem_cons_of_mem _ member))
      (Nat.lt_of_succ_lt_succ tries) fun other member => short other (List.mem_cons_of_mem _ member)
    exact first.bind rest

theorem runs_receiveClientType {fd : Int} {before : List RecvAnswer} {bytes : List UInt8}
    (fits : ∀ answer ∈ before, answer.length ≤ sizeofClientType ∧ ∀ error, answer = .failed error → error = .eagain)
    (whole : bytes.length = sizeofClientType) (tries : before.length < 16)
    (short : ∀ answer ∈ before, answer.length ≠ sizeofClientType) :
    machine.Runs mainThread (receiveClientType fd) idleServer (triesOf fd (before ++ [.received bytes]))
      (some (clientTypeOfBytes bytes)) idleServer := by
  rw [← List.append_nil (triesOf fd _)]
  refine Machine.Runs.bind (@runs_tries fd before bytes 16 0 fits whole tries short) ?_
  exact .done _ _

theorem exists_acceptance {before : List RecvAnswer} {bytes : List UInt8} {c : ClientType}
    (fits : ∀ answer ∈ before, answer.length ≤ sizeofClientType ∧ ∀ error, answer = .failed error → error = .eagain)
    (whole : bytes.length = sizeofClientType) (tries : before.length < 16)
    (short : ∀ answer ∈ before, answer.length ≠ sizeofClientType)
    (isType : ClientType.ofRaw (clientTypeOfBytes bytes) = some c) :
    ∃ history s', machine.Runs mainThread (handleNewClient ⟨0, 0⟩ sizeofSockaddrIn 7) idleServer history true s' ∧
      recvsOn 7 history = before ++ [.received bytes] ∧ registeredAs 7 history = [c] := by
  have accepted : (Environment.calm.runs (handleClientOfType c ⟨0, 0⟩ 7) idleServer).map
      (fun out => (recvsOn 7 out.1, registeredAs 7 out.1, out.2.1)) = some ([], [c], true) := by
    cases c <;> rfl
  obtain ⟨⟨history, value, s'⟩, run, same⟩ := Option.map_eq_some_iff.mp accepted
  simp only [Prod.mk.injEq] at same
  obtain ⟨received, registered, rfl⟩ := same
  have tried := @runs_receiveClientType 7 before bytes fits whole tries short
  refine ⟨⟨.setsockopt 7 .keepAlive, none⟩ :: ⟨.setsockopt 7 .keepIdle, none⟩ ::
    (triesOf 7 (before ++ [.received bytes]) ++ history), s', ?_, ?_, ?_⟩
  · unfold handleNewClient
    refine .call rfl (.call rfl (tried.bind ?_))
    dsimp only
    rw [isType]
    exact Environment.runs_of_eq_some run
  · change recvsOn 7 (triesOf 7 (before ++ [.received bytes]) ++ history) = _
    rw [recvsOn_append, recvsOn_triesOf, received, List.append_nil]
  · change registeredAs 7 (triesOf 7 (before ++ [.received bytes]) ++ history) = _
    rw [registeredAs_append, registered, registeredAs_triesOf, List.nil_append]

/-- A client that sends its type and then any bytes is registered under this type and nothing else of
    its stream is taken, or it is rejected, exactly when the first whole `recv` comes before any other
    bytes or returns no type. -/
theorem never_mislabels_iff {c : ClientType} {further : List UInt8} {answers : List RecvAnswer}
    (delivered : Delivered (c.bytes ++ further) answers) : NeverMislabels c answers ↔ TypeWhole answers := by
  refine ⟨fun never before bytes first => ?_, neverMislabels_of_typeWhole delivered⟩
  have fits := delivered_fits ( delivered_prefix first.leads delivered)
  cases isType : ClientType.ofRaw (clientTypeOfBytes bytes) with
  | none => exact .inr rfl
  | some named =>
    obtain ⟨history, s', run, received, registered⟩ := @exists_acceptance before bytes named
      (fun answer member => fits answer (List.mem_append_left _ member)) first.whole first.tries first.short isType
    have once := (never _ _ _ _ _ _ _ _ run (received ▸ first.leads)).1 named (registered ▸ List.mem_singleton_self _)
    have four := once.2
    rw [received, consumedBytes_append] at four
    have last : consumedBytes [.received bytes] = sizeofClientType := first.whole
    exact .inl (by omega)

/-- A type that is received at once is registered. -/
theorem whole_type_is_registered : Delivered (ClientType.firstStageWorkerClient.bytes ++ [])
    [.failed .eagain, .received [1, 0, 0, 0]] ∧
    NeverMislabels .firstStageWorkerClient [.failed .eagain, .received [1, 0, 0, 0]] := by
  have delivered : Delivered (ClientType.firstStageWorkerClient.bytes ++ [])
      [.failed .eagain, .received [1, 0, 0, 0]] := ⟨rfl, by decide, by decide, List.prefix_refl _, True.intro⟩
  refine ⟨delivered, (never_mislabels_iff delivered).mpr fun before bytes first => ?_⟩
  have leads := first.leads
  rcases before with _ | ⟨answer, _ | ⟨other, rest⟩⟩ <;>
    simp only [List.nil_append, List.cons_append, List.cons_prefix_cons] at leads
  · cases leads.1
  · obtain ⟨rfl, -⟩ := leads
    exact .inl rfl
  · obtain ⟨-, -, impossible⟩ := leads
    simp at impossible

/-- After a `recv` of one byte a first worker that sends its type and a pin becomes a logs collector. -/
theorem short_type_is_mislabelled : ¬ ∀ (c : ClientType) (further : List UInt8) (answers : List RecvAnswer),
    Delivered (c.bytes ++ further) answers → NeverMislabels c answers := by
  intro never
  have delivered : Delivered (ClientType.firstStageWorkerClient.bytes ++ [0, 1, 0, 0])
      [.received [1], .received [0, 0, 0, 0]] :=
    ⟨by decide, by decide, by decide, by decide, by decide, by decide, True.intro⟩
  obtain ⟨history, s', run, received, registered⟩ := @exists_acceptance [.received [1]] [0, 0, 0, 0]
    .logsCollectorClient (by simp [RecvAnswer.length, sizeofClientType]) rfl (by decide)
    (by simp [RecvAnswer.length, sizeofClientType]) rfl
  have mistaken := (never _ _ _ delivered _ _ _ _ _ _ _ _ run (received ▸ List.prefix_refl _)).1
    .logsCollectorClient (registered ▸ List.mem_singleton_self _)
  cases mistaken.1

end ArchCompSystems.OsIhw3
