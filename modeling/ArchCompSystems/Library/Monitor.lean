import ArchCompSystems.Library.Machine

namespace ArchCompSystems.Library

/-- A local discipline of one thread, as an automaton over its own calls: which calls it may make
    in a local state, which answers it relies on, and how an answered call moves it. -/
structure Monitor (ι : Type) (ρ : ι → Type) (μ : Type) where
  allowed : μ → ι → Prop
  possible : μ → (c : ι) → ρ c → Prop
  after : μ → (c : ι) → ρ c → μ

namespace Monitor

open Program

variable {ι : Type} {ρ : ι → Type} {μ α β γ : Type} (P : Monitor ι ρ μ)

/-- Started in local state `m`, the program makes only allowed calls, as long as the answers are
    possible, and every value it ends with satisfies `post` in the local state then reached. -/
def Obeys (post : α → μ → Prop) : Program ι ρ α → μ → Prop
  | .done value, m => post value m
  | .call c next, m =>
    P.allowed m c ∧ ∀ answer, P.possible m c answer → Obeys post (next answer) (P.after m c answer)

def run (m : μ) (history : List (Event ρ)) : μ :=
  history.foldl (fun m event => P.after m event.1 event.2) m

def Accepts : μ → List (Event ρ) → Prop
  | _, [] => True
  | m, event :: rest =>
    P.allowed m event.1 ∧ P.possible m event.1 event.2 ∧ Accepts (P.after m event.1 event.2) rest

variable {P} {m : μ}

@[simp] theorem run_nil : P.run m [] = m := rfl

theorem run_append (history later : List (Event ρ)) :
    P.run m (history ++ later) = P.run (P.run m history) later := List.foldl_append ..

theorem run_concat (history : List (Event ρ)) (c : ι) (answer : ρ c) :
    P.run m (history ++ [⟨c, answer⟩]) = P.after (P.run m history) c answer := run_append _ _

theorem accepts_concat {history : List (Event ρ)} {c : ι} {answer : ρ c}
    (accepts : P.Accepts m history) (allowed : P.allowed (P.run m history) c)
    (possible : P.possible (P.run m history) c answer) :
    P.Accepts m (history ++ [⟨c, answer⟩]) := by
  induction history generalizing m with
  | nil => exact ⟨allowed, possible, True.intro⟩
  | cons event rest ih => exact ⟨accepts.1, accepts.2.1, ih accepts.2.2 allowed possible⟩

/-- Every call of the history was allowed in some local state, and its answer possible there. -/
theorem Accepts.mem {history : List (Event ρ)} {event : Event ρ} (accepts : P.Accepts m history)
    (member : event ∈ history) : ∃ m', P.allowed m' event.1 ∧ P.possible m' event.1 event.2 := by
  induction history generalizing m with
  | nil => cases member
  | cons first rest ih =>
    obtain ⟨allowed, possible, later⟩ := accepts
    rcases List.mem_cons.mp member with rfl | behind
    · exact ⟨m, allowed, possible⟩
    · exact ih later behind

@[simp] theorem obeys_pure {value : α} {post : α → μ → Prop} :
    P.Obeys post (pure value) m ↔ post value m := Iff.rfl

theorem obeys_mono {p : Program ι ρ α} {post weaker : α → μ → Prop}
    (implies : ∀ value m', post value m' → weaker value m') (obeys : P.Obeys post p m) :
    P.Obeys weaker p m := by
  induction p generalizing m with
  | done value => exact implies value m obeys
  | call c next ih => exact ⟨obeys.1, fun answer ok => ih answer (obeys.2 answer ok)⟩

theorem obeys_bind {p : Program ι ρ α} {f : α → Program ι ρ β} {post : β → μ → Prop} :
    P.Obeys post (p >>= f) m ↔ P.Obeys (fun value => P.Obeys post (f value)) p m := by
  induction p generalizing m with
  | done value => exact Iff.rfl
  | call c next ih =>
    simp only [call_bind, Obeys]
    exact and_congr_right fun _ => forall_congr' fun answer => imp_congr_right fun _ => ih answer

theorem obeys_call {c : ι} {f : ρ c → Program ι ρ β} {post : β → μ → Prop} (allowed : P.allowed m c)
    (rest : ∀ answer, P.possible m c answer → P.Obeys post (f answer) (P.after m c answer)) :
    P.Obeys post (request c >>= f) m := obeys_bind.mpr ⟨allowed, rest⟩

theorem obeys_of_calls {steady : ι → Prop} {p : Program ι ρ α}
    (each : ∀ c, steady c → P.allowed m c ∧ ∀ answer, P.after m c answer = m)
    (calls : p.Calls steady) : P.Obeys (fun _ m' => m' = m) p m := by
  induction p with
  | done value => exact rfl
  | call c next ih =>
    refine ⟨(each c calls.1).1, fun answer _ => ?_⟩
    rw [(each c calls.1).2 answer]
    exact ih answer (calls.2 answer)

theorem obeys_of_invariant {steady : ι → Prop} {invariant : μ → Prop} {p : Program ι ρ α}
    (each : ∀ m c, steady c → invariant m →
      P.allowed m c ∧ ∀ answer, P.possible m c answer → invariant (P.after m c answer))
    (calls : p.Calls steady) (holds : invariant m) : P.Obeys (fun _ => invariant) p m := by
  induction p generalizing m with
  | done value => exact holds
  | call c next ih =>
    obtain ⟨allowed, kept⟩ := each m c calls.1 holds
    exact ⟨allowed, fun answer possible => ih answer (calls.2 answer) (kept answer possible)⟩

theorem obeys_forFrom_within {body : Nat → β → Program ι ρ (LoopFlow β γ)} {invariant : Nat → β → μ → Prop}
    {left : γ → μ → Prop} {count start : Nat} {carried : β}
    (each : ∀ i carried m, start ≤ i → i < start + count → invariant i carried m →
      P.Obeys (LoopFlow.Keeps (invariant (i + 1)) left) (body i carried) m)
    (holds : invariant start carried m) :
    P.Obeys (LoopFlow.Keeps (invariant (start + count)) left) (forFrom body count start carried) m := by
  induction count generalizing start carried m with
  | zero => exact holds
  | succ count ih =>
    refine obeys_bind.mpr (obeys_mono (fun flow m' after => ?_)
      (each start carried m (Nat.le_refl _) (by omega) holds))
    cases flow with
    | exit result => exact after
    | next carried =>
      have shifted : start + 1 + count = start + (count + 1) := by omega
      rw [← shifted]
      exact ih (fun i carried m lower upper => each i carried m (by omega) (by omega)) after

theorem obeys_forFrom {body : Nat → β → Program ι ρ (LoopFlow β γ)} {invariant : Nat → β → μ → Prop}
    {left : γ → μ → Prop} {count start : Nat} {carried : β}
    (each : ∀ i carried m, invariant i carried m → P.Obeys (fun flow m' => match flow with
        | .next carried' => invariant (i + 1) carried' m'
        | .exit result => left result m') (body i carried) m)
    (holds : invariant start carried m) :
    P.Obeys (fun flow m' => match flow with
      | .next carried' => invariant (start + count) carried' m'
      | .exit result => left result m') (forFrom body count start carried) m :=
  obeys_mono (fun flow _ after => by cases flow <;> exact after)
    (obeys_forFrom_within (fun i carried m _ _ kept =>
      obeys_mono (fun flow _ after => by cases flow <;> exact after) (each i carried m kept)) holds)

theorem obeys_loop {c : ι} [IsEmpty (ρ c)] {round : β → Program ι ρ (LoopFlow β γ)} {left : γ → μ → Prop}
    {rounds : Nat} {start : β} (invariant : β → μ → Prop) (cutOff : ∀ m, P.allowed m c) (holds : invariant start m)
    (each : ∀ carried m, invariant carried m → P.Obeys (LoopFlow.Keeps invariant left) (round carried) m) :
    P.Obeys left (Program.loop c rounds start round) m := by
  have looped := @obeys_forFrom_within _ _ _ _ _ P m (fun _ => round) (fun _ => invariant) left rounds 0 start
    (fun _ carried m _ _ => each carried m) holds
  refine obeys_bind.mpr (obeys_mono (fun flow m' after => ?_) looped)
  cases flow with
  | next carried => exact ⟨cutOff m', fun answer => isEmptyElim answer⟩
  | exit result => exact after

def recording (allowed : List (Event ρ) → ι → Prop) (possible : (c : ι) → ρ c → Prop) :
    Monitor ι ρ (List (Event ρ)) where
  allowed := allowed
  possible _ := possible
  after history c answer := history ++ [⟨c, answer⟩]

section

variable {allowed : List (Event ρ) → ι → Prop} {possible : (c : ι) → ρ c → Prop} {before : List (Event ρ)}

theorem run_recording (history : List (Event ρ)) :
    (recording allowed possible).run before history = before ++ history := by
  induction history generalizing before with
  | nil => exact (List.append_nil before).symm
  | cons event rest ih => exact ih.trans (List.append_assoc ..)

theorem obeys_recording_of_calls {steady : ι → Prop} {p : Program ι ρ α}
    (each : ∀ history c, steady c → allowed history c) (calls : p.Calls steady) :
    (recording allowed possible).Obeys (fun _ after => before <+: after) p before := by
  induction p generalizing before with
  | done value => exact List.prefix_rfl
  | call c next ih =>
    refine ⟨each before c calls.1, fun answer _ => ?_⟩
    exact obeys_mono (fun _ _ longer => (List.prefix_append before [⟨c, answer⟩]).trans longer)
      (ih answer (calls.2 answer))

end

end Monitor

end ArchCompSystems.Library
