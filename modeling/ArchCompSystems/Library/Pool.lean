import ArchCompSystems.Library.Monitor
import Mathlib.Logic.Function.Basic

namespace ArchCompSystems.Library

variable {τ ι : Type} [DecidableEq τ] {ρ : ι → Type} {σ μ : Type}

/-- Threads that run concurrently on a shared state: what each still has to run, and the calls
    it has made so far, oldest first. -/
structure Pool (τ ι : Type) (ρ : ι → Type) (σ : Type) where
  programs : τ → Program ι ρ Unit
  state : σ
  history : τ → List (Event ρ)

inductive Action (τ ι : Type) (ρ : ι → Type) where
  | call (t : τ) (event : Event ρ)
  | cut (t : τ) (c : ι)

namespace Pool

/-- Thread `t` has made `event` and goes on with `rest` in state `s`. -/
def advance (pool : Pool τ ι ρ σ) (t : τ) (event : Event ρ) (rest : Program ι ρ Unit) (s : σ) :
    Pool τ ι ρ σ where
  programs := Function.update pool.programs t rest
  state := s
  history := Function.update pool.history t (pool.history t ++ [event])

def finish (pool : Pool τ ι ρ σ) (t : τ) (s : σ) : Pool τ ι ρ σ where
  programs := Function.update pool.programs t (.done ())
  state := s
  history := pool.history

/-- One action of one thread, whichever. -/
inductive Step (M : Machine τ ι ρ σ) :
    Pool τ ι ρ σ → Action τ ι ρ → Pool τ ι ρ σ → Prop where
  | call {pool : Pool τ ι ρ σ} {t : τ} {c : ι} {next : ρ c → Program ι ρ Unit} {answer : ρ c} {s : σ}
      (current : pool.programs t = .call c next)
      (performed : M.perform t c answer pool.state = some s) :
      Step M pool (.call t ⟨c, answer⟩) (pool.advance t ⟨c, answer⟩ (next answer) s)
  | cut {pool : Pool τ ι ρ σ} {t : τ} {c : ι} {next : ρ c → Program ι ρ Unit} {s : σ}
      (current : pool.programs t = .call c next) (taken : M.cut t c pool.state = some s) :
      Step M pool (.cut t c) (pool.finish t s)

/-- The pools that `start` can come to, in any order of steps that each satisfy `ok`. -/
inductive Reach (M : Machine τ ι ρ σ) (ok : Pool τ ι ρ σ → Action τ ι ρ → Prop)
    (start : Pool τ ι ρ σ) : Pool τ ι ρ σ → Prop where
  | start : Reach M ok start start
  | step {pool pool' : Pool τ ι ρ σ} {action : Action τ ι ρ} (before : Reach M ok start pool)
      (allowed : ok pool action) (taken : Step M pool action pool') : Reach M ok start pool'

variable {M : Machine τ ι ρ σ} {ok : Pool τ ι ρ σ → Action τ ι ρ → Prop} {start pool : Pool τ ι ρ σ}

@[simp] theorem advance_state {t : τ} {event : Event ρ} {rest : Program ι ρ Unit} {s : σ} :
    (pool.advance t event rest s).state = s := rfl

@[simp] theorem finish_state {t : τ} {s : σ} : (pool.finish t s).state = s := rfl

theorem finish_programs {t : τ} {s : σ} :
    (pool.finish t s).programs = Function.update pool.programs t (.done ()) := rfl

@[simp] theorem finish_history {t : τ} {s : σ} : (pool.finish t s).history = pool.history := rfl

theorem Reach.mono {weaker : Pool τ ι ρ σ → Action τ ι ρ → Prop}
    (implies : ∀ pool action, ok pool action → weaker pool action) (reach : Reach M ok start pool) :
    Reach M weaker start pool := by
  induction reach with
  | start => exact .start
  | step _ allowed taken ih => exact .step ih (implies _ _ allowed) taken

theorem Reach.strengthen {stronger : Pool τ ι ρ σ → Action τ ι ρ → Prop}
    (each : ∀ pool action pool', Reach M ok start pool → ok pool action → Step M pool action pool' →
      stronger pool action) (reach : Reach M ok start pool) : Reach M stronger start pool := by
  induction reach with
  | start => exact .start
  | step before allowed taken ih => exact .step ih (each _ _ _ before allowed taken) taken

theorem Reach.trans {middle : Pool τ ι ρ σ} (first : Reach M ok start middle) (rest : Reach M ok middle pool) :
    Reach M ok start pool := by
  induction rest with
  | start => exact first
  | step _ allowed taken ih => exact .step ih allowed taken

/-- Every thread has come along a path through its program, and goes on from there or was cut. -/
theorem Reach.path (fresh : ∀ t, start.history t = []) (reach : Reach M ok start pool) (t : τ) :
    ∃ q, (start.programs t).Path (pool.history t) q ∧ (pool.programs t = q ∨ pool.programs t = .done ()) := by
  induction reach with
  | start =>
    rw [fresh t]
    exact ⟨_, .here _, .inl rfl⟩
  | @step pool pool' action _ _ taken ih =>
    obtain ⟨q, path, goes⟩ := ih
    cases taken with
    | @call u c next answer s current performed =>
      by_cases same : t = u
      · subst same
        simp only [advance, Function.update_self]
        rw [current] at goes
        rcases goes with rfl | ended
        · exact ⟨_, path.snoc, .inl rfl⟩
        · cases ended
      · simp only [advance, Function.update_of_ne same]
        exact ⟨q, path, goes⟩
    | @cut u c next s current taken =>
      rw [finish_programs, finish_history]
      by_cases same : t = u
      · subst same
        exact ⟨q, path, .inr (Function.update_self ..)⟩
      · rw [Function.update_of_ne same]
        exact ⟨q, path, goes⟩

/-- The local state of thread `t` after its own history. -/
def monitored (P : τ → Monitor ι ρ μ) (m : τ → μ) (pool : Pool τ ι ρ σ) (t : τ) : μ :=
  (P t).run (m t) (pool.history t)

theorem monitored_advance_self {P : τ → Monitor ι ρ μ} {m : τ → μ} {t : τ} {c : ι} {answer : ρ c}
    {rest : Program ι ρ Unit} {s : σ} :
    (pool.advance t ⟨c, answer⟩ rest s).monitored P m t =
      (P t).after (pool.monitored P m t) c answer := by
  simp only [monitored, advance, Function.update_self, Monitor.run_concat]

theorem monitored_advance_of_ne {P : τ → Monitor ι ρ μ} {m : τ → μ} {t u : τ} (other : u ≠ t)
    {event : Event ρ} {rest : Program ι ρ Unit} {s : σ} :
    (pool.advance t event rest s).monitored P m u = pool.monitored P m u := by
  simp only [monitored, advance, Function.update_of_ne other]

theorem monitored_advance {P : τ → Monitor ι ρ μ} {m : τ → μ} {t : τ} {c : ι} {answer : ρ c}
    {rest : Program ι ρ Unit} {s : σ} :
    (pool.advance t ⟨c, answer⟩ rest s).monitored P m = Function.update (pool.monitored P m) t
      ((P t).after (pool.monitored P m t) c answer) := by
  funext u
  by_cases same : u = t
  · subst same
    rw [monitored_advance_self, Function.update_self]
  · rw [monitored_advance_of_ne same, Function.update_of_ne same]

/-- Every thread has obeyed its monitor and still does, and the histories agree with the shared state. -/
structure Recorded (P : τ → Monitor ι ρ μ) (m : τ → μ) (final : τ → μ → Prop)
    (agrees : σ → (τ → List (Event ρ)) → Prop) (pool : Pool τ ι ρ σ) : Prop where
  accepts : ∀ t, (P t).Accepts (m t) (pool.history t)
  obeys : ∀ t, (P t).Obeys (fun _ => final t) (pool.programs t) (pool.monitored P m t)
  agrees : agrees pool.state pool.history

/-- Threads that each obey a monitor keep what their histories say about the shared state, if every
    allowed call gets a possible answer and keeps it, and every cut keeps it. -/
theorem Reach.recorded {P : τ → Monitor ι ρ μ} {m : τ → μ} {final : τ → μ → Prop}
    {agrees : σ → (τ → List (Event ρ)) → Prop}
    (call : ∀ (pool : Pool τ ι ρ σ) t c answer s, agrees pool.state pool.history →
      ok pool (.call t ⟨c, answer⟩) → (P t).allowed (pool.monitored P m t) c →
      M.perform t c answer pool.state = some s →
      (P t).possible (pool.monitored P m t) c answer ∧
        agrees s (Function.update pool.history t (pool.history t ++ [⟨c, answer⟩])))
    (cut : ∀ (pool : Pool τ ι ρ σ) t c s, agrees pool.state pool.history →
      ok pool (.cut t c) → M.cut t c pool.state = some s →
      final t (pool.monitored P m t) ∧ agrees s pool.history)
    (initially : start.Recorded P m final agrees) (reach : Reach M ok start pool) :
    pool.Recorded P m final agrees := by
  induction reach with
  | start => exact initially
  | @step pool pool' action _ allowed taken ih =>
    cases taken with
    | @call t c next answer s current performed =>
      have obeying := ih.obeys t
      rw [current] at obeying
      obtain ⟨possible, kept⟩ := call pool t c answer s ih.agrees allowed obeying.1 performed
      refine ⟨fun u => ?_, fun u => ?_, kept⟩
      · by_cases same : u = t
        · subst same
          simpa only [advance, Function.update_self] using
            Monitor.accepts_concat (ih.accepts u) obeying.1 possible
        · simpa only [advance, Function.update_of_ne same] using ih.accepts u
      · by_cases same : u = t
        · subst same
          rw [monitored_advance_self]
          simpa only [advance, Function.update_self] using obeying.2 answer possible
        · rw [monitored_advance_of_ne same]
          simpa only [advance, Function.update_of_ne same] using ih.obeys u
    | @cut t c next s current taken =>
      obtain ⟨ended, kept⟩ := cut pool t c s ih.agrees allowed taken
      refine ⟨ih.accepts, fun u => ?_, kept⟩
      by_cases same : u = t
      · subst same
        rw [finish_programs, Function.update_self]
        exact ended
      · rw [finish_programs, Function.update_of_ne same]
        exact ih.obeys u

/-- The same where only the local states agree with the shared one. -/
structure Disciplined (P : τ → Monitor ι ρ μ) (m : τ → μ) (final : τ → μ → Prop)
    (agrees : σ → (τ → μ) → Prop) (pool : Pool τ ι ρ σ) : Prop where
  accepts : ∀ t, (P t).Accepts (m t) (pool.history t)
  obeys : ∀ t, (P t).Obeys (fun _ => final t) (pool.programs t) (pool.monitored P m t)
  agrees : agrees pool.state (pool.monitored P m)

theorem Reach.disciplined {P : τ → Monitor ι ρ μ} {m : τ → μ} {final : τ → μ → Prop}
    {agrees : σ → (τ → μ) → Prop}
    (call : ∀ (pool : Pool τ ι ρ σ) t c answer s,
      agrees pool.state (pool.monitored P m) → ok pool (.call t ⟨c, answer⟩) →
      (P t).allowed (pool.monitored P m t) c → M.perform t c answer pool.state = some s →
      (P t).possible (pool.monitored P m t) c answer ∧
        agrees s (Function.update (pool.monitored P m) t
          ((P t).after (pool.monitored P m t) c answer)))
    (cut : ∀ (pool : Pool τ ι ρ σ) t c s, agrees pool.state (pool.monitored P m) →
      ok pool (.cut t c) → M.cut t c pool.state = some s →
      final t (pool.monitored P m t) ∧ agrees s (pool.monitored P m))
    (initially : start.Disciplined P m final agrees) (reach : Reach M ok start pool) :
    pool.Disciplined P m final agrees := by
  have recorded := @Reach.recorded _ _ _ _ _ _ M ok start pool P m final
    (fun s history => agrees s fun t => (P t).run (m t) (history t))
    (fun pool t c answer s kept allowed may performed => by
      obtain ⟨possible, after⟩ := call pool t c answer s kept allowed may performed
      refine ⟨possible, ?_⟩
      rw [← @monitored_advance _ _ _ _ _ _ pool P m t c answer (.done ()) s] at after
      exact after) cut ⟨initially.accepts, initially.obeys, initially.agrees⟩ reach
  exact ⟨recorded.accepts, recorded.obeys, recorded.agrees⟩

def ended (pool : Pool τ ι ρ σ) (t : τ) : Bool :=
  match pool.programs t with
  | .done _ => true
  | .call _ _ => false

omit [DecidableEq τ] in
theorem programs_of_ended {t : τ} (isEnded : pool.ended t = true) : pool.programs t = .done () := by
  unfold ended at isEnded
  split at isEnded
  · assumption
  · cases isEnded

/-- A turn of a schedule: `steps` calls of one thread, answered by `policy`, or its cancellation
    at the call it has come to. -/
inductive Turn (τ ι : Type) (ρ : ι → Type) (σ : Type) where
  | go (t : τ) (steps : Nat) (policy : (c : ι) → σ → Option (ρ c))
  | cancel (t : τ)

/-- `none` when the thread has ended, or its call cannot be answered so or is not permitted. -/
def go (M : Machine τ ι ρ σ) (permitted : Pool τ ι ρ σ → Action τ ι ρ → Bool) (t : τ)
    (policy : (c : ι) → σ → Option (ρ c)) : Nat → Pool τ ι ρ σ → Option (Pool τ ι ρ σ)
  | 0, pool => some pool
  | steps + 1, pool =>
    match pool.programs t with
    | .done _ => none
    | .call c next =>
      match policy c pool.state with
      | none => none
      | some answer =>
        match permitted pool (.call t ⟨c, answer⟩), M.perform t c answer pool.state with
        | true, some s => go M permitted t policy steps (pool.advance t ⟨c, answer⟩ (next answer) s)
        | _, _ => none

def cancel (M : Machine τ ι ρ σ) (permitted : Pool τ ι ρ σ → Action τ ι ρ → Bool) (t : τ)
    (pool : Pool τ ι ρ σ) : Option (Pool τ ι ρ σ) :=
  match pool.programs t with
  | .done _ => none
  | .call c _ =>
    if permitted pool (.cut t c) then (M.cut t c pool.state).map (pool.finish t) else none

def replay (M : Machine τ ι ρ σ) (permitted : Pool τ ι ρ σ → Action τ ι ρ → Bool) :
    List (Turn τ ι ρ σ) → Pool τ ι ρ σ → Option (Pool τ ι ρ σ)
  | [], pool => some pool
  | .go t steps policy :: turns, pool =>
    (pool.go M permitted t policy steps).bind (replay M permitted turns)
  | .cancel t :: turns, pool => (pool.cancel M permitted t).bind (replay M permitted turns)

variable {permitted : Pool τ ι ρ σ → Action τ ι ρ → Bool}

theorem reach_of_go {t : τ} {policy : (c : ι) → σ → Option (ρ c)} {steps : Nat}
    {pool' : Pool τ ι ρ σ} (implies : ∀ pool action, permitted pool action = true → ok pool action)
    (before : Reach M ok start pool) (gone : pool.go M permitted t policy steps = some pool') :
    Reach M ok start pool' := by
  induction steps generalizing pool with
  | zero =>
    simp only [go, Option.some.injEq] at gone
    exact gone ▸ before
  | succ steps ih =>
    simp only [go] at gone
    split at gone
    · cases gone
    · rename_i current
      split at gone
      · cases gone
      · split at gone
        · rename_i allowed performed
          exact ih (.step before (implies _ _ allowed) (.call current performed)) gone
        · cases gone

theorem step_of_go {t : τ} {policy : (c : ι) → σ → Option (ρ c)} {pool' : Pool τ ι ρ σ}
    (gone : pool.go M permitted t policy 1 = some pool') :
    ∃ event, Step M pool (.call t event) pool' ∧ pool'.history t = pool.history t ++ [event] := by
  simp only [go] at gone
  split at gone
  · cases gone
  · rename_i current
    split at gone
    · cases gone
    · split at gone
      · rename_i performed
        cases gone
        exact ⟨_, .call current performed, Function.update_self ..⟩
      · cases gone

theorem reach_of_cancel {t : τ} {pool' : Pool τ ι ρ σ}
    (implies : ∀ pool action, permitted pool action = true → ok pool action)
    (before : Reach M ok start pool) (cancelled : pool.cancel M permitted t = some pool') :
    Reach M ok start pool' := by
  simp only [cancel] at cancelled
  split at cancelled
  · cases cancelled
  · rename_i current
    split at cancelled
    · rename_i allowed
      obtain ⟨s, taken, rfl⟩ := Option.map_eq_some_iff.mp cancelled
      exact .step before (implies _ _ allowed) (.cut current taken)
    · cases cancelled

theorem reach_of_replay {turns : List (Turn τ ι ρ σ)} {pool' : Pool τ ι ρ σ}
    (implies : ∀ pool action, permitted pool action = true → ok pool action)
    (before : Reach M ok start pool) (replayed : pool.replay M permitted turns = some pool') :
    Reach M ok start pool' := by
  induction turns generalizing pool with
  | nil =>
    simp only [replay, Option.some.injEq] at replayed
    exact replayed ▸ before
  | cons turn turns ih =>
    cases turn with
    | go t steps policy =>
      obtain ⟨middle, gone, rest⟩ := Option.bind_eq_some_iff.mp replayed
      exact ih (reach_of_go implies before gone) rest
    | cancel t =>
      obtain ⟨middle, cancelled, rest⟩ := Option.bind_eq_some_iff.mp replayed
      exact ih (reach_of_cancel implies before cancelled) rest

theorem exists_reach_of_replay {turns : List (Turn τ ι ρ σ)} {check : Pool τ ι ρ σ → Bool}
    (implies : ∀ pool action, permitted pool action = true → ok pool action)
    (checked : (start.replay M permitted turns).any check = true) :
    ∃ pool, Reach M ok start pool ∧ check pool = true := by
  obtain ⟨pool, replayed, holds⟩ := (Option.any_eq_true ..).mp checked
  exact ⟨pool, reach_of_replay implies .start replayed, holds⟩

end Pool

end ArchCompSystems.Library
