import ArchCompSystems.Library.Monitor
import ArchCompSystems.Library.Signals

namespace ArchCompSystems.Library

/-- How a call comes out that a signal may interrupt before it is performed. -/
inductive Outcome (κ α : Type) where
  | answered (answer : α)
  | caught (signal : κ)
  deriving DecidableEq

abbrev Interruptible (ι κ : Type) := ι × List κ

variable {τ ι κ : Type} {ρ : ι → Type} {σ μ α : Type}

/-- The outcomes of interruptible calls. -/
@[reducible] def outcome (κ : Type) (ρ : ι → Type) (c : Interruptible ι κ) : Type := Outcome κ (ρ c.1)

namespace Program

def interruptible (blocked : List κ) (handler : κ → Program (Interruptible ι κ) (outcome κ ρ) Unit) :
    Program ι ρ Unit → Program (Interruptible ι κ) (outcome κ ρ) Unit
  | .done value => .done value
  | .call c next => .call (c, blocked) fun
    | .answered answer => (next answer).interruptible blocked handler
    | .caught signal => handler signal

/-- A program whose signals are handled by handlers that do not return; a handler blocks its own
    signal, so at most as many are nested as there are signals. -/
def withHandlers (handler : κ → Program ι ρ Unit) :
    Nat → List κ → Program ι ρ Unit → Program (Interruptible ι κ) (outcome κ ρ) Unit
  | 0, blocked, p => p.interruptible blocked fun _ => .done ()
  | nested + 1, blocked, p =>
    p.interruptible blocked fun signal => withHandlers handler nested (signal :: blocked) (handler signal)

end Program

/-- A thread that is `alive` may catch a signal that is not blocked. -/
def Machine.interruptible [DecidableEq κ] (M : Machine τ ι ρ σ) (alive : τ → σ → Bool) :
    Machine τ (Interruptible ι κ) (outcome κ ρ) σ where
  perform t c answer s :=
    match answer with
    | .answered answer => M.perform t c.1 answer s
    | .caught signal => if alive t s = true ∧ signal ∉ c.2 then some s else none
  cut t c s := M.cut t c.1 s

namespace Monitor

/-- A signal leaves the local state alone; it comes only where `handles` holds. -/
def interruptible (P : Monitor ι ρ μ) (handles : μ → Prop) :
    Monitor (Interruptible ι κ) (outcome κ ρ) μ where
  allowed m c := P.allowed m c.1
  possible m c answer :=
    match answer with
    | .answered answer => P.possible m c.1 answer
    | .caught _ => handles m
  after m c answer :=
    match answer with
    | .answered answer => P.after m c.1 answer
    | .caught _ => m

variable {P : Monitor ι ρ μ} {handles : μ → Prop} {m : μ}

theorem obeys_interruptible {post : Unit → μ → Prop} {p : Program ι ρ Unit} {blocked : List κ}
    {handler : κ → Program (Interruptible ι κ) (outcome κ ρ) Unit}
    (handled : ∀ signal m, handles m → (P.interruptible handles).Obeys post (handler signal) m)
    (obeys : P.Obeys post p m) :
    (P.interruptible handles).Obeys post (p.interruptible blocked handler) m := by
  induction p generalizing m with
  | done value => exact obeys
  | call c next ih =>
    simp only [Program.interruptible, Obeys]
    refine ⟨obeys.1, fun answer possible => ?_⟩
    cases answer with
    | answered answer => exact ih answer (obeys.2 answer possible)
    | caught signal => exact handled signal m possible

/-- If the program obeys, and the handlers do wherever a signal may come, both do together. -/
theorem obeys_withHandlers {p : Program ι ρ Unit} {handler : κ → Program ι ρ Unit}
    (handled : ∀ signal m, handles m → P.Obeys (fun _ _ => True) (handler signal) m)
    (obeys : P.Obeys (fun _ _ => True) p m) (nested : Nat) (blocked : List κ) :
    (P.interruptible handles).Obeys (fun _ _ => True) (p.withHandlers handler nested blocked) m := by
  induction nested generalizing p m blocked with
  | zero => exact obeys_interruptible (fun _ _ _ => True.intro) obeys
  | succ nested ih =>
    exact obeys_interruptible (fun signal m handles => ih (handled signal m handles) _) obeys

def product {η : Type} (P : η → Monitor ι ρ μ) : Monitor ι ρ (η → μ) where
  allowed m c := ∀ i, (P i).allowed (m i) c
  possible m c answer := ∀ i, (P i).possible (m i) c answer
  after m c answer i := (P i).after (m i) c answer

def allowing (P : Monitor ι ρ μ) (own : μ → ι → Prop) : Monitor ι ρ μ := { P with allowed := own }

theorem obeys_product {η : Type} {P : η → Monitor ι ρ μ} {m : η → μ} {i : η} {own : μ → ι → Prop}
    {post : α → μ → Prop} {p : Program ι ρ α} (mine : ∀ m c, own m c → (P i).allowed m c)
    (others : ∀ j m c, j ≠ i → own m c → ∀ m', (P j).allowed m' c ∧ ∀ answer, (P j).after m' c answer = m')
    (obeys : ((P i).allowing own).Obeys post p (m i)) :
    (product P).Obeys (fun value m' => post value (m' i) ∧ ∀ j, j ≠ i → m' j = m j) p m := by
  induction p generalizing m with
  | done value => exact ⟨obeys, fun _ _ => rfl⟩
  | call c next ih =>
    refine ⟨fun j => ?_, fun answer possible => ?_⟩
    · by_cases same : j = i
      · subst same
        exact mine (m j) c obeys.1
      · exact (others j (m i) c same obeys.1 (m j)).1
    · refine obeys_mono ?_ (ih answer (obeys.2 answer (possible i)))
      rintro value m' ⟨holds, kept⟩
      refine ⟨holds, fun j other => (kept j other).trans ?_⟩
      exact (others j (m i) c other obeys.1 (m j)).2 answer

end Monitor

end ArchCompSystems.Library
