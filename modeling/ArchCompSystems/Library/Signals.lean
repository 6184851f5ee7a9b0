import Mathlib.Data.List.Nodup
import Mathlib.Logic.Function.Basic
import Mathlib.Tactic.Common

namespace ArchCompSystems.Library

/-- What a process executes: its program or the handler of a signal. -/
inductive Context (κ : Type) where
  | main
  | handler (signal : κ)
  deriving DecidableEq

/-- The signals of one process. At most one of each number is pending; `running` are the handlers
    that it has entered and not left, innermost first, and `caught` all that it has entered. -/
structure Signals (κ : Type) where
  pending : κ → Bool
  running : List κ
  caught : List κ

namespace Signals

variable {κ : Type} [DecidableEq κ] {s : Signals κ} {signal other : κ}

def initial : Signals κ := ⟨fun _ => false, [], []⟩

def raise (s : Signals κ) (signal : κ) : Signals κ :=
  { s with pending := Function.update s.pending signal true }

def runs (s : Signals κ) : Context κ → Bool
  | .main => s.running.isEmpty
  | .handler signal => s.running.head? = some signal

def enter (s : Signals κ) (signal : κ) : Option (Signals κ) :=
  if s.pending signal = true ∧ signal ∉ s.running then
    some ⟨Function.update s.pending signal false, signal :: s.running, s.caught ++ [signal]⟩
  else none

def leave (s : Signals κ) : Signals κ := { s with running := s.running.tail }

@[simp] theorem raise_pending_self : (s.raise signal).pending signal = true := Function.update_self ..

theorem raise_pending_of_ne (differs : other ≠ signal) :
    (s.raise signal).pending other = s.pending other := Function.update_of_ne differs ..

theorem enter_eq_some {s' : Signals κ} : s.enter signal = some s' ↔
    s.pending signal = true ∧ signal ∉ s.running ∧
      s' = ⟨Function.update s.pending signal false, signal :: s.running, s.caught ++ [signal]⟩ := by
  unfold enter
  split
  · rename_i entered
    simp only [entered, true_and, not_false_eq_true, Option.some.injEq, eq_comm]
  · rename_i refused
    constructor
    · intro impossible
      cases impossible
    · rintro ⟨pending, outside, -⟩
      exact absurd ⟨pending, outside⟩ refused

omit [DecidableEq κ] in
theorem running_of_runs [DecidableEq κ] (runs : s.runs (.handler signal) = true) :
    s.running = signal :: s.leave.running := by
  simp only [Signals.runs, decide_eq_true_eq] at runs
  unfold leave
  cases running : s.running with
  | nil => rw [running] at runs; cases runs
  | cons first rest =>
    rw [running, List.head?_cons, Option.some.injEq] at runs
    rw [runs, List.tail_cons]

end Signals

end ArchCompSystems.Library
