import ArchCompSystems.Library.Pool
import Mathlib.Tactic.Common

namespace ArchCompSystems.Library

namespace Program

variable {ι : Type} {ρ : ι → Type} {α β γ : Type} {quiet stricter : (c : ι) → ρ c → Prop}

/-- With quiet answers the program ends after at most `n` calls, with a value that satisfies `post`. -/
def EndsWithin (quiet : (c : ι) → ρ c → Prop) (post : α → Prop) : Nat → Program ι ρ α → Prop
  | _, .done value => post value
  | n, .call c next => ∀ answer, quiet c answer → 0 < n ∧ EndsWithin quiet post (n - 1) (next answer)

/-- Whatever the program has come to, with quiet answers from then on it ends after at most `n` calls. -/
def SoonEnds (quiet : (c : ι) → ρ c → Prop) (n : Nat) : Program ι ρ α → Prop
  | .done _ => True
  | .call c next => EndsWithin quiet (fun _ => True) n (.call c next) ∧ ∀ answer, SoonEnds quiet n (next answer)

theorem EndsWithin.mono {post weaker : α → Prop} {n m : Nat} {p : Program ι ρ α} (ends : p.EndsWithin quiet post n)
    (fewer : n ≤ m) (implies : ∀ value, post value → weaker value) (quieter : ∀ c answer, stricter c answer → quiet c answer) :
    p.EndsWithin stricter weaker m := by
  induction p generalizing n m with
  | done value => exact implies value ends
  | call c next ih =>
    intro answer isQuiet
    obtain ⟨positive, rest⟩ := ends answer (quieter c answer isQuiet)
    exact ⟨by omega, ih answer rest (by omega)⟩

theorem SoonEnds.mono {n m : Nat} {p : Program ι ρ α} (ends : p.SoonEnds quiet n) (fewer : n ≤ m) :
    p.SoonEnds quiet m := by
  induction p with
  | done value => exact True.intro
  | call c next ih =>
    exact ⟨ends.1.mono fewer (fun _ holds => holds) fun _ _ isQuiet => isQuiet, fun answer => ih answer (ends.2 answer)⟩

theorem SoonEnds.endsWithin {n : Nat} {p : Program ι ρ α} (ends : p.SoonEnds quiet n) :
    p.EndsWithin quiet (fun _ => True) n := by
  cases p with
  | done value => exact True.intro
  | call c next => exact ends.1

theorem SoonEnds.path {n : Nat} {p q : Program ι ρ α} {history : List (Event ρ)} (ends : p.SoonEnds quiet n)
    (path : p.Path history q) : q.SoonEnds quiet n := by
  induction path with
  | here p => exact ends
  | step _ ih => exact ih (ends.2 _)

theorem Path.calls_rest {allowed : ι → Prop} {p q : Program ι ρ α} {history : List (Event ρ)} (path : p.Path history q)
    (calls : p.Calls allowed) : q.Calls allowed := by
  induction path with
  | here p => exact calls
  | step _ ih => exact ih (calls.2 _)

theorem endsWithin_bind {post : α → Prop} {last : β → Prop} {k m : Nat} {p : Program ι ρ α}
    {f : α → Program ι ρ β} (first : p.EndsWithin quiet post k)
    (rest : ∀ value, post value → (f value).EndsWithin quiet last m) :
    (p >>= f).EndsWithin quiet last (k + m) := by
  induction p generalizing k with
  | done value => exact (rest value first).mono (by omega) (fun _ holds => holds) fun _ _ isQuiet => isQuiet
  | call c next ih =>
    intro answer isQuiet
    obtain ⟨positive, later⟩ := first answer isQuiet
    have ends := ih answer later
    rw [show k - 1 + m = k + m - 1 by omega] at ends
    exact ⟨by omega, ends⟩

theorem soonEnds_bind {k m : Nat} {p : Program ι ρ α} {f : α → Program ι ρ β} (first : p.SoonEnds quiet k)
    (rest : ∀ value, (f value).EndsWithin quiet (fun _ => True) m) (later : ∀ value, (f value).SoonEnds quiet (k + m)) :
    (p >>= f).SoonEnds quiet (k + m) := by
  induction p with
  | done value => exact later value
  | call c next ih =>
    exact ⟨endsWithin_bind first.1 fun value _ => rest value, fun answer => ih answer (first.2 answer)⟩

theorem soonEnds_of_endsWithin {post : α → Prop} {n : Nat} {p : Program ι ρ α}
    (ends : p.EndsWithin (fun _ _ => True) post n) : p.SoonEnds quiet n := by
  induction p generalizing n with
  | done value => exact True.intro
  | call c next ih =>
    refine ⟨ends.mono (Nat.le_refl n) (fun _ _ => True.intro) (fun _ _ _ => True.intro), fun answer => ?_⟩
    exact (ih answer (ends answer True.intro).2).mono (Nat.sub_le n 1)

theorem endsWithin_call {c : ι} {f : ρ c → Program ι ρ α} {post : α → Prop} {n : Nat}
    (rest : ∀ answer, quiet c answer → (f answer).EndsWithin quiet post n) :
    (request c >>= f).EndsWithin quiet post (n + 1) :=
  fun answer isQuiet => ⟨Nat.succ_pos n, rest answer isQuiet⟩

theorem endsWithin_forFrom {body : Nat → β → Program ι ρ (LoopFlow β γ)} {t : Nat}
    (each : ∀ i carried, (body i carried).EndsWithin quiet (fun _ => True) t) (count start : Nat) (carried : β) :
    (forFrom body count start carried).EndsWithin quiet (fun _ => True) (t * count) := by
  induction count generalizing start carried with
  | zero => exact True.intro
  | succ count ih =>
    rw [Nat.mul_succ, Nat.add_comm]
    refine endsWithin_bind (each start carried) fun flow _ => ?_
    cases flow with
    | next carried' => exact ih (start + 1) carried'
    | exit result => exact True.intro

def LoopFlow.IsExit : LoopFlow β γ → Prop
  | .next _ => False
  | .exit _ => True

section

variable {c : ι} [IsEmpty (ρ c)] {round : β → Program ι ρ (LoopFlow β γ)} {t r : Nat}

theorem endsWithin_loop (leaves : ∀ carried, (round carried).EndsWithin quiet LoopFlow.IsExit t) (rounds : Nat)
    (start : β) : (loop c rounds start round).EndsWithin quiet (fun _ => True) t := by
  cases rounds with
  | zero => exact fun answer => isEmptyElim answer
  | succ rounds =>
    rw [loop_succ]
    refine endsWithin_bind (m := 0) (leaves start) fun flow isExit => ?_
    cases flow with
    | next carried => exact isExit.elim
    | exit result => exact True.intro

theorem soonEnds_loop (leaves : ∀ carried, (round carried).EndsWithin quiet LoopFlow.IsExit t)
    (each : ∀ carried, (round carried).SoonEnds quiet r) (rounds : Nat) (start : β) :
    (loop c rounds start round).SoonEnds quiet (r + t) := by
  induction rounds generalizing start with
  | zero => exact ⟨fun answer => isEmptyElim answer, fun answer => isEmptyElim answer⟩
  | succ rounds ih =>
    rw [loop_succ]
    refine soonEnds_bind (each start) (fun flow => ?_) fun flow => ?_
    · cases flow with
      | next carried => exact endsWithin_loop leaves rounds carried
      | exit result => exact True.intro
    · cases flow with
      | next carried => exact ih carried
      | exit result => exact True.intro

end

end Program

namespace Pool

variable {τ ι : Type} [DecidableEq τ] {ρ : ι → Type} {σ : Type} {M : Machine τ ι ρ σ}
variable {ok : Pool τ ι ρ σ → Action τ ι ρ → Prop} {pool pool' : Pool τ ι ρ σ}

theorem Reach.soonEnds {quiet : (c : ι) → ρ c → Prop} (stopped : σ → Prop) (t : τ) {n : Nat}
    (stays : ∀ u c answer s s', stopped s → M.perform u c answer s = some s' →
      stopped s' ∧ (u = t → quiet c answer))
    (stoppedByCut : ∀ u c s s', stopped s → M.cut u c s = some s' → stopped s')
    (holds : stopped pool.state) (ends : (pool.programs t).EndsWithin quiet (fun _ => True) n)
    (reach : Reach M ok pool pool') :
    stopped pool'.state ∧ ∃ m, (pool'.history t).length + m ≤ (pool.history t).length + n ∧
      (pool'.programs t).EndsWithin quiet (fun _ => True) m := by
  induction reach with
  | start => exact ⟨holds, n, Nat.le_refl _, ends⟩
  | @step middle after action _ _ taken ih =>
    obtain ⟨isStopped, m, few, rest⟩ := ih
    cases taken with
    | @call u c next answer s current performed =>
      obtain ⟨kept, isQuiet⟩ := stays u c answer _ s isStopped performed
      refine ⟨kept, ?_⟩
      by_cases same : t = u
      · subst same
        rw [current] at rest
        obtain ⟨positive, later⟩ := rest answer (isQuiet rfl)
        refine ⟨m - 1, ?_, ?_⟩
        · simp only [advance, Function.update_self, List.length_append, List.length_singleton]
          omega
        · simpa only [advance, Function.update_self] using later
      · refine ⟨m, ?_, ?_⟩
        · simpa only [advance, Function.update_of_ne same] using few
        · simpa only [advance, Function.update_of_ne same] using rest
    | @cut u c next s current taken =>
      refine ⟨stoppedByCut u c _ s isStopped taken, m, few, ?_⟩
      rw [finish_programs]
      by_cases same : t = u
      · subst same
        rw [Function.update_self]
        exact True.intro
      · rw [Function.update_of_ne same]
        exact rest

end Pool

end ArchCompSystems.Library
