import ArchCompSystems.Library.Pool
import Mathlib.Algebra.Order.BigOperators.Group.Finset
import Mathlib.Data.Fintype.Basic

namespace ArchCompSystems.Library

/-- A discipline of threads over ghost states: which calls a thread may make in a ghost state, and
    to which ghost states an answered call may move it. The ghost state of a thread that has
    entered a section can hold a copy of what the section protects. -/
structure Protocol (ι : Type) (ρ : ι → Type) (μ : Type) where
  allowed : μ → ι → Prop
  moves : μ → (c : ι) → ρ c → μ → Prop

namespace Protocol

open Program

variable {ι : Type} {ρ : ι → Type} {μ α β γ : Type} (P : Protocol ι ρ μ)

/-- From ghost state `m`, whatever it is moved to, the program makes only allowed calls, and every
    value it ends with satisfies `post` in the ghost state then reached. -/
def Follows (post : α → μ → Prop) : Program ι ρ α → μ → Prop
  | .done value, m => post value m
  | .call c next, m =>
    P.allowed m c ∧ ∀ answer m', P.moves m c answer m' → Follows post (next answer) m'

variable {P} {m : μ}

@[simp] theorem follows_pure {value : α} {post : α → μ → Prop} :
    P.Follows post (pure value) m ↔ post value m := Iff.rfl

@[simp] theorem follows_done {value : α} {post : α → μ → Prop} :
    P.Follows post (.done value) m ↔ post value m := Iff.rfl

theorem follows_mono {p : Program ι ρ α} {post weaker : α → μ → Prop}
    (implies : ∀ value m', post value m' → weaker value m') (follows : P.Follows post p m) :
    P.Follows weaker p m := by
  induction p generalizing m with
  | done value => exact implies value m follows
  | call c next ih => exact ⟨follows.1, fun answer m' moved => ih answer (follows.2 answer m' moved)⟩

theorem follows_bind {p : Program ι ρ α} {f : α → Program ι ρ β} {post : β → μ → Prop} :
    P.Follows post (p >>= f) m ↔ P.Follows (fun value => P.Follows post (f value)) p m := by
  induction p generalizing m with
  | done value => exact Iff.rfl
  | call c next ih =>
    simp only [call_bind, Follows]
    exact and_congr_right fun _ => forall_congr' fun answer => forall_congr' fun m' =>
      imp_congr_right fun _ => ih answer

theorem follows_call {c : ι} {f : ρ c → Program ι ρ β} {post : β → μ → Prop}
    (allowed : P.allowed m c)
    (rest : ∀ answer m', P.moves m c answer m' → P.Follows post (f answer) m') :
    P.Follows post (request c >>= f) m := follows_bind.mpr ⟨allowed, rest⟩

theorem follows_forFrom {body : Nat → β → Program ι ρ (LoopFlow β γ)} {invariant : Nat → β → μ → Prop}
    {left : γ → μ → Prop} {count start : Nat} {carried : β}
    (each : ∀ i carried m, start ≤ i → i < start + count → invariant i carried m →
      P.Follows (fun flow m' => match flow with
        | .next carried' => invariant (i + 1) carried' m'
        | .exit result => left result m') (body i carried) m)
    (holds : invariant start carried m) :
    P.Follows (fun flow m' => match flow with
      | .next carried' => invariant (start + count) carried' m'
      | .exit result => left result m') (forFrom body count start carried) m := by
  induction count generalizing start carried m with
  | zero => exact holds
  | succ count ih =>
    refine follows_bind.mpr (follows_mono (fun flow m' after => ?_)
      (each start carried m (Nat.le_refl _) (by omega) holds))
    cases flow with
    | exit result => exact after
    | next carried' =>
      have shifted : start + 1 + count = start + (count + 1) := by omega
      rw [← shifted]
      exact ih (fun i carried m lower upper => each i carried m (by omega) (by omega)) after

theorem follows_of_calls {quiet : ι → Prop} {p : Program ι ρ α} (calls : p.Calls quiet)
    (allowed : ∀ c, quiet c → P.allowed m c)
    (stays : ∀ c answer m', quiet c → P.moves m c answer m' → m' = m) :
    P.Follows (fun _ m' => m' = m) p m := by
  induction p with
  | done value => exact rfl
  | call c next ih =>
    refine ⟨allowed c calls.1, fun answer m' moved => ?_⟩
    obtain rfl := stays c answer m' calls.1 moved
    exact ih answer (calls.2 answer)

theorem follows_weaken {Q : Protocol ι ρ μ} {p : Program ι ρ α} {post : α → μ → Prop}
    (allowed : ∀ m c, P.allowed m c → Q.allowed m c)
    (moves : ∀ m c answer m', Q.moves m c answer m' → P.moves m c answer m') (follows : P.Follows post p m) :
    Q.Follows post p m := by
  induction p generalizing m with
  | done value => exact follows
  | call c next ih =>
    exact ⟨allowed m c follows.1, fun answer m' moved => ih answer (follows.2 answer m' (moves m c answer m' moved))⟩

def comap {κ : Type} {ρ' : κ → Type} (P : Protocol κ ρ' μ) (inject : ι → κ)
    (read : ∀ c, ρ' (inject c) → ρ c) : Protocol ι ρ μ where
  allowed m c := P.allowed m (inject c)
  moves m c answer m' := ∃ answer', read c answer' = answer ∧ P.moves m (inject c) answer' m'

theorem follows_lift {κ : Type} {ρ' : κ → Type} {P : Protocol κ ρ' μ} {inject : ι → κ}
    {read : ∀ c, ρ' (inject c) → ρ c} {p : Program ι ρ α} {post : α → μ → Prop} :
    P.Follows post (p.lift inject read) m ↔ (P.comap inject read).Follows post p m := by
  induction p generalizing m with
  | done value => exact Iff.rfl
  | call c next ih =>
    refine and_congr_right fun _ => ⟨fun follows answer m' => ?_, fun follows answer m' moved => ?_⟩
    · rintro ⟨answer, rfl, moved⟩
      exact (ih _).mp (follows answer m' moved)
    · exact (ih _).mpr (follows _ m' ⟨answer, rfl, moved⟩)

/-- A program that follows its discipline ends, if each of its allowed calls has just one answer, and a
    move that keeps what the ghost states say about the state. -/
theorem surely_of_follows {τ σ : Type} {M : Machine τ ι ρ σ} {t : τ} {agrees : σ → μ → Prop} {made : ι → Prop}
    (call : ∀ s m c, agrees s m → P.allowed m c → made c → ∃ answer s' m', M.perform t c answer s = some s' ∧
      (∀ other after, M.perform t c other s = some after → other = answer) ∧ P.moves m c answer m' ∧ agrees s' m')
    {p : Program ι ρ α} {post : α → μ → Prop} {s : σ} (calls : p.Calls made) (follows : P.Follows post p m)
    (holds : agrees s m) : M.Surely t p (fun value s' => ∃ m', post value m' ∧ agrees s' m') s := by
  induction p generalizing m s with
  | done value => exact ⟨m, follows, holds⟩
  | call c next ih =>
    obtain ⟨answer, s', m', performed, only, moved, kept⟩ := call s m c holds follows.1 calls.1
    exact ⟨answer, s', performed, only, ih answer (calls.2 answer) (follows.2 answer m' moved) kept⟩

/-- `P.Trace m history m'`: the history can have moved a thread from ghost state `m` to `m'`. -/
inductive Trace (P : Protocol ι ρ μ) (m : μ) : List (Event ρ) → μ → Prop where
  | nil : Trace P m [] m
  | snoc {history : List (Event ρ)} {middle m' : μ} {c : ι} {answer : ρ c}
      (before : Trace P m history middle) (allowed : P.allowed middle c)
      (moved : P.moves middle c answer m') : Trace P m (history ++ [⟨c, answer⟩]) m'

theorem Trace.balance {m' : μ} {history : List (Event ρ)} (tokens : μ → Nat) (takes gives : Event ρ → Bool)
    (balanced : ∀ m c answer m', P.allowed m c → P.moves m c answer m' →
      tokens m' + (gives ⟨c, answer⟩).toNat = tokens m + (takes ⟨c, answer⟩).toNat)
    (trace : P.Trace m history m') :
    tokens m + history.countP takes = history.countP gives + tokens m' := by
  induction trace with
  | nil => simp
  | @snoc history middle m' c answer before allowed moved ih =>
    have step := balanced middle c answer m' allowed moved
    have counted : ∀ (test : Event ρ → Bool) (event : Event ρ),
        (history ++ [event]).countP test = history.countP test + (test event).toNat := fun test event => by
      rw [List.countP_append, List.countP_singleton]
      cases test event <;> rfl
    rw [counted, counted]
    omega

end Protocol

namespace Pool

variable {τ ι : Type} [DecidableEq τ] {ρ : ι → Type} {σ μ : Type}
variable {M : Machine τ ι ρ σ} {ok : Pool τ ι ρ σ → Action τ ι ρ → Prop} {start pool : Pool τ ι ρ σ}

/-- Every thread has followed its protocol and still does, and the ghost states that this has led
    to agree with the shared state. -/
structure Governed (P : τ → Protocol ι ρ μ) (m : τ → μ) (final : τ → μ → Prop)
    (agrees : σ → (τ → μ) → Prop) (pool : Pool τ ι ρ σ) (ms : τ → μ) : Prop where
  trace : ∀ t, (P t).Trace (m t) (pool.history t) (ms t)
  follows : ∀ t, (P t).Follows (fun _ => final t) (pool.programs t) (ms t)
  agrees : agrees pool.state ms

/-- Threads that follow their protocols keep what the ghost states say about the shared state, if
    every allowed call that is answered has a move that keeps it. -/
theorem Reach.governed {P : τ → Protocol ι ρ μ} {m : τ → μ} {final : τ → μ → Prop}
    {agrees : σ → (τ → μ) → Prop}
    (call : ∀ s ms t c answer s', agrees s ms → (P t).allowed (ms t) c →
      M.perform t c answer s = some s' →
      ∃ m', (P t).moves (ms t) c answer m' ∧ agrees s' (Function.update ms t m'))
    (uncut : ∀ t c s, M.cut t c s = none) (initially : start.Governed P m final agrees m)
    (reach : Reach M ok start pool) : ∃ ms, pool.Governed P m final agrees ms := by
  induction reach with
  | start => exact ⟨m, initially⟩
  | @step pool pool' action _ _ taken ih =>
    obtain ⟨ms, governed⟩ := ih
    cases taken with
    | @call t c next answer s current performed =>
      have following := governed.follows t
      rw [current] at following
      obtain ⟨m', moved, kept⟩ :=
        call pool.state ms t c answer s governed.agrees following.1 performed
      refine ⟨Function.update ms t m', fun u => ?_, fun u => ?_, kept⟩
      · by_cases same : u = t
        · subst same
          simpa only [advance, Function.update_self] using
            (governed.trace u).snoc following.1 moved
        · simpa only [advance, Function.update_of_ne same] using governed.trace u
      · by_cases same : u = t
        · subst same
          simpa only [advance, Function.update_self] using following.2 answer m' moved
        · simpa only [advance, Function.update_of_ne same] using governed.follows u
    | @cut t c next s current taken =>
      rw [uncut] at taken
      cases taken

end Pool

section

variable {τ μ : Type} [DecidableEq τ] [Fintype τ]

def held (tokens : μ → Nat) (ms : τ → μ) : Nat := ∑ t, tokens (ms t)

theorem sum_exchange {κ ν : Type} [DecidableEq κ] [Fintype κ] [AddCommMonoid ν] {f g : κ → ν} {i : κ}
    (others : ∀ j, j ≠ i → f j = g j) : ∑ j, f j + g i = ∑ j, g j + f i := by
  rw [← Finset.add_sum_erase Finset.univ f (Finset.mem_univ i),
    ← Finset.add_sum_erase Finset.univ g (Finset.mem_univ i),
    Finset.sum_congr rfl fun j other => others j (Finset.ne_of_mem_erase other), add_right_comm,
    add_comm (f i), add_right_comm]

theorem held_update (tokens : μ → Nat) (ms : τ → μ) (t : τ) (m' : μ) :
    held tokens (Function.update ms t m') + tokens (ms t) = held tokens ms + tokens m' := by
  have exchanged := @sum_exchange τ Nat _ _ _ (fun u => tokens (Function.update ms t m' u))
    (fun u => tokens (ms u)) t fun u other => by rw [Function.update_of_ne other]
  simp only [Function.update_self] at exchanged
  exact exchanged

omit [DecidableEq τ] in
theorem le_held (tokens : μ → Nat) (ms : τ → μ) (t : τ) : tokens (ms t) ≤ held tokens ms :=
  Finset.single_le_sum (f := fun u => tokens (ms u)) (fun _ _ => Nat.zero_le _) (Finset.mem_univ t)

theorem add_le_held (tokens : μ → Nat) (ms : τ → μ) {t u : τ} (other : u ≠ t) :
    tokens (ms t) + tokens (ms u) ≤ held tokens ms := by
  have split := Finset.add_sum_erase Finset.univ (fun v => tokens (ms v)) (Finset.mem_univ t)
  have member : u ∈ Finset.univ.erase t := Finset.mem_erase.mpr ⟨other, Finset.mem_univ u⟩
  have part := Finset.single_le_sum (f := fun v => tokens (ms v)) (fun _ _ => Nat.zero_le _) member
  unfold held
  omega

/-- If only one thread can hold a guard, what comes with the guard is held by that thread alone. -/
theorem held_eq_of_alone {tokens guard : μ → Nat} {ms : τ → μ} {t : τ} (covered : ∀ m, tokens m ≤ guard m)
    (holds : 0 < guard (ms t)) (alone : held guard ms ≤ 1) : held tokens ms = tokens (ms t) := by
  refine Finset.sum_eq_single t (fun u _ other => ?_) fun outside => absurd (Finset.mem_univ t) outside
  have both := add_le_held guard ms other
  have bound := covered (ms u)
  omega

omit [DecidableEq τ] in
theorem held_le_held {tokens guard : μ → Nat} {ms : τ → μ} (covered : ∀ m, tokens m ≤ guard m) :
    held tokens ms ≤ held guard ms := Finset.sum_le_sum fun t _ => covered (ms t)

omit [DecidableEq τ] in
theorem held_eq_zero {tokens : μ → Nat} {ms : τ → μ} (none : ∀ t, tokens (ms t) = 0) :
    held tokens ms = 0 := Finset.sum_eq_zero fun t _ => none t

end

end ArchCompSystems.Library
