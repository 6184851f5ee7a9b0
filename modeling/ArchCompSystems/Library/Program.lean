import Mathlib.Data.List.Basic
import Mathlib.Logic.Basic

namespace ArchCompSystems.Library

/-- A program over calls `ι`: it ends with a value, or makes one call and goes on with the
    answer. Memory accesses that other threads can see are calls like any other. -/
inductive Program (ι : Type) (ρ : ι → Type) (α : Type) where
  | done (value : α)
  | call (request : ι) (next : ρ request → Program ι ρ α)

abbrev Event {ι : Type} (ρ : ι → Type) := (request : ι) × ρ request

namespace Program

variable {ι : Type} {ρ : ι → Type} {α β γ : Type}

protected def bind : Program ι ρ α → (α → Program ι ρ β) → Program ι ρ β
  | .done value, rest => rest value
  | .call request next, rest => .call request fun answer => (next answer).bind rest

instance : Monad (Program ι ρ) where
  pure := .done
  bind := Program.bind

/-- The program that makes one call and returns its answer. -/
def request (c : ι) : Program ι ρ (ρ c) := .call c .done

@[simp] theorem done_bind (value : α) (rest : α → Program ι ρ β) :
    (.done value : Program ι ρ α) >>= rest = rest value := rfl

@[simp] theorem call_bind (c : ι) (next : ρ c → Program ι ρ α) (rest : α → Program ι ρ β) :
    Program.call c next >>= rest = .call c fun answer => next answer >>= rest := rfl

theorem bind_assoc (p : Program ι ρ α) (f : α → Program ι ρ β) (g : β → Program ι ρ γ) :
    p >>= f >>= g = p >>= fun value => f value >>= g := by
  induction p with
  | done value => rfl
  | call c next ih =>
    simp only [call_bind]
    congr 1
    funext answer
    exact ih answer

/-- What a loop body decides: go on with the next index, or leave the loop. -/
inductive LoopFlow (β γ : Type) where
  | next (carried : β)
  | exit (result : γ)
  deriving DecidableEq

/-- `for (i = start; i < start + count; i++)` over a body that may leave the loop. -/
def forFrom (body : Nat → β → Program ι ρ (LoopFlow β γ)) : Nat → Nat → β → Program ι ρ (LoopFlow β γ)
  | 0, _, carried => .done (.next carried)
  | count + 1, start, carried => body start carried >>= fun flow =>
    match flow with
    | .next carried => forFrom body count (start + 1) carried
    | .exit result => .done (.exit result)

def unanswered (c : ι) [IsEmpty (ρ c)] : Program ι ρ α := .call c fun answer => isEmptyElim answer

def loop (c : ι) [IsEmpty (ρ c)] (rounds : Nat) (start : β) (round : β → Program ι ρ (LoopFlow β γ)) :
    Program ι ρ γ :=
  forFrom (fun _ => round) rounds 0 start >>= fun flow =>
    match flow with
    | .next _ => unanswered c
    | .exit result => .done result

theorem forFrom_start {round : β → Program ι ρ (LoopFlow β γ)} (count start start' : Nat) (carried : β) :
    forFrom (fun _ => round) count start carried = forFrom (fun _ => round) count start' carried := by
  induction count generalizing start start' carried with
  | zero => rfl
  | succ count ih =>
    refine congrArg (round carried >>= ·) (funext fun flow => ?_)
    cases flow with
    | next carried' => exact ih _ _ _
    | exit result => rfl

theorem loop_succ (c : ι) [IsEmpty (ρ c)] (rounds : Nat) (carried : β) (round : β → Program ι ρ (LoopFlow β γ)) :
    loop c (rounds + 1) carried round = round carried >>= fun flow =>
      match flow with
      | .next carried' => loop c rounds carried' round
      | .exit result => .done result := by
  unfold loop
  rw [forFrom, bind_assoc]
  refine congrArg (round carried >>= ·) (funext fun flow => ?_)
  cases flow with
  | next carried' => simp only [forFrom_start rounds (0 + 1) 0]
  | exit result => rfl

def LoopFlow.Keeps {μ : Type} (invariant : β → μ → Prop) (left : γ → μ → Prop) : LoopFlow β γ → μ → Prop
  | .next carried, m => invariant carried m
  | .exit result, m => left result m

/-- Every call that the program can make satisfies `allowed`. -/
def Calls (allowed : ι → Prop) : Program ι ρ α → Prop
  | .done _ => True
  | .call c next => allowed c ∧ ∀ answer, (next answer).Calls allowed

theorem Calls.mono {allowed permitted : ι → Prop} (weaker : ∀ c, allowed c → permitted c)
    {p : Program ι ρ α} (calls : p.Calls allowed) : p.Calls permitted := by
  induction p with
  | done value => exact True.intro
  | call c next ih => exact ⟨weaker c calls.1, fun answer => ih answer (calls.2 answer)⟩

@[simp] theorem calls_pure (allowed : ι → Prop) (value : α) :
    (pure value : Program ι ρ α).Calls allowed := True.intro

@[simp] theorem calls_request (allowed : ι → Prop) (c : ι) :
    (request c : Program ι ρ (ρ c)).Calls allowed ↔ allowed c :=
  ⟨fun calls => calls.1, fun ok => ⟨ok, fun _ => True.intro⟩⟩

theorem calls_bind {allowed : ι → Prop} {p : Program ι ρ α} {f : α → Program ι ρ β}
    (first : p.Calls allowed) (rest : ∀ value, (f value).Calls allowed) :
    (p >>= f).Calls allowed := by
  induction p with
  | done value => exact rest value
  | call c next ih => exact ⟨first.1, fun answer => ih answer (first.2 answer)⟩

theorem calls_forFrom {allowed : ι → Prop} {body : Nat → β → Program ι ρ (LoopFlow β γ)}
    (each : ∀ i carried, (body i carried).Calls allowed) (count start : Nat) (carried : β) :
    (forFrom body count start carried).Calls allowed := by
  induction count generalizing start carried with
  | zero => exact True.intro
  | succ count ih =>
    refine calls_bind (each start carried) fun flow => ?_
    cases flow with
    | next carried => exact ih (start + 1) carried
    | exit result => exact True.intro

theorem calls_loop {allowed : ι → Prop} {c : ι} [IsEmpty (ρ c)] {round : β → Program ι ρ (LoopFlow β γ)}
    (cutOff : allowed c) (each : ∀ carried, (round carried).Calls allowed) (rounds : Nat) (start : β) :
    (loop c rounds start round).Calls allowed := by
  refine calls_bind (calls_forFrom (fun _ => each) rounds 0 start) fun flow => ?_
  cases flow with
  | next carried => exact ⟨cutOff, fun answer => isEmptyElim answer⟩
  | exit result => exact True.intro

section

variable {κ : Type} {ρ' : κ → Type}

def lift (inject : ι → κ) (read : ∀ c, ρ' (inject c) → ρ c) : Program ι ρ α → Program κ ρ' α
  | .done value => .done value
  | .call c next => .call (inject c) fun answer => (next (read c answer)).lift inject read

variable {inject : ι → κ} {read : ∀ c, ρ' (inject c) → ρ c}

end

/-- `p.Path history q`: given the answers of `history`, whatever they are, `p` makes exactly
    its calls and becomes `q`. -/
inductive Path : Program ι ρ α → List (Event ρ) → Program ι ρ α → Prop where
  | here (p : Program ι ρ α) : Path p [] p
  | step {c : ι} {next : ρ c → Program ι ρ α} {answer : ρ c} {history : List (Event ρ)}
      {q : Program ι ρ α} (rest : Path (next answer) history q) :
      Path (.call c next) (⟨c, answer⟩ :: history) q

theorem Path.calls {allowed : ι → Prop} {p q : Program ι ρ α} {history : List (Event ρ)}
    (path : p.Path history q) (calls : p.Calls allowed) : ∀ event ∈ history, allowed event.1 := by
  induction path with
  | here p => simp
  | step rest ih =>
    intro event member
    rcases List.mem_cons.mp member with rfl | later
    · exact calls.1
    · exact ih (calls.2 _) event later

theorem Path.trans {p middle q : Program ι ρ α} {history later : List (Event ρ)}
    (first : p.Path history middle) (rest : middle.Path later q) : p.Path (history ++ later) q := by
  induction first with
  | here p => exact rest
  | step _ ih => exact .step (ih rest)

theorem Path.snoc {p : Program ι ρ α} {history : List (Event ρ)} {c : ι} {next : ρ c → Program ι ρ α}
    {answer : ρ c} (path : p.Path history (.call c next)) : p.Path (history ++ [⟨c, answer⟩]) (next answer) :=
  path.trans (.step (.here _))

theorem Path.bind_cases {p : Program ι ρ α} {f : α → Program ι ρ β} {history : List (Event ρ)}
    {q : Program ι ρ β} (path : (p >>= f).Path history q) :
    (∃ q', p.Path history q' ∧ q = q' >>= f) ∨
      ∃ first value later, history = first ++ later ∧ p.Path first (.done value) ∧ (f value).Path later q := by
  induction p generalizing history with
  | done value => exact .inr ⟨[], value, history, rfl, .here _, path⟩
  | call c next ih =>
    cases path with
    | here => exact .inl ⟨_, .here _, rfl⟩
    | @step _ _ answer _ _ rest =>
      rcases ih answer rest with ⟨q', path', same⟩ | ⟨first, value, later, rfl, path', rest'⟩
      · exact .inl ⟨q', .step path', same⟩
      · exact .inr ⟨⟨c, answer⟩ :: first, value, later, rfl, .step path', rest'⟩

/-- The program can end with `value` after the calls and answers of `history`. -/
def Completes (p : Program ι ρ α) (history : List (Event ρ)) (value : α) : Prop :=
  p.Path history (.done value)

@[simp] theorem completes_pure {value result : α} {history : List (Event ρ)} :
    (pure value : Program ι ρ α).Completes history result ↔ history = [] ∧ value = result := by
  constructor
  · intro path
    cases path
    exact ⟨rfl, rfl⟩
  · rintro ⟨rfl, rfl⟩
    exact .here _

theorem completes_call {c : ι} {next : ρ c → Program ι ρ α} {history : List (Event ρ)}
    {result : α} : (Program.call c next).Completes history result ↔
      ∃ answer rest, history = ⟨c, answer⟩ :: rest ∧ (next answer).Completes rest result := by
  constructor
  · intro path
    cases path with
    | step rest => exact ⟨_, _, rfl, rest⟩
  · rintro ⟨answer, rest, rfl, path⟩
    exact .step path

@[simp] theorem completes_request {c : ι} {history : List (Event ρ)} {result : ρ c} :
    (request c : Program ι ρ (ρ c)).Completes history result ↔ history = [⟨c, result⟩] := by
  constructor
  · intro path
    obtain ⟨answer, rest, rfl, tail⟩ := completes_call.mp path
    obtain ⟨rfl, rfl⟩ := completes_pure.mp tail
    rfl
  · rintro rfl
    exact .step (.here _)

theorem completes_bind {p : Program ι ρ α} {f : α → Program ι ρ β} {history : List (Event ρ)}
    {result : β} : (p >>= f).Completes history result ↔
      ∃ first value rest, history = first ++ rest ∧ p.Completes first value ∧
        (f value).Completes rest result := by
  induction p generalizing history with
  | done value =>
    constructor
    · intro path
      exact ⟨[], value, history, rfl, .here _, path⟩
    · rintro ⟨first, value, rest, rfl, path, tail⟩
      cases path
      exact tail
  | call c next ih =>
    constructor
    · intro path
      obtain ⟨answer, later, rfl, reached⟩ := completes_call.mp path
      obtain ⟨first, value, rest, rfl, head, tail⟩ := (ih answer).mp reached
      exact ⟨⟨c, answer⟩ :: first, value, rest, rfl, .step head, tail⟩
    · rintro ⟨first, value, rest, rfl, head, tail⟩
      obtain ⟨answer, later, rfl, reached⟩ := completes_call.mp head
      exact .step ((ih answer).mpr ⟨later, value, rest, rfl, reached, tail⟩)

theorem Completes.unique {p : Program ι ρ α} {first first' later later' : List (Event ρ)} {value value' : α}
    (completes : p.Completes first value) (completes' : p.Completes first' value')
    (same : first ++ later = first' ++ later') : first = first' ∧ value = value' ∧ later = later' := by
  induction p generalizing first first' with
  | done result =>
    obtain ⟨rfl, rfl⟩ := completes_pure.mp completes
    obtain ⟨rfl, rfl⟩ := completes_pure.mp completes'
    exact ⟨rfl, rfl, same⟩
  | call c next ih =>
    obtain ⟨answer, rest, rfl, tail⟩ := completes_call.mp completes
    obtain ⟨answer', rest', rfl, tail'⟩ := completes_call.mp completes'
    simp only [List.cons_append, List.cons.injEq, Sigma.mk.injEq, heq_eq_eq, true_and] at same
    obtain ⟨rfl, same⟩ := same
    obtain ⟨rfl, rfl, rfl⟩ := ih answer tail tail' same
    exact ⟨rfl, rfl, rfl⟩

def CanEnd (p : Program ι ρ α) : Prop := ∃ history value, p.Completes history value

@[simp] theorem canEnd_pure (value : α) : (pure value : Program ι ρ α).CanEnd := ⟨[], value, .here _⟩

theorem canEnd_bind {p : Program ι ρ α} {f : α → Program ι ρ β} (first : p.CanEnd)
    (rest : ∀ value, (f value).CanEnd) : (p >>= f).CanEnd := by
  obtain ⟨history, value, completes⟩ := first
  obtain ⟨later, result, completes'⟩ := rest value
  exact ⟨history ++ later, result, completes_bind.mpr ⟨_, _, _, rfl, completes, completes'⟩⟩

/-- Histories of a loop, by induction on its passes: none, a last one that leaves the loop, or one
    followed by the rest of the loop. -/
theorem completes_forFrom {body : Nat → β → Program ι ρ (LoopFlow β γ)}
    {holds : β → List (Event ρ) → LoopFlow β γ → Prop}
    (stop : ∀ carried, holds carried [] (.next carried))
    (exit : ∀ i carried history result, (body i carried).Completes history (.exit result) →
      holds carried history (.exit result))
    (next : ∀ i carried history carried' later flow, (body i carried).Completes history (.next carried') →
      holds carried' later flow → holds carried (history ++ later) flow)
    {count start : Nat} {carried : β} {history : List (Event ρ)} {flow : LoopFlow β γ}
    (completes : (forFrom body count start carried).Completes history flow) :
    holds carried history flow := by
  induction count generalizing start carried history with
  | zero =>
    obtain ⟨rfl, rfl⟩ := completes_pure.mp completes
    exact stop carried
  | succ count ih =>
    obtain ⟨first, passed, rest, rfl, pass, tail⟩ := completes_bind.mp completes
    cases passed with
    | exit result =>
      obtain ⟨rfl, rfl⟩ := completes_pure.mp tail
      rw [List.append_nil]
      exact exit start carried first result pass
    | next carried' => exact next start carried first carried' rest flow pass (ih tail)

end Program

end ArchCompSystems.Library
