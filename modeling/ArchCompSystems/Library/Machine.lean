import ArchCompSystems.Library.Program

namespace ArchCompSystems.Library

/-- What calls do to a shared state. `perform t c answer s` is the state after thread `t` made
    call `c` in `s` and was answered `answer`; it is `none` when that answer cannot come, so a
    call without possible answers blocks. `cut t c s` is the state after `t` was cancelled while
    it was about to make `c`. -/
structure Machine (τ ι : Type) (ρ : ι → Type) (σ : Type) where
  perform : τ → (c : ι) → ρ c → σ → Option σ
  cut : τ → ι → σ → Option σ

/-- A property of a state, a history and the state it leads to that passes from the parts of a
    history to the whole. -/
structure Account (σ ε : Type) where
  holds : σ → List ε → σ → Prop
  nil : ∀ s, holds s [] s
  append : ∀ {s middle last history later},
    holds s history middle → holds middle later last → holds s (history ++ later) last

def Account.ofRelation {σ ε : Type} (relation : σ → σ → Prop) (refl : ∀ s, relation s s)
    (trans : ∀ {s middle last}, relation s middle → relation middle last → relation s last) :
    Account σ ε where
  holds s _ s' := relation s s'
  nil := refl
  append := trans

namespace Machine

open Program

variable {τ ι : Type} {ρ : ι → Type} {σ α β γ : Type} (M : Machine τ ι ρ σ) (t : τ)

/-- The machine in which only answers come that satisfy `ok`. -/
def restrict (ok : σ → (c : ι) → ρ c → Prop) [∀ s c answer, Decidable (ok s c answer)] : Machine τ ι ρ σ where
  perform t c answer s := if ok s c answer then M.perform t c answer s else none
  cut := M.cut

/-- Thread `t` runs `p` from `s` alone, with this history, and ends with this value and state. -/
inductive Runs (M : Machine τ ι ρ σ) (t : τ) :
    Program ι ρ α → σ → List (Event ρ) → α → σ → Prop where
  | done (value : α) (s : σ) : Runs M t (.done value) s [] value s
  | call {c : ι} {next : ρ c → Program ι ρ α} {answer : ρ c} {s middle last : σ}
      {history : List (Event ρ)} {value : α} (performed : M.perform t c answer s = some middle)
      (rest : Runs M t (next answer) middle history value last) :
      Runs M t (.call c next) s (⟨c, answer⟩ :: history) value last

/-- Weakest precondition: every way in which `t` can run `p` alone from `s` ends in `post`. -/
def wp : Program ι ρ α → (List (Event ρ) → α → σ → Prop) → σ → Prop
  | .done value, post, s => post [] value s
  | .call c next, post, s => ∀ answer s', M.perform t c answer s = some s' →
      wp (next answer) (fun history => post (⟨c, answer⟩ :: history)) s'

variable {M t}

@[simp] theorem wp_pure {value : α} {post : List (Event ρ) → α → σ → Prop} {s : σ} :
    M.wp t (pure value) post s ↔ post [] value s := Iff.rfl

@[simp] theorem wp_done {value : α} {post : List (Event ρ) → α → σ → Prop} {s : σ} :
    M.wp t (.done value) post s ↔ post [] value s := Iff.rfl

@[simp] theorem wp_request {c : ι} {post : List (Event ρ) → ρ c → σ → Prop} {s : σ} :
    M.wp t (request c) post s ↔
      ∀ answer s', M.perform t c answer s = some s' → post [⟨c, answer⟩] answer s' := Iff.rfl

theorem wp_request_iff {c : ι} {post : List (Event ρ) → ρ c → σ → Prop} {value : ρ c} {s last : σ}
    (performed : ∀ answer s', M.perform t c answer s = some s' ↔ answer = value ∧ s' = last) :
    M.wp t (request c) post s ↔ post [⟨c, value⟩] value last := by
  rw [wp_request]
  constructor
  · intro all
    exact all value last ((performed value last).mpr ⟨rfl, rfl⟩)
  · intro holds answer s' answered
    obtain ⟨rfl, rfl⟩ := (performed answer s').mp answered
    exact holds

theorem loads_iff {κ : Type} [DecidableEq κ] {answer value : κ} {s s' : σ} :
    (if answer = value then some s else none) = some s' ↔ answer = value ∧ s' = s := by
  rw [Option.ite_none_right_eq_some, Option.some.injEq, eq_comm (a := s)]

theorem stores_iff {answer : Unit} {s s' : σ} : some s = some s' ↔ answer = () ∧ s' = s := by
  rw [Option.some.injEq, eq_comm]
  exact ⟨fun same => ⟨rfl, same⟩, And.right⟩

theorem wp_mono {p : Program ι ρ α} {post weaker : List (Event ρ) → α → σ → Prop} {s : σ}
    (implies : ∀ history value s', post history value s' → weaker history value s')
    (holds : M.wp t p post s) : M.wp t p weaker s := by
  induction p generalizing post weaker s with
  | done value => exact implies _ _ _ holds
  | call c next ih =>
    intro answer s' performed
    exact ih answer (fun history => implies (⟨c, answer⟩ :: history)) (holds answer s' performed)

theorem wp_bind {p : Program ι ρ α} {f : α → Program ι ρ β}
    {post : List (Event ρ) → β → σ → Prop} {s : σ} :
    M.wp t (p >>= f) post s ↔ M.wp t p
      (fun history value => M.wp t (f value) fun later => post (history ++ later)) s := by
  induction p generalizing post s with
  | done value => exact Iff.rfl
  | call c next ih =>
    simp only [call_bind, wp]
    exact forall_congr' fun answer => forall_congr' fun s' => imp_congr_right fun _ => ih answer

theorem wp_forFrom {body : Nat → β → Program ι ρ (LoopFlow β γ)}
    {invariant : Nat → List (Event ρ) → β → σ → Prop} {left : List (Event ρ) → γ → σ → Prop}
    {count start : Nat} {carried : β} {history : List (Event ρ)} {s : σ}
    (each : ∀ i history carried s, start ≤ i → i < start + count → invariant i history carried s →
      M.wp t (body i carried) (fun later flow s' => match flow with
        | .next carried' => invariant (i + 1) (history ++ later) carried' s'
        | .exit result => left (history ++ later) result s') s)
    (holds : invariant start history carried s) :
    M.wp t (forFrom body count start carried) (fun later flow s' => match flow with
      | .next carried' => invariant (start + count) (history ++ later) carried' s'
      | .exit result => left (history ++ later) result s') s := by
  induction count generalizing start carried history s with
  | zero =>
    rw [← List.append_nil history] at holds
    exact holds
  | succ count ih =>
    refine wp_bind.mpr (wp_mono (fun later flow s' after => ?_)
      (each start history carried s (Nat.le_refl _) (by omega) holds))
    cases flow with
    | exit result =>
      simp only [wp, List.append_nil]
      exact after
    | next carried' =>
      have shifted : start + 1 + count = start + (count + 1) := by omega
      rw [← shifted]
      refine wp_mono (fun rest flow s' final => ?_)
        (ih (fun i history carried s lower upper => each i history carried s (by omega) (by omega))
          after)
      cases flow <;> simpa only [List.append_assoc] using final

theorem wp_iff_runs {p : Program ι ρ α} {post : List (Event ρ) → α → σ → Prop} {s : σ} :
    M.wp t p post s ↔
      ∀ history value s', M.Runs t p s history value s' → post history value s' := by
  induction p generalizing post s with
  | done value =>
    constructor
    · intro holds history result s' run
      cases run
      exact holds
    · intro all
      exact all _ _ _ (.done value s)
  | call c next ih =>
    constructor
    · intro holds history result s' run
      cases run with
      | call performed rest => exact (ih _).mp (holds _ _ performed) _ _ _ rest
    · intro all answer s' performed
      exact (ih answer).mpr fun history value last rest => all _ _ _ (.call performed rest)

theorem runs_bind {p : Program ι ρ α} {f : α → Program ι ρ β} {s s' : σ}
    {history : List (Event ρ)} {value : β} (run : M.Runs t (p >>= f) s history value s') :
    ∃ first result middle later, history = first ++ later ∧ M.Runs t p s first result middle ∧
      M.Runs t (f result) middle later value s' := by
  induction p generalizing s history with
  | done result => exact ⟨[], result, s, history, rfl, .done _ _, run⟩
  | call c next ih =>
    cases run with
    | @call _ _ answer _ _ _ _ _ performed rest =>
      obtain ⟨first, result, middle, later, rfl, head, tail⟩ := ih answer rest
      exact ⟨⟨c, answer⟩ :: first, result, middle, later, rfl, .call performed head, tail⟩

theorem Runs.bind {p : Program ι ρ α} {f : α → Program ι ρ β} {s middle s' : σ}
    {first later : List (Event ρ)} {value : α} {result : β} (run : M.Runs t p s first value middle)
    (rest : M.Runs t (f value) middle later result s') : M.Runs t (p >>= f) s (first ++ later) result s' := by
  induction run with
  | done value s => exact rest
  | call performed _ ih => exact .call performed (ih rest)

theorem Runs.of_restrict {ok : σ → (c : ι) → ρ c → Prop} [∀ s c answer, Decidable (ok s c answer)]
    {p : Program ι ρ α} {s s' : σ} {history : List (Event ρ)} {value : α}
    (run : (M.restrict ok).Runs t p s history value s') : M.Runs t p s history value s' := by
  induction run with
  | done value s => exact .done value s
  | call performed _ ih => exact .call (Option.ite_none_right_eq_some.mp performed).2 ih

theorem Runs.completes {p : Program ι ρ α} {s s' : σ} {history : List (Event ρ)} {value : α}
    (run : M.Runs t p s history value s') : p.Completes history value := by
  induction run with
  | done value s => exact .here _
  | call performed rest ih => exact .step ih

variable (M t)

/-- From `s`, `p` accounts for what it does and ends in `post`. -/
def Ensures (account : Account σ (Event ρ)) (p : Program ι ρ α) (post : α → σ → Prop) (s : σ) :
    Prop :=
  M.wp t p (fun history value s' => account.holds s history s' ∧ post value s') s

variable {M t} {account : Account σ (Event ρ)}

theorem ensures_pure {value : α} {post : α → σ → Prop} {s : σ} (holds : post value s) :
    M.Ensures t account (pure value) post s := ⟨account.nil s, holds⟩

theorem ensures_mono {p : Program ι ρ α} {post weaker : α → σ → Prop} {s : σ}
    (implies : ∀ value s', post value s' → weaker value s')
    (holds : M.Ensures t account p post s) : M.Ensures t account p weaker s :=
  wp_mono (fun _ _ _ both => ⟨both.1, implies _ _ both.2⟩) holds

theorem ensures_bind {p : Program ι ρ α} {f : α → Program ι ρ β} {middle : α → σ → Prop}
    {post : β → σ → Prop} {s : σ} (first : M.Ensures t account p middle s)
    (rest : ∀ value s', middle value s' → M.Ensures t account (f value) post s') :
    M.Ensures t account (p >>= f) post s := by
  refine wp_bind.mpr (wp_mono ?_ first)
  rintro history value s' ⟨counted, holds⟩
  exact wp_mono (fun _ _ _ both => ⟨account.append counted both.1, both.2⟩) (rest value s' holds)

theorem ensures_forFrom {body : Nat → β → Program ι ρ (LoopFlow β γ)} {invariant : Nat → β → σ → Prop}
    {left : γ → σ → Prop} {count start : Nat} {carried : β} {s : σ}
    (each : ∀ i carried s, start ≤ i → i < start + count → invariant i carried s →
      M.Ensures t account (body i carried) (fun flow s' => match flow with
        | .next carried' => invariant (i + 1) carried' s'
        | .exit result => left result s') s)
    (holds : invariant start carried s) :
    M.Ensures t account (forFrom body count start carried) (fun flow s' => match flow with
      | .next carried' => invariant (start + count) carried' s'
      | .exit result => left result s') s := by
  have accounted := @wp_forFrom _ _ _ _ _ _ M t body
    (fun i history carried s' => account.holds s history s' ∧ invariant i carried s')
    (fun history result s' => account.holds s history s' ∧ left result s') count start carried [] s
    (fun i history carried middle lower upper ⟨counted, kept⟩ => wp_mono
      (fun later flow s' ⟨passed, after⟩ => by
        cases flow <;> exact ⟨account.append counted passed, after⟩)
      (each i carried middle lower upper kept)) ⟨account.nil s, holds⟩
  exact wp_mono (fun history flow s' after => by cases flow <;> exact after) accounted

theorem wp_of_calls {allowed : ι → Prop} {p : Program ι ρ α}
    (each : ∀ c answer s s', allowed c → M.perform t c answer s = some s' →
      account.holds s [⟨c, answer⟩] s')
    (calls : p.Calls allowed) (s : σ) :
    M.wp t p (fun history _ s' => account.holds s history s') s := by
  induction p generalizing s with
  | done value => exact account.nil s
  | call c next ih =>
    intro answer s' performed
    have first := each c answer s s' calls.1 performed
    exact wp_mono (fun _ _ _ rest => account.append first rest) (ih answer (calls.2 answer) s')

theorem wp_and {p : Program ι ρ α} {first second : List (Event ρ) → α → σ → Prop} {s : σ}
    (left : M.wp t p first s) (right : M.wp t p second s) :
    M.wp t p (fun history value s' => first history value s' ∧ second history value s') s :=
  wp_iff_runs.mpr fun _ _ _ run =>
    ⟨wp_iff_runs.mp left _ _ _ run, wp_iff_runs.mp right _ _ _ run⟩

theorem Ensures.of_run {p : Program ι ρ α} {post : α → σ → Prop} {s s' : σ}
    {history : List (Event ρ)} {value : α} (holds : M.Ensures t account p post s)
    (run : M.Runs t p s history value s') : account.holds s history s' ∧ post value s' :=
  wp_iff_runs.mp holds _ _ _ run

variable (M t)

/-- No run of `p` by `t` alone from `s` comes to a call in `bad`. -/
def Avoids (bad : ι → Prop) : Program ι ρ α → σ → Prop
  | .done _, _ => True
  | .call c next, s =>
    ¬ bad c ∧ ∀ answer s', M.perform t c answer s = some s' → Avoids bad (next answer) s'

variable {M t} {bad : ι → Prop}

theorem avoids_bind {p : Program ι ρ α} {f : α → Program ι ρ β} {s : σ}
    (first : M.Avoids t bad p s) (rest : M.wp t p (fun _ value => M.Avoids t bad (f value)) s) :
    M.Avoids t bad (p >>= f) s := by
  induction p generalizing s with
  | done value => exact rest
  | call c next ih =>
    exact ⟨first.1, fun answer s' performed =>
      ih answer (first.2 answer s' performed) (rest answer s' performed)⟩

theorem avoids_of_calls {p : Program ι ρ α} (calls : p.Calls fun c => ¬ bad c) (s : σ) :
    M.Avoids t bad p s := by
  induction p generalizing s with
  | done value => exact True.intro
  | call c next ih => exact ⟨calls.1, fun answer s' _ => ih answer (calls.2 answer) s'⟩

theorem avoids_forFrom {body : Nat → β → Program ι ρ (LoopFlow β γ)} {invariant : Nat → β → σ → Prop}
    {count start : Nat} {carried : β} {s : σ}
    (each : ∀ i carried s, start ≤ i → i < start + count → invariant i carried s →
      M.Avoids t bad (body i carried) s ∧
        M.wp t (body i carried) (fun _ flow s' => match flow with
          | .next carried' => invariant (i + 1) carried' s'
          | .exit _ => True) s)
    (holds : invariant start carried s) :
    M.Avoids t bad (forFrom body count start carried) s := by
  induction count generalizing start carried s with
  | zero => exact True.intro
  | succ count ih =>
    obtain ⟨safe, after⟩ := each start carried s (Nat.le_refl _) (by omega) holds
    refine avoids_bind safe (wp_mono ?_ after)
    intro _ flow s' kept
    cases flow with
    | exit result => exact True.intro
    | next carried' =>
      exact ih (fun i carried s lower upper => each i carried s (by omega) (by omega)) kept

variable (M t)

/-- Some run of `p` by `t` alone from `s` ends in `post`. -/
def Can : Program ι ρ α → (α → σ → Prop) → σ → Prop
  | .done value, post, s => post value s
  | .call c next, post, s => ∃ answer s', M.perform t c answer s = some s' ∧ Can (next answer) post s'

variable {M t}

theorem can_bind {p : Program ι ρ α} {f : α → Program ι ρ β} {post : β → σ → Prop} {s : σ} :
    M.Can t (p >>= f) post s ↔ M.Can t p (fun value => M.Can t (f value) post) s := by
  induction p generalizing s with
  | done value => exact Iff.rfl
  | call c next ih =>
    simp only [call_bind, Can]
    exact exists_congr fun answer => exists_congr fun s' => and_congr_right fun _ => ih answer

theorem can_mono {p : Program ι ρ α} {post weaker : α → σ → Prop} {s : σ}
    (implies : ∀ value s', post value s' → weaker value s') (can : M.Can t p post s) :
    M.Can t p weaker s := by
  induction p generalizing s with
  | done value => exact implies _ _ can
  | call c next ih =>
    obtain ⟨answer, s', performed, rest⟩ := can
    exact ⟨answer, s', performed, ih answer rest⟩

theorem exists_run_of_can {p : Program ι ρ α} {post : α → σ → Prop} {s : σ} (can : M.Can t p post s) :
    ∃ history value s', M.Runs t p s history value s' ∧ post value s' := by
  induction p generalizing s with
  | done value => exact ⟨[], value, s, .done _ _, can⟩
  | call c next ih =>
    obtain ⟨answer, s', performed, rest⟩ := can
    obtain ⟨history, value, last, run, holds⟩ := ih answer rest
    exact ⟨⟨c, answer⟩ :: history, value, last, .call performed run, holds⟩

variable (M t)

/-- `p` has exactly one run by `t` alone from `s`, and it ends in `post`. -/
def Surely : Program ι ρ α → (α → σ → Prop) → σ → Prop
  | .done value, post, s => post value s
  | .call c next, post, s => ∃ answer s', M.perform t c answer s = some s' ∧
      (∀ other after, M.perform t c other s = some after → other = answer) ∧ Surely (next answer) post s'

variable {M t}

theorem surely_bind {p : Program ι ρ α} {f : α → Program ι ρ β} {post : β → σ → Prop} {s : σ} :
    M.Surely t (p >>= f) post s ↔ M.Surely t p (fun value => M.Surely t (f value) post) s := by
  induction p generalizing s with
  | done value => exact Iff.rfl
  | call c next ih =>
    simp only [call_bind, Surely]
    exact exists_congr fun answer => exists_congr fun s' => and_congr_right fun _ =>
      and_congr_right fun _ => ih answer

theorem surely_mono {p : Program ι ρ α} {post weaker : α → σ → Prop} {s : σ}
    (implies : ∀ value s', post value s' → weaker value s') (surely : M.Surely t p post s) :
    M.Surely t p weaker s := by
  induction p generalizing s with
  | done value => exact implies _ _ surely
  | call c next ih =>
    obtain ⟨answer, s', performed, only, rest⟩ := surely
    exact ⟨answer, s', performed, only, ih answer rest⟩

theorem can_of_surely {p : Program ι ρ α} {post : α → σ → Prop} {s : σ} (surely : M.Surely t p post s) :
    M.Can t p post s := by
  induction p generalizing s with
  | done value => exact surely
  | call c next ih =>
    obtain ⟨answer, s', performed, -, rest⟩ := surely
    exact ⟨answer, s', performed, ih answer rest⟩

theorem wp_of_surely {p : Program ι ρ α} {post : α → σ → Prop} {s : σ} (surely : M.Surely t p post s) :
    M.wp t p (fun _ => post) s := by
  induction p generalizing s with
  | done value => exact surely
  | call c next ih =>
    obtain ⟨answer, s', performed, only, rest⟩ := surely
    intro other after performed'
    obtain rfl := only other after performed'
    obtain rfl := Option.some.inj (performed.symm.trans performed')
    exact ih other rest

theorem surely_and {p : Program ι ρ α} {post other : α → σ → Prop} {s : σ} (surely : M.Surely t p post s)
    (holds : M.wp t p (fun _ => other) s) : M.Surely t p (fun value s' => post value s' ∧ other value s') s := by
  induction p generalizing s with
  | done value => exact ⟨surely, holds⟩
  | call c next ih =>
    obtain ⟨answer, s', performed, only, rest⟩ := surely
    exact ⟨answer, s', performed, only, ih answer rest (holds answer s' performed)⟩

theorem avoids_of_surely {p : Program ι ρ α} {post : α → σ → Prop} {s : σ}
    (blocked : ∀ c, bad c → ∀ answer s s', M.perform t c answer s ≠ some s') (surely : M.Surely t p post s) :
    M.Avoids t bad p s := by
  induction p generalizing s with
  | done value => exact True.intro
  | call c next ih =>
    obtain ⟨answer, s', performed, only, rest⟩ := surely
    refine ⟨fun isBad => blocked c isBad answer s s' performed, fun other after performed' => ?_⟩
    obtain rfl := only other after performed'
    obtain rfl := Option.some.inj (performed.symm.trans performed')
    exact ih other rest

theorem not_avoids_call {c : ι} {f : ρ c → Program ι ρ β} {answer : ρ c} {s s' : σ}
    (performed : M.perform t c answer s = some s') (comes : ¬ M.Avoids t bad (f answer) s') :
    ¬ M.Avoids t bad (request c >>= f) s := fun avoids => comes (avoids.2 answer s' performed)

theorem not_avoids_bind {p : Program ι ρ α} {f : α → Program ι ρ β} {s : σ}
    (can : M.Can t p (fun value s' => ¬ M.Avoids t bad (f value) s') s) : ¬ M.Avoids t bad (p >>= f) s := by
  induction p generalizing s with
  | done value => exact can
  | call c next ih =>
    obtain ⟨answer, s', performed, rest⟩ := can
    exact fun avoids => ih answer rest (avoids.2 answer s' performed)

theorem not_avoids_bind_left {p : Program ι ρ α} {f : α → Program ι ρ β} {s : σ}
    (comes : ¬ M.Avoids t bad p s) : ¬ M.Avoids t bad (p >>= f) s := by
  induction p generalizing s with
  | done value => exact absurd True.intro comes
  | call c next ih =>
    rintro ⟨good, rest⟩
    exact comes ⟨good, fun answer s' performed =>
      by_contra fun later => ih answer later (rest answer s' performed)⟩

variable (M t)

/-- The run in which every call is answered by `policy`, if it has such answers and they are all
    possible. -/
def exec (policy : (c : ι) → σ → Option (ρ c)) :
    Program ι ρ α → σ → Option (List (Event ρ) × α × σ)
  | .done value, s => some ([], value, s)
  | .call c next, s =>
    match policy c s with
    | none => none
    | some answer =>
      match M.perform t c answer s with
      | none => none
      | some s' => (exec policy (next answer) s').map fun (history, result) =>
          (⟨c, answer⟩ :: history, result)

variable {M t}

theorem runs_of_exec {policy : (c : ι) → σ → Option (ρ c)} {p : Program ι ρ α} {s s' : σ}
    {history : List (Event ρ)} {value : α}
    (executed : M.exec t policy p s = some (history, value, s')) :
    M.Runs t p s history value s' := by
  induction p generalizing s history with
  | done result =>
    simp only [exec, Option.some.injEq, Prod.mk.injEq] at executed
    obtain ⟨rfl, rfl, rfl⟩ := executed
    exact .done _ _
  | call c next ih =>
    simp only [exec] at executed
    split at executed
    · cases executed
    · split at executed
      · cases executed
      · rename_i performed
        obtain ⟨⟨later, result, last⟩, rest, same⟩ := Option.map_eq_some_iff.mp executed
        cases same
        exact .call performed (ih _ rest)

variable (M t)

/-- Operations run one after the other, each alone and by some thread; `ok` says which steps,
    an operation from a state with a history, the run may take. -/
inductive OperationRun {ω : Type} (M : Machine τ ι ρ σ) (program : ω → Program ι ρ Unit)
    (ok : ω → σ → List (Event ρ) → Prop) : σ → List (Event ρ) → σ → Prop where
  | nil (s : σ) : OperationRun M program ok s [] s
  | snoc {s middle last : σ} {history later : List (Event ρ)} {t : τ} {operation : ω}
      (before : OperationRun M program ok s history middle)
      (step : M.Runs t (program operation) middle later () last)
      (allowed : ok operation middle later) :
      OperationRun M program ok s (history ++ later) last

variable {M}

theorem OperationRun.invariant {ω : Type} {program : ω → Program ι ρ Unit}
    {ok : ω → σ → List (Event ρ) → Prop} {holds : σ → Prop} {s s' : σ} {history : List (Event ρ)}
    (each : ∀ t operation s history s', holds s → ok operation s history →
      M.Runs t (program operation) s history () s' → holds s')
    (run : M.OperationRun program ok s history s') (initially : holds s) : holds s' := by
  induction run with
  | nil => exact initially
  | snoc _ step allowed ih => exact each _ _ _ _ _ ih allowed step

end Machine

namespace Program

variable {ι : Type} {ρ : ι → Type} {α β γ : Type}

def freeMachine (ι : Type) (ρ : ι → Type) : Machine Unit ι ρ Unit := ⟨fun _ _ _ _ => some (), fun _ _ _ => some ()⟩

/-- However its calls are answered, the program ends in `post`. -/
def Always (p : Program ι ρ α) (post : List (Event ρ) → α → Prop) : Prop :=
  (freeMachine ι ρ).wp () p (fun history value _ => post history value) ()

theorem completes_iff_runs {p : Program ι ρ α} {history : List (Event ρ)} {value : α} :
    p.Completes history value ↔ (freeMachine ι ρ).Runs () p () history value () := by
  constructor
  · intro completes
    induction p generalizing history with
    | done result =>
      obtain ⟨rfl, rfl⟩ := completes_pure.mp completes
      exact .done _ _
    | call c next ih =>
      obtain ⟨answer, rest, rfl, tail⟩ := completes_call.mp completes
      exact .call rfl (ih answer tail)
  · exact Machine.Runs.completes

theorem always_iff {p : Program ι ρ α} {post : List (Event ρ) → α → Prop} :
    p.Always post ↔ ∀ history value, p.Completes history value → post history value := by
  simp only [Always, Machine.wp_iff_runs, completes_iff_runs]
  exact ⟨fun all history value => all history value (), fun all history value _ => all history value⟩

theorem always_mono {p : Program ι ρ α} {post weaker : List (Event ρ) → α → Prop}
    (implies : ∀ history value, post history value → weaker history value) (holds : p.Always post) :
    p.Always weaker := Machine.wp_mono (fun history value _ => implies history value) holds

@[simp] theorem always_pure {value : α} {post : List (Event ρ) → α → Prop} :
    (pure value : Program ι ρ α).Always post ↔ post [] value := Iff.rfl

@[simp] theorem always_request {c : ι} {post : List (Event ρ) → ρ c → Prop} :
    (request c : Program ι ρ (ρ c)).Always post ↔ ∀ answer, post [⟨c, answer⟩] answer :=
  ⟨fun holds answer => holds answer () rfl, fun holds answer _ _ => holds answer⟩

theorem always_bind {p : Program ι ρ α} {f : α → Program ι ρ β} {post : List (Event ρ) → β → Prop} :
    (p >>= f).Always post ↔
      p.Always fun history value => (f value).Always fun later => post (history ++ later) :=
  Machine.wp_bind

theorem always_forFrom {body : Nat → β → Program ι ρ (LoopFlow β γ)}
    {invariant : List (Event ρ) → β → Prop} {left : List (Event ρ) → γ → Prop} {count start : Nat}
    {carried : β}
    (each : ∀ i history carried, invariant history carried →
      (body i carried).Always fun later flow => match flow with
        | .next carried' => invariant (history ++ later) carried'
        | .exit result => left (history ++ later) result)
    (holds : invariant [] carried) :
    (forFrom body count start carried).Always fun history flow => match flow with
      | .next carried' => invariant history carried'
      | .exit result => left history result := by
  have looped := @Machine.wp_forFrom _ _ _ _ _ _ (freeMachine ι ρ) () body
    (fun _ history carried _ => invariant history carried) (fun history result _ => left history result)
    count start carried [] () (fun i history carried _ _ _ kept => ?_) holds
  · exact Machine.wp_mono (fun _ flow _ after => by cases flow <;> exact after) looped
  · exact Machine.wp_mono (fun _ flow _ after => by cases flow <;> exact after) (each i history carried kept)

theorem always_of_calls {allowed : ι → Prop} {p : Program ι ρ α} {holds : List (Event ρ) → Prop}
    (nil : holds []) (cons : ∀ event history, allowed event.1 → holds history → holds (event :: history))
    (calls : p.Calls allowed) : p.Always fun history _ => holds history := by
  refine always_iff.mpr fun history value completes => ?_
  have each := Path.calls completes calls
  clear completes
  induction history with
  | nil => exact nil
  | cons event rest ih =>
    exact cons event rest (each event (List.mem_cons_self ..))
      (ih fun other member => each other (List.mem_cons_of_mem _ member))

theorem wp_of_always {τ σ : Type} {M : Machine τ ι ρ σ} {t : τ} {s : σ} {p : Program ι ρ α}
    {post : List (Event ρ) → α → Prop} (always : p.Always post) :
    M.wp t p (fun history value _ => post history value) s :=
  Machine.wp_iff_runs.mpr fun history value _ run => always_iff.mp always history value run.completes

end Program

end ArchCompSystems.Library
