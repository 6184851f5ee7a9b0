import ArchCompSystems.Library.Pool
import Mathlib.Algebra.Ring.Nat
import Mathlib.Tactic.Common

namespace ArchCompSystems.Hw8

open Library Library.Program

/-- The thread that calls `ArrayProductMultiThread`, and those that it creates. -/
inductive Thread (kThreadsCount : Nat) where
  | main
  | worker (i : Fin (kThreadsCount - 1))
  deriving DecidableEq

structure Context where
  arrChunkSize : Nat
  threadNum : Nat
  deriving DecidableEq

/-- `start` waits until the thread has been created with a context. -/
inductive Call (α : Type) (kThreadsCount : Nat) where
  | create (i : Fin (kThreadsCount - 1)) (context : Context)
  | start
  | loadA (i : Nat)
  | loadB (i : Nat)
  | storeProd (i : Nat) (value : α)
  | exit
  | join (i : Fin (kThreadsCount - 1))

@[reducible] def Call.Answer {α : Type} {kThreadsCount : Nat} : Call α kThreadsCount → Type
  | .start => Context
  | .loadA _ | .loadB _ => α
  | .create _ _ | .storeProd _ _ | .exit | .join _ => Unit

structure State (α : Type) (kThreadsCount : Nat) where
  arrayA : Nat → α
  arrayB : Nat → α
  arrayProd : Nat → α
  contexts : Fin (kThreadsCount - 1) → Option Context
  exited : Fin (kThreadsCount - 1) → Bool

section

variable {α : Type} [DecidableEq α] {kThreadsCount : Nat}

/-- `none` where the call has to wait, and for answers that cannot come. -/
def perform (t : Thread kThreadsCount) (call : Call α kThreadsCount) (answer : call.Answer) (s : State α kThreadsCount) :
    Option (State α kThreadsCount) :=
  match call, answer with
  | .create i context, _ => some { s with contexts := Function.update s.contexts i (some context) }
  | .start, context =>
    match t with
    | .main => none
    | .worker i => if s.contexts i = some context then some s else none
  | .loadA i, answer => if answer = s.arrayA i then some s else none
  | .loadB i, answer => if answer = s.arrayB i then some s else none
  | .storeProd i value, _ => some { s with arrayProd := Function.update s.arrayProd i value }
  | .exit, _ =>
    match t with
    | .main => none
    | .worker i => some { s with exited := Function.update s.exited i true }
  | .join i, _ => if s.exited i then some s else none

def machine (α : Type) [DecidableEq α] (kThreadsCount : Nat) :
    Machine (Thread kThreadsCount) (Call α kThreadsCount) Call.Answer (State α kThreadsCount) :=
  ⟨perform, fun _ _ _ => none⟩

abbrev ProductProgram (α : Type) (kThreadsCount : Nat) := Program (Call α kThreadsCount) Call.Answer

def Call.make (call : Call α kThreadsCount) : ProductProgram α kThreadsCount call.Answer := Program.request call

def sizeT (n : Nat) : Nat := n % 2 ^ 64

/-- `mul` is the product of two elements. The loop has at most as many passes as `i` has values. -/
def arrayProduct (mul : α → α → α) (context : Context) : ProductProgram α kThreadsCount Unit := do
  let startIndex := sizeT (context.arrChunkSize * context.threadNum)
  let endIndex := sizeT (startIndex + context.arrChunkSize)
  let _ ← forFrom (fun _ i => do
    if i = endIndex then return .exit ()
    else
      let a ← Call.make (.loadA i)
      let b ← Call.make (.loadB i)
      Call.make (.storeProd i (mul a b))
      return .next (sizeT (i + 1))) (2 ^ 64) 0 startIndex

def createThreads (len : Nat) : Nat → ProductProgram α kThreadsCount Unit
  | 0 => return ()
  | count + 1 => do
    createThreads len count
    if h : count < kThreadsCount - 1 then Call.make (.create ⟨count, h⟩ ⟨len / kThreadsCount, count + 1⟩)

def joinThreads : Nat → ProductProgram α kThreadsCount Unit
  | 0 => return ()
  | count + 1 => do
    joinThreads count
    if h : count < kThreadsCount - 1 then Call.make (.join ⟨count, h⟩)

def arrayProductMultiThread (mul : α → α → α) (len : Nat) : ProductProgram α kThreadsCount Unit := do
  createThreads len (kThreadsCount - 1)
  arrayProduct mul ⟨len / kThreadsCount, 0⟩
  joinThreads (kThreadsCount - 1)

def worker (mul : α → α → α) : ProductProgram α kThreadsCount Unit := do
  let context ← Call.start.make
  arrayProduct mul context
  Call.exit.make

abbrev Threads (α : Type) (kThreadsCount : Nat) :=
  Pool (Thread kThreadsCount) (Call α kThreadsCount) Call.Answer (State α kThreadsCount)

def start (kThreadsCount : Nat) (mul : α → α → α) (len : Nat) (arrayA arrayB arrayProd : Nat → α) :
    Threads α kThreadsCount where
  programs
    | .main => arrayProductMultiThread mul len
    | .worker _ => worker mul
  state := ⟨arrayA, arrayB, arrayProd, fun _ => none, fun _ => false⟩
  history _ := []

abbrev Reach (mul : α → α → α) (len : Nat) (arrayA arrayB arrayProd : Nat → α) : Threads α kThreadsCount → Prop :=
  Pool.Reach (machine α kThreadsCount) (fun _ _ => True) (start kThreadsCount mul len arrayA arrayB arrayProd)

end

section

variable {α : Type} {kThreadsCount : Nat}

abbrev ThreadEvent (α : Type) (kThreadsCount : Nat) := Event (@Call.Answer α kThreadsCount)

def accessed : ThreadEvent α kThreadsCount → Option Nat
  | ⟨.loadA i, _⟩ | ⟨.loadB i, _⟩ | ⟨.storeProd i _, _⟩ => some i
  | _ => none

def storedBy : ThreadEvent α kThreadsCount → Option Nat
  | ⟨.storeProd i _, _⟩ => some i
  | _ => none

def stored (history : List (ThreadEvent α kThreadsCount)) : List Nat := history.filterMap storedBy

/-- The product is there, each of its elements was stored by one thread, and nothing else was accessed. -/
structure ComputesProduct (mul : α → α → α) (len : Nat) (arrayA arrayB : Nat → α) (pool : Threads α kThreadsCount) :
    Prop where
  product : ∀ i < len, pool.state.arrayProd i = mul (arrayA i) (arrayB i)
  once : ∀ i < len, ∃! t, i ∈ stored (pool.history t)
  inside : ∀ t, ∀ event ∈ pool.history t, ∀ i, accessed event = some i → i < len

end

namespace Thread

variable {kThreadsCount len i : Nat}

def num : Thread kThreadsCount → Nat
  | .main => 0
  | .worker i => i.val + 1

def context (len : Nat) (t : Thread kThreadsCount) : Context := ⟨len / kThreadsCount, t.num⟩

def Owns (len : Nat) (t : Thread kThreadsCount) (i : Nat) : Prop :=
  len / kThreadsCount * t.num ≤ i ∧ i < len / kThreadsCount * t.num + len / kThreadsCount

theorem num_lt (positive : 0 < kThreadsCount) (t : Thread kThreadsCount) : t.num < kThreadsCount := by
  cases t with
  | main => exact positive
  | worker i =>
    have lower := i.isLt
    show i.val + 1 < kThreadsCount
    omega

theorem num_injective {t u : Thread kThreadsCount} (same : t.num = u.num) : t = u := by
  cases t <;> cases u
  · rfl
  · cases same
  · cases same
  · rename_i i j
    exact congrArg _ (Fin.ext (Nat.succ.inj same))

theorem exists_num {n : Nat} (lower : n < kThreadsCount) : ∃ t : Thread kThreadsCount, t.num = n := by
  cases n with
  | zero => exact ⟨.main, rfl⟩
  | succ n => exact ⟨.worker ⟨n, by omega⟩, rfl⟩

theorem chunk_end_le (positive : 0 < kThreadsCount) (t : Thread kThreadsCount) :
    len / kThreadsCount * t.num + len / kThreadsCount ≤ len / kThreadsCount * kThreadsCount := by
  rw [← Nat.mul_succ]
  exact Nat.mul_le_mul_left _ (num_lt positive t)

theorem Owns.lt {t : Thread kThreadsCount} (positive : 0 < kThreadsCount) (owns : t.Owns len i) :
    i < len / kThreadsCount * kThreadsCount :=
  Nat.lt_of_lt_of_le owns.2 (chunk_end_le positive t)

theorem Owns.unique {t u : Thread kThreadsCount} (owns : t.Owns len i) (owns' : u.Owns len i) : t = u := by
  apply num_injective
  have size : 0 < len / kThreadsCount := by
    obtain ⟨lower, upper⟩ := owns
    omega
  have quotient : ∀ v : Thread kThreadsCount, v.Owns len i → i / (len / kThreadsCount) = v.num := by
    rintro v ⟨lower, upper⟩
    apply Nat.div_eq_of_lt_le
    · rw [Nat.mul_comm]
      exact lower
    · rw [Nat.succ_mul, Nat.mul_comm]
      exact upper
  rw [← quotient t owns, ← quotient u owns']

theorem exists_owns (inside : i < len / kThreadsCount * kThreadsCount) : ∃ t : Thread kThreadsCount, t.Owns len i := by
  have size : 0 < len / kThreadsCount := by
    by_contra none
    rw [Nat.eq_zero_of_not_pos none, Nat.zero_mul] at inside
    exact Nat.not_lt_zero _ inside
  obtain ⟨t, num⟩ := exists_num (Nat.div_lt_of_lt_mul inside)
  refine ⟨t, ?_, ?_⟩
  · rw [num]
    exact Nat.mul_div_le _ _
  · rw [num, ← Nat.mul_succ]
    exact Nat.lt_mul_div_succ _ size

end Thread

section

variable {α : Type} {kThreadsCount : Nat}

def Allowed (mul : α → α → α) (len : Nat) (arrayA arrayB : Nat → α) (t : Thread kThreadsCount)
    (history : List (ThreadEvent α kThreadsCount)) : Call α kThreadsCount → Prop
  | .create i context => context = (Thread.worker i).context len
  | .loadA i | .loadB i => t.Owns len i
  | .storeProd i value => t.Owns len i ∧ value = mul (arrayA i) (arrayB i)
  | .exit => ∀ i, t.Owns len i → i ∈ stored history
  | .start | .join _ => True

def Possible (len : Nat) (arrayA arrayB : Nat → α) (t : Thread kThreadsCount) :
    (call : Call α kThreadsCount) → call.Answer → Prop
  | .start, context => context = t.context len
  | .loadA i, a => a = arrayA i
  | .loadB i, b => b = arrayB i
  | _, _ => True

def discipline (mul : α → α → α) (len : Nat) (arrayA arrayB : Nat → α) (t : Thread kThreadsCount) :
    Monitor (Call α kThreadsCount) Call.Answer (List (ThreadEvent α kThreadsCount)) :=
  .recording (Allowed mul len arrayA arrayB t) (Possible len arrayA arrayB t)

def Finished (len : Nat) : Thread kThreadsCount → List (ThreadEvent α kThreadsCount) → Prop
  | .main, history => (∀ i, (Thread.main : Thread kThreadsCount).Owns len i → i ∈ stored history) ∧ ∀ i, ⟨.join i, ()⟩ ∈ history
  | .worker _, _ => True

/-- What the histories say about the shared state. -/
structure Agrees (mul : α → α → α) (len : Nat) (arrayA arrayB : Nat → α) (s : State α kThreadsCount)
    (histories : Thread kThreadsCount → List (ThreadEvent α kThreadsCount)) : Prop where
  sameA : s.arrayA = arrayA
  sameB : s.arrayB = arrayB
  contexts : ∀ i context, s.contexts i = some context → context = (Thread.worker i).context len
  product : ∀ t i, i ∈ stored (histories t) → s.arrayProd i = mul (arrayA i) (arrayB i)
  exited : ∀ i, s.exited i = true → ∀ j, (Thread.worker i).Owns len j → j ∈ stored (histories (.worker i))
  joined : ∀ i, ⟨.join i, ()⟩ ∈ histories .main → s.exited i = true

variable {mul : α → α → α} {len i : Nat} {arrayA arrayB : Nat → α} {s s' : State α kThreadsCount}
  {histories : Thread kThreadsCount → List (ThreadEvent α kThreadsCount)} {t : Thread kThreadsCount}
  {history : List (ThreadEvent α kThreadsCount)} {event : ThreadEvent α kThreadsCount}

theorem mem_stored_concat : i ∈ stored (history ++ [event]) ↔ i ∈ stored history ∨ storedBy event = some i := by
  rw [stored, List.filterMap_append, List.mem_append]
  apply or_congr Iff.rfl
  simp only [List.mem_filterMap, List.mem_singleton, exists_eq_left]

theorem mem_stored_of_mem (earlier : i ∈ stored history) : i ∈ stored (history ++ [event]) :=
  mem_stored_concat.mpr (.inl earlier)

theorem Agrees.move (agrees : Agrees mul len arrayA arrayB s histories) (sameA : s'.arrayA = s.arrayA)
    (sameB : s'.arrayB = s.arrayB)
    (contexts : ∀ i context, s'.contexts i = some context → context = (Thread.worker i).context len)
    (kept : ∀ i, s.arrayProd i = mul (arrayA i) (arrayB i) → s'.arrayProd i = mul (arrayA i) (arrayB i))
    (fresh : ∀ i, storedBy event = some i → s'.arrayProd i = mul (arrayA i) (arrayB i))
    (exited : ∀ i, s'.exited i = true → s.exited i = true ∨
      t = .worker i ∧ ∀ j, t.Owns len j → j ∈ stored (histories t))
    (stays : ∀ i, s.exited i = true → s'.exited i = true)
    (joined : ∀ i, event = ⟨.join i, ()⟩ → s.exited i = true) :
    Agrees mul len arrayA arrayB s' (Function.update histories t (histories t ++ [event])) where
  sameA := sameA.trans agrees.sameA
  sameB := sameB.trans agrees.sameB
  contexts := contexts
  product := by
    intro u i member
    by_cases same : u = t
    · subst same
      rw [Function.update_self] at member
      rcases mem_stored_concat.mp member with earlier | now
      · exact kept i (agrees.product u i earlier)
      · exact fresh i now
    · rw [Function.update_of_ne same] at member
      exact kept i (agrees.product u i member)
  exited := by
    intro i ended j owns
    have before : j ∈ stored (histories (.worker i)) := by
      rcases exited i ended with earlier | ⟨rfl, all⟩
      · exact agrees.exited i earlier j owns
      · exact all j owns
    by_cases same : Thread.worker i = t
    · subst same
      rw [Function.update_self]
      exact mem_stored_of_mem before
    · rw [Function.update_of_ne same]
      exact before
  joined := by
    intro i member
    by_cases same : Thread.main = t
    · subst same
      rw [Function.update_self] at member
      rcases List.mem_append.mp member with earlier | now
      · exact stays i (agrees.joined i earlier)
      · exact stays i (joined i (List.mem_singleton.mp now).symm)
    · rw [Function.update_of_ne same] at member
      exact stays i (agrees.joined i member)

end

section

variable {α : Type} [DecidableEq α] {kThreadsCount : Nat} {mul : α → α → α} {len : Nat} {arrayA arrayB : Nat → α}
  {s s' : State α kThreadsCount} {histories : Thread kThreadsCount → List (ThreadEvent α kThreadsCount)}
  {t : Thread kThreadsCount} {history : List (ThreadEvent α kThreadsCount)}

theorem Agrees.step (agrees : Agrees mul len arrayA arrayB s histories) {c : Call α kThreadsCount} {answer : c.Answer}
    (allowed : Allowed mul len arrayA arrayB t (histories t) c) (performed : perform t c answer s = some s') :
    Possible len arrayA arrayB t c answer ∧
      Agrees mul len arrayA arrayB s' (Function.update histories t (histories t ++ [⟨c, answer⟩])) := by
  cases c with
  | create i context =>
    cases performed
    refine ⟨True.intro, agrees.move rfl rfl ?_ (fun _ => id) (by rintro _ ⟨⟩) (fun _ => .inl) (fun _ => id)
      (by rintro _ ⟨⟩)⟩
    intro j other present
    by_cases same : j = i
    · subst same
      simp only [Function.update_self, Option.some.injEq] at present
      exact present.symm.trans allowed
    · simp only [Function.update_of_ne same] at present
      exact agrees.contexts j other present
  | start =>
    cases t with
    | main => cases performed
    | worker i =>
      simp only [perform, Option.ite_none_right_eq_some, Option.some.injEq] at performed
      obtain ⟨present, rfl⟩ := performed
      exact ⟨agrees.contexts i answer present, agrees.move rfl rfl agrees.contexts (fun _ => id) (by rintro _ ⟨⟩)
        (fun _ => .inl) (fun _ => id) (by rintro _ ⟨⟩)⟩
  | loadA i =>
    simp only [perform, Option.ite_none_right_eq_some, Option.some.injEq] at performed
    obtain ⟨rfl, rfl⟩ := performed
    exact ⟨congrFun agrees.sameA i, agrees.move rfl rfl agrees.contexts (fun _ => id) (by rintro _ ⟨⟩) (fun _ => .inl)
      (fun _ => id) (by rintro _ ⟨⟩)⟩
  | loadB i =>
    simp only [perform, Option.ite_none_right_eq_some, Option.some.injEq] at performed
    obtain ⟨rfl, rfl⟩ := performed
    exact ⟨congrFun agrees.sameB i, agrees.move rfl rfl agrees.contexts (fun _ => id) (by rintro _ ⟨⟩) (fun _ => .inl)
      (fun _ => id) (by rintro _ ⟨⟩)⟩
  | storeProd i value =>
    obtain ⟨-, rfl⟩ := allowed
    cases performed
    refine ⟨True.intro, agrees.move rfl rfl agrees.contexts ?_ ?_ (fun _ => .inl) (fun _ => id) (by rintro _ ⟨⟩)⟩
    · intro j holds
      by_cases same : j = i
      · subst same
        exact Function.update_self ..
      · exact (Function.update_of_ne same ..).trans holds
    · rintro _ ⟨⟩
      exact Function.update_self ..
  | exit =>
    cases t with
    | main => cases performed
    | worker i =>
      cases performed
      refine ⟨True.intro, agrees.move rfl rfl agrees.contexts (fun _ => id) (by rintro _ ⟨⟩) ?_ ?_ (by rintro _ ⟨⟩)⟩
      · intro j ended
        by_cases same : j = i
        · subst same
          exact .inr ⟨rfl, allowed⟩
        · simp only [Function.update_of_ne same] at ended
          exact .inl ended
      · intro j ended
        by_cases same : j = i
        · subst same
          exact Function.update_self ..
        · exact (Function.update_of_ne same ..).trans ended
  | join i =>
    simp only [perform, Option.ite_none_right_eq_some, Option.some.injEq] at performed
    obtain ⟨ended, rfl⟩ := performed
    refine ⟨True.intro, agrees.move rfl rfl agrees.contexts (fun _ => id) (by rintro _ ⟨⟩) (fun _ => .inl)
      (fun _ => id) ?_⟩
    rintro _ ⟨⟩
    exact ended

end

section

variable {α : Type} {kThreadsCount : Nat} {mul : α → α → α} {len : Nat} {arrayA arrayB : Nat → α}
  {t : Thread kThreadsCount} {history : List (ThreadEvent α kThreadsCount)}

theorem sizeT_of_lt {n : Nat} (small : n < 2 ^ 64) : sizeT n = n := Nat.mod_eq_of_lt small

theorem arrayProduct_obeys (positive : 0 < kThreadsCount) (small : len < 2 ^ 64) :
    (discipline mul len arrayA arrayB t).Obeys (fun _ history' => ∀ i, t.Owns len i → i ∈ stored history')
      (arrayProduct mul (t.context len)) history := by
  have bound := @Thread.chunk_end_le _ len positive t
  have within : len / kThreadsCount * kThreadsCount ≤ len := Nat.div_mul_le_self _ _
  have fits : len / kThreadsCount * t.num + len / kThreadsCount < 2 ^ 64 := by omega
  have first : sizeT (len / kThreadsCount * t.num) = len / kThreadsCount * t.num :=
    sizeT_of_lt (Nat.lt_of_le_of_lt (Nat.le_add_right _ _) fits)
  have last : sizeT (len / kThreadsCount * t.num + len / kThreadsCount) =
      len / kThreadsCount * t.num + len / kThreadsCount := sizeT_of_lt fits
  simp only [arrayProduct, Thread.context, first, last]
  apply Monitor.obeys_bind.mpr
  have looped := @Monitor.obeys_forFrom_within _ _ _ Nat Unit (discipline mul len arrayA arrayB t) history
    (fun _ i => do
      if i = len / kThreadsCount * t.num + len / kThreadsCount then return .exit ()
      else
        let a ← Call.make (.loadA i)
        let b ← Call.make (.loadB i)
        Call.make (.storeProd i (mul a b))
        return .next (sizeT (i + 1)))
    (fun pass i history' => i = len / kThreadsCount * t.num + pass ∧
      i ≤ len / kThreadsCount * t.num + len / kThreadsCount ∧
      ∀ j, len / kThreadsCount * t.num ≤ j → j < i → j ∈ stored history')
    (fun _ history' => ∀ i, t.Owns len i → i ∈ stored history') (2 ^ 64) 0 (len / kThreadsCount * t.num) ?_ ?_
  · refine Monitor.obeys_mono (fun flow history' kept => ?_) looped
    cases flow with
    | exit _ => exact kept
    | next i =>
      obtain ⟨reached, inside, -⟩ := kept
      omega
  · rintro pass i history' - - ⟨reached, inside, before⟩
    by_cases ended : i = len / kThreadsCount * t.num + len / kThreadsCount
    · rw [if_pos ended]
      intro j owns
      exact before j owns.1 (ended ▸ owns.2)
    · rw [if_neg ended]
      have owns : t.Owns len i := ⟨by omega, by omega⟩
      refine ⟨owns, ?_⟩
      rintro a rfl
      refine ⟨owns, ?_⟩
      rintro b rfl
      refine ⟨⟨owns, rfl⟩, fun _ _ => ?_⟩
      have next : sizeT (i + 1) = i + 1 := sizeT_of_lt (by omega)
      show (_ ∧ _ ∧ _ : Prop)
      rw [next]
      refine ⟨by omega, by omega, fun j lower upper => ?_⟩
      rcases Nat.lt_succ_iff_lt_or_eq.mp upper with earlier | rfl
      · exact mem_stored_concat.mpr (.inl (mem_stored_of_mem (mem_stored_of_mem (before j lower earlier))))
      · exact mem_stored_concat.mpr (.inr rfl)
  · exact ⟨rfl, Nat.le_add_right _ _, fun j lower upper => absurd lower (Nat.not_le_of_lt upper)⟩

theorem worker_obeys (positive : 0 < kThreadsCount) (small : len < 2 ^ 64) :
    (discipline mul len arrayA arrayB t).Obeys (fun _ _ => True) (worker mul) history := by
  apply Monitor.obeys_call True.intro
  rintro context rfl
  apply Monitor.obeys_bind.mpr
  refine Monitor.obeys_mono (fun _ history' all => ?_) (arrayProduct_obeys positive small)
  exact ⟨all, fun _ _ => True.intro⟩

theorem createThreads_obeys {count : Nat} :
    (discipline mul len arrayA arrayB t).Obeys (fun _ _ => True) (createThreads len count) history := by
  induction count with
  | zero => exact True.intro
  | succ count ih =>
    apply Monitor.obeys_bind.mpr
    refine Monitor.obeys_mono (fun _ history' _ => ?_) ih
    split
    · exact ⟨rfl, fun _ _ => True.intro⟩
    · exact True.intro

theorem joinThreads_obeys {count : Nat} (all : ∀ i, t.Owns len i → i ∈ stored history) :
    (discipline mul len arrayA arrayB t).Obeys (fun _ history' => (∀ i, t.Owns len i → i ∈ stored history') ∧
      ∀ i : Fin (kThreadsCount - 1), i.val < count → ⟨.join i, ()⟩ ∈ history') (joinThreads count) history := by
  induction count with
  | zero => exact ⟨all, fun i lower => absurd lower (Nat.not_lt_zero _)⟩
  | succ count ih =>
    apply Monitor.obeys_bind.mpr
    refine Monitor.obeys_mono (fun _ history' kept => ?_) ih
    obtain ⟨all', joined⟩ := kept
    split
    · refine ⟨True.intro, fun _ _ => ⟨fun i owns => mem_stored_of_mem (all' i owns), fun i lower => ?_⟩⟩
      rcases Nat.lt_succ_iff_lt_or_eq.mp lower with earlier | rfl
      · exact List.mem_append_left _ (joined i earlier)
      · exact List.mem_append_right _ (List.mem_singleton.mpr rfl)
    · rename_i beyond
      refine ⟨all', fun i lower => joined i ?_⟩
      have := i.isLt
      omega

theorem arrayProductMultiThread_obeys (positive : 0 < kThreadsCount) (small : len < 2 ^ 64) :
    (discipline mul len arrayA arrayB .main).Obeys (fun _ => Finished len .main) (arrayProductMultiThread mul len)
      history := by
  apply Monitor.obeys_bind.mpr
  refine Monitor.obeys_mono (fun _ history₁ _ => ?_) createThreads_obeys
  apply Monitor.obeys_bind.mpr
  refine Monitor.obeys_mono (fun _ history₂ all => ?_) (@arrayProduct_obeys _ _ mul len arrayA arrayB .main _ positive small)
  refine Monitor.obeys_mono (fun _ history₃ kept => ?_) (joinThreads_obeys all)
  exact ⟨kept.1, fun i => kept.2 i i.isLt⟩

end

section

variable {α : Type} [DecidableEq α] {kThreadsCount : Nat} {mul : α → α → α} {len : Nat}
  {arrayA arrayB arrayProd : Nat → α} {pool : Threads α kThreadsCount}

theorem Reach.disciplined (positive : 0 < kThreadsCount) (small : len < 2 ^ 64)
    (reach : Reach mul len arrayA arrayB arrayProd pool) :
    pool.Disciplined (discipline mul len arrayA arrayB) (fun _ => []) (Finished len) (Agrees mul len arrayA arrayB) := by
  apply Pool.Reach.disciplined _ _ _ reach
  · intro pool t c answer s agrees _ allowed performed
    exact agrees.step allowed performed
  · intro pool t c s _ _ taken
    cases taken
  · refine ⟨fun _ => True.intro, fun t => ?_, ?_⟩
    · cases t with
      | main => exact arrayProductMultiThread_obeys positive small
      | worker i => exact worker_obeys positive small
    · refine ⟨rfl, rfl, ?_, ?_, ?_, ?_⟩
      · rintro _ _ ⟨⟩
      · rintro _ _ ⟨⟩
      · rintro _ ⟨⟩
      · rintro _ ⟨⟩

omit [DecidableEq α] in
theorem monitored_discipline {t : Thread kThreadsCount} :
    pool.monitored (discipline mul len arrayA arrayB) (fun _ => []) t = pool.history t :=
  (Monitor.run_recording _).trans (List.nil_append _)

theorem Reach.owns_of_accessed (positive : 0 < kThreadsCount) (small : len < 2 ^ 64)
    (reach : Reach mul len arrayA arrayB arrayProd pool) {t : Thread kThreadsCount} {event : ThreadEvent α kThreadsCount}
    {i : Nat} (member : event ∈ pool.history t) (access : accessed event = some i) : t.Owns len i := by
  obtain ⟨_, allowed, -⟩ := ((reach.disciplined positive small).accepts t).mem member
  obtain ⟨call, answer⟩ := event
  cases call with
  | loadA j =>
    cases access
    exact allowed
  | loadB j =>
    cases access
    exact allowed
  | storeProd j value =>
    cases access
    exact allowed.1
  | _ => cases access

theorem Reach.owns_of_stored (positive : 0 < kThreadsCount) (small : len < 2 ^ 64)
    (reach : Reach mul len arrayA arrayB arrayProd pool) {t : Thread kThreadsCount} {i : Nat}
    (member : i ∈ stored (pool.history t)) : t.Owns len i := by
  obtain ⟨⟨call, answer⟩, present, is_store⟩ := List.mem_filterMap.mp member
  apply reach.owns_of_accessed positive small present
  cases call with
  | storeProd j value =>
    cases is_store
    rfl
  | _ => cases is_store

theorem Reach.stored_of_owns (positive : 0 < kThreadsCount) (small : len < 2 ^ 64)
    (reach : Reach mul len arrayA arrayB arrayProd pool) (returned : pool.programs .main = .done ())
    {t : Thread kThreadsCount} {i : Nat} (owns : t.Owns len i) : i ∈ stored (pool.history t) := by
  have disciplined := reach.disciplined positive small
  have finished := disciplined.obeys .main
  rw [returned, monitored_discipline] at finished
  obtain ⟨own, joined⟩ := finished
  cases t with
  | main => exact own i owns
  | worker j =>
    have agrees := disciplined.agrees
    rw [funext fun t => @monitored_discipline α kThreadsCount mul len arrayA arrayB pool t] at agrees
    exact agrees.exited j (agrees.joined j (joined j)) i owns

/-- In every run that has returned, the product is computed if and only if the threads divide the length. -/
theorem arrayProductMultiThread_iff (positive : 0 < kThreadsCount) (small : len < 2 ^ 64)
    (reach : Reach mul len arrayA arrayB arrayProd pool) (returned : pool.programs .main = .done ()) :
    ComputesProduct mul len arrayA arrayB pool ↔ kThreadsCount ∣ len := by
  have within : len / kThreadsCount * kThreadsCount ≤ len := Nat.div_mul_le_self _ _
  constructor
  · intro computes
    by_contra remainder
    have short : len / kThreadsCount * kThreadsCount < len := by
      apply Nat.lt_of_le_of_ne within
      intro whole
      exact remainder ⟨len / kThreadsCount, by rw [Nat.mul_comm]; exact whole.symm⟩
    obtain ⟨t, member, -⟩ := computes.once _ short
    have owns := reach.owns_of_stored positive small member
    exact Nat.lt_irrefl _ (owns.lt positive)
  · intro divides
    have whole : len / kThreadsCount * kThreadsCount = len := Nat.div_mul_cancel divides
    have agrees := (reach.disciplined positive small).agrees
    rw [funext fun t => @monitored_discipline α kThreadsCount mul len arrayA arrayB pool t] at agrees
    refine ⟨fun i inside => ?_, fun i inside => ?_, fun t event member i access => ?_⟩
    · obtain ⟨t, owns⟩ := @Thread.exists_owns kThreadsCount len i (by omega)
      exact agrees.product t i (reach.stored_of_owns positive small returned owns)
    · obtain ⟨t, owns⟩ := @Thread.exists_owns kThreadsCount len i (by omega)
      refine ⟨t, reach.stored_of_owns positive small returned owns, fun u member => ?_⟩
      exact (reach.owns_of_stored positive small member).unique owns
    · have owns := reach.owns_of_accessed positive small member access
      exact Nat.lt_of_lt_of_le (owns.lt positive) within

end

def answerOf : (call : Call Nat 2) → State Nat 2 → Option call.Answer
  | .start, s => s.contexts ⟨0, Nat.one_pos⟩
  | .loadA i, s => some (s.arrayA i)
  | .loadB i, s => some (s.arrayB i)
  | .create _ _, _ | .storeProd _ _, _ | .exit, _ | .join _, _ => some ()

def theWorker : Thread 2 := .worker ⟨0, Nat.one_pos⟩

def eachHalf : List (Pool.Turn (Thread 2) (Call Nat 2) Call.Answer (State Nat 2)) :=
  [.go .main 4 answerOf, .go theWorker 5 answerOf, .go .main 1 answerOf]

def nothingToDo : List (Pool.Turn (Thread 2) (Call Nat 2) Call.Answer (State Nat 2)) :=
  [.go .main 1 answerOf, .go theWorker 2 answerOf, .go .main 1 answerOf]

theorem two_threads_compute_two : ∃ pool : Threads Nat 2, pool.programs .main = .done () ∧
    ComputesProduct (· * ·) 2 (· + 3) (· + 5) pool := by
  obtain ⟨pool, reach, ended⟩ := @Pool.exists_reach_of_replay _ _ _ _ _ (machine Nat 2) (fun _ _ => True)
    (start 2 (· * ·) 2 (· + 3) (· + 5) fun _ => 0) (fun _ _ => true) eachHalf (fun pool => pool.ended .main)
    (fun _ _ _ => True.intro) (by decide +kernel)
  have returned := Pool.programs_of_ended ended
  exact ⟨pool, returned, (arrayProductMultiThread_iff Nat.two_pos (by decide) reach returned).mpr (Nat.dvd_refl 2)⟩

/-- Two threads do not multiply an array of one element. -/
theorem remainder_is_not_multiplied : ¬ ∀ (kThreadsCount len : Nat) (arrayA arrayB arrayProd : Nat → Nat)
    (pool : Threads Nat kThreadsCount), 0 < kThreadsCount → len < 2 ^ 64 →
    Reach (· * ·) len arrayA arrayB arrayProd pool → pool.programs .main = .done () →
    ComputesProduct (· * ·) len arrayA arrayB pool := by
  intro computes
  obtain ⟨pool, reach, ended⟩ := @Pool.exists_reach_of_replay _ _ _ _ _ (machine Nat 2) (fun _ _ => True)
    (start 2 (· * ·) 1 (· + 3) (· + 5) fun _ => 0) (fun _ _ => true) nothingToDo (fun pool => pool.ended .main)
    (fun _ _ _ => True.intro) (by decide +kernel)
  have product := computes 2 1 _ _ _ pool Nat.two_pos (by decide) reach (Pool.programs_of_ended ended)
  obtain ⟨t, member, -⟩ := product.once 0 Nat.one_pos
  have owns := Reach.owns_of_stored Nat.two_pos (by decide) reach member
  exact Nat.not_lt_zero _ (owns.lt Nat.two_pos)

end ArchCompSystems.Hw8
