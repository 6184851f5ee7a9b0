import Mathlib.Data.List.Nodup
import Mathlib.Logic.Function.Basic

namespace ArchCompSystems.Library

/-- The links of a doubly linked list in memory, from node addresses to node addresses. -/
structure Links where
  next : Nat → Option Nat
  prev : Nat → Option Nat
  head : Option Nat
  tail : Option Nat

namespace Links

/-- Following `link` from `start` visits `xs` and comes to `stop`. -/
def Segment (link : Nat → Option Nat) : Option Nat → List Nat → Option Nat → Prop
  | start, [], stop => start = stop
  | start, x :: xs, stop => start = some x ∧ Segment link (link x) xs stop

section

variable {link link' : Nat → Option Nat} {start stop : Option Nat} {xs ys : List Nat}

theorem segment_append : Segment link start (xs ++ ys) stop ↔
    ∃ middle, Segment link start xs middle ∧ Segment link middle ys stop := by
  induction xs generalizing start with
  | nil => exact ⟨fun seg => ⟨start, rfl, seg⟩, fun ⟨_, same, seg⟩ => same ▸ seg⟩
  | cons x xs ih =>
    simp only [List.cons_append, Segment, ih]
    exact ⟨fun ⟨same, middle, first, rest⟩ => ⟨middle, ⟨same, first⟩, rest⟩,
      fun ⟨middle, ⟨same, first⟩, rest⟩ => ⟨same, middle, first, rest⟩⟩

theorem segment_congr (same : ∀ x ∈ xs, link x = link' x) (segment : Segment link start xs stop) :
    Segment link' start xs stop := by
  induction xs generalizing start with
  | nil => exact segment
  | cons x xs ih =>
    refine ⟨segment.1, ih (fun y member => same y (List.mem_cons_of_mem _ member)) ?_⟩
    rw [← same x (List.mem_cons_self ..)]
    exact segment.2

theorem segment_update {y : Nat} {target : Option Nat} (outside : y ∉ xs)
    (segment : Segment link start xs stop) : Segment (Function.update link y target) start xs stop :=
  segment_congr (fun _ member => (Function.update_of_ne (ne_of_mem_of_not_mem member outside) ..).symm) segment

end

/-- Following the links from the head visits `xs`, from the tail `xs` backwards. -/
structure Represents (l : Links) (xs : List Nat) : Prop where
  nodup : xs.Nodup
  forward : Segment l.next l.head xs none
  backward : Segment l.prev l.tail xs.reverse none

def empty : Links := ⟨fun _ => none, fun _ => none, none, none⟩

/-- The stores that put `x` behind `a`. -/
def insertAfter (l : Links) (a x : Nat) : Links :=
  let linked := { l with
    next := Function.update (Function.update l.next a (some x)) x (l.next a)
    prev := Function.update l.prev x (some a) }
  match l.next a with
  | some b => { linked with prev := Function.update linked.prev b (some x) }
  | none => { linked with tail := some x }

/-- The stores that put `x` at the front; its own `prev` stays as it is. -/
def insertFront (l : Links) (x : Nat) : Links :=
  let linked := { l with head := some x, next := Function.update l.next x l.head }
  match l.head with
  | none => { linked with tail := some x }
  | some b => { linked with prev := Function.update l.prev b (some x) }

variable {l : Links} {pre post xs : List Nat} {a x : Nat}

theorem represents_empty : empty.Represents [] := ⟨List.nodup_nil, rfl, rfl⟩

theorem Represents.split (represents : l.Represents (pre ++ a :: post)) :
    Segment l.next l.head pre (some a) ∧ Segment l.next (l.next a) post none ∧
      Segment l.prev l.tail post.reverse (some a) ∧ Segment l.prev (l.prev a) pre.reverse none := by
  obtain ⟨middle, first, rfl, rest⟩ := segment_append.mp represents.forward
  have backward := represents.backward
  rw [List.reverse_append, List.reverse_cons, List.append_assoc] at backward
  obtain ⟨middle, last, rfl, front⟩ := segment_append.mp backward
  exact ⟨first, rest, last, front⟩

theorem Represents.insertAfter (represents : l.Represents (pre ++ a :: post))
    (fresh : x ∉ pre ++ a :: post) : (l.insertAfter a x).Represents (pre ++ a :: x :: post) := by
  obtain ⟨first, rest, last, front⟩ := represents.split
  have nodup := represents.nodup
  have apart := List.nodup_append.mp nodup
  have unlike : a ≠ x := fun same => fresh (by simp [same])
  have outside : x ∉ pre ∧ x ∉ post := by
    constructor <;> exact fun member => fresh (by simp [member])
  have notPre : a ∉ pre := fun member => apart.2.2 a member a (List.mem_cons_self ..) rfl
  have notPost : a ∉ post := (List.nodup_cons.mp apart.2.1).1
  have forward : Segment (Function.update (Function.update l.next a (some x)) x (l.next a)) l.head
      (pre ++ a :: x :: post) none := by
    refine segment_append.mpr ⟨some a, segment_update outside.1 (segment_update notPre first), rfl, ?_⟩
    rw [Function.update_of_ne unlike, Function.update_self]
    refine ⟨rfl, ?_⟩
    rw [Function.update_self]
    exact segment_update outside.2 (segment_update notPost rest)
  have shuffled : (pre ++ a :: x :: post).Nodup := by
    have perm : (pre ++ a :: x :: post).Perm (x :: (pre ++ a :: post)) := by
      rw [show pre ++ a :: x :: post = (pre ++ [a]) ++ x :: post by simp,
        show pre ++ a :: post = (pre ++ [a]) ++ post by simp]
      exact List.perm_middle
    exact perm.nodup_iff.mpr (List.nodup_cons.mpr ⟨fresh, nodup⟩)
  have reversed : (pre ++ a :: x :: post).reverse = post.reverse ++ x :: a :: pre.reverse := by simp
  unfold Links.insertAfter
  cases post with
  | nil =>
    have ends : l.next a = none := rest
    rw [ends] at forward ⊢
    refine ⟨shuffled, forward, ?_⟩
    dsimp only
    rw [reversed]
    refine ⟨rfl, Function.update_self .., ?_⟩
    rw [Function.update_of_ne unlike]
    exact segment_update (by simpa using outside.1) front
  | cons b post =>
    obtain ⟨next, -⟩ := rest
    rw [next] at forward ⊢
    refine ⟨shuffled, forward, ?_⟩
    dsimp only
    rw [List.reverse_cons] at last
    obtain ⟨middle, later, rfl, -⟩ := segment_append.mp last
    have inner := List.nodup_cons.mp (List.nodup_cons.mp apart.2.1).2
    have notX : x ≠ b := fun same => outside.2 (by simp [same])
    have notA : a ≠ b := fun same => notPost (by simp [same])
    have bPre : b ∉ pre := fun member => apart.2.2 b member b (by simp) rfl
    rw [reversed, List.reverse_cons, List.append_assoc]
    refine segment_append.mpr ⟨some b, segment_update (by simpa using inner.1)
      (segment_update (fun member => outside.2 (by simp_all)) later), rfl, ?_⟩
    rw [Function.update_self]
    refine ⟨rfl, ?_⟩
    rw [Function.update_of_ne notX, Function.update_self]
    refine ⟨rfl, ?_⟩
    rw [Function.update_of_ne notA, Function.update_of_ne unlike]
    exact segment_update (by simpa using bPre) (segment_update (by simpa using outside.1) front)

theorem Represents.insertFront (represents : l.Represents xs) (fresh : x ∉ xs) (unlinked : l.prev x = none) :
    (l.insertFront x).Represents (x :: xs) := by
  have nodup := List.nodup_cons.mpr ⟨fresh, represents.nodup⟩
  have forward : Segment (Function.update l.next x l.head) (some x) (x :: xs) none := by
    refine ⟨rfl, ?_⟩
    rw [Function.update_self]
    exact segment_update fresh represents.forward
  unfold Links.insertFront
  cases xs with
  | nil =>
    have nothing : l.head = none := represents.forward
    rw [nothing] at forward ⊢
    exact ⟨nodup, forward, rfl, unlinked⟩
  | cons b xs =>
    obtain ⟨head, -⟩ := represents.forward
    rw [head] at forward ⊢
    refine ⟨nodup, forward, ?_⟩
    dsimp only
    have backward := represents.backward
    rw [List.reverse_cons] at backward ⊢
    rw [List.reverse_cons, List.append_assoc]
    obtain ⟨middle, later, rfl, -⟩ := segment_append.mp backward
    refine segment_append.mpr ⟨some b, segment_update ?_ later, rfl, ?_⟩
    · simpa using (List.nodup_cons.mp represents.nodup).1
    · rw [Function.update_self]
      refine ⟨rfl, ?_⟩
      rw [Function.update_of_ne (fun same => fresh (by simp [same])), unlinked]
      rfl

end Links

end ArchCompSystems.Library
