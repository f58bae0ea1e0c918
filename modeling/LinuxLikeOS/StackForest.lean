/-
Several stacks kept as parent pointers over one pool of nodes.

The abstract object is a family of lists, one stack for each index. The
representation is three things a program keeps: the top node of every stack, a
parent pointer for every node (`none` at the bottom of a stack), and which nodes
of the pool are taken. `Represents` ties the two together: following the parents
from a top passes through that stack and ends at its bottom, no node stands
twice, and the taken nodes are exactly those on some stack.

The two operations are `push`, which takes a free node, and `pop`, which gives
the top of a stack with at least two nodes back. Both keep `Represents`, for any
choice of the stack they work on, and both leave the bottom of every stack where
it is; that is the whole argument that slots reused for ever are never shared,
lost, or freed below a node that still stands on them.
-/
import Mathlib.Logic.Function.Basic
import Mathlib.Data.List.Nodup

set_option autoImplicit false

namespace StackForest

variable {ι α : Type*}

/-- Following `parent` from `a` visits exactly the nodes of the list, in order,
and ends at a node without a parent. -/
inductive Chain (parent : α → Option α) : α → List α → Prop
  | bottom {a : α} (h : parent a = none) : Chain parent a [a]
  | cons {a b : α} {l : List α} (h : parent a = some b) (rest : Chain parent b l) :
      Chain parent a (a :: l)

section Chain

variable {parent parent' : α → Option α} {a b : α} {l l' : List α}

theorem Chain.mem_head (h : Chain parent a l) : a ∈ l := by
  cases h <;> exact List.mem_cons_self

/-- There is one chain from a node. -/
theorem Chain.unique {l' : List α} (h : Chain parent a l) (h' : Chain parent a l') : l = l' := by
  induction h generalizing l' with
  | bottom ha =>
      cases h' with
      | bottom _ => rfl
      | cons hb _ =>
          rw [ha] at hb
          cases hb
  | cons ha _ ih =>
      cases h' with
      | bottom hb =>
          rw [ha] at hb
          cases hb
      | cons hb rest =>
          rw [ha, Option.some.injEq] at hb
          subst hb
          rw [ih rest]

theorem Chain.ne_nil (h : Chain parent a l) : l ≠ [] :=
  List.ne_nil_of_mem h.mem_head

/-- A chain only reads the parents of its own nodes. -/
theorem Chain.congr (h : Chain parent a l) (heq : ∀ c ∈ l, parent' c = parent c) :
    Chain parent' a l := by
  induction h with
  | bottom ha => exact .bottom (by rw [heq _ List.mem_cons_self, ha])
  | cons hb _ ih =>
      refine .cons (by rw [heq _ List.mem_cons_self, hb]) (ih fun c hc => ?_)
      exact heq c (List.mem_cons_of_mem _ hc)

/-- The parent of a node of a chain is a node of the chain, below it. -/
theorem Chain.parent_mem (h : Chain parent a l) {c d : α} (hc : c ∈ l)
    (hd : parent c = some d) : d ∈ l.tail := by
  induction h with
  | bottom ha =>
      rw [List.mem_singleton] at hc
      subst hc
      rw [ha] at hd
      cases hd
  | cons hb rest ih =>
      rw [List.tail_cons]
      rcases List.mem_cons.mp hc with rfl | hc
      · rw [hb, Option.some.injEq] at hd
        exact hd ▸ rest.mem_head
      · exact List.mem_of_mem_tail (ih hc)

/-- The last node of a chain has no parent. -/
theorem Chain.parent_getLast (h : Chain parent a l) (hne : l ≠ []) :
    parent (l.getLast hne) = none := by
  induction h with
  | bottom ha => rwa [List.getLast_singleton]
  | cons _ rest ih => rw [List.getLast_cons rest.ne_nil]; exact ih rest.ne_nil

/-- A chain whose first node has a parent goes on from that parent. -/
theorem Chain.tail_of_some (h : Chain parent a l) (hb : parent a = some b) :
    Chain parent b l.tail := by
  cases h with
  | bottom ha => rw [ha] at hb; cases hb
  | cons hb' rest =>
      rw [hb', Option.some.injEq] at hb
      exact hb ▸ rest

end Chain

/-- `top`, `parent` and `live` are the pointer representation of the stacks
`stack i`. -/
structure Represents (top : ι → α) (parent : α → Option α) (live : α → Prop)
    (stack : ι → List α) : Prop where
  chain : ∀ i, Chain parent (top i) (stack i)
  nodup : ∀ i, (stack i).Nodup
  disjoint : ∀ i j, i ≠ j → List.Disjoint (stack i) (stack j)
  live_iff : ∀ a, live a ↔ ∃ i, a ∈ stack i

namespace Represents

variable {top : ι → α} {parent parent' : α → Option α} {live live' : α → Prop}
  {stack : ι → List α}

theorem live_top (h : Represents top parent live stack) (i : ι) : live (top i) :=
  (h.live_iff _).mpr ⟨i, (h.chain i).mem_head⟩

theorem live_parent (h : Represents top parent live stack) {a b : α} (ha : live a)
    (hb : parent a = some b) : live b := by
  obtain ⟨i, hi⟩ := (h.live_iff a).mp ha
  exact (h.live_iff b).mpr ⟨i, List.mem_of_mem_tail ((h.chain i).parent_mem hi hb)⟩

/-- The nodes of a stack are its top and the nodes of its tail. -/
theorem stack_eq_cons (h : Represents top parent live stack) (i : ι) :
    stack i = top i :: (stack i).tail := by
  have hch := h.chain i
  cases hs : stack i with
  | nil => exact absurd hs hch.ne_nil
  | cons x l =>
      rw [hs] at hch
      cases hch <;> rfl

/-- The top of a stack does not stand below it as well. -/
theorem top_not_mem_tail (h : Represents top parent live stack) (i : ι) :
    top i ∉ (stack i).tail := by
  have hnd := h.nodup i
  rw [h.stack_eq_cons i] at hnd
  exact (List.nodup_cons.mp hnd).1

/-- The top of a stack is the parent of no node of the pool, so giving it back
frees no ancestor of a node still taken. -/
theorem top_not_parent (h : Represents top parent live stack) {a : α} (ha : live a) (i : ι) :
    parent a ≠ some (top i) := by
  intro hp
  obtain ⟨j, hj⟩ := (h.live_iff a).mp ha
  have hmem : top i ∈ (stack j).tail := (h.chain j).parent_mem hj hp
  -- a parent stands below its child on the same stack, and a top below nothing
  by_cases hij : i = j
  · subst hij
    exact h.top_not_mem_tail i hmem
  · exact h.disjoint i j hij (h.chain i).mem_head (List.mem_of_mem_tail hmem)

/-- A representation only depends on the parents of taken nodes. -/
theorem congr (h : Represents top parent live stack)
    (hp : ∀ a, live a → parent' a = parent a) (hl : ∀ a, live' a ↔ live a) :
    Represents top parent' live' stack where
  chain i := (h.chain i).congr fun c hc => hp c ((h.live_iff c).mpr ⟨i, hc⟩)
  nodup := h.nodup
  disjoint := h.disjoint
  live_iff a := by rw [hl, h.live_iff]

/-! ## Push and pop -/

variable [DecidableEq ι]

/-- **Push.** A free node put above the top of stack `i` makes it one longer and
leaves the other stacks alone. -/
theorem push (h : Represents top parent live stack) (i : ι) {a : α} (ha : ¬ live a)
    (hpa : parent' a = some (top i)) (hp : ∀ b, live b → parent' b = parent b)
    (hl : ∀ b, live' b ↔ live b ∨ b = a) :
    Represents (Function.update top i a) parent' live'
      (Function.update stack i (a :: stack i)) := by
  have hfresh : ∀ j, a ∉ stack j := by
    intro j hj
    exact ha ((h.live_iff a).mpr ⟨j, hj⟩)
  -- the old chains stand as they were, for none of them passes through `a`
  have hchain : ∀ j, Chain parent' (top j) (stack j) := by
    intro j
    apply (h.chain j).congr
    intro c hc
    exact hp c ((h.live_iff c).mpr ⟨j, hc⟩)
  refine ⟨fun j => ?_, fun j => ?_, fun j k hjk => ?_, fun b => ?_⟩
  · by_cases hj : j = i
    · subst hj
      rw [Function.update_self, Function.update_self]
      exact .cons hpa (hchain j)
    · rw [Function.update_of_ne hj, Function.update_of_ne hj]
      exact hchain j
  · by_cases hj : j = i
    · subst hj
      rw [Function.update_self]
      exact List.nodup_cons.mpr ⟨hfresh j, h.nodup j⟩
    · rw [Function.update_of_ne hj]
      exact h.nodup j
  · by_cases hj : j = i
    · subst hj
      rw [Function.update_self, Function.update_of_ne (Ne.symm hjk)]
      exact List.disjoint_cons_left.mpr ⟨hfresh k, h.disjoint j k hjk⟩
    · rw [Function.update_of_ne hj]
      by_cases hk : k = i
      · subst hk
        rw [Function.update_self]
        exact List.disjoint_cons_right.mpr ⟨hfresh j, h.disjoint j k hjk⟩
      · rw [Function.update_of_ne hk]
        exact h.disjoint j k hjk
  · rw [hl, h.live_iff]
    constructor
    · rintro (⟨j, hj⟩ | rfl)
      · refine ⟨j, ?_⟩
        by_cases hji : j = i
        · subst hji
          rw [Function.update_self]
          exact List.mem_cons_of_mem _ hj
        · rwa [Function.update_of_ne hji]
      · exact ⟨i, by rw [Function.update_self]; exact List.mem_cons_self⟩
    · rintro ⟨j, hj⟩
      by_cases hji : j = i
      · subst hji
        rw [Function.update_self] at hj
        rcases List.mem_cons.mp hj with rfl | hj
        · exact Or.inr rfl
        · exact Or.inl ⟨j, hj⟩
      · rw [Function.update_of_ne hji] at hj
        exact Or.inl ⟨j, hj⟩

/-- **Pop.** Giving back the top of a stack that has a node below it makes the
stack one shorter and leaves the other stacks alone. -/
theorem pop (h : Represents top parent live stack) (i : ι) {b : α}
    (hb : parent (top i) = some b) (hp : ∀ c, live c → parent' c = parent c)
    (hl : ∀ c, live' c ↔ live c ∧ c ≠ top i) :
    Represents (Function.update top i b) parent' live'
      (Function.update stack i (stack i).tail) := by
  have hchain : ∀ j, Chain parent' (top j) (stack j) := by
    intro j
    apply (h.chain j).congr
    intro c hc
    exact hp c ((h.live_iff c).mpr ⟨j, hc⟩)
  have hb' : parent' (top i) = some b := by rw [hp _ (h.live_top i), hb]
  refine ⟨fun j => ?_, fun j => ?_, fun j k hjk => ?_, fun c => ?_⟩
  · by_cases hj : j = i
    · subst hj
      rw [Function.update_self, Function.update_self]
      exact (hchain j).tail_of_some hb'
    · rw [Function.update_of_ne hj, Function.update_of_ne hj]
      exact hchain j
  · by_cases hj : j = i
    · subst hj
      rw [Function.update_self]
      exact (h.nodup j).tail
    · rw [Function.update_of_ne hj]
      exact h.nodup j
  · intro c hcj hck
    -- each new stack is part of the old one
    have hsub : ∀ m, c ∈ Function.update stack i (stack i).tail m → c ∈ stack m := by
      intro m hm
      by_cases hmi : m = i
      · subst hmi
        rw [Function.update_self] at hm
        exact List.mem_of_mem_tail hm
      · rwa [Function.update_of_ne hmi] at hm
    exact h.disjoint j k hjk (hsub j hcj) (hsub k hck)
  · rw [hl, h.live_iff]
    constructor
    · rintro ⟨⟨j, hj⟩, hne⟩
      refine ⟨j, ?_⟩
      by_cases hji : j = i
      · subst hji
        rw [Function.update_self]
        rw [h.stack_eq_cons j] at hj
        exact (List.mem_cons.mp hj).resolve_left hne
      · rwa [Function.update_of_ne hji]
    · rintro ⟨j, hj⟩
      by_cases hji : j = i
      · subst hji
        rw [Function.update_self] at hj
        refine ⟨⟨j, List.mem_of_mem_tail hj⟩, ?_⟩
        rintro rfl
        exact h.top_not_mem_tail j hj
      · rw [Function.update_of_ne hji] at hj
        refine ⟨⟨j, hj⟩, ?_⟩
        rintro rfl
        exact h.disjoint i j (Ne.symm hji) (h.chain i).mem_head hj

/-! ## The bottoms do not move -/

theorem getLast?_push (i : ι) {a : α} (hne : ∀ j, stack j ≠ []) (j : ι) :
    (Function.update stack i (a :: stack i) j).getLast? = (stack j).getLast? := by
  by_cases hj : j = i
  · subst hj
    rw [Function.update_self, List.getLast?_cons_of_ne_nil (hne j)]
  · rw [Function.update_of_ne hj]

theorem getLast?_pop (h : Represents top parent live stack) (i : ι) {b : α}
    (hb : parent (top i) = some b) (j : ι) :
    (Function.update stack i (stack i).tail j).getLast? = (stack j).getLast? := by
  by_cases hj : j = i
  · subst hj
    have hne : (stack j).tail ≠ [] := ((h.chain j).tail_of_some hb).ne_nil
    rw [Function.update_self]
    conv_rhs => rw [h.stack_eq_cons j]
    rw [List.getLast?_cons_of_ne_nil hne]
  · rw [Function.update_of_ne hj]

end Represents

end StackForest
