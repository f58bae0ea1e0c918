/-
A list that is linked through the slots of a pool.

Nothing here mentions a program. A pointer is an `Option`, every slot of the pool holds one in
`next`, and `Linked` says which slots are passed from a pointer on. The loops a program walks such a
list with have a rule each: what they find, or do to the state, is what the list operation does on
the slots in order. They stop only behind a `none`, so they take the number of steps they may make,
and on a slot that points to itself no number is enough.

A pointer is stored at a `Place`: at the head of the list, or in a slot. To take a slot out of the
list is one store at the place that points to it.
-/
import Mathlib.Data.List.Nodup
import Mathlib.Logic.Function.Basic

set_option autoImplicit false

namespace LinkedSlots

variable {α β S : Type*}

/-- From the pointer on, the slots of the list are passed, and nothing behind them. -/
inductive Linked (next : α → Option α) : Option α → List α → Prop
  | nil : Linked next none []
  | cons {a : α} {l : List α} (rest : Linked next (next a) l) : Linked next (some a) (a :: l)

section

variable {next next' : α → Option α} {head : Option α} {a : α} {l : List α}

/-- The pointers of the slots in the list decide. -/
theorem Linked.congr (h : Linked next head l) (heq : ∀ b ∈ l, next' b = next b) :
    Linked next' head l := by
  induction h with
  | nil => exact .nil
  | cons rest ih =>
      refine .cons ?_
      rw [heq _ List.mem_cons_self]
      exact ih fun b hb => heq b (List.mem_cons_of_mem _ hb)

/-- A slot is put in front. -/
theorem Linked.push (h : Linked next head l) (hnew : next' a = head)
    (heq : ∀ b ∈ l, next' b = next b) : Linked next' (some a) (a :: l) := by
  apply Linked.cons
  rw [hnew]
  exact h.congr heq

/-! ## Searching -/

/-- The first slot that passes the test; `none` when the search has not ended. -/
def find (next : α → Option α) (p : α → Bool) : ℕ → Option α → Option (Option α)
  | 0, _ => none
  | _ + 1, none => some none
  | fuel + 1, some a => if p a then some (some a) else find next p fuel (next a)

theorem find_eq {p : α → Bool} {fuel : ℕ} (h : Linked next head l) (hfuel : l.length < fuel) :
    find next p fuel head = some (l.find? p) := by
  induction h generalizing fuel with
  | nil =>
      cases fuel with
      | zero => exact absurd hfuel (Nat.not_lt_zero _)
      | succ fuel => rfl
  | @cons a l rest ih =>
      cases fuel with
      | zero => exact absurd hfuel (Nat.not_lt_zero _)
      | succ fuel =>
          unfold find
          rw [List.find?_cons]
          -- the first slot decides, for the walk as for the list
          split
          next hp => rw [hp]
          next hp =>
            rw [Bool.not_eq_true] at hp
            rw [hp]
            exact ih (Nat.lt_of_succ_lt_succ hfuel)

/-! ## Passing every slot -/

/-- `body` for every slot in order; `none` when the walk has not ended. -/
def for_each (next : S → α → Option α) (body : α → S → S) : ℕ → Option α → S → Option S
  | 0, _, _ => none
  | _ + 1, none, s => some s
  | fuel + 1, some a, s => for_each next body fuel (next (body a s) a) (body a s)

variable {nexts : S → α → Option α} {body : α → S → S} {s : S} {fuel : ℕ}

/-- A body that keeps the pointers is a fold. -/
theorem for_each_eq (h : Linked (nexts s) head l) (hkeep : ∀ a s, nexts (body a s) = nexts s)
    (hfuel : l.length < fuel) :
    for_each nexts body fuel head s = some (l.foldl (fun s a => body a s) s) := by
  induction l generalizing head s fuel with
  | nil =>
      cases h
      cases fuel with
      | zero => exact absurd hfuel (Nat.not_lt_zero _)
      | succ fuel => rfl
  | cons a l ih =>
      cases h with
      | cons rest =>
          cases fuel with
          | zero => exact absurd hfuel (Nat.not_lt_zero _)
          | succ fuel =>
              -- the pointer is read behind the body, from the state that it leaves
              have hnext : Linked (nexts (body a s)) (nexts (body a s) a) l := by
                rw [hkeep]
                exact rest
              exact ih hnext (Nat.lt_of_succ_lt_succ hfuel)

/-- **A slot that points to itself** is never left. -/
theorem for_each_eq_none (hself : nexts s a = some a)
    (hkeep : ∀ a s, nexts (body a s) = nexts s) (fuel : ℕ) :
    for_each nexts body fuel (some a) s = none := by
  induction fuel generalizing s with
  | zero => rfl
  | succ fuel ih =>
      have hnext : nexts (body a s) a = some a := by rw [hkeep, hself]
      unfold for_each
      rw [hnext]
      exact ih hnext

theorem find_eq_none {p : α → Bool} (hself : next a = some a) (hp : p a = false) (fuel : ℕ) :
    find next p fuel (some a) = none := by
  induction fuel with
  | zero => rfl
  | succ fuel ih =>
      unfold find
      rw [if_neg (by rw [hp]; exact Bool.false_ne_true), hself]
      exact ih

end

/-! ## Places -/

/-- Where a pointer is stored. -/
inductive Place (α : Type*)
  | head
  | slot (a : α)
  deriving DecidableEq

/-- The pointer there. -/
def Place.load (head : Option α) (next : α → Option α) : Place α → Option α
  | .head => head
  | .slot a => next a

/-- The place behind the slots of a list that begins at a place. -/
def behind (p : Place α) : List α → Place α
  | [] => p
  | a :: l => behind (.slot a) l

theorem behind_eq (p : Place α) (l : List α) : behind p l = p ∨ ∃ a ∈ l, behind p l = .slot a := by
  induction l generalizing p with
  | nil => exact Or.inl rfl
  | cons a l ih =>
      right
      rcases ih (.slot a) with heq | ⟨b, hb, heq⟩
      · exact ⟨a, List.mem_cons_self, heq⟩
      · exact ⟨b, List.mem_cons_of_mem a hb, heq⟩

section

variable {head head' : Option α} {next next' : α → Option α} {a : α} {p : Place α} {xs ys : List α}

/-- The place that points to the slot; `none` when the search has not ended, or has come to a null
pointer. -/
def find_place [DecidableEq α] (head : Option α) (next : α → Option α) (a : α) :
    ℕ → Place α → Option (Place α)
  | 0, _ => none
  | fuel + 1, p =>
      match p.load head next with
      | none => none
      | some b => if b = a then some p else find_place head next a fuel (.slot b)

theorem find_place_eq [DecidableEq α] {fuel : ℕ} (h : Linked next (p.load head next) (xs ++ a :: ys))
    (hnew : a ∉ xs) (hfuel : xs.length < fuel) :
    find_place head next a fuel p = some (behind p xs) := by
  induction xs generalizing p fuel with
  | nil =>
      cases fuel with
      | zero => exact absurd hfuel (Nat.not_lt_zero _)
      | succ fuel =>
          rw [List.nil_append] at h
          generalize hload : p.load head next = ptr at h
          cases h with
          | cons rest =>
              unfold find_place
              rw [hload]
              exact if_pos rfl
  | cons b xs ih =>
      cases fuel with
      | zero => exact absurd hfuel (Nat.not_lt_zero _)
      | succ fuel =>
          rw [List.cons_append] at h
          rw [List.mem_cons, not_or] at hnew
          generalize hload : p.load head next = ptr at h
          cases h with
          | cons rest =>
              unfold find_place
              rw [hload]
              dsimp only
              -- another slot is in front of it
              rw [if_neg fun heq => hnew.1 heq.symm]
              exact ih (p := .slot b) rest hnew.2 (Nat.lt_of_succ_lt_succ hfuel)

/-- **A slot is taken out** when the place that points to it gets its pointer. What is stored in
the slot itself does not matter any more. -/
theorem Linked.unlink (h : Linked next (p.load head next) (xs ++ a :: ys))
    (hnodup : (xs ++ a :: ys).Nodup) (hp : ∀ b ∈ xs ++ a :: ys, p ≠ .slot b)
    (hset : (behind p xs).load head' next' = next a)
    (hother : ∀ q : Place α, q ≠ behind p xs → q ≠ .slot a → q.load head' next' = q.load head next) :
    Linked next' (p.load head' next') (xs ++ ys) := by
  induction xs generalizing p with
  | nil =>
      rw [List.nil_append] at h hnodup hp
      generalize hload : p.load head next = ptr at h
      cases h with
      | cons rest =>
          -- `p` itself points to the slot, and passes it now
          have hp' : p.load head' next' = next a := hset
          rw [hp']
          refine rest.congr fun b hb => ?_
          refine hother (.slot b) (fun heq => hp b (List.mem_cons_of_mem a hb) heq.symm) fun heq => ?_
          obtain rfl := Place.slot.inj heq
          exact (List.nodup_cons.mp hnodup).1 hb
  | cons b xs ih =>
      rw [List.cons_append] at h hnodup hp ⊢
      generalize hload : p.load head next = ptr at h
      cases h with
      | cons rest =>
          have hrest := ih (p := .slot b) rest (List.nodup_cons.mp hnodup).2
            (fun c hc heq => (List.nodup_cons.mp hnodup).1 (Place.slot.inj heq ▸ hc)) hset hother
          -- nothing is stored at `p`, which still points to `b`
          have hbehind : p ≠ behind (.slot b) xs := by
            rcases behind_eq (.slot b) xs with heq | ⟨c, hc, heq⟩
            · rw [heq]
              exact hp b List.mem_cons_self
            · rw [heq]
              exact hp c (List.mem_cons_of_mem b (List.mem_append_left _ hc))
          have ha : p ≠ .slot a :=
            hp a (List.mem_cons_of_mem b (List.mem_append_right _ List.mem_cons_self))
          rw [hother p hbehind ha, hload]
          exact .cons hrest

end

/-! ## Contents -/

section

variable [DecidableEq α] {b : α → β} {p : β → Bool} {g : β → β} {l : List α} {a : α}

/-- The first element that passes the test is changed. -/
def on_first (p : β → Bool) (g : β → β) : List β → List β
  | [] => []
  | x :: l => if p x then g x :: l else x :: on_first p g l

/-- **The contents of the slot that a search finds are changed.** -/
theorem map_update_of_find (hnodup : l.Nodup) (hfind : l.find? (fun i => p (b i)) = some a) :
    l.map (Function.update b a (g (b a))) = on_first p g (l.map b) := by
  induction l with
  | nil => cases hfind
  | cons c l ih =>
      have hc := (List.nodup_cons.mp hnodup).1
      rw [List.map_cons, List.map_cons]
      unfold on_first
      rw [List.find?_cons] at hfind
      split at hfind
      next hp =>
        obtain rfl := Option.some.inj hfind
        rw [if_pos hp, Function.update_self]
        congr 1
        apply List.map_congr_left
        intro i hi
        rw [Function.update_of_ne]
        rintro rfl
        exact hc hi
      next hp =>
        have hne : c ≠ a := by
          rintro rfl
          exact hc (List.mem_of_find?_eq_some hfind)
        rw [hp, if_neg Bool.false_ne_true, Function.update_of_ne hne,
          ih (List.nodup_cons.mp hnodup).2 hfind]

omit [DecidableEq α] in
/-- The contents behind a search are erased with the slot. -/
theorem map_of_find {xs ys : List α} (hp : p (b a) = true) (hxs : ∀ i ∈ xs, p (b i) = false) :
    (xs ++ ys).map b = ((xs ++ a :: ys).map b).eraseP p := by
  rw [List.map_append, List.map_append, List.map_cons, List.eraseP_append_right, List.eraseP_cons_of_pos hp]
  intro x hx
  obtain ⟨i, hi, rfl⟩ := List.mem_map.mp hx
  rw [hxs i hi]
  exact Bool.false_ne_true

/-- **A loop that changes every slot by itself** and puts out what depends on the slot alone. -/
theorem foldl_update (change : β → β) (out : β → S → S) (hnodup : l.Nodup) (s : S) :
    l.foldl (fun w i => (Function.update w.1 i (change (w.1 i)), out (w.1 i) w.2)) (b, s)
      = (fun i => if i ∈ l then change (b i) else b i, (l.map b).foldl (fun s x => out x s) s) := by
  induction l generalizing b s with
  | nil =>
      rw [List.foldl_nil, List.map_nil, List.foldl_nil]
      congr 1
  | cons c l ih =>
      have hc := (List.nodup_cons.mp hnodup).1
      -- no later slot is this one, so they have their contents still
      have hsame : l.map (Function.update b c (change (b c))) = l.map b := by
        apply List.map_congr_left
        intro i hi
        rw [Function.update_of_ne]
        rintro rfl
        exact hc hi
      rw [List.foldl_cons, ih (List.nodup_cons.mp hnodup).2, hsame, List.map_cons, List.foldl_cons]
      congr 1
      funext i
      by_cases hi : i = c
      · subst hi
        rw [if_neg hc, if_pos List.mem_cons_self, Function.update_self]
      · rw [Function.update_of_ne hi]
        simp only [List.mem_cons, hi, false_or]

end

end LinkedSlots
