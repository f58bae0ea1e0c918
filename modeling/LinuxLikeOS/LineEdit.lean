/-
Editing a line with an erase key, and the keys that lie behind its end.

A key takes the last element of the line back, or is appended to it while it has fewer than
`cap`. The editor keeps the line in an array with a counter and stores behind the counter as
it likes; `Written` is what it has to keep of the array. On a screen the line is `Shown` in the
cells before a position, which may move with them. A key sequence is cut at the first key that
completes a line, and what comes behind that key is for the lines after it.

The array and the keys are over any type, so nothing here depends on who edits the line or
on how wide a character is.
-/
import Mathlib.Data.List.Induction
import Mathlib.Logic.Function.Basic

set_option autoImplicit false

namespace LineEdit

variable {α : Type*}

/-! ## The line as a list -/

section Edit

variable [DecidableEq α] {erase : α} {cap : ℕ}

/-- The line after one more key. -/
def edit (erase : α) (cap : ℕ) (line : List α) (key : α) : List α :=
  if key = erase then line.dropLast
  else if line.length < cap then line ++ [key]
  else line

/-- The line after a sequence of keys. -/
def edited (erase : α) (cap : ℕ) (keys : List α) : List α := keys.foldl (edit erase cap) []

theorem edited_concat (keys : List α) (key : α) :
    edited erase cap (keys ++ [key]) = edit erase cap (edited erase cap keys) key := by
  simp only [edited, List.foldl_append, List.foldl_cons, List.foldl_nil]

/-- No line is longer than `cap`. -/
theorem length_edited_le (keys : List α) : (edited erase cap keys).length ≤ cap := by
  induction keys using List.reverseRecOn with
  | nil => exact Nat.zero_le cap
  | append_singleton keys key ih =>
      rw [edited_concat]
      unfold edit
      split
      · rw [List.length_dropLast]
        omega
      · split
        · rename_i hlt
          rw [List.length_append, List.length_singleton]
          exact hlt
        · exact ih

/-- What the line holds has been typed. -/
theorem mem_of_mem_edited {keys : List α} {c : α} (hc : c ∈ edited erase cap keys) : c ∈ keys := by
  induction keys using List.reverseRecOn with
  | nil => exact hc
  | append_singleton keys key ih =>
      rw [edited_concat] at hc
      unfold edit at hc
      rw [List.mem_append, List.mem_singleton]
      split at hc
      · exact Or.inl (ih ((List.dropLast_subset _) hc))
      · split at hc
        · rw [List.mem_append, List.mem_singleton] at hc
          exact hc.imp_left ih
        · exact Or.inl (ih hc)

end Edit

/-! ## The line in an array -/

/-- The array holds the line in its first `n` elements. -/
structure Written (a : ℕ → α) (n : ℕ) (text : List α) : Prop where
  size : n = text.length
  get : ∀ i (hi : i < text.length), a i = text[i]

namespace Written

variable {a : ℕ → α} {n : ℕ} {text : List α}

theorem nil (a : ℕ → α) : Written a 0 [] := ⟨rfl, fun i hi => absurd hi (Nat.not_lt_zero i)⟩

/-- Behind the counter the array may hold anything. -/
theorem update (h : Written a n text) {j : ℕ} (hj : n ≤ j) (v : α) :
    Written (Function.update a j v) n text where
  size := h.size
  get i hi := by
    have hne : i ≠ j := by
      have hsize := h.size
      omega
    rw [Function.update_of_ne hne, h.get i hi]

theorem concat (h : Written a n text) (c : α) :
    Written (Function.update a n c) (n + 1) (text ++ [c]) where
  size := by rw [List.length_append, List.length_singleton, h.size]
  get i hi := by
    rw [List.length_append, List.length_singleton] at hi
    have hsize := h.size
    by_cases hlast : i = text.length
    · subst hlast
      rw [hsize, Function.update_self, List.getElem_concat_length rfl]
    · have hlt : i < text.length := by omega
      rw [Function.update_of_ne (by omega), List.getElem_append_left hlt, h.get i hlt]

theorem dropLast (h : Written a n text) : Written a (n - 1) text.dropLast where
  size := by rw [List.length_dropLast, h.size]
  get i hi := by
    rw [List.getElem_dropLast]
    exact h.get i _

end Written

/-! ## The line on a screen -/

/-- The text stands in the cells right before position `p`. -/
def Shown (s : Int → α) (p : Int) (text : List α) : Prop :=
  ∀ i (hi : i < text.length), s (p - text.length + i) = text[i]

namespace Shown

variable {s s' : Int → α} {p : Int} {text : List α}

theorem nil (s : Int → α) (p : Int) : Shown s p [] := fun i hi => absurd hi (Nat.not_lt_zero i)

/-- Only the cells of the text matter. -/
theorem congr (h : Shown s p text) (hs : ∀ c, p - text.length ≤ c → c < p → s' c = s c) :
    Shown s' p text := by
  intro i hi
  rw [hs _ (by omega) (by omega), h i hi]

/-- The next cell belongs to the text as well. -/
theorem concat (h : Shown s p text) : Shown s (p + 1) (text ++ [s p]) := by
  intro i hi
  have hcell : p + 1 - ((text ++ [s p]).length : Int) + i = p - text.length + i := by
    rw [List.length_append, List.length_singleton]
    omega
  rw [List.length_append, List.length_singleton] at hi
  rw [hcell]
  by_cases hlast : i = text.length
  · subst hlast
    rw [List.getElem_concat_length rfl, Int.sub_add_cancel]
  · rw [List.getElem_append_left (by omega)]
    exact h i _

theorem dropLast (h : Shown s p text) : Shown s (p - 1) text.dropLast := by
  intro i hi
  have hcell : p - 1 - (text.dropLast.length : Int) + i = p - text.length + i := by
    rw [List.length_dropLast] at hi ⊢
    omega
  rw [hcell, List.getElem_dropLast]
  exact h i _

/-- The cells move and the position with them. -/
theorem shift (h : Shown s p text) {n : Int}
    (hs : ∀ c, p - n - text.length ≤ c → c < p - n → s' c = s (c + n)) :
    Shown s' (p - n) text := by
  intro i hi
  have hcell : p - n - text.length + i + n = p - text.length + i := by omega
  rw [hs _ (by omega) (by omega), hcell, h i hi]

end Shown

/-! ## Completed lines -/

section Queue

variable [DecidableEq α] {done : α}

/-- The keys of the first line. -/
def first_keys (done : α) (keys : List α) : List α := keys.takeWhile (· ≠ done)

/-- The keys behind it. -/
def later_keys (done : α) (keys : List α) : List α := (keys.dropWhile (· ≠ done)).tail

theorem first_keys_append {keys rest : List α} (h : done ∉ keys) :
    first_keys done (keys ++ done :: rest) = keys := by
  have hall : ∀ c, c ∈ keys → decide (c ≠ done) = true := by
    intro c hc
    exact decide_eq_true (fun heq => h (heq ▸ hc))
  unfold first_keys
  rw [List.takeWhile_append_of_pos hall, List.takeWhile_cons_of_neg (by simp), List.append_nil]

theorem later_keys_append {keys rest : List α} (h : done ∉ keys) :
    later_keys done (keys ++ done :: rest) = rest := by
  have hall : ∀ c, c ∈ keys → decide (c ≠ done) = true := by
    intro c hc
    exact decide_eq_true (fun heq => h (heq ▸ hc))
  unfold later_keys
  rw [List.dropWhile_append_of_pos hall, List.dropWhile_cons_of_neg (by simp), List.tail_cons]

end Queue

end LineEdit
