/-
Text on a screen that moves up.

A text is broken into rows: at each break, and where a row has as many characters as the screen
has columns. A row that is full has begun the next one. The screen shows the rows from `top` on,
as many as it is high, and moves down by a row when the text has begun one below it. It never
moves up again, also when the text gets shorter.

What the screen holds is a function of a row and a column, so nothing here says how the cells are
stored. Where no character of the text stands the screen may hold any of the characters that look
blank.
-/
import Mathlib.Data.List.Induction

set_option autoImplicit false

namespace TextLayout

variable {α : Type*} {brk : α → Bool} {width height : ℕ}

/-! ## Rows -/

/-- The rows of a line without breaks. -/
def wrapped (width : ℕ) (line : List α) : List (List α) :=
  (List.range (line.length / width + 1)).map fun j => (line.drop (width * j)).take width

/-- The rows of a text. -/
def rows (brk : α → Bool) (width : ℕ) (text : List α) : List (List α) :=
  (text.splitOnP brk).flatMap (wrapped width)

/-- A character behind the last row, which has begun another one when it is full. -/
def put_last (width : ℕ) (row : List α) (c : α) : List (List α) :=
  if row.length + 1 < width then [row ++ [c]] else [row ++ [c], []]

theorem wrapped_nil : wrapped width ([] : List α) = [[]] := by
  simp only [wrapped, List.length_nil, Nat.zero_div, Nat.zero_add, List.range_one, List.map_cons,
    List.map_nil, List.drop_nil, List.take_nil]

/-- The last row of a line is what the full ones have left. -/
theorem wrapped_eq (hw : 0 < width) (line : List α) : wrapped width line
    = (List.range (line.length / width)).map (fun j => (line.drop (width * j)).take width)
      ++ [line.drop (width * (line.length / width))] := by
  have hrest : (line.drop (width * (line.length / width))).length ≤ width := by
    have hmod := Nat.mod_lt line.length hw
    have hdiv := Nat.div_add_mod line.length width
    rw [List.length_drop]
    omega
  unfold wrapped
  rw [List.range_succ, List.map_append, List.map_singleton, List.take_of_length_le hrest]

theorem length_last_row (line : List α) :
    (line.drop (width * (line.length / width))).length = line.length % width := by
  have hdiv := Nat.div_add_mod line.length width
  rw [List.length_drop]
  omega

/-- A character behind a line touches its last row only. -/
theorem wrapped_concat (hw : 0 < width) (line : List α) (c : α) : wrapped width (line ++ [c])
    = (List.range (line.length / width)).map (fun j => (line.drop (width * j)).take width)
      ++ put_last width (line.drop (width * (line.length / width))) c := by
  have hdiv := Nat.div_add_mod line.length width
  have hmod := Nat.mod_lt line.length hw
  -- the full rows lie before the character
  have hfull : ∀ j, j ∈ List.range (line.length / width) →
      ((line ++ [c]).drop (width * j)).take width = (line.drop (width * j)).take width := by
    intro j hj
    have hlt : width * (j + 1) ≤ width * (line.length / width) :=
      Nat.mul_le_mul_left width (List.mem_range.mp hj)
    rw [Nat.mul_succ] at hlt
    rw [List.drop_append_of_le_length (by omega), List.take_append_of_le_length]
    rw [List.length_drop]
    omega
  have hlast : (line ++ [c]).drop (width * (line.length / width))
      = line.drop (width * (line.length / width)) ++ [c] :=
    List.drop_append_of_le_length (by omega)
  rw [wrapped_eq hw, List.length_append, List.length_singleton]
  unfold put_last
  rw [length_last_row]
  by_cases hrow : line.length % width + 1 < width
  · -- the row has room for another one
    have hq : (line.length + 1) / width = line.length / width := by
      rw [← hdiv, Nat.add_assoc, Nat.mul_add_div hw, Nat.div_eq_of_lt hrow, hdiv, Nat.add_zero]
    rw [hq, if_pos hrow, List.map_congr_left hfull, hlast]
  · have hq : (line.length + 1) / width = line.length / width + 1 := by
      have hsucc : line.length + 1 = width * (line.length / width + 1) := by
        rw [Nat.mul_succ]
        omega
      rw [hsucc, Nat.mul_div_cancel_left _ hw]
    have hrow' : ((line.drop (width * (line.length / width)) ++ [c])).length = width := by
      rw [List.length_append, List.length_singleton, length_last_row]
      omega
    have hend : (line ++ [c]).drop (width * (line.length / width + 1)) = [] := by
      apply List.drop_eq_nil_of_le
      rw [List.length_append, List.length_singleton, Nat.mul_succ]
      omega
    rw [hq, if_neg hrow, List.range_succ, List.map_append, List.map_congr_left hfull,
      List.map_singleton, hlast, List.take_of_length_le (Nat.le_of_eq hrow'), hend,
      List.append_assoc]
    rfl

/-- A text without its last line, which may still get longer. -/
theorem exists_last_line (brk : α → Bool) (text : List α) : ∃ lines line,
    ∀ more, (∀ c, c ∈ more → brk c = false) →
      (text ++ more).splitOnP brk = lines ++ [line ++ more] := by
  induction text using List.reverseRecOn with
  | nil => exact ⟨[], [], fun more hmore => List.splitOnP_eq_singleton hmore⟩
  | append_singleton text c ih =>
      by_cases hc : brk c = true
      · refine ⟨text.splitOnP brk, [], fun more hmore => ?_⟩
        rw [List.append_assoc, List.singleton_append, List.splitOnP_append_cons text more hc,
          List.splitOnP_eq_singleton hmore, List.nil_append]
      · obtain ⟨lines, line, hlast⟩ := ih
        refine ⟨lines, line ++ [c], fun more hmore => ?_⟩
        rw [List.append_assoc, List.append_assoc, List.singleton_append]
        apply hlast
        rintro d (_ | ⟨_, hd⟩)
        · exact Bool.eq_false_iff.mpr hc
        · exact hmore d hd

/-- **The row a text ends in**, and what another character makes of it. -/
theorem exists_last_row (hw : 0 < width) (brk : α → Bool) (text : List α) : ∃ above row,
    rows brk width text = above ++ [row] ∧ row.length < width ∧
      ∀ c, brk c = false → rows brk width (text ++ [c]) = above ++ put_last width row c := by
  obtain ⟨lines, line, hlast⟩ := exists_last_line brk text
  have hnone := hlast [] fun c hc => absurd hc List.not_mem_nil
  rw [List.append_nil, List.append_nil] at hnone
  refine ⟨lines.flatMap (wrapped width) ++
      (List.range (line.length / width)).map (fun j => (line.drop (width * j)).take width),
    line.drop (width * (line.length / width)), ?_, ?_, fun c hc => ?_⟩
  · rw [rows, hnone, List.flatMap_append, List.flatMap_singleton, wrapped_eq hw, List.append_assoc]
  · rw [length_last_row]
    exact Nat.mod_lt _ hw
  · have hmore := hlast [c] fun d hd => List.mem_singleton.mp hd ▸ hc
    rw [rows, hmore, List.flatMap_append, List.flatMap_singleton, wrapped_concat hw,
      List.append_assoc]

/-- A break begins a row. -/
theorem rows_break {b : α} (hb : brk b = true) (text : List α) :
    rows brk width (text ++ [b]) = rows brk width text ++ [[]] := by
  have hsplit : (text ++ [b]).splitOnP brk = text.splitOnP brk ++ [[]] :=
    List.splitOnP_append_cons text [] hb
  rw [rows, hsplit, List.flatMap_append, List.flatMap_singleton, wrapped_nil]
  rfl

theorem rows_nil : rows brk width ([] : List α) = [[]] := by
  have hnil : ([] : List α).splitOnP brk = [[]] := List.splitOnP_nil
  rw [rows, hnil, List.flatMap_singleton, wrapped_nil]

/-! ## The screen -/

/-- The text that has been printed, and the first of its rows that is on the screen. -/
structure Sheet (α : Type*) where
  text : List α
  top : ℕ

namespace Sheet

/-- A screen that has been cleared. -/
def blank : Sheet α := ⟨[], 0⟩

/-- Another character, and the screen has moved down when it has begun a row below. -/
def print (brk : α → Bool) (width height : ℕ) (s : Sheet α) (c : α) : Sheet α :=
  ⟨s.text ++ [c], max s.top ((rows brk width (s.text ++ [c])).length - height)⟩

/-- The last character is taken back. -/
def erase (s : Sheet α) : Sheet α := ⟨s.text.dropLast, s.top⟩

end Sheet

section

variable {looks_blank : α → Prop} {v v' : ℕ → ℕ → α} {rs : List (List α)} {top : ℕ}

/-- A cell of the screen shows a character of the text, or is blank where there is none. -/
def ShowsCell (looks_blank : α → Prop) (x : α) : Option α → Prop
  | some a => x = a
  | none => looks_blank x

/-- The screen shows the rows from `top` on, and is blank elsewhere. -/
def Shows (looks_blank : α → Prop) (width height : ℕ) (v : ℕ → ℕ → α) (rs : List (List α))
    (top : ℕ) : Prop :=
  ∀ r, r < height → ∀ c, c < width → ShowsCell looks_blank (v r c) (rs.getD (top + r) [])[c]?

namespace Shows

/-- Only what is in each row matters. -/
theorem congr_rows {rs' : List (List α)} (h : Shows looks_blank width height v rs top)
    (hrows : ∀ i, rs'.getD i [] = rs.getD i []) : Shows looks_blank width height v rs' top := by
  intro r hr c hc
  rw [hrows]
  exact h r hr c hc

/-- An empty row behind the others looks like none. -/
theorem getD_concat_nil (rs : List (List α)) (i : ℕ) : (rs ++ [[]]).getD i [] = rs.getD i [] := by
  rw [List.getD_eq_getElem?_getD, List.getD_eq_getElem?_getD]
  by_cases hi : i < rs.length
  · rw [List.getElem?_append_left hi]
  · have hnone : rs[i]? = none := List.getElem?_eq_none (by omega)
    rw [List.getElem?_append_right (by omega), hnone]
    cases hrest : i - rs.length with
    | zero => rfl
    | succ n => rfl

theorem concat_nil (h : Shows looks_blank width height v rs top) :
    Shows looks_blank width height v (rs ++ [[]]) top := h.congr_rows (getD_concat_nil rs)

theorem of_concat_nil (h : Shows looks_blank width height v (rs ++ [[]]) top) :
    Shows looks_blank width height v rs top := h.congr_rows fun i => (getD_concat_nil rs i).symm

/-- **The screen moves down by a row**, to one that nothing has been written to. -/
theorem scroll (h : Shows looks_blank width height v rs top)
    (hup : ∀ r, r + 1 < height → ∀ c, c < width → v' r c = v (r + 1) c)
    (hlast : ∀ r, r + 1 = height → ∀ c, c < width → looks_blank (v' r c))
    (hnone : rs.getD (top + height) [] = []) :
    Shows looks_blank width height v' rs (top + 1) := by
  intro r hr c hc
  by_cases hnext : r + 1 < height
  · have hrow := h (r + 1) hnext c hc
    have hidx : top + 1 + r = top + (r + 1) := by omega
    rw [hidx, hup r hnext c hc]
    exact hrow
  · have hlow : r + 1 = height := by omega
    have hidx : top + 1 + r = top + height := by omega
    rw [hidx, hnone]
    exact hlast r hlow c hc

theorem getD_last (above : List (List α)) (row : List α) (i : ℕ) :
    (above ++ [row]).getD i [] = if i = above.length then row else above.getD i [] := by
  rw [List.getD_eq_getElem?_getD, List.getD_eq_getElem?_getD]
  by_cases hi : i = above.length
  · rw [if_pos hi, hi, List.getElem?_concat_length]
    rfl
  · rw [if_neg hi]
    by_cases hlt : i < above.length
    · rw [List.getElem?_append_left hlt]
    · have hnone : (above ++ [row])[i]? = none :=
        List.getElem?_eq_none (by rw [List.length_append, List.length_singleton]; omega)
      have hnone' : above[i]? = none := List.getElem?_eq_none (by omega)
      rw [hnone, hnone']

variable {above : List (List α)} {row row' : List α} {a : α}

/-- A change in the last row, and nowhere else. -/
theorem change_last (h : Shows looks_blank width height v (above ++ [row]) top)
    (htop : top ≤ above.length)
    (hrow : ∀ c, c < width → ShowsCell looks_blank (v (above.length - top) c) row[c]? →
      ShowsCell looks_blank (v' (above.length - top) c) row'[c]?)
    (hsame : ∀ r, r ≠ above.length - top → ∀ c, c < width → v' r c = v r c) :
    Shows looks_blank width height v' (above ++ [row']) top := by
  intro r hr c hc
  have hold := h r hr c hc
  rw [getD_last] at hold ⊢
  by_cases hline : r = above.length - top
  · have hidx : top + r = above.length := by omega
    rw [if_pos hidx, hline] at hold ⊢
    exact hrow c hc hold
  · have hidx : top + r ≠ above.length := by omega
    rw [if_neg hidx] at hold ⊢
    rw [hsame r hline c hc]
    exact hold

theorem getElem?_concat_of_ne {c : ℕ} (hc : c ≠ row.length) : (row ++ [a])[c]? = row[c]? := by
  by_cases hlt : c < row.length
  · exact List.getElem?_append_left hlt
  · rw [List.getElem?_eq_none (by rw [List.length_append, List.length_singleton]; omega),
      List.getElem?_eq_none (by omega)]

/-- **A character is written behind the last row.** -/
theorem write (h : Shows looks_blank width height v (above ++ [row]) top)
    (htop : top ≤ above.length) (hcell : v' (above.length - top) row.length = a)
    (hsame : ∀ r c, c < width → ¬ (r = above.length - top ∧ c = row.length) → v' r c = v r c) :
    Shows looks_blank width height v' (above ++ [row ++ [a]]) top := by
  refine h.change_last htop (fun c hc hold => ?_) fun r hr c hc => hsame r c hc fun hrc => hr hrc.1
  by_cases hcol : c = row.length
  · rw [hcol, List.getElem?_concat_length]
    exact hcell
  · rw [hsame _ c hc fun hrc => hcol hrc.2, getElem?_concat_of_ne hcol]
    exact hold

/-- **The last character is blanked.** -/
theorem blank (h : Shows looks_blank width height v (above ++ [row ++ [a]]) top)
    (htop : top ≤ above.length) (hcell : looks_blank (v' (above.length - top) row.length))
    (hsame : ∀ r c, c < width → ¬ (r = above.length - top ∧ c = row.length) → v' r c = v r c) :
    Shows looks_blank width height v' (above ++ [row]) top := by
  refine h.change_last htop (fun c hc hold => ?_) fun r hr c hc => hsame r c hc fun hrc => hr hrc.1
  by_cases hcol : c = row.length
  · rw [hcol, List.getElem?_eq_none (Nat.le_refl _)]
    exact hcell
  · rw [getElem?_concat_of_ne hcol] at hold
    rw [hsame _ c hc fun hrc => hcol hrc.2]
    exact hold

end Shows

end

end TextLayout
