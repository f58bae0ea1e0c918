/-
The lines of a text, for programs that read it in pieces.

A program that treats every line by itself does the same whether it is given the text at once or
cut anywhere, as long as it keeps the line that has been begun. What it does is a function of the
line here, `out`, and what it puts out for a text is `by_lines`.
-/
import Mathlib.Data.List.Infix
import Mathlib.Data.Nat.Notation

set_option autoImplicit false

namespace TextLines

variable {α β : Type*} [DecidableEq α]

/-- The output for all lines of a text, the last of which has no separator behind it. -/
def by_lines (sep : α) (out : List α → List β) (text : List α) : List β :=
  (text.splitOn sep).flatMap out

/-- No line is longer than `n`. -/
def LinesFit (sep : α) (n : ℕ) (text : List α) : Prop := ∀ line ∈ text.splitOn sep, line.length ≤ n

instance (sep : α) (n : ℕ) (text : List α) : Decidable (LinesFit sep n text) :=
  inferInstanceAs (Decidable (∀ line ∈ text.splitOn sep, _))

variable {sep : α} {n : ℕ} {out : List α → List β} {line rest : List α}

theorem by_lines_of_notMem (h : sep ∉ line) : by_lines sep out line = out line := by
  rw [by_lines, List.splitOn_eq_singleton h, List.flatMap_singleton]

theorem by_lines_nil : by_lines sep out [] = out [] := by_lines_of_notMem List.not_mem_nil

/-- The first line is treated by itself. -/
theorem by_lines_cons (h : sep ∉ line) (rest : List α) :
    by_lines sep out (line ++ sep :: rest) = out line ++ by_lines sep out rest := by
  rw [by_lines, List.splitOn_append_cons_self_of_not_mem h, List.flatMap_cons]
  rfl

theorem linesFit_of_notMem (h : sep ∉ line) : LinesFit sep n line ↔ line.length ≤ n := by
  rw [LinesFit, List.splitOn_eq_singleton h]
  simp

theorem linesFit_cons (h : sep ∉ line) :
    LinesFit sep n (line ++ sep :: rest) ↔ line.length ≤ n ∧ LinesFit sep n rest := by
  rw [LinesFit, List.splitOn_append_cons_self_of_not_mem h]
  simp [LinesFit]

/-- Separators are between the lines. -/
theorem not_mem_line {text : List α} (h : line ∈ text.splitOn sep) : sep ∉ line := by
  induction text generalizing line with
  | nil =>
      rw [List.splitOn_nil, List.mem_singleton] at h
      rw [h]
      exact List.not_mem_nil
  | cons x text ih =>
      rw [List.splitOn_cons_eq_if_modifyHead] at h
      by_cases hx : x = sep
      · rw [if_pos (beq_iff_eq.mpr hx), List.mem_cons] at h
        rcases h with rfl | h
        · exact List.not_mem_nil
        · exact ih h
      · obtain ⟨first, rest, hsplit⟩ := List.exists_cons_of_ne_nil (List.splitOn_ne_nil sep text)
        rw [hsplit] at ih
        rw [if_neg fun heq => hx (beq_iff_eq.mp heq), hsplit, List.modifyHead_cons, List.mem_cons] at h
        rcases h with rfl | h
        · rw [List.mem_cons, not_or]
          exact ⟨fun heq => hx heq.symm, ih List.mem_cons_self⟩
        · exact ih (List.mem_cons_of_mem first h)

/-- A text begins with a line. -/
theorem exists_line (sep : α) (text : List α) :
    sep ∉ text ∨ ∃ line rest, text = line ++ sep :: rest ∧ sep ∉ line := by
  by_cases h : sep ∈ text
  · obtain ⟨line, rest, heq, hline⟩ := List.eq_append_cons_of_mem h
    exact Or.inr ⟨line, rest, heq, hline⟩
  · exact Or.inl h

/-- **A line that fills the buffer** has its end behind it. -/
theorem LinesFit.full (h : sep ∉ line) (hfit : LinesFit sep n (line ++ rest)) (hlen : n ≤ line.length) :
    rest = [] ∨ ∃ rest', rest = sep :: rest' := by
  rcases exists_line sep rest with hno | ⟨more, rest', rfl, hmore⟩
  · left
    have hnot : sep ∉ line ++ rest := by
      rw [List.mem_append, not_or]
      exact ⟨h, hno⟩
    rw [linesFit_of_notMem hnot, List.length_append] at hfit
    exact List.eq_nil_of_length_eq_zero (by omega)
  · right
    have hnot : sep ∉ line ++ more := by
      rw [List.mem_append, not_or]
      exact ⟨h, hmore⟩
    rw [← List.append_assoc, linesFit_cons hnot, List.length_append] at hfit
    obtain rfl : more = [] := List.eq_nil_of_length_eq_zero (by omega)
    exact ⟨rest', rfl⟩

variable (out) in
/-- It may be treated before the end is read, when nothing is put out for an empty line. -/
theorem LinesFit.flush (h : sep ∉ line) (hfit : LinesFit sep n (line ++ rest)) (hlen : n ≤ line.length)
    (hout : out [] = []) : by_lines sep out (line ++ rest) = out line ++ by_lines sep out rest ∧
      LinesFit sep n rest := by
  have hnil : sep ∉ ([] : List α) := List.not_mem_nil
  rcases hfit.full h hlen with rfl | ⟨rest', rfl⟩
  · rw [List.append_nil, by_lines_of_notMem h, by_lines_nil, hout, List.append_nil]
    exact ⟨rfl, (linesFit_of_notMem hnil).mpr (Nat.zero_le n)⟩
  · have hempty : by_lines sep out ([] ++ sep :: rest') = out [] ++ by_lines sep out rest' :=
      by_lines_cons hnil rest'
    rw [List.nil_append, hout, List.nil_append] at hempty
    rw [by_lines_cons h, hempty]
    exact ⟨rfl, (linesFit_cons hnil).mpr ⟨Nat.zero_le n, ((linesFit_cons h).mp hfit).2⟩⟩

omit [DecidableEq α] in
/-- A part of a line is found at one of its positions. -/
theorem infix_iff_exists {pattern text : List α} : pattern <:+: text ↔
    ∃ k, k + pattern.length ≤ text.length ∧ ∀ i (hi : i < pattern.length), text[k + i]? = some pattern[i] := by
  constructor
  · rintro ⟨before, after, rfl⟩
    refine ⟨before.length, by simp only [List.length_append]; omega, fun i hi => ?_⟩
    rw [List.append_assoc, List.getElem?_append_right (by omega), Nat.add_sub_cancel_left,
      List.getElem?_append_left hi, List.getElem?_eq_getElem hi]
  · rintro ⟨k, hk, hall⟩
    have hprefix : pattern <+: text.drop k := by
      rw [List.prefix_iff_getElem?]
      intro i hi
      rw [List.getElem?_drop]
      exact hall i hi
    exact hprefix.isInfix.trans (List.drop_suffix k text).isInfix

end TextLines
