/-
A page of video memory as the end of a text.

What stands on a page is the text that has been printed on it since it was cleared, broken into
rows of 80 characters, of which the last 25 or so are left. `putc` adds a character to the text
and moves the rows up when it has begun one below the last; `erase_char` takes the last character
of the text back; `clear` begins a new one. `clear` leaves spaces in the cells, `putc` zeros in
the row it has made room for, and `erase_char` a zero: all of them look blank.
-/
import LinuxLikeOS.Echo
import LinuxLikeOS.TextLayout

set_option autoImplicit false

namespace LinuxLikeOS

open Kernel Transition LineEdit TextLayout

/-- The characters that end a row. -/
def breaks_row (c : UInt8) : Bool := decide (c = END_OF_LINE ∨ c = CARRIAGE_RETURN)

/-- The characters of a cell without text. -/
def LooksBlank (c : UInt8) : Prop := c = SPACE_ASCII ∨ c = 0

/-- The rows of a text on an 80-column screen. -/
def text_rows (text : List UInt8) : List (List UInt8) := rows breaks_row NUM_COLS text

/-- The screen after one more character. -/
def print (s : Sheet UInt8) (c : UInt8) : Sheet UInt8 := s.print breaks_row NUM_COLS NUM_ROWS c

theorem oneCell_iff {c : UInt8} : OneCell c ↔ breaks_row c = false := by
  unfold OneCell breaks_row
  exact decide_eq_false_iff_not.symm

/-- The characters of a page, by row and column. -/
def page_view (video : Int → cell) (page : Int) (r c : ℕ) : UInt8 :=
  (video (page + (NUM_COLS * r + c))).character

/-- Different cells have different numbers. -/
theorem cell_inj {r c r' c' : ℕ} (hc : c < NUM_COLS) (hc' : c' < NUM_COLS)
    (h : (NUM_COLS : Int) * r + c = NUM_COLS * r' + c') : r = r' ∧ c = c' := by
  have hcols : (NUM_COLS : Int) = 80 := rfl
  have hcols' : NUM_COLS = 80 := rfl
  rw [hcols] at h
  omega

/-- A scroll blanks the last row. -/
theorem scroll_last_row (page : Int) (A : UInt8) (video : Int → cell) {c : Int}
    (h₀ : NUM_COLS * (NUM_ROWS - 1) ≤ c) (h₁ : c < NUM_COLS * NUM_ROWS) :
    (scroll page A video (page + c)).character = 0 := by
  have hcols : (NUM_COLS : Int) = 80 := rfl
  have hrows : (NUM_ROWS : Int) = 25 := rfl
  rw [hcols, hrows] at h₀ h₁
  unfold scroll
  rw [hcols, hrows, if_pos (by omega)]

/-! ## A page -/

/-- The page shows the sheet, and `x` and `y` are the position behind its text. -/
structure PageShows (v : ℕ → ℕ → UInt8) (x y : Int) (s : Sheet UInt8) : Prop where
  shows : Shows LooksBlank NUM_COLS NUM_ROWS v (text_rows s.text) s.top
  top_lt : s.top < (text_rows s.text).length
  length_le : (text_rows s.text).length ≤ s.top + NUM_ROWS
  column : x = ((text_rows s.text).getLastD []).length
  line : y = (text_rows s.text).length - 1 - s.top

/-- The rows are shown with the next one begun below them, on the same rows of the screen or one
row higher. -/
theorem shows_next_row {A : UInt8} {page : Int} {video : Int → cell} {rs : List (List UInt8)}
    {top : ℕ} {y : Int} (h : Shows LooksBlank NUM_COLS NUM_ROWS (page_view video page) rs top)
    (htop : top < rs.length) (hlen : rs.length ≤ top + NUM_ROWS) (hy : y = rs.length - 1 - top) :
    Shows LooksBlank NUM_COLS NUM_ROWS
        (page_view (if y + 1 > NUM_ROWS - 1 then scroll page A video else video) page)
        (rs ++ [[]]) (max top (rs.length + 1 - NUM_ROWS)) ∧
      (scrolled (0, y + 1)).2 = rs.length - (max top (rs.length + 1 - NUM_ROWS) : ℕ) := by
  have hcols : (NUM_COLS : Int) = 80 := rfl
  have hcols' : NUM_COLS = 80 := rfl
  have hrows : (NUM_ROWS : Int) = 25 := rfl
  have hrows' : NUM_ROWS = 25 := rfl
  unfold scrolled
  dsimp only
  by_cases hlast : y + 1 > NUM_ROWS - 1
  · -- all 25 rows are taken
    have hfull : rs.length = top + NUM_ROWS := by omega
    have hmax : max top (rs.length + 1 - NUM_ROWS) = top + 1 := by omega
    have hnone : (rs ++ [[]]).getD (top + NUM_ROWS) [] = [] := by
      rw [Shows.getD_last, if_pos hfull.symm]
    rw [if_pos hlast, if_pos hlast, hmax]
    refine ⟨h.concat_nil.scroll (fun r hr c hc => ?_) (fun r hr c hc => ?_) hnone, by omega⟩
    · have hcell : (NUM_COLS : Int) * r + c + NUM_COLS = NUM_COLS * (r + 1 : ℕ) + c := by
        rw [hcols]
        omega
      unfold page_view
      rw [← hcell]
      exact scroll_character page A video (by rw [hcols]; omega) (by rw [hcols, hrows]; omega)
    · right
      exact scroll_last_row page A video (by rw [hcols, hrows]; omega) (by rw [hcols, hrows]; omega)
  · have hmax : max top (rs.length + 1 - NUM_ROWS) = top := by omega
    rw [if_neg hlast, if_neg hlast, hmax]
    exact ⟨h.concat_nil, by dsimp only; omega⟩

namespace PageShows

variable {v v' : ℕ → ℕ → UInt8} {x y : Int} {s : Sheet UInt8} {page : Int} {video : Int → cell}

/-- Only the 2000 cells of the screen matter. -/
theorem congr (h : PageShows v x y s)
    (hv : ∀ r, r < NUM_ROWS → ∀ c, c < NUM_COLS → v' r c = v r c) : PageShows v' x y s where
  shows r hr c hc := by
    rw [hv r hr c hc]
    exact h.shows r hr c hc
  top_lt := h.top_lt
  length_le := h.length_le
  column := h.column
  line := h.line

/-- A page that has been cleared. -/
theorem blank (h : ∀ r, r < NUM_ROWS → ∀ c, c < NUM_COLS → LooksBlank (v r c)) :
    PageShows v 0 0 Sheet.blank := by
  have hnil : text_rows (Sheet.blank : Sheet UInt8).text = [[]] := rows_nil
  refine ⟨fun r hr c hc => ?_, ?_, ?_, ?_, ?_⟩
  · rw [hnil]
    have hnone : ([[]] : List (List UInt8)).getD ((Sheet.blank : Sheet UInt8).top + r) [] = [] := by
      cases r with
      | zero => rfl
      | succ r => simp [Sheet.blank]
    rw [hnone]
    exact h r hr c hc
  · rw [hnil]
    exact Nat.zero_lt_one
  · rw [hnil]
    decide
  · rw [hnil]
    rfl
  · rw [hnil]
    rfl

/-- A character stored under the cursor, before the row is looked at. -/
theorem shows_stored {above : List (List UInt8)} {row : List UInt8} {c A : UInt8}
    (h : PageShows (page_view video page) x y s) (hrs : text_rows s.text = above ++ [row]) (hrow : row.length < NUM_COLS) :
    Shows LooksBlank NUM_COLS NUM_ROWS
      (page_view (Function.update video (page + (NUM_COLS * y + x)) ⟨c, A⟩) page)
      (above ++ [row ++ [c]]) s.top := by
  have hshow := h.shows
  have htop := h.top_lt
  have hx := h.column
  have hy := h.line
  rw [hrs] at hshow htop hx hy
  rw [List.length_append, List.length_singleton] at htop hy
  rw [List.getLastD_concat] at hx
  have hline : y = ((above.length - s.top : ℕ) : Int) := by omega
  rw [hline, hx]
  apply hshow.write (by omega)
  · unfold page_view
    rw [Function.update_self]
  · intro r c' hc' hne
    unfold page_view
    rw [Function.update_of_ne]
    intro heq
    exact hne (cell_inj hc' hrow (by omega))

/-- A character that begins a row below the last one. -/
theorem next_row {c A : UInt8} {rs : List (List UInt8)} {video' : Int → cell}
    (hshow : Shows LooksBlank NUM_COLS NUM_ROWS (page_view video' page) rs s.top)
    (htop : s.top < rs.length) (hlen : rs.length ≤ s.top + NUM_ROWS)
    (hy : y = rs.length - 1 - s.top) (hrs : text_rows (s.text ++ [c]) = rs ++ [[]])
    (hstored : stored c x y = (0, y + 1))
    (hinked : inked c A (page + (NUM_COLS * y + x)) video = video') :
    PageShows (page_view (drawn c A page x y video) page) (scrolled (stored c x y)).1
      (scrolled (stored c x y)).2 (LinuxLikeOS.print s c) := by
  have hrows' : NUM_ROWS = 25 := rfl
  obtain ⟨hshows, hline⟩ := shows_next_row (A := A) hshow htop hlen hy
  have hcount : (text_rows (s.text ++ [c])).length = rs.length + 1 := by
    rw [hrs, List.length_append, List.length_singleton]
  have hsheet : LinuxLikeOS.print s c
      = ⟨s.text ++ [c], max s.top (rs.length + 1 - NUM_ROWS)⟩ := by
    rw [← hcount]
    rfl
  have hcolumn : (scrolled (0, y + 1)).1 = 0 := by
    unfold scrolled
    split <;> rfl
  unfold drawn
  rw [hstored, hinked, hsheet]
  refine ⟨?_, ?_, ?_, ?_, ?_⟩
  · rw [hrs]
    exact hshows
  · rw [hcount]
    dsimp only
    omega
  · rw [hcount]
    dsimp only
    omega
  · rw [hrs, List.getLastD_concat]
    exact hcolumn
  · rw [hcount, hline]
    dsimp only
    omega

/-- **`putc` prints a character on the sheet.** -/
theorem print (h : PageShows (page_view video page) x y s) (c A : UInt8) :
    PageShows (page_view (drawn c A page x y video) page) (scrolled (stored c x y)).1
      (scrolled (stored c x y)).2 (print s c) := by
  have hcols : (NUM_COLS : Int) = 80 := rfl
  have hcols' : NUM_COLS = 80 := rfl
  have hrows : (NUM_ROWS : Int) = 25 := rfl
  have hrows' : NUM_ROWS = 25 := rfl
  obtain ⟨above, row, hrs, hrow, hput⟩ :=
    exists_last_row (by decide : 0 < NUM_COLS) breaks_row s.text
  have hshow := h.shows
  have htop := h.top_lt
  have hlen := h.length_le
  have hx := h.column
  have hy := h.line
  unfold text_rows at hshow htop hlen hx hy
  rw [hrs] at hshow htop hlen hx hy
  rw [List.getLastD_concat] at hx
  by_cases hbreak : breaks_row c = true
  · have hc : c = END_OF_LINE ∨ c = CARRIAGE_RETURN := of_decide_eq_true hbreak
    apply next_row hshow htop hlen hy
    · unfold text_rows
      rw [rows_break hbreak, hrs]
    · exact if_pos hc
    · exact if_pos hc
  · have hc : OneCell c := oneCell_iff.mpr (Bool.eq_false_iff.mpr hbreak)
    have hink : inked c A (page + (NUM_COLS * y + x)) video
        = Function.update video (page + (NUM_COLS * y + x)) ⟨c, A⟩ := if_neg hc
    have hstore := h.shows_stored (c := c) (A := A) hrs hrow
    have hrs' := hput c (oneCell_iff.mp hc)
    unfold put_last at hrs'
    by_cases hroom : row.length + 1 < NUM_COLS
    · -- the row goes on
      rw [if_pos hroom] at hrs'
      have hstored : stored c x y = (x + 1, y) := by
        unfold stored
        rw [if_neg hc, if_neg (by omega)]
      have hlow : ¬ y > NUM_ROWS - 1 := by
        rw [List.length_append, List.length_singleton] at hy hlen
        omega
      have hsame : scrolled (x + 1, y) = (x + 1, y) := if_neg hlow
      have hcount : (text_rows (s.text ++ [c])).length = (above ++ [row]).length := by
        unfold text_rows
        rw [hrs', List.length_append, List.length_append]
        rfl
      have hsheet : LinuxLikeOS.print s c = ⟨s.text ++ [c], s.top⟩ := by
        have hmax : max s.top ((above ++ [row]).length - NUM_ROWS) = s.top := by omega
        rw [← hcount] at hmax
        exact congrArg (Sheet.mk (s.text ++ [c])) hmax
      unfold drawn
      rw [hstored, hsame, if_neg hlow, hink, hsheet]
      refine ⟨?_, by rwa [hcount], by rwa [hcount], ?_, by rw [hcount]; exact hy⟩
      · unfold text_rows
        rw [hrs']
        exact hstore
      · unfold text_rows
        rw [hrs', List.getLastD_concat, List.length_append, List.length_singleton, hx]
        omega
    · -- the row is full
      rw [if_neg hroom] at hrs'
      have hstored : stored c x y = (0, y + 1) := by
        unfold stored
        rw [if_neg hc, if_pos (by omega)]
      have hcount : (above ++ [row ++ [c]]).length = (above ++ [row]).length := by
        rw [List.length_append, List.length_append]
        rfl
      apply next_row hstore
      · rwa [hcount]
      · rwa [hcount]
      · rwa [hcount]
      · unfold text_rows
        rw [hrs', List.append_assoc]
        rfl
      · exact hstored
      · exact hink

/-- **`erase_char` takes the last character back**, also from the row above. -/
theorem erase {c A : UInt8} {text : List UInt8} (h : PageShows (page_view video page) x y s)
    (htext : s.text = text ++ [c]) (hc : OneCell c) (horigin : ¬ (x = 0 ∧ y = 0)) :
    PageShows
      (page_view (Function.update video
        (page + (NUM_COLS * (stepped_back x y).2 + (stepped_back x y).1)) ⟨0, A⟩) page)
      (stepped_back x y).1 (stepped_back x y).2 s.erase := by
  have hcols : (NUM_COLS : Int) = 80 := rfl
  have hcols' : NUM_COLS = 80 := rfl
  obtain ⟨above, row, hrs, hrow, hput⟩ :=
    exists_last_row (by decide : 0 < NUM_COLS) breaks_row text
  have hrs' := hput c (oneCell_iff.mp hc)
  have hsheet : s.erase = ⟨text, s.top⟩ := by
    unfold Sheet.erase
    rw [htext, List.dropLast_concat]
  have hshow := h.shows
  have htop := h.top_lt
  have hlen := h.length_le
  have hx := h.column
  have hy := h.line
  unfold text_rows at hshow htop hlen hx hy
  rw [htext] at hshow htop hlen hx hy
  -- the cell before the cursor is the one the character stands in
  obtain ⟨hshow', htop', hback⟩ : Shows LooksBlank NUM_COLS NUM_ROWS (page_view video page)
      (above ++ [row ++ [c]]) s.top ∧ s.top ≤ above.length ∧
      stepped_back x y = ((row.length : Int), ((above.length - s.top : ℕ) : Int)) := by
    unfold put_last at hrs'
    unfold stepped_back
    by_cases hroom : row.length + 1 < NUM_COLS
    · rw [if_pos hroom] at hrs'
      rw [hrs'] at hshow htop hx hy
      rw [List.length_append, List.length_singleton] at htop hy
      rw [List.getLastD_concat, List.length_append, List.length_singleton] at hx
      refine ⟨hshow, by omega, ?_⟩
      rw [if_neg (by omega)]
      exact Prod.ext (by dsimp only; omega) (by dsimp only; omega)
    · have hsplit : above ++ [row ++ [c], []] = (above ++ [row ++ [c]]) ++ [[]] := by
        rw [List.append_assoc]
        rfl
      rw [if_neg hroom, hsplit] at hrs'
      rw [hrs'] at hshow htop hx hy
      rw [List.length_append, List.length_append, List.length_singleton, List.length_singleton]
        at htop hy
      rw [List.getLastD_concat, List.length_nil] at hx
      refine ⟨hshow.of_concat_nil, by omega, ?_⟩
      rw [if_pos (by omega)]
      exact Prod.ext (by dsimp only; omega) (by dsimp only; omega)
  have hlen' : (above ++ [row]).length ≤ s.top + NUM_ROWS := by
    have hle : (above ++ [row]).length ≤ (rows breaks_row NUM_COLS (text ++ [c])).length := by
      rw [hrs', List.length_append, List.length_append]
      unfold put_last
      split <;> simp
    omega
  rw [hback, hsheet]
  refine ⟨?_, ?_, ?_, ?_, ?_⟩
  · unfold text_rows
    rw [hrs]
    apply hshow'.blank htop'
    · right
      unfold page_view
      rw [Function.update_self]
    · intro r c' hc' hne
      unfold page_view
      rw [Function.update_of_ne]
      intro heq
      exact hne (cell_inj hc' hrow (by dsimp only at heq; omega))
  · unfold text_rows
    rw [hrs, List.length_append, List.length_singleton]
    dsimp only
    omega
  · unfold text_rows
    rw [hrs]
    exact hlen'
  · unfold text_rows
    rw [hrs, List.getLastD_concat]
  · unfold text_rows
    rw [hrs, List.length_append, List.length_singleton]
    dsimp only
    omega

end PageShows

end LinuxLikeOS
