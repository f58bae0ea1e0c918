/-
The line on the screen while it is being edited.

`edit_buffer` stores a character in the line and prints it, and takes one back from both, with
a test for each that does not know of the other. The buffer stays where it is. On the screen
the text wraps at the last column, moves up a row with every scroll, is copied to another page
when the screen is switched, and is printed again from the first cell by Ctrl-L. Through all
of that the cells before the cursor show the line.

What the other terminals do is kept off the page and the line by the bounds of their own
lines. A key that comes to a full line is stored behind it, and it may be the line of the next
terminal that it is stored in.
-/
import LinuxLikeOS.Cursor
import LinuxLikeOS.Independence
import LinuxLikeOS.LineRead

set_option autoImplicit false

namespace LinuxLikeOS

open Kernel Transition LineEdit

/-! ## The characters of a page -/

/-- What a terminal shows, without the colours. -/
def shown (k : Kernel) (t : Terminal) (c : Int) : UInt8 := (content k t c).character

/-- A byte that is printed into a cell, and breaks no line. -/
def OneCell (c : UInt8) : Prop := ¬ (c = END_OF_LINE ∨ c = CARRIAGE_RETURN)

instance (c : UInt8) : Decidable (OneCell c) := inferInstanceAs (Decidable (¬ _))

/-- **A scroll moves the characters up by a row.** -/
theorem scroll_character (page : Int) (A : UInt8) (video : Int → cell) {c : Int} (h₀ : 0 ≤ c)
    (h₁ : c < NUM_COLS * (NUM_ROWS - 1)) :
    (scroll page A video (page + c)).character = (video (page + (c + NUM_COLS))).character := by
  have hcols : (NUM_COLS : Int) = 80 := rfl
  have hrows : (NUM_ROWS : Int) = 25 := rfl
  have hrows' : NUM_ROWS = 25 := rfl
  rw [hcols, hrows] at h₁
  -- the rows that are done show the row below, and the others are as before
  have hloop : (∀ c, 0 ≤ c → c < 80 * ((NUM_ROWS - 1 : ℕ) : Int) →
        (for_loop (scroll_row page A) (NUM_ROWS - 1) video (page + c)).character
          = (video (page + (c + 80))).character) ∧
      ∀ c, 80 * ((NUM_ROWS - 1 : ℕ) : Int) ≤ c →
        for_loop (scroll_row page A) (NUM_ROWS - 1) video (page + c) = video (page + c) := by
    apply for_loop_invariant (fun n (v : Int → cell) =>
      (∀ c, 0 ≤ c → c < 80 * (n : Int) →
        (v (page + c)).character = (video (page + (c + 80))).character) ∧
      ∀ c, 80 * (n : Int) ≤ c → v (page + c) = video (page + c))
    · exact ⟨fun c h h' => by omega, fun c _ => rfl⟩
    · intro i v hi hv
      refine ⟨fun c h h' => ?_, fun c h => ?_⟩
      · unfold scroll_row
        rw [hcols]
        by_cases hrow : 80 * (i : Int) ≤ c
        · have hbelow := hv.2 (c + 80) (by omega)
          rw [if_pos (by omega), Int.add_assoc, hbelow]
        · rw [if_neg (by omega)]
          exact hv.1 c h (by omega)
      · unfold scroll_row
        rw [hcols, if_neg (by omega)]
        exact hv.2 c (by omega)
  unfold scroll
  rw [hcols, hrows, if_neg (by omega)]
  exact hloop.1 c h₀ (by omega)

/-- A character in the next cell. -/
theorem update_shown {page p : Int} {video : Int → cell} {text : List UInt8} (c A : UInt8)
    (h : Shown (fun x => (video (page + x)).character) p text) :
    Shown (fun x => (Function.update video (page + p) ⟨c, A⟩ (page + x)).character) (p + 1)
      (text ++ [c]) := by
  have hsame : Shown (fun x => (Function.update video (page + p) ⟨c, A⟩ (page + x)).character) p
      text := h.congr fun x _ hx => by rw [Function.update_of_ne (by omega)]
  have hconcat := hsame.concat
  rwa [Function.update_self] at hconcat

/-- Only from the last cell does a character scroll the screen. -/
theorem last_cell_of_scroll {c : UInt8} {ti : terminal_info_t} (hc : OneCell c) (h : InScreen ti)
    (hscroll : (stored c ti.screen_x ti.screen_y).2 > NUM_ROWS - 1) :
    ti.screen_x = NUM_COLS - 1 ∧ ti.screen_y = NUM_ROWS - 1 := by
  have hcols : (NUM_COLS : Int) = 80 := rfl
  have hrows : (NUM_ROWS : Int) = 25 := rfl
  unfold stored at hscroll
  rw [if_neg hc] at hscroll
  obtain ⟨⟨hx₀, hx₁⟩, hy₀, hy₁⟩ := h
  split at hscroll
  · dsimp only at hscroll
    omega
  · dsimp only at hscroll
    omega

/-- The scroll takes the cursor back by the row that has left the screen. -/
theorem cursor_cell_scrolled {c : UInt8} {ti : terminal_info_t} (hc : OneCell c) (h : InScreen ti)
    (hscroll : (stored c ti.screen_x ti.screen_y).2 > NUM_ROWS - 1) :
    cursor_cell (at_position (scrolled (stored c ti.screen_x ti.screen_y)) ti)
      = cursor_cell ti + 1 - NUM_COLS := by
  obtain ⟨hx, hy⟩ := last_cell_of_scroll hc h hscroll
  unfold scrolled
  rw [if_pos hscroll]
  unfold cursor_cell at_position
  rw [hx, hy]
  rfl

/-- Without a scroll the cursor moves on by a cell, also where the row ends. -/
theorem cursor_cell_stored {c : UInt8} {ti : terminal_info_t} (hc : OneCell c) (h : InScreen ti)
    (hscroll : ¬ (stored c ti.screen_x ti.screen_y).2 > NUM_ROWS - 1) :
    cursor_cell (at_position (scrolled (stored c ti.screen_x ti.screen_y)) ti)
      = cursor_cell ti + 1 := by
  have hcols : (NUM_COLS : Int) = 80 := rfl
  obtain ⟨⟨hx₀, hx₁⟩, -⟩ := h
  rw [hcols] at hx₁
  unfold scrolled
  rw [if_neg hscroll]
  unfold stored
  rw [if_neg hc, hcols]
  unfold cursor_cell at_position
  rw [hcols]
  split
  · dsimp only
    omega
  · dsimp only
    omega

/-- **A character that is printed becomes the last one before the cursor**, with a wrap, with a
scroll, or with neither. -/
theorem drawn_shown {c A : UInt8} {page : Int} {ti : terminal_info_t} {video : Int → cell}
    {text : List UInt8} (h : Behind text.length ti) (hn : text.length ≤ MAX_BUF_SIZE)
    (hc : OneCell c) (hs : Shown (fun x => (video (page + x)).character) (cursor_cell ti) text) :
    Shown (fun x => (drawn c A page ti.screen_x ti.screen_y video (page + x)).character)
      (cursor_cell (at_position (scrolled (stored c ti.screen_x ti.screen_y)) ti))
      (text ++ [c]) := by
  have hink : inked c A (page + (NUM_COLS * ti.screen_y + ti.screen_x)) video
      = Function.update video (page + cursor_cell ti) ⟨c, A⟩ := if_neg hc
  have hnext := update_shown c A hs
  unfold drawn
  rw [hink]
  by_cases hscroll : (stored c ti.screen_x ti.screen_y).2 > NUM_ROWS - 1
  · rw [if_pos hscroll, cursor_cell_scrolled hc h.1 hscroll]
    refine hnext.shift fun x hx hx' => ?_
    -- the line is short, so that none of its cells leaves the screen
    have hcell : cursor_cell ti = NUM_COLS * NUM_ROWS - 1 := by
      obtain ⟨hx, hy⟩ := last_cell_of_scroll hc h.1 hscroll
      unfold cursor_cell
      rw [hx, hy]
      rfl
    have hcols : (NUM_COLS : Int) = 80 := rfl
    have hrows : (NUM_ROWS : Int) = 25 := rfl
    have hmax : MAX_BUF_SIZE = 128 := rfl
    rw [List.length_append, List.length_singleton] at hx
    rw [hcell, hcols, hrows] at hx hx'
    exact scroll_character page A _ (by omega) (by rw [hcols, hrows]; omega)
  · rw [if_neg hscroll, cursor_cell_stored hc h.1 hscroll]
    exact hnext

/-! ## The line on display -/

/-- The cells before the cursor of the terminal on display show the text. -/
def Displayed (k : Kernel) (text : List UInt8) : Prop :=
  Shown (shown k k.screen_terminal) (cursor_cell (k.terminal_array k.screen_terminal)) text

/-- On display the page begins at cell 0. -/
theorem shown_on_display (k : Kernel) :
    shown k k.screen_terminal = fun c => (k.video (0 + c)).character := by
  funext c
  unfold shown content
  rw [page_of_screen]

namespace Displayed

variable {k k₀ : Kernel} {text : List UInt8}

theorem set_terminal (h : Displayed k text) {f : terminal_info_t → terminal_info_t}
    (hf : ∀ ti, cursor_cell (f ti) = cursor_cell ti) :
    Displayed (k.set_terminal k.screen_terminal f) text := by
  have hcell : cursor_cell ((k.set_terminal k.screen_terminal f).terminal_array k.screen_terminal)
      = cursor_cell (k.terminal_array k.screen_terminal) := by
    rw [set_terminal_apply, if_pos rfl, hf]
  unfold Displayed at h ⊢
  rw [← hcell] at h
  exact h

theorem store_at_end (h : Displayed k text) (v : UInt8) (hn : line_size k < MAX_BUF_SIZE) :
    Displayed (store_at_end v k) text := by
  have hset := h.set_terminal (f := put_at_end v) fun _ => rfl
  rw [store_at_end_eq v hn]
  exact hset

/-- The keyboard prints a character. -/
theorem echo (h : Displayed k text) (hkey : Keying k₀ k text.length)
    (hn : text.length ≤ MAX_BUF_SIZE) {c : UInt8} (hc : OneCell c) :
    Displayed (echo c k) (text ++ [c]) := by
  have hdraw : draw_terminal { k with DISPLAY_ON_MAIN_PAGE := 1 } = k.screen_terminal :=
    draw_terminal_of_on rfl
  obtain ⟨hterm, hvideo, -⟩ := putc_eq c { k with DISPLAY_ON_MAIN_PAGE := 1 }
  rw [hdraw] at hterm hvideo
  have hpage : page_of { k with DISPLAY_ON_MAIN_PAGE := 1 } k.screen_terminal = 0 :=
    page_of_screen k
  rw [hpage] at hvideo
  unfold Displayed at h ⊢
  rw [shown_on_display] at h ⊢
  unfold LinuxLikeOS.echo
  rw [(draws_putc c _).screen_terminal, hterm, hvideo, Function.update_self]
  exact drawn_shown hkey.behind hn hc h

/-- **A backspace takes the last cell of the line**, also the last one of the row above. -/
theorem erase_char (h : Displayed k text) (hpos : InScreen (k.terminal_array k.screen_terminal)) :
    Displayed (erase_char k) text.dropLast := by
  have hcols : (NUM_COLS : Int) = 80 := rfl
  obtain ⟨⟨hx₀, -⟩, -⟩ := hpos
  have hcell : cursor_cell (at_position (erased k) (k.terminal_array k.screen_terminal))
      = cursor_cell (k.terminal_array k.screen_terminal) - 1 := by
    unfold cursor_cell at_position erased stepped_back
    rw [hcols]
    split
    · dsimp only
      omega
    · dsimp only
      omega
  have hstore : NUM_COLS * (erased k).2 + (erased k).1
      = cursor_cell (k.terminal_array k.screen_terminal) - 1 := hcell
  unfold Displayed at h ⊢
  rw [shown_on_display] at h ⊢
  rw [(draws_erase_char k).screen_terminal, erase_char_terminal, if_pos rfl, erase_char_video,
    hcell, hstore]
  -- the cell that is blanked is not one of those that stay
  refine h.dropLast.congr fun c _ hc => ?_
  rw [Int.zero_add, Function.update_of_ne (by omega)]

theorem grow_line (h : Displayed k text) : Displayed (grow_line k) text := by
  unfold LinuxLikeOS.grow_line
  exact h.set_terminal fun _ => rfl

theorem shrink_line (h : Displayed k text) : Displayed (shrink_line k) text := by
  unfold LinuxLikeOS.shrink_line
  exact h.set_terminal fun _ => rfl

theorem add_char (h : Displayed k text) (hkey : Keying k₀ k text.length)
    (hsize : line_size k < MAX_BUF_SIZE) (hn : text.length ≤ MAX_BUF_SIZE) {c : UInt8}
    (hc : OneCell c) : Displayed (add_char c k) (text ++ [c]) :=
  ((h.store_at_end c hsize).echo (hkey.store_at_end c hsize) hn hc).grow_line

theorem delete_char (h : Displayed k text) (hkey : Keying k₀ k text.length)
    (hsize : line_size k < MAX_BUF_SIZE) (hlen : text.length = line_size k) :
    Displayed (delete_char k) text.dropLast := by
  apply delete_char_rule (Q := fun k₁ => Displayed k₁ text.dropLast)
  · intro hpos
    have herase := h.erase_char hkey.behind.1
    have hstore := herase.store_at_end 0 (by rw [(draws_erase_char k).line.1]; exact hsize)
    exact hstore.shrink_line
  · -- nothing is left to be taken back
    intro hnone
    rw [List.length_eq_zero_iff.mp (hlen.trans hnone)]
    exact .nil _ _
  · intro k₁ h₁ hempty
    exact h₁.store_at_end 0 (by omega)

end Displayed

/-- A line is printed again: its first `i` characters are shown, and the buffer is as it was. -/
structure Redrawing (k₀ k : Kernel) (text : List UInt8) (i : ℕ) : Prop where
  keying : Keying k₀ k i
  displayed : Displayed k (text.take i)
  same_line : Edits id k₀ k

theorem Redrawing.next {k₀ k : Kernel} {text : List UInt8} {i : ℕ} (h : Redrawing k₀ k text i)
    (hw : Written (k₀.terminal_array k₀.screen_terminal).buffer (line_size k₀) text)
    (hn : line_size k₀ ≤ MAX_BUF_SIZE)
    (hclean : ∀ c, c ∈ text → OneCell c) (hi : i < text.length) :
    Redrawing k₀ (redraw_char i k) text (i + 1) := by
  rw [hw.size] at hn
  have htake : (text.take i).length = i := List.length_take_of_le (Nat.le_of_lt hi)
  -- the next byte of the buffer is the next character of the text
  have hbyte : line_load k k.screen_terminal i = text[i] := by
    obtain ⟨p, hp⟩ := h.same_line.screen
    rw [line_load_eq (by omega), hp, ← hw.get i hi]
    rfl
  have hkey : Keying k₀ { k with line_accesses := i :: k.line_accesses } i :=
    ⟨h.keying.1, h.keying.2, h.keying.3, h.keying.4, h.keying.5, h.keying.6⟩
  have hshown : Displayed { k with line_accesses := i :: k.line_accesses } (text.take i) :=
    h.displayed
  have hline : Edits id k₀ { k with line_accesses := i :: k.line_accesses } :=
    ⟨h.same_line.terminal, h.same_line.screen_terminal⟩
  unfold redraw_char
  dsimp only
  rw [hbyte]
  generalize ({ k with line_accesses := i :: k.line_accesses } : Kernel) = k₁ at hkey hshown hline ⊢
  refine ⟨hkey.echo _ (by omega), ?_, hline.trans (.of_draws (draws_echo _ _)) fun _ _ => rfl⟩
  rw [List.take_succ_eq_append_getElem hi]
  exact hshown.echo (by rwa [htake]) (by omega) (hclean _ (List.getElem_mem hi))

/-- **Ctrl-L prints the line again**, from the first cell on. -/
theorem displayed_redraw_line {k : Kernel} {text : List UInt8} (hkey : Keying k k (line_size k))
    (hn : line_size k ≤ MAX_BUF_SIZE)
    (hw : Written (k.terminal_array k.screen_terminal).buffer (line_size k) text)
    (hclean : ∀ c, c ∈ text → OneCell c) :
    Displayed (redraw_line k) text := by
  have hlen : line_size k = text.length := hw.size
  have hend : Redrawing k (redraw_line k) text (line_size k) := by
    apply redraw_line_rule (Q := fun i k₁ => Redrawing k k₁ text i)
    · exact ⟨hkey.clear, .nil _ _, .of_draws (draws_clear_display k)⟩
    · intro i k₁ hi h₁
      exact h₁.next hw hn hclean (hlen ▸ hi)
  have hshown := hend.displayed
  rwa [hlen, List.take_length] at hshown

/-! ## The line of a terminal -/

/-- The text is in the line buffer of a terminal and before its cursor. -/
structure LineShown (k : Kernel) (t : Terminal) (text : List UInt8) : Prop where
  written : Written (k.terminal_array t).buffer (k.terminal_array t).buffer_size text
  displayed : Shown (shown k t) (cursor_cell (k.terminal_array t)) text
  one_cell : ∀ c, c ∈ text → OneCell c

/-- The keys that edit a line, a tab as four spaces, and Ctrl-L. ENTER ends it. -/
def EditKey (response : UInt8) : Prop := response ≠ ENTER_KEY ∧ OneCell response

instance (response : UInt8) : Decidable (EditKey response) := inferInstanceAs (Decidable (_ ∧ _))

namespace LineShown

variable {k k' : Kernel} {t : Terminal} {text : List UInt8}

/-- The console of the terminal is all that matters, on whichever page it is. -/
theorem same (h : LineShown k t text) (hsame : Same t k k')
    (hbehind : Behind (k.terminal_array t).buffer_size (k.terminal_array t))
    (hn : (k.terminal_array t).buffer_size ≤ MAX_BUF_SIZE) : LineShown k' t text where
  written := by
    refine ⟨hsame.terminal.buffer_size.trans h.written.size, fun i hi => ?_⟩
    have hsize := h.written.size
    rw [hsame.terminal.buffer i (by omega), h.written.get i hi]
  displayed := by
    have hcells : PAGE_CELLS = 2048 := rfl
    have hcell : cursor_cell (k'.terminal_array t) = cursor_cell (k.terminal_array t) := by
      unfold cursor_cell
      rw [hsame.terminal.screen_x, hsame.terminal.screen_y]
    have hsize := h.written.size
    obtain ⟨⟨⟨-, hx⟩, -, hy⟩, hfirst⟩ := hbehind
    have hcols : (NUM_COLS : Int) = 80 := rfl
    have hrows : (NUM_ROWS : Int) = 25 := rfl
    rw [hcols] at hx
    rw [hrows] at hy
    rw [hcell]
    refine h.displayed.congr fun c hc hc' => ?_
    unfold cursor_cell at hc hc' hfirst
    rw [hcols] at hc hc' hfirst
    exact congrArg cell.character (hsame.cell c (by omega) (by omega))
  one_cell := h.one_cell

/-- **A key that edits the line changes the buffer and the screen alike.** -/
theorem key {response : UInt8} (h : LineShown k k.screen_terminal text) (hscreen : ScreenInv k)
    (hlines : LineBounds k) (hfits : KeyFits k (.key response)) (hkey : EditKey response) :
    ∃ text', LineShown (edit_buffer response k) k.screen_terminal text' := by
  have hn := hlines.line_le
  have hlt := line_lt_of_fits hn hfits
  have hlen : text.length = line_size k := h.written.size.symm
  have hkeying := hscreen.keying
  have hshown : Displayed k text := h.displayed
  obtain ⟨b, hcase⟩ := exists_keyCase response (k.terminal_array k.screen_terminal)
  have hedits := edit_buffer_edits hn hfits hcase
  -- what the branch makes of the text
  obtain ⟨text', hw, hshown', hclean⟩ : ∃ text',
      Written (b.on_line response (k.terminal_array k.screen_terminal)).buffer
        (b.on_line response (k.terminal_array k.screen_terminal)).buffer_size text' ∧
      Displayed (edit_buffer response k) text' ∧ ∀ c, c ∈ text' → OneCell c := by
    rw [edit_buffer_eq hcase]
    cases hcase with
    | redraw =>
        refine ⟨text, h.written, ?_, h.one_cell⟩
        exact displayed_redraw_line hkeying hn h.written h.one_cell
    | idle => exact ⟨text, h.written, hshown, h.one_cell⟩
    | full => exact ⟨text, h.written, hshown, h.one_cell⟩
    | enter _ henter => exact absurd henter hkey.1
    | delete taken =>
        refine ⟨text.dropLast, written_shortened h.written, ?_, fun c hc => ?_⟩
        · exact hshown.delete_char (by rwa [hlen]) (hlt taken) hlen
        · exact h.one_cell c (List.dropLast_subset _ hc)
    | add taken =>
        refine ⟨text ++ [response], h.written.concat response, ?_, fun c hc => ?_⟩
        · exact hshown.add_char (by rwa [hlen]) (hlt taken) (by rwa [hlen]) hkey.2
        · rcases List.mem_append.mp hc with hc | hc
          · exact h.one_cell c hc
          · exact List.mem_singleton.mp hc ▸ hkey.2
  obtain ⟨p, hp⟩ := hedits.terminal k.screen_terminal
  rw [if_pos rfl] at hp
  refine ⟨text', ⟨?_, ?_, hclean⟩⟩
  · rw [hp]
    exact hw
  · unfold Displayed at hshown'
    rwa [hedits.screen_terminal] at hshown'

end LineShown

/-! ## Steps -/

/-- The line of `t` is being edited: its process is blocked and makes no calls, and the keys
that come to it do not end it. On the other terminals anything may happen. -/
def WhileEdited (t : Terminal) (k : Kernel) : ScreenOp → Prop
  | .key response => k.screen_terminal = t → EditKey response
  | .write _ _ | .read_begin _ _ | .read_end _ _ => k.curr_terminal ≠ t
  | .tick | .switch_screen _ => True

instance (t : Terminal) (k : Kernel) : (op : ScreenOp) → Decidable (WhileEdited t k op)
  | .key response => inferInstanceAs (Decidable (k.screen_terminal = t → EditKey response))
  | .write _ _ | .read_begin _ _ | .read_end _ _ => inferInstanceAs (Decidable (_ ≠ _))
  | .tick | .switch_screen _ => isTrue trivial

/-- No key that `edit_buffer` takes comes to a full line. -/
def KeysFit (k : Kernel) : ScreenOp → Prop
  | .key response => KeyFits k (.key response)
  | _ => True

instance (k : Kernel) : (op : ScreenOp) → Decidable (KeysFit k op)
  | .key response => inferInstanceAs (Decidable (KeyFits k (.key response)))
  | .write _ _ | .read_begin _ _ | .read_end _ _ | .tick | .switch_screen _ => isTrue trivial

/-- A backspace that finds a line finds a cell. -/
theorem ScreenInv.erase_fits {k : Kernel} (h : ScreenInv k) (response : UInt8) :
    EraseFits k (.key response) := by
  intro _ _ hsize
  have hbehind : Behind (line_size k) (k.terminal_array k.screen_terminal) := h.behind _
  obtain ⟨n, hn⟩ := Nat.exists_eq_succ_of_ne_zero (Nat.ne_of_gt hsize)
  rw [hn] at hbehind
  exact hbehind.not_atOrigin

/-- The bounds of all lines are kept by the keys that fit. -/
theorem KeysFit.keeps {k k' : Kernel} {op : ScreenOp} (hfits : KeysFit k op) (h : ScreenInv k)
    (hlines : LineBounds k) (hstep : screen_step k op = some k') : ScreenInv k' ∧ LineBounds k' := by
  have hkeys : ∀ response, op = .key response → KeyFits k (.key response) := by
    rintro response rfl
    exact hfits
  -- all steps but the output of a process are steps of the consoles
  have hconsole : ∀ op', KeyFits k op' → console_step k op' = some k' → LineBounds k' :=
    fun op' hfits' hstep' => hlines.step hfits' hstep'
  refine ⟨(h.step hlines hkeys hstep).1, ?_⟩
  cases op with
  | write buf nbytes =>
      exact Option.some.inj hstep ▸ hlines.draws (h.printing hlines buf nbytes).draws
  | key response => exact hconsole (.key response) hfits hstep
  | read_begin buf nbytes => exact hconsole (.read_begin buf nbytes) trivial hstep
  | read_end nbytes buf => exact hconsole (.read_end nbytes buf) trivial hstep
  | tick => exact hconsole .tick trivial hstep
  | switch_screen n => exact hconsole (.switch_screen n) trivial hstep

/-- So they hold in every state that such a run reaches. -/
theorem ScreenInv.run {k k' : Kernel} {ops : List ScreenOp} (h : ScreenInv k)
    (hlines : LineBounds k) (hfits : AllSteps screen_step KeysFit k ops)
    (hrun : Transition.run screen_step k ops = some k') : ScreenInv k' ∧ LineBounds k' := by
  have hall : AllStates screen_step (fun k => ScreenInv k ∧ LineBounds k) k ops :=
    allStates_of_allSteps (fun k => ScreenInv k ∧ LineBounds k)
      (fun k op k' hk hop hstep => hop.keeps hk.1 hk.2 hstep) (fun k hk => hk) ⟨h, hlines⟩ hfits
  exact hall.last hrun

/-- A step of another terminal, or of none, does not show on `t`. -/
theorem same_of_other {k k' : Kernel} {t : Terminal} {op : ScreenOp} (h : ScreenInv k)
    (hlines : LineBounds k) (hop : WhileEdited t k op) (hfits : KeysFit k op)
    (hkey : ∀ response, op = .key response → k.screen_terminal ≠ t)
    (hstep : screen_step k op = some k') : Same t k k' := by
  have hinv : ConsoleInv k := ⟨h.display, fun t => (h.behind t).1, hlines⟩
  have howner : ∀ {u : Terminal}, u ≠ t → some u ≠ some t :=
    fun hu heq => hu (Option.some.inj heq)
  have hconsole : ∀ op', ConsoleFits k op' → owner k op' ≠ some t →
      console_step k op' = some k' → Same t k k' :=
    fun op' hfits' howner' hstep' => same_of_not_owned hinv hfits' howner' hstep'
  cases op with
  | write buf nbytes =>
      have hcells : PAGE_CELLS = 2048 := rfl
      have hscreen : (NUM_ROWS : Int) * NUM_COLS = 2000 := rfl
      have hwrite := h.printing hlines buf nbytes
      have hnear : Local k.curr_terminal k (terminal_write buf nbytes k).2 := by
        refine ⟨hwrite.draws.curr_terminal, hwrite.draws.screen_terminal, hwrite.others,
          fun c hc => ?_⟩
        apply hwrite.video
        unfold OnPage
        rw [hscreen]
        omega
      exact Option.some.inj hstep ▸ hnear.same fun htc => hop htc.symm
  | key response =>
      have hother := howner (hkey response rfl)
      exact hconsole (.key response) ⟨hfits, h.erase_fits response⟩ hother hstep
  | read_begin buf nbytes =>
      exact hconsole (.read_begin buf nbytes) ⟨trivial, trivial⟩ (howner hop) hstep
  | read_end nbytes buf =>
      exact hconsole (.read_end nbytes buf) ⟨trivial, trivial⟩ (howner hop) hstep
  | tick => exact hconsole .tick ⟨trivial, trivial⟩ (by rintro ⟨⟩) hstep
  | switch_screen n => exact hconsole (.switch_screen n) ⟨trivial, trivial⟩ (by rintro ⟨⟩) hstep

/-- What holds between two steps while the line of `t` is edited. -/
structure Editing (t : Terminal) (k : Kernel) : Prop where
  screen : ScreenInv k
  lines : LineBounds k
  line : ∃ text, LineShown k t text

/-- **One step**, of the terminal itself or of another one. -/
theorem Editing.step {k k' : Kernel} {t : Terminal} {op : ScreenOp} (h : Editing t k)
    (hop : WhileEdited t k op) (hfits : KeysFit k op) (hstep : screen_step k op = some k') :
    Editing t k' := by
  obtain ⟨hscreen, hlines⟩ := hfits.keeps h.screen h.lines hstep
  obtain ⟨text, hline⟩ := h.line
  refine ⟨hscreen, hlines, ?_⟩
  by_cases hkey : ∃ response, op = .key response ∧ k.screen_terminal = t
  · obtain ⟨response, rfl, rfl⟩ := hkey
    exact Option.some.inj hstep ▸ hline.key h.screen h.lines hfits (hop rfl)
  · have hsame := same_of_other h.screen h.lines hop hfits
      (fun response hr ht => hkey ⟨response, hr, ht⟩) hstep
    exact ⟨text, hline.same hsame (h.screen.behind t) (h.lines.buffer_size t)⟩

/-! ## Runs -/

/-- The cells before the cursor of a terminal, as many as its line has bytes, are on the screen
and show the line. -/
def ShowsLine (t : Terminal) (k : Kernel) : Prop :=
  Behind (k.terminal_array t).buffer_size (k.terminal_array t) ∧
    ∀ i, i < (k.terminal_array t).buffer_size →
      shown k t (cursor_cell (k.terminal_array t) - (k.terminal_array t).buffer_size + i)
        = (k.terminal_array t).buffer i

theorem Editing.shows_line {k : Kernel} {t : Terminal} (h : Editing t k) : ShowsLine t k := by
  obtain ⟨text, hline⟩ := h.line
  refine ⟨h.screen.behind t, fun i hi => ?_⟩
  have hsize := hline.written.size
  rw [hsize] at hi ⊢
  rw [hline.displayed i hi, hline.written.get i hi]

/-- **Screen and line buffer agree while a line is edited**, wherever its reader has found the
cursor, in every run in which no key comes to a full line. -/
theorem line_shown {t : Terminal} {k : Kernel} {ops : List ScreenOp} (hscreen : ScreenInv k)
    (hlines : LineBounds k) (hread : ReadBegun (k.terminal_array t))
    (hops : AllSteps screen_step (WhileEdited t) k ops)
    (hfits : AllSteps screen_step KeysFit k ops) : AllStates screen_step (ShowsLine t) k ops := by
  have hstart : Editing t k := by
    refine ⟨hscreen, hlines, [], ⟨?_, .nil _ _, fun c hc => absurd hc List.not_mem_nil⟩⟩
    rw [hread.buffer_size]
    exact .nil _
  exact allStates_of_allSteps (Editing t) (fun k op k' hk hop hstep => hk.step hop.1 hop.2 hstep)
    (fun k hk => hk.shows_line) hstart (allSteps_and.mpr ⟨hops, hfits⟩)

/-- The shell of terminal 0 prints a prompt and reads. -/
def prompted : List ScreenOp :=
  [.tick, .write (some (c_str (ascii "> "))) 2, .read_begin demo_buf 128]

/-- Three keys of the line, and Ctrl-L after a switch to terminal 1, whose shell prints. -/
def edited_line : List ScreenOp :=
  [.key 97, .key 98, .key BACKSPACE_PRESSED, .switch_screen 1, .key 99, .tick,
    .write (some (c_str (ascii "> "))) 2, .switch_screen 0, .key CTL_L_CMD, .key 100]

/-- The line `ad` is shown from the first cell on. -/
theorem line_shown_demo : ∃ k, run screen_step demo prompted = some k ∧
    AllStates screen_step (ShowsLine 0) k edited_line ∧
    (run screen_step k edited_line).map (fun k => (shown k 0 0, shown k 0 1)) = some (97, 100) := by
  have hread : (run screen_step demo prompted).map (fun k => ((k.terminal_array 0).waitingInRead,
      (k.terminal_array 0).enter_flag, (k.terminal_array 0).buffer_size)) = some (1, 0, 0) := by
    decide +kernel
  obtain ⟨k, hk, hv⟩ := Option.map_eq_some_iff.mp hread
  simp only [Prod.mk.injEq] at hv
  have hsteps : (run screen_step demo prompted).map (fun k =>
      (decide (AllSteps screen_step (WhileEdited 0) k edited_line),
        decide (AllSteps screen_step KeysFit k edited_line),
        (run screen_step k edited_line).map fun k => (shown k 0 0, shown k 0 1)))
      = some (true, true, some (97, 100)) := by decide +kernel
  rw [hk, Option.map_some, Option.some.injEq] at hsteps
  simp only [Prod.mk.injEq, decide_eq_true_eq] at hsteps
  obtain ⟨hops, hfits, hlast⟩ := hsteps
  obtain ⟨hscreen, hlines⟩ := (screenInv_boot demo_started).run (lineBounds_boot demo_started)
    (by decide +kernel : AllSteps screen_step KeysFit demo prompted) hk
  exact ⟨k, hk, line_shown hscreen hlines ⟨hv.1, hv.2.1, hv.2.2⟩ hops hfits, hlast⟩

/-- The shells of terminals 0 and 1 read, and terminal 1 is put on display. -/
def both_read : List ScreenOp :=
  [.tick, .read_begin demo_buf 128, .tick, .read_begin demo_buf 128, .switch_screen 1]

/-- A key for terminal 1, and a full line on terminal 0 with backspaces and a key behind it. -/
def overrun_line : List ScreenOp :=
  [.key 98, .switch_screen 0] ++ (List.replicate 127 (.key 97) ++ [.key ENTER_KEY]) ++
    (List.replicate 84 (.key BACKSPACE_PRESSED) ++ [.key 99])

/-- The last key is stored in the line of terminal 1, whose screen keeps its `b`. -/
theorem line_not_shown : Started demo_env demo ∧ ∃ k, run screen_step demo both_read = some k ∧
    ScreenInv k ∧ LineBounds k ∧ ReadBegun (k.terminal_array 1) ∧
    AllSteps screen_step (WhileEdited 1) k overrun_line ∧
    ¬ AllStates screen_step (ShowsLine 1) k overrun_line := by
  have hread : (run screen_step demo both_read).map (fun k => ((k.terminal_array 1).waitingInRead,
      (k.terminal_array 1).enter_flag, (k.terminal_array 1).buffer_size)) = some (1, 0, 0) := by
    decide +kernel
  obtain ⟨k, hk, hv⟩ := Option.map_eq_some_iff.mp hread
  simp only [Prod.mk.injEq] at hv
  have hsteps : (run screen_step demo both_read).map (fun k =>
      (decide (AllSteps screen_step (WhileEdited 1) k overrun_line),
        (run screen_step k overrun_line).map fun k => ((k.terminal_array 1).buffer_size,
          cursor_cell (k.terminal_array 1), shown k 1 0, (k.terminal_array 1).buffer 0)))
      = some (true, some (1, 1, 98, 99)) := by decide +kernel
  rw [hk, Option.map_some, Option.some.injEq] at hsteps
  simp only [Prod.mk.injEq, decide_eq_true_eq] at hsteps
  obtain ⟨hops, hlast⟩ := hsteps
  obtain ⟨hscreen, hlines⟩ := (screenInv_boot demo_started).run (lineBounds_boot demo_started)
    (by decide +kernel : AllSteps screen_step KeysFit demo both_read) hk
  refine ⟨demo_started, k, hk, hscreen, hlines, ⟨hv.1, hv.2.1, hv.2.2⟩, hops, fun hall => ?_⟩
  obtain ⟨k', hk', hend⟩ := Option.map_eq_some_iff.mp hlast
  simp only [Prod.mk.injEq] at hend
  obtain ⟨hone, hcell, hkept, hbyte⟩ := hend
  have hshows := (hall.last hk').2 0 (by rw [hone]; decide)
  rw [hone, hcell, hbyte] at hshows
  exact absurd (hkept.symm.trans hshows) (by decide)

end LinuxLikeOS
