/-
Where the consoles draw, and the cursor.

`putc` and `clear` keep a position on the screen by themselves. `erase_char` steps back
without a look at the first row, and what holds it there is the line: a terminal whose line
has `n` bytes has at least `n` cells between the first one and its cursor (`Behind`). Every
byte of the line has moved the cursor on by a cell or more, a scroll leaves it in the last
row, and Ctrl-L prints the line again from the first cell. So a backspace that finds a line
finds a cell.

The drawing routines then store on the 25 rows of the page they have picked. A screen switch
copies pages of 2048 cells, 48 more than a screen has.
-/
import LinuxLikeOS.Keys
import LinuxLikeOS.LineInput

set_option autoImplicit false

namespace LinuxLikeOS

open Kernel Transition

/-! ## The machine -/

/-- The steps of the screens. The processes write and read on the scheduled terminal, keys
go to the one on display. -/
inductive ScreenOp
  | write (buf : Option (ℕ → UInt8)) (nbytes : Int)
  | key (response : UInt8)
  | read_begin (buf : ℕ) (nbytes : Int)
  | read_end (nbytes : Int) (buf : ℕ → UInt8)
  | tick
  | switch_screen (t : Terminal)

def screen_step (k : Kernel) : ScreenOp → Option Kernel
  | .write buf nbytes => some (terminal_write buf nbytes k).2
  | .key response => some (edit_buffer response k)
  | .read_begin buf nbytes => some (terminal_read_begin buf nbytes k).2
  | .read_end nbytes buf => if line_ready k then some (terminal_read_end nbytes buf k).2.2 else none
  | .tick => some { k with curr_terminal := next_terminal k.curr_terminal }
  | .switch_screen t => some (switch_screen t k)

/-- A timer interrupt is the one of the consoles (`perform_tick_consoles`). -/
theorem screen_step_tick (k : Kernel) : screen_step k .tick = console_step k .tick := rfl

/-! ## Cells before the cursor -/

/-- The position is on the screen, and at least `n` cells of it lie before the cursor. -/
def Behind (n : ℕ) (ti : terminal_info_t) : Prop := InScreen ti ∧ (n : Int) ≤ cursor_cell ti

theorem Behind.mono {n m : ℕ} {ti : terminal_info_t} (h : Behind n ti) (hm : m ≤ n) :
    Behind m ti := ⟨h.1, Int.le_trans (Int.ofNat_le.mpr hm) h.2⟩

/-- Another terminal at the same position. -/
theorem Behind.congr {n : ℕ} {ti ti' : terminal_info_t} (h : Behind n ti)
    (hx : ti'.screen_x = ti.screen_x) (hy : ti'.screen_y = ti.screen_y) : Behind n ti' := by
  unfold Behind InScreen cursor_cell at *
  rw [hx, hy]
  exact h

/-- With a cell before it the cursor is not on the first one. -/
theorem Behind.not_atOrigin {n : ℕ} {ti : terminal_info_t} (h : Behind (n + 1) ti) :
    ¬ AtOrigin ti := by
  intro h₀
  have hcell := h.2
  simp only [cursor_cell, h₀.1, h₀.2] at hcell
  omega

/-- A byte that is printed moves the cursor on. -/
theorem behind_putc {n : ℕ} {ti : terminal_info_t} (c : UInt8) (h : Behind n ti)
    (hn : n ≤ MAX_BUF_SIZE) :
    Behind (n + 1) (at_position (scrolled (stored c ti.screen_x ti.screen_y)) ti) := by
  have hcols : (NUM_COLS : Int) = 80 := rfl
  have hrows : (NUM_ROWS : Int) = 25 := rfl
  have hmax : MAX_BUF_SIZE = 128 := rfl
  refine ⟨scrolled_stored_range c h.1, ?_⟩
  unfold Behind InScreen cursor_cell at h
  unfold cursor_cell at_position scrolled stored
  rw [hcols, hrows] at h ⊢
  dsimp only
  split
  · -- a line break
    dsimp only
    split <;> dsimp only <;> omega
  · split
    · dsimp only
      split <;> dsimp only <;> omega
    · dsimp only
      split <;> dsimp only <;> omega

/-- A backspace takes one cell back. -/
theorem behind_erase {n : ℕ} {ti : terminal_info_t} (h : Behind (n + 1) ti) :
    Behind n (at_position (stepped_back ti.screen_x ti.screen_y) ti) := by
  refine ⟨stepped_back_range h.1 h.not_atOrigin, ?_⟩
  simp only [Behind, InScreen, cursor_cell, NUM_COLS, NUM_ROWS] at h
  simp only [cursor_cell, at_position, stepped_back, NUM_COLS]
  split <;> dsimp only <;> omega

theorem behind_origin {ti : terminal_info_t} : Behind 0 (at_position (0, 0) ti) :=
  ⟨AtOrigin.in_screen ⟨rfl, rfl⟩, Int.le_refl 0⟩

/-! ## The cursor registers -/

/-- The registers hold the position of the terminal on display, as `move_cursor` writes it. -/
def CursorMoved (k : Kernel) : Prop := (move_cursor k).cursor = k.cursor

theorem cursorMoved_putc (c : UInt8) (k : Kernel) : CursorMoved (putc c k) := rfl

theorem cursorMoved_clear (k : Kernel) : CursorMoved (clear k) := rfl

theorem cursorMoved_erase_char (k : Kernel) : CursorMoved (erase_char k) := rfl

theorem cursorMoved_switch_screen (t : Terminal) (k : Kernel) : CursorMoved (switch_screen t k) := rfl

/-- It stays as long as the position of the terminal on display does. -/
theorem CursorMoved.congr {k k' : Kernel} (h : CursorMoved k) (hcursor : k'.cursor = k.cursor)
    (hx : (k'.terminal_array k'.screen_terminal).screen_x
      = (k.terminal_array k.screen_terminal).screen_x)
    (hy : (k'.terminal_array k'.screen_terminal).screen_y
      = (k.terminal_array k.screen_terminal).screen_y) : CursorMoved k' := by
  unfold CursorMoved move_cursor at *
  rw [hcursor, ← h]
  dsimp only
  rw [hx, hy]

/-- On the screen the position fits the registers. -/
theorem CursorMoved.cell {k : Kernel} (h : CursorMoved k)
    (hpos : InScreen (k.terminal_array k.screen_terminal)) :
    (k.cursor : Int) = cursor_cell (k.terminal_array k.screen_terminal) := by
  simp only [InScreen, NUM_COLS, NUM_ROWS] at hpos
  simp only [CursorMoved, move_cursor, u32, NUM_COLS] at h
  simp only [cursor_cell, NUM_COLS]
  omega

/-! ## The cells that are stored to -/

/-- The cells of the screen of a page. -/
def OnPage (page c : Int) : Prop := page ≤ c ∧ c < page + NUM_ROWS * NUM_COLS

theorem putc_video {c : UInt8} {k : Kernel} (h : InScreen (k.terminal_array (draw_terminal k)))
    {x : Int} (hx : ¬ OnPage (page_of k (draw_terminal k)) x) : (putc c k).video x = k.video x := by
  unfold OnPage at hx
  rw [(putc_eq c k).2.1]
  apply drawn_outside h
  omega

theorem erase_char_outside {n : ℕ} {k : Kernel}
    (h : Behind (n + 1) (k.terminal_array k.screen_terminal)) {x : Int} (hx : ¬ OnPage 0 x) :
    (erase_char k).video x = k.video x := by
  have hcell : Behind n (at_position (erased k) _) := behind_erase h
  simp only [Behind, InScreen, at_position, NUM_COLS, NUM_ROWS] at hcell
  simp only [OnPage, NUM_COLS, NUM_ROWS] at hx
  rw [erase_char_video]
  apply Function.update_of_ne
  simp only [NUM_COLS]
  omega

/-! ## A key under way -/

/-- A key has come to the terminal on display in `k₀`: no other terminal has changed, the
display only on the screen of its page, and `n` cells lie before the cursor. -/
structure Keying (k₀ k : Kernel) (n : ℕ) : Prop where
  screen_terminal : k.screen_terminal = k₀.screen_terminal
  others : ∀ t, t ≠ k₀.screen_terminal → k.terminal_array t = k₀.terminal_array t
  behind : Behind n (k.terminal_array k.screen_terminal)
  cursor : CursorMoved k
  display : k.DISPLAY_ON_MAIN_PAGE = 0
  video : ∀ c, ¬ OnPage 0 c → k.video c = k₀.video c

namespace Keying

variable {k₀ k : Kernel} {n m : ℕ}

theorem mono (h : Keying k₀ k n) (hm : m ≤ n) : Keying k₀ k m :=
  { h with behind := h.behind.mono hm }

theorem set_terminal (h : Keying k₀ k n) {f : terminal_info_t → terminal_info_t}
    (hx : ∀ ti, (f ti).screen_x = ti.screen_x) (hy : ∀ ti, (f ti).screen_y = ti.screen_y) :
    Keying k₀ (k.set_terminal k.screen_terminal f) n where
  screen_terminal := h.screen_terminal
  others t ht := by
    rw [set_terminal_apply, if_neg (fun hts => ht (hts.trans h.screen_terminal))]
    exact h.others t ht
  behind := by
    show Behind n ((k.set_terminal k.screen_terminal f).terminal_array k.screen_terminal)
    rw [set_terminal_apply, if_pos rfl]
    exact h.behind.congr (hx _) (hy _)
  cursor := by
    have hself : (k.set_terminal k.screen_terminal f).terminal_array k.screen_terminal
        = f (k.terminal_array k.screen_terminal) := by rw [set_terminal_apply, if_pos rfl]
    exact h.cursor.congr (by rfl) ((congrArg _ hself).trans (hx _)) ((congrArg _ hself).trans (hy _))
  display := h.display
  video := h.video

theorem grow_line (h : Keying k₀ k n) : Keying k₀ (grow_line k) n := by
  unfold LinuxLikeOS.grow_line
  exact h.set_terminal (fun _ => rfl) (fun _ => rfl)

theorem shrink_line (h : Keying k₀ k n) : Keying k₀ (shrink_line k) n := by
  unfold LinuxLikeOS.shrink_line
  exact h.set_terminal (fun _ => rfl) (fun _ => rfl)

theorem store_at_end (h : Keying k₀ k n) (v : UInt8) (hn : line_size k < MAX_BUF_SIZE) :
    Keying k₀ (store_at_end v k) n := by
  have hset := h.set_terminal (f := put_at_end v) (fun _ => rfl) (fun _ => rfl)
  rw [store_at_end_eq v hn]
  exact ⟨hset.1, hset.2, hset.3, hset.4, hset.5, hset.6⟩

theorem echo (h : Keying k₀ k n) (c : UInt8) (hn : n ≤ MAX_BUF_SIZE) :
    Keying k₀ (echo c k) (n + 1) := by
  have hdraw : draw_terminal { k with DISPLAY_ON_MAIN_PAGE := 1 } = k.screen_terminal :=
    draw_terminal_of_on rfl
  have hscreen : (LinuxLikeOS.echo c k).screen_terminal = k.screen_terminal :=
    (draws_echo c k).screen_terminal
  have hterm : ∀ u, (LinuxLikeOS.echo c k).terminal_array u
      = if u = k.screen_terminal then
          at_position (scrolled (stored c (k.terminal_array u).screen_x
            (k.terminal_array u).screen_y)) (k.terminal_array u)
        else k.terminal_array u := by
    intro u
    unfold LinuxLikeOS.echo
    rw [putc_terminal, hdraw]
  refine ⟨hscreen.trans h.screen_terminal, fun t ht => ?_, ?_, cursorMoved_putc _ _,
    (putc_eq c _).2.2, fun x hx => ?_⟩
  · rw [hterm, if_neg (fun hts => ht (hts.trans h.screen_terminal))]
    exact h.others t ht
  · rw [hscreen, hterm, if_pos rfl]
    exact behind_putc c h.behind hn
  · unfold LinuxLikeOS.echo
    rw [putc_video]
    · exact h.video x hx
    · rw [hdraw]
      exact h.behind.1
    · rw [hdraw]
      show ¬ OnPage (page_of k k.screen_terminal) x
      rwa [page_of_screen]

theorem clear (h : Keying k₀ k n) :
    Keying k₀ (clear { k with DISPLAY_ON_MAIN_PAGE := 1 }) 0 := by
  have hdraw : draw_terminal { k with DISPLAY_ON_MAIN_PAGE := 1 } = k.screen_terminal :=
    draw_terminal_of_on rfl
  have hscreen : (LinuxLikeOS.clear { k with DISPLAY_ON_MAIN_PAGE := 1 }).screen_terminal
      = k.screen_terminal := (draws_clear _).screen_terminal
  refine ⟨hscreen.trans h.screen_terminal, fun t ht => ?_, ?_, cursorMoved_clear _,
    draw_flags_display _, fun x hx => ?_⟩
  · rw [clear_terminal, hdraw, if_neg (fun hts => ht (hts.trans h.screen_terminal))]
    exact h.others t ht
  · rw [hscreen, clear_terminal, hdraw, if_pos rfl]
    exact behind_origin
  · rw [clear_video, hdraw]
    show (if page_of k k.screen_terminal ≤ x ∧ x < page_of k k.screen_terminal +
      NUM_ROWS * NUM_COLS then _ else k.video x) = _
    rw [page_of_screen]
    exact (if_neg hx).trans (h.video x hx)

theorem erase_char (h : Keying k₀ k (n + 1)) : Keying k₀ (erase_char k) n := by
  have hscreen : (LinuxLikeOS.erase_char k).screen_terminal = k.screen_terminal :=
    (draws_erase_char k).screen_terminal
  refine ⟨hscreen.trans h.screen_terminal, fun t ht => ?_, ?_, cursorMoved_erase_char k, ?_,
    fun x hx => ?_⟩
  · rw [erase_char_terminal, if_neg (fun hts => ht (hts.trans h.screen_terminal))]
    exact h.others t ht
  · rw [hscreen, erase_char_terminal, if_pos rfl]
    exact behind_erase h.behind
  · rw [erase_char_eq]
    exact h.display
  · rw [erase_char_outside h.behind hx]
    exact h.video x hx

theorem enter_line (h : Keying k₀ k n) (hn : n ≤ MAX_BUF_SIZE) (hsize : line_size k < MAX_BUF_SIZE) :
    Keying k₀ (enter_line k) (n + 1) := by
  have hecho := (h.store_at_end END_OF_LINE hsize).echo END_OF_LINE hn
  have hflag := hecho.set_terminal (f := fun ti => { ti with enter_flag := 1 })
    (fun _ => rfl) (fun _ => rfl)
  exact hflag.grow_line

theorem add_char (h : Keying k₀ k n) (c : UInt8) (hn : n ≤ MAX_BUF_SIZE)
    (hsize : line_size k < MAX_BUF_SIZE) : Keying k₀ (add_char c k) (n + 1) :=
  ((h.store_at_end c hsize).echo c hn).grow_line

/-- A backspace goes one cell back when the line has a byte. -/
theorem delete_char (h : Keying k₀ k (line_size k)) (hsize : line_size k < MAX_BUF_SIZE) :
    Keying k₀ (delete_char k) (line_size k - 1) := by
  apply delete_char_rule (Q := fun k₁ => Keying k₀ k₁ (line_size k - 1))
  · intro hpos
    have hcell : line_size k - 1 + 1 = line_size k := Nat.succ_pred (Nat.ne_of_gt hpos)
    have herase : Keying k₀ (LinuxLikeOS.erase_char k) (line_size k - 1) :=
      erase_char (by rwa [hcell])
    have hstore := herase.store_at_end 0 (by rw [(draws_erase_char k).line.1]; exact hsize)
    exact hstore.shrink_line
  · exact fun _ => h.mono (Nat.sub_le _ _)
  · intro k₁ h₁ hempty
    exact h₁.store_at_end 0 (by omega)

/-- Ctrl-L starts on the first cell and moves on with each byte of the line. -/
theorem redraw_line (h : Keying k₀ k n) (hsize : line_size k ≤ MAX_BUF_SIZE) :
    Keying k₀ (redraw_line k) (line_size k) := by
  apply redraw_line_rule (Q := fun i k₁ => Keying k₀ k₁ i) h.clear
  intro i k₁ hi h₁
  have haccess : Keying k₀ { k₁ with line_accesses := i :: k₁.line_accesses } i :=
    ⟨h₁.1, h₁.2, h₁.3, h₁.4, h₁.5, h₁.6⟩
  exact haccess.echo _ (Nat.le_trans (Nat.le_of_lt hi) hsize)

/-- **A key keeps a cell before the cursor for each byte it leaves in the line.** -/
theorem edit_buffer {response : UInt8} {b : KeyBranch} (h : Keying k₀ k (line_size k))
    (hn : line_size k ≤ MAX_BUF_SIZE) (hfits : KeyFits k (.key response))
    (hcase : KeyCase response (k.terminal_array k.screen_terminal) b) :
    Keying k₀ (edit_buffer response k)
      (b.on_line response (k.terminal_array k.screen_terminal)).buffer_size := by
  have hlt := line_lt_of_fits hn hfits
  rw [edit_buffer_eq hcase]
  cases hcase with
  | redraw => exact h.redraw_line hn
  | idle => exact h
  | full => exact h
  | enter taken => exact h.enter_line hn (hlt taken)
  | delete taken =>
      have hdelete := h.delete_char (hlt taken)
      show Keying k₀ (LinuxLikeOS.delete_char k)
        (shortened (k.terminal_array k.screen_terminal)).buffer_size
      rw [shortened_buffer_size]
      exact hdelete
  | add taken => exact h.add_char response hn (hlt taken)

end Keying

/-! ## Output -/

/-- The processes print on the scheduled terminal: no other terminal changes, the display only
on the screen of its page, and no fewer cells lie before its cursor. -/
structure Printing (k₀ k : Kernel) : Prop where
  draws : Draws k₀ k
  others : ∀ t, t ≠ k₀.curr_terminal → k.terminal_array t = k₀.terminal_array t
  behind : Behind (k.terminal_array k.curr_terminal).buffer_size (k.terminal_array k.curr_terminal)
  cursor : CursorMoved k
  display : k.DISPLAY_ON_MAIN_PAGE = 0
  video : ∀ c, ¬ OnPage (page_of k₀ k₀.curr_terminal) c → k.video c = k₀.video c

theorem Printing.putc {k₀ k : Kernel} (h : Printing k₀ k) (c : UInt8)
    (hn : (k.terminal_array k.curr_terminal).buffer_size ≤ MAX_BUF_SIZE) :
    Printing k₀ (putc c k) := by
  have hdraw : draw_terminal k = k.curr_terminal := draw_terminal_of_off h.display
  have hcurr : (LinuxLikeOS.putc c k).curr_terminal = k.curr_terminal := (draws_putc c k).curr_terminal
  refine ⟨h.draws.trans (draws_putc c k), fun t ht => ?_, ?_, cursorMoved_putc c k,
    (putc_eq c k).2.2, fun x hx => ?_⟩
  · rw [putc_terminal, hdraw, if_neg (fun htc => ht (htc.trans h.draws.curr_terminal))]
    exact h.others t ht
  · rw [hcurr, putc_terminal, hdraw, if_pos rfl]
    exact (behind_putc c h.behind hn).mono (Nat.le_succ _)
  · rw [putc_video]
    · exact h.video x hx
    · rw [hdraw]
      exact h.behind.1
    · rw [hdraw, h.draws.curr_terminal, page_of_congr h.draws.screen_terminal]
      exact hx

theorem Printing.terminal_write {k : Kernel} (h : Printing k k)
    (hn : (k.terminal_array k.curr_terminal).buffer_size ≤ MAX_BUF_SIZE)
    (buf : Option (ℕ → UInt8)) (nbytes : Int) : Printing k (terminal_write buf nbytes k).2 := by
  unfold LinuxLikeOS.terminal_write
  split
  · exact h
  · rename_i bytes
    split
    · exact h
    · apply for_loop_invariant (fun _ (s : Int × Kernel) => Printing k s.2) h
      intro i s hi hs
      unfold write_char
      split
      · apply hs.putc
        -- printing leaves the line of the terminal alone
        rcases hs.draws.terminal k.curr_terminal with ⟨x, y, hxy⟩
        rw [hs.draws.curr_terminal, hxy]
        exact hn
      · exact hs

/-! ## Steps -/

/-- Every terminal has a cell before its cursor for each byte of its line, and the registers
hold the position of the one on display. -/
structure ScreenInv (k : Kernel) : Prop where
  behind : ∀ t, Behind (k.terminal_array t).buffer_size (k.terminal_array t)
  cursor : CursorMoved k
  display : k.DISPLAY_ON_MAIN_PAGE = 0

/-- The cells an operation stores to: the screen of the page it draws on, and `n` cells of
the two pages a screen switch copies to. -/
def stored_cells (n : Int) (k : Kernel) : ScreenOp → Int → Prop
  | .write _ _, c => OnPage (page_of k k.curr_terminal) c
  | .key _, c => OnPage 0 c
  | .switch_screen _, c =>
      (backup_page k.screen_terminal ≤ c ∧ c < backup_page k.screen_terminal + n) ∨
        (0 ≤ c ∧ c < n)
  | .read_begin _ _, _ | .read_end _ _, _ | .tick, _ => False

theorem switch_screen_outside {k : Kernel} {t : Terminal} {c : Int}
    (hc : ¬ stored_cells PAGE_CELLS k (.switch_screen t) c) :
    (switch_screen t k).video c = k.video c := by
  unfold stored_cells at hc
  rw [not_or] at hc
  show copy_page 0 (backup_page t) (copy_page (backup_page k.screen_terminal) 0 k.video) c = _
  have hshow : ¬ (0 ≤ c ∧ c < 0 + PAGE_CELLS) := by
    rw [Int.zero_add]
    exact hc.2
  unfold copy_page
  rw [if_neg hshow, if_neg hc.1]

namespace ScreenInv

variable {k k' : Kernel}

/-- A change of one terminal that keeps its position and its line in bounds. -/
theorem set_terminal (h : ScreenInv k) {t : Terminal} {f : terminal_info_t → terminal_info_t}
    (hx : ∀ ti, (f ti).screen_x = ti.screen_x) (hy : ∀ ti, (f ti).screen_y = ti.screen_y)
    (hsize : ∀ ti, (f ti).buffer_size ≤ ti.buffer_size) : ScreenInv (k.set_terminal t f) := by
  have hpos : ∀ u, ((k.set_terminal t f).terminal_array u).screen_x = (k.terminal_array u).screen_x ∧
      ((k.set_terminal t f).terminal_array u).screen_y = (k.terminal_array u).screen_y ∧
      ((k.set_terminal t f).terminal_array u).buffer_size ≤ (k.terminal_array u).buffer_size := by
    intro u
    rw [set_terminal_apply]
    split
    · rename_i hu
      rw [hu]
      exact ⟨hx _, hy _, hsize _⟩
    · exact ⟨rfl, rfl, Nat.le_refl _⟩
  exact ⟨fun u => ((h.behind u).mono (hpos u).2.2).congr (hpos u).1 (hpos u).2.1,
    h.cursor.congr (by rfl) (hpos _).1 (hpos _).2.1, h.display⟩

/-- A process prints. -/
theorem printing (h : ScreenInv k) (hlines : LineBounds k) (buf : Option (ℕ → UInt8))
    (nbytes : Int) : Printing k (terminal_write buf nbytes k).2 := by
  have hstart : Printing k k :=
    ⟨.refl k, fun _ _ => rfl, h.behind _, h.cursor, h.display, fun _ _ => rfl⟩
  exact hstart.terminal_write (hlines.buffer_size _) buf nbytes

/-- A key comes. -/
theorem keying (h : ScreenInv k) : Keying k k (line_size k) :=
  ⟨rfl, fun _ _ => rfl, h.behind _, h.cursor, h.display, fun _ _ => rfl⟩

theorem terminal_write (h : ScreenInv k) (hlines : LineBounds k) (buf : Option (ℕ → UInt8))
    (nbytes : Int) : ScreenInv (terminal_write buf nbytes k).2 ∧
      ∀ c, ¬ stored_cells PAGE_CELLS k (.write buf nbytes) c →
        (LinuxLikeOS.terminal_write buf nbytes k).2.video c = k.video c := by
  have hwrite := h.printing hlines buf nbytes
  refine ⟨⟨fun t => ?_, hwrite.cursor, hwrite.display⟩, hwrite.video⟩
  by_cases ht : t = k.curr_terminal
  · rw [ht, ← hwrite.draws.curr_terminal]
    exact hwrite.behind
  · rw [hwrite.others t ht]
    exact h.behind t

theorem edit_buffer (h : ScreenInv k) (hlines : LineBounds k) {response : UInt8}
    (hfits : KeyFits k (.key response)) : ScreenInv (edit_buffer response k) ∧
      ∀ c, ¬ stored_cells PAGE_CELLS k (.key response) c →
        (LinuxLikeOS.edit_buffer response k).video c = k.video c := by
  obtain ⟨b, hcase⟩ := exists_keyCase response (k.terminal_array k.screen_terminal)
  have hkey := h.keying.edit_buffer hlines.line_le hfits hcase
  refine ⟨⟨fun t => ?_, hkey.cursor, hkey.display⟩, hkey.video⟩
  by_cases ht : t = k.screen_terminal
  · -- the branch says how long the line is now
    obtain ⟨p, hp⟩ := (edit_buffer_edits hlines.line_le hfits hcase).terminal t
    rw [if_pos ht] at hp
    have hsize : ((LinuxLikeOS.edit_buffer response k).terminal_array t).buffer_size
        = (b.on_line response (k.terminal_array k.screen_terminal)).buffer_size := by
      rw [hp, ht]
      rfl
    have hbehind := hkey.behind
    rw [hkey.screen_terminal] at hbehind
    rw [hsize, ht]
    exact hbehind
  · rw [hkey.others t ht]
    exact h.behind t

theorem step (h : ScreenInv k) (hlines : LineBounds k) {op : ScreenOp}
    (hfits : ∀ response, op = .key response → KeyFits k (.key response))
    (hstep : screen_step k op = some k') : ScreenInv k' ∧
      ∀ c, ¬ stored_cells PAGE_CELLS k op c → k'.video c = k.video c := by
  cases op with
  | write buf nbytes =>
      rw [screen_step, Option.some.injEq] at hstep
      exact hstep ▸ h.terminal_write hlines buf nbytes
  | key response =>
      rw [screen_step, Option.some.injEq] at hstep
      exact hstep ▸ h.edit_buffer hlines (hfits response rfl)
  | read_begin buf nbytes =>
      rw [screen_step, Option.some.injEq] at hstep
      subst hstep
      rcases terminal_read_begin_cases buf nbytes k with ⟨-, hread⟩ | ⟨-, hread⟩
      · rw [hread]
        exact ⟨h, fun _ _ => rfl⟩
      · rw [hread]
        refine ⟨?_, fun _ _ => rfl⟩
        dsimp only
        apply h.set_terminal
        · exact fun _ => rfl
        · exact fun _ => rfl
        · exact fun _ => Nat.le_refl _
  | read_end nbytes buf =>
      rw [screen_step] at hstep
      split at hstep
      · rw [Option.some.injEq] at hstep
        subst hstep
        unfold terminal_read_end
        extract_lets t ti true_bytes r buf' k₁
        have hk₁ : ScreenInv k₁ := ⟨h.behind, h.cursor, h.display⟩
        refine ⟨?_, fun _ _ => rfl⟩
        dsimp only
        apply hk₁.set_terminal
        · exact fun _ => rfl
        · exact fun _ => rfl
        · exact fun _ => Nat.zero_le _
      · cases hstep
  | tick =>
      rw [screen_step, Option.some.injEq] at hstep
      subst hstep
      exact ⟨⟨h.behind, h.cursor, h.display⟩, fun _ _ => rfl⟩
  | switch_screen t =>
      rw [screen_step, Option.some.injEq] at hstep
      subst hstep
      exact ⟨⟨h.behind, cursorMoved_switch_screen t k, h.display⟩, fun c => switch_screen_outside⟩

end ScreenInv

/-! ## The start -/

theorem Started.cursor_moved {env : Env} {k : Kernel} (h : Started env k) : CursorMoved k := by
  refine h.invariant (fun memory => rfl) (fun fr k hk => ?_) (fun fr k k' hk hexec => ?_)
  · have hterm : ∀ u, ((open_terminal (preempt fr k)).terminal_array u).screen_x
          = ((clear (preempt fr k)).terminal_array u).screen_x ∧
        ((open_terminal (preempt fr k)).terminal_array u).screen_y
          = ((clear (preempt fr k)).terminal_array u).screen_y := by
      intro u
      unfold open_terminal
      rw [set_terminal_apply]
      split
      · rename_i hu
        rw [hu]
        exact ⟨rfl, rfl⟩
      · exact ⟨rfl, rfl⟩
    exact (cursorMoved_clear (preempt fr k)).congr (by rfl) (hterm _).1 (hterm _).2
  · obtain ⟨pid, eip, -, rfl⟩ := new_process_execute hexec
    generalize hclaim : claim_slot pid { k with
      kernel_mem := execute_mem env (some (ascii "shell")) k.kernel_mem } = claimed
    have hk' : CursorMoved claimed := hclaim ▸ hk
    obtain ⟨hcursor, hscreen⟩ := create_process_display pid env.link.empty_string eip fr claimed
    obtain ⟨p, esp0, ss0, hterm⟩ := create_process_terminal pid env.link.empty_string eip fr claimed
      claimed.screen_terminal
    exact hk'.congr hcursor (by rw [hscreen, hterm]) (by rw [hscreen, hterm])

theorem screenInv_boot {env : Env} {k : Kernel} (h : Started env k) : ScreenInv k where
  behind t := by
    rw [h.booted.buffer_size]
    have horigin : AtOrigin (k.terminal_array t) := ⟨h.booted.screen_x t, h.booted.screen_y t⟩
    refine ⟨horigin.in_screen, ?_⟩
    unfold cursor_cell
    rw [horigin.1, horigin.2]
    decide
  cursor := h.cursor_moved
  display := h.booted.DISPLAY_ON_MAIN_PAGE

/-! ## Runs -/

/-- Every position is on the screen, and the cursor registers hold the one on display. -/
def OnScreen (k : Kernel) : Prop :=
  (∀ t, InScreen (k.terminal_array t)) ∧
    (k.cursor : Int) = cursor_cell (k.terminal_array k.screen_terminal)

/-- Whatever video memory holds, an operation stores to the cells it may store to only. -/
def StoresOnPage (n : Int) (k : Kernel) (op : ScreenOp) : Prop :=
  ∀ video k', screen_step { k with video := video } op = some k' →
    ∀ c, ¬ stored_cells n k op c → k'.video c = video c

theorem ScreenInv.on_screen {k : Kernel} (h : ScreenInv k) : OnScreen k :=
  ⟨fun t => (h.behind t).1, h.cursor.cell (h.behind _).1⟩

/-- A key fits the line when the bounds hold behind it. -/
theorem keyFits_of_lineBounds {k : Kernel} {op : ScreenOp}
    (h : LineBounds k ∧ ∀ k', screen_step k op = some k' → LineBounds k') (response : UInt8)
    (hop : op = .key response) : KeyFits k (.key response) := by
  subst hop
  exact (lineBounds_step h.1 rfl).mp (h.2 _ rfl)

theorem ScreenInv.stores {k : Kernel} {op : ScreenOp} (h : ScreenInv k)
    (hlines : LineBounds k ∧ ∀ k', screen_step k op = some k' → LineBounds k') :
    StoresOnPage PAGE_CELLS k op := by
  intro video k' hstep c hc
  -- neither the invariant nor the choice of a page looks at video memory
  have hk : ScreenInv { k with video := video } := ⟨h.behind, h.cursor, h.display⟩
  have hb : LineBounds { k with video := video } := ⟨hlines.1.accesses, hlines.1.buffer_size⟩
  have hcells : ¬ stored_cells PAGE_CELLS { k with video := video } op c := by
    cases op <;> exact hc
  have hfits : ∀ response, op = .key response → KeyFits k (.key response) :=
    keyFits_of_lineBounds hlines
  exact (hk.step hb hfits hstep).2 c hcells

/-- **The consoles stay on the screen.** In every run in which the lines stay within their
buffers, every position is one of the 25 rows of 80 columns, the cursor registers hold the
position of the terminal on display, and nothing is stored behind the screen of a page but by
a screen switch, which copies whole pages. -/
theorem screen_bounds {env : Env} {k : Kernel} {ops : List ScreenOp} (hstart : Started env k)
    (hlines : AllStates screen_step LineBounds k ops) :
    AllStates screen_step OnScreen k ops ∧
      AllSteps screen_step (StoresOnPage PAGE_CELLS) k ops := by
  have hboot := screenInv_boot hstart
  have hsteps := hlines.allSteps
  refine ⟨allStates_of_allSteps ScreenInv (fun k op k' hk hb hstep => ?_)
    (fun k hk => hk.on_screen) hboot hsteps,
    hsteps.mono ScreenInv (fun k op k' hk hb hstep => ?_) (fun k op hk hb => hk.stores hb) hboot⟩
  · exact (hk.step hb.1 (keyFits_of_lineBounds hb) hstep).1
  · exact (hk.step hb.1 (keyFits_of_lineBounds hb) hstep).1

instance (k : Kernel) : Decidable (LineBounds k) :=
  decidable_of_iff ((∀ i, i ∈ k.line_accesses → i < MAX_BUF_SIZE) ∧
      ∀ t, (k.terminal_array t).buffer_size ≤ MAX_BUF_SIZE)
    ⟨fun h => ⟨h.1, h.2⟩, fun h => ⟨h.accesses, h.buffer_size⟩⟩

/-- A prompt, a character taken back, a switch in the middle of the line, and its ENTER. -/
def screen_session : List ScreenOp :=
  [.tick, .write (some (c_str (ascii "> "))) 2, .read_begin demo_buf 128, .key 97, .key BACKSPACE_PRESSED,
    .key BACKSPACE_PRESSED, .key CTL_L_CMD, .switch_screen 2, .key 98, .switch_screen 0,
    .key ENTER_KEY, .read_end 128 fun _ => 0]

theorem screen_bounds_demo :
    AllStates screen_step OnScreen demo screen_session ∧
      AllSteps screen_step (StoresOnPage PAGE_CELLS) demo screen_session ∧
      (run screen_step demo screen_session).map (fun k => k.cursor) = some 80 := by
  have hlines : AllStates screen_step LineBounds demo screen_session := by decide +kernel
  obtain ⟨hstates, hsteps⟩ := screen_bounds demo_started hlines
  exact ⟨hstates, hsteps, by decide +kernel⟩

/-- Memory with one cell written, behind the screen of the backup page of terminal 1. -/
def marked_memory : Kernel :=
  { demo_memory with
    video := fun c => if c = backup_page 1 + NUM_ROWS * NUM_COLS then ⟨1, 0⟩ else ⟨0, 0⟩ }

/-- A switch to terminal 1 copies that cell behind the screen on display. -/
theorem switch_copies_page : ∃ k, Started demo_env k ∧
    AllStates screen_step LineBounds k [.switch_screen 1] ∧
    ¬ AllSteps screen_step (StoresOnPage (NUM_ROWS * NUM_COLS)) k [.switch_screen 1] := by
  have hboot : (bootstrap demo_env marked_memory (demo_frame 0 0) (demo_frame 1 1)
      (demo_frame 2 2)).map (fun k => ((k.video 2000).character,
        ((switch_screen 1 k).video 2000).character, k.screen_terminal)) = some (0, 1, 0) := by
    decide +kernel
  obtain ⟨k, hk, hv⟩ := Option.map_eq_some_iff.mp hboot
  simp only [Prod.mk.injEq] at hv
  obtain ⟨hbefore, hafter, hscreen⟩ := hv
  have hstart : Started demo_env k := ⟨marked_memory, _, _, _, hk⟩
  have hlines := lineBounds_boot hstart
  refine ⟨k, hstart, ⟨hlines, fun k' hk' => ?_⟩, fun hall => ?_⟩
  · rw [screen_step, Option.some.injEq] at hk'
    exact hk' ▸ ⟨hlines.accesses, hlines.buffer_size⟩
  · have hcell : ¬ stored_cells (NUM_ROWS * NUM_COLS) k (.switch_screen 1) 2000 := by
      show ¬ ((backup_page k.screen_terminal ≤ 2000 ∧
        2000 < backup_page k.screen_terminal + NUM_ROWS * NUM_COLS) ∨
          ((0 : Int) ≤ 2000 ∧ (2000 : Int) < NUM_ROWS * NUM_COLS))
      rw [hscreen]
      decide
    have hsame : (switch_screen 1 k).video 2000 = k.video 2000 := hall.1 k.video _ rfl 2000 hcell
    rw [hsame, hbefore] at hafter
    exact absurd hafter (by decide)

end LinuxLikeOS
