/-
What a key does to the console on display.

The keyboard prints through the one-shot flag, stores at the end of the line and counts in
the same terminal. Step by step `edit_buffer` is followed on two kernels at once: the one
the key comes to, and a copy in which its terminal is also the scheduled one. As long as
the store fits the line, and a backspace has a cell to go back to, nothing outside the
console changes and the copy keeps pace (`Typing.edit_buffer`).
-/
import LinuxLikeOS.Lines

set_option autoImplicit false

namespace LinuxLikeOS

open Kernel Transition

/-! ## Where output goes -/

/-- With the one-shot flag off, output goes to the scheduled terminal. -/
theorem draw_terminal_of_off {k : Kernel} (h : k.DISPLAY_ON_MAIN_PAGE = 0) :
    draw_terminal k = k.curr_terminal := by
  unfold draw_terminal
  by_cases hback : to_backup_page k
  · exact if_pos hback
  · rw [if_neg hback]
    by_contra hcs
    exact hback ⟨fun hsame => hcs hsame.symm, h⟩

/-- With the flag on, it goes to the one on display. -/
theorem draw_terminal_of_on {k : Kernel} (h : k.DISPLAY_ON_MAIN_PAGE = 1) :
    draw_terminal k = k.screen_terminal := by
  unfold draw_terminal
  apply if_neg
  intro hback
  have hoff := hback.2
  rw [h] at hoff
  exact absurd hoff (by decide)

theorem inScreen_putc {c : UInt8} {k : Kernel}
    (h : InScreen (k.terminal_array (draw_terminal k))) :
    InScreen ((putc c k).terminal_array (draw_terminal k)) := by
  rw [putc_terminal, if_pos rfl]
  exact scrolled_stored_range c h

theorem inScreen_clear (k : Kernel) : InScreen ((clear k).terminal_array (draw_terminal k)) := by
  rw [clear_terminal, if_pos rfl]
  apply AtOrigin.in_screen
  exact ⟨rfl, rfl⟩

/-- A byte inside the buffer. -/
theorem line_load_eq {i : ℕ} (hi : i < MAX_BUF_SIZE) (k : Kernel) (t : Terminal) :
    line_load k t i = (k.terminal_array t).buffer i := by
  have hoff : BUFFER_OFFSET = 16 := rfl
  have hbytes : TERMINAL_INFO_BYTES = 172 := rfl
  have hmax : MAX_BUF_SIZE = 128 := rfl
  unfold line_load terminal_byte
  rw [if_pos (by omega), if_neg (by omega), if_neg (by omega), if_neg (by omega),
    if_neg (by omega), if_pos (by omega), hoff, Nat.add_sub_cancel_left]

theorem local_set_terminal (t : Terminal) (k : Kernel) (f : terminal_info_t → terminal_info_t) :
    Local t k (k.set_terminal t f) :=
  ⟨rfl, rfl, fun u hu => by rw [set_terminal_apply, if_neg hu], fun _ _ => rfl⟩

theorem same_set_terminal {t : Terminal} {k r : Kernel} (h : Same t k r)
    {f : terminal_info_t → terminal_info_t}
    (hf : ∀ ti ti', SameTerminal ti ti' → SameTerminal (f ti) (f ti')) :
    Same t (k.set_terminal t f) (r.set_terminal t f) where
  terminal := by
    rw [set_terminal_apply, set_terminal_apply, if_pos rfl, if_pos rfl]
    exact hf _ _ h.terminal
  cell := h.cell

/-! ## Keys -/

/-- `r` has the console of `t`, scheduled and on display. -/
structure Copy (t : Terminal) (k r : Kernel) : Prop where
  same : Same t k r
  curr_terminal : r.curr_terminal = t
  screen_terminal : r.screen_terminal = t
  display : r.DISPLAY_ON_MAIN_PAGE = 0

/-- A key for `t` is under way: from `k₀` only the console of `t` has changed, to the one of
`k`, and `r` keeps pace. -/
structure Typing (t : Terminal) (k₀ k r : Kernel) : Prop where
  others : Local t k₀ k
  copy : Copy t k r
  in_screen : InScreen (k.terminal_array t)
  screen_terminal : k.screen_terminal = t
  display : k.DISPLAY_ON_MAIN_PAGE = 0

namespace Typing

variable {t : Terminal} {k₀ k r : Kernel}

/-- The line of the copy has the same length, and waits for keys when the line does. -/
theorem line (h : Typing t k₀ k r) :
    (r.terminal_array r.screen_terminal).buffer_size
        = (k.terminal_array k.screen_terminal).buffer_size ∧
      (r.terminal_array r.screen_terminal).waitingInRead
        = (k.terminal_array k.screen_terminal).waitingInRead := by
  rw [h.copy.screen_terminal, h.screen_terminal]
  exact ⟨h.copy.same.terminal.buffer_size, h.copy.same.terminal.waitingInRead⟩

/-- A terminal update that keeps the position. -/
theorem set_terminal (h : Typing t k₀ k r) {f : terminal_info_t → terminal_info_t}
    (hf : ∀ ti ti', SameTerminal ti ti' → SameTerminal (f ti) (f ti'))
    (hpos : ∀ ti, InScreen ti → InScreen (f ti)) :
    Typing t k₀ (k.set_terminal k.screen_terminal f) (r.set_terminal r.screen_terminal f) := by
  rw [h.screen_terminal, h.copy.screen_terminal]
  refine ⟨h.others.trans (local_set_terminal t k f), ⟨same_set_terminal h.copy.same hf,
    h.copy.curr_terminal, h.copy.screen_terminal, h.copy.display⟩, ?_, h.screen_terminal, h.display⟩
  rw [set_terminal_apply, if_pos rfl]
  exact hpos _ h.in_screen

theorem grow_line (h : Typing t k₀ k r) : Typing t k₀ (grow_line k) (grow_line r) := by
  unfold LinuxLikeOS.grow_line
  refine h.set_terminal (fun ti ti' hti => ?_) (fun ti hti => hti)
  exact { hti with buffer_size := by dsimp only; rw [hti.buffer_size] }

theorem shrink_line (h : Typing t k₀ k r) : Typing t k₀ (shrink_line k) (shrink_line r) := by
  unfold LinuxLikeOS.shrink_line
  refine h.set_terminal (fun ti ti' hti => ?_) (fun ti hti => hti)
  exact { hti with buffer_size := by dsimp only; rw [hti.buffer_size] }

/-- A drawing routine that the keyboard calls, given what it does to the two kernels. -/
theorem draw (h : Typing t k₀ k r) {k' r' : Kernel} (hnear : Local t k k') (hsame : Same t k' r')
    (hpos : InScreen (k'.terminal_array t)) (hr : Draws r r') (hk : k'.DISPLAY_ON_MAIN_PAGE = 0)
    (hrd : r'.DISPLAY_ON_MAIN_PAGE = 0) : Typing t k₀ k' r' where
  others := h.others.trans hnear
  copy := ⟨hsame, hr.curr_terminal.trans h.copy.curr_terminal,
    hr.screen_terminal.trans h.copy.screen_terminal, hrd⟩
  in_screen := hpos
  screen_terminal := hnear.screen_terminal.trans h.screen_terminal
  display := hk

/-- Setting the one-shot flag changes no console. -/
theorem on_main_page (h : Typing t k₀ k r) :
    Local t k { k with DISPLAY_ON_MAIN_PAGE := 1 } ∧
      Same t { k with DISPLAY_ON_MAIN_PAGE := 1 } { r with DISPLAY_ON_MAIN_PAGE := 1 } ∧
      draw_terminal { k with DISPLAY_ON_MAIN_PAGE := 1 } = t ∧
      draw_terminal { r with DISPLAY_ON_MAIN_PAGE := 1 } = t := by
  refine ⟨⟨rfl, rfl, fun _ _ => rfl, fun _ _ => rfl⟩, ⟨h.copy.same.terminal, h.copy.same.cell⟩, ?_, ?_⟩
  · rw [draw_terminal_of_on rfl]
    exact h.screen_terminal
  · rw [draw_terminal_of_on rfl]
    exact h.copy.screen_terminal

theorem echo (h : Typing t k₀ k r) (c : UInt8) : Typing t k₀ (echo c k) (echo c r) := by
  obtain ⟨hnear, hsame, hdk, hdr⟩ := h.on_main_page
  have hpos : InScreen ((k.terminal_array (draw_terminal { k with DISPLAY_ON_MAIN_PAGE := 1 }))) := by
    rw [hdk]
    exact h.in_screen
  have hputc := local_putc (c := c) (k := { k with DISPLAY_ON_MAIN_PAGE := 1 }) hpos
  have hpos' := inScreen_putc (c := c) (k := { k with DISPLAY_ON_MAIN_PAGE := 1 }) hpos
  rw [hdk] at hputc hpos'
  exact h.draw (hnear.trans hputc) (same_putc c hsame hdk hdr) hpos' (draws_echo c r)
    (putc_eq c _).2.2 (putc_eq c _).2.2

theorem clear (h : Typing t k₀ k r) :
    Typing t k₀ (clear { k with DISPLAY_ON_MAIN_PAGE := 1 })
      (clear { r with DISPLAY_ON_MAIN_PAGE := 1 }) := by
  obtain ⟨hnear, hsame, hdk, hdr⟩ := h.on_main_page
  have hclear := local_clear { k with DISPLAY_ON_MAIN_PAGE := 1 }
  have hpos := inScreen_clear { k with DISPLAY_ON_MAIN_PAGE := 1 }
  rw [hdk] at hclear hpos
  exact h.draw (hnear.trans hclear) (same_clear hsame hdk hdr) hpos (draws_clear_display r)
    (draw_flags_display _) (draw_flags_display _)

theorem erase_char (h : Typing t k₀ k r) (h₀ : ¬ AtOrigin (k.terminal_array k.screen_terminal)) :
    Typing t k₀ (erase_char k) (erase_char r) := by
  have hscreen := h.screen_terminal
  subst hscreen
  have hpos : InScreen ((LinuxLikeOS.erase_char k).terminal_array k.screen_terminal) := by
    rw [erase_char_terminal, if_pos rfl]
    exact stepped_back_range h.in_screen h₀
  have hdisplay : ∀ k, (LinuxLikeOS.erase_char k).DISPLAY_ON_MAIN_PAGE = k.DISPLAY_ON_MAIN_PAGE := by
    intro k
    rw [erase_char_eq]
    rfl
  exact h.draw (local_erase_char h.in_screen h₀) (same_erase_char h.copy.same h.copy.screen_terminal)
    hpos (draws_erase_char r) (by rw [hdisplay, h.display]) (by rw [hdisplay, h.copy.display])

theorem store_at_end (h : Typing t k₀ k r) (v : UInt8) (hn : line_size k < MAX_BUF_SIZE) :
    Typing t k₀ (store_at_end v k) (store_at_end v r) := by
  have hsize : line_size r = line_size k := h.line.1
  rw [store_at_end_eq v hn, store_at_end_eq v (hsize ▸ hn), hsize]
  -- apart from the record of accesses, a terminal update
  have hbuffer : ∀ ti ti', SameTerminal ti ti' →
      SameTerminal { ti with buffer := Function.update ti.buffer (line_size k) v }
        { ti' with buffer := Function.update ti'.buffer (line_size k) v } := by
    intro ti ti' hti
    refine { hti with buffer := fun i hi => ?_ }
    dsimp only
    rw [Function.update_apply, Function.update_apply, hti.buffer i hi]
  have hset := h.set_terminal hbuffer fun ti hti => hti
  exact ⟨⟨hset.others.1, hset.others.2, hset.others.3, hset.others.4⟩,
    ⟨⟨hset.copy.same.1, hset.copy.same.2⟩, hset.copy.2, hset.copy.3, hset.copy.4⟩,
    hset.in_screen, hset.screen_terminal, hset.display⟩

theorem enter_line (h : Typing t k₀ k r) (hn : line_size k < MAX_BUF_SIZE) :
    Typing t k₀ (enter_line k) (enter_line r) := by
  have hecho := (h.store_at_end END_OF_LINE hn).echo END_OF_LINE
  have hflag := hecho.set_terminal (f := fun ti => { ti with enter_flag := 1 })
    (fun ti ti' hti => { hti with enter_flag := rfl }) (fun ti hti => hti)
  exact hflag.grow_line

theorem add_char (h : Typing t k₀ k r) (c : UInt8) (hn : line_size k < MAX_BUF_SIZE) :
    Typing t k₀ (add_char c k) (add_char c r) :=
  ((h.store_at_end c hn).echo c).grow_line

/-- A backspace, which takes a character back only from a line that has one. -/
theorem delete_char (h : Typing t k₀ k r) (hn : line_size k < MAX_BUF_SIZE)
    (h₀ : 0 < line_size k → ¬ AtOrigin (k.terminal_array k.screen_terminal)) :
    Typing t k₀ (delete_char k) (delete_char r) := by
  -- the last test is made on the line as the first one has left it
  have hlast : ∀ {k₁ r₁}, Typing t k₀ k₁ r₁ →
      Typing t k₀ (if (k₁.terminal_array k₁.screen_terminal).buffer_size = 0 then
          LinuxLikeOS.store_at_end 0 k₁ else k₁)
        (if (r₁.terminal_array r₁.screen_terminal).buffer_size = 0 then
          LinuxLikeOS.store_at_end 0 r₁ else r₁) := by
    intro k₁ r₁ h₁
    rw [h₁.line.1]
    split
    · rename_i hempty
      apply h₁.store_at_end 0
      show (k₁.terminal_array k₁.screen_terminal).buffer_size < MAX_BUF_SIZE
      rw [hempty]
      decide
    · exact h₁
  unfold LinuxLikeOS.delete_char
  dsimp only
  rw [h.line.1]
  by_cases hpos : (k.terminal_array k.screen_terminal).buffer_size > 0
  · rw [if_pos hpos, if_pos hpos]
    have herase := h.erase_char (h₀ hpos)
    have hsize : line_size (LinuxLikeOS.erase_char k) < MAX_BUF_SIZE := by
      rw [(draws_erase_char k).line.1]
      exact hn
    exact hlast (herase.store_at_end 0 hsize).shrink_line
  · rw [if_neg hpos, if_neg hpos]
    exact hlast h

/-- Ctrl-L prints the bytes of the line, which are inside the buffer. -/
theorem redraw_line (h : Typing t k₀ k r) (hn : line_size k ≤ MAX_BUF_SIZE) :
    Typing t k₀ (redraw_line k) (redraw_line r) := by
  have hclear := h.clear
  have hline := (draws_clear_display k).line.1
  unfold LinuxLikeOS.redraw_line
  dsimp only
  rw [hclear.line.1]
  generalize LinuxLikeOS.clear { k with DISPLAY_ON_MAIN_PAGE := 1 } = cleared at hclear hline ⊢
  -- as many bytes in both kernels, and the same ones
  apply for_loop_related (fun k r => Typing t k₀ k r) ?_ hclear
  intro i k₁ r₁ hi h₁
  have hlt : i < MAX_BUF_SIZE := Nat.lt_of_lt_of_le hi (Nat.le_trans (Nat.le_of_eq hline) hn)
  have hbyte : line_load r₁ r₁.screen_terminal i = line_load k₁ k₁.screen_terminal i := by
    rw [line_load_eq hlt, line_load_eq hlt, h₁.copy.screen_terminal, h₁.screen_terminal]
    exact h₁.copy.same.terminal.buffer i hlt
  have haccess : Typing t k₀ { k₁ with line_accesses := i :: k₁.line_accesses }
      { r₁ with line_accesses := i :: r₁.line_accesses } :=
    ⟨⟨h₁.others.1, h₁.others.2, h₁.others.3, h₁.others.4⟩,
      ⟨⟨h₁.copy.same.1, h₁.copy.same.2⟩, h₁.copy.2, h₁.copy.3, h₁.copy.4⟩,
      h₁.in_screen, h₁.screen_terminal, h₁.display⟩
  unfold redraw_char
  dsimp only
  rw [hbyte]
  exact haccess.echo _

end Typing

/-- A backspace that takes a character back does not find the cursor on the first cell. -/
def EraseFits (k : Kernel) : ConsoleOp → Prop
  | .key response => response = BACKSPACE_PRESSED → line_waiting k → 0 < line_size k →
      ¬ AtOrigin (k.terminal_array k.screen_terminal)
  | _ => True

instance (k : Kernel) : (op : ConsoleOp) → Decidable (EraseFits k op)
  | .key response => inferInstanceAs (Decidable (response = BACKSPACE_PRESSED → line_waiting k →
      0 < line_size k → ¬ AtOrigin (k.terminal_array k.screen_terminal)))
  | .putc _ | .clear | .read_begin _ _ | .read_end _ _ | .tick | .switch_screen _ => isTrue trivial

/-- A key works on the console on display, and on its copy in the same way. -/
theorem Typing.edit_buffer {t : Terminal} {k₀ k r : Kernel} {response : UInt8}
    (h : Typing t k₀ k r) (hn : line_size k ≤ MAX_BUF_SIZE) (hfits : KeyFits k (.key response))
    (herase : EraseFits k (.key response)) :
    Typing t k₀ (edit_buffer response k) (edit_buffer response r) := by
  have hlt := line_lt_of_fits hn hfits
  -- both kernels take the same branch
  obtain ⟨b, hcase⟩ := exists_keyCase response (k.terminal_array k.screen_terminal)
  rw [edit_buffer_eq hcase, edit_buffer_eq (hcase.congr h.line.1 h.line.2)]
  cases hcase with
  | redraw => exact h.redraw_line hn
  | idle => exact h
  | full => exact h
  | enter taken => exact h.enter_line (hlt taken)
  | delete taken key => exact h.delete_char (hlt taken) (herase key taken.2.2)
  | add taken => exact h.add_char response (hlt taken)

end LinuxLikeOS
