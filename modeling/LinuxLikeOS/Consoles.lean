/-
The three consoles of the kernel are three typewriters.

Each routine of the consoles does to the terminal it works on what the step of the same name does
to its typewriter, and nothing to the others. So in every run from the start in which a process
that waits for a line makes no other call, no key comes to a full line, and none takes back the
end of a line that has been completed, the screens show what the typewriters have
(`consoles_refined`).
-/
import LinuxLikeOS.Typewriters

set_option autoImplicit false

namespace LinuxLikeOS

open Kernel Transition LineEdit TextLayout

/-! ## A kernel console -/

/-- The page of a terminal shows the sheet. -/
def Displays (k : Kernel) (t : Terminal) (s : Sheet UInt8) : Prop :=
  PageShows (page_view k.video (page_of k t)) (k.terminal_array t).screen_x
    (k.terminal_array t).screen_y s

namespace Displays

variable {k k' : Kernel} {t : Terminal} {s : Sheet UInt8}

/-- The page and the position are all that matters. -/
theorem congr (h : Displays k t s) (hvideo : k'.video = k.video)
    (hscreen : k'.screen_terminal = k.screen_terminal)
    (hx : (k'.terminal_array t).screen_x = (k.terminal_array t).screen_x)
    (hy : (k'.terminal_array t).screen_y = (k.terminal_array t).screen_y) : Displays k' t s := by
  unfold Displays at h ⊢
  rw [hvideo, page_of_congr hscreen, hx, hy]
  exact h

theorem same (h : Displays k t s) (hsame : Same t k k') : Displays k' t s := by
  have hcells : PAGE_CELLS = 2048 := rfl
  have hcols : (NUM_COLS : Int) = 80 := rfl
  have hcols' : NUM_COLS = 80 := rfl
  have hrows' : NUM_ROWS = 25 := rfl
  unfold Displays at h ⊢
  rw [hsame.terminal.screen_x, hsame.terminal.screen_y]
  refine h.congr fun r hr c hc => ?_
  exact congrArg cell.character (hsame.cell _ (by rw [hcols]; omega) (by rw [hcols]; omega))

theorem putc (h : Displays k t s) (hdraw : draw_terminal k = t) (c : UInt8) :
    Displays (putc c k) t (print s c) := by
  obtain ⟨hterm, hvideo, -⟩ := putc_eq c k
  rw [hdraw] at hterm hvideo
  unfold Displays at h ⊢
  rw [page_of_congr (draws_putc c k).screen_terminal, hterm, hvideo, Function.update_self]
  exact h.print c _

theorem clear (hdraw : draw_terminal k = t) : Displays (clear k) t .blank := by
  have hcols : (NUM_COLS : Int) = 80 := rfl
  have hcols' : NUM_COLS = 80 := rfl
  have hrows : (NUM_ROWS : Int) = 25 := rfl
  have hrows' : NUM_ROWS = 25 := rfl
  unfold Displays
  rw [page_of_congr (draws_clear k).screen_terminal, clear_terminal, if_pos hdraw.symm]
  refine .blank fun r hr c hc => ?_
  unfold page_view
  rw [clear_video, hdraw, if_pos (by rw [hcols, hrows]; omega)]
  exact Or.inl rfl

theorem set_terminal (h : Displays k t s) {u : Terminal} {f : terminal_info_t → terminal_info_t}
    (hx : ∀ ti, (f ti).screen_x = ti.screen_x) (hy : ∀ ti, (f ti).screen_y = ti.screen_y) :
    Displays (k.set_terminal u f) t s := by
  refine h.congr rfl rfl ?_ ?_
  · rw [set_terminal_apply]
    split
    · rename_i hu
      rw [hx, hu]
    · rfl
  · rw [set_terminal_apply]
    split
    · rename_i hu
      rw [hy, hu]
    · rfl

end Displays

/-- The page on display shows the sheet. -/
def OnScreenSheet (k : Kernel) (s : Sheet UInt8) : Prop := Displays k k.screen_terminal s

namespace OnScreenSheet

variable {k : Kernel} {s : Sheet UInt8}

/-- A step that leaves the display where it is. -/
theorem of_displays {k' : Kernel} (h : Displays k' k.screen_terminal s)
    (hscreen : k'.screen_terminal = k.screen_terminal) : OnScreenSheet k' s := by
  unfold OnScreenSheet
  rwa [hscreen]

theorem echo (h : OnScreenSheet k s) (c : UInt8) : OnScreenSheet (echo c k) (print s c) := by
  apply of_displays _ (draws_echo c k).screen_terminal
  exact Displays.putc (k := { k with DISPLAY_ON_MAIN_PAGE := 1 }) h (draw_terminal_of_on rfl) c

theorem store_at_end (h : OnScreenSheet k s) (v : UInt8) (hn : line_size k < MAX_BUF_SIZE) :
    OnScreenSheet (store_at_end v k) s := by
  apply of_displays _ (Edits.store_at_end v hn).screen_terminal
  rw [store_at_end_eq v hn]
  refine Displays.congr h rfl rfl ?_ ?_
  · dsimp only
    rw [Function.update_self]
  · dsimp only
    rw [Function.update_self]

theorem grow_line (h : OnScreenSheet k s) : OnScreenSheet (grow_line k) s := by
  unfold LinuxLikeOS.grow_line
  exact Displays.set_terminal h (fun _ => rfl) fun _ => rfl

theorem shrink_line (h : OnScreenSheet k s) : OnScreenSheet (shrink_line k) s := by
  unfold LinuxLikeOS.shrink_line
  exact Displays.set_terminal h (fun _ => rfl) fun _ => rfl

theorem add_char (h : OnScreenSheet k s) (c : UInt8) (hn : line_size k < MAX_BUF_SIZE) :
    OnScreenSheet (add_char c k) (print s c) := ((h.store_at_end c hn).echo c).grow_line

theorem enter_line (h : OnScreenSheet k s) (hn : line_size k < MAX_BUF_SIZE) :
    OnScreenSheet (enter_line k) (print s END_OF_LINE) := by
  have hecho := (h.store_at_end END_OF_LINE hn).echo END_OF_LINE
  unfold LinuxLikeOS.enter_line
  dsimp only
  generalize LinuxLikeOS.echo END_OF_LINE (LinuxLikeOS.store_at_end END_OF_LINE k) = k₁ at hecho ⊢
  have hflag : OnScreenSheet (k₁.set_terminal k₁.screen_terminal fun ti => { ti with enter_flag := 1 })
      (print s END_OF_LINE) := Displays.set_terminal hecho (fun _ => rfl) fun _ => rfl
  exact hflag.grow_line

theorem erase_char {text : List UInt8} {c : UInt8} (h : OnScreenSheet k s)
    (htext : s.text = text ++ [c]) (hc : OneCell c)
    (horigin : ¬ AtOrigin (k.terminal_array k.screen_terminal)) :
    OnScreenSheet (erase_char k) s.erase := by
  apply of_displays _ (draws_erase_char k).screen_terminal
  unfold OnScreenSheet Displays at h
  unfold Displays
  rw [page_of_congr (draws_erase_char k).screen_terminal, erase_char_terminal, if_pos rfl,
    erase_char_video]
  rw [page_of_screen] at h ⊢
  have herase := h.erase (A := (k.video (NUM_COLS * (erased k).2 + (erased k).1)).attrib) htext hc
    horigin
  rw [Int.zero_add] at herase
  exact herase

/-- A backspace that finds a line. -/
theorem delete_char {text : List UInt8} {c : UInt8} (h : OnScreenSheet k s)
    (htext : s.text = text ++ [c]) (hc : OneCell c) (hscreen : ScreenInv k)
    (hn : line_size k < MAX_BUF_SIZE) (hpos : 0 < line_size k) :
    OnScreenSheet (delete_char k) s.erase := by
  have horigin : ¬ AtOrigin (k.terminal_array k.screen_terminal) := by
    have hbehind : Behind (line_size k) (k.terminal_array k.screen_terminal) := hscreen.behind _
    exact (hbehind.mono hpos).not_atOrigin
  apply delete_char_rule (Q := fun k₁ => OnScreenSheet k₁ s.erase)
  · intro _
    have hstore := (h.erase_char htext hc horigin).store_at_end 0
      (by rw [(draws_erase_char k).line.1]; exact hn)
    exact hstore.shrink_line
  · exact fun hnone => absurd hnone (Nat.ne_of_gt hpos)
  · exact fun k₁ h₁ hempty => h₁.store_at_end 0 (hempty ▸ (by decide : 0 < MAX_BUF_SIZE))

/-- A backspace that finds none. -/
theorem delete_none (h : OnScreenSheet k s) (hempty : line_size k = 0) :
    OnScreenSheet (LinuxLikeOS.delete_char k) s := by
  apply delete_char_rule (Q := fun k₁ => OnScreenSheet k₁ s)
  · exact fun hpos => absurd hempty (Nat.ne_of_gt hpos)
  · exact fun _ => h
  · exact fun k₁ h₁ hempty => h₁.store_at_end 0 (hempty ▸ (by decide : 0 < MAX_BUF_SIZE))

/-- Ctrl-L prints the line on a clear sheet. -/
theorem redraw_line {typed : List UInt8}
    (hw : Written (k.terminal_array k.screen_terminal).buffer (line_size k) typed)
    (hn : line_size k ≤ MAX_BUF_SIZE) : OnScreenSheet (redraw_line k) (printed .blank typed) := by
  have hsize : line_size k = typed.length := hw.size
  have hrule : OnScreenSheet (LinuxLikeOS.redraw_line k)
      (printed .blank (typed.take (line_size k))) ∧ Edits id k (LinuxLikeOS.redraw_line k) := by
    apply redraw_line_rule (Q := fun i k₁ => OnScreenSheet k₁
      (printed .blank (typed.take i)) ∧ Edits id k k₁)
    · have hclear : OnScreenSheet (clear { k with DISPLAY_ON_MAIN_PAGE := 1 }) Sheet.blank :=
        of_displays (.clear (draw_terminal_of_on rfl)) (draws_clear_display k).screen_terminal
      exact ⟨hclear, .of_draws (draws_clear_display k)⟩
    · rintro i k₁ hi ⟨hdisp, hedits⟩
      have hlt : i < typed.length := hsize ▸ hi
      -- the byte that is printed is the next one of the line
      have hbyte : line_load k₁ k₁.screen_terminal i = typed[i] := by
        obtain ⟨p, hp⟩ := hedits.screen
        rw [line_load_eq (by omega), hp, ← hw.get i hlt]
        rfl
      have hline : Edits id k { k₁ with line_accesses := i :: k₁.line_accesses } :=
        ⟨hedits.terminal, hedits.screen_terminal⟩
      have hdisp' : OnScreenSheet { k₁ with line_accesses := i :: k₁.line_accesses }
          (printed .blank (typed.take i)) := hdisp
      unfold redraw_char
      dsimp only
      rw [hbyte]
      refine ⟨?_, hline.trans (.of_draws (draws_echo _ _)) fun _ _ => rfl⟩
      rw [List.take_succ_eq_append_getElem hlt, printed_concat]
      exact hdisp'.echo _
  have hshown := hrule.1
  rwa [hsize, List.take_length] at hshown

end OnScreenSheet

/-- A terminal of the kernel and its typewriter. -/
structure Shadows (k : Kernel) (t : Terminal) (con : Console) : Prop where
  sheet : Displays k t con.sheet
  line : Written (k.terminal_array t).buffer (k.terminal_array t).buffer_size con.line
  reading : (k.terminal_array t).waitingInRead = 1 ↔ con.reading = true
  complete : (k.terminal_array t).enter_flag = 1 ↔ con.complete = true

theorem Shadows.same {k k' : Kernel} {t : Terminal} {con : Console} (h : Shadows k t con)
    (hsame : Same t k k') (hn : (k.terminal_array t).buffer_size ≤ MAX_BUF_SIZE) :
    Shadows k' t con where
  sheet := h.sheet.same hsame
  line := by
    refine ⟨hsame.terminal.buffer_size.trans h.line.size, fun i hi => ?_⟩
    have hsize := h.line.size
    rw [hsame.terminal.buffer i (by omega), h.line.get i hi]
  reading := by rw [hsame.terminal.waitingInRead]; exact h.reading
  complete := by rw [hsame.terminal.enter_flag]; exact h.complete

/-! ## Steps -/

/-- A key is taken when the typewriter has a reader. -/
theorem Shadows.taken_iff {k : Kernel} {t : Terminal} {con : Console} (h : Shadows k t con)
    (response : UInt8) : Taken response (k.terminal_array t) ↔
      response ≠ CTL_L_CMD ∧ response ≠ 0 ∧ con.reading = true := by
  unfold Taken
  rw [h.reading]

theorem shortened_waitingInRead (ti : terminal_info_t) :
    (shortened ti).waitingInRead = ti.waitingInRead := by
  unfold shortened
  dsimp only
  split
  · split <;> rfl
  · split <;> rfl

/-- **A key does to the console what it does to the typewriter.** -/
theorem Shadows.key {k : Kernel} {con : Console} {response : UInt8}
    (h : Shadows k k.screen_terminal con) (htidy : con.Tidy) (hscreen : ScreenInv k)
    (hlines : LineBounds k) (hfits : KeyFits k (.key response))
    (hback : response = BACKSPACE_PRESSED → con.complete = false) :
    Shadows (edit_buffer response k) k.screen_terminal (con.key response) := by
  have hn := hlines.line_le
  have hlt := line_lt_of_fits hn hfits
  have hsize : line_size k = con.line.length := h.line.size
  have hsheet : OnScreenSheet k con.sheet := h.sheet
  obtain ⟨b, hcase⟩ := exists_keyCase response (k.terminal_array k.screen_terminal)
  have hedits := edit_buffer_edits hn hfits hcase
  obtain ⟨p, hp⟩ := hedits.terminal k.screen_terminal
  rw [if_pos rfl] at hp
  -- the position apart, the branch says what the terminal is now
  have hmain : ∀ con' : Console, con.key response = con' →
      OnScreenSheet (edit_buffer response k) con'.sheet →
      Written (b.on_line response (k.terminal_array k.screen_terminal)).buffer
        (b.on_line response (k.terminal_array k.screen_terminal)).buffer_size con'.line →
      ((b.on_line response (k.terminal_array k.screen_terminal)).waitingInRead = 1 ↔
        con'.reading = true) →
      ((b.on_line response (k.terminal_array k.screen_terminal)).enter_flag = 1 ↔
        con'.complete = true) →
      Shadows (edit_buffer response k) k.screen_terminal (con.key response) := by
    rintro con' rfl hshown hline hreading hcomplete
    unfold OnScreenSheet at hshown
    rw [hedits.screen_terminal] at hshown
    exact ⟨hshown, by rw [hp]; exact hline, by rw [hp]; exact hreading, by rw [hp]; exact hcomplete⟩
  have hperform := edit_buffer_eq hcase
  cases hcase with
  | redraw hctl =>
      apply hmain { con with sheet := printed .blank con.line }
      · exact if_pos hctl
      · rw [hperform]
        exact .redraw_line h.line hn
      · exact h.line
      · exact h.reading
      · exact h.complete
  | idle hnot hctl =>
      have hnone : response = 0 ∨ con.reading = false := by
        rw [h.taken_iff] at hnot
        by_contra hcon
        rw [not_or, Bool.not_eq_false] at hcon
        exact hnot ⟨hctl, hcon⟩
      apply hmain con
      · unfold Console.key
        rw [if_neg hctl, if_pos hnone]
      · rw [hperform]
        exact hsheet
      · exact h.line
      · exact h.reading
      · exact h.complete
  | full taken erase enter size =>
      obtain ⟨hctl, hzero, hreading⟩ := (h.taken_iff response).mp taken
      apply hmain con
      · unfold Console.key
        rw [if_neg hctl, if_neg (by simp [hzero, hreading]), if_neg erase, if_neg enter,
          if_pos (h.line.size ▸ size)]
      · rw [hperform]
        exact hsheet
      · exact h.line
      · exact h.reading
      · exact h.complete
  | enter taken henter =>
      obtain ⟨hctl, hzero, hreading⟩ := (h.taken_iff response).mp taken
      apply hmain { con with
        sheet := print con.sheet END_OF_LINE, line := con.line ++ [END_OF_LINE], complete := true }
      · unfold Console.key
        rw [if_neg hctl, if_neg (by simp [hzero, hreading]), if_neg (by rw [henter]; decide),
          if_pos henter]
      · rw [hperform]
        exact hsheet.enter_line (hlt taken)
      · exact h.line.concat END_OF_LINE
      · exact h.reading
      · exact ⟨fun _ => rfl, fun _ => rfl⟩
  | delete taken erase =>
      obtain ⟨hctl, hzero, hreading⟩ := (h.taken_iff response).mp taken
      have hkey : con.key response = if con.line = [] then con
          else { con with sheet := con.sheet.erase, line := con.line.dropLast } := by
        unfold Console.key
        rw [if_neg hctl, if_neg (by simp [hzero, hreading]), if_pos erase]
      have hline := written_shortened h.line
      have hwait : (shortened (k.terminal_array k.screen_terminal)).waitingInRead = 1 ↔
          con.reading = true := by rw [shortened_waitingInRead]; exact h.reading
      have hflag : (shortened (k.terminal_array k.screen_terminal)).enter_flag = 1 ↔
          con.complete = true := by rw [shortened_enter_flag]; exact h.complete
      by_cases hnil : con.line = []
      · rw [if_pos hnil] at hkey
        have hempty : line_size k = 0 := by rw [hsize, hnil]; rfl
        apply hmain con hkey
        · rw [hperform]
          exact hsheet.delete_none hempty
        · rw [hnil] at hline ⊢
          exact hline
        · exact hwait
        · exact hflag
      · rw [if_neg hnil] at hkey
        obtain ⟨c, hc, htext⟩ := htidy.exists_last hnil
        have hone : OneCell c := by
          apply htidy.one_cell (hback erase)
          rw [hc]
          exact List.mem_append_right _ (List.mem_singleton.mpr rfl)
        have hpos : 0 < line_size k := by
          rw [hsize]
          exact List.length_pos_of_ne_nil hnil
        apply hmain { con with sheet := con.sheet.erase, line := con.line.dropLast } hkey
        · rw [hperform]
          exact hsheet.delete_char htext hone hscreen (hlt taken) hpos
        · exact hline
        · exact hwait
        · exact hflag
  | add taken erase enter size =>
      obtain ⟨hctl, hzero, hreading⟩ := (h.taken_iff response).mp taken
      apply hmain { con with sheet := print con.sheet response, line := con.line ++ [response] }
      · unfold Console.key
        rw [if_neg hctl, if_neg (by simp [hzero, hreading]), if_neg erase, if_neg enter,
          if_neg (h.line.size ▸ size)]
      · rw [hperform]
        exact hsheet.add_char response (hlt taken)
      · exact h.line.concat response
      · exact h.reading
      · exact h.complete

/-- **The bytes a process writes are printed**, but for the zeros among them. -/
theorem Displays.terminal_write {k : Kernel} {s : Sheet UInt8} (h : Displays k k.curr_terminal s)
    (hoff : k.DISPLAY_ON_MAIN_PAGE = 0) (buf : Option (ℕ → UInt8)) (nbytes : Int) :
    Displays (terminal_write buf nbytes k).2 k.curr_terminal
      (printed s (bytes_written buf nbytes)) := by
  unfold LinuxLikeOS.terminal_write bytes_written
  cases buf with
  | none => exact h
  | some bytes =>
      dsimp only
      split
      · rename_i hneg
        have hzero : nbytes.toNat = 0 := by omega
        rw [hzero]
        exact h
      · have hloop : (for_loop (write_char bytes) nbytes.toNat (0, k)).2.DISPLAY_ON_MAIN_PAGE = 0 ∧
            Draws k (for_loop (write_char bytes) nbytes.toNat (0, k)).2 ∧
            Displays (for_loop (write_char bytes) nbytes.toNat (0, k)).2 k.curr_terminal
              (printed s (((List.range nbytes.toNat).map bytes).filter (· ≠ 0))) := by
          apply for_loop_invariant (fun i (w : Int × Kernel) => w.2.DISPLAY_ON_MAIN_PAGE = 0 ∧
            Draws k w.2 ∧ Displays w.2 k.curr_terminal
              (printed s (((List.range i).map bytes).filter (· ≠ 0))))
          · exact ⟨hoff, .refl k, h⟩
          · rintro i w hi ⟨hoff', hdraws, hdisp⟩
            rw [List.range_succ, List.map_append, List.map_singleton, List.filter_append]
            unfold write_char
            by_cases hzero : bytes i = 0
            · rw [if_neg (not_not_intro hzero), List.filter_cons_of_neg (by simp [hzero]),
                List.filter_nil, List.append_nil]
              exact ⟨hoff', hdraws, hdisp⟩
            · rw [if_pos hzero, List.filter_cons_of_pos (by simp [hzero]), List.filter_nil,
                printed_concat]
              refine ⟨(putc_eq _ _).2.2, hdraws.trans (draws_putc _ _), hdisp.putc ?_ _⟩
              rw [draw_terminal_of_off hoff', hdraws.curr_terminal]
        exact hloop.2.2

theorem Shadows.terminal_write {k : Kernel} {con : Console} (h : Shadows k k.curr_terminal con)
    (hscreen : ScreenInv k) (hlines : LineBounds k) (buf : Option (ℕ → UInt8)) (nbytes : Int) :
    Shadows (terminal_write buf nbytes k).2 k.curr_terminal
      { con with sheet := printed con.sheet (bytes_written buf nbytes) } := by
  have hdraws := (hscreen.printing hlines buf nbytes).draws
  obtain ⟨x, y, hxy⟩ := hdraws.terminal k.curr_terminal
  refine ⟨h.sheet.terminal_write hscreen.display buf nbytes, ?_, ?_, ?_⟩
  · rw [hxy]
    exact h.line
  · rw [hxy]
    exact h.reading
  · rw [hxy]
    exact h.complete

/-- A change of one terminal that leaves its page alone. -/
theorem Shadows.set_terminal {k : Kernel} {t : Terminal} {con con' : Console}
    {f : terminal_info_t → terminal_info_t} (h : Shadows k t con)
    (hx : ∀ ti, (f ti).screen_x = ti.screen_x) (hy : ∀ ti, (f ti).screen_y = ti.screen_y)
    (hsheet : con'.sheet = con.sheet)
    (hline : Written (f (k.terminal_array t)).buffer (f (k.terminal_array t)).buffer_size con'.line)
    (hreading : (f (k.terminal_array t)).waitingInRead = 1 ↔ con'.reading = true)
    (hcomplete : (f (k.terminal_array t)).enter_flag = 1 ↔ con'.complete = true) :
    Shadows (k.set_terminal t f) t con' := by
  have hself : (k.set_terminal t f).terminal_array t = f (k.terminal_array t) := by
    rw [set_terminal_apply, if_pos rfl]
  refine ⟨?_, by rw [hself]; exact hline, by rw [hself]; exact hreading,
    by rw [hself]; exact hcomplete⟩
  rw [hsheet]
  exact h.sheet.set_terminal hx hy

theorem Shadows.read_begun {k : Kernel} {t : Terminal} {con : Console} (h : Shadows k t con) :
    Shadows (k.set_terminal t fun ti => { ti with waitingInRead := 1 }) t
      { con with reading := true } :=
  h.set_terminal (f := fun ti => { ti with waitingInRead := 1 }) (fun _ => rfl) (fun _ => rfl) rfl
    h.line ⟨fun _ => rfl, fun _ => rfl⟩ h.complete

theorem Shadows.line_taken {k : Kernel} {t : Terminal} {con : Console} (h : Shadows k t con)
    (nbytes : Int) : Shadows (k.set_terminal t (line_taken nbytes)) t con.taken := by
  refine h.set_terminal (f := LinuxLikeOS.line_taken nbytes) (fun _ => rfl) (fun _ => rfl) rfl
    (.nil _) ⟨fun hone => ?_, fun hreading => ?_⟩ ⟨fun hone => ?_, fun hcomplete => ?_⟩
  · exact absurd hone (by decide : (0 : Int) ≠ 1)
  · cases hreading
  · exact absurd hone (by decide : (0 : Int) ≠ 1)
  · cases hcomplete

/-- The kernel's consoles are where the typewriters are. -/
structure Mirrors (k : Kernel) (s : Consoles) : Prop where
  screen : ScreenInv k
  lines : LineBounds k
  scheduled : k.curr_terminal = s.scheduled
  displayed : k.screen_terminal = s.displayed
  console : ∀ t, Shadows k t (s.console t)
  tidy : ∀ t, (s.console t).Tidy

namespace Mirrors

variable {k k' : Kernel} {s : Consoles}

/-- A step of one console. -/
theorem update {t : Terminal} {f : Console → Console} (h : Mirrors k s) (hscreen : ScreenInv k')
    (hlines : LineBounds k') (hcurr : k'.curr_terminal = k.curr_terminal)
    (hdisp : k'.screen_terminal = k.screen_terminal) (hothers : ∀ u, u ≠ t → Same u k k')
    (hown : Shadows k' t (f (s.console t))) (htidy : (f (s.console t)).Tidy) :
    Mirrors k' (s.update t f) where
  screen := hscreen
  lines := hlines
  scheduled := hcurr.trans h.scheduled
  displayed := hdisp.trans h.displayed
  console u := by
    unfold Consoles.update
    dsimp only
    rw [Function.update_apply]
    by_cases hu : u = t
    · rw [if_pos hu, hu]
      exact hown
    · rw [if_neg hu]
      exact (h.console u).same (hothers u hu) (h.lines.buffer_size u)
  tidy u := by
    unfold Consoles.update
    dsimp only
    rw [Function.update_apply]
    split
    · exact htidy
    · exact h.tidy u

/-- A step of none. -/
theorem keep {s' : Consoles} (h : Mirrors k s) (hscreen : ScreenInv k') (hlines : LineBounds k')
    (hcurr : k'.curr_terminal = s'.scheduled) (hdisp : k'.screen_terminal = s'.displayed)
    (hsame : ∀ u, Same u k k') (hcon : s'.console = s.console) : Mirrors k' s' where
  screen := hscreen
  lines := hlines
  scheduled := hcurr
  displayed := hdisp
  console u := by
    rw [hcon]
    exact (h.console u).same (hsame u) (h.lines.buffer_size u)
  tidy u := by
    rw [hcon]
    exact h.tidy u

/-- The keys that are orderly fit the lines. -/
theorem keysFit {op : ScreenOp} (h : Mirrors k s) (hop : s.Orderly op) : KeysFit k op := by
  cases op with
  | key response =>
      intro hctl hzero hwait hfull
      have hcon := h.console k.screen_terminal
      unfold line_waiting at hwait
      unfold line_size at hfull
      rw [h.displayed] at hcon hwait hfull
      exact hop.2.1 hctl hzero (hcon.reading.mp hwait) (hcon.line.size.symm.trans hfull)
  | _ => trivial

/-- What is not a console's own step does not show on it. -/
theorem same_of_other {op : ScreenOp} {t : Terminal} (h : Mirrors k s) (hop : s.Orderly op)
    (hkey : ∀ response, op = .key response → k.screen_terminal ≠ t)
    (hcall : (∃ buf nbytes, op = .write buf nbytes) ∨ (∃ buf nbytes, op = .read_begin buf nbytes) ∨
      (∃ nbytes buf, op = .read_end nbytes buf) → k.curr_terminal ≠ t)
    (hstep : screen_step k op = some k') : Same t k k' := by
  refine LinuxLikeOS.same_of_other h.screen h.lines ?_ (h.keysFit hop) hkey hstep
  cases op with
  | write buf nbytes => exact hcall (Or.inl ⟨buf, nbytes, rfl⟩)
  | key response => exact fun ht => absurd ht (hkey response rfl)
  | read_begin buf nbytes => exact hcall (Or.inr (Or.inl ⟨buf, nbytes, rfl⟩))
  | read_end nbytes buf => exact hcall (Or.inr (Or.inr ⟨nbytes, buf, rfl⟩))
  | tick => trivial
  | switch_screen t => trivial

/-- **Every step of the kernel's consoles is one of the typewriters.** -/
theorem step {op : ScreenOp} (h : Mirrors k s) (hop : s.Orderly op)
    (hstep : screen_step k op = some k') : ∃ s', s.step op = some s' ∧ Mirrors k' s' := by
  obtain ⟨hscreen, hlines⟩ := (h.keysFit hop).keeps h.screen h.lines hstep
  have hsame : ∀ t, _ → _ → _ → Same t k k' := fun t => h.same_of_other hop
  have hcurr := h.console k.curr_terminal
  cases op with
  | write buf nbytes =>
      have hothers : ∀ u, u ≠ k.curr_terminal → Same u k k' := fun u hu =>
        hsame u (by rintro _ ⟨⟩) (fun _ => hu.symm) hstep
      obtain rfl := Option.some.inj hstep
      have hdraws := (h.screen.printing h.lines buf nbytes).draws
      have hshadow := hcurr.terminal_write h.screen h.lines buf nbytes
      rw [h.scheduled] at hothers hshadow
      refine ⟨_, rfl, h.update hscreen hlines hdraws.curr_terminal hdraws.screen_terminal hothers
        hshadow ?_⟩
      -- nothing is typed while the process runs
      have hidle := (h.tidy s.scheduled).idle hop
      refine ⟨fun _ => hidle, ?_, (h.tidy s.scheduled).one_cell⟩
      dsimp only
      rw [hidle]
      exact List.nil_suffix
  | key response =>
      have hothers : ∀ u, u ≠ k.screen_terminal → Same u k k' := fun u hu =>
        hsame u (fun _ _ => hu.symm) (by rintro (⟨_, _, ⟨⟩⟩ | ⟨_, _, ⟨⟩⟩ | ⟨_, _, ⟨⟩⟩)) hstep
      have hfits := h.keysFit hop
      obtain rfl := Option.some.inj hstep
      obtain ⟨b, hcase⟩ := exists_keyCase response (k.terminal_array k.screen_terminal)
      have hedits := edit_buffer_edits h.lines.line_le hfits hcase
      have hback : response = BACKSPACE_PRESSED → (s.console k.screen_terminal).complete = false := by
        rw [h.displayed]
        exact hop.2.2
      have hshadow := (h.console k.screen_terminal).key (h.tidy _) h.screen h.lines hfits hback
      rw [h.displayed] at hothers hshadow
      refine ⟨_, rfl, h.update hscreen hlines ?_ hedits.screen_terminal hothers hshadow
        ((h.tidy s.displayed).key hop.1)⟩
      have hinv : ConsoleInv k := ⟨h.screen.display, fun t => (h.screen.behind t).1, h.lines⟩
      have htyping := (hinv.typing (copy_solo hinv _)).edit_buffer h.lines.line_le hfits
        (h.screen.erase_fits response)
      exact htyping.others.curr_terminal
  | read_begin buf nbytes =>
      have hothers : ∀ u, u ≠ k.curr_terminal → Same u k k' := fun u hu =>
        hsame u (by rintro _ ⟨⟩) (fun _ => hu.symm) hstep
      obtain rfl := Option.some.inj hstep
      rw [h.scheduled] at hothers
      rw [Consoles.step]
      rcases terminal_read_begin_cases buf nbytes k with ⟨hbad, hread⟩ | ⟨hgood, hread⟩
      · rw [if_pos hbad, hread]
        exact ⟨s, rfl, h⟩
      · rw [if_neg (by rw [not_or, Int.not_le]; exact hgood)]
        rw [hread] at hscreen hlines hothers ⊢
        refine ⟨_, rfl, h.update hscreen hlines rfl rfl hothers ?_ ?_⟩
        · rw [← h.scheduled]
          exact hcurr.read_begun
        · have htidy := h.tidy s.scheduled
          exact ⟨fun hfalse => (by cases hfalse), htidy.printed, htidy.one_cell⟩
  | read_end nbytes buf =>
      have hothers : ∀ u, u ≠ k.curr_terminal → Same u k k' := fun u hu =>
        hsame u (by rintro _ ⟨⟩) (fun _ => hu.symm) hstep
      rw [screen_step] at hstep
      split at hstep
      · rename_i hready
        have hready' : (s.console s.scheduled).reading = true ∧
            (s.console s.scheduled).complete = true := by
          rw [← h.scheduled]
          exact ⟨hcurr.reading.mp hready.1, hcurr.complete.mp hready.2⟩
        obtain rfl := Option.some.inj hstep
        rw [h.scheduled] at hothers
        rw [Consoles.step, if_pos hready']
        refine ⟨_, rfl, h.update hscreen hlines rfl rfl hothers ?_ ?_⟩
        · rw [← h.scheduled]
          have htaken := hcurr.line_taken nbytes
          exact ⟨htaken.sheet, htaken.line, htaken.reading, htaken.complete⟩
        · exact ⟨fun _ => rfl, List.nil_suffix, fun _ c hc => absurd hc List.not_mem_nil⟩
      · cases hstep
  | tick =>
      have hall : ∀ u, Same u k k' := fun u => hsame u (by rintro _ ⟨⟩)
        (by rintro (⟨_, _, ⟨⟩⟩ | ⟨_, _, ⟨⟩⟩ | ⟨_, _, ⟨⟩⟩)) hstep
      obtain rfl := Option.some.inj hstep
      exact ⟨_, rfl, h.keep hscreen hlines (congrArg next_terminal h.scheduled) h.displayed hall rfl⟩
  | switch_screen t =>
      have hall : ∀ u, Same u k k' := fun u => hsame u (by rintro _ ⟨⟩)
        (by rintro (⟨_, _, ⟨⟩⟩ | ⟨_, _, ⟨⟩⟩ | ⟨_, _, ⟨⟩⟩)) hstep
      obtain rfl := Option.some.inj hstep
      exact ⟨_, rfl, h.keep hscreen hlines h.scheduled rfl hall rfl⟩

end Mirrors

/-! ## The start -/

/-- A new process does not draw. -/
theorem Displays.executed {env : Env} {fr : frame} {command : Option (List UInt8)} {k k' : Kernel}
    {t : Terminal} {s : Sheet UInt8} (h : Displays k t s)
    (hexec : new_process (system_execute env command fr k) = some k') :
    Displays k' t s := by
  obtain ⟨pid, eip, -, rfl⟩ := new_process_execute hexec
  generalize hclaim : claim_slot pid { k with
    kernel_mem := execute_mem env command k.kernel_mem } = claimed
  have hk : Displays claimed t s := hclaim ▸ h
  have hlink : ∀ k, (link_parent pid fr k).video = k.video := by
    intro k
    unfold link_parent
    split <;> rfl
  obtain ⟨-, hscreen⟩ := create_process_display pid env.link.empty_string eip fr claimed
  obtain ⟨p, esp0, ss0, hterm⟩ := create_process_terminal pid env.link.empty_string eip fr claimed t
  refine hk.congr ?_ hscreen (by rw [hterm]) (by rw [hterm])
  exact hlink (claimed.set_pcb pid fun p => { p with pid := pid, args := env.link.empty_string })

/-- **A terminal that is opened is cleared**, on its own page. -/
theorem displays_opened {env : Env} {fr : frame} {n : ℕ} {k : Kernel} (hbooted : Booted env n k)
    (hn : n < MAX_TERMINALS) (h : ∀ t : Terminal, t.val < n → Displays k t Sheet.blank)
    {t : Terminal} (ht : t.val < n + 1) :
    Displays (open_terminal (preempt fr k)) t Sheet.blank := by
  have hcurr : (next_terminal k.curr_terminal).val = n := by
    show (k.curr_terminal.val + 1) % MAX_TERMINALS = n
    rw [hbooted.curr_terminal, Nat.mod_eq_of_lt hn]
  have hdraw : draw_terminal (preempt fr k) = next_terminal k.curr_terminal :=
    draw_terminal_of_off hbooted.DISPLAY_ON_MAIN_PAGE
  have hclear : Displays (clear (preempt fr k)) t Sheet.blank := by
    by_cases hnew : t = next_terminal k.curr_terminal
    · exact .clear (hdraw.trans hnew.symm)
    · have hold : t.val < n := by
        have hne : t.val ≠ n := fun heq => hnew (Fin.ext (heq.trans hcurr.symm))
        omega
      have hpreempt : Displays (preempt fr k) t Sheet.blank := h t hold
      exact hpreempt.same ((local_clear (preempt fr k)).same (hdraw ▸ hnew))
  have hset : Displays ((clear (preempt fr k)).set_terminal (next_terminal k.curr_terminal)
      fun ti => { ti with flag := 1 }) t Sheet.blank :=
    hclear.set_terminal (fun _ => rfl) fun _ => rfl
  exact hset

theorem Started.displays {env : Env} {k : Kernel} (h : Started env k) (t : Terminal) :
    Displays k t Sheet.blank := by
  obtain ⟨memory, fr₀, fr₁, fr₂, hboot⟩ := h
  obtain ⟨k₁, h₁, hboot⟩ := Option.bind_eq_some_iff.mp hboot
  obtain ⟨k₂, h₂, h₃⟩ := Option.bind_eq_some_iff.mp hboot
  have hinit := init_kernel_opening env memory
  have hb₁ : Booted env 1 k₁ := hinit.booted h₁
  have hb₂ : Booted env 2 k₂ :=
    (hb₁.opening (by decide)).booted (new_process_scheduler h₂)
  -- `entry` clears the page of terminal 0, and the scheduler one for each shell it starts
  have hd₀ : ∀ t : Terminal, t.val < 1 → Displays (init_kernel env (loaded memory)) t Sheet.blank := by
    intro t ht
    apply Displays.clear
    rw [draw_terminal_of_off rfl]
    exact Fin.ext (by show 0 = t.val; omega)
  have hd₁ : ∀ t : Terminal, t.val < 1 → Displays k₁ t Sheet.blank :=
    fun t ht => (hd₀ t ht).executed h₁
  have hd₂ : ∀ t : Terminal, t.val < 2 → Displays k₂ t Sheet.blank := fun t ht =>
    (displays_opened hb₁ (by decide) hd₁ ht).executed (new_process_scheduler h₂)
  exact (displays_opened hb₂ (by decide) hd₂ t.isLt).executed (new_process_scheduler h₃)

theorem Started.waitingInRead {env : Env} {k : Kernel} (h : Started env k) (t : Terminal) :
    (k.terminal_array t).waitingInRead = 0 := by
  have hall : ∀ t, (k.terminal_array t).waitingInRead = 0 := by
    refine h.invariant (P := fun k => ∀ t, (k.terminal_array t).waitingInRead = 0)
      (fun memory t => ?_) (fun fr k hk t => ?_) (fun fr k k' hk hexec t => ?_)
    · obtain ⟨x, y, hxy⟩ := (draws_clear _).terminal t
      unfold init_kernel
      rw [hxy]
      rfl
    · obtain ⟨x, y, hxy⟩ := (draws_clear (preempt fr k)).terminal t
      rw [open_terminal_field (·.waitingInRead) fun _ _ => rfl, hxy]
      exact hk t
    · obtain ⟨pid, eip, -, rfl⟩ := new_process_execute hexec
      obtain ⟨p, esp0, ss0, hterm⟩ := create_process_terminal pid env.link.empty_string eip fr
        (claim_slot pid { k with
          kernel_mem := execute_mem env (some (ascii "shell")) k.kernel_mem }) t
      rw [hterm]
      exact hk t
  exact hall t

/-- Three blank sheets, and the shell that was started last is scheduled. -/
def blank_consoles : Consoles := ⟨2, 0, fun _ => ⟨.blank, [], false, false⟩⟩

theorem mirrors_boot {env : Env} {k : Kernel} (h : Started env k) : Mirrors k blank_consoles where
  screen := screenInv_boot h
  lines := lineBounds_boot h
  scheduled := by
    have hcurr := h.booted.curr_terminal
    exact Fin.ext (by show k.curr_terminal.val = 2; omega)
  displayed := h.booted.screen_terminal
  console t := by
    refine ⟨h.displays t, ?_, ⟨fun hone => ?_, fun hreading => ?_⟩, ⟨fun hone => ?_, fun hdone => ?_⟩⟩
    · rw [h.booted.buffer_size]
      exact .nil _
    · rw [h.waitingInRead] at hone
      exact absurd hone (by decide)
    · cases hreading
    · rw [h.enter_flag] at hone
      exact absurd hone (by decide)
    · cases hdone
  tidy t := ⟨fun _ => rfl, List.nil_suffix, fun _ c hc => absurd hc List.not_mem_nil⟩

/-! ## Runs -/

/-- What is on the screens is what the typewriters have: the end of the text of each, from the row
that is on top, blank where there is no text, and the cursor behind it. -/
def ShowsTexts (k : Kernel) (s : Consoles) : Prop :=
  ∀ t, PageShows (fun r c => shown k t (NUM_COLS * r + c)) (k.terminal_array t).screen_x
    (k.terminal_array t).screen_y (s.console t).sheet

theorem Mirrors.shows_texts {k : Kernel} {s : Consoles} (h : Mirrors k s) : ShowsTexts k s :=
  fun t => (h.console t).sheet

/-- **The consoles are three typewriters.** In every orderly run from the start, the screens show
what the typewriters have after the same steps. -/
theorem consoles_refined {env : Env} {k₀ k : Kernel} {ops : List ScreenOp}
    (hstart : Started env k₀) (hops : AllSteps Consoles.step Consoles.Orderly blank_consoles ops)
    (hrun : run screen_step k₀ ops = some k) :
    ∃ s, run Consoles.step blank_consoles ops = some s ∧ ShowsTexts k s := by
  have hsim : ∀ k s op k', Mirrors k s → s.Orderly op → screen_step k op = some k' →
      ∃ s', s.step op = some s' ∧ Mirrors k' s' := fun k s op k' h hop hstep => h.step hop hstep
  obtain ⟨s, hs, hmirrors⟩ := run_simulation Mirrors hsim (mirrors_boot hstart) hops hrun
  exact ⟨s, hs, hmirrors.shows_texts⟩

/-- A prompt, a character taken back, a key for another terminal, and an ENTER. -/
def typed_session : List ScreenOp :=
  [.tick, .write (some (c_str (ascii "> "))) 2, .read_begin demo_buf 128, .key 97, .key BACKSPACE_PRESSED,
    .key 98, .tick, .write (some (c_str (ascii "$ "))) 2, .read_begin demo_buf 128, .switch_screen 1,
    .key 99, .switch_screen 0, .key ENTER_KEY]

theorem consoles_refined_demo : ∃ k s, run screen_step demo typed_session = some k ∧
    run Consoles.step blank_consoles typed_session = some s ∧ ShowsTexts k s ∧
    (s.console 0).sheet.text = ascii "> b\n" ∧ (s.console 1).sheet.text = ascii "$ c" := by
  have hrun : (run screen_step demo typed_session).isSome = true := by decide +kernel
  obtain ⟨k, hk⟩ := Option.isSome_iff_exists.mp hrun
  obtain ⟨s, hs, hshows⟩ := consoles_refined demo_started
    (by decide +kernel : AllSteps Consoles.step Consoles.Orderly blank_consoles typed_session) hk
  have htexts : (run Consoles.step blank_consoles typed_session).map (fun s =>
      ((s.console 0).sheet.text, (s.console 1).sheet.text))
      = some (ascii "> b\n", ascii "$ c") := by decide +kernel
  rw [hs, Option.map_some, Option.some.injEq, Prod.mk.injEq] at htexts
  exact ⟨k, s, hk, hs, hshows, htexts⟩

end LinuxLikeOS
