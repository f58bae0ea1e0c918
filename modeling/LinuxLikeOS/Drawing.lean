/-
What the drawing routines do to one console.

A console is the page of a terminal with the fields that say where and how to draw on it.
`clear`, `putc` and `erase_char` get one equation each for the position they leave and the
cells they write. From them follow the two facts the consoles are separated by: a routine
writes inside the page of its terminal (`Local`), and what it writes depends on that
console only (`Same`).
-/
import LinuxLikeOS.Frames

set_option autoImplicit false

namespace LinuxLikeOS

open Kernel

/-! ## Pages -/

/-- The first cell of the page a terminal draws on. -/
def page_of (k : Kernel) (t : Terminal) : Int :=
  if t = k.screen_terminal then 0 else backup_page t

/-- The page a drawing routine picks is the one of the terminal it picks. -/
theorem true_mem_eq (k : Kernel) : true_mem k = page_of k (draw_terminal k) := by
  unfold true_mem page_of draw_terminal
  by_cases h : to_backup_page k
  · rw [if_pos h, if_pos h, if_neg h.1]
  · rw [if_neg h, if_neg h, if_pos rfl]

/-- The backup pages of different terminals are different. -/
theorem backup_page_disjoint {t u : Terminal} (htu : u ≠ t) {c : Int} (h₀ : 0 ≤ c)
    (h₁ : c < PAGE_CELLS) :
    backup_page u + c < backup_page t ∨ backup_page t + PAGE_CELLS ≤ backup_page u + c := by
  have hcells : PAGE_CELLS = 2048 := rfl
  have hval : u.val ≠ t.val := by
    intro heq
    exact htu (Fin.ext heq)
  unfold backup_page
  rw [hcells] at h₁ ⊢
  omega

/-- They all lie behind the page on display. -/
theorem backup_page_ge (t : Terminal) : PAGE_CELLS ≤ backup_page t := by
  have hcells : PAGE_CELLS = 2048 := rfl
  unfold backup_page
  rw [hcells]
  omega

/-- Different terminals draw on different pages. -/
theorem page_of_disjoint {k : Kernel} {t u : Terminal} (htu : u ≠ t) {c : Int} (h₀ : 0 ≤ c)
    (h₁ : c < PAGE_CELLS) :
    page_of k u + c < page_of k t ∨ page_of k t + PAGE_CELLS ≤ page_of k u + c := by
  unfold page_of
  -- at most one of the two is on display
  by_cases hu : u = k.screen_terminal
  · have ht : t ≠ k.screen_terminal := fun h => htu (hu.trans h.symm)
    have hbackup := backup_page_ge t
    rw [if_pos hu, if_neg ht]
    omega
  · rw [if_neg hu]
    by_cases ht : t = k.screen_terminal
    · have hbackup := backup_page_ge u
      rw [if_pos ht]
      omega
    · rw [if_neg ht]
      exact backup_page_disjoint htu h₀ h₁

/-! ## The two relations -/

/-- Only the console of `t` differs. -/
structure Local (t : Terminal) (k k' : Kernel) : Prop where
  curr_terminal : k'.curr_terminal = k.curr_terminal
  screen_terminal : k'.screen_terminal = k.screen_terminal
  terminal : ∀ u, u ≠ t → k'.terminal_array u = k.terminal_array u
  cell : ∀ c, c < page_of k t ∨ page_of k t + PAGE_CELLS ≤ c → k'.video c = k.video c

theorem page_of_congr {k k' : Kernel} (h : k'.screen_terminal = k.screen_terminal)
    (t : Terminal) : page_of k' t = page_of k t := by
  unfold page_of
  rw [h]

namespace Local

variable {t : Terminal} {k k' k'' : Kernel}

theorem refl (t : Terminal) (k : Kernel) : Local t k k :=
  ⟨rfl, rfl, fun _ _ => rfl, fun _ _ => rfl⟩

theorem trans (h : Local t k k') (h' : Local t k' k'') : Local t k k'' where
  curr_terminal := h'.curr_terminal.trans h.curr_terminal
  screen_terminal := h'.screen_terminal.trans h.screen_terminal
  terminal u hu := (h'.terminal u hu).trans (h.terminal u hu)
  cell c hc := by
    rw [h'.cell c (by rwa [page_of_congr h.screen_terminal]), h.cell c hc]

end Local

/-- The fields of a terminal that its console consists of. -/
structure SameTerminal (ti ti' : terminal_info_t) : Prop where
  screen_x : ti'.screen_x = ti.screen_x
  screen_y : ti'.screen_y = ti.screen_y
  attrib : ti'.attrib = ti.attrib
  buffer : ∀ i, i < MAX_BUF_SIZE → ti'.buffer i = ti.buffer i
  buffer_size : ti'.buffer_size = ti.buffer_size
  waitingInRead : ti'.waitingInRead = ti.waitingInRead
  enter_flag : ti'.enter_flag = ti.enter_flag

/-- The console of `t` is the same in two kernels, each with its own page for it. -/
structure Same (t : Terminal) (k r : Kernel) : Prop where
  terminal : SameTerminal (k.terminal_array t) (r.terminal_array t)
  cell : ∀ c, 0 ≤ c → c < PAGE_CELLS → r.video (page_of r t + c) = k.video (page_of k t + c)

namespace Same

variable {t : Terminal} {k k' r : Kernel}

theorem refl (t : Terminal) (k : Kernel) : Same t k k :=
  ⟨⟨rfl, rfl, rfl, fun _ _ => rfl, rfl, rfl, rfl⟩, fun _ _ _ => rfl⟩

theorem symm (h : Same t k r) : Same t r k where
  terminal :=
    { screen_x := h.terminal.screen_x.symm
      screen_y := h.terminal.screen_y.symm
      attrib := h.terminal.attrib.symm
      buffer := fun i hi => (h.terminal.buffer i hi).symm
      buffer_size := h.terminal.buffer_size.symm
      waitingInRead := h.terminal.waitingInRead.symm
      enter_flag := h.terminal.enter_flag.symm }
  cell c h₀ h₁ := (h.cell c h₀ h₁).symm

theorem trans (h : Same t k k') (h' : Same t k' r) : Same t k r where
  terminal :=
    { screen_x := h'.terminal.screen_x.trans h.terminal.screen_x
      screen_y := h'.terminal.screen_y.trans h.terminal.screen_y
      attrib := h'.terminal.attrib.trans h.terminal.attrib
      buffer := fun i hi => (h'.terminal.buffer i hi).trans (h.terminal.buffer i hi)
      buffer_size := h'.terminal.buffer_size.trans h.terminal.buffer_size
      waitingInRead := h'.terminal.waitingInRead.trans h.terminal.waitingInRead
      enter_flag := h'.terminal.enter_flag.trans h.terminal.enter_flag }
  cell c h₀ h₁ := (h'.cell c h₀ h₁).trans (h.cell c h₀ h₁)

end Same

/-- What is local to one terminal does not show on another. -/
theorem Local.same {t u : Terminal} {k k' : Kernel} (h : Local t k k') (hu : u ≠ t) :
    Same u k k' where
  terminal := by
    rw [h.terminal u hu]
    exact (Same.refl u k).terminal
  cell c h₀ h₁ := by
    rw [page_of_congr h.screen_terminal]
    exact h.cell _ (page_of_disjoint hu h₀ h₁)

/-! ## The scroll -/

theorem scroll_row_outside {page : Int} {A : UInt8} {i : ℕ} {video : Int → cell} {c : Int}
    (hi : i < NUM_ROWS - 1) (hc : c < page ∨ page + NUM_ROWS * NUM_COLS ≤ c) :
    scroll_row page A i video c = video c := by
  have hcols : (NUM_COLS : Int) = 80 := rfl
  have hrows : (NUM_ROWS : Int) = 25 := rfl
  have hrows' : NUM_ROWS = 25 := rfl
  rw [hcols, hrows] at hc
  unfold scroll_row
  rw [if_neg]
  rw [hcols]
  omega

/-- The scroll writes the 2000 cells of the screen only. -/
theorem scroll_outside {page : Int} {A : UInt8} {video : Int → cell} {c : Int}
    (hc : c < page ∨ page + NUM_ROWS * NUM_COLS ≤ c) : scroll page A video c = video c := by
  have hcols : (NUM_COLS : Int) = 80 := rfl
  have hrows : (NUM_ROWS : Int) = 25 := rfl
  -- no row of the loop writes the cell, and neither does the blank one
  have hloop : for_loop (scroll_row page A) (NUM_ROWS - 1) video c = video c := by
    apply for_loop_invariant (fun _ (v : Int → cell) => v c = video c) rfl
    intro i v hi hv
    rw [scroll_row_outside hi hc, hv]
  rw [hcols, hrows] at hc
  unfold scroll
  rw [if_neg, hloop]
  rw [hcols, hrows]
  omega

/-- What the scroll leaves in a page depends on that page only. -/
theorem scroll_same {p p' : Int} {A : UInt8} {v v' : Int → cell}
    (h : ∀ c, 0 ≤ c → c < PAGE_CELLS → v' (p' + c) = v (p + c)) (c : Int) (h₀ : 0 ≤ c)
    (h₁ : c < PAGE_CELLS) : scroll p' A v' (p' + c) = scroll p A v (p + c) := by
  have hcells : PAGE_CELLS = 2048 := rfl
  have hcols : (NUM_COLS : Int) = 80 := rfl
  have hrows : (NUM_ROWS : Int) = 25 := rfl
  have hrows' : NUM_ROWS = 25 := rfl
  -- the two loops go row by row together
  have hloop : ∀ c, 0 ≤ c → c < PAGE_CELLS →
      for_loop (scroll_row p' A) (NUM_ROWS - 1) v' (p' + c)
        = for_loop (scroll_row p A) (NUM_ROWS - 1) v (p + c) := by
    apply for_loop_related
      (fun (v v' : Int → cell) => ∀ c, 0 ≤ c → c < PAGE_CELLS → v (p' + c) = v' (p + c)) ?_ h
    intro i w w' hi hw c hc₀ hc₁
    unfold scroll_row
    rw [hcols]
    by_cases hrow : 80 * (i : Int) ≤ c ∧ c < 80 * (i : Int) + 80
    · -- the row below is inside the page
      have hbelow := hw (c + 80) (by omega) (by omega)
      rw [if_pos (by omega), if_pos (by omega), Int.add_assoc, hbelow, Int.add_assoc]
    · rw [if_neg (by omega), if_neg (by omega), hw c hc₀ hc₁]
  unfold scroll
  rw [hcols, hrows]
  by_cases hlast : 80 * (25 - 1) ≤ c ∧ c < 80 * (25 - 1) + 80
  · rw [if_pos (by omega), if_pos (by omega)]
  · rw [if_neg (by omega), if_neg (by omega), hloop c h₀ h₁]

/-! ## Positions -/

/-- A terminal at a position. -/
def at_position (p : Int × Int) (ti : terminal_info_t) : terminal_info_t :=
  { ti with screen_x := p.1, screen_y := p.2 }

/-- The position is one of the 25 rows of 80 columns. -/
def InScreen (ti : terminal_info_t) : Prop :=
  (0 ≤ ti.screen_x ∧ ti.screen_x < NUM_COLS) ∧ 0 ≤ ti.screen_y ∧ ti.screen_y < NUM_ROWS

instance (ti : terminal_info_t) : Decidable (InScreen ti) := inferInstanceAs (Decidable (_ ∧ _))

/-- The cursor is on the first cell of the screen. -/
def AtOrigin (ti : terminal_info_t) : Prop := ti.screen_x = 0 ∧ ti.screen_y = 0

instance (ti : terminal_info_t) : Decidable (AtOrigin ti) := inferInstanceAs (Decidable (_ ∧ _))

theorem AtOrigin.in_screen {ti : terminal_info_t} (h : AtOrigin ti) : InScreen ti := by
  have hcols : (0 : Int) < NUM_COLS := by decide
  have hrows : (0 : Int) < NUM_ROWS := by decide
  unfold InScreen
  rw [h.1, h.2]
  exact ⟨⟨Int.le_refl 0, hcols⟩, Int.le_refl 0, hrows⟩

/-- The position after a byte is stored. -/
def stored (c : UInt8) (x y : Int) : Int × Int :=
  if c = END_OF_LINE ∨ c = CARRIAGE_RETURN then (0, y + 1)
  else if x + 1 ≥ NUM_COLS then (0, y + 1) else (x + 1, y)

/-- The position after the scroll that keeps it on the screen. -/
def scrolled (p : Int × Int) : Int × Int := if p.2 > NUM_ROWS - 1 then (0, NUM_ROWS - 1) else p

/-- The cells after a byte is stored. -/
def inked (c A : UInt8) (at_cell : Int) (video : Int → cell) : Int → cell :=
  if c = END_OF_LINE ∨ c = CARRIAGE_RETURN then video else Function.update video at_cell ⟨c, A⟩

/-- The cells after `putc`. -/
def drawn (c A : UInt8) (page x y : Int) (video : Int → cell) : Int → cell :=
  if (stored c x y).2 > NUM_ROWS - 1 then
    scroll page A (inked c A (page + (NUM_COLS * y + x)) video)
  else inked c A (page + (NUM_COLS * y + x)) video

/-- `putc` stays on the screen. -/
theorem scrolled_stored_range (c : UInt8) {ti : terminal_info_t} (h : InScreen ti) :
    InScreen (at_position (scrolled (stored c ti.screen_x ti.screen_y)) ti) := by
  have hcols : (NUM_COLS : Int) = 80 := rfl
  have hrows : (NUM_ROWS : Int) = 25 := rfl
  unfold InScreen at h ⊢
  unfold at_position scrolled stored
  rw [hcols, hrows] at h ⊢
  dsimp only
  split
  · dsimp only
    split <;> dsimp only <;> omega
  · split
    · dsimp only
      split <;> dsimp only <;> omega
    · dsimp only
      split <;> dsimp only <;> omega

/-! ## `clear` -/

theorem draw_flags_eq (k : Kernel) :
    (draw_flags k).terminal_array = k.terminal_array ∧ (draw_flags k).video = k.video ∧
      (draw_flags k).curr_terminal = k.curr_terminal ∧
      (draw_flags k).screen_terminal = k.screen_terminal := by
  unfold draw_flags
  split <;> exact ⟨rfl, rfl, rfl, rfl⟩

/-- After the test the one-shot flag is off. -/
theorem draw_flags_display (k : Kernel) : (draw_flags k).DISPLAY_ON_MAIN_PAGE = 0 := by
  unfold draw_flags
  split
  · rename_i h
    exact h.2
  · rfl

/-- `terminal_flag` stands for the terminal that is drawn on. -/
theorem draw_flags_terminal (k : Kernel) :
    (if (draw_flags k).terminal_flag = 1 then (draw_flags k).curr_terminal
      else (draw_flags k).screen_terminal) = draw_terminal k := by
  unfold draw_flags draw_terminal
  split <;> rfl

theorem clear_terminal (k : Kernel) (u : Terminal) :
    (clear k).terminal_array u
      = if u = draw_terminal k then at_position (0, 0) (k.terminal_array u)
        else k.terminal_array u := by
  have hclear : (clear k).terminal_array u
      = ((draw_flags k).set_terminal (draw_terminal k)
          fun ti => { ti with screen_x := 0, screen_y := 0 }).terminal_array u := rfl
  rw [hclear, set_terminal_apply, (draw_flags_eq k).1]
  split
  · rename_i hu
    rw [hu]
    rfl
  · rfl

theorem clear_video (k : Kernel) (c : Int) :
    (clear k).video c
      = if page_of k (draw_terminal k) ≤ c ∧
            c < page_of k (draw_terminal k) + NUM_ROWS * NUM_COLS then
          ⟨SPACE_ASCII, (k.terminal_array (draw_terminal k)).attrib⟩
        else k.video c := by
  have hattrib : ((clear k).terminal_array (draw_terminal k)).attrib
      = (k.terminal_array (draw_terminal k)).attrib := by
    rw [clear_terminal, if_pos rfl]
    rfl
  rw [← true_mem_eq, ← hattrib, ← (draw_flags_eq k).2.1]
  rfl

theorem local_clear (k : Kernel) : Local (draw_terminal k) k (clear k) where
  curr_terminal := (draws_clear k).curr_terminal
  screen_terminal := (draws_clear k).screen_terminal
  terminal u hu := by rw [clear_terminal, if_neg hu]
  cell c hc := by
    have hcells : PAGE_CELLS = 2048 := rfl
    have hscreen : (NUM_ROWS : Int) * NUM_COLS = 2000 := rfl
    rw [clear_video, if_neg]
    rw [hscreen]
    omega

theorem same_clear {t : Terminal} {k r : Kernel} (h : Same t k r) (hk : draw_terminal k = t)
    (hr : draw_terminal r = t) : Same t (clear k) (clear r) where
  terminal := by
    rw [clear_terminal, clear_terminal, if_pos hk.symm, if_pos hr.symm]
    exact { h.terminal with screen_x := rfl, screen_y := rfl }
  cell c h₀ h₁ := by
    rw [page_of_congr (draws_clear k).screen_terminal, page_of_congr (draws_clear r).screen_terminal,
      clear_video, clear_video, hk, hr, h.terminal.attrib, h.cell c h₀ h₁]
    -- the same cells of the two pages are blanked
    by_cases hc : c < NUM_ROWS * NUM_COLS
    · rw [if_pos (by omega), if_pos (by omega)]
    · rw [if_neg (by omega), if_neg (by omega)]

/-! ## `putc` -/

theorem check_size_eq {t : Terminal} {k : Kernel}
    (ht : (if k.terminal_flag = 1 then k.curr_terminal else k.screen_terminal) = t) :
    check_size k = if (k.terminal_array t).screen_x ≥ NUM_COLS then
        k.set_terminal t fun ti => { ti with screen_y := ti.screen_y + 1, screen_x := 0 }
      else k := by
  subst ht
  rfl

theorem putc_store_eq {t : Terminal} {k : Kernel} (c A : UInt8) (page : Int)
    (ht : (if k.terminal_flag = 1 then k.curr_terminal else k.screen_terminal) = t) :
    putc_store c t page A k =
      { k with
        terminal_array := Function.update k.terminal_array t
          (at_position (stored c (k.terminal_array t).screen_x (k.terminal_array t).screen_y)
            (k.terminal_array t))
        video := inked c A (page + cursor_cell (k.terminal_array t)) k.video } := by
  unfold putc_store stored inked
  by_cases hc : c = END_OF_LINE ∨ c = CARRIAGE_RETURN
  · rw [if_pos hc, if_pos hc, if_pos hc]
    rfl
  · -- the column goes up by one, and `check_size` wraps it
    rw [if_neg hc, if_neg hc, if_neg hc]
    dsimp only
    rw [check_size_eq (t := t) (by exact ht)]
    simp only [set_terminal_apply, if_true]
    by_cases hx : (k.terminal_array t).screen_x + 1 ≥ NUM_COLS
    · rw [if_pos hx, if_pos hx]
      unfold set_terminal at_position
      simp only [Function.update_self, Function.update_idem]
    · rw [if_neg hx, if_neg hx]
      rfl

theorem putc_scroll_eq (t : Terminal) (page : Int) (A : UInt8) (k : Kernel) :
    putc_scroll t page A k =
      { k with
        terminal_array := Function.update k.terminal_array t
          (at_position (scrolled ((k.terminal_array t).screen_x, (k.terminal_array t).screen_y))
            (k.terminal_array t))
        video := if (k.terminal_array t).screen_y > NUM_ROWS - 1 then scroll page A k.video
          else k.video } := by
  unfold putc_scroll scrolled
  by_cases hy : (k.terminal_array t).screen_y > NUM_ROWS - 1
  · rw [if_pos hy, if_pos hy, if_pos hy]
    rfl
  · rw [if_neg hy, if_neg hy, if_neg hy]
    unfold at_position
    simp only [Function.update_eq_self]

theorem putc_eq (c : UInt8) (k : Kernel) :
    (putc c k).terminal_array
        = Function.update k.terminal_array (draw_terminal k)
          (at_position
            (scrolled (stored c (k.terminal_array (draw_terminal k)).screen_x
              (k.terminal_array (draw_terminal k)).screen_y))
            (k.terminal_array (draw_terminal k))) ∧
      (putc c k).video
        = drawn c (k.terminal_array (draw_terminal k)).attrib (page_of k (draw_terminal k))
          (k.terminal_array (draw_terminal k)).screen_x
          (k.terminal_array (draw_terminal k)).screen_y k.video ∧
      (putc c k).DISPLAY_ON_MAIN_PAGE = 0 := by
  obtain ⟨hterm, hvideo, -, -⟩ := draw_flags_eq k
  have hputc : putc c k = move_cursor (putc_scroll (draw_terminal k) (true_mem k)
      ((draw_flags k).terminal_array (draw_terminal k)).attrib
      (putc_store c (draw_terminal k) (true_mem k)
        ((draw_flags k).terminal_array (draw_terminal k)).attrib (draw_flags k))) := rfl
  rw [hputc, putc_store_eq _ _ _ (draw_flags_terminal k), putc_scroll_eq, hterm, hvideo, true_mem_eq]
  unfold move_cursor
  refine ⟨?_, ?_, draw_flags_display k⟩
  · simp only [Function.update_self, Function.update_idem]
    rfl
  · simp only [Function.update_self]
    rfl

/-- `putc` writes on the screen of the page while the position is on the screen. -/
theorem drawn_outside {ch A : UInt8} {page : Int} {ti : terminal_info_t} {video : Int → cell}
    {c : Int} (h : InScreen ti) (hc : c < page ∨ page + NUM_ROWS * NUM_COLS ≤ c) :
    drawn ch A page ti.screen_x ti.screen_y video c = video c := by
  have hcols : (NUM_COLS : Int) = 80 := rfl
  have hrows : (NUM_ROWS : Int) = 25 := rfl
  -- the cell under the cursor is one of the first 2000 of the page
  have hink : inked ch A (page + (NUM_COLS * ti.screen_y + ti.screen_x)) video c = video c := by
    unfold inked
    split
    · rfl
    · unfold InScreen at h
      rw [hcols, hrows] at h hc
      apply Function.update_of_ne
      rw [hcols]
      omega
  unfold drawn
  split
  · rw [scroll_outside hc, hink]
  · exact hink

theorem drawn_same {ch A : UInt8} {p p' x y : Int} {v v' : Int → cell}
    (h : ∀ c, 0 ≤ c → c < PAGE_CELLS → v' (p' + c) = v (p + c)) (c : Int) (h₀ : 0 ≤ c)
    (h₁ : c < PAGE_CELLS) : drawn ch A p' x y v' (p' + c) = drawn ch A p x y v (p + c) := by
  have hink : ∀ c, 0 ≤ c → c < PAGE_CELLS →
      inked ch A (p' + (NUM_COLS * y + x)) v' (p' + c) = inked ch A (p + (NUM_COLS * y + x)) v (p + c) := by
    intro c h₀ h₁
    unfold inked
    split
    · exact h c h₀ h₁
    · rw [Function.update_apply, Function.update_apply, h c h₀ h₁]
      by_cases hc : c = NUM_COLS * y + x
      · rw [if_pos (by omega), if_pos (by omega)]
      · rw [if_neg (by omega), if_neg (by omega)]
  unfold drawn
  split
  · exact scroll_same hink c h₀ h₁
  · exact hink c h₀ h₁

theorem putc_terminal (c : UInt8) (k : Kernel) (u : Terminal) :
    (putc c k).terminal_array u
      = if u = draw_terminal k then
          at_position (scrolled (stored c (k.terminal_array u).screen_x
            (k.terminal_array u).screen_y)) (k.terminal_array u)
        else k.terminal_array u := by
  rw [(putc_eq c k).1, Function.update_apply]
  split
  · rename_i hu
    rw [hu]
  · rfl

theorem local_putc {c : UInt8} {k : Kernel} (h : InScreen (k.terminal_array (draw_terminal k))) :
    Local (draw_terminal k) k (putc c k) where
  curr_terminal := (draws_putc c k).curr_terminal
  screen_terminal := (draws_putc c k).screen_terminal
  terminal u hu := by rw [putc_terminal, if_neg hu]
  cell x hx := by
    have hcells : PAGE_CELLS = 2048 := rfl
    have hscreen : (NUM_ROWS : Int) * NUM_COLS = 2000 := rfl
    rw [(putc_eq c k).2.1]
    apply drawn_outside h
    rw [hscreen]
    omega

theorem same_putc {t : Terminal} {k r : Kernel} (c : UInt8) (h : Same t k r)
    (hk : draw_terminal k = t) (hr : draw_terminal r = t) : Same t (putc c k) (putc c r) where
  terminal := by
    rw [putc_terminal, putc_terminal, if_pos hk.symm, if_pos hr.symm, h.terminal.screen_x,
      h.terminal.screen_y]
    exact { h.terminal with screen_x := rfl, screen_y := rfl }
  cell x h₀ h₁ := by
    rw [page_of_congr (draws_putc c k).screen_terminal, page_of_congr (draws_putc c r).screen_terminal,
      (putc_eq c k).2.1, (putc_eq c r).2.1, hk, hr, h.terminal.screen_x, h.terminal.screen_y,
      h.terminal.attrib]
    exact drawn_same h.cell x h₀ h₁

/-! ## `erase_char` -/

/-- The position one cell back. -/
def stepped_back (x y : Int) : Int × Int :=
  if x - 1 < 0 then (NUM_COLS - 1, y - 1) else (x - 1, y)

theorem stepped_back_range {ti : terminal_info_t} (h : InScreen ti) (h₀ : ¬ AtOrigin ti) :
    InScreen (at_position (stepped_back ti.screen_x ti.screen_y) ti) := by
  have hcols : (NUM_COLS : Int) = 80 := rfl
  have hrows : (NUM_ROWS : Int) = 25 := rfl
  unfold AtOrigin at h₀
  unfold InScreen at h ⊢
  unfold at_position stepped_back
  rw [hcols, hrows] at h ⊢
  dsimp only
  split <;> dsimp only <;> omega

/-- The cell `erase_char` blanks, and the position it leaves. -/
def erased (k : Kernel) : Int × Int :=
  stepped_back (k.terminal_array k.screen_terminal).screen_x
    (k.terminal_array k.screen_terminal).screen_y

theorem erase_char_eq (k : Kernel) :
    erase_char k = move_cursor
      { k with
        terminal_flag := 0
        terminal_array := Function.update k.terminal_array k.screen_terminal
          (at_position (erased k) (k.terminal_array k.screen_terminal))
        video := Function.update k.video (NUM_COLS * (erased k).2 + (erased k).1)
          ⟨0, (k.video (NUM_COLS * (erased k).2 + (erased k).1)).attrib⟩ } := by
  unfold erase_char erased stepped_back cursor_cell
  by_cases hx : (k.terminal_array k.screen_terminal).screen_x - 1 < 0
  · rw [if_pos hx]
    simp only [set_terminal, Function.update_self, hx, if_true, Function.update_idem]
    rfl
  · rw [if_neg hx]
    simp only [set_terminal, Function.update_self, hx, if_false]
    rfl

theorem draws_erase_char (k : Kernel) : Draws k (erase_char k) := by
  rw [erase_char_eq]
  have hset : Draws k (k.set_terminal k.screen_terminal (at_position (erased k))) :=
    .of_set_terminal k k.screen_terminal _ fun ti => ⟨(erased k).1, (erased k).2, rfl⟩
  have hvideo := Draws.of_video (k.set_terminal k.screen_terminal (at_position (erased k)))
    (Function.update k.video (NUM_COLS * (erased k).2 + (erased k).1)
      ⟨0, (k.video (NUM_COLS * (erased k).2 + (erased k).1)).attrib⟩)
    k.cursor k.DISPLAY_ON_MAIN_PAGE 0
  exact (hset.trans hvideo).trans (draws_move_cursor _)

theorem erase_char_terminal (k : Kernel) (u : Terminal) :
    (erase_char k).terminal_array u
      = if u = k.screen_terminal then at_position (erased k) (k.terminal_array u)
        else k.terminal_array u := by
  rw [erase_char_eq]
  show Function.update _ _ _ u = _
  rw [Function.update_apply]
  split
  · rename_i hu
    rw [hu]
  · rfl

theorem erase_char_video (k : Kernel) :
    (erase_char k).video = Function.update k.video (NUM_COLS * (erased k).2 + (erased k).1)
      ⟨0, (k.video (NUM_COLS * (erased k).2 + (erased k).1)).attrib⟩ := by
  rw [erase_char_eq]
  rfl

theorem page_of_screen (k : Kernel) : page_of k k.screen_terminal = 0 := if_pos rfl

/-- A backspace stays on the screen, and so on its page, unless the cursor is on the first
cell. -/
theorem local_erase_char {k : Kernel} (h : InScreen (k.terminal_array k.screen_terminal))
    (h₀ : ¬ AtOrigin (k.terminal_array k.screen_terminal)) :
    Local k.screen_terminal k (erase_char k) where
  curr_terminal := (draws_erase_char k).curr_terminal
  screen_terminal := (draws_erase_char k).screen_terminal
  terminal u hu := by rw [erase_char_terminal, if_neg hu]
  cell c hc := by
    have hcells : PAGE_CELLS = 2048 := rfl
    have hcols : (NUM_COLS : Int) = 80 := rfl
    have hrows : (NUM_ROWS : Int) = 25 := rfl
    have hrange : InScreen (at_position (erased k) _) := stepped_back_range h h₀
    unfold InScreen at_position at hrange
    dsimp only at hrange
    rw [page_of_screen] at hc
    rw [erase_char_video]
    apply Function.update_of_ne
    rw [hcols]
    omega

theorem same_erase_char {k r : Kernel} (h : Same k.screen_terminal k r)
    (hr : r.screen_terminal = k.screen_terminal) :
    Same k.screen_terminal (erase_char k) (erase_char r) := by
  have herased : erased r = erased k := by
    unfold erased
    rw [hr, h.terminal.screen_x, h.terminal.screen_y]
  -- on display in both kernels, so the page begins at cell 0 in both
  have hcell : ∀ c, 0 ≤ c → c < PAGE_CELLS → r.video c = k.video c := by
    intro c h₀ h₁
    have hc := h.cell c h₀ h₁
    rw [page_of_screen, ← hr, page_of_screen, Int.zero_add] at hc
    exact hc
  constructor
  · rw [erase_char_terminal, erase_char_terminal, if_pos rfl, if_pos hr.symm, herased]
    exact { h.terminal with screen_x := rfl, screen_y := rfl }
  · intro c h₀ h₁
    rw [page_of_congr (draws_erase_char k).screen_terminal,
      page_of_congr (draws_erase_char r).screen_terminal, page_of_screen, ← hr, page_of_screen,
      Int.zero_add, erase_char_video, erase_char_video, herased, Function.update_apply,
      Function.update_apply, hcell c h₀ h₁]
    split
    · rename_i hc
      rw [← hc, hcell c h₀ h₁]
    · rfl

end LinuxLikeOS
