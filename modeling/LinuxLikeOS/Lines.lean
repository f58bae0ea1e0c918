/-
The consoles as a machine of their own, and the bounds of the line buffers.

Output, keys, reads, timer interrupts and screen switches come in any order, each with
interrupts off. A line may have 128 bytes, and `edit_buffer` takes 127 characters and
ENTER. What it does not look at is `enter_flag`: until the reader has been scheduled the
full line still takes keys, and the next one is stored behind the buffer, on `buffer_size`
itself. So the bounds hold in a run exactly when no key comes to a full line that is
waiting for its reader.
-/
import LinuxLikeOS.Start

set_option autoImplicit false

namespace LinuxLikeOS

open Kernel Transition

/-! ## The machine -/

/-- The steps of the consoles. Output and reads come from the process of the scheduled
terminal, keys go to the terminal on display. -/
inductive ConsoleOp
  | putc (c : UInt8)
  | clear
  | key (response : UInt8)
  /-- `terminal_read` up to its waiting loop. -/
  | read_begin (buf : ℕ) (nbytes : Int)
  /-- `terminal_read` from its waiting loop on, with the caller's buffer. -/
  | read_end (nbytes : Int) (buf : ℕ → UInt8)
  | tick
  | switch_screen (t : Terminal)

/-- The waiting loop of the scheduled terminal's reader ends. -/
def line_ready (k : Kernel) : Prop :=
  (k.terminal_array k.curr_terminal).waitingInRead = 1 ∧
    (k.terminal_array k.curr_terminal).enter_flag = 1

instance (k : Kernel) : Decidable (line_ready k) := inferInstanceAs (Decidable (_ ∧ _))

def console_step (k : Kernel) : ConsoleOp → Option Kernel
  | .putc c => some (putc c k)
  | .clear => some (clear k)
  | .key response => some (edit_buffer response k)
  | .read_begin buf nbytes => some (terminal_read_begin buf nbytes k).2
  | .read_end nbytes buf => if line_ready k then some (terminal_read_end nbytes buf k).2.2 else none
  | .tick => some { k with curr_terminal := next_terminal k.curr_terminal }
  | .switch_screen t => some (switch_screen t k)

/-- The step `tick` is a timer interrupt, up to what the consoles do not read. -/
theorem perform_tick_consoles {env : Env} {fr : frame} {k k' : Kernel} {c : Control}
    (hflag : ∀ t, (k.terminal_array t).flag = 1) (h : perform env k (.tick fr) = some (c, k')) :
    ∃ k₁ pcb paging tss, console_step k .tick = some k₁ ∧
      k' = { k₁ with pcb := pcb, paging := paging, tss := tss } := by
  rw [perform_tick hflag h]
  exact ⟨_, _, _, _, rfl, rfl⟩

/-- The line `edit_buffer` works on. -/
def line_size (k : Kernel) : ℕ := (k.terminal_array k.screen_terminal).buffer_size

/-- `edit_buffer` takes keys for the line. -/
def line_waiting (k : Kernel) : Prop := (k.terminal_array k.screen_terminal).waitingInRead = 1

instance (k : Kernel) : Decidable (line_waiting k) := inferInstanceAs (Decidable (_ = _))

/-! ## The parts of `edit_buffer` -/

theorem draws_echo (c : UInt8) (k : Kernel) : Draws k (echo c k) :=
  (Draws.of_video k k.video k.cursor 1 k.terminal_flag).trans (draws_putc c _)

/-- The keyboard clears the page on display. -/
theorem draws_clear_display (k : Kernel) : Draws k (clear { k with DISPLAY_ON_MAIN_PAGE := 1 }) :=
  (Draws.of_video k k.video k.cursor 1 k.terminal_flag).trans (draws_clear _)

/-- Printing leaves the lines alone. -/
theorem Draws.line {k k' : Kernel} (h : Draws k k') :
    line_size k' = line_size k ∧ (line_waiting k' ↔ line_waiting k) := by
  unfold line_size line_waiting
  rcases h.terminal k.screen_terminal with ⟨x, y, hxy⟩
  rw [h.screen_terminal, hxy]
  exact ⟨rfl, Iff.rfl⟩

/-- Every store is on record. -/
theorem line_store_accesses (t : Terminal) (i : ℕ) (v : UInt8) (k : Kernel) :
    (line_store t i v k).line_accesses = i :: k.line_accesses := by
  unfold line_store
  dsimp only
  split
  · rfl
  · split <;> rfl

/-- A store inside the buffer. -/
theorem line_store_eq {t : Terminal} {i : ℕ} (hi : i < MAX_BUF_SIZE) (v : UInt8) (k : Kernel) :
    line_store t i v k =
      { k with
        terminal_array := Function.update k.terminal_array t
          { k.terminal_array t with
            buffer := Function.update (k.terminal_array t).buffer i v }
        line_accesses := i :: k.line_accesses } := by
  have hoff : BUFFER_OFFSET = 16 := rfl
  have hbytes : TERMINAL_INFO_BYTES = 172 := rfl
  have hmax : MAX_BUF_SIZE = 128 := rfl
  have hbyte : ∀ ti, set_terminal_byte (BUFFER_OFFSET + i) v ti
      = { ti with buffer := Function.update ti.buffer i v } := by
    intro ti
    unfold set_terminal_byte
    rw [if_neg (by omega), if_neg (by omega), if_neg (by omega), if_neg (by omega),
      if_pos (by omega), hoff, Nat.add_sub_cancel_left]
  unfold line_store
  dsimp only
  rw [if_pos (by omega)]
  unfold set_terminal
  rw [hbyte]

theorem store_at_end_eq (v : UInt8) {k : Kernel} (h : line_size k < MAX_BUF_SIZE) :
    store_at_end v k =
      { k with
        terminal_array := Function.update k.terminal_array k.screen_terminal
          { k.terminal_array k.screen_terminal with
            buffer := Function.update (k.terminal_array k.screen_terminal).buffer (line_size k) v }
        line_accesses := line_size k :: k.line_accesses } :=
  line_store_eq h v k

theorem store_at_end_line (v : UInt8) {k : Kernel} (h : line_size k < MAX_BUF_SIZE) :
    line_size (store_at_end v k) = line_size k ∧
      (line_waiting (store_at_end v k) ↔ line_waiting k) := by
  rw [store_at_end_eq v h]
  unfold line_size line_waiting
  dsimp only
  rw [Function.update_self]
  exact ⟨rfl, Iff.rfl⟩

theorem enter_flag_line (k : Kernel) :
    line_size (k.set_terminal k.screen_terminal fun ti => { ti with enter_flag := 1 }) = line_size k ∧
      (line_waiting (k.set_terminal k.screen_terminal fun ti => { ti with enter_flag := 1 }) ↔
        line_waiting k) := by
  unfold line_size line_waiting
  show ((k.set_terminal k.screen_terminal _).terminal_array k.screen_terminal).buffer_size = _ ∧
    (((k.set_terminal k.screen_terminal _).terminal_array k.screen_terminal).waitingInRead = 1 ↔ _)
  rw [set_terminal_apply, if_pos rfl]
  exact ⟨rfl, Iff.rfl⟩

theorem line_size_shrink_line (k : Kernel) :
    line_size (shrink_line k) = (line_size k + 255) % 256 := by
  unfold line_size
  show ((k.set_terminal k.screen_terminal _).terminal_array k.screen_terminal).buffer_size = _
  rw [set_terminal_apply, if_pos rfl]

theorem line_size_grow_line (k : Kernel) : line_size (grow_line k) = (line_size k + 1) % 256 := by
  unfold line_size
  show ((k.set_terminal k.screen_terminal _).terminal_array k.screen_terminal).buffer_size = _
  rw [set_terminal_apply, if_pos rfl]

/-! ## The branches of `edit_buffer` -/

/-- What `edit_buffer` does with a key. -/
inductive KeyBranch
  | redraw
  | nothing
  | enter
  | delete
  | add

/-- The key is one for the line, and the line waits for keys. -/
def Taken (response : UInt8) (ti : terminal_info_t) : Prop :=
  response ≠ CTL_L_CMD ∧ response ≠ 0 ∧ ti.waitingInRead = 1

instance (response : UInt8) (ti : terminal_info_t) : Decidable (Taken response ti) :=
  inferInstanceAs (Decidable (_ ∧ _))

/-- The branch and what has led to it. ENTER on a line of 126 characters is not a branch of
its own. -/
inductive KeyCase (response : UInt8) (ti : terminal_info_t) : KeyBranch → Prop
  | redraw (key : response = CTL_L_CMD) : KeyCase response ti .redraw
  | idle (taken : ¬ Taken response ti) (key : response ≠ CTL_L_CMD) : KeyCase response ti .nothing
  | full (taken : Taken response ti) (erase : response ≠ BACKSPACE_PRESSED)
      (enter : response ≠ ENTER_KEY) (size : ti.buffer_size = MAX_BUF_SIZE - 1) :
      KeyCase response ti .nothing
  | enter (taken : Taken response ti) (key : response = ENTER_KEY) : KeyCase response ti .enter
  | delete (taken : Taken response ti) (key : response = BACKSPACE_PRESSED) :
      KeyCase response ti .delete
  | add (taken : Taken response ti) (erase : response ≠ BACKSPACE_PRESSED)
      (enter : response ≠ ENTER_KEY) (size : ti.buffer_size ≠ MAX_BUF_SIZE - 1) :
      KeyCase response ti .add

/-- The branch as the statements it stands for. -/
def KeyBranch.perform (response : UInt8) (k : Kernel) : KeyBranch → Kernel
  | .redraw => redraw_line k
  | .nothing => k
  | .enter => enter_line k
  | .delete => delete_char k
  | .add => add_char response k

/-- **`edit_buffer`, branch by branch.** The branch is picked by the key and by what the
terminal on display says of its line. -/
theorem edit_buffer_eq {response : UInt8} {k : Kernel} {b : KeyBranch}
    (h : KeyCase response (k.terminal_array k.screen_terminal) b) :
    edit_buffer response k = b.perform response k := by
  have hback : BACKSPACE_PRESSED ≠ ENTER_KEY := by decide
  unfold edit_buffer
  dsimp only
  cases h with
  | redraw key => exact if_pos key
  | idle taken key =>
      rw [if_neg key]
      exact if_neg fun hwait => taken ⟨key, hwait.2, hwait.1⟩
  | full taken erase enter size =>
      rw [if_neg taken.1, if_pos ⟨taken.2.2, taken.2.1⟩, if_neg (fun h => enter h.2),
        if_neg erase]
      exact if_pos ⟨size, enter⟩
  | enter taken key =>
      have hfull : ¬ ((k.terminal_array k.screen_terminal).buffer_size = MAX_BUF_SIZE - 1 ∧
          response ≠ ENTER_KEY) := fun h => h.2 key
      have herase : response ≠ BACKSPACE_PRESSED := fun h => hback (h.symm.trans key)
      rw [if_neg taken.1, if_pos ⟨taken.2.2, taken.2.1⟩, if_neg herase, if_neg hfull, if_pos key,
        ite_self]
      rfl
  | delete taken key =>
      rw [if_neg taken.1, if_pos ⟨taken.2.2, taken.2.1⟩,
        if_neg (fun h => hback (key.symm.trans h.2))]
      exact if_pos key
  | add taken erase enter size =>
      rw [if_neg taken.1, if_pos ⟨taken.2.2, taken.2.1⟩, if_neg (fun h => enter h.2),
        if_neg erase, if_neg (fun h => size h.1)]
      exact if_neg enter

/-- There is always one. -/
theorem exists_keyCase (response : UInt8) (ti : terminal_info_t) : ∃ b, KeyCase response ti b := by
  by_cases hctl : response = CTL_L_CMD
  · exact ⟨_, .redraw hctl⟩
  · by_cases htaken : Taken response ti
    · by_cases hback : response = BACKSPACE_PRESSED
      · exact ⟨_, .delete htaken hback⟩
      · by_cases henter : response = ENTER_KEY
        · exact ⟨_, .enter htaken henter⟩
        · by_cases hsize : ti.buffer_size = MAX_BUF_SIZE - 1
          · exact ⟨_, .full htaken hback henter hsize⟩
          · exact ⟨_, .add htaken hback henter hsize⟩
    · exact ⟨_, .idle htaken hctl⟩

/-- The branch depends on two fields of the terminal. -/
theorem KeyCase.congr {response : UInt8} {ti ti' : terminal_info_t} {b : KeyBranch}
    (h : KeyCase response ti b) (hsize : ti'.buffer_size = ti.buffer_size)
    (hwait : ti'.waitingInRead = ti.waitingInRead) : KeyCase response ti' b := by
  have htaken : Taken response ti' ↔ Taken response ti := by
    unfold Taken
    rw [hwait]
  cases h with
  | redraw key => exact .redraw key
  | idle taken key => exact .idle (fun h => taken (htaken.mp h)) key
  | full taken erase enter size => exact .full (htaken.mpr taken) erase enter (hsize.trans size)
  | enter taken key => exact .enter (htaken.mpr taken) key
  | delete taken key => exact .delete (htaken.mpr taken) key
  | add taken erase enter size =>
      exact .add (htaken.mpr taken) erase enter (fun h => size (hsize.symm.trans h))

/-- The rule for a backspace: it takes a byte when there is one, and the second test finds an
empty line or nothing to do. -/
theorem delete_char_rule {Q : Kernel → Prop} {k : Kernel}
    (htaken : 0 < line_size k → Q (shrink_line (store_at_end 0 (erase_char k))))
    (hnone : line_size k = 0 → Q k)
    (hempty : ∀ k₁, Q k₁ → line_size k₁ = 0 → Q (store_at_end 0 k₁)) : Q (delete_char k) := by
  have hlast : ∀ k₁, Q k₁ → Q (if (k₁.terminal_array k₁.screen_terminal).buffer_size = 0 then
      store_at_end 0 k₁ else k₁) := by
    intro k₁ h₁
    split
    · rename_i hsize
      exact hempty k₁ h₁ hsize
    · exact h₁
  unfold delete_char
  dsimp only
  by_cases hpos : (k.terminal_array k.screen_terminal).buffer_size > 0
  · rw [if_pos hpos]
    exact hlast _ (htaken hpos)
  · rw [if_neg hpos]
    exact hlast _ (hnone (Nat.eq_zero_of_not_pos hpos))

/-- The rule for Ctrl-L: the loop prints as many bytes as the line has. -/
theorem redraw_line_rule {Q : ℕ → Kernel → Prop} {k : Kernel}
    (hclear : Q 0 (clear { k with DISPLAY_ON_MAIN_PAGE := 1 }))
    (hnext : ∀ i k₁, i < line_size k → Q i k₁ → Q (i + 1) (redraw_char i k₁)) :
    Q (line_size k) (redraw_line k) := by
  have hsize := (draws_clear_display k).line.1
  unfold redraw_line
  dsimp only
  generalize clear { k with DISPLAY_ON_MAIN_PAGE := 1 } = cleared at hclear hsize ⊢
  rw [← hsize] at hnext ⊢
  exact for_loop_invariant Q hclear fun i k₁ hi h₁ => hnext i k₁ hi h₁

/-- The copy loop of `terminal_read` starts at most one iteration for each byte asked for. -/
theorem read_loop_index (ti : terminal_info_t) (m i numbytes : ℕ) (buf : ℕ → UInt8) :
    (if (read_loop ti m i numbytes buf).enterAtEnd then (read_loop ti m i numbytes buf).i + 1
      else (read_loop ti m i numbytes buf).i) ≤ i + m := by
  induction m generalizing i numbytes buf with
  | zero => exact Nat.le_refl i
  | succ m ih =>
      rw [read_loop]
      -- the iteration that finds the line break is the last one started
      split
      · simp only [if_true]
        omega
      · have hrest := ih (i + 1) (if i < ti.buffer_size then numbytes + 1 else numbytes)
          (if i < ti.buffer_size then Function.update buf i (ti.buffer i) else buf)
        omega

/-! ## The bounds -/

/-- Every access to a line buffer was inside it, and no line is longer. -/
structure LineBounds (k : Kernel) : Prop where
  accesses : ∀ i, i ∈ k.line_accesses → i < MAX_BUF_SIZE
  buffer_size : ∀ t, (k.terminal_array t).buffer_size ≤ MAX_BUF_SIZE

/-- A key that `edit_buffer` would take does not come to a full line. -/
def KeyFits (k : Kernel) : ConsoleOp → Prop
  | .key response => response ≠ CTL_L_CMD → response ≠ 0 → line_waiting k →
      line_size k ≠ MAX_BUF_SIZE
  | _ => True

instance (k : Kernel) : (op : ConsoleOp) → Decidable (KeyFits k op)
  | .key response => inferInstanceAs (Decidable (response ≠ CTL_L_CMD → response ≠ 0 →
      line_waiting k → line_size k ≠ MAX_BUF_SIZE))
  | .putc _ | .clear | .read_begin _ _ | .read_end _ _ | .tick | .switch_screen _ => isTrue trivial

/-- A key that fits finds room behind the line. -/
theorem line_lt_of_fits {response : UInt8} {k : Kernel} (hn : line_size k ≤ MAX_BUF_SIZE)
    (hfits : KeyFits k (.key response)) (htaken : Taken response (k.terminal_array k.screen_terminal)) :
    line_size k < MAX_BUF_SIZE :=
  Nat.lt_of_le_of_ne hn (hfits htaken.1 htaken.2.1 htaken.2.2)

namespace LineBounds

variable {k k' : Kernel}

theorem draws (h : LineBounds k) (hd : Draws k k') : LineBounds k' where
  accesses := by
    rw [hd.line_accesses]
    exact h.accesses
  buffer_size t := by
    rcases hd.terminal t with ⟨x, y, hxy⟩
    rw [hxy]
    exact h.buffer_size t

theorem line_le (h : LineBounds k) : line_size k ≤ MAX_BUF_SIZE := h.buffer_size _

theorem set_terminal (h : LineBounds k) {t : Terminal} {f : terminal_info_t → terminal_info_t}
    (hf : (f (k.terminal_array t)).buffer_size ≤ MAX_BUF_SIZE) :
    LineBounds (k.set_terminal t f) where
  accesses := h.accesses
  buffer_size u := by
    rw [set_terminal_apply]
    split
    · exact hf
    · exact h.buffer_size u

theorem store_at_end (h : LineBounds k) (v : UInt8) (hn : line_size k < MAX_BUF_SIZE) :
    LineBounds (store_at_end v k) := by
  rw [store_at_end_eq v hn]
  constructor
  · intro i hi
    rcases List.mem_cons.mp hi with rfl | hi
    · exact hn
    · exact h.accesses i hi
  · intro t
    show (Function.update k.terminal_array k.screen_terminal _ t).buffer_size ≤ _
    rw [Function.update_apply]
    split
    · exact h.buffer_size k.screen_terminal
    · exact h.buffer_size t

theorem grow_line (h : LineBounds k) (hn : line_size k < MAX_BUF_SIZE) :
    LineBounds (grow_line k) := by
  have hmax : MAX_BUF_SIZE = 128 := rfl
  apply h.set_terminal
  show (line_size k + 1) % 256 ≤ MAX_BUF_SIZE
  omega

theorem shrink_line (h : LineBounds k) (hn : 0 < line_size k) : LineBounds (shrink_line k) := by
  have hle := h.line_le
  have hmax : MAX_BUF_SIZE = 128 := rfl
  apply h.set_terminal
  show (line_size k + 255) % 256 ≤ MAX_BUF_SIZE
  omega

/-- ENTER ends a line with room for the line break. -/
theorem enter_line (h : LineBounds k) (hn : line_size k < MAX_BUF_SIZE) :
    LineBounds (enter_line k) := by
  have hstore := h.store_at_end END_OF_LINE hn
  have hdraw := draws_echo END_OF_LINE (LinuxLikeOS.store_at_end END_OF_LINE k)
  have hecho := hstore.draws hdraw
  have hsize : line_size (echo END_OF_LINE (LinuxLikeOS.store_at_end END_OF_LINE k)) = line_size k :=
    hdraw.line.1.trans (store_at_end_line END_OF_LINE hn).1
  unfold LinuxLikeOS.enter_line
  dsimp only
  generalize hk₁ : echo END_OF_LINE (LinuxLikeOS.store_at_end END_OF_LINE k) = k₁ at hecho hsize
  have hflag : LineBounds (k₁.set_terminal k₁.screen_terminal fun ti => { ti with enter_flag := 1 }) :=
    hecho.set_terminal (hecho.buffer_size _)
  apply hflag.grow_line
  rw [(enter_flag_line k₁).1, hsize]
  exact hn

theorem add_char (h : LineBounds k) (c : UInt8) (hn : line_size k < MAX_BUF_SIZE) :
    LineBounds (add_char c k) := by
  have hstore := h.store_at_end c hn
  have hdraw := draws_echo c (LinuxLikeOS.store_at_end c k)
  apply (hstore.draws hdraw).grow_line
  rw [hdraw.line.1, (store_at_end_line c hn).1]
  exact hn

theorem delete_char (h : LineBounds k) (hn : line_size k < MAX_BUF_SIZE) :
    LineBounds (delete_char k) := by
  have hmax : MAX_BUF_SIZE = 128 := rfl
  apply delete_char_rule
  · intro hpos
    have herase : line_size (erase_char k) < MAX_BUF_SIZE := by
      rw [(draws_erase_char k).line.1]
      exact hn
    apply ((h.draws (draws_erase_char k)).store_at_end 0 herase).shrink_line
    rw [(store_at_end_line 0 herase).1, (draws_erase_char k).line.1]
    exact hpos
  · exact fun _ => h
  · intro k₁ h₁ hempty
    exact h₁.store_at_end 0 (by omega)

theorem redraw_line (h : LineBounds k) : LineBounds (redraw_line k) := by
  apply redraw_line_rule (Q := fun _ k => LineBounds k) (h.draws (draws_clear_display k))
  intro i k₁ hi h₁
  -- the loop reads below `buffer_size`
  have hlt : i < MAX_BUF_SIZE := Nat.lt_of_lt_of_le hi h.line_le
  have haccess : LineBounds { k₁ with line_accesses := i :: k₁.line_accesses } := by
    refine ⟨fun j hj => ?_, h₁.buffer_size⟩
    rcases List.mem_cons.mp hj with rfl | hj
    · exact hlt
    · exact h₁.accesses j hj
  exact haccess.draws (draws_echo _ _)

/-- A key keeps the bounds when it fits. -/
theorem edit_buffer (h : LineBounds k) {response : UInt8} (hfits : KeyFits k (.key response)) :
    LineBounds (edit_buffer response k) := by
  -- the test of `edit_buffer` for a full line is not needed once the key fits
  have hlt := line_lt_of_fits h.line_le hfits
  obtain ⟨b, hcase⟩ := exists_keyCase response (k.terminal_array k.screen_terminal)
  rw [edit_buffer_eq hcase]
  cases hcase with
  | redraw => exact h.redraw_line
  | idle => exact h
  | full => exact h
  | enter taken => exact h.enter_line (hlt taken)
  | delete taken => exact h.delete_char (hlt taken)
  | add taken => exact h.add_char response (hlt taken)

/-- The reader stays within the bytes asked for, and those within the buffer. -/
theorem terminal_read_end (h : LineBounds k) (nbytes : Int) (buf : ℕ → UInt8) :
    LineBounds (terminal_read_end nbytes buf k).2.2 := by
  have hmax : MAX_BUF_SIZE = 128 := rfl
  unfold LinuxLikeOS.terminal_read_end
  extract_lets t ti true_bytes r buf' k₁
  -- the number of bytes asked for is cut to the size of the buffer
  have htrue : true_bytes ≤ MAX_BUF_SIZE := by
    show (if (MAX_BUF_SIZE : Int) < nbytes then MAX_BUF_SIZE else nbytes.toNat) ≤ MAX_BUF_SIZE
    split <;> omega
  have hindex : (if r.enterAtEnd then r.i + 1 else r.i) ≤ 0 + true_bytes :=
    read_loop_index ti true_bytes 0 0 buf
  have hk₁ : LineBounds k₁ := by
    refine ⟨fun i hi => ?_, h.buffer_size⟩
    rcases List.mem_append.mp hi with hi | hi
    · rcases List.mem_append.mp hi with hi | hi
      · have hlt := List.mem_range.mp hi
        omega
      · have hlt : i < if r.enterAtEnd then r.i + 1 else r.i := List.mem_range.mp hi
        omega
    · exact h.accesses i hi
  dsimp only
  apply LineBounds.set_terminal hk₁
  exact Nat.zero_le _

/-- One step keeps the bounds when its key fits. -/
theorem step (h : LineBounds k) {op : ConsoleOp} (hfits : KeyFits k op)
    (hstep : console_step k op = some k') : LineBounds k' := by
  cases op with
  | putc c =>
      rw [console_step, Option.some.injEq] at hstep
      exact hstep ▸ h.draws (draws_putc c k)
  | clear =>
      rw [console_step, Option.some.injEq] at hstep
      exact hstep ▸ h.draws (draws_clear k)
  | key response =>
      rw [console_step, Option.some.injEq] at hstep
      exact hstep ▸ h.edit_buffer hfits
  | read_begin buf nbytes =>
      rw [console_step, Option.some.injEq] at hstep
      rw [← hstep]
      rcases terminal_read_begin_cases buf nbytes k with ⟨-, hread⟩ | ⟨-, hread⟩
      · rw [hread]
        exact h
      · rw [hread]
        dsimp only
        apply LineBounds.set_terminal h
        exact h.buffer_size _
  | read_end nbytes buf =>
      rw [console_step] at hstep
      split at hstep
      · rw [Option.some.injEq] at hstep
        exact hstep ▸ h.terminal_read_end nbytes buf
      · cases hstep
  | tick =>
      rw [console_step, Option.some.injEq] at hstep
      rw [← hstep]
      exact ⟨h.accesses, h.buffer_size⟩
  | switch_screen t =>
      rw [console_step, Option.some.injEq] at hstep
      rw [← hstep]
      exact ⟨h.accesses, h.buffer_size⟩

end LineBounds

/-! ## A key that does not fit -/

theorem enter_line_accesses (k : Kernel) :
    (enter_line k).line_accesses = line_size k :: k.line_accesses := by
  show (echo END_OF_LINE (store_at_end END_OF_LINE k)).line_accesses = _
  rw [(draws_echo _ _).line_accesses]
  exact line_store_accesses _ _ _ k

theorem add_char_accesses (c : UInt8) (k : Kernel) :
    (add_char c k).line_accesses = line_size k :: k.line_accesses := by
  show (echo c (store_at_end c k)).line_accesses = _
  rw [(draws_echo _ _).line_accesses]
  exact line_store_accesses _ _ _ k

/-- A backspace on a line that is not empty stores at its end before it shortens it. -/
theorem mem_delete_char_accesses {k : Kernel} (h : 0 < line_size k) :
    line_size k ∈ (delete_char k).line_accesses := by
  have hfirst : line_size k ∈ (shrink_line (store_at_end 0 (erase_char k))).line_accesses := by
    show line_size k ∈ (store_at_end 0 (erase_char k)).line_accesses
    unfold store_at_end
    rw [line_store_accesses, ← (draws_erase_char k).line.1]
    exact List.mem_cons_self
  have hpos : (k.terminal_array k.screen_terminal).buffer_size > 0 := h
  unfold delete_char
  simp only [if_pos hpos]
  split
  · unfold store_at_end
    rw [line_store_accesses]
    exact List.mem_cons_of_mem _ hfirst
  · exact hfirst

/-- The next key of a full line is stored behind it. -/
theorem mem_edit_buffer_accesses {k : Kernel} {response : UInt8} (hctl : response ≠ CTL_L_CMD)
    (hzero : response ≠ 0) (hwait : line_waiting k) (hfull : line_size k = MAX_BUF_SIZE) :
    MAX_BUF_SIZE ∈ (edit_buffer response k).line_accesses := by
  have hmax : MAX_BUF_SIZE = 128 := rfl
  have hsize : (k.terminal_array k.screen_terminal).buffer_size = MAX_BUF_SIZE := hfull
  obtain ⟨b, hcase⟩ := exists_keyCase response (k.terminal_array k.screen_terminal)
  rw [edit_buffer_eq hcase]
  cases hcase with
  | redraw key => exact absurd key hctl
  | idle taken => exact absurd ⟨hctl, hzero, hwait⟩ taken
  | full taken erase enter size => omega
  | enter =>
      show MAX_BUF_SIZE ∈ (enter_line k).line_accesses
      rw [enter_line_accesses, hfull]
      exact List.mem_cons_self
  | delete =>
      have hmem := mem_delete_char_accesses (k := k) (by omega)
      rwa [hfull] at hmem
  | add =>
      show MAX_BUF_SIZE ∈ (add_char response k).line_accesses
      rw [add_char_accesses, hfull]
      exact List.mem_cons_self

/-- One step, from a state within the bounds. -/
theorem lineBounds_step {k k' : Kernel} {op : ConsoleOp} (h : LineBounds k)
    (hstep : console_step k op = some k') : LineBounds k' ↔ KeyFits k op := by
  refine ⟨fun h' => ?_, fun hfits => h.step hfits hstep⟩
  cases op with
  | key response =>
      rw [console_step, Option.some.injEq] at hstep
      intro hctl hzero hwait hfull
      have hmem := mem_edit_buffer_accesses hctl hzero hwait hfull
      rw [hstep] at hmem
      exact absurd (h'.accesses _ hmem) (Nat.lt_irrefl _)
  | _ => trivial

theorem lineBounds_boot {env : Env} {k : Kernel} (h : Started env k) : LineBounds k where
  accesses i hi := by
    rw [h.booted.line_accesses] at hi
    cases hi
  buffer_size t := by
    rw [h.booted.buffer_size]
    exact Nat.zero_le _

/-- **Every access stays inside the line buffers, and no line is longer, in every state of a
run, exactly when no key comes to a full line before its reader has taken it.** -/
theorem line_bounds_iff {env : Env} {k₀ k : Kernel} {ops : List ConsoleOp}
    (hstart : Started env k₀) (hrun : run console_step k₀ ops = some k) :
    AllStates console_step LineBounds k₀ ops ↔ AllSteps console_step KeyFits k₀ ops :=
  allStates_iff_allSteps (fun _ => True) (fun _ _ _ _ _ => trivial)
    (fun _ _ _ _ h hstep => lineBounds_step h hstep) trivial (lineBounds_boot hstart) hrun

/-- A line typed and read while the screen goes to another terminal and back. -/
theorem line_bounds_demo : ∃ k,
    run console_step demo [.tick, .read_begin demo_buf 128, .key 97, .switch_screen 1, .key 98,
      .switch_screen 0, .key ENTER_KEY, .tick, .tick, .tick, .read_end 128 fun _ => 0] = some k ∧
    (AllStates console_step LineBounds demo [.tick, .read_begin demo_buf 128, .key 97, .switch_screen 1,
        .key 98, .switch_screen 0, .key ENTER_KEY, .tick, .tick, .tick, .read_end 128 fun _ => 0] ↔
      AllSteps console_step KeyFits demo [.tick, .read_begin demo_buf 128, .key 97, .switch_screen 1,
        .key 98, .switch_screen 0, .key ENTER_KEY, .tick, .tick, .tick,
        .read_end 128 fun _ => 0]) ∧
    AllSteps console_step KeyFits demo [.tick, .read_begin demo_buf 128, .key 97, .switch_screen 1,
      .key 98, .switch_screen 0, .key ENTER_KEY, .tick, .tick, .tick,
      .read_end 128 fun _ => 0] := by
  have hsome : (run console_step demo [.tick, .read_begin demo_buf 128, .key 97, .switch_screen 1,
      .key 98, .switch_screen 0, .key ENTER_KEY, .tick, .tick, .tick,
      .read_end 128 fun _ => 0]).isSome = true := by decide +kernel
  obtain ⟨k, hk⟩ := Option.isSome_iff_exists.mp hsome
  exact ⟨k, hk, line_bounds_iff demo_started hk, by decide +kernel⟩

/-! ## A line of 127 characters -/

/-- The line waits for keys and has `n` bytes. -/
def LineAt (n : ℕ) (k : Kernel) : Prop := line_waiting k ∧ line_size k = n

theorem grow_line_waiting (k : Kernel) : line_waiting (grow_line k) ↔ line_waiting k := by
  unfold line_waiting
  show ((k.set_terminal k.screen_terminal _).terminal_array k.screen_terminal).waitingInRead = 1 ↔ _
  rw [set_terminal_apply, if_pos rfl]

/-- A stored and printed byte makes the line one longer. -/
theorem lineAt_grow {c : UInt8} {n : ℕ} {k : Kernel} (hn : n < MAX_BUF_SIZE) (h : LineAt n k) :
    LineAt n (echo c (store_at_end c k)) ∧
      ∀ k₁, LineAt n k₁ → LineAt (n + 1) (grow_line k₁) := by
  have hmax : MAX_BUF_SIZE = 128 := rfl
  have hlt : line_size k < MAX_BUF_SIZE := by rw [h.2]; exact hn
  have hstore := store_at_end_line c hlt
  have hecho := (draws_echo c (store_at_end c k)).line
  refine ⟨⟨hecho.2.mpr (hstore.2.mpr h.1), ?_⟩, fun k₁ h₁ => ⟨(grow_line_waiting k₁).mpr h₁.1, ?_⟩⟩
  · rw [hecho.1, hstore.1, h.2]
  · rw [line_size_grow_line, h₁.2, Nat.mod_eq_of_lt (by omega)]

/-- A character that is no command makes the line one longer, up to 127. -/
theorem key_char_line {n : ℕ} {k : Kernel} (hn : n < MAX_BUF_SIZE - 1) (h : LineAt n k) :
    LineAt (n + 1) (edit_buffer 97 k) := by
  have hsize : (k.terminal_array k.screen_terminal).buffer_size = n := h.2
  have hcase : KeyCase 97 (k.terminal_array k.screen_terminal) .add :=
    .add ⟨by decide, by decide, h.1⟩ (by decide) (by decide) (by omega)
  rw [edit_buffer_eq hcase]
  obtain ⟨hecho, hgrow⟩ := lineAt_grow (c := 97) (by omega) h
  exact hgrow _ hecho

/-- ENTER makes a line of 127 characters full, and the line still waits. -/
theorem key_enter_line {k : Kernel} (h : LineAt (MAX_BUF_SIZE - 1) k) :
    LineAt MAX_BUF_SIZE (edit_buffer ENTER_KEY k) := by
  have hcase : KeyCase ENTER_KEY (k.terminal_array k.screen_terminal) .enter :=
    .enter ⟨by decide, by decide, h.1⟩ rfl
  rw [edit_buffer_eq hcase]
  obtain ⟨hecho, hgrow⟩ := lineAt_grow (c := END_OF_LINE) (by decide) h
  apply hgrow
  have hflag := enter_flag_line (echo END_OF_LINE (store_at_end END_OF_LINE k))
  exact ⟨hflag.2.mpr hecho.1, hflag.1.trans hecho.2⟩

theorem type_line {n m : ℕ} {k : Kernel} (hn : n + m < MAX_BUF_SIZE) (h : LineAt n k) :
    ∃ k', run console_step k (List.replicate m (.key 97)) = some k' ∧ LineAt (n + m) k' := by
  induction m generalizing n k with
  | zero => exact ⟨k, rfl, h⟩
  | succ m ih =>
      have hnext := key_char_line (by omega) h
      rcases ih (by omega) hnext with ⟨k', hrun, hline⟩
      refine ⟨k', run_cons_eq_some.mpr ⟨edit_buffer 97 k, rfl, hrun⟩, ?_⟩
      have hadd : n + 1 + m = n + (m + 1) := by omega
      rw [← hadd]
      exact hline

/-- The shell of terminal 0 reads a line, and 127 characters and ENTER are typed. -/
def full_line : List ConsoleOp :=
  [.tick, .read_begin demo_buf 128] ++ (List.replicate 127 (.key 97) ++ [.key ENTER_KEY])

theorem full_line_demo : ∃ k, run console_step demo full_line = some k ∧ LineAt MAX_BUF_SIZE k := by
  have hsome : (run console_step demo [.tick, .read_begin demo_buf 128]).map (fun k =>
      (decide (line_waiting k), line_size k)) = some (true, 0) := by decide +kernel
  obtain ⟨k₀, hk₀, hv⟩ := Option.map_eq_some_iff.mp hsome
  rw [Prod.mk.injEq] at hv
  have hstart : LineAt 0 k₀ := ⟨of_decide_eq_true hv.1, hv.2⟩
  obtain ⟨k₁, hk₁, hline⟩ := type_line (m := 127) (by decide) hstart
  refine ⟨edit_buffer ENTER_KEY k₁, run_append hk₀ (run_append hk₁ rfl), key_enter_line hline⟩

/-- One more key before the shell has been scheduled is stored at index 128. -/
theorem line_bounds_fail : Started demo_env demo ∧ ∃ k k',
    run console_step demo full_line = some k ∧ console_step k (.key 97) = some k' ∧
    128 ∈ k'.line_accesses ∧ ¬ LineBounds k' := by
  obtain ⟨k, hk, hwait, hsize⟩ := full_line_demo
  have hctl : (97 : UInt8) ≠ CTL_L_CMD := by decide
  have hmem : 128 ∈ (edit_buffer 97 k).line_accesses :=
    mem_edit_buffer_accesses hctl (by decide) hwait hsize
  refine ⟨demo_started, k, _, hk, rfl, hmem, fun h => ?_⟩
  exact absurd (h.accesses 128 hmem) (by decide)

end LinuxLikeOS
