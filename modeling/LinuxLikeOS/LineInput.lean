/-
What a reader gets of the keys typed for it.

Without the drawing `edit_buffer` works on one terminal: a key changes the line of the
terminal on display and no other, and of that terminal only what the branch it takes says,
the position apart (`edit_buffer_edits`). What has been typed is kept beside the
machine as a queue of keys for each terminal, cut by `terminal_read` behind the first ENTER.
As long as no key comes to a line that ENTER has completed, the buffer holds the edited
queue, and a read returns the first line of it.

`edit_buffer` does not look at `enter_flag`. A key that comes to a completed line edits it as
if it were still being typed, and what it leaves there is cleared with the line.
-/
import LinuxLikeOS.Lines
import LinuxLikeOS.LineEdit

set_option autoImplicit false

namespace LinuxLikeOS

open Kernel Transition LineEdit

/-! ## A key on the terminal alone -/

/-- A byte behind the end of the line. -/
def put_at_end (v : UInt8) (ti : terminal_info_t) : terminal_info_t :=
  { ti with buffer := Function.update ti.buffer ti.buffer_size v }

/-- One character more. -/
def appended (response : UInt8) (ti : terminal_info_t) : terminal_info_t :=
  { put_at_end response ti with buffer_size := ti.buffer_size + 1 }

/-- The line completed. -/
def entered (ti : terminal_info_t) : terminal_info_t :=
  { appended END_OF_LINE ti with enter_flag := 1 }

/-- One character less. -/
def shortened (ti : terminal_info_t) : terminal_info_t :=
  let ti :=
    if ti.buffer_size > 0 then { put_at_end 0 ti with buffer_size := ti.buffer_size - 1 } else ti
  if ti.buffer_size = 0 then put_at_end 0 ti else ti

/-- What a branch of `edit_buffer` does to the terminal on display. -/
def KeyBranch.on_line (response : UInt8) (ti : terminal_info_t) : KeyBranch → terminal_info_t
  | .redraw | .nothing => ti
  | .enter => entered ti
  | .delete => shortened ti
  | .add => appended response ti

/-- A key that is not taken leaves the line as it is. -/
theorem KeyCase.on_line {response : UInt8} {ti : terminal_info_t} {b : KeyBranch}
    (h : KeyCase response ti b) (htaken : ¬ Taken response ti) : b.on_line response ti = ti := by
  cases h with
  | redraw => rfl
  | idle => rfl
  | full taken => exact absurd taken htaken
  | enter taken => exact absurd taken htaken
  | delete taken => exact absurd taken htaken
  | add taken => exact absurd taken htaken

/-- The terminal on display is changed by `f`, and the others are not, apart from the
positions. -/
structure Edits (f : terminal_info_t → terminal_info_t) (k k' : Kernel) : Prop where
  terminal : ∀ t, ∃ p, k'.terminal_array t =
    at_position p (if t = k.screen_terminal then f (k.terminal_array t) else k.terminal_array t)
  screen_terminal : k'.screen_terminal = k.screen_terminal

theorem at_position_self (ti : terminal_info_t) :
    at_position (ti.screen_x, ti.screen_y) ti = ti := rfl

namespace Edits

variable {f g : terminal_info_t → terminal_info_t} {k k' k'' : Kernel}

theorem of_draws (h : Draws k k') : Edits id k k' where
  terminal t := by
    obtain ⟨x, y, hxy⟩ := h.terminal t
    exact ⟨(x, y), by rw [hxy, id, ite_self]; rfl⟩
  screen_terminal := h.screen_terminal

theorem of_set_terminal (k : Kernel) (f : terminal_info_t → terminal_info_t) :
    Edits f k (k.set_terminal k.screen_terminal f) where
  terminal t := by
    rw [set_terminal_apply]
    by_cases ht : t = k.screen_terminal
    · subst ht
      rw [if_pos rfl]
      exact ⟨_, (at_position_self _).symm⟩
    · rw [if_neg ht, if_neg ht]
      exact ⟨_, (at_position_self _).symm⟩
  screen_terminal := rfl

/-- One edit after the other. The second one does not look at the position. -/
theorem trans (h : Edits f k k') (h' : Edits g k' k'')
    (hg : ∀ p ti, g (at_position p ti) = at_position p (g ti)) : Edits (g ∘ f) k k'' where
  terminal t := by
    obtain ⟨p, hp⟩ := h.terminal t
    obtain ⟨q, hq⟩ := h'.terminal t
    refine ⟨q, ?_⟩
    rw [hq, hp, h.screen_terminal]
    by_cases ht : t = k.screen_terminal
    · rw [if_pos ht, if_pos ht, if_pos ht, hg]
      rfl
    · rw [if_neg ht, if_neg ht, if_neg ht]
      rfl
  screen_terminal := h'.screen_terminal.trans h.screen_terminal

theorem congr (h : Edits f k k')
    (hfg : f (k.terminal_array k.screen_terminal) = g (k.terminal_array k.screen_terminal)) :
    Edits g k k' where
  terminal t := by
    obtain ⟨p, hp⟩ := h.terminal t
    refine ⟨p, ?_⟩
    rw [hp]
    by_cases ht : t = k.screen_terminal
    · subst ht
      rw [if_pos rfl, if_pos rfl, hfg]
    · rw [if_neg ht, if_neg ht]
  screen_terminal := h.screen_terminal

/-- The terminal on display, before another edit. -/
theorem screen (h : Edits f k k') : ∃ p, k'.terminal_array k'.screen_terminal =
    at_position p (f (k.terminal_array k.screen_terminal)) := by
  obtain ⟨p, hp⟩ := h.terminal k.screen_terminal
  rw [if_pos rfl] at hp
  rw [h.screen_terminal]
  exact ⟨p, hp⟩

theorem store_at_end (v : UInt8) {k : Kernel} (hn : line_size k < MAX_BUF_SIZE) :
    Edits (put_at_end v) k (store_at_end v k) := by
  have hset := of_set_terminal k (put_at_end v)
  rw [store_at_end_eq v hn]
  exact ⟨hset.terminal, hset.screen_terminal⟩

theorem enter_line {k : Kernel} (hn : line_size k < MAX_BUF_SIZE) :
    Edits entered k (enter_line k) := by
  have hmax : MAX_BUF_SIZE = 128 := rfl
  have hstore := (store_at_end END_OF_LINE hn).trans (of_draws (draws_echo END_OF_LINE _))
    fun _ _ => rfl
  have hflag := hstore.trans (of_set_terminal _ fun ti => { ti with enter_flag := 1 }) fun _ _ => rfl
  have hgrow := hflag.trans (of_set_terminal _ fun ti =>
    { ti with buffer_size := (ti.buffer_size + 1) % 256 }) fun _ _ => rfl
  -- the counter is a byte, and does not wrap
  have hsize : (line_size k + 1) % 256 = line_size k + 1 := Nat.mod_eq_of_lt (by omega)
  exact hgrow.congr (congrArg (fun n => { entered (k.terminal_array k.screen_terminal) with
    buffer_size := n }) hsize)

theorem add_char (response : UInt8) {k : Kernel} (hn : line_size k < MAX_BUF_SIZE) :
    Edits (appended response) k (add_char response k) := by
  have hmax : MAX_BUF_SIZE = 128 := rfl
  have hstore := (store_at_end response hn).trans (of_draws (draws_echo response _)) fun _ _ => rfl
  have hgrow := hstore.trans (of_set_terminal _ fun ti =>
    { ti with buffer_size := (ti.buffer_size + 1) % 256 }) fun _ _ => rfl
  have hsize : (line_size k + 1) % 256 = line_size k + 1 := Nat.mod_eq_of_lt (by omega)
  exact hgrow.congr (congrArg (fun n => { appended response (k.terminal_array k.screen_terminal) with
    buffer_size := n }) hsize)

/-- The second test of the backspace branch, on the line the first one has left. -/
theorem store_when_empty (h : Edits f k k') :
    Edits (fun ti => if (f ti).buffer_size = 0 then put_at_end 0 (f ti) else f ti) k
      (if (k'.terminal_array k'.screen_terminal).buffer_size = 0 then
        LinuxLikeOS.store_at_end 0 k' else k') := by
  obtain ⟨p, hp⟩ := h.screen
  have hsize : (k'.terminal_array k'.screen_terminal).buffer_size
      = (f (k.terminal_array k.screen_terminal)).buffer_size := by rw [hp]; rfl
  rw [hsize]
  by_cases hempty : (f (k.terminal_array k.screen_terminal)).buffer_size = 0
  · rw [if_pos hempty]
    have hlt : line_size k' < MAX_BUF_SIZE := by
      show (k'.terminal_array k'.screen_terminal).buffer_size < MAX_BUF_SIZE
      rw [hsize, hempty]
      decide
    refine (h.trans (store_at_end 0 hlt) fun _ _ => rfl).congr ?_
    rw [if_pos hempty]
    rfl
  · rw [if_neg hempty]
    refine h.congr ?_
    rw [if_neg hempty]

theorem delete_char {k : Kernel} (hn : line_size k < MAX_BUF_SIZE) :
    Edits shortened k (delete_char k) := by
  have hmax : MAX_BUF_SIZE = 128 := rfl
  unfold LinuxLikeOS.delete_char
  dsimp only
  by_cases hpos : (k.terminal_array k.screen_terminal).buffer_size > 0
  · rw [if_pos hpos]
    have hdraw := draws_erase_char k
    have hstore := (of_draws hdraw).trans (store_at_end 0 (by rw [hdraw.line.1]; exact hn))
      fun _ _ => rfl
    have hshrink := hstore.trans (of_set_terminal _ fun ti =>
      { ti with buffer_size := (ti.buffer_size + 255) % 256 }) fun _ _ => rfl
    refine hshrink.store_when_empty.congr ?_
    -- a byte that is not zero goes down by one
    have hsize : ((k.terminal_array k.screen_terminal).buffer_size + 255) % 256
        = (k.terminal_array k.screen_terminal).buffer_size - 1 := by
      have hlt : (k.terminal_array k.screen_terminal).buffer_size < MAX_BUF_SIZE := hn
      omega
    simp only [shortened, if_pos hpos, Function.comp, put_at_end, id, hsize]
  · rw [if_neg hpos]
    refine (of_draws (.refl k)).store_when_empty.congr ?_
    simp only [shortened, if_neg hpos, id]

theorem redraw_line (k : Kernel) : Edits id k (redraw_line k) := by
  apply redraw_line_rule (Q := fun _ k' => Edits id k k') (of_draws (draws_clear_display k))
  intro i k' hi hk'
  -- reading the line is on record, and changes nothing else
  have haccess : Edits id k { k' with line_accesses := i :: k'.line_accesses } :=
    ⟨hk'.terminal, hk'.screen_terminal⟩
  exact haccess.trans (of_draws (draws_echo _ _)) fun _ _ => rfl

end Edits

/-- **A key changes the line of the terminal on display as its branch says, and no other.** -/
theorem edit_buffer_edits {response : UInt8} {k : Kernel} {b : KeyBranch}
    (hn : line_size k ≤ MAX_BUF_SIZE) (hfits : KeyFits k (.key response))
    (hcase : KeyCase response (k.terminal_array k.screen_terminal) b) :
    Edits (fun ti => b.on_line response ti) k (edit_buffer response k) := by
  have hlt := line_lt_of_fits hn hfits
  rw [edit_buffer_eq hcase]
  cases hcase with
  | redraw => exact Edits.redraw_line k
  | idle => exact .of_draws (.refl k)
  | full => exact .of_draws (.refl k)
  | enter taken => exact Edits.enter_line (hlt taken)
  | delete taken => exact Edits.delete_char (hlt taken)
  | add taken => exact Edits.add_char response (hlt taken)

/-! ## The line of a terminal -/

/-- The characters of a line, from the keys typed for it. -/
def line_text (keys : List UInt8) : List UInt8 := edited BACKSPACE_PRESSED (MAX_BUF_SIZE - 1) keys

/-- The line buffer holds what the keys `typed` make of a line, under way or completed. -/
inductive LineState (ti : terminal_info_t) : List UInt8 → Prop
  | editing {keys : List UInt8} (flag : ti.enter_flag ≠ 1) (under_way : ENTER_KEY ∉ keys)
      (written : Written ti.buffer ti.buffer_size (line_text keys)) : LineState ti keys
  | completed {keys : List UInt8} (flag : ti.enter_flag = 1) (first : ENTER_KEY ∉ keys)
      (written : Written ti.buffer ti.buffer_size (line_text keys ++ [END_OF_LINE])) :
      LineState ti (keys ++ [ENTER_KEY])

namespace LineState

variable {ti ti' : terminal_info_t} {typed : List UInt8}

theorem congr (h : LineState ti typed) (hbuffer : ti'.buffer = ti.buffer)
    (hsize : ti'.buffer_size = ti.buffer_size) (hflag : ti'.enter_flag = ti.enter_flag) :
    LineState ti' typed := by
  cases h with
  | editing flag under_way written =>
      exact .editing (hflag ▸ flag) under_way (by rwa [hbuffer, hsize])
  | completed flag first written =>
      exact .completed (hflag.trans flag) first (by rwa [hbuffer, hsize])

theorem at_position (h : LineState ti typed) (p : Int × Int) :
    LineState (at_position p ti) typed := h.congr rfl rfl rfl

/-- A line under way leaves room for the line break. -/
theorem size_lt (h : LineState ti typed) (hflag : ti.enter_flag ≠ 1) :
    ti.buffer_size < MAX_BUF_SIZE := by
  have hmax : MAX_BUF_SIZE = 128 := rfl
  cases h with
  | editing flag under_way written =>
      have hle : (line_text typed).length ≤ MAX_BUF_SIZE - 1 := length_edited_le typed
      have hsize := written.size
      omega
  | completed flag => exact absurd flag hflag

theorem size_le (h : LineState ti typed) : ti.buffer_size ≤ MAX_BUF_SIZE := by
  have hmax : MAX_BUF_SIZE = 128 := rfl
  by_cases hflag : ti.enter_flag = 1
  · cases h with
    | editing flag => exact absurd hflag flag
    | @completed keys flag first written =>
        have hle : (line_text keys).length ≤ MAX_BUF_SIZE - 1 := length_edited_le keys
        have hsize := written.size
        rw [List.length_append, List.length_singleton] at hsize
        omega
  · exact Nat.le_of_lt (h.size_lt hflag)

end LineState

theorem written_shortened {ti : terminal_info_t} {line : List UInt8}
    (h : Written ti.buffer ti.buffer_size line) :
    Written (shortened ti).buffer (shortened ti).buffer_size line.dropLast := by
  -- whatever the last test stores lies behind the line
  have hlast : ∀ ti' : terminal_info_t, Written ti'.buffer ti'.buffer_size line.dropLast →
      Written (if ti'.buffer_size = 0 then put_at_end 0 ti' else ti').buffer
        (if ti'.buffer_size = 0 then put_at_end 0 ti' else ti').buffer_size line.dropLast := by
    intro ti' h'
    split
    · exact h'.update (Nat.le_refl _) 0
    · exact h'
  unfold shortened
  dsimp only
  split
  · apply hlast
    exact (h.update (Nat.le_refl _) 0).dropLast
  · rename_i hempty
    apply hlast
    have hdrop := h.dropLast
    have hsize : ti.buffer_size - 1 = ti.buffer_size := by omega
    rwa [hsize] at hdrop

theorem shortened_buffer_size (ti : terminal_info_t) :
    (shortened ti).buffer_size = ti.buffer_size - 1 := by
  unfold shortened
  dsimp only
  split
  · split <;> rfl
  · rename_i hempty
    have hsize : ti.buffer_size - 1 = ti.buffer_size := by omega
    rw [hsize]
    split <;> rfl

theorem shortened_enter_flag (ti : terminal_info_t) : (shortened ti).enter_flag = ti.enter_flag := by
  unfold shortened
  dsimp only
  split
  · split <;> rfl
  · split <;> rfl

/-- **A key that is taken is the next key of the line.** -/
theorem LineState.key {ti : terminal_info_t} {typed : List UInt8} {response : UInt8}
    {b : KeyBranch} (h : LineState ti typed) (hflag : ti.enter_flag ≠ 1)
    (htaken : Taken response ti) (hcase : KeyCase response ti b) :
    LineState (b.on_line response ti) (typed ++ [response]) := by
  cases h with
  | completed flag => exact absurd flag hflag
  | editing flag under_way written =>
      have hle : (line_text typed).length ≤ MAX_BUF_SIZE - 1 := length_edited_le typed
      have htext : line_text (typed ++ [response])
          = edit BACKSPACE_PRESSED (MAX_BUF_SIZE - 1) (line_text typed) response :=
        edited_concat typed response
      have hopen : response ≠ ENTER_KEY → ENTER_KEY ∉ typed ++ [response] := by
        intro hne hmem
        rcases List.mem_append.mp hmem with hmem | hmem
        · exact under_way hmem
        · exact hne (List.mem_singleton.mp hmem).symm
      unfold edit at htext
      cases hcase with
      | redraw key => exact absurd key htaken.1
      | idle taken => exact absurd htaken taken
      | full _ erase enter size =>
          rw [if_neg erase, if_neg (by rw [← written.size]; omega)] at htext
          exact .editing flag (hopen enter) (htext ▸ written)
      | enter _ key =>
          rw [key]
          exact .completed rfl under_way (written.concat END_OF_LINE)
      | delete _ key =>
          rw [if_pos key] at htext
          refine .editing ?_ (hopen (by rw [key]; decide)) (htext ▸ written_shortened written)
          show (shortened ti).enter_flag ≠ 1
          rw [shortened_enter_flag]
          exact flag
      | add _ erase enter size =>
          rw [if_neg erase, if_pos (by rw [← written.size] at hle ⊢; omega)] at htext
          exact .editing flag (hopen enter) (htext ▸ written.concat response)

/-! ## The read -/

/-- What a read of `nbytes` bytes gives of a line: its first characters, and a line break. -/
def line_read (text : List UInt8) (nbytes : Int) : List UInt8 :=
  text.take (min nbytes.toNat MAX_BUF_SIZE - 1) ++ [END_OF_LINE]

/-- The bytes from `i` to `n` of `a`, over those of `buf`. -/
def overlay (a : ℕ → UInt8) (i n : ℕ) (buf : ℕ → UInt8) : ℕ → UInt8 :=
  fun j => if i ≤ j ∧ j < n then a j else buf j

theorem overlay_self (a : ℕ → UInt8) (i : ℕ) (buf : ℕ → UInt8) : overlay a i i buf = buf := by
  funext j
  exact if_neg (by omega)

theorem overlay_step (a : ℕ → UInt8) {i n : ℕ} (hi : i < n) (buf : ℕ → UInt8) :
    overlay a (i + 1) n (Function.update buf i (a i)) = overlay a i n buf := by
  funext j
  unfold overlay
  by_cases hj : j = i
  · subst hj
    rw [if_neg (by omega), if_pos (by omega), Function.update_self]
  · rw [Function.update_of_ne hj]
    by_cases hin : i ≤ j ∧ j < n
    · rw [if_pos (by omega), if_pos hin]
    · rw [if_neg (by omega), if_neg hin]

section Loop

variable {ti : terminal_info_t} {text : List UInt8}

/-- A byte of the text is no line break. -/
theorem text_byte (hw : Written ti.buffer ti.buffer_size (text ++ [END_OF_LINE]))
    (hclean : END_OF_LINE ∉ text) {i : ℕ} (hi : i < text.length) :
    ti.buffer i = text[i] ∧ ti.buffer i ≠ END_OF_LINE := by
  have hbyte : ti.buffer i = text[i] := by
    rw [hw.get i (by rw [List.length_append]; omega), List.getElem_append_left hi]
  refine ⟨hbyte, fun hend => hclean ?_⟩
  rw [← hend, hbyte]
  exact List.getElem_mem hi

/-- The byte behind it is. -/
theorem text_end (hw : Written ti.buffer ti.buffer_size (text ++ [END_OF_LINE])) :
    ti.buffer text.length = END_OF_LINE ∧ ti.buffer_size = text.length + 1 := by
  have hsize := hw.size
  rw [List.length_append, List.length_singleton] at hsize
  refine ⟨?_, hsize⟩
  rw [hw.get _ (by rw [List.length_append, List.length_singleton]; omega),
    List.getElem_concat_length rfl]

/-- Fewer bytes are asked for than the line has: all of them are copied. -/
theorem read_loop_cut (hw : Written ti.buffer ti.buffer_size (text ++ [END_OF_LINE]))
    (hclean : END_OF_LINE ∉ text) {m i : ℕ} (hm : i + m ≤ text.length) (numbytes : ℕ)
    (buf : ℕ → UInt8) :
    read_loop ti m i numbytes buf
      = ⟨i + m, numbytes + m, overlay ti.buffer i (i + m) buf, false⟩ := by
  induction m generalizing i numbytes buf with
  | zero => rw [read_loop, Nat.add_zero, Nat.add_zero, overlay_self]
  | succ m ih =>
      obtain ⟨-, hbyte⟩ := text_byte hw hclean (i := i) (by omega)
      have hcopied : i < ti.buffer_size := by
        rw [(text_end hw).2]
        omega
      have hrest : i + 1 + m = i + (m + 1) := by omega
      have hcount : numbytes + 1 + m = numbytes + (m + 1) := by omega
      rw [read_loop]
      rw [if_pos hcopied, if_pos hcopied, if_neg hbyte, ih (by omega), hrest, hcount,
        overlay_step _ (by omega)]

/-- The line break is among the bytes asked for: the loop ends with it. -/
theorem read_loop_whole (hw : Written ti.buffer ti.buffer_size (text ++ [END_OF_LINE]))
    (hclean : END_OF_LINE ∉ text) {m i : ℕ} (hi : i ≤ text.length) (hm : text.length < i + m)
    (numbytes : ℕ) (buf : ℕ → UInt8) :
    read_loop ti m i numbytes buf
      = ⟨text.length, numbytes + (text.length + 1 - i),
          overlay ti.buffer i (text.length + 1) buf, true⟩ := by
  induction m generalizing i numbytes buf with
  | zero => omega
  | succ m ih =>
      have hcopied : i < ti.buffer_size := by
        rw [(text_end hw).2]
        omega
      rw [read_loop]
      rw [if_pos hcopied, if_pos hcopied]
      by_cases hlast : i = text.length
      · subst hlast
        have hcount : text.length + 1 - text.length = 1 := by omega
        rw [if_pos (text_end hw).1, hcount, ← overlay_step _ (Nat.lt_succ_self _), overlay_self]
      · obtain ⟨-, hbyte⟩ := text_byte hw hclean (i := i) (by omega)
        have hcount : numbytes + 1 + (text.length + 1 - (i + 1))
            = numbytes + (text.length + 1 - i) := by omega
        rw [if_neg hbyte, ih (by omega) (by omega), hcount, overlay_step _ (by omega)]

/-- The whole line, over a buffer. -/
theorem overlay_whole (hw : Written ti.buffer ti.buffer_size (text ++ [END_OF_LINE]))
    (buf : ℕ → UInt8) :
    overlay ti.buffer 0 (text.length + 1) buf
      = fun i => (text ++ [END_OF_LINE]).getD i (buf i) := by
  have hlen : (text ++ [END_OF_LINE]).length = text.length + 1 := by
    rw [List.length_append, List.length_singleton]
  funext i
  unfold overlay
  by_cases hi : i < text.length + 1
  · rw [if_pos ⟨Nat.zero_le _, hi⟩, List.getD_eq_getElem _ _ (hlen ▸ hi)]
    exact hw.get i (hlen ▸ hi)
  · rw [if_neg (fun h => hi h.2), List.getD_eq_default _ _ (by omega)]

/-- The first characters of the line, over a buffer, and a line break for the last one. -/
theorem overlay_cut (hw : Written ti.buffer ti.buffer_size (text ++ [END_OF_LINE]))
    (hclean : END_OF_LINE ∉ text) {m : ℕ} (hm : m < text.length) (buf : ℕ → UInt8) :
    Function.update (overlay ti.buffer 0 (m + 1) buf) m END_OF_LINE
      = fun i => (text.take m ++ [END_OF_LINE]).getD i (buf i) := by
  have htake : (text.take m).length = m := by
    rw [List.length_take]
    omega
  have hlen : (text.take m ++ [END_OF_LINE]).length = m + 1 := by
    rw [List.length_append, List.length_singleton, htake]
  funext i
  by_cases hi : i = m
  · rw [hi, Function.update_self, List.getD_eq_getElem _ _ (by omega),
      List.getElem_concat_length htake.symm]
  · rw [Function.update_of_ne hi]
    unfold overlay
    by_cases hlt : i < m + 1
    · rw [if_pos ⟨Nat.zero_le _, hlt⟩, List.getD_append _ _ _ _ (by omega),
        List.getD_eq_getElem _ _ (by omega), List.getElem_take]
      exact (text_byte hw hclean (by omega)).1
    · rw [if_neg (fun h => hlt h.2), List.getD_eq_default _ _ (by omega)]

/-- **A read returns the first characters of the line and a line break, and stores nothing
behind them.** -/
theorem terminal_read_end_line {k : Kernel} {nbytes : Int} (buf : ℕ → UInt8)
    (hw : Written (k.terminal_array k.curr_terminal).buffer
      (k.terminal_array k.curr_terminal).buffer_size (text ++ [END_OF_LINE]))
    (hclean : END_OF_LINE ∉ text) (hn : 0 < nbytes) :
    (terminal_read_end nbytes buf k).1 = (line_read text nbytes).length ∧
      (terminal_read_end nbytes buf k).2.1 = fun i => (line_read text nbytes).getD i (buf i) := by
  have hmax : MAX_BUF_SIZE = 128 := rfl
  obtain ⟨-, hsize⟩ := text_end hw
  -- the bytes the loop is to copy, at least one
  obtain ⟨m, hm⟩ : ∃ m, min nbytes.toNat MAX_BUF_SIZE = m + 1 := ⟨_, (Nat.succ_pred (by omega)).symm⟩
  have htrue : (if (MAX_BUF_SIZE : Int) < nbytes then MAX_BUF_SIZE else nbytes.toNat) = m + 1 := by
    split <;> omega
  unfold terminal_read_end line_read
  dsimp only
  rw [htrue, hm, Nat.add_sub_cancel]
  by_cases hlt : m < text.length
  · -- the line is cut short, and its last byte replaced
    have hlast : overlay (k.terminal_array k.curr_terminal).buffer 0 (m + 1) buf m ≠ END_OF_LINE := by
      unfold overlay
      rw [if_pos (by omega)]
      exact (text_byte hw hclean hlt).2
    rw [read_loop_cut hw hclean (by omega)]
    simp only [Nat.zero_add, Nat.add_sub_cancel]
    rw [if_pos ⟨trivial, by omega, hlast⟩, overlay_cut hw hclean hlt]
    refine ⟨?_, rfl⟩
    rw [List.length_append, List.length_singleton, List.length_take]
    omega
  · -- the line break is copied, and nothing is left to be done
    rw [read_loop_whole hw hclean (Nat.zero_le _) (by omega), List.take_of_length_le (by omega),
      ← overlay_whole hw]
    refine ⟨?_, if_neg fun h => Bool.noConfusion h.1⟩
    rw [List.length_append, List.length_singleton]
    dsimp only
    omega

end Loop

/-! ## The keys typed -/

/-- The keys typed for each terminal and not read yet. Only a key that `edit_buffer` takes for the
line counts: one that comes while no read is waiting does not, nor does Ctrl-L. A read takes its
line, ENTER included. -/
def typed_keys (k : Kernel) (op : ConsoleOp) (_ : Kernel) (typed : Terminal → List UInt8) :
    Terminal → List UInt8 :=
  match op with
  | .key response =>
      if Taken response (k.terminal_array k.screen_terminal) then
        Function.update typed k.screen_terminal (typed k.screen_terminal ++ [response])
      else typed
  | .read_end _ _ =>
      Function.update typed k.curr_terminal (later_keys ENTER_KEY (typed k.curr_terminal))
  | _ => typed

/-- The scan code of ENTER is sent in place of its character, and no other key has it. -/
def FromKeyboard : ConsoleOp → Prop
  | .key response => response ≠ END_OF_LINE
  | _ => True

instance : (op : ConsoleOp) → Decidable (FromKeyboard op)
  | .key response => inferInstanceAs (Decidable (response ≠ END_OF_LINE))
  | .putc _ | .clear | .read_begin _ _ | .read_end _ _ | .tick | .switch_screen _ => isTrue trivial

/-- A read returns the line of the first keys typed, whatever has been typed behind its
ENTER, and leaves the keys behind it for the reads to come. -/
def ReadsTyped (w : Kernel × (Terminal → List UInt8)) : ConsoleOp → Prop
  | .read_end nbytes buf => line_ready w.1 → 0 < nbytes →
      let text := line_text (first_keys ENTER_KEY (w.2 w.1.curr_terminal))
      (terminal_read_end nbytes buf w.1).1 = (line_read text nbytes).length ∧
        (terminal_read_end nbytes buf w.1).2.1 = fun i => (line_read text nbytes).getD i (buf i)
  | _ => True

/-- No key that `edit_buffer` takes comes to a completed line. -/
def NoTypeAhead (k : Kernel) : ConsoleOp → Prop
  | .key response => Taken response (k.terminal_array k.screen_terminal) →
      (k.terminal_array k.screen_terminal).enter_flag ≠ 1
  | _ => True

instance (k : Kernel) : (op : ConsoleOp) → Decidable (NoTypeAhead k op)
  | .key response => inferInstanceAs (Decidable (Taken response (k.terminal_array k.screen_terminal) →
      (k.terminal_array k.screen_terminal).enter_flag ≠ 1))
  | .putc _ | .clear | .read_begin _ _ | .read_end _ _ | .tick | .switch_screen _ => isTrue trivial

/-- Every line buffer holds what has been typed for its terminal. -/
structure LineInv (w : Kernel × (Terminal → List UInt8)) : Prop where
  line : ∀ t, LineState (w.1.terminal_array t) (w.2 t)
  keys : ∀ t, END_OF_LINE ∉ w.2 t

namespace LineInv

variable {k k' : Kernel} {typed : Terminal → List UInt8}

theorem draws (h : LineInv (k, typed)) (hd : Draws k k') : LineInv (k', typed) := by
  refine ⟨fun t => ?_, h.keys⟩
  rcases hd.terminal t with ⟨x, y, hxy⟩
  exact (h.line t).congr (by rw [hxy]) (by rw [hxy]) (by rw [hxy])

theorem key (h : LineInv (k, typed)) {response : UInt8} (hkey : response ≠ END_OF_LINE)
    (hahead : NoTypeAhead k (.key response)) :
    LineInv (edit_buffer response k, typed_keys k (.key response) (edit_buffer response k) typed) := by
  have hscreen : LineState (k.terminal_array k.screen_terminal) (typed k.screen_terminal) := h.line _
  have hfits : KeyFits k (.key response) := by
    intro hctl hzero hwait
    exact Nat.ne_of_lt (hscreen.size_lt (hahead ⟨hctl, hzero, hwait⟩))
  obtain ⟨b, hcase⟩ := exists_keyCase response (k.terminal_array k.screen_terminal)
  have hedits := edit_buffer_edits hscreen.size_le hfits hcase
  refine ⟨fun t => ?_, fun t => ?_⟩
  · obtain ⟨p, hp⟩ := hedits.terminal t
    show LineState ((edit_buffer response k).terminal_array t) _
    rw [hp]
    refine LineState.at_position ?_ p
    unfold typed_keys
    dsimp only
    by_cases ht : t = k.screen_terminal
    · subst ht
      rw [if_pos rfl]
      by_cases htaken : Taken response (k.terminal_array k.screen_terminal)
      · rw [if_pos htaken, Function.update_self]
        exact hscreen.key (hahead htaken) htaken hcase
      · rw [if_neg htaken, hcase.on_line htaken]
        exact hscreen
    · rw [if_neg ht]
      split
      · rw [Function.update_of_ne ht]
        exact h.line t
      · exact h.line t
  · unfold typed_keys
    dsimp only
    split
    · rw [Function.update_apply]
      split
      · intro hmem
        rcases List.mem_append.mp hmem with hmem | hmem
        · exact h.keys _ hmem
        · exact hkey (List.mem_singleton.mp hmem).symm
      · exact h.keys t
    · exact h.keys t

/-- The reader leaves an empty line behind. -/
theorem read_end (h : LineInv (k, typed)) (hready : line_ready k) (nbytes : Int)
    (buf : ℕ → UInt8) :
    LineInv ((terminal_read_end nbytes buf k).2.2,
      typed_keys k (.read_end nbytes buf) (terminal_read_end nbytes buf k).2.2 typed) := by
  have hlater : later_keys ENTER_KEY (typed k.curr_terminal) = [] := by
    have hline : LineState (k.terminal_array k.curr_terminal) (typed k.curr_terminal) := h.line _
    generalize typed k.curr_terminal = keys at hline
    cases hline with
    | editing flag => exact absurd hready.2 flag
    | completed flag first written => exact later_keys_append first
  unfold terminal_read_end typed_keys
  dsimp only
  rw [hlater]
  refine ⟨fun t => ?_, fun t => ?_⟩
  · dsimp only
    rw [set_terminal_apply, Function.update_apply]
    split
    · exact .editing (by dsimp only; decide) List.not_mem_nil (.nil _)
    · exact h.line t
  · dsimp only
    rw [Function.update_apply]
    split
    · exact List.not_mem_nil
    · exact h.keys t

/-- One step keeps the lines when it meets the condition. -/
theorem step {w w' : Kernel × (Terminal → List UInt8)} {op : ConsoleOp} (h : LineInv w)
    (hop : FromKeyboard op) (hahead : NoTypeAhead w.1 op)
    (hstep : with_history console_step typed_keys w op = some w') : LineInv w' := by
  obtain ⟨k, typed⟩ := w
  obtain ⟨k', typed'⟩ := w'
  obtain ⟨hk, htyped⟩ := with_history_eq_some.mp hstep
  dsimp only at hk htyped
  subst htyped
  cases op with
  | putc c =>
      rw [console_step, Option.some.injEq] at hk
      exact h.draws (hk ▸ draws_putc c k)
  | clear =>
      rw [console_step, Option.some.injEq] at hk
      exact h.draws (hk ▸ draws_clear k)
  | key response =>
      rw [console_step, Option.some.injEq] at hk
      exact hk ▸ h.key hop hahead
  | read_begin buf nbytes =>
      rw [console_step, Option.some.injEq] at hk
      subst hk
      refine ⟨fun t => ?_, h.keys⟩
      rcases terminal_read_begin_cases buf nbytes k with ⟨-, hread⟩ | ⟨-, hread⟩
      · rw [hread]
        exact h.line t
      · rw [hread]
        dsimp only
        rw [set_terminal_apply]
        split
        · rename_i ht
          rw [← ht]
          exact (h.line t).congr rfl rfl rfl
        · exact h.line t
  | read_end nbytes buf =>
      rw [console_step] at hk
      split at hk
      · rename_i hready
        rw [Option.some.injEq] at hk
        exact hk ▸ h.read_end hready nbytes buf
      · cases hk
  | tick =>
      rw [console_step, Option.some.injEq] at hk
      subst hk
      exact ⟨h.line, h.keys⟩
  | switch_screen t =>
      rw [console_step, Option.some.injEq] at hk
      subst hk
      exact ⟨h.line, h.keys⟩

/-- A completed line is read as it was typed. -/
theorem reads {w : Kernel × (Terminal → List UInt8)} (h : LineInv w) (op : ConsoleOp) :
    ReadsTyped w op := by
  cases op with
  | read_end nbytes buf =>
      intro hready hn
      have hclean := h.keys w.1.curr_terminal
      have hline := h.line w.1.curr_terminal
      generalize w.2 w.1.curr_terminal = keys at hline hclean ⊢
      cases hline with
      | editing flag => exact absurd hready.2 flag
      | @completed keys flag first written =>
          rw [first_keys_append first]
          refine terminal_read_end_line buf written (fun hmem => ?_) hn
          exact hclean (List.mem_append_left _ (mem_of_mem_edited hmem))
  | _ => trivial

end LineInv

/-! ## Runs -/

theorem Started.enter_flag {env : Env} {k : Kernel} (h : Started env k) (t : Terminal) :
    (k.terminal_array t).enter_flag = 0 := by
  have hflags : ∀ t, (k.terminal_array t).enter_flag = 0 := by
    refine h.invariant (P := fun k => ∀ t, (k.terminal_array t).enter_flag = 0)
      (fun memory t => ?_) (fun fr k hk t => ?_) (fun fr k k' hk hexec t => ?_)
    · obtain ⟨x, y, hxy⟩ := (draws_clear _).terminal t
      unfold init_kernel
      rw [hxy]
      rfl
    · obtain ⟨x, y, hxy⟩ := (draws_clear (preempt fr k)).terminal t
      unfold open_terminal
      rw [set_terminal_apply]
      split
      · rename_i ht
        rw [← ht, hxy]
        exact hk t
      · rw [hxy]
        exact hk t
    · obtain ⟨pid, eip, -, rfl⟩ := new_process_execute hexec
      obtain ⟨p, esp0, ss0, hterm⟩ := create_process_terminal pid env.link.empty_string eip fr
        (claim_slot pid { k with
          kernel_mem := execute_mem env (some (ascii "shell")) k.kernel_mem }) t
      rw [hterm]
      exact hk t
  exact hflags t

theorem lineInv_boot {env : Env} {k : Kernel} (h : Started env k) : LineInv (k, fun _ => []) := by
  refine ⟨fun t => .editing ?_ List.not_mem_nil ?_, fun t => List.not_mem_nil⟩
  · dsimp only
    rw [h.enter_flag]
    decide
  · dsimp only
    rw [h.booted.buffer_size]
    exact .nil _

/-- **A completed line is read as it was typed, in every run in which no key comes to it
between ENTER and its reader.** -/
theorem reads_typed {env : Env} {k : Kernel} {ops : List ConsoleOp} (hstart : Started env k)
    (hops : ∀ op, op ∈ ops → FromKeyboard op)
    (hahead : AllSteps (with_history console_step typed_keys) (fun w op => NoTypeAhead w.1 op)
      (k, fun _ => []) ops) :
    AllSteps (with_history console_step typed_keys) ReadsTyped (k, fun _ => []) ops := by
  have hboth := allSteps_and.mpr ⟨hahead, allSteps_of_forall hops⟩
  exact hboth.mono LineInv (fun w op w' hw hC hstep => hw.step hC.2 hC.1 hstep)
    (fun w op hw _ => hw.reads op) (lineInv_boot hstart)

/-- The shell of terminal 0 waits for a line, and three keys and ENTER are typed. -/
def typed_line : List ConsoleOp :=
  [.tick, .read_begin demo_buf 128, .key 97, .key 98, .key BACKSPACE_PRESSED, .key ENTER_KEY]

/-- The reader is scheduled once more and gets the line. -/
theorem reads_typed_demo :
    AllSteps (with_history console_step typed_keys) ReadsTyped (demo, fun _ => [])
        (typed_line ++ [.tick, .tick, .tick, .read_end 128 fun _ => 0]) ∧
      (run console_step demo (typed_line ++ [.tick, .tick, .tick])).map (fun k =>
        (decide (line_ready k), (terminal_read_end 128 (fun _ => 0) k).1)) = some (true, 2) := by
  refine ⟨reads_typed demo_started ?_ (by decide +kernel), by decide +kernel⟩
  simp only [typed_line, List.cons_append, List.nil_append, List.forall_mem_cons]
  decide

/-- A backspace behind ENTER takes a character of the completed line: the reader gets a
line without its line break. -/
theorem typed_behind_enter : Started demo_env demo ∧
    (∀ op, op ∈ typed_line ++ [.key BACKSPACE_PRESSED, .tick, .tick, .tick,
      .read_end 128 fun _ => 0] → FromKeyboard op) ∧
    ¬ AllSteps (with_history console_step typed_keys) ReadsTyped (demo, fun _ => [])
      (typed_line ++ [.key BACKSPACE_PRESSED, .tick, .tick, .tick, .read_end 128 fun _ => 0]) := by
  refine ⟨demo_started, ?_, fun hall => ?_⟩
  · simp only [typed_line, List.cons_append, List.nil_append, List.forall_mem_cons]
    decide
  · have hrun : (run (with_history console_step typed_keys) (demo, fun _ => [])
        (typed_line ++ [.key BACKSPACE_PRESSED, .tick, .tick, .tick])).map (fun w =>
          (decide (line_ready w.1), (terminal_read_end 128 (fun _ => 0) w.1).1,
            w.2 w.1.curr_terminal)) = some (true, 1, [97, 98, BACKSPACE_PRESSED, ENTER_KEY,
              BACKSPACE_PRESSED]) := by decide +kernel
    obtain ⟨w, hw, hv⟩ := Option.map_eq_some_iff.mp hrun
    simp only [Prod.mk.injEq, decide_eq_true_eq] at hv
    obtain ⟨hready, hcount, hkeys⟩ := hv
    have hlast : AllSteps (with_history console_step typed_keys) ReadsTyped (demo, fun _ => [])
        ((typed_line ++ [.key BACKSPACE_PRESSED, .tick, .tick, .tick]) ++
          [.read_end 128 fun _ => 0]) := by
      rw [List.append_assoc]
      exact hall
    have hread := hlast.next hw hready (by decide)
    rw [hkeys, hcount] at hread
    exact absurd hread.1 (by decide)

end LinuxLikeOS
