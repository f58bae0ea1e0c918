/-
The consoles: the drawing routines of `lib.c`, the line discipline of
`terminal.c`, and `switch_screen` of `keyboard.c`.

Video memory is four pages of 2048 character cells each: the page on display,
then one backup page for each terminal. A drawing routine picks its page and its
terminal from `curr_terminal`, `screen_terminal` and the one-shot flag
`DISPLAY_ON_MAIN_PAGE`, exactly as the source does; `to_backup_page` is that test,
which `clear` and `putc` make in the same words.

The line buffer is the last place where an index is not checked. `buffer_size` is
a byte, so an index into `buffer` can go up to 255, and a store past the 128 bytes
of the array lands in the fields behind it or in the next terminal. `line_store`
and `line_load` follow the layout of `terminal_info_t` there, so the model goes on
the way the machine does.
-/
import LinuxLikeOS.Kernel

set_option autoImplicit false

namespace LinuxLikeOS

def NUM_COLS : ℕ := 80
def NUM_ROWS : ℕ := 25
def END_OF_LINE : UInt8 := 0x0A
def CARRIAGE_RETURN : UInt8 := 0x0D
def SPACE_ASCII : UInt8 := 0x20
def CTL_L_CMD : UInt8 := 255
def BACKSPACE_PRESSED : UInt8 := 0x0E
def ENTER_KEY : UInt8 := 0x1C

/-- The number of character cells in a page, `FOUR_KB / 2`. -/
def PAGE_CELLS : Int := 2048

/-! ## Memory behind the line buffer

`terminal_info_t` has 172 bytes; `buffer` starts at byte 16. -/

def BUFFER_OFFSET : ℕ := 16
def TERMINAL_INFO_BYTES : ℕ := 172

/-- Byte `i` of a 32-bit word. -/
def word_byte (x i : ℕ) : UInt8 := UInt8.ofNat (x >>> (8 * i))

/-- A 32-bit word with byte `i` replaced. -/
def set_word_byte (x i : ℕ) (v : UInt8) : ℕ :=
  x - (x >>> (8 * i)) % 256 * 256 ^ i + v.toNat * 256 ^ i

/-- The same for an `int`. -/
def set_int_byte (x : Int) (i : ℕ) (v : UInt8) : Int := i32 (set_word_byte (u32 x) i v)

/-- The byte at an offset of a terminal. -/
def terminal_byte (ti : terminal_info_t) (off : ℕ) : UInt8 :=
  if off < 4 then word_byte (u32 ti.flag) off
  else if off < 8 then word_byte (u32 ti.terminal_id) (off - 4)
  else if off < 12 then word_byte (u32 ti.screen_x) (off - 8)
  else if off < 16 then word_byte (u32 ti.screen_y) (off - 12)
  else if off < 144 then ti.buffer (off - 16)
  else if off < 145 then UInt8.ofNat ti.buffer_size
  else if off < 148 then ti.padding off
  else if off < 152 then word_byte ti.pid (off - 148)
  else if off < 156 then word_byte ti.base_tss_esp0 (off - 152)
  else if off < 160 then word_byte ti.base_tss_ss0 (off - 156)
  else if off < 164 then word_byte (u32 ti.waitingInRead) (off - 160)
  else if off < 168 then word_byte (u32 ti.enter_flag) (off - 164)
  else if off < 169 then ti.attrib
  else ti.padding off

/-- A store to the byte at an offset of a terminal. -/
def set_terminal_byte (off : ℕ) (v : UInt8) (ti : terminal_info_t) : terminal_info_t :=
  if off < 4 then { ti with flag := set_int_byte ti.flag off v }
  else if off < 8 then { ti with terminal_id := set_int_byte ti.terminal_id (off - 4) v }
  else if off < 12 then { ti with screen_x := set_int_byte ti.screen_x (off - 8) v }
  else if off < 16 then { ti with screen_y := set_int_byte ti.screen_y (off - 12) v }
  else if off < 144 then { ti with buffer := Function.update ti.buffer (off - 16) v }
  else if off < 145 then { ti with buffer_size := v.toNat }
  else if off < 148 then { ti with padding := Function.update ti.padding off v }
  else if off < 152 then { ti with pid := set_word_byte ti.pid (off - 148) v }
  else if off < 156 then { ti with base_tss_esp0 := set_word_byte ti.base_tss_esp0 (off - 152) v }
  else if off < 160 then { ti with base_tss_ss0 := set_word_byte ti.base_tss_ss0 (off - 156) v }
  else if off < 164 then { ti with waitingInRead := set_int_byte ti.waitingInRead (off - 160) v }
  else if off < 168 then { ti with enter_flag := set_int_byte ti.enter_flag (off - 164) v }
  else if off < 169 then { ti with attrib := v }
  else { ti with padding := Function.update ti.padding off v }

/-- `terminal_array[t].buffer[i]`, read. -/
def line_load (k : Kernel) (t : Terminal) (i : ℕ) : UInt8 :=
  if BUFFER_OFFSET + i < TERMINAL_INFO_BYTES then
    terminal_byte (k.terminal_array t) (BUFFER_OFFSET + i)
  else if h : t.val + 1 < MAX_TERMINALS then
    terminal_byte (k.terminal_array ⟨t.val + 1, h⟩) (BUFFER_OFFSET + i - TERMINAL_INFO_BYTES)
  else k.after_terminal_array (BUFFER_OFFSET + i - TERMINAL_INFO_BYTES)

/-- `terminal_array[t].buffer[i] = v`. -/
def line_store (t : Terminal) (i : ℕ) (v : UInt8) (k : Kernel) : Kernel :=
  let k := { k with line_accesses := i :: k.line_accesses }
  if BUFFER_OFFSET + i < TERMINAL_INFO_BYTES then
    k.set_terminal t (set_terminal_byte (BUFFER_OFFSET + i) v)
  else if h : t.val + 1 < MAX_TERMINALS then
    k.set_terminal ⟨t.val + 1, h⟩
      (set_terminal_byte (BUFFER_OFFSET + i - TERMINAL_INFO_BYTES) v)
  else
    { k with
      after_terminal_array := Function.update k.after_terminal_array
        (BUFFER_OFFSET + i - TERMINAL_INFO_BYTES) v }

/-! ## Drawing -/

/-- The first cell of the backup page of a terminal,
`VIDEO_ADDR + ((t + 1) << 12)`. -/
def backup_page (t : Terminal) : Int := PAGE_CELLS * (t.val + 1)

/-- The test `clear` and `putc` begin with: the scheduled terminal is not the one on
display, and the keyboard has not asked for the main page. -/
def to_backup_page (k : Kernel) : Prop :=
  k.curr_terminal ≠ k.screen_terminal ∧ k.DISPLAY_ON_MAIN_PAGE = 0

instance (k : Kernel) : Decidable (to_backup_page k) := inferInstanceAs (Decidable (_ ∧ _))

/-- The terminal a drawing routine works on. -/
def draw_terminal (k : Kernel) : Terminal :=
  if to_backup_page k then k.curr_terminal else k.screen_terminal

/-- `true_mem`, as the first cell of the page. -/
def true_mem (k : Kernel) : Int :=
  if to_backup_page k then backup_page k.curr_terminal else 0

/-- The flags after the test: `terminal_flag` remembers its outcome for `check_size`,
and the one-shot flag is used up. -/
def draw_flags (k : Kernel) : Kernel :=
  if to_backup_page k then { k with terminal_flag := 1 }
  else { k with DISPLAY_ON_MAIN_PAGE := 0, terminal_flag := 0 }

def move_cursor (k : Kernel) : Kernel :=
  let ti := k.terminal_array k.screen_terminal
  { k with cursor := u32 (ti.screen_y * NUM_COLS + ti.screen_x) % 65536 }

def check_size (k : Kernel) : Kernel :=
  let true_terminal := if k.terminal_flag = 1 then k.curr_terminal else k.screen_terminal
  if (k.terminal_array true_terminal).screen_x ≥ NUM_COLS then
    k.set_terminal true_terminal fun ti =>
      { ti with screen_y := ti.screen_y + 1, screen_x := 0 }
  else k

/-- The cell under the cursor of a terminal, counted from the start of its page. -/
def cursor_cell (ti : terminal_info_t) : Int := NUM_COLS * ti.screen_y + ti.screen_x

def clear (k : Kernel) : Kernel :=
  let t := draw_terminal k
  let page := true_mem k
  let k := (draw_flags k).set_terminal t fun ti => { ti with screen_x := 0, screen_y := 0 }
  let ATTRIB := (k.terminal_array t).attrib
  -- the loop stores to each cell once and reads none
  move_cursor { k with
    video := fun c =>
      if page ≤ c ∧ c < page + NUM_ROWS * NUM_COLS then ⟨SPACE_ASCII, ATTRIB⟩ else k.video c }

/-- One row of the scroll: every cell of row `i` takes the character below it. -/
def scroll_row (page : Int) (ATTRIB : UInt8) (i : ℕ) (video : Int → cell) : Int → cell :=
  fun c =>
    if page + NUM_COLS * i ≤ c ∧ c < page + NUM_COLS * i + NUM_COLS then
      ⟨(video (c + NUM_COLS)).character, ATTRIB⟩
    else video c

/-- The scroll loop of `putc`, then its last row. -/
def scroll (page : Int) (ATTRIB : UInt8) (video : Int → cell) : Int → cell :=
  let video := for_loop (scroll_row page ATTRIB) (NUM_ROWS - 1) video
  fun c =>
    if page + NUM_COLS * (NUM_ROWS - 1) ≤ c ∧ c < page + NUM_COLS * (NUM_ROWS - 1) + NUM_COLS then
      ⟨0, ATTRIB⟩
    else video c

/-- The body of `putc` before the scroll: a line break moves to the next row, any
other byte is stored under the cursor. -/
def putc_store (c : UInt8) (t : Terminal) (page : Int) (ATTRIB : UInt8) (k : Kernel) : Kernel :=
  if c = END_OF_LINE ∨ c = CARRIAGE_RETURN then
    k.set_terminal t fun ti => { ti with screen_y := ti.screen_y + 1, screen_x := 0 }
  else
    let k := { k with
      video := Function.update k.video (page + cursor_cell (k.terminal_array t)) ⟨c, ATTRIB⟩ }
    check_size (k.set_terminal t fun ti => { ti with screen_x := ti.screen_x + 1 })

/-- The end of `putc`: scroll when the cursor has left the last row. -/
def putc_scroll (t : Terminal) (page : Int) (ATTRIB : UInt8) (k : Kernel) : Kernel :=
  if (k.terminal_array t).screen_y > NUM_ROWS - 1 then
    { k with video := scroll page ATTRIB k.video }.set_terminal t fun ti =>
      { ti with screen_y := NUM_ROWS - 1, screen_x := 0 }
  else k

def putc (c : UInt8) (k : Kernel) : Kernel :=
  let t := draw_terminal k
  let page := true_mem k
  let k := draw_flags k
  let ATTRIB := (k.terminal_array t).attrib
  move_cursor (putc_scroll t page ATTRIB (putc_store c t page ATTRIB k))

def erase_char (k : Kernel) : Kernel :=
  -- always on the page on display, and without a test for the first row
  let s := k.screen_terminal
  let k := { k with terminal_flag := 0 }
  let k := k.set_terminal s fun ti => { ti with screen_x := ti.screen_x - 1 }
  let k :=
    if (k.terminal_array s).screen_x < 0 then
      k.set_terminal s fun ti =>
        { ti with screen_x := NUM_COLS - 1, screen_y := ti.screen_y - 1 }
    else k
  let c := cursor_cell (k.terminal_array s)
  move_cursor { k with
    video := Function.update k.video c ⟨0, (k.video c).attrib⟩ }

/-! ## The line discipline -/

/-- A character for the main page, as the keyboard prints it. -/
def echo (c : UInt8) (k : Kernel) : Kernel := putc c { k with DISPLAY_ON_MAIN_PAGE := 1 }

/-- `terminal_array[screen_terminal].buffer[buffer_size] = v`. -/
def store_at_end (v : UInt8) (k : Kernel) : Kernel :=
  line_store k.screen_terminal (k.terminal_array k.screen_terminal).buffer_size v k

/-- `buffer_size++`, on a byte. -/
def grow_line (k : Kernel) : Kernel :=
  k.set_terminal k.screen_terminal fun ti => { ti with buffer_size := (ti.buffer_size + 1) % 256 }

/-- `buffer_size--`, on a byte. -/
def shrink_line (k : Kernel) : Kernel :=
  k.set_terminal k.screen_terminal fun ti =>
    { ti with buffer_size := (ti.buffer_size + 255) % 256 }

/-- The ENTER branches of `edit_buffer`, which are the same statements twice. -/
def enter_line (k : Kernel) : Kernel :=
  let k := echo END_OF_LINE (store_at_end END_OF_LINE k)
  grow_line (k.set_terminal k.screen_terminal fun ti => { ti with enter_flag := 1 })

/-- The branch that adds a character. -/
def add_char (response : UInt8) (k : Kernel) : Kernel :=
  grow_line (echo response (store_at_end response k))

/-- The backspace branch. -/
def delete_char (k : Kernel) : Kernel :=
  let k :=
    if (k.terminal_array k.screen_terminal).buffer_size > 0 then
      shrink_line (store_at_end 0 (erase_char k))
    else k
  if (k.terminal_array k.screen_terminal).buffer_size = 0 then store_at_end 0 k else k

/-- One iteration of the loop that prints the line again after Ctrl-L. -/
def redraw_char (i : ℕ) (k : Kernel) : Kernel :=
  let c := line_load k k.screen_terminal i
  echo c { k with line_accesses := i :: k.line_accesses }

/-- The Ctrl-L branch. -/
def redraw_line (k : Kernel) : Kernel :=
  let k := clear { k with DISPLAY_ON_MAIN_PAGE := 1 }
  for_loop redraw_char (k.terminal_array k.screen_terminal).buffer_size k

def edit_buffer (response : UInt8) (k : Kernel) : Kernel :=
  let ti := k.terminal_array k.screen_terminal
  if response = CTL_L_CMD then redraw_line k
  else if ti.waitingInRead = 1 ∧ response ≠ 0 then
    -- `enter_flag` is not looked at
    if ti.buffer_size = MAX_BUF_SIZE - 2 ∧ response = ENTER_KEY then enter_line k
    else if response = BACKSPACE_PRESSED then delete_char k
    else if ti.buffer_size = MAX_BUF_SIZE - 1 ∧ response ≠ ENTER_KEY then k
    else if response = ENTER_KEY then enter_line k
    else add_char response k
  else k

/-- `terminal_read` up to its waiting loop. -/
def terminal_read_begin (buf : ℕ) (nbytes : Int) (k : Kernel) : Control × Kernel :=
  if buf = 0 then (.ret (-1), k)
  else if nbytes ≤ 0 then (.ret (-1), k)
  else (.wait, k.set_terminal k.curr_terminal fun ti => { ti with waitingInRead := 1 })

/-- The local variables of the copy loop of `terminal_read` when it ends. -/
structure read_locals where
  i : ℕ
  numbytes : ℕ
  buf : ℕ → UInt8
  enterAtEnd : Bool

/-- The copy loop, with `m` iterations left, at index `i`. -/
def read_loop (ti : terminal_info_t) : ℕ → ℕ → ℕ → (ℕ → UInt8) → read_locals
  | 0, i, numbytes, buf => ⟨i, numbytes, buf, false⟩
  | m + 1, i, numbytes, buf =>
      let copied := i < ti.buffer_size
      let numbytes := if copied then numbytes + 1 else numbytes
      let buf := if copied then Function.update buf i (ti.buffer i) else buf
      if ti.buffer i = END_OF_LINE then ⟨i, numbytes, buf, true⟩
      else read_loop ti m (i + 1) numbytes buf

/-- The indices the copy loop reads: one for each iteration it starts. -/
def read_locals.accessed (r : read_locals) : List ℕ :=
  List.range (if r.enterAtEnd then r.i + 1 else r.i)

/-- `terminal_read` from the end of its waiting loop: the value returned, the user's
buffer and the kernel. The caller's buffer is given by its contents before. -/
def terminal_read_end (nbytes : Int) (buf : ℕ → UInt8) (k : Kernel) :
    ℕ × (ℕ → UInt8) × Kernel :=
  let t := k.curr_terminal
  let ti := k.terminal_array t
  let true_bytes := if (MAX_BUF_SIZE : Int) < nbytes then MAX_BUF_SIZE else nbytes.toNat
  let r := read_loop ti true_bytes 0 0 buf
  -- a line that was cut short still ends in a line break
  let buf :=
    if r.enterAtEnd = false ∧ r.i < ti.buffer_size ∧ r.buf (r.i - 1) ≠ END_OF_LINE then
      Function.update r.buf (r.i - 1) END_OF_LINE
    else r.buf
  let k := { k with line_accesses := List.range true_bytes ++ r.accessed ++ k.line_accesses }
  (r.numbytes, buf, k.set_terminal t fun ti =>
    { ti with
      buffer := fun i => if i < true_bytes then 0 else ti.buffer i
      buffer_size := 0
      waitingInRead := 0
      enter_flag := 0 })

/-- One iteration of the loop of `terminal_write`, with the bytes written so far. -/
def write_char (buf : ℕ → UInt8) (i : ℕ) (s : Int × Kernel) : Int × Kernel :=
  if buf i ≠ 0 then (s.1 + 1, putc (buf i) s.2) else s

/-- `none` as the buffer is the `NULL` pointer. -/
def terminal_write (buf : Option (ℕ → UInt8)) (nbytes : Int) (k : Kernel) : Int × Kernel :=
  match buf with
  | none => (-1, k)
  | some buf => if nbytes ≤ 0 then (-1, k) else for_loop (write_char buf) nbytes.toNat (0, k)

/-! ## The keyboard's screen switch -/

/-- `memcpy` of one page of video memory. -/
def copy_page (dest src : Int) (video : Int → cell) : Int → cell :=
  fun c => if dest ≤ c ∧ c < dest + PAGE_CELLS then video (src + (c - dest)) else video c

def switch_screen (new_terminal : Terminal) (k : Kernel) : Kernel :=
  let old := k.screen_terminal
  -- save first, so that a switch to the same terminal copies the page back
  let k := { k with video := copy_page (backup_page old) 0 k.video }
  let k := k.set_paging (set_vid_map_base (VIDEO_ADDR / ALIGN + (old.val + 1)))
  let k := { k with video := copy_page 0 (backup_page new_terminal) k.video }
  move_cursor { k with terminal_flag := 0, screen_terminal := new_terminal }

end LinuxLikeOS
