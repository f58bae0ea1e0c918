/-
`ece391support.c`, and the system calls as the user programs make them.

A user program works on arrays of its own and calls the kernel in between, so it is a function of
the kernel's state here. A call that waits for an interrupt has no result; the programs below make
none as long as what they open are regular files and directories. What they write to descriptor 1
is printed on the sheet of their terminal.
-/
import LinuxLikeOS.Consoles
import LinuxLikeOS.Directory
import LinuxLikeOS.Dispatch
import LinuxLikeOS.FileReads
import LinuxLikeOS.Streams

set_option autoImplicit false

namespace LinuxLikeOS

open Kernel TextLayout

/-! ## Strings -/

/-- The loop of `strlen`, with a pointer in place of the index. -/
def ece391_strlen (s : ℕ → UInt8) : ℕ := strlen s

/-- `while ('\0' != (*dst++ = *src++));` within one array. -/
def strcpy_from : ℕ → ℕ → ℕ → (ℕ → UInt8) → ℕ → UInt8
  | 0, _, _, data => data
  | fuel + 1, dst, src, data =>
      let c := data src
      let data := Function.update data dst c
      if c ≠ 0 then strcpy_from fuel (dst + 1) (src + 1) data else data

def ece391_strcpy (dst src : ℕ) (data : ℕ → UInt8) : ℕ → UInt8 :=
  strcpy_from ADDRESS_SPACE dst src data

/-- The loop of `ece391_strncmp` at index `i`, with `n` bytes left. -/
def ece391_strncmp_from (s1 s2 : ℕ → UInt8) : ℕ → ℕ → Int
  | 0, _ => 0
  | n + 1, i =>
      if s1 i = s2 i then
        if s1 i = 0 ∨ n = 0 then 0 else ece391_strncmp_from s1 s2 n (i + 1)
      else (s1 i).toNat - (s2 i).toNat

def ece391_strncmp (s1 s2 : ℕ → UInt8) (n : ℕ) : Int :=
  if n = 0 then 0 else ece391_strncmp_from s1 s2 n 0

/-- The loop of `ece391_strcmp` at index `i`. -/
def ece391_strcmp_from (s1 s2 : ℕ → UInt8) : ℕ → ℕ → Int
  | 0, _ => 0
  | fuel + 1, i =>
      if s1 i = s2 i then if s1 i = 0 then 0 else ece391_strcmp_from s1 s2 fuel (i + 1)
      else (s1 i).toNat - (s2 i).toNat

def ece391_strcmp (s1 s2 : ℕ → UInt8) : Int := ece391_strcmp_from s1 s2 ADDRESS_SPACE 0

/-- The text stands in memory with a terminator behind it. -/
structure TextAt (s : ℕ → UInt8) (text : List UInt8) : Prop where
  no_terminator : (0 : UInt8) ∉ text
  length_lt : text.length < 2147483648
  bytes : ∀ i, i ≤ text.length → s i = c_str text i

section

variable {s : ℕ → UInt8} {text : List UInt8}

theorem TextAt.c_str (hzero : (0 : UInt8) ∉ text) (hlen : text.length < 2147483648) :
    TextAt (c_str text) text := ⟨hzero, hlen, fun _ _ => rfl⟩

theorem TextAt.end_eq (h : TextAt s text) : s text.length = 0 :=
  (h.bytes _ (Nat.le_refl _)).trans (c_str_end (Nat.le_refl _))

theorem TextAt.ne_zero (h : TextAt s text) {i : ℕ} (hi : i < text.length) : s i ≠ 0 := by
  rw [h.bytes i (Nat.le_of_lt hi), c_str_eq hi]
  intro hzero
  exact h.no_terminator (hzero ▸ List.getElem_mem hi)

theorem TextAt.strlen (h : TextAt s text) : ece391_strlen s = text.length := by
  have hlen := h.length_lt
  exact strlen_eq (by unfold ADDRESS_SPACE; omega) h.end_eq fun i hi => h.ne_zero hi

/-- The bytes of the string in order. -/
theorem TextAt.map_range (h : TextAt s text) : (List.range text.length).map s = text := by
  apply List.ext_getElem
  · simp
  · intro i _ hi
    rw [List.getElem_map, List.getElem_range, h.bytes i (Nat.le_of_lt hi), c_str_eq hi]

/-- **A copy downwards** within an array, of a string that may overlap its place. -/
theorem strcpy_from_apply {n dst src fuel : ℕ} {data : ℕ → UInt8} (hlt : dst < src)
    (hbody : ∀ i, i < n → data (src + i) ≠ 0) (hend : data (src + n) = 0) (hfuel : n < fuel) (j : ℕ) :
    strcpy_from fuel dst src data j
      = if dst ≤ j ∧ j ≤ dst + n then data (src + (j - dst)) else data j := by
  induction n generalizing dst src fuel data with
  | zero =>
      obtain ⟨fuel, rfl⟩ : ∃ m, fuel = m + 1 := ⟨fuel - 1, by omega⟩
      rw [Nat.add_zero] at hend
      unfold strcpy_from
      dsimp only
      rw [hend, if_neg (by simp), Function.update_apply]
      by_cases hj : j = dst
      · subst hj
        rw [if_pos rfl, if_pos (by omega), Nat.sub_self, Nat.add_zero, hend]
      · rw [if_neg hj, if_neg (by omega)]
  | succ n ih =>
      obtain ⟨fuel, rfl⟩ : ∃ m, fuel = m + 1 := ⟨fuel - 1, by omega⟩
      have hfirst := hbody 0 (Nat.succ_pos n)
      rw [Nat.add_zero] at hfirst
      -- what is still to be copied lies above the byte that was written
      have hkept : ∀ i, Function.update data dst (data src) (src + 1 + i) = data (src + (i + 1)) := by
        intro i
        rw [Function.update_of_ne (by omega)]
        congr 1
        omega
      have hrest := @ih (dst + 1) (src + 1) fuel (Function.update data dst (data src)) (by omega)
        (fun i hi => by
          rw [hkept]
          exact hbody (i + 1) (by omega))
        (by
          rw [hkept]
          exact hend)
        (by omega)
      unfold strcpy_from
      dsimp only
      rw [if_pos hfirst, hrest]
      by_cases hj : j = dst
      · subst hj
        rw [if_neg (by omega), if_pos (by omega), Function.update_self, Nat.sub_self, Nat.add_zero]
      · by_cases hin : dst + 1 ≤ j ∧ j ≤ dst + 1 + n
        · rw [if_pos hin, if_pos (by omega), hkept]
          congr 1
          omega
        · rw [if_neg hin, if_neg (by omega), Function.update_of_ne hj]

/-- Strings without a terminator among the bytes compared are compared byte by byte. -/
theorem ece391_strncmp_from_eq_zero {s1 s2 : ℕ → UInt8} {n i : ℕ} (hbody : ∀ j, j < n → s2 (i + j) ≠ 0) :
    ece391_strncmp_from s1 s2 n i = 0 ↔ ∀ j, j < n → s1 (i + j) = s2 (i + j) := by
  induction n generalizing i with
  | zero => exact iff_of_true rfl fun j hj => absurd hj (Nat.not_lt_zero j)
  | succ n ih =>
      have hshift : ∀ j, i + 1 + j = i + (j + 1) := fun j => by omega
      have hfirst : s2 i ≠ 0 := hbody 0 (Nat.succ_pos n)
      rw [ece391_strncmp_from]
      by_cases heq : s1 i = s2 i
      · rw [if_pos heq]
        have hne : ¬ s1 i = 0 := by rwa [heq]
        by_cases hn : n = 0
        · subst hn
          rw [if_pos (Or.inr rfl)]
          refine iff_of_true rfl fun j hj => ?_
          obtain rfl : j = 0 := by omega
          exact heq
        · rw [if_neg (by simp [hne, hn]), ih fun j hj => by
            rw [hshift]
            exact hbody (j + 1) (by omega)]
          constructor
          · intro h j hj
            cases j with
            | zero => exact heq
            | succ j =>
                rw [← hshift]
                exact h j (by omega)
          · intro h j hj
            rw [hshift]
            exact h (j + 1) (by omega)
      · rw [if_neg heq]
        refine iff_of_false ?_ fun h => heq (h 0 (Nat.succ_pos n))
        intro hzero
        exact heq (UInt8.toNat_inj.mp (by omega))

/-- **`ece391_strncmp` over the length of a text** finds it at the beginning of a string. -/
theorem TextAt.strncmp_eq_zero (h : TextAt s text) {s1 : ℕ → UInt8} :
    ece391_strncmp s1 s text.length = 0 ↔ ∀ i (hi : i < text.length), s1 i = text[i] := by
  have hiff : ece391_strncmp s1 s text.length = 0 ↔ ∀ j, j < text.length → s1 j = s j := by
    unfold ece391_strncmp
    by_cases hn : text.length = 0
    · rw [if_pos hn]
      exact iff_of_true rfl fun j hj => by omega
    · rw [if_neg hn, ece391_strncmp_from_eq_zero fun j hj => by
        rw [Nat.zero_add]
        exact h.ne_zero hj]
      simp only [Nat.zero_add]
  rw [hiff]
  refine forall_congr' fun i => forall_congr' fun hi => ?_
  rw [h.bytes i (Nat.le_of_lt hi), c_str_eq hi]

/-- What two strings have in common ends where they differ or both end. -/
theorem ece391_strcmp_from_eq_zero {s1 s2 : ℕ → UInt8} {n i fuel : ℕ} (hend : s2 (i + n) = 0)
    (hbody : ∀ j, j < n → s2 (i + j) ≠ 0) (hfuel : n < fuel) :
    ece391_strcmp_from s1 s2 fuel i = 0 ↔ ∀ j, j ≤ n → s1 (i + j) = s2 (i + j) := by
  induction fuel generalizing n i with
  | zero => omega
  | succ fuel ih =>
      rw [ece391_strcmp_from]
      by_cases heq : s1 i = s2 i
      · rw [if_pos heq]
        cases n with
        | zero =>
            rw [if_pos (heq.trans hend)]
            refine iff_of_true rfl fun j hj => ?_
            obtain rfl : j = 0 := by omega
            exact heq
        | succ n =>
            have hshift : ∀ j, i + 1 + j = i + (j + 1) := fun j => by omega
            have hfirst : ¬ s1 i = 0 := by
              rw [heq]
              exact hbody 0 (Nat.succ_pos n)
            rw [if_neg hfirst, ih (n := n) (by rwa [hshift]) (fun j hj => by
              rw [hshift]
              exact hbody (j + 1) (by omega)) (by omega)]
            constructor
            · intro h j hj
              cases j with
              | zero => exact heq
              | succ j =>
                  rw [← hshift]
                  exact h j (by omega)
            · intro h j hj
              rw [hshift]
              exact h (j + 1) (by omega)
      · rw [if_neg heq]
        refine iff_of_false ?_ fun h => heq (h 0 (Nat.zero_le n))
        intro hzero
        exact heq (UInt8.toNat_inj.mp (by omega))

/-- **`ece391_strcmp` tells texts apart.** -/
theorem TextAt.strcmp_eq_zero {s' : ℕ → UInt8} {text' : List UInt8} (h : TextAt s text)
    (h' : TextAt s' text') : ece391_strcmp s s' = 0 ↔ text = text' := by
  have hlen := h'.length_lt
  have hend := h'.end_eq
  have hfrom : ece391_strcmp_from s s' ADDRESS_SPACE 0 = 0 ↔
      ∀ j, j ≤ text'.length → s (0 + j) = s' (0 + j) := by
    apply ece391_strcmp_from_eq_zero
    · rwa [Nat.zero_add]
    · intro j hj
      rw [Nat.zero_add]
      exact h'.ne_zero hj
    · unfold ADDRESS_SPACE
      omega
  unfold ece391_strcmp
  rw [hfrom]
  simp only [Nat.zero_add]
  constructor
  · intro hsame
    -- the lengths agree, because the terminators do
    have hlength : text.length = text'.length := by
      rcases Nat.lt_trichotomy text.length text'.length with hlt | heq | hgt
      · exact absurd ((hsame _ (Nat.le_of_lt hlt)).symm.trans h.end_eq) (h'.ne_zero hlt)
      · exact heq
      · exact absurd ((hsame _ (Nat.le_refl _)).trans hend) (h.ne_zero hgt)
    apply List.ext_getElem hlength
    intro i hi hi'
    have hbyte := hsame i (Nat.le_of_lt hi')
    rwa [h.bytes i (Nat.le_of_lt hi), h'.bytes i (Nat.le_of_lt hi'), c_str_eq hi, c_str_eq hi'] at hbyte
  · rintro rfl j hj
    rw [h.bytes j hj, h'.bytes j hj]

end

/-! ## System calls -/

/-- `ece391_open`, from the call to its result. -/
def call_open (fs : file_sys) (filename : ℕ → UInt8) (k : Kernel) : Option (Int × Kernel) :=
  system_open fs (string_at filename) k

/-- `ece391_read`, where it does not wait. -/
def call_read (fs : file_sys) (fd : Int) (buf : ℕ) (nbytes : Int) (k : Kernel) :
    Option (Int × List UInt8 × Kernel) :=
  match system_read fs fd buf nbytes k with
  | some (.ret cnt, bytes, k) => some (cnt, bytes, k)
  | _ => none

def call_write (fd : Int) (buf : ℕ → UInt8) (nbytes : Int) (k : Kernel) : Option (Int × Kernel) :=
  system_write fd (some buf) nbytes k

def call_close (fd : Int) (k : Kernel) : Option (Int × Kernel) := system_close fd k

def ece391_fdputs (fd : Int) (s : ℕ → UInt8) (k : Kernel) : Option Kernel :=
  (call_write fd s (i32 (ece391_strlen s)) k).map Prod.snd

/-- The bytes that a call has stored from `data + start` on. -/
def store_at (start : ℕ) (bytes : List UInt8) (data : ℕ → UInt8) : ℕ → UInt8 :=
  fun i => if start ≤ i then bytes.getD (i - start) (data i) else data i

/-! ## What they keep -/

theorem printed_append (sheet : Sheet UInt8) (text text' : List UInt8) :
    printed (printed sheet text) text' = printed sheet (text ++ text') := by
  unfold printed
  rw [List.foldl_append]

/-- Descriptor 1 is the terminal, and the sheet is what the terminal shows. -/
structure Stdout (k : Kernel) (s : Sheet UInt8) : Prop where
  writable : writable k 1
  ops : (named_fd k 1).file_op_table_ptr = .term_write_ops
  display : k.DISPLAY_ON_MAIN_PAGE = 0
  sheet : Displays k k.curr_terminal s

/-- The program has gone on to `k'` with one of its descriptors. -/
structure OnlyFd (i : ℕ) (k k' : Kernel) : Prop where
  curr_terminal : k'.curr_terminal = k.curr_terminal
  curr_pid : k'.curr_pid = k.curr_pid
  dentry_counter : k'.dentry_counter = k.dentry_counter
  fds : ∀ j, j ≠ i → table k' k.curr_pid j = table k k.curr_pid j

section

variable {k k' k'' : Kernel} {s : Sheet UInt8} {i : ℕ}

theorem OnlyFd.trans (h : OnlyFd i k k') (h' : OnlyFd i k' k'') : OnlyFd i k k'' where
  curr_terminal := h'.curr_terminal.trans h.curr_terminal
  curr_pid := h'.curr_pid.trans h.curr_pid
  dentry_counter := h'.dentry_counter.trans h.dentry_counter
  fds j hj := by
    have hnext := h'.fds j hj
    rw [h.curr_pid] at hnext
    exact hnext.trans (h.fds j hj)

theorem Draws.onlyFd (h : Draws k k') (i : ℕ) : OnlyFd i k k' where
  curr_terminal := h.curr_terminal
  curr_pid := h.curr_pid
  dentry_counter := h.dentry_counter
  fds j _ := by
    unfold table
    rw [h.pcb]

theorem onlyFd_set_fd (i : ℕ) (f : fd_t → fd_t) (k : Kernel) :
    OnlyFd i k (set_fd k.curr_pid i f k) where
  curr_terminal := rfl
  curr_pid := rfl
  dentry_counter := rfl
  fds j hj := by
    unfold table
    rw [set_fd_file_descriptors, if_neg fun h => hj h.2]

/-- Another descriptor is as it was. -/
theorem OnlyFd.named_fd (h : OnlyFd i k k') {fd : Int} (hfd : fd.toNat ≠ i) :
    named_fd k' fd = named_fd k fd := by
  unfold LinuxLikeOS.named_fd
  rw [h.curr_pid]
  exact h.fds _ hfd

theorem Draws.named_fd (h : Draws k k') (fd : Int) : named_fd k' fd = named_fd k fd := by
  unfold LinuxLikeOS.named_fd table
  rw [h.curr_pid, h.pcb]

theorem Stdout.set_fd (h : Stdout k s) {i : ℕ} (hi : i ≠ 1) (f : fd_t → fd_t) :
    Stdout (LinuxLikeOS.set_fd k.curr_pid i f k) s := by
  have hfd : named_fd (LinuxLikeOS.set_fd k.curr_pid i f k) 1 = named_fd k 1 :=
    (onlyFd_set_fd i f k).named_fd fun heq => hi heq.symm
  refine ⟨⟨h.writable.1, ?_⟩, ?_, h.display, h.sheet⟩
  · rw [hfd]
    exact h.writable.2
  · rw [hfd]
    exact h.ops

theorem terminal_write_display (hoff : k.DISPLAY_ON_MAIN_PAGE = 0) (buf : Option (ℕ → UInt8))
    (nbytes : Int) : (terminal_write buf nbytes k).2.DISPLAY_ON_MAIN_PAGE = 0 := by
  unfold terminal_write
  cases buf with
  | none => exact hoff
  | some bytes =>
      dsimp only
      split
      · exact hoff
      · apply for_loop_invariant (fun _ (w : Int × Kernel) => w.2.DISPLAY_ON_MAIN_PAGE = 0)
        · exact hoff
        · intro i w _ hw
          unfold write_char
          split
          · exact (putc_eq _ _).2.2
          · exact hw

/-- A write of at least one byte is not refused. -/
theorem terminal_write_ne_neg (buf : ℕ → UInt8) {nbytes : Int} (hpos : 0 < nbytes) (k : Kernel) :
    (terminal_write (some buf) nbytes k).1 ≠ -1 := by
  have hloop : 0 ≤ (for_loop (write_char buf) nbytes.toNat (0, k)).1 := by
    apply for_loop_invariant (fun _ (w : Int × Kernel) => 0 ≤ w.1)
    · exact Int.le_refl 0
    · intro i w _ hw
      unfold write_char
      split
      · dsimp only
        omega
      · exact hw
  unfold terminal_write
  dsimp only
  rw [if_neg (by omega)]
  omega

/-- **What is written is printed.** -/
theorem Stdout.write (h : Stdout k s) (buf : ℕ → UInt8) (nbytes : Int) :
    ∃ r k', call_write 1 buf nbytes k = some (r, k') ∧ Draws k k' ∧ (0 < nbytes → r ≠ -1) ∧
      Stdout k' (printed s (bytes_written (some buf) nbytes)) := by
  have hdraws := draws_terminal_write (some buf) nbytes k
  have hfd : named_fd (terminal_write (some buf) nbytes k).2 1 = named_fd k 1 :=
    (hdraws.onlyFd 0).named_fd (by decide)
  refine ⟨_, _, ?_, hdraws, fun hpos => terminal_write_ne_neg buf hpos k, ⟨h.writable.1, ?_⟩, ?_,
    terminal_write_display h.display _ _, ?_⟩
  · have hwrite : system_write 1 (some buf) nbytes k
        = fops_write (named_fd k 1).file_op_table_ptr (some buf) nbytes k := if_pos h.writable
    unfold call_write
    rw [hwrite, h.ops]
    rfl
  · rw [hfd]
    exact h.writable.2
  · rw [hfd]
    exact h.ops
  · rw [hdraws.curr_terminal]
    exact h.sheet.terminal_write h.display _ _

/-- **A string is printed.** -/
theorem Stdout.fdputs (h : Stdout k s) {buf : ℕ → UInt8} {text : List UInt8} (htext : TextAt buf text) :
    ∃ k', ece391_fdputs 1 buf k = some k' ∧ Draws k k' ∧ Stdout k' (printed s text) := by
  have hlen := i32_of_lt htext.length_lt
  obtain ⟨r, k', hwrite, hdraws, -, hout⟩ := h.write buf text.length
  refine ⟨k', ?_, hdraws, ?_⟩
  · unfold ece391_fdputs
    rw [htext.strlen, hlen, hwrite]
    rfl
  · have hbytes : bytes_written (some buf) text.length = text := by
      unfold bytes_written
      dsimp only
      rw [Int.toNat_natCast, htext.map_range, List.filter_eq_self]
      intro c hc
      rw [decide_eq_true_eq]
      rintro rfl
      exact htext.no_terminator hc
    rwa [hbytes] at hout

theorem store_at_lt {start : ℕ} {bytes : List UInt8} {data : ℕ → UInt8} (h : i < start) :
    store_at start bytes data i = data i := if_neg (by omega)

theorem store_at_mem {start : ℕ} {bytes : List UInt8} {data : ℕ → UInt8} (h : i < bytes.length) :
    store_at start bytes data (start + i) = bytes[i] := by
  unfold store_at
  rw [if_pos (by omega), Nat.add_sub_cancel_left, List.getD_eq_getElem _ _ h]

theorem store_at_ge {start : ℕ} {bytes : List UInt8} {data : ℕ → UInt8}
    (h : start + bytes.length ≤ i) : store_at start bytes data i = data i := by
  unfold store_at
  rw [if_pos (by omega), List.getD_eq_default _ _ (by omega)]

/-! ## Files -/

variable {fs : file_sys} {fd : Int} {inode_num pos n : ℕ}

theorem FileAt.same (h : FileAt fd inode_num pos k) (hfd : named_fd k' fd = named_fd k fd) :
    FileAt fd inode_num pos k' := by
  refine ⟨⟨h.readable.1, ?_⟩, ?_, ?_, ?_⟩
  · rw [hfd]
    exact h.readable.2
  · rw [hfd]
    exact h.ops
  · rw [hfd]
    exact h.inode
  · rw [hfd]
    exact h.file_pos

/-- The next bytes of a file, for a program that prints. -/
theorem FileAt.next (h : FileAt fd inode_num pos k) (hout : Stdout k s)
    (hino : inode_num < fs.boot_block.inode_count) (hsum : pos + n < 2147483648) (buf : ℕ) :
    ∃ k', call_read fs fd buf n k =
        some (((min n ((fs.inode inode_num).length - pos) : ℕ) : Int),
          file_bytes fs (fs.inode inode_num) pos (min n ((fs.inode inode_num).length - pos)), k') ∧
      FileAt fd inode_num (pos + n) k' ∧ Stdout k' s ∧ OnlyFd fd.toNat k k' := by
  obtain ⟨k', hread, hnext⟩ := h.read hino hsum buf
  -- the call has set the position and nothing else
  have hk : k' = set_fd k.curr_pid fd.toNat
      (fun file => { file with file_pos := i32 (file.file_pos + n) }) k := by
    have heq := hread
    rw [system_read_of_file buf n ⟨h.readable, h.ops⟩] at heq
    exact (congrArg (fun r => r.2.2) (Option.some.inj heq)).symm
  have hne : fd.toNat ≠ 1 := by
    have := h.readable.1
    omega
  refine ⟨k', ?_, hnext, ?_, ?_⟩
  · unfold call_read
    rw [hread]
  · rw [hk]
    exact hout.set_fd hne _
  · rw [hk]
    exact onlyFd_set_fd _ _ _

theorem TextAt.string_at {buf : ℕ → UInt8} {name : List UInt8} (h : TextAt buf name) :
    string_at buf = name := by
  have hlen : LinuxLikeOS.strlen buf = name.length := h.strlen
  unfold LinuxLikeOS.string_at
  rw [hlen]
  exact h.map_range

/-- A regular file is opened on a descriptor that was free. -/
theorem Stdout.open_file (hout : Stdout k s) {buf : ℕ → UInt8} {name : List UInt8} {d : dentry_t}
    (hbuf : TextAt buf name) (hname : read_dentry_by_name fs (LinuxLikeOS.c_str name) = some d)
    (htype : d.filetype = 2) (hnum : d.inode_num < 4294967296)
    (hfree : free_fd (get_pcb k k.curr_pid) = some i) :
    ∃ k', call_open fs buf k = some ((i : Int), k') ∧ FileAt i d.inode_num 0 k' ∧ Stdout k' s ∧
      OnlyFd i k k' := by
  have hslot := free_fd_eq_some.mp hfree
  have hmin : 2 ≤ i := hslot.lower
  have hopen := system_open_file hname htype hfree
  refine ⟨_, ?_, fileAt_opened hname htype hnum hopen (by omega), hout.set_fd (by omega) _,
    onlyFd_set_fd _ _ _⟩
  unfold call_open
  rw [hbuf.string_at, hopen]

/-- It is closed again. -/
theorem FileAt.close (h : FileAt fd inode_num pos k) (hout : Stdout k s) (hfd : 2 ≤ fd) :
    ∃ k', call_close fd k = some (0, k') ∧ ¬ (LinuxLikeOS.named_fd k' fd).in_use ∧ Stdout k' s ∧
      OnlyFd fd.toNat k k' := by
  have hrange := h.readable.1
  have hmin : FILE_DESCRIPTOR_MIN = 2 := rfl
  refine ⟨set_fd k.curr_pid fd.toNat closed_fd k, ?_, ?_, hout.set_fd (by omega) _,
    onlyFd_set_fd _ _ _⟩
  · have hclose : system_close fd k = (fops_close (LinuxLikeOS.named_fd k fd).file_op_table_ptr).map fun r =>
        (r, LinuxLikeOS.set_fd k.curr_pid fd.toNat closed_fd k) := if_pos ⟨by omega, h.readable.2⟩
    unfold call_close
    rw [hclose, h.ops]
    rfl
  · rw [named_fd_moved]
    exact not_not.mpr rfl

/-! ## Directories -/

/-- An open descriptor on the directory, with the listing at entry `n`. -/
structure DirectoryAt (fd : Int) (n : ℕ) (k : Kernel) : Prop where
  readable : readable k fd
  ops : (named_fd k fd).file_op_table_ptr = .dir_ops
  counter : k.dentry_counter = n

theorem DirectoryAt.same (h : DirectoryAt fd n k) (hfd : named_fd k' fd = named_fd k fd)
    (hcounter : k'.dentry_counter = k.dentry_counter) : DirectoryAt fd n k' := by
  refine ⟨⟨h.readable.1, ?_⟩, ?_, hcounter.trans h.counter⟩
  · rw [hfd]
    exact h.readable.2
  · rw [hfd]
    exact h.ops

/-- The counter is no part of the program. -/
theorem Stdout.set_counter (hout : Stdout k s) (c : ℕ) : Stdout { k with dentry_counter := c } s :=
  ⟨hout.writable, hout.ops, hout.display, hout.sheet⟩

/-- The directory is opened on a descriptor that was free. -/
theorem Stdout.open_directory (hout : Stdout k s) {buf : ℕ → UInt8} {name : List UInt8} {d : dentry_t}
    (hbuf : TextAt buf name) (hname : read_dentry_by_name fs (LinuxLikeOS.c_str name) = some d)
    (htype : d.filetype = 1) (hfree : free_fd (get_pcb k k.curr_pid) = some i) :
    ∃ k', call_open fs buf k = some ((i : Int), k') ∧ DirectoryAt i k.dentry_counter k' ∧
      Stdout k' s ∧ OnlyFd i k k' := by
  have hslot := free_fd_eq_some.mp hfree
  have hmin : 2 ≤ i := hslot.lower
  have hmax : i < 8 := hslot.upper
  have hrange : 0 ≤ (i : Int) ∧ (i : Int) < (8 : ℕ) ∧ (i : Int) ≠ 1 := by omega
  have hopen : system_open fs name k = some ((i : Int), LinuxLikeOS.set_fd k.curr_pid i (fun _ =>
      { file_op_table_ptr := .dir_ops, inode := i32 d.inode_num, file_pos := 0, flags := IN_USE }) k) := by
    unfold system_open
    rw [hname, hfree]
    dsimp only
    rw [htype]
    rfl
  have hnew := named_fd_moved (i : Int) (fun _ =>
    { file_op_table_ptr := .dir_ops, inode := i32 d.inode_num, file_pos := 0, flags := IN_USE }) k
  rw [Int.toNat_natCast] at hnew
  refine ⟨LinuxLikeOS.set_fd k.curr_pid i (fun _ =>
      { file_op_table_ptr := .dir_ops, inode := i32 d.inode_num, file_pos := 0, flags := IN_USE }) k,
    ?_, ⟨⟨hrange, ?_⟩, ?_, rfl⟩, hout.set_fd (by omega) _, onlyFd_set_fd _ _ _⟩
  · unfold call_open
    rw [hbuf.string_at, hopen]
  · rw [hnew]
    show IN_USE ≠ NOT_IN_USE
    decide
  · rw [hnew]

/-- The name of an entry, as `read` stores it. -/
theorem store_bytes_filename (d : dentry_t) (buf : ℕ → UInt8) {i : ℕ} (hi : i < FILENAME_LEN) :
    store_bytes ((List.range FILENAME_LEN).map d.filename) buf i = d.filename i := by
  unfold store_bytes
  rw [List.getD_eq_getElem _ _ (by simpa using hi), List.getElem_map, List.getElem_range]

/-- **The next entry of the directory**, or the end of the listing. -/
theorem DirectoryAt.next (h : DirectoryAt fd n k) (hout : Stdout k s) (buf : ℕ) (nbytes : Int) :
    ∃ k', call_read fs fd buf nbytes k =
        some (if n < fs.boot_block.dir_count then ((FILENAME_LEN : Int),
            (List.range FILENAME_LEN).map (fs.boot_block.direntries n).filename, k')
          else (0, [], k')) ∧
      (n < fs.boot_block.dir_count → DirectoryAt fd (n + 1) k') ∧ Stdout k' s ∧
      k'.pcb = k.pcb ∧ k'.curr_pid = k.curr_pid := by
  obtain ⟨hentry, hcounter⟩ := read_directory_eq fs fd.toNat k
  obtain ⟨c, hc⟩ : ∃ c, (read_directory fs fd.toNat k).2.2 = { k with dentry_counter := c } := by
    unfold read_directory
    split <;> exact ⟨_, rfl⟩
  have hread : system_read fs fd buf nbytes k
      = some (.ret (read_directory fs fd.toNat k).1, (read_directory fs fd.toNat k).2) :=
    system_read_directory ⟨h.readable, h.ops⟩
  rw [h.counter] at hentry hcounter
  rw [hc] at hcounter
  refine ⟨{ k with dentry_counter := c }, ?_, fun hlt => ⟨h.readable, h.ops, ?_⟩, hout.set_counter c,
    rfl, rfl⟩
  · unfold call_read
    rw [hread]
    dsimp only
    by_cases hlt : n < fs.boot_block.dir_count
    · rw [entry_at, if_pos hlt, Prod.mk.injEq, Control.ret.injEq] at hentry
      rw [if_pos hlt, hentry.1, hentry.2, hc]
    · rw [entry_at, if_neg hlt, Prod.mk.injEq, Control.ret.injEq] at hentry
      rw [if_neg hlt, hentry.1, hentry.2, hc]
  · rw [if_pos hlt] at hcounter
    exact hcounter

end

end LinuxLikeOS
