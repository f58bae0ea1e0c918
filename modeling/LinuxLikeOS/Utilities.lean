/-
`ece391cat.c` and `ece391ls.c`: a file and the directory on the screen.

Both read into a buffer and write what they have read. `write` leaves out the zeros, so `cat` prints
a file without its zeros, and `ls` the bytes of a name field that are not zero, whether they stand
before its terminator or behind it.
-/
import LinuxLikeOS.Grep

set_option autoImplicit false

namespace LinuxLikeOS

open Kernel TextLayout

/-! ## The programs -/

/-- The loop of `main` in `ece391cat.c`. -/
def cat_loop (fs : file_sys) (fd : Int) (buf_at : ℕ) : ℕ → (ℕ → UInt8) → Kernel → Option (Int × Kernel)
  | 0, _, _ => none
  | fuel + 1, buf, k =>
      (call_read fs fd buf_at (BUFSIZE : ℕ) k).bind fun (cnt, bytes, k) =>
      let buf := store_bytes bytes buf
      if cnt = 0 then some (0, k)
      else if cnt = -1 then
        (ece391_fdputs 1 (c_str (ascii "file read failed\n")) k).map fun k => (3, k)
      else
        (call_write 1 buf cnt k).bind fun (r, k) =>
        if r = -1 then some (3, k) else cat_loop fs fd buf_at fuel buf k

def cat_main (fs : file_sys) (buf : ℕ → UInt8) (buf_at fuel : ℕ) (k : Kernel) : Option (Int × Kernel) :=
  let buf := getargs_buffer BUFSIZE k buf
  if (system_getargs BUFSIZE k).1 ≠ 0 then
    (ece391_fdputs 1 (c_str (ascii "could not read arguments\n")) k).map fun k => (3, k)
  else
    (call_open fs buf k).bind fun (fd, k) =>
    if fd = -1 then (ece391_fdputs 1 (c_str (ascii "file not found\n")) k).map fun k => (2, k)
    else cat_loop fs fd buf_at fuel buf k

/-- The loop of `main` in `ece391ls.c`. -/
def ls_loop (fs : file_sys) (fd : Int) (buf_at : ℕ) : ℕ → (ℕ → UInt8) → Kernel → Option (Int × Kernel)
  | 0, _, _ => none
  | rounds + 1, buf, k =>
      (call_read fs fd buf_at (SBUFSIZE - 1 : ℕ) k).bind fun (cnt, bytes, k) =>
      let buf := store_bytes bytes buf
      if cnt = 0 then some (0, k)
      else if cnt = -1 then
        (ece391_fdputs 1 (c_str (ascii "directory entry read failed\n")) k).map fun k => (3, k)
      else
        let buf := Function.update buf cnt.toNat END_OF_LINE
        (call_write 1 buf (cnt + 1) k).bind fun (r, k) =>
        if r = -1 then some (3, k) else ls_loop fs fd buf_at rounds buf k

def ls_main (fs : file_sys) (buf : ℕ → UInt8) (buf_at rounds : ℕ) (k : Kernel) : Option (Int × Kernel) :=
  (call_open fs (c_str (ascii ".")) k).bind fun (fd, k) =>
  if fd = -1 then (ece391_fdputs 1 (c_str (ascii "directory open failed\n")) k).map fun k => (2, k)
  else ls_loop fs fd buf_at rounds buf k

/-! ## What they print -/

section

variable {fs : file_sys} {k : Kernel} {sheet : Sheet UInt8} {fd : Int}

/-- What `write` shows of bytes. -/
def without_zeros (bytes : List UInt8) : List UInt8 := bytes.filter (· ≠ 0)

theorem bytes_written_store (bytes : List UInt8) (buf : ℕ → UInt8) :
    bytes_written (some (store_bytes bytes buf)) bytes.length = without_zeros bytes := by
  have hbytes : (List.range bytes.length).map (store_bytes bytes buf) = bytes := by
    apply List.ext_getElem
    · simp
    · intro i _ hi
      rw [List.getElem_map, List.getElem_range]
      exact List.getD_eq_getElem _ _ hi
  unfold bytes_written without_zeros
  dsimp only
  rw [Int.toNat_natCast, hbytes]

/-- **The blocks of a file are printed** one after the other. -/
theorem cat_loop_spec (fuel : ℕ) {inode_num pos : ℕ} (hino : inode_num < fs.boot_block.inode_count)
    (hsize : (fs.inode inode_num).length + 4096 < 2147483648) (buf_at : ℕ)
    (hfile : FileAt fd inode_num pos k) (hpos : pos ≤ (fs.inode inode_num).length + BUFSIZE)
    (hfuel : (fs.inode inode_num).length - pos < fuel) (buf : ℕ → UInt8) (hout : Stdout k sheet) :
    ∃ k', cat_loop fs fd buf_at fuel buf k = some (0, k') ∧ Stdout k' (printed sheet
      (without_zeros (file_bytes fs (fs.inode inode_num) pos ((fs.inode inode_num).length - pos)))) := by
  have hbuf : BUFSIZE = 1024 := rfl
  induction fuel generalizing pos buf k sheet with
  | zero => omega
  | succ fuel ih =>
      obtain ⟨k₁, hread, hfile₁, hout₁, -⟩ := hfile.next (n := BUFSIZE) hout hino (by omega) buf_at
      have hcut := file_bytes_next fs (fs.inode inode_num) pos BUFSIZE
      have hlen := length_file_bytes fs (fs.inode inode_num) pos
        (min BUFSIZE ((fs.inode inode_num).length - pos))
      generalize file_bytes fs (fs.inode inode_num) pos (min BUFSIZE ((fs.inode inode_num).length - pos))
        = bytes at hread hcut hlen
      rw [← hlen] at hread
      unfold cat_loop
      rw [hread, Option.bind_some, hcut]
      dsimp only
      by_cases hcnt : (bytes.length : Int) = 0
      · -- behind the end nothing is left
        obtain rfl : bytes = [] := List.eq_nil_of_length_eq_zero (by omega)
        rw [List.length_nil] at hlen
        have hnone : (fs.inode inode_num).length - (pos + BUFSIZE) = 0 := by omega
        rw [if_pos hcnt, hnone]
        exact ⟨k₁, rfl, hout₁⟩
      · obtain ⟨r, k₂, hwrite, hdraws, hok, hout₂⟩ := hout₁.write (store_bytes bytes buf) bytes.length
        have hfile₂ : FileAt fd inode_num (pos + BUFSIZE) k₂ :=
          hfile₁.same (hdraws.named_fd fd)
        obtain ⟨k', hloop, hout'⟩ := ih hfile₂ (by omega) (by omega) (store_bytes bytes buf) hout₂
        rw [if_neg hcnt, if_neg (by omega), hwrite, Option.bind_some]
        dsimp only
        rw [if_neg (hok (by omega))]
        refine ⟨k', hloop, ?_⟩
        rw [bytes_written_store, printed_append] at hout'
        unfold without_zeros at hout' ⊢
        rwa [List.filter_append]

variable (fs) in
/-- **`cat` prints its file**, whatever the file holds. -/
theorem cat_prints_file {name : List UInt8} {d : dentry_t} (buf : ℕ → UInt8) (buf_at fuel : ℕ) {i : ℕ}
    (hargs : ArgsString name k) (hne : name ≠ []) (hlen : name.length < BUFSIZE)
    (hname : read_dentry_by_name fs (c_str name) = some d) (htype : d.filetype = 2)
    (hinode : d.inode_num < fs.boot_block.inode_count)
    (hsize : (fs.inode d.inode_num).length + 4096 < 2147483648)
    (hcount : fs.boot_block.inode_count < 4294967296)
    (hfuel : (fs.inode d.inode_num).length < fuel) (hfree : free_fd (get_pcb k k.curr_pid) = some i)
    (hout : Stdout k sheet) :
    ∃ k', cat_main fs buf buf_at fuel k = some (0, k') ∧
      Stdout k' (printed sheet (without_zeros (file_text fs d))) := by
  have htext := hargs.getargs_text hne hlen buf
  obtain ⟨k₁, hopen, hfile, hout₁, -⟩ := hout.open_file htext.2 hname htype (by omega) hfree
  obtain ⟨k', hloop, hout'⟩ := cat_loop_spec fuel hinode hsize buf_at hfile (Nat.zero_le _)
    hfuel (getargs_buffer BUFSIZE k buf) hout₁
  refine ⟨k', ?_, hout'⟩
  unfold cat_main
  dsimp only
  rw [htext.1, if_neg (not_not.mpr rfl), hopen, Option.bind_some]
  dsimp only
  rw [if_neg (by omega)]
  exact hloop

/-- What `ls` prints for an entry. -/
def listed_entry (d : dentry_t) : List UInt8 :=
  without_zeros ((List.range FILENAME_LEN).map d.filename) ++ [END_OF_LINE]

theorem bytes_written_entry (d : dentry_t) (buf : ℕ → UInt8) :
    bytes_written (some (Function.update (store_bytes ((List.range FILENAME_LEN).map d.filename) buf)
      FILENAME_LEN END_OF_LINE)) (FILENAME_LEN + 1) = listed_entry d := by
  have hnat : ((FILENAME_LEN : Int) + 1).toNat = FILENAME_LEN + 1 := rfl
  have hname : (List.range FILENAME_LEN).map (Function.update
      (store_bytes ((List.range FILENAME_LEN).map d.filename) buf) FILENAME_LEN END_OF_LINE)
      = (List.range FILENAME_LEN).map d.filename := by
    apply List.map_congr_left
    intro i hi
    have hi := List.mem_range.mp hi
    rw [Function.update_of_ne (by omega), store_bytes_filename d buf hi]
  unfold bytes_written listed_entry without_zeros
  dsimp only
  rw [hnat, List.range_succ, List.map_append, List.filter_append, hname, List.map_singleton,
    Function.update_self]
  rfl

theorem ls_loop_spec (buf_at rounds : ℕ) {n : ℕ} (hrounds : fs.boot_block.dir_count - n < rounds)
    (hdir : DirectoryAt fd n k) (buf : ℕ → UInt8) (hout : Stdout k sheet) :
    ∃ k', ls_loop fs fd buf_at rounds buf k = some (0, k') ∧
      Stdout k' (printed sheet ((List.range' n (fs.boot_block.dir_count - n)).flatMap fun j =>
        listed_entry (fs.boot_block.direntries j))) := by
  induction rounds generalizing n buf k sheet with
  | zero => omega
  | succ rounds ih =>
      obtain ⟨k₁, hread, hnext, hout₁, -⟩ := hdir.next hout buf_at (SBUFSIZE - 1 : ℕ)
      unfold ls_loop
      rw [hread, Option.bind_some]
      by_cases hlt : n < fs.boot_block.dir_count
      · have hleft : fs.boot_block.dir_count - n = (fs.boot_block.dir_count - (n + 1)) + 1 := by omega
        have hname : (FILENAME_LEN : Int).toNat = FILENAME_LEN := rfl
        rw [if_pos hlt, hleft, List.range'_succ, List.flatMap_cons, ← printed_append]
        dsimp only
        rw [if_neg (by decide), if_neg (by decide), hname]
        obtain ⟨r, k₂, hwrite, hdraws, hok, hout₂⟩ := hout₁.write (Function.update (store_bytes
          ((List.range FILENAME_LEN).map (fs.boot_block.direntries n).filename) buf) FILENAME_LEN
          END_OF_LINE) (FILENAME_LEN + 1)
        have hdir₂ : DirectoryAt fd (n + 1) k₂ :=
          (hnext hlt).same (hdraws.named_fd fd) hdraws.dentry_counter
        rw [hwrite, Option.bind_some]
        dsimp only
        rw [if_neg (hok (by decide))]
        rw [bytes_written_entry] at hout₂
        exact ih (by omega) hdir₂ _ hout₂
      · have hleft : fs.boot_block.dir_count - n = 0 := by omega
        rw [if_neg hlt, hleft]
        exact ⟨k₁, rfl, hout₁⟩

variable (fs) in
/-- **`ls` prints the directory**, one entry on each line, when the listing is at its beginning. -/
theorem ls_prints_directory (buf : ℕ → UInt8) (buf_at rounds : ℕ) {i : ℕ} {d : dentry_t}
    (hdot : read_dentry_by_name fs (c_str (ascii ".")) = some d) (htype : d.filetype = 1)
    (hrounds : fs.boot_block.dir_count < rounds) (hfree : free_fd (get_pcb k k.curr_pid) = some i)
    (hcounter : k.dentry_counter = 0) (hout : Stdout k sheet) :
    ∃ k', ls_main fs buf buf_at rounds k = some (0, k') ∧
      Stdout k' (printed sheet ((List.range fs.boot_block.dir_count).flatMap fun j =>
        listed_entry (fs.boot_block.direntries j))) := by
  have hdotname : TextAt (c_str (ascii ".")) (ascii ".") := .c_str (by decide) (by decide)
  obtain ⟨k₁, hopen, hdir, hout₁, -⟩ := hout.open_directory hdotname hdot htype hfree
  rw [hcounter] at hdir
  obtain ⟨k', hloop, hout'⟩ := ls_loop_spec buf_at rounds (by omega) hdir buf hout₁
  refine ⟨k', ?_, ?_⟩
  · unfold ls_main
    rw [hopen, Option.bind_some]
    dsimp only
    rw [if_neg (by omega)]
    exact hloop
  · rwa [Nat.sub_zero, ← List.range_eq_range'] at hout'

end

/-- The three lines of the file `b`. -/
theorem cat_prints_file_demo : ∃ k k',
    new_process (system_execute demo_env (some (ascii "shell b")) (demo_frame 4 4) demo_front) = some k ∧
      cat_main notes_fs (fun _ => 0) demo_buf 9 k = some (0, k') ∧
      Stdout k' (printed .blank (ascii "ab\na\ncbd")) := by
  obtain ⟨k, hk, hargs, hfree, -, hout⟩ := demo_process
  obtain ⟨k', hcat, hout'⟩ := cat_prints_file notes_fs (d := ⟨c_str (ascii "b"), 2, 0⟩)
    (fun _ => 0) demo_buf 9 hargs (by decide) (by decide) rfl rfl (by decide) (by decide) (by decide)
    (by decide) (hfree.free_fd (by decide) (by decide) fun j hj hj' => absurd hj' (by omega)) hout
  have htext : without_zeros (file_text notes_fs ⟨c_str (ascii "b"), 2, 0⟩) = ascii "ab\na\ncbd" := by
    decide +kernel
  rw [htext] at hout'
  exact ⟨k, k', hk, hcat, hout'⟩

theorem ls_prints_directory_demo : ∃ k k',
    new_process (system_execute demo_env (some (ascii "shell b")) (demo_frame 4 4) demo_front) = some k ∧
      ls_main notes_fs (fun _ => 0) demo_buf 3 k = some (0, k') ∧
      Stdout k' (printed .blank (ascii ".\nb\n")) := by
  obtain ⟨k, hk, -, hfree, hcounter, hout⟩ := demo_process
  obtain ⟨k', hls, hout'⟩ := ls_prints_directory notes_fs (d := ⟨c_str (ascii "."), 1, 0⟩)
    (fun _ => 0) demo_buf 3 rfl rfl (by decide)
    (hfree.free_fd (by decide) (by decide) fun j hj hj' => absurd hj' (by omega)) hcounter hout
  have htext : ((List.range notes_fs.boot_block.dir_count).flatMap fun j =>
      listed_entry (notes_fs.boot_block.direntries j)) = ascii ".\nb\n" := by
    decide +kernel
  rw [htext] at hout'
  exact ⟨k, k', hk, hls, hout'⟩

end LinuxLikeOS
