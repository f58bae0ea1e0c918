/-
`ece391syserr.c`: the program that calls the kernel wrongly.

Each of its tests makes calls that have to be refused, and prints whether they were. A test that has
passed leaves no descriptor open, so that the next one finds the program as it has been started. What
the array of a test holds when it is written is of no account: `buf` is arbitrary.
-/
import LinuxLikeOS.Grep
import LinuxLikeOS.Linkage
import LinuxLikeOS.Shell

set_option autoImplicit false

namespace LinuxLikeOS

open TextLayout

/-! ## The tests -/

def NEG_FD : Int := -1073741823
def BIG_FD : Int := 1073741823
def BIG_NUM : Int := 1073741823
def NEG_NUM : Int := -1073741823

/-- `call_sys`, for numbers that the linkage refuses (`linkage_refuses`). -/
def call_sys (num : Int) : Option Int :=
  match called (BitVec.ofInt 32 num) with
  | none => some (-1)
  | some _ => none

/-- One call of a test is to have returned `-1`. -/
def expect_error (r : Int) (text : String) (fail : Int) (k : Kernel) : Option (Int × Kernel) :=
  if -1 ≠ r then (ece391_fdputs 1 (c_str (ascii text)) k).map fun k => (2, k) else some (fail, k)

/-- The calls for all descriptors of a list. -/
def expect_errors (call : Int → Kernel → Option (Int × Kernel)) (text : String) :
    List Int → Int → Kernel → Option (Int × Kernel)
  | [], fail, k => some (fail, k)
  | fd :: fds, fail, k =>
      (call fd k).bind fun (r, k) =>
      (expect_error r text fail k).bind fun (fail, k) => expect_errors call text fds fail k

/-- The end of a test. -/
def report (pass_text fail_text : String) (fail : Int) (k : Kernel) : Option (Int × Kernel) :=
  (ece391_fdputs 1 (c_str (ascii (if fail ≠ 0 then fail_text else pass_text))) k).map fun k => (fail, k)

section

variable (fs : file_sys) (link : Linkage) (buf_at : ℕ) (buf : ℕ → UInt8)

/-- `ece391_read` for the value alone. -/
def read_value (fd : Int) (k : Kernel) : Option (Int × Kernel) :=
  (call_read fs fd buf_at 31 k).map fun (r, _, k) => (r, k)

def write_value (fd : Int) (k : Kernel) : Option (Int × Kernel) := call_write fd buf 31 k

/-- The body of `err_neg_fd` and `err_big_fd`. -/
def err_fd (fd : Int) (pass_text fail_text : String) (k : Kernel) : Option (Int × Kernel) :=
  (expect_errors (read_value fs buf_at) "read fail\n" [fd] 0 k).bind fun (fail, k) =>
  (expect_errors (write_value buf) "write fail\n" [fd] fail k).bind fun (fail, k) =>
  (expect_errors call_close "close fail\n" [fd] fail k).bind fun (fail, k) =>
  report pass_text fail_text fail k

def err_neg_fd : Kernel → Option (Int × Kernel) :=
  err_fd fs buf_at buf NEG_FD "err_neg_fd: PASS\n" "err_neg_fd: FAIL\n"

def err_big_fd : Kernel → Option (Int × Kernel) :=
  err_fd fs buf_at buf BIG_FD "err_big_fd: PASS\n" "err_big_fd: FAIL\n"

/-- The directory is opened `n` times, and the refusals are counted. -/
def open_lots : ℕ → Int → Kernel → Option (Int × Kernel)
  | 0, cnt, k => some (cnt, k)
  | n + 1, cnt, k =>
      (call_open fs (c_str (ascii ".")) k).bind fun (r, k) =>
      open_lots n (if -1 = r then cnt + 1 else cnt) k

/-- `n` descriptors are closed, from `fd` on. -/
def close_lots : ℕ → ℕ → Kernel → Option Kernel
  | 0, _, k => some k
  | n + 1, fd, k => (call_close fd k).bind fun (_, k) => close_lots n (fd + 1) k

def err_open_lots (k : Kernel) : Option (Int × Kernel) :=
  (open_lots fs 7 0 k).bind fun (cnt, k) =>
  (close_lots 6 2 k).bind fun k =>
  report "err_open_lots: PASS\n" "err_open_lots: FAIL\n" (if cnt = 1 then 0 else 2) k

def err_open (k : Kernel) : Option (Int × Kernel) :=
  (call_open fs (c_str (ascii "helloo")) k).bind fun (r, k) =>
  (expect_error r "'helloo' fail\n" 0 k).bind fun (fail, k) =>
  (call_open fs (c_str (ascii "shel")) k).bind fun (r, k) =>
  (expect_error r "'shel' fail\n" fail k).bind fun (fail, k) =>
  (call_open fs (c_str (ascii "")) k).bind fun (r, k) =>
  (expect_error r "empty string fail\n" fail k).bind fun (fail, k) =>
  report "err_open: PASS\n" "err_open: FAIL\n" fail k

def err_unopened (k : Kernel) : Option (Int × Kernel) :=
  (expect_errors call_close "close unopened or invalid fd fail\n" [0, 1, 2, 3, 4, 5, 6, 7] 0 k).bind
    fun (fail, k) =>
  (expect_errors (read_value fs buf_at) "read from unopened fd fail\n" [2, 3, 4, 5, 6, 7] fail k).bind
    fun (fail, k) =>
  (expect_errors (write_value buf) "write to unopened fd fail\n" [2, 3, 4, 5, 6, 7] fail
    k).bind fun (fail, k) =>
  report "err_unopened: PASS\n" "err_unopened: FAIL\n" fail k

def err_vidmap (k : Kernel) : Option (Int × Kernel) :=
  let (r, k) := system_vidmap link 0x0 k
  (expect_error r "Null pointer fail\n" 0 k).bind fun (fail, k) =>
  let (r, k) := system_vidmap link 0x400000 k
  (expect_error r "Kernel pointer fail fail\n" fail k).bind fun (fail, k) =>
  report "err_vidmap: PASS\n" "err_vidmap: FAIL\n" fail k

def err_stdin_out (k : Kernel) : Option (Int × Kernel) :=
  (expect_errors (write_value buf) "write to stdin fail\n" [0] 0 k).bind fun (fail, k) =>
  (expect_errors (read_value fs buf_at) "read from stdout fail\n" [1] fail k).bind fun (fail, k) =>
  report "err_stdin_out: PASS\n" "err_stdin_out: FAIL\n" fail k

def err_syscall_num (k : Kernel) : Option (Int × Kernel) :=
  (call_sys BIG_NUM).bind fun r =>
  (expect_error r "syscall 0 fail\n" 0 k).bind fun (fail, k) =>
  (call_sys NEG_NUM).bind fun r =>
  (expect_error r "big num syscall fail\n" fail k).bind fun (fail, k) =>
  (call_sys 0).bind fun r =>
  (expect_error r "neg num syscall fail\n" fail k).bind fun (fail, k) =>
  report "err_syscall_num: PASS\n" "err_syscall_num: FAIL\n" fail k

/-- The tests by their numbers, from 1 on. -/
def error_tests : List (Kernel → Option (Int × Kernel)) :=
  [err_neg_fd fs buf_at buf, err_big_fd fs buf_at buf, err_open_lots fs, err_open fs,
    err_unopened fs buf_at buf, err_vidmap link, err_stdin_out fs buf_at buf, err_syscall_num]

/-- All of them, with the sum of what they return. -/
def run_tests : List (Kernel → Option (Int × Kernel)) → Int → Kernel → Option (Int × Kernel)
  | [], fail, k => some (fail, k)
  | test :: tests, fail, k => (test k).bind fun (r, k) => run_tests tests (fail + r) k

/-- `main`, from the value and the buffer that `read` has left. -/
def syserr_main (cnt : Int) (line : ℕ → UInt8) (k : Kernel) : Option (Int × Kernel) :=
  if -1 = cnt then
    (ece391_fdputs 1 (c_str (ascii "Can't read test #\n")) k).map fun k => (2, k)
  else
    -- only the first character counts
    let select : Int := (line 0).toNat - 0x30
    if select = 0 then
      (run_tests (error_tests fs link buf_at buf) 0 k).bind fun (fail, k) =>
      report "\nOverall Tests: PASS\n" "\nOverall Tests: FAIL\n" fail k
    else if 1 ≤ select ∧ select ≤ 8 then
      ((error_tests fs link buf_at buf)[(select - 1).toNat]?).bind fun test => test k
    else
      (ece391_fdputs 1 (c_str (ascii "Invalid test number. Choose from tests 1-8 or 0")) k).map
        fun k => (0, k)

end

/-! ## Calls that are refused -/

section

variable {fs : file_sys} {link : Linkage} {buf_at : ℕ} {buf : ℕ → UInt8} {k k' : Kernel}
  {sheet : Sheet UInt8} {fd : Int} {i j n : ℕ} {d : dentry_t}

/-- No descriptor that a program can open has this number, or it is not open. -/
def Unopened (fd : Int) (k : Kernel) : Prop := 2 ≤ fd → fd < 8 → ¬ (named_fd k fd).in_use

theorem FreeFrom.unopened (h : FreeFrom 2 k) (fd : Int) : Unopened fd k := by
  intro hmin hmax
  have hupper : FILE_DESCRIPTOR_MAX = 8 := rfl
  exact h fd.toNat (by omega) (by omega)

theorem Unopened.close (h : Unopened fd k) : call_close fd k = some (-1, k) :=
  if_neg fun hopen => h hopen.1.1 hopen.1.2 hopen.2

theorem Unopened.read (h : Unopened fd k) (hstdin : fd ≠ 0) :
    read_value fs buf_at fd k = some (-1, k) := by
  have hread : system_read fs fd buf_at 31 k = some (.ret (-1), [], k) := by
    refine if_neg fun hopen => ?_
    obtain ⟨⟨hmin, hmax, hne⟩, huse⟩ := hopen
    have hupper : FILE_DESCRIPTOR_MAX = 8 := rfl
    exact h (by omega) (by omega) huse
  unfold read_value call_read
  rw [hread]
  rfl

theorem Unopened.write (h : Unopened fd k) (hstdout : fd ≠ 1) :
    write_value buf fd k = some (-1, k) := by
  refine if_neg fun hopen => ?_
  obtain ⟨⟨hmin, hmax⟩, huse⟩ := hopen
  have hupper : FILE_DESCRIPTOR_MAX = 8 := rfl
  exact h (by omega) (by omega) huse

/-- No entry has the name. -/
theorem call_open_missing {name : List UInt8} (hname : TextAt (c_str name) name)
    (hnone : ∀ i, i < DIR_ENTRIES → ¬ slot_has fs name i) :
    call_open fs (c_str name) k = some (-1, k) := by
  have hmissing : read_dentry_by_name fs (c_str name) = none := by
    apply read_dentry_by_name_missing
    rw [hname.string_at]
    exact hnone
  unfold call_open system_open
  rw [hname.string_at, hmissing]

theorem call_open_empty : call_open fs (c_str []) k = some (-1, k) := by
  have hname : TextAt (c_str []) [] := .c_str List.not_mem_nil (by decide)
  have hmissing : read_dentry_by_name fs (c_str []) = none :=
    read_dentry_by_name_refused (Or.inl hname.string_at)
  unfold call_open system_open
  rw [hname.string_at, hmissing]

theorem expect_error_refused (text : String) (fail : Int) :
    expect_error (-1) text fail k = some (fail, k) := if_neg (not_not.mpr rfl)

theorem expect_errors_refused {call : Int → Kernel → Option (Int × Kernel)} {fds : List Int}
    (h : ∀ fd ∈ fds, call fd k = some (-1, k)) (text : String) (fail : Int) :
    expect_errors call text fds fail k = some (fail, k) := by
  induction fds with
  | nil => rfl
  | cons fd fds ih =>
      unfold expect_errors
      rw [h fd List.mem_cons_self, Option.bind_some]
      dsimp only
      rw [expect_error_refused, Option.bind_some]
      exact ih fun fd' hfd' => h fd' (List.mem_cons_of_mem fd hfd')

/-! ## Tests that pass -/

/-- The test prints the text, returns 0 and leaves no descriptor open. -/
def Passes (test : Kernel → Option (Int × Kernel)) (text : String) : Prop :=
  ∀ {k : Kernel} {sheet : Sheet UInt8}, FreeFrom 2 k → Stdout k sheet →
    ∃ k', test k = some (0, k') ∧ FreeFrom 2 k' ∧ Stdout k' (printed sheet (ascii text))

theorem FreeFrom.draws (h : FreeFrom i k) (hdraws : Draws k k') : FreeFrom i k' := by
  intro j hj hj'
  unfold table
  rw [hdraws.curr_pid, hdraws.pcb]
  exact h j hj hj'

theorem passes_report {pass_text : String} (fail_text : String)
    (htext : TextAt (c_str (ascii pass_text)) (ascii pass_text)) :
    Passes (report pass_text fail_text 0) pass_text := by
  intro k sheet hfree hout
  obtain ⟨k', hcall, hdraws, hout'⟩ := hout.fdputs htext
  refine ⟨k', ?_, hfree.draws hdraws, hout'⟩
  unfold report
  rw [if_neg (not_not.mpr rfl), hcall]
  rfl

theorem err_fd_passes (hfd : fd < 0 ∨ 8 ≤ fd) {pass_text : String} (fail_text : String)
    (htext : TextAt (c_str (ascii pass_text)) (ascii pass_text)) :
    Passes (err_fd fs buf_at buf fd pass_text fail_text) pass_text := by
  intro k sheet hfree hout
  have hclosed := hfree.unopened fd
  unfold err_fd
  rw [expect_errors_refused (List.forall_mem_singleton.mpr (hclosed.read (by omega))),
    Option.bind_some]
  dsimp only
  rw [expect_errors_refused (List.forall_mem_singleton.mpr (hclosed.write (by omega))),
    Option.bind_some]
  dsimp only
  rw [expect_errors_refused (List.forall_mem_singleton.mpr hclosed.close), Option.bind_some]
  exact passes_report fail_text htext hfree hout

theorem err_open_passes (hhelloo : ∀ i, i < DIR_ENTRIES → ¬ slot_has fs (ascii "helloo") i)
    (hshel : ∀ i, i < DIR_ENTRIES → ¬ slot_has fs (ascii "shel") i) :
    Passes (err_open fs) "err_open: PASS\n" := by
  intro k sheet hfree hout
  unfold err_open
  rw [call_open_missing (.c_str (by decide) (by decide)) hhelloo, Option.bind_some]
  dsimp only
  rw [expect_error_refused, Option.bind_some]
  dsimp only
  rw [call_open_missing (.c_str (by decide) (by decide)) hshel, Option.bind_some]
  dsimp only
  rw [expect_error_refused, Option.bind_some]
  dsimp only
  have hempty : ascii "" = [] := rfl
  rw [hempty, call_open_empty, Option.bind_some]
  dsimp only
  rw [expect_error_refused, Option.bind_some]
  exact passes_report _ (.c_str (by decide) (by decide)) hfree hout

theorem err_unopened_passes : Passes (err_unopened fs buf_at buf) "err_unopened: PASS\n" := by
  intro k sheet hfree hout
  have hread : ∀ fd ∈ [2, 3, 4, 5, 6, 7], read_value fs buf_at fd k = some (-1, k) := by
    intro fd hfd
    exact (hfree.unopened fd).read (ne_of_mem_of_not_mem hfd (by decide))
  have hwrite : ∀ fd ∈ [2, 3, 4, 5, 6, 7], write_value buf fd k = some (-1, k) := by
    intro fd hfd
    exact (hfree.unopened fd).write (ne_of_mem_of_not_mem hfd (by decide))
  unfold err_unopened
  rw [expect_errors_refused fun fd _ => (hfree.unopened fd).close, Option.bind_some]
  dsimp only
  rw [expect_errors_refused hread, Option.bind_some]
  dsimp only
  rw [expect_errors_refused hwrite, Option.bind_some]
  exact passes_report _ (.c_str (by decide) (by decide)) hfree hout

theorem err_vidmap_passes : Passes (err_vidmap link) "err_vidmap: PASS\n" := by
  intro k sheet hfree hout
  have hnull : system_vidmap link 0x0 k = (-1, k) := if_neg (by decide)
  have hkernel : system_vidmap link 0x400000 k = (-1, k) := if_neg (by decide)
  unfold err_vidmap
  rw [hnull]
  dsimp only
  rw [expect_error_refused, Option.bind_some]
  dsimp only
  rw [hkernel]
  dsimp only
  rw [expect_error_refused, Option.bind_some]
  exact passes_report _ (.c_str (by decide) (by decide)) hfree hout

theorem err_stdin_out_passes : Passes (err_stdin_out fs buf_at buf) "err_stdin_out: PASS\n" := by
  intro k sheet hfree hout
  unfold err_stdin_out
  -- both are open, and each is refused in one direction
  rw [expect_errors_refused (List.forall_mem_singleton.mpr ((hfree.unopened 0).write (by decide))),
    Option.bind_some]
  dsimp only
  rw [expect_errors_refused (List.forall_mem_singleton.mpr ((hfree.unopened 1).read (by decide))),
    Option.bind_some]
  exact passes_report _ (.c_str (by decide) (by decide)) hfree hout

theorem err_syscall_num_passes : Passes err_syscall_num "err_syscall_num: PASS\n" := by
  intro k sheet hfree hout
  have hbig : call_sys BIG_NUM = some (-1) := by decide
  have hneg : call_sys NEG_NUM = some (-1) := by decide
  have hzero : call_sys 0 = some (-1) := by decide
  unfold err_syscall_num
  rw [hbig, Option.bind_some, expect_error_refused, Option.bind_some]
  dsimp only
  rw [hneg, Option.bind_some, expect_error_refused, Option.bind_some]
  dsimp only
  rw [hzero, Option.bind_some, expect_error_refused, Option.bind_some]
  exact passes_report _ (.c_str (by decide) (by decide)) hfree hout

/-! ## Opening them all -/

/-- The directory is open on the descriptors from `i` to `j`, and the others are free. -/
structure Directories (i j : ℕ) (k : Kernel) : Prop where
  opened : ∀ m, i ≤ m → m < j →
    (table k k.curr_pid m).in_use ∧ (table k k.curr_pid m).file_op_table_ptr = .dir_ops
  free : ∀ m, 2 ≤ m → m < 8 → ¬ (i ≤ m ∧ m < j) → ¬ (table k k.curr_pid m).in_use

theorem Directories.next (h : Directories 2 j k) (hmin : 2 ≤ j) (hmax : j < 8)
    (hdot : read_dentry_by_name fs (c_str (ascii ".")) = some d) (htype : d.filetype = 1)
    (hout : Stdout k sheet) : ∃ k', call_open fs (c_str (ascii ".")) k = some ((j : Int), k') ∧
      Directories 2 (j + 1) k' ∧ Stdout k' sheet := by
  have hdotname : TextAt (c_str (ascii ".")) (ascii ".") := .c_str (by decide) (by decide)
  have hslot : free_fd (get_pcb k k.curr_pid) = some j :=
    free_fd_eq_some.mpr ⟨hmin, hmax, h.free j hmin hmax fun hin => Nat.lt_irrefl j hin.2,
      fun m hm hmj => (h.opened m hm hmj).1⟩
  obtain ⟨k', hopen, hdir, hout', hkeep⟩ := hout.open_directory hdotname hdot htype hslot
  refine ⟨k', hopen, ⟨fun m hm hmj => ?_, fun m hm hm8 hnot => ?_⟩, hout'⟩
  · by_cases hnew : m = j
    · rw [hnew]
      exact ⟨hdir.readable.2, hdir.ops⟩
    · rw [hkeep.curr_pid, hkeep.fds m hnew]
      exact h.opened m hm (by omega)
  · rw [hkeep.curr_pid, hkeep.fds m (by omega)]
    exact h.free m hm hm8 (by omega)

theorem Directories.full (h : Directories 2 8 k) (filename : ℕ → UInt8) :
    call_open fs filename k = some (-1, k) := by
  have hfull : free_fd (get_pcb k k.curr_pid) = none :=
    free_fd_eq_none.mpr fun m hm hm8 => (h.opened m hm hm8).1
  unfold call_open system_open
  rw [hfull]
  cases read_dentry_by_name fs (c_str (string_at filename)) with
  | none => rfl
  | some d => rfl

/-- **One of the calls is refused**, by induction on those that are left. -/
theorem open_lots_spec (hdot : read_dentry_by_name fs (c_str (ascii ".")) = some d)
    (htype : d.filetype = 1) (h : Directories 2 j k) (hmin : 2 ≤ j) (hmax : j ≤ 8)
    (hleft : j + n = 9) (hout : Stdout k sheet) (cnt : Int) :
    ∃ k', open_lots fs n cnt k = some (cnt + 1, k') ∧ Directories 2 8 k' ∧ Stdout k' sheet := by
  induction n generalizing j k cnt with
  | zero => omega
  | succ n ih =>
      unfold open_lots
      by_cases hroom : j < 8
      -- while a descriptor is left the call is not refused
      · obtain ⟨k₁, hopen, hnext, hout₁⟩ := h.next hmin hroom hdot htype hout
        rw [hopen, Option.bind_some]
        dsimp only
        rw [if_neg (by omega)]
        exact ih hnext (by omega) hroom (by omega) hout₁ cnt
      -- none is left at the last call
      · obtain rfl : j = 8 := by omega
        obtain rfl : n = 0 := by omega
        rw [h.full, Option.bind_some]
        exact ⟨k, rfl, h, hout⟩

theorem Directories.close (h : Directories i 8 k) (hmin : 2 ≤ i) (hmax : i < 8)
    (hout : Stdout k sheet) : ∃ k', call_close i k = some (0, k') ∧ Directories (i + 1) 8 k' ∧
      Stdout k' sheet := by
  obtain ⟨huse, hops⟩ := h.opened i (Nat.le_refl i) hmax
  have hkeep := onlyFd_set_fd i closed_fd k
  have hnew := named_fd_moved (i : Int) closed_fd k
  rw [Int.toNat_natCast] at hnew
  have hrange : (FILE_DESCRIPTOR_MIN : Int) ≤ i ∧ (i : Int) < FILE_DESCRIPTOR_MAX := by
    have hlower : FILE_DESCRIPTOR_MIN = 2 := rfl
    have hupper : FILE_DESCRIPTOR_MAX = 8 := rfl
    omega
  have hclose : system_close i k = (fops_close (table k k.curr_pid i).file_op_table_ptr).map
      fun r => (r, LinuxLikeOS.set_fd k.curr_pid i closed_fd k) := if_pos ⟨hrange, huse⟩
  rw [hops] at hclose
  refine ⟨_, hclose, ⟨fun m hm hm8 => ?_, fun m hm hm8 hnot => ?_⟩, hout.set_fd (by omega) _⟩
  · rw [hkeep.curr_pid, hkeep.fds m (by omega)]
    exact h.opened m (by omega) hm8
  · by_cases hi : m = i
    · rw [hi]
      intro hopen
      have hclosed : table (LinuxLikeOS.set_fd k.curr_pid i closed_fd k) k.curr_pid i
          = closed_fd (table k k.curr_pid i) := hnew
      rw [hkeep.curr_pid, hclosed] at hopen
      exact hopen rfl
    · rw [hkeep.curr_pid, hkeep.fds m hi]
      exact h.free m hm hm8 (by omega)

theorem close_lots_spec (h : Directories i 8 k) (hmin : 2 ≤ i) (hleft : i + n = 8)
    (hout : Stdout k sheet) :
    ∃ k', close_lots n i k = some k' ∧ FreeFrom 2 k' ∧ Stdout k' sheet := by
  induction n generalizing i k with
  | zero => exact ⟨k, rfl, fun m hm hm8 => h.free m hm hm8 (by omega), hout⟩
  | succ n ih =>
      obtain ⟨k₁, hclose, hnext, hout₁⟩ := h.close hmin (by omega) hout
      obtain ⟨k', hlots, hfree, hout'⟩ := ih hnext (by omega) (by omega) hout₁
      refine ⟨k', ?_, hfree, hout'⟩
      unfold close_lots
      rw [hclose, Option.bind_some]
      exact hlots

theorem err_open_lots_passes (hdot : read_dentry_by_name fs (c_str (ascii ".")) = some d)
    (htype : d.filetype = 1) : Passes (err_open_lots fs) "err_open_lots: PASS\n" := by
  intro k sheet hfree hout
  have hnone : Directories 2 2 k :=
    ⟨fun m hm hm2 => absurd hm2 (Nat.not_lt.mpr hm), fun m hm hm8 _ => hfree m hm hm8⟩
  obtain ⟨k₁, hopen, hall, hout₁⟩ :=
    open_lots_spec (n := 7) hdot htype hnone (Nat.le_refl 2) (by decide) rfl hout 0
  obtain ⟨k₂, hclose, hfree₂, hout₂⟩ := close_lots_spec (n := 6) hall (Nat.le_refl 2) rfl hout₁
  unfold err_open_lots
  rw [hopen, Option.bind_some]
  dsimp only
  rw [hclose, Option.bind_some, if_pos (by decide)]
  exact passes_report _ (.c_str (by decide) (by decide)) hfree₂ hout₂

end

/-! ## The program -/

/-- What the tests print when they pass. -/
def test_texts : List String :=
  ["err_neg_fd: PASS\n", "err_big_fd: PASS\n", "err_open_lots: PASS\n", "err_open: PASS\n",
    "err_unopened: PASS\n", "err_vidmap: PASS\n", "err_stdin_out: PASS\n", "err_syscall_num: PASS\n"]

/-- What the program prints for a choice. -/
def tests_print (select : ℕ) : List UInt8 :=
  if select = 0 then test_texts.flatMap ascii ++ ascii "\nOverall Tests: PASS\n"
  else ascii (test_texts.getD (select - 1) "")

section

variable {fs : file_sys} {line : ℕ → UInt8} {k : Kernel} {sheet : Sheet UInt8} {d : dentry_t}
  {tests : List (Kernel → Option (Int × Kernel))}
  {texts : List String}

theorem error_tests_pass (link : Linkage) (buf_at : ℕ) (buf : ℕ → UInt8)
    (hdot : read_dentry_by_name fs (c_str (ascii ".")) = some d)
    (htype : d.filetype = 1) (hhelloo : ∀ i, i < DIR_ENTRIES → ¬ slot_has fs (ascii "helloo") i)
    (hshel : ∀ i, i < DIR_ENTRIES → ¬ slot_has fs (ascii "shel") i) :
    List.Forall₂ Passes (error_tests fs link buf_at buf) test_texts :=
  .cons (err_fd_passes (by decide) _ (.c_str (by decide) (by decide))) <|
    .cons (err_fd_passes (by decide) _ (.c_str (by decide) (by decide))) <|
    .cons (err_open_lots_passes hdot htype) <| .cons (err_open_passes hhelloo hshel) <|
    .cons err_unopened_passes <| .cons err_vidmap_passes <| .cons err_stdin_out_passes <|
    .cons err_syscall_num_passes .nil

/-- All tests, one after the other. -/
theorem run_tests_pass (h : List.Forall₂ Passes tests texts) (hfree : FreeFrom 2 k)
    (hout : Stdout k sheet) : ∃ k', run_tests tests 0 k = some (0, k') ∧ FreeFrom 2 k' ∧
      Stdout k' (printed sheet (texts.flatMap ascii)) := by
  induction h generalizing k sheet with
  | nil => exact ⟨k, rfl, hfree, hout⟩
  | cons htest _ ih =>
      obtain ⟨k₁, hcall, hfree₁, hout₁⟩ := htest hfree hout
      obtain ⟨k', hrest, hfree', hout'⟩ := ih hfree₁ hout₁
      refine ⟨k', ?_, hfree', ?_⟩
      · unfold run_tests
        rw [hcall, Option.bind_some]
        exact hrest
      · rwa [printed_append, ← List.flatMap_cons] at hout'

/-- One test, by its number. -/
theorem test_passes (h : List.Forall₂ Passes tests texts) {i : ℕ} (hi : i < tests.length) :
    ∃ test, tests[i]? = some test ∧ Passes test (texts.getD i "") := by
  induction h generalizing i with
  | nil => exact absurd hi (Nat.not_lt_zero i)
  | @cons test text _ _ htest _ ih =>
      cases i with
      | zero => exact ⟨test, rfl, htest⟩
      | succ i => exact ih (Nat.lt_of_succ_lt_succ hi)

variable (fs) in
/-- **The kernel passes its tests.** Whatever choice is typed, the test or all of them print that they
have passed and leave no file open, when none is open before and the directory has an entry for itself
and none with one of the two wrong names. -/
theorem syserr_passes (buf_at : ℕ) (buf : ℕ → UInt8) (link : Linkage)
    (hdot : read_dentry_by_name fs (c_str (ascii ".")) = some d) (htype : d.filetype = 1)
    (hhelloo : ∀ i, i < DIR_ENTRIES → ¬ slot_has fs (ascii "helloo") i)
    (hshel : ∀ i, i < DIR_ENTRIES → ¬ slot_has fs (ascii "shel") i) (hfree : FreeFrom 2 k)
    (hout : Stdout k sheet) {select : ℕ} (hselect : select ≤ 8)
    (hline : EnteredLine line [UInt8.ofNat (0x30 + select)]) :
    ∃ k', syserr_main fs link buf_at buf 2 line k = some (0, k') ∧ FreeFrom 2 k' ∧
      Stdout k' (printed sheet (tests_print select)) := by
  have hpass := error_tests_pass link buf_at buf hdot htype hhelloo hshel
  have hfirst : ((line 0).toNat : Int) - 0x30 = select := by
    have hbyte : line 0 = UInt8.ofNat (0x30 + select) := hline.bytes 0 Nat.one_pos
    rw [hbyte, UInt8.toNat_ofNat']
    omega
  unfold syserr_main tests_print
  rw [if_neg (by decide)]
  dsimp only
  rw [hfirst]
  by_cases hall : select = 0
  -- every test finds the descriptors as the one before it has left them
  · obtain ⟨k₁, hrun, hfree₁, hout₁⟩ := run_tests_pass hpass hfree hout
    have htext : TextAt (c_str (ascii "\nOverall Tests: PASS\n")) (ascii "\nOverall Tests: PASS\n") :=
      .c_str (by decide) (by decide)
    obtain ⟨k', hreport, hfree', hout'⟩ := passes_report "\nOverall Tests: FAIL\n" htext hfree₁ hout₁
    rw [if_pos (by omega), if_pos hall, hrun, Option.bind_some, ← printed_append]
    exact ⟨k', hreport, hfree', hout'⟩
  · have hnumber : ((select : Int) - 1).toNat = select - 1 := by omega
    have hlength : (error_tests fs link buf_at buf).length = 8 := rfl
    obtain ⟨test, htest, hpasses⟩ := test_passes hpass (i := select - 1) (by omega)
    obtain ⟨k', hcall, hfree', hout'⟩ := hpasses hfree hout
    rw [if_neg (by omega), if_neg hall, if_pos (by omega), hnumber, htest, Option.bind_some]
    exact ⟨k', hcall, hfree', hout'⟩

end

/-- A directory with the names that the wrong ones resemble. -/
def tests_fs : file_sys where
  boot_block :=
    { dir_count := 3
      inode_count := 2
      direntries := fun i =>
        if i = 0 then ⟨c_str (ascii "."), 1, 0⟩
        else if i = 1 then ⟨c_str (ascii "hello"), 2, 0⟩
        else if i = 2 then ⟨c_str (ascii "shell"), 2, 1⟩
        else ⟨fun _ => 0, 0, 0⟩ }
  inode := fun _ => ⟨0, fun _ => 0⟩
  data_block := fun _ _ => 0

/-- The choice "3". -/
theorem syserr_passes_demo : ∃ k k',
    new_process (system_execute demo_env (some (ascii "shell b")) (demo_frame 4 4) demo_front) = some k ∧
      syserr_main tests_fs demo_env.link demo_buf (fun _ => 0) 2 (c_str [0x33, END_OF_LINE]) k = some (0, k') ∧
      Stdout k' (printed .blank (ascii "err_open_lots: PASS\n")) := by
  obtain ⟨k, hk, -, hfree, -, hout⟩ := demo_process
  have hline : EnteredLine (c_str [0x33, END_OF_LINE]) [0x33] := by
    refine ⟨by decide, by decide, ?_, rfl⟩
    intro i hi
    obtain rfl : i = 0 := Nat.lt_one_iff.mp hi
    rfl
  obtain ⟨k', hmain, -, hout'⟩ := syserr_passes tests_fs (d := ⟨c_str (ascii "."), 1, 0⟩) demo_buf
    (fun _ => 0) demo_env.link rfl rfl (by decide +kernel) (by decide +kernel) hfree hout
    (by decide : 3 ≤ 8) hline
  exact ⟨k, k', hk, hmain, hout'⟩

end LinuxLikeOS
