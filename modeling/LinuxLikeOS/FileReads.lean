/-
Reading a file from the beginning.

The position of a descriptor moves by the bytes asked for, not by those delivered. The two
differ only at the end of the file, and behind it every read delivers nothing, so the
reads of a file still put it together without a gap, however it is cut.
-/
import LinuxLikeOS.Reads
import LinuxLikeOS.Tables

set_option autoImplicit false

namespace LinuxLikeOS

open Kernel

/-! ## Successive reads -/

/-- Calls of `read` one after the other, each with its buffer and its size: the values
returned and the bytes stored. -/
def system_reads (fs : file_sys) (fd : Int) :
    List (ℕ × ℕ) → Kernel → Option (List (Int × List UInt8) × Kernel)
  | [], k => some ([], k)
  | (buf, n) :: calls, k =>
      match system_read fs fd buf n k with
      | some (.ret r, bytes, k) =>
          (system_reads fs fd calls k).map fun rest => ((r, bytes) :: rest.1, rest.2)
      | _ => none

/-- The reads of the given sizes, from byte `pos` of a file on, deliver the next bytes of
the file as far as it goes, and each returns the number it delivered. -/
structure ReadsThrough (fs : file_sys) (ino : inode_t) (pos : ℕ) (sizes : List ℕ)
    (results : List (Int × List UInt8)) : Prop where
  count : results.length = sizes.length
  delivered : results.flatMap Prod.snd = file_bytes fs ino pos (min sizes.sum (ino.length - pos))
  returned : ∀ result, result ∈ results → result.1 = result.2.length
  at_end : ∀ i, i < sizes.length → ino.length ≤ pos + (sizes.take i).sum →
    results[i]? = some (0, [])

/-- The descriptor is open for reading on a regular file, at byte `pos`. -/
structure FileAt (fd : Int) (inode_num pos : ℕ) (k : Kernel) : Prop where
  readable : readable k fd
  ops : (named_fd k fd).file_op_table_ptr = .file_ops
  inode : u32 (named_fd k fd).inode = inode_num
  file_pos : (named_fd k fd).file_pos = (pos : Int)

section

variable {fs : file_sys} {fd : Int} {inode_num pos n : ℕ} {k k' : Kernel}

/-- A read of `m` bytes of a file and the reads behind it. -/
theorem file_bytes_min (fs : file_sys) (ino : inode_t) (pos m n : ℕ) :
    file_bytes fs ino pos (min (m + n) (ino.length - pos))
      = file_bytes fs ino pos (min m (ino.length - pos))
        ++ file_bytes fs ino (pos + m) (min n (ino.length - (pos + m))) := by
  rcases Nat.lt_or_ge (ino.length - pos) m with hshort | hlong
  · -- the first read comes to the end, and nothing is left for the others
    have hnone : ino.length - (pos + m) = 0 := by omega
    rw [hnone, Nat.min_zero, Nat.min_eq_right (by omega), Nat.min_eq_right (by omega)]
    exact (List.append_nil _).symm
  · rw [Nat.min_eq_left hlong, ← file_bytes_append]
    congr 1
    omega

theorem readsThrough_nil (ino : inode_t) (pos : ℕ) : ReadsThrough fs ino pos [] [] where
  count := rfl
  delivered := by
    rw [List.sum_nil, Nat.zero_min]
    rfl
  returned _ h := nomatch h
  at_end _ h := nomatch h

theorem ReadsThrough.cons {ino : inode_t} {sizes : List ℕ} {results : List (Int × List UInt8)}
    (h : ReadsThrough fs ino (pos + n) sizes results) :
    ReadsThrough fs ino pos (n :: sizes)
      (((min n (ino.length - pos) : ℕ), file_bytes fs ino pos (min n (ino.length - pos)))
        :: results) where
  count := congrArg (· + 1) h.count
  delivered := by
    rw [List.flatMap_cons, h.delivered, List.sum_cons, file_bytes_min]
  returned result hmem := by
    rcases List.mem_cons.mp hmem with rfl | hmem
    · rw [length_file_bytes]
    · exact h.returned result hmem
  at_end i hi hend := by
    match i, hi, hend with
    | 0, _, hend =>
        have hnone : ino.length - pos = 0 := by
          rw [List.take_zero, List.sum_nil] at hend
          omega
        rw [hnone, Nat.min_zero]
        rfl
    | i + 1, hi, hend =>
        rw [List.take_succ_cons, List.sum_cons] at hend
        exact h.at_end i (Nat.lt_of_succ_lt_succ hi) (by omega)

/-! ## One read -/

/-- An assignment to the descriptor a call names. -/
theorem named_fd_moved (fd : Int) (f : fd_t → fd_t) (k : Kernel) :
    named_fd (set_fd k.curr_pid fd.toNat f k) fd = f (named_fd k fd) := by
  show table (set_fd k.curr_pid fd.toNat f k) k.curr_pid fd.toNat = _
  rw [table_set_fd, Function.update_self]
  rfl

/-- **One read** delivers what is left of the file, up to its size. -/
theorem FileAt.read (h : FileAt fd inode_num pos k)
    (hino : inode_num < fs.boot_block.inode_count) (hsum : pos + n < 2147483648) (buf : ℕ) :
    ∃ k', system_read fs fd buf n k =
        some (.ret (min n ((fs.inode inode_num).length - pos) : ℕ),
          file_bytes fs (fs.inode inode_num) pos (min n ((fs.inode inode_num).length - pos)), k') ∧
      FileAt fd inode_num (pos + n) k' := by
  have hcall := system_read_readable fs buf n h.readable h.ops
  have hlt : ¬ fd.toNat ≥ FILE_DESCRIPTOR_MAX := by
    have := h.readable.1
    omega
  have hread : read_data fs (u32 (named_fd k fd).inode) (u32 (named_fd k fd).file_pos) (u32 (n : Int))
      = (((min n ((fs.inode inode_num).length - pos) : ℕ) : Int),
        file_bytes fs (fs.inode inode_num) pos (min n ((fs.inode inode_num).length - pos))) := by
    rw [h.inode, h.file_pos, u32_of_lt (by omega), u32_of_lt (by omega)]
    exact read_data_fits hino (fun _ => by omega) (by omega)
  refine ⟨set_fd k.curr_pid fd.toNat
    (fun file => { file with file_pos := i32 (file.file_pos + n) }) k, ?_, ?_⟩
  · rw [hcall]
    unfold fops_read read_file
    rw [if_neg hlt]
    show some (Control.ret (read_data fs (u32 (named_fd k fd).inode) (u32 (named_fd k fd).file_pos)
      (u32 (n : Int))).1, (read_data fs (u32 (named_fd k fd).inode) (u32 (named_fd k fd).file_pos)
      (u32 (n : Int))).2, _) = _
    rw [hread]
  · have hmoved := named_fd_moved fd
      (fun file => { file with file_pos := i32 (file.file_pos + n) }) k
    constructor
    · refine ⟨h.readable.1, ?_⟩
      rw [hmoved]
      exact h.readable.2
    · rw [hmoved]
      exact h.ops
    · rw [hmoved]
      exact h.inode
    · rw [hmoved]
      show i32 ((named_fd k fd).file_pos + n) = _
      rw [h.file_pos, ← Int.natCast_add, i32_of_lt hsum]

/-- **The reads of a file in pieces**, by induction on the calls: each finds the file where
the one before it left off. -/
theorem FileAt.reads (h : FileAt fd inode_num pos k)
    (hino : inode_num < fs.boot_block.inode_count) (calls : List (ℕ × ℕ))
    (hsum : pos + (calls.map Prod.snd).sum < 2147483648) :
    ∃ results k', system_reads fs fd calls k = some (results, k') ∧
      ReadsThrough fs (fs.inode inode_num) pos (calls.map Prod.snd) results := by
  induction calls generalizing pos k with
  | nil => exact ⟨[], k, rfl, readsThrough_nil _ _⟩
  | cons call calls ih =>
      obtain ⟨buf, n⟩ := call
      rw [List.map_cons, List.sum_cons] at hsum
      obtain ⟨k₁, hread, h₁⟩ := h.read hino (n := n) (by omega) buf
      obtain ⟨results, k₂, hreads, hthrough⟩ := ih h₁ (by omega)
      refine ⟨_, k₂, ?_, hthrough.cons⟩
      rw [system_reads, hread]
      dsimp only
      rw [hreads, Option.map_some]

/-! ## From `open` on -/

/-- The descriptor of a regular file that has just been opened. -/
def file_fd (inode_num : ℕ) : fd_t :=
  { file_op_table_ptr := .file_ops, inode := i32 inode_num, file_pos := 0, flags := IN_USE }

theorem system_open_file {filename : List UInt8} {d : dentry_t} {i : ℕ}
    (hname : read_dentry_by_name fs (c_str filename) = some d) (htype : d.filetype = 2)
    (hfree : free_fd (get_pcb k k.curr_pid) = some i) :
    system_open fs filename k
      = some ((i : Int), set_fd k.curr_pid i (fun _ => file_fd d.inode_num) k) := by
  unfold system_open
  rw [hname, hfree]
  dsimp only
  rw [htype]
  rfl

/-- A regular file is opened at its beginning. -/
theorem fileAt_opened {filename : List UInt8} {d : dentry_t}
    (hname : read_dentry_by_name fs (c_str filename) = some d) (htype : d.filetype = 2)
    (hnum : d.inode_num < 4294967296) (hopen : system_open fs filename k = some (fd, k'))
    (hfd : fd ≠ -1) : FileAt fd d.inode_num 0 k' := by
  cases hfree : free_fd (get_pcb k k.curr_pid) with
  | none =>
      rw [system_open_fails (Or.inr hfree)] at hopen
      obtain ⟨rfl, -⟩ := Prod.mk.inj (Option.some.inj hopen)
      exact absurd rfl hfd
  | some i =>
      have hslot := free_fd_eq_some.mp hfree
      have hmin : 2 ≤ i := hslot.lower
      have hmax : i < 8 := hslot.upper
      have hrange : 0 ≤ (i : Int) ∧ (i : Int) < (8 : ℕ) ∧ (i : Int) ≠ 1 := by omega
      rw [system_open_file hname htype hfree] at hopen
      obtain ⟨rfl, rfl⟩ := Prod.mk.inj (Option.some.inj hopen)
      have hnew := named_fd_moved (i : Int) (fun _ => file_fd d.inode_num) k
      rw [Int.toNat_natCast] at hnew
      constructor
      · refine ⟨hrange, ?_⟩
        rw [hnew]
        show IN_USE ≠ NOT_IN_USE
        decide
      · rw [hnew]
        rfl
      · have hinode := u32_i32_of_lt hnum
        rw [hnew]
        unfold file_fd
        dsimp only
        exact hinode
      · rw [hnew]
        rfl

/-- **A regular file that is opened is read from its first byte on, without a gap and up to
its end, however the reads are cut.** -/
theorem file_read_through {filename : List UInt8} {d : dentry_t}
    (hname : read_dentry_by_name fs (c_str filename) = some d) (htype : d.filetype = 2)
    (hino : d.inode_num < fs.boot_block.inode_count)
    (hcount : fs.boot_block.inode_count < 4294967296)
    (hopen : system_open fs filename k = some (fd, k')) (hfd : fd ≠ -1) (calls : List (ℕ × ℕ))
    (hsum : (calls.map Prod.snd).sum < 2147483648) :
    ∃ results k₁, system_reads fs fd calls k' = some (results, k₁) ∧
      ReadsThrough fs (fs.inode d.inode_num) 0 (calls.map Prod.snd) results := by
  have hfile := fileAt_opened hname htype (by omega) hopen hfd
  exact hfile.reads hino calls (by omega)

end

/-- The program of 28 bytes read in pieces of 0, 10, 25 and 5. -/
theorem file_read_through_demo : ∃ k', system_open demo_fs (ascii "shell") demo = some (2, k') ∧
    ∃ results k₁, system_reads demo_fs 2 [(demo_buf, 0), (demo_buf, 10), (demo_buf, 25), (demo_buf, 5)] k' = some (results, k₁) ∧
      ReadsThrough demo_fs (demo_fs.inode 0) 0 [0, 10, 25, 5] results := by
  have hopen : (system_open demo_fs (ascii "shell") demo).map Prod.fst = some 2 := by
    decide +kernel
  obtain ⟨⟨fd, k'⟩, hk, hfd⟩ := Option.map_eq_some_iff.mp hopen
  obtain rfl : fd = 2 := hfd
  have hname : read_dentry_by_name demo_fs (c_str (ascii "shell"))
      = some ⟨c_str (ascii "shell"), 2, 0⟩ := by rfl
  exact ⟨k', hk, file_read_through hname rfl (by decide) (by decide) hk (by decide)
    [(demo_buf, 0), (demo_buf, 10), (demo_buf, 25), (demo_buf, 5)] (by decide)⟩

end LinuxLikeOS
