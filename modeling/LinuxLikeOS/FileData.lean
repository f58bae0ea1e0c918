/-
What `read_data` reads.

Byte `pos` of a file is in the block its inode lists at `pos / 4096`. The copy loop is a
walk over the blocks, so it stores a contiguous piece of the file, and how long the piece
is depends on the clipping test alone. The test adds the offset to the length as 32-bit
numbers. When the sum does not fit, it is smaller than the offset, the test finds nothing
to clip, and the loop goes on behind the end of the file for as long as it was asked to.
-/
import LinuxLikeOS.FileSys
import LinuxLikeOS.BlockCursor

set_option autoImplicit false

namespace LinuxLikeOS

open BlockCursor

/-! ## The bytes of a file -/

/-- The most blocks an inode lists. -/
def MAX_INODE_BLOCKS : ℕ := 1023

/-- Byte `pos` of a file. -/
def file_byte (fs : file_sys) (ino : inode_t) (pos : ℕ) : UInt8 :=
  fs.data_block (ino.data_block_num (pos / BYTES_PER_BLOCK)) (pos % BYTES_PER_BLOCK)

/-- The bytes of a file from `offset` on. -/
def file_bytes (fs : file_sys) (ino : inode_t) (offset n : ℕ) : List UInt8 :=
  (List.range n).map fun j => file_byte fs ino (offset + j)

theorem length_file_bytes (fs : file_sys) (ino : inode_t) (offset n : ℕ) :
    (file_bytes fs ino offset n).length = n := by
  unfold file_bytes
  rw [List.length_map, List.length_range]

theorem file_bytes_append (fs : file_sys) (ino : inode_t) (offset m n : ℕ) :
    file_bytes fs ino offset (m + n)
      = file_bytes fs ino offset m ++ file_bytes fs ino (offset + m) n := by
  unfold file_bytes
  rw [List.range_add, List.map_append, List.map_map]
  congr 1
  refine List.map_congr_left fun j _ => ?_
  rw [Function.comp_apply, Nat.add_assoc]

/-- The loop reads one byte at each pair of the walk. -/
theorem read_data_loop_walk (fs : file_sys) (ino : inode_t) (n q r : ℕ) :
    read_data_loop fs ino n q r
      = (walk BYTES_PER_BLOCK n (q, r)).map fun c =>
          fs.data_block (ino.data_block_num c.1) c.2 := by
  induction n generalizing q r with
  | zero => rfl
  | succ n ih =>
      rw [read_data_loop, walk, List.map_cons]
      unfold next
      dsimp only
      split
      · rw [ih]
      · rw [ih]

theorem read_data_loop_eq (fs : file_sys) (ino : inode_t) (n offset : ℕ) :
    read_data_loop fs ino n (offset / BYTES_PER_BLOCK) (offset % BYTES_PER_BLOCK)
      = file_bytes fs ino offset n := by
  have hwalk := walk_eq (B := BYTES_PER_BLOCK) (by decide) n offset
  rw [read_data_loop_walk]
  unfold at_position at hwalk
  rw [hwalk, List.map_map]
  rfl

/-! ## `read_data` -/

/-- The length after the clipping test. -/
def clipped (ino : inode_t) (offset length : ℕ) : ℕ :=
  if u32 ((offset : Int) + length) > ino.length then ino.length - offset else length

theorem read_data_of_bad_inode {fs : file_sys} {inode_num : ℕ}
    (h : fs.boot_block.inode_count ≤ inode_num) (offset length : ℕ) :
    read_data fs inode_num offset length = (-1, []) := by
  unfold read_data
  exact if_pos h

theorem read_data_at_end {fs : file_sys} {inode_num offset : ℕ}
    (h : inode_num < fs.boot_block.inode_count) (hend : (fs.inode inode_num).length ≤ offset)
    (length : ℕ) : read_data fs inode_num offset length = (0, []) := by
  unfold read_data
  rw [if_neg (by omega)]
  exact if_pos hend

/-- **A read inside a file** stores as many bytes as the test leaves. -/
theorem read_data_inside {fs : file_sys} {inode_num offset : ℕ}
    (h : inode_num < fs.boot_block.inode_count) (hin : offset < (fs.inode inode_num).length)
    (length : ℕ) :
    read_data fs inode_num offset length =
      (i32 (clipped (fs.inode inode_num) offset length),
        file_bytes fs (fs.inode inode_num) offset (clipped (fs.inode inode_num) offset length)) := by
  unfold read_data
  rw [if_neg (by omega)]
  dsimp only
  rw [if_neg (by omega), read_data_loop_eq]
  rfl

/-- Without a wrap the test clips to the end of the file. -/
theorem clipped_of_fits {ino : inode_t} {offset length : ℕ} (hin : offset < ino.length)
    (hsum : offset + length < 4294967296) :
    clipped ino offset length = min length (ino.length - offset) := by
  have hu : u32 ((offset : Int) + length) = offset + length := by
    rw [← Int.natCast_add]
    exact u32_of_lt hsum
  unfold clipped
  rw [hu]
  split <;> omega

/-- **A read that does not wrap** gives the bytes of the file from the offset on, no more than
asked for and no more than there are. -/
theorem read_data_fits {fs : file_sys} {inode_num offset length : ℕ}
    (h : inode_num < fs.boot_block.inode_count)
    (hsum : offset < (fs.inode inode_num).length → offset + length < 4294967296)
    (hcount : min length ((fs.inode inode_num).length - offset) < 2147483648) :
    read_data fs inode_num offset length =
      (((min length ((fs.inode inode_num).length - offset) : ℕ) : Int),
        file_bytes fs (fs.inode inode_num) offset
          (min length ((fs.inode inode_num).length - offset))) := by
  by_cases hin : offset < (fs.inode inode_num).length
  · rw [read_data_inside h hin, clipped_of_fits hin (hsum hin), i32_of_lt hcount]
  · have hzero : (fs.inode inode_num).length - offset = 0 := by omega
    rw [read_data_at_end h (Nat.le_of_not_lt hin), hzero, Nat.min_zero]
    rfl

/-- With one the sum is smaller than the offset, and nothing is clipped. -/
theorem clipped_of_wraps {ino : inode_t} {offset length : ℕ} (hin : offset < ino.length)
    (hlength : length < 4294967296) (hino : ino.length < 4294967296)
    (hsum : 4294967296 ≤ offset + length) : clipped ino offset length = length := by
  have hu : u32 ((offset : Int) + length) < offset := by
    unfold u32
    omega
  unfold clipped
  rw [if_neg (by omega)]

/-! ## Exact reads -/

/-- The subscripts of `data_block_num` in the iterations of a read: the blocks of the walk
that goes on for as many bytes as were stored. -/
def blocks_read (fs : file_sys) (inode_num offset length : ℕ) : List ℕ :=
  (walk BYTES_PER_BLOCK (read_data fs inode_num offset length).2.length
    (at_position BYTES_PER_BLOCK offset)).map Prod.fst

/-- What a caller of `read_data` may rely on: `-1` and an untouched buffer for an inode that
does not exist; else the bytes of the file from the offset on, no more than asked for and
no more than there are, read from the blocks that hold the file. -/
structure ReadsExactly (fs : file_sys) (inode_num offset length : ℕ) : Prop where
  bad_inode : fs.boot_block.inode_count ≤ inode_num →
    read_data fs inode_num offset length = (-1, [])
  bytes : inode_num < fs.boot_block.inode_count →
    read_data fs inode_num offset length =
      (((min length ((fs.inode inode_num).length - offset) : ℕ) : Int),
        file_bytes fs (fs.inode inode_num) offset
          (min length ((fs.inode inode_num).length - offset)))
  blocks : ∀ b, b ∈ blocks_read fs inode_num offset length →
    b * BYTES_PER_BLOCK < (fs.inode inode_num).length

/-- The offset and the length of a read inside a file can be added. -/
def SumFits (fs : file_sys) (inode_num offset length : ℕ) : Prop :=
  inode_num < fs.boot_block.inode_count → offset < (fs.inode inode_num).length →
    offset + length < 4294967296

instance (fs : file_sys) (inode_num offset length : ℕ) :
    Decidable (SumFits fs inode_num offset length) := inferInstanceAs (Decidable (_ → _))

/-- A read that stays inside the file enters its blocks only. -/
theorem blocks_read_lt {fs : file_sys} {inode_num offset length len : ℕ}
    (h : offset + (read_data fs inode_num offset length).2.length ≤ len ∨
      (read_data fs inode_num offset length).2 = []) :
    ∀ b, b ∈ blocks_read fs inode_num offset length → b * BYTES_PER_BLOCK < len := by
  intro b hb
  unfold blocks_read at hb
  obtain ⟨c, hc, rfl⟩ := List.mem_map.mp hb
  rcases h with hle | hnil
  · exact block_of_mem_walk (by decide) hle hc
  · rw [hnil] at hc
    cases hc

/-- A read that wraps stores everything it was asked for, and that is more than the file
has left. -/
theorem wrapped_read {fs : file_sys} {inode_num offset length : ℕ}
    (hcount : inode_num < fs.boot_block.inode_count)
    (hin : offset < (fs.inode inode_num).length)
    (hino : (fs.inode inode_num).length ≤ MAX_INODE_BLOCKS * BYTES_PER_BLOCK)
    (hlength : length < 4294967296) (hsum : 4294967296 ≤ offset + length) :
    (read_data fs inode_num offset length).2.length = length ∧
      ¬ ReadsExactly fs inode_num offset length := by
  have hmax : MAX_INODE_BLOCKS * BYTES_PER_BLOCK = 4190208 := rfl
  have hstored : (read_data fs inode_num offset length).2.length = length := by
    rw [read_data_inside hcount hin, clipped_of_wraps hin hlength (by omega) hsum]
    exact length_file_bytes _ _ _ _
  refine ⟨hstored, fun h => ?_⟩
  rw [h.bytes hcount] at hstored
  dsimp only at hstored
  rw [length_file_bytes] at hstored
  omega

/-- **A read is exact precisely when its offset and length can be added in 32 bits**, unless
there is nothing to read at the offset. The block numbers an inode lists may be any. -/
theorem reads_exactly_iff (fs : file_sys) (inode_num offset length : ℕ)
    (hino : inode_num < fs.boot_block.inode_count →
      (fs.inode inode_num).length ≤ MAX_INODE_BLOCKS * BYTES_PER_BLOCK)
    (hlength : length < 4294967296) :
    ReadsExactly fs inode_num offset length ↔ SumFits fs inode_num offset length := by
  have hmax : MAX_INODE_BLOCKS * BYTES_PER_BLOCK = 4190208 := rfl
  constructor
  · intro h hcount hin
    by_contra hsum
    exact (wrapped_read hcount hin (hino hcount) hlength (by omega)).2 h
  · intro hfits
    by_cases hcount : inode_num < fs.boot_block.inode_count
    · have hmost := hino hcount
      have hread := read_data_fits hcount (hfits hcount) (by omega)
      refine ⟨fun hbad => absurd hcount (by omega), fun _ => hread, blocks_read_lt ?_⟩
      rw [hread]
      by_cases hin : offset < (fs.inode inode_num).length
      · refine Or.inl ?_
        rw [length_file_bytes]
        omega
      · refine Or.inr ?_
        have hzero : (fs.inode inode_num).length - offset = 0 := by omega
        rw [hzero, Nat.min_zero]
        rfl
    · have hread := read_data_of_bad_inode (Nat.le_of_not_lt hcount) offset length
      refine ⟨fun _ => hread, fun hc => absurd hc hcount, blocks_read_lt (Or.inr ?_)⟩
      rw [hread]

/-- An image with one file, of 5000 bytes in two blocks. -/
def one_file_fs : file_sys where
  boot_block := ⟨1, 1, fun _ => ⟨c_str [0x61], 2, 0⟩⟩
  inode := fun _ => ⟨5000, fun b => 7 - b⟩
  data_block := fun b i => UInt8.ofNat (b + i)

/-- A read across the two blocks. -/
theorem reads_exactly_demo : ReadsExactly one_file_fs 0 4000 2000 :=
  (reads_exactly_iff one_file_fs 0 4000 2000 (fun _ => by decide) (by decide)).mpr (by decide)

/-- A read with the largest length, from the second byte on, does not stop at the end of
the file. -/
theorem read_past_end :
    (read_data one_file_fs 0 1 4294967295).2.length = 4294967295 ∧
      ¬ ReadsExactly one_file_fs 0 1 4294967295 :=
  wrapped_read (by decide) (by decide) (by decide) (by decide) (by decide)

end LinuxLikeOS
