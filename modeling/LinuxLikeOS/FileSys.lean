/-
`file_sys.c`: the read-only file system image and the functions that read it.

The image is the three regions the boot loader leaves in memory, typed as
`file_sys.h` types them: the boot block with its directory entries, the inode
blocks and the data blocks. Indices are not cut to the declared array sizes, since
the source does not cut them either: an index past the end reads the memory that
follows, which the image gives as any other value.
-/
import LinuxLikeOS.CLib

set_option autoImplicit false

namespace LinuxLikeOS

def FILENAME_LEN : ℕ := 32
def DIR_ENTRIES : ℕ := 63
def BYTES_PER_BLOCK : ℕ := 4096

/-- A directory entry. `filename` is the name field as a `char *`: the bytes from
index `FILENAME_LEN` on are those of the fields behind it. -/
structure dentry_t where
  filename : ℕ → UInt8
  filetype : ℕ
  inode_num : ℕ

structure inode_t where
  length : ℕ
  data_block_num : ℕ → ℕ

structure boot_block_t where
  dir_count : ℕ
  inode_count : ℕ
  direntries : ℕ → dentry_t

/-- The image: what `init_file_sys` finds at the address of the boot module. -/
structure file_sys where
  boot_block : boot_block_t
  inode : ℕ → inode_t
  data_block : ℕ → ℕ → UInt8

/-! ## Directory lookup -/

/-- The number of bytes compared for one entry: the longer of the two names, cut to
the size of the name field. -/
def compare_len (cur_dentry fname : ℕ → UInt8) : ℕ :=
  if strlen cur_dentry > strlen fname then
    if strlen cur_dentry > FILENAME_LEN then FILENAME_LEN else strlen cur_dentry
  else strlen fname

/-- The search loop of `read_dentry_by_name`, with `n` entries left, at entry `i`. -/
def find_dentry (fs : file_sys) (fname : ℕ → UInt8) : ℕ → ℕ → Option dentry_t
  | 0, _ => none
  | n + 1, i =>
      if strlen fname > FILENAME_LEN then none
      else
        let cur := fs.boot_block.direntries i
        if strncmp cur.filename fname (compare_len cur.filename fname) = 0 then some cur
        else find_dentry fs fname n (i + 1)

/-- `none` is the return value `-1`. -/
def read_dentry_by_name (fs : file_sys) (fname : ℕ → UInt8) : Option dentry_t :=
  if strlen fname = 0 then none else find_dentry fs fname DIR_ENTRIES 0

def read_dentry_by_index (fs : file_sys) (index : ℕ) : Option dentry_t :=
  if index < fs.boot_block.dir_count then some (fs.boot_block.direntries index) else none

/-! ## File data -/

/-- The copy loop of `read_data`: `n` bytes from byte `data_block_index` of the
block listed at `inode_block_index`, going to the next listed block at the end of
each. -/
def read_data_loop (fs : file_sys) (cur_inode : inode_t) : ℕ → ℕ → ℕ → List UInt8
  | 0, _, _ => []
  | n + 1, inode_block_index, data_block_index =>
      fs.data_block (cur_inode.data_block_num inode_block_index) data_block_index ::
        if data_block_index + 1 ≥ BYTES_PER_BLOCK then
          read_data_loop fs cur_inode n (inode_block_index + 1) 0
        else
          read_data_loop fs cur_inode n inode_block_index (data_block_index + 1)

/-- The return value and the bytes stored at `buf`, from `buf[0]` on. All four
numbers are `uint32_t`, and the sum in the test wraps as theirs does; the counter that
is returned is an `int32_t`. -/
def read_data (fs : file_sys) (inode_num offset length : ℕ) : Int × List UInt8 :=
  if inode_num ≥ fs.boot_block.inode_count then (-1, [])
  else
    let cur_inode := fs.inode inode_num
    if offset ≥ cur_inode.length then (0, [])
    else
      let length :=
        if u32 ((offset : Int) + length) > cur_inode.length then cur_inode.length - offset
        else length
      (i32 length, read_data_loop fs cur_inode length (offset / BYTES_PER_BLOCK)
        (offset % BYTES_PER_BLOCK))

end LinuxLikeOS
