/-
`init_file_sys`: the file system as the bytes of the boot module.

The other modules take the image as `file_sys.h` types it. Here the pointers are made from the
address of the module, and a disk is what the bytes say: a boot block, inodes and blocks. When the
bytes of a disk stand at the address, the names that can be opened are those of the directory, what
is read from an open file are its blocks in the order of its inode, and the directory is listed in
the order of its entries.
-/
import LinuxLikeOS.Directory
import LinuxLikeOS.FileReads
import LinuxLikeOS.Lookup
import LinuxLikeOS.Records

set_option autoImplicit false

namespace LinuxLikeOS

open Kernel Records

/-! ## The pointers -/

/-- Addresses are 32 bits wide, and what is added to them wraps. -/
def byte_at (mem : ℕ → UInt8) (addr : ℕ) : UInt8 := mem (addr % ADDRESS_SPACE)

def word_at (mem : ℕ → UInt8) (addr : ℕ) : ℕ := little_endian fun i => byte_at mem (addr + i)

/-- The bytes of a `dentry_t`, of which `reserved` are the last. -/
def SIZEOF_DENTRY : ℕ := 64

def dentry_at (mem : ℕ → UInt8) (addr : ℕ) : dentry_t where
  filename i := byte_at mem (addr + i)
  filetype := word_at mem (addr + FILENAME_LEN)
  inode_num := word_at mem (addr + FILENAME_LEN + 4)

def inode_at (mem : ℕ → UInt8) (addr : ℕ) : inode_t where
  length := word_at mem addr
  data_block_num i := word_at mem (addr + 4 + 4 * i)

/-- `boot_block`, `inode` and `data_blocks`, and what is found behind them. -/
def init_file_sys (mem : ℕ → UInt8) (starting_addr : ℕ) : file_sys :=
  let boot_block : boot_block_t :=
    { dir_count := word_at mem starting_addr
      inode_count := word_at mem (starting_addr + 4)
      direntries := fun i => dentry_at mem (starting_addr + 64 + SIZEOF_DENTRY * i) }
  let inode := starting_addr + BYTES_PER_BLOCK
  let data_blocks := starting_addr + BYTES_PER_BLOCK + boot_block.inode_count * BYTES_PER_BLOCK
  { boot_block := boot_block
    inode := fun inode_num => inode_at mem (inode + inode_num * BYTES_PER_BLOCK)
    data_block := fun num i => byte_at mem (data_blocks + num * BYTES_PER_BLOCK + i) }

/-! ## The disk -/

def DENTRY_RESERVED_BYTES : ℕ := 24
def BOOT_BLOCK_RESERVED_BYTES : ℕ := 52

structure disk_dentry where
  filename : Vector UInt8 FILENAME_LEN
  filetype : UInt32
  inode_num : UInt32
  reserved : Vector UInt8 DENTRY_RESERVED_BYTES

structure disk_inode where
  length : UInt32
  data_block_num : Vector UInt32 MAX_INODE_BLOCKS

/-- A boot block, whose counts of inodes and blocks are right, and what it counts. -/
structure disk where
  dir_count : UInt32
  reserved : Vector UInt8 BOOT_BLOCK_RESERVED_BYTES
  direntries : Vector disk_dentry DIR_ENTRIES
  inodes : List disk_inode
  blocks : List (Vector UInt8 BYTES_PER_BLOCK)

def disk_dentry.name (e : disk_dentry) : List UInt8 := e.filename.toList.takeWhile (· ≠ 0)

namespace disk

/-- The entry with the name. -/
def find (d : disk) (name : List UInt8) : Option disk_dentry :=
  d.direntries.toList.find? fun e => e.name = name

def block (d : disk) (num : UInt32) : Vector UInt8 BYTES_PER_BLOCK :=
  d.blocks.getD num.toNat (Vector.replicate BYTES_PER_BLOCK 0)

/-- The bytes of a file. -/
def contents (d : disk) (n : disk_inode) : List UInt8 :=
  (n.data_block_num.toList.flatMap fun num => (d.block num).toList).take n.length.toNat

/-- The regular file with the name. -/
def file (d : disk) (name : List UInt8) : Option (List UInt8) :=
  (d.find name).bind fun e =>
    if e.filetype = 2 then d.inodes[e.inode_num.toNat]?.map d.contents else none

/-- The entries that are in use. -/
def entries (d : disk) : List disk_dentry := d.direntries.toList.take d.dir_count.toNat

/-- What the boot block and the inodes name is there. -/
structure WellFormed (d : disk) : Prop where
  dir_count : d.dir_count.toNat ≤ DIR_ENTRIES
  length_le : ∀ n ∈ d.inodes, n.length.toNat ≤ MAX_INODE_BLOCKS * BYTES_PER_BLOCK
  blocks : ∀ n ∈ d.inodes, ∀ j (hj : j < MAX_INODE_BLOCKS), j * BYTES_PER_BLOCK < n.length.toNat →
    n.data_block_num[j].toNat < d.blocks.length

/-! ## Its bytes -/

end disk

def word_bytes (w : UInt32) : List UInt8 :=
  [w.toUInt8, (w >>> 8).toUInt8, (w >>> 16).toUInt8, (w >>> 24).toUInt8]

def disk_dentry.bytes (e : disk_dentry) : List UInt8 :=
  e.filename.toList ++ (word_bytes e.filetype ++ (word_bytes e.inode_num ++ e.reserved.toList))

def disk_inode.bytes (n : disk_inode) : List UInt8 :=
  word_bytes n.length ++ n.data_block_num.toList.flatMap word_bytes

namespace disk

def boot_bytes (d : disk) : List UInt8 :=
  word_bytes d.dir_count ++ (word_bytes (.ofNat d.inodes.length) ++
    ((word_bytes (.ofNat d.blocks.length) ++ d.reserved.toList) ++
      d.direntries.toList.flatMap disk_dentry.bytes))

def bytes (d : disk) : List UInt8 :=
  d.boot_bytes ++ (d.inodes.flatMap disk_inode.bytes ++ d.blocks.flatMap Vector.toList)

/-- The disk is the module at an address. -/
structure At (d : disk) (mem : ℕ → UInt8) (addr : ℕ) : Prop where
  bytes : HoldsAt mem addr d.bytes
  fits : addr + (1 + d.inodes.length + d.blocks.length) * BYTES_PER_BLOCK ≤ ADDRESS_SPACE

end disk

section

theorem word_bytes_length (w : UInt32) : (word_bytes w).length = 4 := rfl

theorem disk_dentry.length_bytes (e : disk_dentry) : e.bytes.length = SIZEOF_DENTRY := by
  unfold disk_dentry.bytes
  simp only [List.length_append, Vector.length_toList, word_bytes_length]
  rfl

theorem disk_inode.length_bytes (n : disk_inode) : n.bytes.length = BYTES_PER_BLOCK := by
  unfold disk_inode.bytes
  rw [List.length_append, length_flatMap_const word_bytes_length, Vector.length_toList, word_bytes_length]
  rfl

theorem disk.length_boot_bytes (d : disk) : d.boot_bytes.length = BYTES_PER_BLOCK := by
  unfold disk.boot_bytes
  simp only [List.length_append, length_flatMap_const disk_dentry.length_bytes, Vector.length_toList,
    word_bytes_length]
  rfl

variable {mem : ℕ → UInt8} {addr : ℕ}

theorem byte_at_of_lt (h : addr < ADDRESS_SPACE) : byte_at mem addr = mem addr := by
  unfold byte_at
  rw [Nat.mod_eq_of_lt h]

/-- A word is stored with its low byte first. -/
theorem word_at_eq {w : UInt32} (h : HoldsAt mem addr (word_bytes w)) (hfit : addr + 4 ≤ ADDRESS_SPACE) :
    word_at mem addr = w.toNat := by
  have hbyte : ∀ i (hi : i < 4), byte_at mem (addr + i) = (word_bytes w)[i] := by
    intro i hi
    rw [byte_at_of_lt (by omega)]
    exact h i hi
  have hlt := w.toNat_lt
  unfold word_at little_endian
  dsimp only
  rw [hbyte 0 (by decide), hbyte 1 (by decide), hbyte 2 (by decide), hbyte 3 (by decide)]
  simp only [word_bytes, List.getElem_cons_zero, List.getElem_cons_succ, UInt32.toNat_toUInt8,
    UInt32.toNat_shiftRight, UInt32.toNat_ofNat, Nat.shiftRight_eq_div_pow]
  simp only [Nat.reduceMod, Nat.reducePow] at *
  omega

end

/-! ## What is found -/

namespace disk

variable {d : disk} {mem : ℕ → UInt8} {addr : ℕ}

/-- The three regions. -/
theorem At.regions (h : d.At mem addr) : HoldsAt mem addr d.boot_bytes ∧
    HoldsAt mem (addr + BYTES_PER_BLOCK) (d.inodes.flatMap disk_inode.bytes) ∧
    HoldsAt mem (addr + BYTES_PER_BLOCK + BYTES_PER_BLOCK * d.inodes.length)
      (d.blocks.flatMap Vector.toList) := by
  have hbytes := h.bytes
  unfold disk.bytes at hbytes
  rw [holdsAt_append, holdsAt_append, d.length_boot_bytes,
    length_flatMap_const disk_inode.length_bytes] at hbytes
  exact hbytes

/-- The words and the entries of the boot block. -/
theorem At.boot_block (h : d.At mem addr) : HoldsAt mem addr (word_bytes d.dir_count) ∧
    HoldsAt mem (addr + 4) (word_bytes (.ofNat d.inodes.length)) ∧
    HoldsAt mem (addr + 64) (d.direntries.toList.flatMap disk_dentry.bytes) := by
  have hboot := h.regions.1
  unfold boot_bytes at hboot
  rw [holdsAt_append, holdsAt_append, holdsAt_append] at hboot
  obtain ⟨hdir, hinodes, -, hentries⟩ := hboot
  have hlen : (word_bytes (.ofNat d.blocks.length) ++ d.reserved.toList).length = 56 := by
    rw [List.length_append, Vector.length_toList]
    rfl
  rw [hlen] at hentries
  exact ⟨hdir, hinodes, hentries⟩

theorem At.space (h : d.At mem addr) :
    addr + 4096 + 4096 * d.inodes.length + 4096 * d.blocks.length ≤ ADDRESS_SPACE := by
  have hfits := h.fits
  unfold BYTES_PER_BLOCK at *
  omega

theorem At.dir_count (h : d.At mem addr) : (init_file_sys mem addr).boot_block.dir_count
    = d.dir_count.toNat := by
  have hspace := h.space
  exact word_at_eq h.boot_block.1 (by omega)

theorem At.inode_count (h : d.At mem addr) : (init_file_sys mem addr).boot_block.inode_count
    = d.inodes.length := by
  have hspace := h.space
  have hsize : ADDRESS_SPACE = 4294967296 := rfl
  have hword : word_at mem (addr + 4) = (UInt32.ofNat d.inodes.length).toNat :=
    word_at_eq h.boot_block.2.1 (by omega)
  refine hword.trans ?_
  rw [UInt32.toNat_ofNat']
  exact Nat.mod_eq_of_lt (by omega)

/-- **The entry in a slot.** -/
theorem At.direntry (h : d.At mem addr) {i : ℕ} (hi : i < DIR_ENTRIES) :
    ((init_file_sys mem addr).boot_block.direntries i).filetype = d.direntries[i].filetype.toNat ∧
    ((init_file_sys mem addr).boot_block.direntries i).inode_num = d.direntries[i].inode_num.toNat ∧
    (List.range FILENAME_LEN).map ((init_file_sys mem addr).boot_block.direntries i).filename
      = d.direntries[i].filename.toList := by
  have hspace := h.space
  have hslots : DIR_ENTRIES = 63 := rfl
  have hname : FILENAME_LEN = 32 := rfl
  have hplace : SIZEOF_DENTRY * i + 64 ≤ 4032 := by
    unfold SIZEOF_DENTRY
    omega
  have hentry := h.boot_block.2.2.record disk_dentry.length_bytes (i := i)
    (by rwa [Vector.length_toList])
  rw [Vector.getElem_toList] at hentry
  unfold disk_dentry.bytes at hentry
  simp only [holdsAt_append, Vector.length_toList, word_bytes_length] at hentry
  obtain ⟨hfilename, hfiletype, hinode, -⟩ := hentry
  refine ⟨word_at_eq hfiletype (by omega), word_at_eq hinode (by omega), ?_⟩
  apply List.ext_getElem
  · rw [List.length_map, List.length_range, Vector.length_toList]
  · intro j hj hj'
    rw [List.length_map, List.length_range] at hj
    rw [List.getElem_map, List.getElem_range, ← hfilename j hj']
    exact byte_at_of_lt (by omega)

/-- **An inode.** -/
theorem At.inode (h : d.At mem addr) {i : ℕ} (hi : i < d.inodes.length) :
    ((init_file_sys mem addr).inode i).length = d.inodes[i].length.toNat ∧
    ∀ j (hj : j < MAX_INODE_BLOCKS), ((init_file_sys mem addr).inode i).data_block_num j
      = d.inodes[i].data_block_num[j].toNat := by
  have hspace := h.space
  have hblock : BYTES_PER_BLOCK = 4096 := rfl
  have hmax : MAX_INODE_BLOCKS = 1023 := rfl
  have hinode := h.regions.2.1.record disk_inode.length_bytes hi
  rw [Nat.mul_comm BYTES_PER_BLOCK i] at hinode
  unfold disk_inode.bytes at hinode
  rw [holdsAt_append, word_bytes_length] at hinode
  obtain ⟨hlength, hnums⟩ := hinode
  refine ⟨word_at_eq hlength (by rw [hblock]; omega), ?_⟩
  intro j hj
  have hnum := hnums.record word_bytes_length (i := j) (by rwa [Vector.length_toList])
  rw [Vector.getElem_toList] at hnum
  exact word_at_eq hnum (by rw [hblock]; omega)

/-- **A byte of a block.** -/
theorem At.data_block (h : d.At mem addr) {num j : ℕ} (hnum : num < d.blocks.length)
    (hj : j < BYTES_PER_BLOCK) : (init_file_sys mem addr).data_block num j = d.blocks[num][j] := by
  have hspace := h.space
  have hblock : BYTES_PER_BLOCK = 4096 := rfl
  have hbytes := h.regions.2.2.record (fun b : Vector UInt8 BYTES_PER_BLOCK => Vector.length_toList) hnum
  have hbyte := hbytes j (by rwa [Vector.length_toList])
  rw [Vector.getElem_toList] at hbyte
  rw [← hbyte]
  unfold init_file_sys
  dsimp only
  have hcount : word_at mem (addr + 4) = d.inodes.length := h.inode_count
  rw [hcount, byte_at_of_lt (by rw [hblock] at hj ⊢; omega)]
  congr 1
  rw [Nat.mul_comm BYTES_PER_BLOCK d.inodes.length, Nat.mul_comm BYTES_PER_BLOCK num]

/-! ## What is read -/

theorem At.entry_name (h : d.At mem addr) {i : ℕ} (hi : i < DIR_ENTRIES) :
    entry_name ((init_file_sys mem addr).boot_block.direntries i) = d.direntries[i].name := by
  unfold LinuxLikeOS.entry_name disk_dentry.name
  rw [(h.direntry hi).2.2]

/-- **The lookup finds the first entry with the name.** -/
theorem At.lookup (h : d.At mem addr) {name : List UInt8} (hname : FileName name) :
    (read_dentry_by_name (init_file_sys mem addr) (c_str name)).map
        (fun e => (e.filetype, e.inode_num))
      = (d.find name).map fun e => (e.filetype.toNat, e.inode_num.toNat) := by
  have hlen : d.direntries.toList.length = DIR_ENTRIES := Vector.length_toList
  rw [read_dentry_by_name_eq hname]
  cases hslot : (List.range DIR_ENTRIES).find? fun j => slot_has (init_file_sys mem addr) name j with
  | none =>
      have hnone : d.find name = none := by
        unfold find
        rw [List.find?_eq_none]
        intro e he
        obtain ⟨i, hi, rfl⟩ := List.getElem_of_mem he
        have hfree := find_slot_eq_none.mp hslot i (by omega)
        unfold slot_has at hfree
        rw [h.entry_name (by omega)] at hfree
        rw [Vector.getElem_toList]
        simpa using hfree
      rw [hnone]
      rfl
  | some i =>
      obtain ⟨hi, hhas, hfirst⟩ := find_slot_eq_some.mp hslot
      have hsome : d.find name = some d.direntries[i] := by
        unfold find
        rw [List.find?_eq_some_iff_getElem]
        refine ⟨?_, i, by omega, Vector.getElem_toList _, ?_⟩
        · unfold slot_has at hhas
          rw [h.entry_name hi] at hhas
          exact decide_eq_true hhas
        · intro j hj
          have hother := hfirst j hj
          unfold slot_has at hother
          rw [h.entry_name (by omega)] at hother
          rw [Vector.getElem_toList]
          simpa using hother
      obtain ⟨htype, hinode, -⟩ := h.direntry hi
      rw [hsome, Option.map_some, Option.map_some, Option.map_some, htype, hinode]

theorem length_contents (hd : d.WellFormed) {n : disk_inode} (hn : n ∈ d.inodes) :
    (d.contents n).length = n.length.toNat := by
  unfold contents
  have hblocks : ∀ num, ((d.block num).toList).length = BYTES_PER_BLOCK := fun _ => Vector.length_toList
  rw [List.length_take, length_flatMap_const hblocks, Vector.length_toList, Nat.mul_comm]
  exact Nat.min_eq_left (hd.length_le n hn)

theorem getElem_contents (hd : d.WellFormed) {n : disk_inode} (hn : n ∈ d.inodes) {pos : ℕ}
    (hpos : pos < (d.contents n).length) : ∃ (hj : pos / BYTES_PER_BLOCK < MAX_INODE_BLOCKS)
      (hr : pos % BYTES_PER_BLOCK < BYTES_PER_BLOCK),
      (d.contents n)[pos] = (d.block n.data_block_num[pos / BYTES_PER_BLOCK])[pos % BYTES_PER_BLOCK] := by
  have hlen := hpos
  rw [length_contents hd hn] at hlen
  have hmax := hd.length_le n hn
  have hsize : 0 < BYTES_PER_BLOCK := by decide
  have hblocks : ∀ num, ((d.block num).toList).length = BYTES_PER_BLOCK := fun _ => Vector.length_toList
  have hall : pos < (n.data_block_num.toList.flatMap fun num => (d.block num).toList).length := by
    rw [length_flatMap_const hblocks, Vector.length_toList, Nat.mul_comm]
    omega
  obtain ⟨hj, hr, hget⟩ := getElem_flatMap_record hblocks hsize hall
  rw [Vector.length_toList] at hj
  refine ⟨hj, Nat.mod_lt _ hsize, ?_⟩
  simp only [contents, List.getElem_take, hget, Vector.getElem_toList]

/-- **A byte of a file**: the inode is followed to the block that the disk has there. -/
theorem At.file_byte (h : d.At mem addr) (hd : d.WellFormed) {i pos : ℕ} (hi : i < d.inodes.length)
    (hpos : pos < (d.contents d.inodes[i]).length) :
    file_byte (init_file_sys mem addr) ((init_file_sys mem addr).inode i) pos
      = (d.contents d.inodes[i])[pos] := by
  have hmem : d.inodes[i] ∈ d.inodes := List.getElem_mem hi
  obtain ⟨hj, hr, hget⟩ := getElem_contents hd hmem hpos
  rw [length_contents hd hmem] at hpos
  have hstart : pos / BYTES_PER_BLOCK * BYTES_PER_BLOCK < d.inodes[i].length.toNat :=
    Nat.lt_of_le_of_lt (Nat.div_mul_le_self _ _) hpos
  have hnum := hd.blocks _ hmem _ hj hstart
  have hblock : d.block d.inodes[i].data_block_num[pos / BYTES_PER_BLOCK]
      = d.blocks[d.inodes[i].data_block_num[pos / BYTES_PER_BLOCK].toNat] :=
    List.getD_eq_getElem _ _ hnum
  unfold LinuxLikeOS.file_byte
  rw [hget, (h.inode hi).2 _ hj, h.data_block hnum hr]
  simp only [hblock]

/-- **The bytes of a file.** -/
theorem At.file_bytes (h : d.At mem addr) (hd : d.WellFormed) {i n : ℕ} (hi : i < d.inodes.length)
    (hn : n ≤ (d.contents d.inodes[i]).length) :
    file_bytes (init_file_sys mem addr) ((init_file_sys mem addr).inode i) 0 n
      = (d.contents d.inodes[i]).take n := by
  apply List.ext_getElem
  · rw [length_file_bytes, List.length_take, Nat.min_eq_left hn]
  · intro pos hpos _
    rw [length_file_bytes] at hpos
    simp only [LinuxLikeOS.file_bytes, List.getElem_map, List.getElem_range, List.getElem_take,
      Nat.zero_add]
    exact h.file_byte hd hi (by omega)

/-- What is delivered from an open file, when the reads are cut in any way. -/
theorem At.reads (h : d.At mem addr) (hd : d.WellFormed) {name text : List UInt8} (hname : FileName name)
    (hfile : d.file name = some text) {k k' : Kernel} {fd : Int}
    (hopen : system_open (init_file_sys mem addr) name k = some (fd, k')) (hfd : fd ≠ -1)
    (calls : List (ℕ × ℕ)) (hsum : (calls.map Prod.snd).sum < 2147483648) :
    ∃ results k₁, system_reads (init_file_sys mem addr) fd calls k' = some (results, k₁) ∧
      results.flatMap Prod.snd = text.take (calls.map Prod.snd).sum ∧
      ∀ result, result ∈ results → result.1 = result.2.length := by
  obtain ⟨e, hfind, hregular⟩ := Option.bind_eq_some_iff.mp hfile
  obtain ⟨htype, hregular⟩ := Option.ite_none_right_eq_some.mp hregular
  obtain ⟨n, hn, rfl⟩ := Option.map_eq_some_iff.mp hregular
  obtain ⟨hi, rfl⟩ := List.getElem?_eq_some_iff.mp hn
  have hmem : d.inodes[e.inode_num.toNat] ∈ d.inodes := List.getElem_mem hi
  have hlookup := h.lookup hname
  rw [hfind, Option.map_some] at hlookup
  obtain ⟨dentry, hdentry, heq⟩ := Option.map_eq_some_iff.mp hlookup
  obtain ⟨hfiletype, hinode⟩ := Prod.mk.inj heq
  have htwo : dentry.filetype = 2 := by
    rw [hfiletype, htype]
    rfl
  have hcount : dentry.inode_num < (init_file_sys mem addr).boot_block.inode_count := by
    rw [hinode, h.inode_count]
    exact hi
  have hword : dentry.inode_num < 4294967296 := by
    rw [hinode]
    exact e.inode_num.toNat_lt
  have hat := fileAt_opened hdentry htwo hword hopen hfd
  obtain ⟨results, k₁, hreads, hthrough⟩ := hat.reads hcount calls (by omega)
  refine ⟨results, k₁, hreads, ?_, hthrough.returned⟩
  have hlen := length_contents hd hmem
  have hino : ((init_file_sys mem addr).inode e.inode_num.toNat).length
      = (d.contents d.inodes[e.inode_num.toNat]).length := by
    rw [hlen]
    exact (h.inode hi).1
  rw [hthrough.delivered, hinode, hino, Nat.sub_zero, h.file_bytes hd hi (Nat.min_le_right _ _)]
  exact List.take_eq_take_iff.mpr (by omega)

/-- What a read of the directory returns and stores for an entry. -/
def listed (e : disk_dentry) : Int × List UInt8 := (FILENAME_LEN, e.filename.toList)

/-- What a read of the directory gives at a counter, and the counter it leaves: it moves on, and goes
back to the first entry where there is no more. -/
def read_at (d : disk) (n : ℕ) : (Int × List UInt8) × ℕ :=
  match d.entries[n]? with
  | some e => (listed e, n + 1)
  | none => ((0, []), 0)

/-- **A read of the directory** returns the entry at the counter and moves the counter on. -/
theorem At.read_directory (h : d.At mem addr) (hd : d.WellFormed) (fd : ℕ) (k : Kernel) :
    (((read_directory (init_file_sys mem addr) fd k).1,
        (read_directory (init_file_sys mem addr) fd k).2.1),
      (read_directory (init_file_sys mem addr) fd k).2.2.dentry_counter)
      = d.read_at k.dentry_counter := by
  have hmax := hd.dir_count
  obtain ⟨hentry, hcounter⟩ := read_directory_eq (init_file_sys mem addr) fd k
  rw [h.dir_count] at hcounter
  unfold entry_at at hentry
  rw [h.dir_count] at hentry
  unfold read_at entries
  rw [List.getElem?_take]
  by_cases hlt : k.dentry_counter < d.dir_count.toNat
  · have hn : k.dentry_counter < DIR_ENTRIES := by omega
    rw [if_pos hlt, Prod.mk.injEq, Control.ret.injEq, (h.direntry hn).2.2] at hentry
    rw [if_pos hlt] at hcounter
    have hget : d.direntries.toList[k.dentry_counter]? = some d.direntries[k.dentry_counter] := by
      rw [List.getElem?_eq_getElem (by rw [Vector.length_toList]; exact hn), Vector.getElem_toList]
    rw [if_pos hlt, hget]
    dsimp only
    rw [hentry.1, hentry.2, hcounter]
    rfl
  · rw [if_neg hlt, Prod.mk.injEq, Control.ret.injEq] at hentry
    rw [if_neg hlt] at hcounter
    rw [if_neg hlt]
    dsimp only
    rw [hentry.1, hentry.2, hcounter]

/-- The same through the descriptor, which stays on the directory. -/
theorem At.system_read (h : d.At mem addr) (hd : d.WellFormed) {k : Kernel} {fd : Int}
    (hdir : reads_directory k fd) (buf n : ℕ) :
    ∃ result k₁, system_read (init_file_sys mem addr) fd buf n k
        = some (.ret result.1, result.2, k₁) ∧ reads_directory k₁ fd ∧
      (result, k₁.dentry_counter) = d.read_at k.dentry_counter := by
  have hkeep : reads_directory (LinuxLikeOS.read_directory (init_file_sys mem addr) fd.toNat k).2.2
      fd := by
    unfold LinuxLikeOS.read_directory
    split <;> exact hdir
  have hentry := h.read_directory hd fd.toNat k
  rw [system_read_directory hdir]
  generalize LinuxLikeOS.read_directory (init_file_sys mem addr) fd.toNat k = r at hkeep hentry ⊢
  obtain ⟨value, bytes, k₁⟩ := r
  exact ⟨(value, bytes), k₁, rfl, hkeep, hentry⟩

/-- The directory from the counter on, and the end behind it. -/
theorem At.lists_from (h : d.At mem addr) (hd : d.WellFormed) {k : Kernel} {fd : Int}
    (hdir : reads_directory k fd) (calls : List (ℕ × ℕ))
    (hcalls : calls.length = (d.entries.drop k.dentry_counter).length + 1) :
    ∃ k₁, system_reads (init_file_sys mem addr) fd calls k
        = some ((d.entries.drop k.dentry_counter).map listed ++ [(0, [])], k₁) ∧
      k₁.dentry_counter = 0 := by
  induction calls generalizing k with
  | nil => cases hcalls
  | cons call calls ih =>
      obtain ⟨buf, n⟩ := call
      obtain ⟨result, k₁, hread, hdir₁, hresult⟩ := h.system_read hd hdir buf n
      have hreads : system_reads (init_file_sys mem addr) fd ((buf, n) :: calls) k
          = (system_reads (init_file_sys mem addr) fd calls k₁).map fun rest =>
              (result :: rest.1, rest.2) := by
        rw [system_reads, hread]
      rw [hreads]
      unfold read_at at hresult
      cases hentry : d.entries[k.dentry_counter]? with
      | none =>
          -- the end of the directory, and of the calls
          rw [hentry, Prod.mk.injEq] at hresult
          have hdrop : d.entries.drop k.dentry_counter = [] :=
            List.drop_eq_nil_of_le (List.getElem?_eq_none_iff.mp hentry)
          rw [hdrop] at hcalls ⊢
          obtain rfl : calls = [] := List.length_eq_zero_iff.mp (Nat.succ.inj hcalls)
          refine ⟨k₁, ?_, hresult.2⟩
          rw [system_reads, Option.map_some, hresult.1, List.map_nil, List.nil_append]
      | some e =>
          rw [hentry, Prod.mk.injEq] at hresult
          obtain ⟨hlt, rfl⟩ := List.getElem?_eq_some_iff.mp hentry
          have hdrop := List.drop_eq_getElem_cons hlt
          rw [hdrop, List.length_cons, List.length_cons, Nat.add_right_cancel_iff] at hcalls
          obtain ⟨k₂, hrest, hend⟩ := ih hdir₁ (by rw [hresult.2]; exact hcalls)
          refine ⟨k₂, ?_, hend⟩
          rw [hrest, Option.map_some, hresult.1, hresult.2, hdrop, List.map_cons, List.cons_append]

end disk

/-- **What is on the disk is what the calls deliver.** The module at an address holds the bytes of a
disk, wherever the disk keeps the blocks of its files. Then a name is looked up as in its directory,
what is read from a file that has been opened are the bytes of the file, however the reads are cut,
a read of the directory returns the entry at the counter and moves the counter on, and so the reads
from the first entry on list the directory in its order, up to its end. -/
theorem disk_read_back {d : disk} {mem : ℕ → UInt8} {addr : ℕ} (hd : d.WellFormed) (h : d.At mem addr) :
    (∀ name, FileName name → (read_dentry_by_name (init_file_sys mem addr) (c_str name)).map
        (fun e => (e.filetype, e.inode_num))
      = (d.find name).map fun e => (e.filetype.toNat, e.inode_num.toNat)) ∧
    (∀ name text, FileName name → d.file name = some text → ∀ k k' fd,
      system_open (init_file_sys mem addr) name k = some (fd, k') → fd ≠ -1 → ∀ calls,
      (calls.map Prod.snd).sum < 2147483648 →
      ∃ results k₁, system_reads (init_file_sys mem addr) fd calls k' = some (results, k₁) ∧
        results.flatMap Prod.snd = text.take (calls.map Prod.snd).sum ∧
        ∀ result, result ∈ results → result.1 = result.2.length) ∧
    (∀ fd k, (((read_directory (init_file_sys mem addr) fd k).1,
        (read_directory (init_file_sys mem addr) fd k).2.1),
      (read_directory (init_file_sys mem addr) fd k).2.2.dentry_counter)
        = d.read_at k.dentry_counter) ∧
    ∀ k fd, reads_directory k fd → k.dentry_counter = 0 → ∀ calls,
      calls.length = d.dir_count.toNat + 1 →
      ∃ k₁, system_reads (init_file_sys mem addr) fd calls k
          = some (d.entries.map disk.listed ++ [(0, [])], k₁) ∧ k₁.dentry_counter = 0 := by
  refine ⟨fun name hname => h.lookup hname, ?_, h.read_directory hd, ?_⟩
  · intro name text hname hfile k k' fd hopen hfd calls hsum
    exact h.reads hd hname hfile hopen hfd calls hsum
  · intro k fd hdir hzero calls hcalls
    have hlen : d.entries.length = d.dir_count.toNat := by
      unfold disk.entries
      rw [List.length_take, Vector.length_toList]
      exact Nat.min_eq_left hd.dir_count
    have hlists := h.lists_from hd hdir calls (by rw [hzero, List.drop_zero, hlen, hcalls])
    rwa [hzero, List.drop_zero] at hlists

/-- A file of two blocks, the second of which comes first on the disk. -/
def demo_disk : disk where
  dir_count := 2
  reserved := Vector.replicate _ 0
  direntries :=
    let name := Vector.replicate FILENAME_LEN 0
    let reserved := Vector.replicate DENTRY_RESERVED_BYTES 0
    ((Vector.replicate DIR_ENTRIES ⟨name, 0, 0, reserved⟩).set 0 ⟨name.set 0 0x2E, 1, 0, reserved⟩).set 1
      ⟨name.set 0 0x62, 2, 0, reserved⟩
  inodes := [⟨4098, (Vector.replicate MAX_INODE_BLOCKS 0).set 0 1⟩]
  blocks := [Vector.replicate _ 0x62, Vector.replicate _ 0x61]

theorem disk_read_back_demo : ∃ k' text, demo_disk.file (ascii "b") = some text ∧
    system_open (init_file_sys (fun i => demo_disk.bytes.getD i 0) 0) (ascii "b") demo = some (2, k') ∧
    ∃ results k₁, system_reads (init_file_sys (fun i => demo_disk.bytes.getD i 0) 0) 2
        [(demo_buf, 4090), (demo_buf, 10)] k' = some (results, k₁) ∧
      results.flatMap Prod.snd = text.take 4100 := by
  have hd : demo_disk.WellFormed := by
    refine ⟨by decide, ?_, ?_⟩
    · intro n hn
      obtain rfl := List.mem_singleton.mp hn
      decide
    · intro n hn j hj hlt
      obtain rfl := List.mem_singleton.mp hn
      have hsmall : j * 4096 < 4098 := hlt
      have htwo : j = 0 ∨ j = 1 := by omega
      rcases htwo with rfl | rfl
      · exact Nat.one_lt_two
      · exact Nat.zero_lt_two
  have hat : demo_disk.At (fun i => demo_disk.bytes.getD i 0) 0 := ⟨holdsAt_getD _ 0, by decide⟩
  have hname : FileName (ascii "b") := by decide
  have hfile : demo_disk.file (ascii "b") = some (demo_disk.contents demo_disk.inodes[0]) := rfl
  obtain ⟨hlookup, hreads, -⟩ := disk_read_back hd hat
  have hfind := hlookup _ hname
  have hentry : (demo_disk.find (ascii "b")).map (fun e => (e.filetype.toNat, e.inode_num.toNat))
      = some (2, 0) := rfl
  rw [hentry] at hfind
  obtain ⟨dentry, hdentry, heq⟩ := Option.map_eq_some_iff.mp hfind
  have hfree : free_fd (get_pcb demo demo.curr_pid) = some 2 := by decide +kernel
  have hopen := system_open_file hdentry (Prod.mk.inj heq).1 hfree
  obtain ⟨results, k₁, hresults, hbytes, -⟩ :=
    hreads _ _ hname hfile _ _ _ hopen (by decide) [(demo_buf, 4090), (demo_buf, 10)] (by decide)
  exact ⟨_, _, hfile, hopen, results, k₁, hresults, hbytes⟩

end LinuxLikeOS
