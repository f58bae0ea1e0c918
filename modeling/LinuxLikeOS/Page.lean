/-
`page.c`, `page.h` and the page updates of `syscalls.c`: the two-level page
structures, who writes which bits of them, and the translation the processor
reads off them.

A page-directory entry is one 32-bit word behind a union of two packed
structures. The two views are two families of bit fields over the same word
(`pde_kb`, `pde_mb`), and an assignment through one view is visible through the
other exactly as far as their bits overlap. The translation reads the entry the
way the processor does: the page-size bit decides which view holds.
-/
import LinuxLikeOS.BitField
import LinuxLikeOS.CLib
import Mathlib.Logic.Function.Basic

set_option autoImplicit false

namespace LinuxLikeOS

def ALIGN : ℕ := 4096
def PAGE_SIZE : ℕ := 1024
def VIDEO_ADDR : ℕ := 0xB8000
def KERNEL_ADDR : ℕ := 0x400000
def USER_ADDR_INDEX : ℕ := 32
def EIGHT_MB : ℕ := 0x800000
def FOUR_MB : ℕ := 0x400000
def NUM_PROCESSES : ℕ := 6

/-! ## The bit fields -/

namespace pde_kb

def present : BitField := ⟨0, 1⟩
def read_write : BitField := ⟨1, 1⟩
def user_supervisor : BitField := ⟨2, 1⟩
def write_through : BitField := ⟨3, 1⟩
def cache_disabled : BitField := ⟨4, 1⟩
def accessed : BitField := ⟨5, 1⟩
def reserved : BitField := ⟨6, 1⟩
def page_size : BitField := ⟨7, 1⟩
def global : BitField := ⟨8, 1⟩
def avail : BitField := ⟨9, 3⟩
def base_addr : BitField := ⟨12, 20⟩

end pde_kb

namespace pde_mb

def present : BitField := ⟨0, 1⟩
def read_write : BitField := ⟨1, 1⟩
def user_supervisor : BitField := ⟨2, 1⟩
def write_through : BitField := ⟨3, 1⟩
def cache_disabled : BitField := ⟨4, 1⟩
def accessed : BitField := ⟨5, 1⟩
def dirty : BitField := ⟨6, 1⟩
def page_size : BitField := ⟨7, 1⟩
def global : BitField := ⟨8, 1⟩
def avail : BitField := ⟨9, 3⟩
def attr_idx : BitField := ⟨12, 1⟩
def reserved : BitField := ⟨13, 9⟩
def base_addr : BitField := ⟨22, 10⟩

end pde_mb

namespace pte

def present : BitField := ⟨0, 1⟩
def read_write : BitField := ⟨1, 1⟩
def user_supervisor : BitField := ⟨2, 1⟩
def write_through : BitField := ⟨3, 1⟩
def cache_disabled : BitField := ⟨4, 1⟩
def accessed : BitField := ⟨5, 1⟩
def dirty : BitField := ⟨6, 1⟩
def attr_idx : BitField := ⟨7, 1⟩
def global : BitField := ⟨8, 1⟩
def avail : BitField := ⟨9, 3⟩
def base_addr : BitField := ⟨12, 20⟩

end pte

/-! ## The page structures -/

/-- The three tables of `page.h`. -/
structure Paging where
  page_directory : ℕ → BitVec 32
  page_table : ℕ → BitVec 32
  vid_map : ℕ → BitVec 32

/-- What the linker and the rest of memory decide: where the two second-level
tables and the string literal of `system_execute` lie, how many bytes behind the
literal hold nothing else the kernel uses (4756 in the repository's `bootimg`: the
strings of the tests and zeros, up to `master_mask`), and what any other page frame
would hold if the processor read it as a page table. -/
structure Linkage where
  page_table : ℕ
  vid_map : ℕ
  empty_string : ℕ
  args_room : ℕ
  other_frame : ℕ → ℕ → BitVec 32
  page_table_aligned : page_table % ALIGN = 0
  vid_map_aligned : vid_map % ALIGN = 0
  page_table_lt : page_table < ADDRESS_SPACE
  vid_map_lt : vid_map < ADDRESS_SPACE
  page_table_ne_vid_map : page_table ≠ vid_map

/-- The default directory entry of `init_page`, assigned field by field. -/
def blank_pde (e : BitVec 32) : BitVec 32 :=
  let e := pde_mb.present.set 0 e
  let e := pde_mb.read_write.set 1 e
  let e := pde_mb.user_supervisor.set 0 e
  let e := pde_mb.write_through.set 0 e
  let e := pde_mb.cache_disabled.set 0 e
  let e := pde_mb.accessed.set 0 e
  let e := pde_mb.dirty.set 0 e
  let e := pde_mb.page_size.set 1 e
  let e := pde_mb.global.set 0 e
  let e := pde_mb.avail.set 0 e
  let e := pde_mb.attr_idx.set 0 e
  let e := pde_mb.reserved.set 0 e
  pde_mb.base_addr.set 0 e

/-- Directory entry 0, which points to `page_table`. -/
def low_memory_pde (link : Linkage) (e : BitVec 32) : BitVec 32 :=
  let e := pde_kb.present.set 1 e
  let e := pde_kb.read_write.set 1 e
  let e := pde_kb.user_supervisor.set 0 e
  let e := pde_kb.write_through.set 0 e
  let e := pde_kb.cache_disabled.set 0 e
  let e := pde_kb.accessed.set 0 e
  let e := pde_kb.reserved.set 0 e
  let e := pde_kb.page_size.set 0 e
  let e := pde_kb.global.set 0 e
  let e := pde_kb.avail.set 0 e
  pde_kb.base_addr.set (link.page_table >>> 12) e

/-- Directory entry 1, the kernel page, on top of the default entry. -/
def kernel_pde (e : BitVec 32) : BitVec 32 :=
  let e := pde_mb.present.set 1 e
  pde_mb.base_addr.set (KERNEL_ADDR >>> 22) e

/-- The default entry `i` of the two second-level tables. -/
def blank_pte (i : ℕ) (e : BitVec 32) : BitVec 32 :=
  let e := pte.present.set 0 e
  let e := pte.read_write.set 1 e
  let e := pte.user_supervisor.set 0 e
  let e := pte.write_through.set 0 e
  let e := pte.cache_disabled.set 0 e
  let e := pte.accessed.set 0 e
  let e := pte.dirty.set 0 e
  let e := pte.attr_idx.set 0 e
  let e := pte.global.set 0 e
  let e := pte.avail.set 0 e
  pte.base_addr.set i e

/-- `init_page`. Its two loops assign entry `i` in iteration `i` and read no other
entry, so they are written entry by entry. -/
def init_page (link : Linkage) (pg : Paging) : Paging where
  page_directory i :=
    if i = 0 then low_memory_pde link (pg.page_directory 0)
    else if i = 1 then kernel_pde (blank_pde (pg.page_directory 1))
    else if i < PAGE_SIZE then blank_pde (pg.page_directory i)
    else pg.page_directory i
  page_table i :=
    let mem := VIDEO_ADDR / ALIGN
    let e := if i < PAGE_SIZE then blank_pte i (pg.page_table i) else pg.page_table i
    if i = mem ∨ i = mem + 1 ∨ i = mem + 2 ∨ i = mem + 3 then pte.present.set 1 e else e
  vid_map i := if i < PAGE_SIZE then blank_pte i (pg.vid_map i) else pg.vid_map i

/-- The entry `process_page` leaves for a valid process. -/
def process_pde (process_id : Int) (e : BitVec 32) : BitVec 32 :=
  let e := pde_mb.present.set 1 e
  let e := pde_mb.base_addr.set ((EIGHT_MB + FOUR_MB * process_id).toNat >>> 22) e
  let e := pde_mb.user_supervisor.set 1 e
  pde_mb.global.set 1 e

def process_page (process_id : Int) (pg : Paging) : Paging :=
  if 0 ≤ process_id ∧ process_id < NUM_PROCESSES then
    { pg with
      page_directory := Function.update pg.page_directory USER_ADDR_INDEX
        (process_pde process_id (pg.page_directory USER_ADDR_INDEX)) }
  else pg

/-- `vid_map[0].base_addr = page`. -/
def set_vid_map_base (page : ℕ) (pg : Paging) : Paging :=
  { pg with vid_map := Function.update pg.vid_map 0 (pte.base_addr.set page (pg.vid_map 0)) }

/-- The page updates of `system_vidmap`. -/
def vidmap_pde (link : Linkage) (e : BitVec 32) : BitVec 32 :=
  let e := pde_kb.page_size.set 0 e
  let e := pde_kb.present.set 1 e
  let e := pde_kb.base_addr.set (link.vid_map >>> 12) e
  let e := pde_kb.user_supervisor.set 1 e
  pde_kb.global.set 1 e

def vidmap_pages (link : Linkage) (pg : Paging) : Paging :=
  { pg with
    page_directory := Function.update pg.page_directory (USER_ADDR_INDEX + 1)
      (vidmap_pde link (pg.page_directory (USER_ADDR_INDEX + 1)))
    vid_map := Function.update pg.vid_map 0
      (pte.base_addr.set (VIDEO_ADDR / ALIGN)
        (pte.user_supervisor.set 1 (pte.present.set 1 (pg.vid_map 0)))) }

/-! ## Translation -/

/-- Where a linear address goes, and whether user code may go there. -/
structure Translation where
  phys : ℕ
  user : Bool
  deriving DecidableEq

/-- The page table in a frame: one of the two of the kernel, or whatever the frame
holds. -/
def table_at (link : Linkage) (pg : Paging) (frame : ℕ) : ℕ → BitVec 32 :=
  if frame = link.page_table / ALIGN then pg.page_table
  else if frame = link.vid_map / ALIGN then pg.vid_map
  else link.other_frame frame

/-- The page walk of the processor: the directory entry selects a 4 MB page or a
page table; an entry that is not present ends the walk, and user code needs the
user bit of every entry on the way. -/
def translate (link : Linkage) (pg : Paging) (addr : ℕ) : Option Translation :=
  let pde := pg.page_directory (addr >>> 22)
  if pde_kb.present.get pde = 0 then none
  else if pde_kb.page_size.get pde = 1 then
    some ⟨pde_mb.base_addr.get pde * FOUR_MB + addr % FOUR_MB,
      pde_mb.user_supervisor.get pde = 1⟩
  else
    let entry := table_at link pg (pde_kb.base_addr.get pde) ((addr >>> 12) % PAGE_SIZE)
    if pte.present.get entry = 0 then none
    else some ⟨pte.base_addr.get entry * ALIGN + addr % ALIGN,
      pde_kb.user_supervisor.get pde = 1 ∧ pte.user_supervisor.get entry = 1⟩

/-! ## What the entries hold

One lemma for each entry and each field the translation reads. The page-size, present
and user bits are the same bits in both views. -/

section Entries

open BitField

theorem blank_pde_page_size (e : BitVec 32) : pde_kb.page_size.get (blank_pde e) = 1 := by
  show pde_mb.page_size.get (blank_pde e) = 1
  simp (disch := decide) only [blank_pde, get_set_of_disjoint, get_set_self]
  decide

theorem blank_pde_present (e : BitVec 32) : pde_kb.present.get (blank_pde e) = 0 := by
  show pde_mb.present.get (blank_pde e) = 0
  simp (disch := decide) only [blank_pde, get_set_of_disjoint, get_set_self]
  decide

theorem blank_pde_user (e : BitVec 32) : pde_kb.user_supervisor.get (blank_pde e) = 0 := by
  show pde_mb.user_supervisor.get (blank_pde e) = 0
  simp (disch := decide) only [blank_pde, get_set_of_disjoint, get_set_self]
  decide

theorem low_memory_pde_user (link : Linkage) (e : BitVec 32) :
    pde_kb.user_supervisor.get (low_memory_pde link e) = 0 := by
  simp (disch := decide) only [low_memory_pde, get_set_of_disjoint, get_set_self]
  decide

theorem kernel_pde_user (e : BitVec 32) :
    pde_kb.user_supervisor.get (kernel_pde e) = pde_kb.user_supervisor.get e := by
  simp (disch := decide) only [kernel_pde, get_set_of_disjoint]

theorem blank_pte_present (i : ℕ) (e : BitVec 32) : pte.present.get (blank_pte i e) = 0 := by
  simp (disch := decide) only [blank_pte, get_set_of_disjoint, get_set_self]
  decide

theorem blank_pte_base_addr (i : ℕ) (e : BitVec 32) :
    pte.base_addr.get (blank_pte i e) = i % 2 ^ 20 := by
  simp (disch := decide) only [blank_pte, get_set_self]
  rfl

variable (p : Int) (link : Linkage) (e : BitVec 32)

theorem process_pde_present : pde_kb.present.get (process_pde p e) = 1 := by
  show pde_mb.present.get (process_pde p e) = 1
  simp (disch := decide) only [process_pde, get_set_of_disjoint, get_set_self]
  decide

theorem process_pde_page_size :
    pde_kb.page_size.get (process_pde p e) = pde_kb.page_size.get e := by
  simp (disch := decide) only [process_pde, get_set_of_disjoint]

theorem process_pde_user : pde_mb.user_supervisor.get (process_pde p e) = 1 := by
  simp (disch := decide) only [process_pde, get_set_of_disjoint, get_set_self]
  decide

/-- The frame of a process is the one at `8 MB + 4 MB * p`, counted in 4 MB. -/
theorem process_pde_base_addr {p : Int} (h₀ : 0 ≤ p) (h₆ : p < NUM_PROCESSES) :
    pde_mb.base_addr.get (process_pde p e) = 2 + p.toNat := by
  have hget : pde_mb.base_addr.get (process_pde p e)
      = ((EIGHT_MB + FOUR_MB * p).toNat >>> 22) % 2 ^ pde_mb.base_addr.len := by
    simp (disch := decide) only [process_pde, get_set_of_disjoint, get_set_self]
  have hframe : (EIGHT_MB + FOUR_MB * p : Int).toNat = (2 + p.toNat) * 2 ^ 22 := by
    have h8 : (EIGHT_MB : Int) = 8388608 := rfl
    have h4 : (FOUR_MB : Int) = 4194304 := rfl
    rw [h8, h4]
    omega
  have hlen : pde_mb.base_addr.len = 10 := rfl
  have hsix : (NUM_PROCESSES : Int) = 6 := rfl
  rw [hget, hframe, Nat.shiftRight_eq_div_pow, Nat.mul_div_cancel _ (by decide), hlen]
  exact Nat.mod_eq_of_lt (by omega)

theorem vidmap_pde_page_size : pde_kb.page_size.get (vidmap_pde link e) = 0 := by
  simp (disch := decide) only [vidmap_pde, get_set_of_disjoint, get_set_self]
  decide

/-- The address of the table fits the field: it is a multiple of the page size. -/
theorem vidmap_pde_base_addr :
    pde_kb.base_addr.get (vidmap_pde link e) = link.vid_map / ALIGN := by
  have hget : pde_kb.base_addr.get (vidmap_pde link e)
      = (link.vid_map >>> 12) % 2 ^ pde_kb.base_addr.len := by
    simp (disch := decide) only [vidmap_pde, get_set_of_disjoint, get_set_self]
  have hlt := link.vid_map_lt
  have hlen : pde_kb.base_addr.len = 20 := rfl
  have hspace : ADDRESS_SPACE = 4294967296 := rfl
  have halign : ALIGN = 2 ^ 12 := rfl
  rw [hget, Nat.shiftRight_eq_div_pow, hlen, halign, Nat.mod_eq_of_lt]
  omega

theorem pte_base_addr_get_set (page : ℕ) :
    pte.base_addr.get (pte.base_addr.set page e) = page % 2 ^ 20 :=
  get_set_self _ _ _ (by decide)

end Entries

/-- `process_page` writes the directory only. -/
theorem process_page_vid_map (p : Int) (pg : Paging) : (process_page p pg).vid_map = pg.vid_map := by
  unfold process_page
  split <;> rfl

/-! ## The user page -/

/-- Directory entry 32 maps the frame of a process, as one 4 MB page of user memory. -/
structure UserPage (pg : Paging) (p : ℕ) : Prop where
  present : pde_kb.present.get (pg.page_directory USER_ADDR_INDEX) = 1
  page_size : pde_kb.page_size.get (pg.page_directory USER_ADDR_INDEX) = 1
  user : pde_mb.user_supervisor.get (pg.page_directory USER_ADDR_INDEX) = 1
  base_addr : pde_mb.base_addr.get (pg.page_directory USER_ADDR_INDEX) = 2 + p

/-- `process_page` maps the frame of a valid process, if the entry is a 4 MB entry. -/
theorem UserPage.process_page {pg : Paging} {p : ℕ} (hp : p < NUM_PROCESSES)
    (hsize : pde_kb.page_size.get (pg.page_directory USER_ADDR_INDEX) = 1) :
    UserPage (process_page p pg) p := by
  have hvalid : 0 ≤ (p : Int) ∧ (p : Int) < NUM_PROCESSES := by omega
  have hentry : (LinuxLikeOS.process_page p pg).page_directory USER_ADDR_INDEX
      = process_pde p (pg.page_directory USER_ADDR_INDEX) := by
    rw [LinuxLikeOS.process_page, if_pos hvalid]
    simp only [Function.update_self]
  constructor <;> rw [hentry]
  · exact process_pde_present _ _
  · rw [process_pde_page_size, hsize]
  · exact process_pde_user _ _
  · rw [process_pde_base_addr _ hvalid.1 hvalid.2, Int.toNat_natCast]

theorem UserPage.congr {pg pg' : Paging} {p : ℕ} (h : UserPage pg p)
    (heq : pg'.page_directory USER_ADDR_INDEX = pg.page_directory USER_ADDR_INDEX) :
    UserPage pg' p := by
  constructor <;> rw [heq]
  · exact h.present
  · exact h.page_size
  · exact h.user
  · exact h.base_addr

/-- Every user address translates into the frame of the process. -/
theorem UserPage.translate {pg : Paging} {p off : ℕ} (h : UserPage pg p) (link : Linkage)
    (hoff : off < FOUR_MB) :
    translate link pg (USER_ADDR_INDEX * FOUR_MB + off)
      = some ⟨EIGHT_MB + FOUR_MB * p + off, true⟩ := by
  have h4 : FOUR_MB = 4194304 := rfl
  have h8 : EIGHT_MB = 8388608 := rfl
  have hstart : USER_ADDR_INDEX * FOUR_MB = 134217728 := rfl
  have hindex : (USER_ADDR_INDEX * FOUR_MB + off) >>> 22 = USER_ADDR_INDEX := by
    have h32 : USER_ADDR_INDEX = 32 := rfl
    rw [Nat.shiftRight_eq_div_pow, hstart, h32]
    omega
  have hmod : (USER_ADDR_INDEX * FOUR_MB + off) % FOUR_MB = off := by
    rw [hstart, h4]
    omega
  have hframe : (2 + p) * FOUR_MB + off = EIGHT_MB + FOUR_MB * p + off := by
    rw [h4, h8]
    omega
  unfold LinuxLikeOS.translate
  simp only [hindex, hmod, h.present, h.page_size, h.user, h.base_addr, hframe, if_true,
    Nat.one_ne_zero, if_false, decide_true]

end LinuxLikeOS
