/-
The two places where the kernel copies blocks with `memcpy`: a page of video memory when the
screen is switched, and the arguments of a process.

The model of these has cells and lists in the place of memory. Here the machine's memory
holds what they stand for, and the assembly of `memcpy` takes it to what the model has next.
-/
import LinuxLikeOS.GetArgs
import LinuxLikeOS.MemOps

set_option autoImplicit false

namespace LinuxLikeOS

open Ia32

section

variable {base : BitVec 16 → BitVec 32} {s : State}

/-! ## Video memory -/

/-- Byte `x` from `VIDEO_ADDR` on: a cell is its character and then its attribute. -/
def video_byte (video : Int → cell) (x : ℕ) : UInt8 :=
  if x % 2 = 0 then (video (x / 2 : ℕ)).character else (video (x / 2 : ℕ)).attrib

/-- The offset of a page: page 0 is on display, and those behind it are the backup pages. -/
def page_addr (p : ℕ) : BitVec 32 := BitVec.ofNat 32 (VIDEO_ADDR + p * ALIGN)

/-- The four pages of video memory hold the cells. -/
def HoldsVideo (base : BitVec 16 → BitVec 32) (s : State) (video : Int → cell) : Prop :=
  ∀ x, x < 4 * ALIGN →
    s.mem (linear base s .ds (BitVec.ofNat 32 (VIDEO_ADDR + x))) = video_byte video x

/-- A page of cells that is copied is a page of bytes that is copied. -/
theorem video_byte_copy_page (video : Int → cell) (p q x : ℕ) :
    video_byte (copy_page (PAGE_CELLS * p) (PAGE_CELLS * q) video) x
      = if p * ALIGN ≤ x ∧ x < p * ALIGN + ALIGN then video_byte video (q * ALIGN + (x - p * ALIGN))
        else video_byte video x := by
  have halign : ALIGN = 4096 := rfl
  have hcells : PAGE_CELLS = 2048 := rfl
  rw [halign]
  unfold video_byte copy_page
  rw [hcells]
  by_cases hin : p * 4096 ≤ x ∧ x < p * 4096 + 4096
  · have hcell : (2048 * (p : Int) ≤ (x / 2 : ℕ)) ∧ ((x / 2 : ℕ) : Int) < 2048 * p + 2048 := by
      omega
    have hsrc : 2048 * (q : Int) + ((x / 2 : ℕ) - 2048 * p)
        = ((q * 4096 + (x - p * 4096)) / 2 : ℕ) := by
      omega
    have hparity : (q * 4096 + (x - p * 4096)) % 2 = x % 2 := by omega
    rw [if_pos hin, if_pos hcell, hsrc, hparity]
  · have hcell : ¬ ((2048 * (p : Int) ≤ (x / 2 : ℕ)) ∧ ((x / 2 : ℕ) : Int) < 2048 * p + 2048) := by
      omega
    rw [if_neg hin, if_neg hcell]

theorem page_addr_add (p i : ℕ) :
    page_addr p + BitVec.ofNat 32 i = BitVec.ofNat 32 (VIDEO_ADDR + (p * ALIGN + i)) := by
  unfold page_addr
  rw [← BitVec.ofNat_add, Nat.add_assoc]

theorem toNat_page_addr {p : ℕ} (hp : p < 4) : (page_addr p).toNat = VIDEO_ADDR + p * ALIGN := by
  have hvideo : VIDEO_ADDR = 753664 := rfl
  have halign : ALIGN = 4096 := rfl
  unfold page_addr
  rw [BitVec.toNat_ofNat, hvideo, halign]
  omega

/-- **A page of video memory** that `memcpy` copies is a page of cells that `copy_page`
copies. -/
theorem memcpy_page {video : Int → cell} {p q : ℕ} (hp : p < 4) (hq : q < 4) (hne : p ≠ q)
    (h : HoldsVideo base s video) :
    ∃ s', Runs base memcpy_asm
        (memcpy_operands (page_addr p) (page_addr q) (BitVec.ofNat 32 ALIGN) s) s' ∧
      s'.seg .ds = s.seg .ds ∧
      HoldsVideo base s' (copy_page (PAGE_CELLS * p) (PAGE_CELLS * q) video) := by
  have hvideo : VIDEO_ADDR = 753664 := rfl
  have halign : ALIGN = 4096 := rfl
  have hlen : (BitVec.ofNat 32 ALIGN).toNat = 4096 := rfl
  have hp' : p * ALIGN = p * 4096 := rfl
  have hq' : q * ALIGN = q * 4096 := rfl
  have hpage := toNat_page_addr hp
  have hpage' := toNat_page_addr hq
  have hdest : (page_addr p).toNat + (BitVec.ofNat 32 ALIGN).toNat ≤ 2 ^ 32 := by omega
  have hsrc : (page_addr q).toNat + (BitVec.ofNat 32 ALIGN).toNat ≤ 2 ^ 32 := by omega
  have hover : NoOverlap (page_addr p) (page_addr q) (BitVec.ofNat 32 ALIGN).toNat := by
    unfold NoOverlap
    omega
  obtain ⟨s', hruns, hdone⟩ := memcpy_runs hdest hsrc hover s
  have hstored := stored_copy_bytes (Nat.le_of_lt (BitVec.ofNat 32 ALIGN).isLt)
    (hover.apart hdest hsrc base s .ds) s.mem
  rw [← hdone.mem, hlen] at hstored
  refine ⟨s', hruns, hdone.ds, fun x hx => ?_⟩
  rw [video_byte_copy_page, linear_congr hdone.ds]
  by_cases hin : p * ALIGN ≤ x ∧ x < p * ALIGN + ALIGN
  · -- a byte of the page is that of the source
    obtain ⟨i, rfl⟩ := Nat.exists_eq_add_of_le hin.1
    have hbyte := hstored.bytes i (by omega)
    rw [← linear_add, ← linear_add, page_addr_add, page_addr_add] at hbyte
    rw [if_pos hin, Nat.add_sub_cancel_left, hbyte]
    exact h _ (by omega)
  · rw [if_neg hin, hstored.others, h x hx]
    intro i hi heq
    rw [← linear_add, page_addr_add] at heq
    have hnat := congrArg BitVec.toNat (BitVec.add_right_inj _ |>.mp heq)
    rw [BitVec.toNat_ofNat, BitVec.toNat_ofNat, Nat.mod_eq_of_lt (by omega),
      Nat.mod_eq_of_lt (by omega)] at hnat
    omega

/-- Two states in which the pages of video memory are the same. -/
def SameVideo (base : BitVec 16 → BitVec 32) (s s' : State) : Prop :=
  ∀ x, x < 4 * ALIGN → s'.mem (linear base s' .ds (BitVec.ofNat 32 (VIDEO_ADDR + x)))
    = s.mem (linear base s .ds (BitVec.ofNat 32 (VIDEO_ADDR + x)))

theorem HoldsVideo.congr {video : Int → cell} {s' : State} (h : HoldsVideo base s video)
    (hsame : SameVideo base s s') : HoldsVideo base s' video :=
  fun x hx => (hsame x hx).trans (h x hx)

theorem backup_page_eq (t : Terminal) : backup_page t = PAGE_CELLS * ((t.val + 1 : ℕ) : Int) := by
  unfold backup_page
  rw [Int.natCast_succ]

/-- **The switch of the screen**: the two calls of `memcpy`, with anything between them that
leaves video memory alone. -/
theorem memcpy_switch_screen {k : Kernel} (t : Terminal) (h : HoldsVideo base s k.video) :
    ∃ s₁, Runs base memcpy_asm (memcpy_operands (page_addr (k.screen_terminal.val + 1))
        (page_addr 0) (BitVec.ofNat 32 ALIGN) s) s₁ ∧
      ∀ s₂, SameVideo base s₁ s₂ → ∃ s₃, Runs base memcpy_asm (memcpy_operands (page_addr 0)
          (page_addr (t.val + 1)) (BitVec.ofNat 32 ALIGN) s₂) s₃ ∧
        HoldsVideo base s₃ (switch_screen t k).video := by
  have hold : k.screen_terminal.val < 3 := k.screen_terminal.isLt
  have hnew : t.val < 3 := t.isLt
  obtain ⟨s₁, hsave, -, hsaved⟩ := memcpy_page (p := k.screen_terminal.val + 1) (q := 0) (by omega)
    (by omega) (by omega) h
  refine ⟨s₁, hsave, fun s₂ hsame => ?_⟩
  obtain ⟨s₃, hload, -, hloaded⟩ := memcpy_page (p := 0) (q := t.val + 1) (by omega) (by omega)
    (by omega) (hsaved.congr hsame)
  have hmain : PAGE_CELLS * ((0 : ℕ) : Int) = 0 := rfl
  rw [hmain, ← backup_page_eq, ← backup_page_eq] at hloaded
  exact ⟨s₃, hload, hloaded⟩

/-! ## Arguments -/

/-- The bytes of the argument pointer of the running process, as many as are asked for. -/
def HoldsArgs (base : BitVec 16 → BitVec 32) (s : State) (k : Kernel) (n : ℕ) : Prop :=
  ∀ i, i < n → s.mem (linear base s .ds (BitVec.ofNat 32 ((get_pcb k k.curr_pid).args + i)))
    = args_text k k.curr_pid i

theorem getargs_text {k : Kernel} {nbytes : Int} (hzero : (system_getargs nbytes k).1 = 0) {i : ℕ}
    (hi : i < u32 nbytes) : c_str (system_getargs nbytes k).2 i = args_text k k.curr_pid i := by
  unfold system_getargs at hzero ⊢
  dsimp only at hzero ⊢
  split
  · rename_i hno
    rw [if_pos hno] at hzero
    cases hzero
  · have hlen : i < ((List.range (u32 nbytes)).map (args_text k k.curr_pid)).length := by
      rw [List.length_map, List.length_range]
      exact hi
    rw [c_str_eq hlen, List.getElem_map, List.getElem_range]

/-- **The arguments of a process**: `memcpy` stores in the caller's buffer what `getargs`
gives, and nothing elsewhere. -/
theorem memcpy_getargs {k : Kernel} {nbytes : Int} {buf : BitVec 32}
    (h : HoldsArgs base s k (u32 nbytes)) (hzero : (system_getargs nbytes k).1 = 0)
    (hargs : (get_pcb k k.curr_pid).args + u32 nbytes ≤ 2 ^ 32)
    (hbuf : buf.toNat + u32 nbytes ≤ 2 ^ 32)
    (hover : NoOverlap buf (BitVec.ofNat 32 (get_pcb k k.curr_pid).args) (u32 nbytes)) :
    ∃ s', Runs base memcpy_asm (memcpy_operands buf
        (BitVec.ofNat 32 (get_pcb k k.curr_pid).args) (BitVec.ofNat 32 (u32 nbytes)) s) s' ∧
      Stored (linear base s .ds buf) (u32 nbytes)
        (c_str (system_getargs nbytes k).2) s.mem s'.mem := by
  have hn : (BitVec.ofNat 32 (u32 nbytes)).toNat = u32 nbytes := by
    have hlt := u32_lt nbytes
    unfold ADDRESS_SPACE at hlt
    rw [BitVec.toNat_ofNat, Nat.mod_eq_of_lt hlt]
  have hsrc : (BitVec.ofNat 32 (get_pcb k k.curr_pid).args).toNat + u32 nbytes ≤ 2 ^ 32 := by
    have hle := Nat.mod_le (get_pcb k k.curr_pid).args (2 ^ 32)
    rw [BitVec.toNat_ofNat]
    omega
  rw [← hn] at hbuf hsrc hover
  obtain ⟨s', hruns, -, hstored⟩ := memcpy_copies hbuf hsrc hover s
  rw [hn] at hstored
  refine ⟨s', hruns, fun i hi => ?_, hstored.others⟩
  have htext := h i hi
  rw [BitVec.ofNat_add, linear_add] at htext
  rw [hstored.bytes i hi, htext, getargs_text hzero hi]

end

end LinuxLikeOS
