/-
What a `read` stores in the caller's buffer.

Four handlers are reached through the operation pointer, and each has its own way with
`nbytes`. The terminal's tests it and cuts it to the line buffer, the clock's stores
nothing. The file's converts it to an unsigned length, so a negative one reads almost
4 GB. The directory's does not look at it, and always stores the 32 bytes of a name.
-/
import LinuxLikeOS.FileData
import LinuxLikeOS.FileOps
import LinuxLikeOS.Lines

set_option autoImplicit false

namespace LinuxLikeOS

open Kernel Transition

/-! ## The property -/

/-- The end of a `read` that had to wait: the value returned, the buffer and the kernel.
`RTC_read` returns 0 and stores nothing. -/
def read_end (ops : fops_ptr) (nbytes : Int) (buf : ℕ → UInt8) (k : Kernel) :
    ℕ × (ℕ → UInt8) × Kernel :=
  match ops with
  | .term_read_ops => terminal_read_end nbytes buf k
  | _ => (0, buf, k)

/-- The descriptor a call names, of the running process. -/
def named_fd (k : Kernel) (fd : Int) : fd_t := table k k.curr_pid fd.toNat

/-- The descriptor passes the test of `system_read`. -/
def readable (k : Kernel) (fd : Int) : Prop :=
  (0 ≤ fd ∧ fd < FILE_DESCRIPTOR_MAX ∧ fd ≠ 1) ∧ (named_fd k fd).in_use

instance (k : Kernel) (fd : Int) : Decidable (readable k fd) := inferInstanceAs (Decidable (_ ∧ _))

/-- A call of `read` stores into `buf[0 .. nbytes)` only, and returns `-1` or a number of
bytes up to `nbytes`; a call that waits does so whenever its wait ends. -/
structure ReadContained (fs : file_sys) (fd : Int) (buf : ℕ) (nbytes : Int) (k : Kernel) : Prop where
  stored : ∀ c bytes k', system_read fs fd buf nbytes k = some (c, bytes, k') →
    bytes.length ≤ nbytes.toNat
  returned : ∀ r bytes k', system_read fs fd buf nbytes k = some (.ret r, bytes, k') →
    r = -1 ∨ (0 ≤ r ∧ r ≤ nbytes.toNat)
  waited : ∀ bytes k', system_read fs fd buf nbytes k = some (.wait, bytes, k') →
    ∀ k₁ mem, (read_end (named_fd k fd).file_op_table_ptr nbytes mem k₁).1 ≤ nbytes.toNat ∧
      ∀ i, nbytes.toNat ≤ i →
        (read_end (named_fd k fd).file_op_table_ptr nbytes mem k₁).2.1 i = mem i

/-- A directory that has an entry left is read with room for a name, and a file that has
bytes left is read with a length that is not negative. -/
def ReadFits (fs : file_sys) (fd nbytes : Int) (k : Kernel) : Prop :=
  readable k fd →
    ((named_fd k fd).file_op_table_ptr = .dir_ops →
      (FILENAME_LEN : Int) ≤ nbytes ∨ fs.boot_block.dir_count ≤ k.dentry_counter) ∧
    ((named_fd k fd).file_op_table_ptr = .file_ops →
      0 ≤ nbytes ∨ fs.boot_block.inode_count ≤ u32 (named_fd k fd).inode ∨
        (fs.inode (u32 (named_fd k fd).inode)).length ≤ u32 (named_fd k fd).file_pos)

/-- A readable descriptor is read by the handler of its table. -/
theorem system_read_readable (fs : file_sys) {fd : Int} (buf : ℕ) (nbytes : Int) {k : Kernel}
    {ops : fops_ptr} (h : readable k fd) (hops : (named_fd k fd).file_op_table_ptr = ops) :
    system_read fs fd buf nbytes k = fops_read fs ops fd.toNat buf nbytes k := by
  rw [← hops]
  unfold system_read
  exact if_pos h

/-! ## The terminal -/

/-- The copy loop stores at its own indices and counts at most one byte for each. -/
theorem read_loop_within (ti : terminal_info_t) (m i numbytes : ℕ) (buf : ℕ → UInt8) :
    (read_loop ti m i numbytes buf).numbytes ≤ numbytes + m ∧
      (∀ j, i + m ≤ j → (read_loop ti m i numbytes buf).buf j = buf j) ∧
      ((read_loop ti m i numbytes buf).enterAtEnd = false →
        (read_loop ti m i numbytes buf).i = i + m) := by
  induction m generalizing i numbytes buf with
  | zero => exact ⟨Nat.le_refl _, fun _ _ => rfl, fun _ => rfl⟩
  | succ m ih =>
      rw [read_loop]
      -- one iteration stores at `i` or not at all
      have hnum : (if i < ti.buffer_size then numbytes + 1 else numbytes) ≤ numbytes + 1 := by
        split <;> omega
      have hbuf : ∀ j, j ≠ i →
          (if i < ti.buffer_size then Function.update buf i (ti.buffer i) else buf) j = buf j := by
        intro j hj
        split
        · exact Function.update_of_ne hj _ _
        · rfl
      generalize (if i < ti.buffer_size then numbytes + 1 else numbytes) = numbytes' at hnum ⊢
      generalize (if i < ti.buffer_size then Function.update buf i (ti.buffer i) else buf) = buf'
        at hbuf ⊢
      split
      · exact ⟨by dsimp only; omega, fun j hj => hbuf j (by omega), fun h => by cases h⟩
      · obtain ⟨h₁, h₂, h₃⟩ := ih (i + 1) numbytes' buf'
        refine ⟨by omega, fun j hj => ?_, fun h => ?_⟩
        · rw [h₂ j (by omega), hbuf j (by omega)]
        · rw [h₃ h]
          omega

/-- **The reader of a line** stays within the bytes asked for. -/
theorem terminal_read_end_within {nbytes : Int} (hpos : 0 < nbytes) (buf : ℕ → UInt8) (k : Kernel) :
    (terminal_read_end nbytes buf k).1 ≤ nbytes.toNat ∧
      ∀ i, nbytes.toNat ≤ i → (terminal_read_end nbytes buf k).2.1 i = buf i := by
  have hmax : MAX_BUF_SIZE = 128 := rfl
  unfold terminal_read_end
  extract_lets t ti true_bytes r buf' k₁
  have htrue : 0 < true_bytes ∧ true_bytes ≤ nbytes.toNat := by
    show 0 < (if (MAX_BUF_SIZE : Int) < nbytes then MAX_BUF_SIZE else nbytes.toNat) ∧
      (if (MAX_BUF_SIZE : Int) < nbytes then MAX_BUF_SIZE else nbytes.toNat) ≤ nbytes.toNat
    split <;> omega
  obtain ⟨hnum, hbuf, hindex⟩ := read_loop_within ti true_bytes 0 0 buf
  rw [Nat.zero_add] at hnum
  refine ⟨Nat.le_trans hnum htrue.2, fun i hi => ?_⟩
  have hloop : r.buf i = buf i := hbuf i (by omega)
  show buf' i = buf i
  rw [← hloop]
  show (if r.enterAtEnd = false ∧ r.i < ti.buffer_size ∧ r.buf (r.i - 1) ≠ END_OF_LINE then
    Function.update r.buf (r.i - 1) END_OF_LINE else r.buf) i = r.buf i
  split
  · rename_i hcut
    -- the last byte that was copied takes the line break
    have hri : r.i = 0 + true_bytes := hindex hcut.1
    exact Function.update_of_ne (by omega) _ _
  · rfl

/-! ## Files -/

/-- The clipping test never lengthens a read, and leaves something of one that begins
inside the file. -/
theorem clipped_le {ino : inode_t} {offset length : ℕ} (hin : offset < ino.length)
    (hlength : length < 4294967296) :
    clipped ino offset length ≤ length ∧ (0 < length → 0 < clipped ino offset length) := by
  unfold clipped
  split
  · rename_i hclip
    refine ⟨?_, fun _ => by omega⟩
    -- a sum that wraps is smaller than the offset, and would not be clipped
    unfold u32 at hclip
    omega
  · exact ⟨Nat.le_refl _, id⟩

theorem read_file_eq (fs : file_sys) {fd : Int} (hfd : 0 ≤ fd ∧ fd < FILE_DESCRIPTOR_MAX)
    (nbytes : Int) (k : Kernel) : ∃ k', read_file fs fd.toNat nbytes k
      = ((read_data fs (u32 (named_fd k fd).inode) (u32 (named_fd k fd).file_pos) (u32 nbytes)).1,
        (read_data fs (u32 (named_fd k fd).inode) (u32 (named_fd k fd).file_pos) (u32 nbytes)).2,
        k') := by
  unfold read_file
  rw [if_neg (by omega)]
  exact ⟨_, rfl⟩

/-- A read of a file with a length that is not negative stores and returns no more. -/
theorem read_data_within (fs : file_sys) (inode_num offset : ℕ) {nbytes : Int} (h₀ : 0 ≤ nbytes)
    (h₁ : nbytes < 2147483648) :
    (read_data fs inode_num offset (u32 nbytes)).2.length ≤ nbytes.toNat ∧
      ((read_data fs inode_num offset (u32 nbytes)).1 = -1 ∨
        (0 ≤ (read_data fs inode_num offset (u32 nbytes)).1 ∧
          (read_data fs inode_num offset (u32 nbytes)).1 ≤ nbytes.toNat)) := by
  have hlen : u32 nbytes = nbytes.toNat := by
    unfold u32
    omega
  rw [hlen]
  rcases Nat.lt_or_ge inode_num fs.boot_block.inode_count with hino | hino
  · rcases Nat.lt_or_ge offset (fs.inode inode_num).length with hin | hend
    · have hle : clipped (fs.inode inode_num) offset nbytes.toNat ≤ nbytes.toNat :=
        (clipped_le hin (by omega)).1
      rw [read_data_inside hino hin, i32_of_lt (by omega)]
      dsimp only
      rw [length_file_bytes]
      exact ⟨hle, Or.inr ⟨by omega, by omega⟩⟩
    · rw [read_data_at_end hino hend]
      exact ⟨Nat.zero_le _, Or.inr ⟨Int.le_refl 0, Int.natCast_nonneg _⟩⟩
  · rw [read_data_of_bad_inode hino]
    exact ⟨Nat.zero_le _, Or.inl rfl⟩

/-- With a negative one it stores something, when there is something. -/
theorem read_data_negative {fs : file_sys} {inode_num offset : ℕ} {nbytes : Int}
    (hneg : nbytes < 0) (hlow : -2147483648 ≤ nbytes)
    (hino : inode_num < fs.boot_block.inode_count) (hin : offset < (fs.inode inode_num).length) :
    nbytes.toNat < (read_data fs inode_num offset (u32 nbytes)).2.length := by
  have hlen : 0 < u32 nbytes ∧ u32 nbytes < 4294967296 := by
    unfold u32
    omega
  rw [read_data_inside hino hin]
  dsimp only
  rw [length_file_bytes]
  have hpos := (clipped_le hin hlen.2).2 hlen.1
  omega

/-! ## The condition is exact -/

/-- A call that returns at once is contained when its bytes and its value are. -/
theorem readContained_of_ret {fs : file_sys} {fd : Int} {buf : ℕ} {nbytes n : Int} {k k' : Kernel}
    {bytes : List UInt8} (h : system_read fs fd buf nbytes k = some (.ret n, bytes, k')) :
    ReadContained fs fd buf nbytes k ↔
      bytes.length ≤ nbytes.toNat ∧ (n = -1 ∨ (0 ≤ n ∧ n ≤ nbytes.toNat)) := by
  constructor
  · exact fun hc => ⟨hc.stored _ _ _ h, hc.returned _ _ _ h⟩
  · rintro ⟨hbytes, hn⟩
    constructor
    · intro c bytes' k'' h'
      rw [h, Option.some.injEq, Prod.mk.injEq, Prod.mk.injEq] at h'
      exact h'.2.1 ▸ hbytes
    · intro r bytes' k'' h'
      rw [h, Option.some.injEq, Prod.mk.injEq, Control.ret.injEq] at h'
      exact h'.1 ▸ hn
    · intro bytes' k'' h'
      rw [h, Option.some.injEq, Prod.mk.injEq] at h'
      exact nomatch h'.1

/-- A call that waits stores nothing before. -/
theorem readContained_of_wait {fs : file_sys} {fd : Int} {buf : ℕ} {nbytes : Int} {k k' : Kernel}
    (h : system_read fs fd buf nbytes k = some (.wait, [], k'))
    (hend : ∀ k₁ mem, (read_end (named_fd k fd).file_op_table_ptr nbytes mem k₁).1 ≤ nbytes.toNat ∧
      ∀ i, nbytes.toNat ≤ i →
        (read_end (named_fd k fd).file_op_table_ptr nbytes mem k₁).2.1 i = mem i) :
    ReadContained fs fd buf nbytes k := by
  constructor
  · intro c bytes' k'' h'
    rw [h, Option.some.injEq, Prod.mk.injEq, Prod.mk.injEq] at h'
    rw [← h'.2.1]
    exact Nat.zero_le _
  · intro r bytes' k'' h'
    rw [h, Option.some.injEq, Prod.mk.injEq] at h'
    exact nomatch h'.1
  · exact fun _ _ _ => hend

theorem readContained_of_none {fs : file_sys} {fd : Int} {buf : ℕ} {nbytes : Int} {k : Kernel}
    (h : system_read fs fd buf nbytes k = none) : ReadContained fs fd buf nbytes k := by
  constructor
  · intro c bytes k' h'
    rw [h] at h'
    cases h'
  · intro r bytes k' h'
    rw [h] at h'
    cases h'
  · intro bytes k' h'
    rw [h] at h'
    cases h'

section

variable {fs : file_sys} {fd : Int} {buf : ℕ} {nbytes : Int} {k : Kernel}

/-- The handlers that are not of a directory or a file meet no condition. -/
theorem readFits_of_ne (hdir : (named_fd k fd).file_op_table_ptr ≠ .dir_ops)
    (hfile : (named_fd k fd).file_op_table_ptr ≠ .file_ops) : ReadFits fs fd nbytes k :=
  fun _ => ⟨fun h => absurd h hdir, fun h => absurd h hfile⟩

theorem terminal_contained (hfd : readable k fd)
    (hops : (named_fd k fd).file_op_table_ptr = .term_read_ops) :
    ReadContained fs fd buf nbytes k := by
  have hcall := system_read_readable fs buf nbytes hfd hops
  rcases terminal_read_begin_cases buf nbytes k with ⟨-, hret⟩ | ⟨⟨-, hbytes⟩, hwait⟩
  · rw [fops_read, hret] at hcall
    exact (readContained_of_ret hcall).mpr ⟨Nat.zero_le _, Or.inl rfl⟩
  · rw [fops_read, hwait] at hcall
    apply readContained_of_wait hcall
    intro k₁ mem
    rw [hops]
    exact terminal_read_end_within hbytes mem k₁

theorem clock_contained (hfd : readable k fd)
    (hops : (named_fd k fd).file_op_table_ptr = .rtc_ops) : ReadContained fs fd buf nbytes k := by
  have hcall := system_read_readable fs buf nbytes hfd hops
  apply readContained_of_wait hcall
  intro k₁ mem
  rw [hops]
  exact ⟨Nat.zero_le _, fun _ _ => rfl⟩

theorem directory_contained_iff (hfd : readable k fd)
    (hops : (named_fd k fd).file_op_table_ptr = .dir_ops) :
    ReadContained fs fd buf nbytes k ↔
      (FILENAME_LEN : Int) ≤ nbytes ∨ fs.boot_block.dir_count ≤ k.dentry_counter := by
  have hname : FILENAME_LEN = 32 := rfl
  have hcall := system_read_readable fs buf nbytes hfd hops
  by_cases hend : fs.boot_block.dir_count ≤ k.dentry_counter
  · have hret : read_directory fs fd.toNat k = (0, [], { k with dentry_counter := 0 }) :=
      if_pos hend
    rw [fops_read, hret] at hcall
    exact iff_of_true ((readContained_of_ret hcall).mpr
      ⟨Nat.zero_le _, Or.inr ⟨Int.le_refl 0, Int.natCast_nonneg _⟩⟩) (Or.inr hend)
  · obtain ⟨bytes, hlen, k', hret⟩ : ∃ bytes : List UInt8, bytes.length = FILENAME_LEN ∧
        ∃ k', read_directory fs fd.toNat k = (((FILENAME_LEN : ℕ) : Int), bytes, k') := by
      refine ⟨_, ?_, _, if_neg hend⟩
      rw [List.length_map, List.length_range]
    rw [fops_read, hret] at hcall
    rw [readContained_of_ret hcall, hlen]
    -- the 32 bytes are the value returned as well
    constructor
    · rintro ⟨hle, -⟩
      exact Or.inl (by omega)
    · rintro (hle | hend')
      · exact ⟨by omega, Or.inr ⟨by omega, by omega⟩⟩
      · exact absurd hend' hend

theorem file_contained_iff (hfd : readable k fd)
    (hops : (named_fd k fd).file_op_table_ptr = .file_ops) (hlow : -2147483648 ≤ nbytes)
    (hhigh : nbytes < 2147483648) :
    ReadContained fs fd buf nbytes k ↔
      0 ≤ nbytes ∨ fs.boot_block.inode_count ≤ u32 (named_fd k fd).inode ∨
        (fs.inode (u32 (named_fd k fd).inode)).length ≤ u32 (named_fd k fd).file_pos := by
  have hcall := system_read_readable fs buf nbytes hfd hops
  obtain ⟨k', hread⟩ := read_file_eq fs ⟨hfd.1.1, hfd.1.2.1⟩ nbytes k
  rw [fops_read, hread] at hcall
  rw [readContained_of_ret hcall]
  constructor
  · rintro ⟨hle, -⟩
    by_contra hno
    rw [not_or, not_or] at hno
    have hlt := read_data_negative (by omega) hlow (Nat.lt_of_not_ge hno.2.1)
      (Nat.lt_of_not_ge hno.2.2)
    exact absurd hle (Nat.not_le_of_lt hlt)
  · rintro (hpos | hno)
    · exact read_data_within fs _ _ hpos hhigh
    · -- nothing is read, and the length does not matter
      rcases Nat.lt_or_ge (u32 (named_fd k fd).inode) fs.boot_block.inode_count with hino | hino
      · rw [read_data_at_end hino (hno.resolve_left (Nat.not_le_of_lt hino))]
        exact ⟨Nat.zero_le _, Or.inr ⟨Int.le_refl 0, Int.natCast_nonneg _⟩⟩
      · rw [read_data_of_bad_inode hino]
        exact ⟨Nat.zero_le _, Or.inl rfl⟩

end

/-- **A `read` stays inside the caller's buffer exactly when the directory has room for a
name and the file gets no negative length.** -/
theorem reads_contained_iff (fs : file_sys) (fd : Int) (buf : ℕ) {nbytes : Int} (k : Kernel)
    (hlow : -2147483648 ≤ nbytes) (hhigh : nbytes < 2147483648) :
    ReadContained fs fd buf nbytes k ↔ ReadFits fs fd nbytes k := by
  by_cases hfd : readable k fd
  · cases hops : (named_fd k fd).file_op_table_ptr with
    | term_read_ops =>
        exact iff_of_true (terminal_contained hfd hops)
          (readFits_of_ne (by rw [hops]; nofun) (by rw [hops]; nofun))
    | rtc_ops =>
        exact iff_of_true (clock_contained hfd hops)
          (readFits_of_ne (by rw [hops]; nofun) (by rw [hops]; nofun))
    | dir_ops =>
        rw [directory_contained_iff hfd hops]
        exact ⟨fun h _ => ⟨fun _ => h, fun hfile => nomatch hops.symm.trans hfile⟩,
          fun h => (h hfd).1 hops⟩
    | file_ops =>
        rw [file_contained_iff hfd hops hlow hhigh]
        exact ⟨fun h _ => ⟨fun hdir => (nomatch hops.symm.trans hdir), fun _ => h⟩,
          fun h => (h hfd).2 hops⟩
    | term_write_ops | NULL | wild _ =>
        -- there is no `read` to call
        refine iff_of_true (readContained_of_none ?_)
          (readFits_of_ne (by rw [hops]; nofun) (by rw [hops]; nofun))
        exact system_read_readable fs buf nbytes hfd hops
  · have hcall : system_read fs fd buf nbytes k = some (.ret (-1), [], k) := if_neg hfd
    refine iff_of_true ((readContained_of_ret hcall).mpr ⟨Nat.zero_le _, Or.inl rfl⟩) ?_
    exact fun h => absurd h hfd

/-- Four bytes of a file. -/
theorem reads_contained_demo : ∃ k, run (kstep demo_env) demo [.open (ascii "shell")] = some k ∧
    readable k 2 ∧ (ReadContained demo_env.fs 2 demo_buf 4 k ↔ ReadFits demo_env.fs 2 4 k) ∧
    ReadFits demo_env.fs 2 4 k := by
  have hvalues : (run (kstep demo_env) demo [.open (ascii "shell")]).map (fun k =>
      (decide (readable k 2), (named_fd k 2).file_op_table_ptr)) = some (true, .file_ops) := by
    decide +kernel
  obtain ⟨k, hk, hv⟩ := Option.map_eq_some_iff.mp hvalues
  rw [Prod.mk.injEq] at hv
  refine ⟨k, hk, of_decide_eq_true hv.1, reads_contained_iff _ _ _ k (by decide) (by decide), ?_⟩
  exact fun _ => ⟨fun hdir => (nomatch hv.2.symm.trans hdir), fun _ => Or.inl (by decide)⟩

/-- A read of no bytes from the directory stores 32. -/
theorem directory_read_overruns : ∃ k,
    run (kstep demo_env) demo [.open (ascii ".")] = some k ∧ readable k 2 ∧
    (∃ c bytes k', system_read demo_env.fs 2 demo_buf 0 k = some (c, bytes, k') ∧ bytes.length = 32) ∧
    ¬ ReadContained demo_env.fs 2 demo_buf 0 k := by
  have hvalues : (run (kstep demo_env) demo [.open (ascii ".")]).bind (fun k =>
      (system_read demo_env.fs 2 demo_buf 0 k).map fun r => (decide (readable k 2), r.2.1.length))
        = some (true, 32) := by decide +kernel
  obtain ⟨k, hk, hv⟩ := Option.bind_eq_some_iff.mp hvalues
  obtain ⟨⟨c, bytes, k'⟩, hread, hv⟩ := Option.map_eq_some_iff.mp hv
  rw [Prod.mk.injEq] at hv
  refine ⟨k, hk, of_decide_eq_true hv.1, ⟨c, bytes, k', hread, hv.2⟩, fun h => ?_⟩
  have hle := h.stored c bytes k' hread
  rw [hv.2] at hle
  exact absurd hle (by decide)

end LinuxLikeOS
