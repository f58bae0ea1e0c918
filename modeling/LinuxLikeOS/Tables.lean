/-
The table of descriptors of one process, over any sequence of its calls.

The table is one that `system_execute` has set up: `stdin`, `stdout` and six free slots.
After that the process opens, closes, reads and writes in any order, and timer interrupts
and the calls of the other processes come in between. A record beside the kernel keeps
which descriptors were handed out and not closed since; the table agrees with it
throughout, and every call does what the state of the table says it should.
-/
import LinuxLikeOS.FileOps
import LinuxLikeOS.Slots

set_option autoImplicit false

namespace LinuxLikeOS

open Kernel Slots Transition

/-! ## File types -/

/-- The operation table of a file type. -/
def type_ops : ℕ → Option fops_ptr
  | 0 => some .rtc_ops
  | 1 => some .dir_ops
  | 2 => some .file_ops
  | _ => none

/-- Every slot of the directory has one of the three types. -/
def Documented (fs : file_sys) : Prop :=
  ∀ i, i < DIR_ENTRIES → (fs.boot_block.direntries i).filetype ≤ 2

instance (fs : file_sys) : Decidable (Documented fs) := inferInstanceAs (Decidable (∀ _, _))

theorem file_type_ops_eq (file_type : ℕ) (old : fops_ptr) :
    file_type_ops file_type old = (type_ops file_type).getD old := by
  rcases file_type with _ | _ | _ | n <;> rfl

theorem type_ops_isSome {file_type : ℕ} : (type_ops file_type).isSome = true ↔ file_type ≤ 2 := by
  rcases file_type with _ | _ | _ | n <;> simp [type_ops]

theorem type_ops_cases {file_type : ℕ} {ops : fops_ptr} (h : type_ops file_type = some ops) :
    ops = .rtc_ops ∨ ops = .dir_ops ∨ ops = .file_ops := by
  unfold type_ops at h
  split at h <;> simp_all

/-- The three tables have all four operations. -/
theorem fops_of_type {file_type : ℕ} {ops : fops_ptr} (h : type_ops file_type = some ops) :
    (∀ k, ∃ r, fops_open ops k = some r) ∧ fops_close ops = some 0 ∧
      (∀ fs fd buf nbytes k, ∃ r, fops_read fs ops fd buf nbytes k = some r) ∧
      ∀ buf nbytes k, ∃ r, fops_write ops buf nbytes k = some r := by
  rcases type_ops_cases h with rfl | rfl | rfl <;>
    exact ⟨fun _ => ⟨_, rfl⟩, rfl, fun _ _ _ _ _ => ⟨_, rfl⟩, fun _ _ _ => ⟨_, rfl⟩⟩

theorem find_dentry_slot {fs : file_sys} {fname : ℕ → UInt8} {n i : ℕ} {d : dentry_t}
    (h : find_dentry fs fname n i = some d) :
    ∃ j, j < i + n ∧ d = fs.boot_block.direntries j := by
  induction n generalizing i with
  | zero => cases h
  | succ n ih =>
      rw [find_dentry] at h
      dsimp only at h
      split at h
      · cases h
      · split at h
        · exact ⟨i, by omega, (Option.some.inj h).symm⟩
        · obtain ⟨j, hj, hd⟩ := ih h
          exact ⟨j, by omega, hd⟩

/-- What is found has one of the three types. -/
theorem Documented.type_ops {fs : file_sys} (h : Documented fs) {fname : ℕ → UInt8} {d : dentry_t}
    (hd : read_dentry_by_name fs fname = some d) : ∃ ops, type_ops d.filetype = some ops := by
  unfold read_dentry_by_name at hd
  split at hd
  · cases hd
  · obtain ⟨j, hj, rfl⟩ := find_dentry_slot hd
    exact Option.isSome_iff_exists.mp (type_ops_isSome.mpr (h j (by omega)))

/-! ## Tables -/

/-- The slot is in use. -/
def used (t : ℕ → fd_t) (i : ℕ) : Prop := (t i).in_use

instance (t : ℕ → fd_t) (i : ℕ) : Decidable (used t i) := inferInstanceAs (Decidable (fd_t.in_use _))

/-- `stdin` and `stdout` are in place, and what is open has the table of its type. -/
structure FileTable (t : ℕ → fd_t) : Prop where
  stdin : used t 0 ∧ (t 0).file_op_table_ptr = .term_read_ops
  stdout : used t 1 ∧ (t 1).file_op_table_ptr = .term_write_ops
  general : ∀ i, FILE_DESCRIPTOR_MIN ≤ i → i < FILE_DESCRIPTOR_MAX → used t i →
    ∃ file_type, type_ops file_type = some (t i).file_op_table_ptr

theorem new_fds_used (t : ℕ → fd_t) {i : ℕ} (h : FILE_DESCRIPTOR_MIN ≤ i)
    (h' : i < FILE_DESCRIPTOR_MAX) : ¬ used (new_fds t) i := by
  have hmin : FILE_DESCRIPTOR_MIN = 2 := rfl
  unfold used new_fds
  rw [if_neg (by omega), if_neg (by omega), if_pos h']
  exact fun hflags => hflags rfl

theorem fileTable_new (t : ℕ → fd_t) : FileTable (new_fds t) where
  stdin := ⟨show IN_USE ≠ NOT_IN_USE by decide, rfl⟩
  stdout := ⟨show IN_USE ≠ NOT_IN_USE by decide, rfl⟩
  general i h h' huse := absurd huse (new_fds_used t h h')

/-- A general slot is written. -/
theorem FileTable.update {t : ℕ → fd_t} (h : FileTable t) {i : ℕ} (hi : FILE_DESCRIPTOR_MIN ≤ i)
    {f : fd_t} (hf : f.in_use → ∃ file_type, type_ops file_type = some f.file_op_table_ptr) :
    FileTable (Function.update t i f) := by
  have hmin : FILE_DESCRIPTOR_MIN = 2 := rfl
  have h0 : Function.update t i f 0 = t 0 := Function.update_of_ne (by omega) _ _
  have h1 : Function.update t i f 1 = t 1 := Function.update_of_ne (by omega) _ _
  refine ⟨?_, ?_, fun j hj hj' huse => ?_⟩
  · unfold used
    rw [h0]
    exact h.stdin
  · unfold used
    rw [h1]
    exact h.stdout
  · unfold used at huse
    by_cases hji : j = i
    · subst hji
      rw [Function.update_self] at huse ⊢
      exact hf huse
    · rw [Function.update_of_ne hji] at huse ⊢
      exact h.general j hj hj' huse

theorem used_update (t : ℕ → fd_t) (i : ℕ) (f : fd_t) (j : ℕ) :
    used (Function.update t i f) j ↔ (j = i ∧ f.in_use) ∨ (j ≠ i ∧ used t j) := by
  unfold used
  by_cases hji : j = i
  · subst hji
    simp
  · rw [Function.update_of_ne hji]
    simp [hji]

theorem table_set_fd (pid i : ℕ) (f : fd_t → fd_t) (k : Kernel) :
    table (set_fd pid i f k) pid = Function.update (table k pid) i (f (table k pid i)) := by
  unfold table set_fd
  rw [set_pcb_apply, if_pos rfl]

theorem table_set_RTC_frequency (freq : Int) (k : Kernel) (p : ℕ) :
    table (set_RTC_frequency freq k) p = table k p := by
  unfold table
  rw [set_RTC_frequency_pcb]

theorem free_fd_eq_some {b : pcb_t} {i : ℕ} : free_fd b = some i ↔
    LeastFree (used b.file_descriptors) FILE_DESCRIPTOR_MIN FILE_DESCRIPTOR_MAX i := by
  unfold free_fd
  rw [find_eq_some]
  unfold used
  simp only [decide_not, Bool.not_eq_false', decide_eq_true_eq]

theorem free_fd_eq_none {b : pcb_t} : free_fd b = none ↔
    Full (used b.file_descriptors) FILE_DESCRIPTOR_MIN FILE_DESCRIPTOR_MAX := by
  unfold free_fd
  rw [find_eq_none]
  unfold used
  simp only [decide_not, Bool.not_eq_false', decide_eq_true_eq]

/-! ## What the calls do -/

/-- `open` hands out the least free slot, for an entry that exists. -/
structure Opens (fs : file_sys) (filename : List UInt8) (t t' : ℕ → fd_t) (r : Int) : Prop where
  fails_iff : r = -1 ↔ read_dentry_by_name fs (c_str filename) = none ∨
    Full (used t) FILE_DESCRIPTOR_MIN FILE_DESCRIPTOR_MAX
  failed : r = -1 → t' = t
  opened : r ≠ -1 → ∃ d ops i, read_dentry_by_name fs (c_str filename) = some d ∧
    type_ops d.filetype = some ops ∧ r = (i : ℕ) ∧
    LeastFree (used t) FILE_DESCRIPTOR_MIN FILE_DESCRIPTOR_MAX i ∧
    t' = Function.update t i
      { file_op_table_ptr := ops, inode := i32 d.inode_num, file_pos := 0, flags := IN_USE }

/-- `close` frees a general slot that is in use. -/
structure Closes (fd : Int) (t t' : ℕ → fd_t) (r : Int) : Prop where
  succeeds_iff : r = 0 ↔
    (FILE_DESCRIPTOR_MIN ≤ fd ∧ fd < FILE_DESCRIPTOR_MAX) ∧ used t fd.toNat
  failed : r ≠ 0 → r = -1 ∧ t' = t
  closed : r = 0 → t' = Function.update t fd.toNat (closed_fd (t fd.toNat))

/-- `read` refuses a bad descriptor, and moves the position of a good one at most. -/
structure Reads (fd : Int) (t t' : ℕ → fd_t) (c : Control) : Prop where
  refused : ¬ ((0 ≤ fd ∧ fd < FILE_DESCRIPTOR_MAX ∧ fd ≠ 1) ∧ used t fd.toNat) →
    c = .ret (-1) ∧ t' = t
  moved : ∃ pos, t' = Function.update t fd.toNat { t fd.toNat with file_pos := pos }

/-- `write` refuses a bad descriptor, and leaves the table alone. -/
structure Writes (fd : Int) (t t' : ℕ → fd_t) (r : Int) : Prop where
  refused : ¬ ((1 ≤ fd ∧ fd < FILE_DESCRIPTOR_MAX) ∧ used t fd.toNat) → r = -1
  kept : t' = t

/-- Without an entry or a free slot nothing happens. -/
theorem system_open_fails {fs : file_sys} {filename : List UInt8} {k : Kernel}
    (h : read_dentry_by_name fs (c_str filename) = none ∨ free_fd (get_pcb k k.curr_pid) = none) :
    system_open fs filename k = some (-1, k) := by
  unfold system_open
  rcases h with hname | hfree
  · rw [hname]
  · rw [hfree]
    split
    · rename_i hnone
      cases hnone
    · rfl

/-- An entry of a known type takes the slot. -/
theorem system_open_opens {fs : file_sys} {filename : List UInt8} {k : Kernel} {d : dentry_t}
    {i : ℕ} {ops : fops_ptr} (hname : read_dentry_by_name fs (c_str filename) = some d)
    (hfree : free_fd (get_pcb k k.curr_pid) = some i) (hops : type_ops d.filetype = some ops) :
    ∃ k', system_open fs filename k = some ((i : Int), k') ∧
      table k' k.curr_pid = Function.update (table k k.curr_pid) i
        { file_op_table_ptr := ops, inode := i32 d.inode_num, file_pos := 0, flags := IN_USE } := by
  have hptr : ∀ old, file_type_ops d.filetype old = ops := by
    intro old
    rw [file_type_ops_eq, hops, Option.getD_some]
  unfold system_open
  rw [hname, hfree]
  dsimp only
  rw [hptr]
  generalize hk₁ : set_fd k.curr_pid i _ k = k₁
  obtain ⟨⟨r, k₂⟩, hopen⟩ := (fops_of_type hops).1 k₁
  refine ⟨k₂, by rw [hopen]; rfl, ?_⟩
  have htable : table k₂ k.curr_pid = table k₁ k.curr_pid := by
    rcases (fops_open_cases hopen).2 with rfl | rfl
    · rfl
    · exact table_set_RTC_frequency _ _ _
  rw [htable, ← hk₁, table_set_fd]

theorem system_open_table {env : Env} {k : Kernel} (hdoc : Documented env.fs)
    (filename : List UInt8) : ∃ r k', system_open env.fs filename k = some (r, k') ∧
      Opens env.fs filename (table k k.curr_pid) (table k' k.curr_pid) r := by
  cases hname : read_dentry_by_name env.fs (c_str filename) with
  | none =>
      exact ⟨-1, k, system_open_fails (Or.inl hname), iff_of_true rfl (Or.inl hname), fun _ => rfl,
        fun h => absurd rfl h⟩
  | some d =>
      cases hfree : free_fd (get_pcb k k.curr_pid) with
      | none =>
          have hfull := free_fd_eq_none.mp hfree
          exact ⟨-1, k, system_open_fails (Or.inr hfree), iff_of_true rfl (Or.inr hfull),
            fun _ => rfl, fun h => absurd rfl h⟩
      | some i =>
          have hleast := free_fd_eq_some.mp hfree
          obtain ⟨ops, hops⟩ := hdoc.type_ops hname
          obtain ⟨k', hopen, htable⟩ := system_open_opens hname hfree hops
          have hne : ((i : ℕ) : Int) ≠ -1 := by omega
          refine ⟨i, k', hopen, iff_of_false hne ?_, fun h => absurd h hne, fun _ => ?_⟩
          · rintro (hnone | hfull)
            · rw [hname] at hnone
              cases hnone
            · exact hleast.not_full hfull
          · exact ⟨d, ops, i, hname, hops, rfl, hleast, htable⟩

theorem system_close_table {k : Kernel} (ht : FileTable (table k k.curr_pid)) (fd : Int) :
    ∃ r k', system_close fd k = some (r, k') ∧
      Closes fd (table k k.curr_pid) (table k' k.curr_pid) r := by
  have hmin : FILE_DESCRIPTOR_MIN = 2 := rfl
  have hmax : FILE_DESCRIPTOR_MAX = 8 := rfl
  have heq : system_close fd k
      = if (FILE_DESCRIPTOR_MIN ≤ fd ∧ fd < FILE_DESCRIPTOR_MAX) ∧ used (table k k.curr_pid) fd.toNat
        then (fops_close (table k k.curr_pid fd.toNat).file_op_table_ptr).map fun r =>
          (r, set_fd k.curr_pid fd.toNat closed_fd k)
        else some (-1, k) := rfl
  rw [heq]
  by_cases hgood : ((FILE_DESCRIPTOR_MIN : Int) ≤ fd ∧ fd < FILE_DESCRIPTOR_MAX) ∧
      used (table k k.curr_pid) fd.toNat
  · obtain ⟨n, hops⟩ := ht.general fd.toNat (by omega) (by omega) hgood.2
    rw [if_pos hgood, (fops_of_type hops).2.1, Option.map_some]
    exact ⟨0, _, rfl, iff_of_true rfl hgood, fun h => absurd rfl h,
      fun _ => table_set_fd k.curr_pid fd.toNat closed_fd k⟩
  · rw [if_neg hgood]
    exact ⟨-1, k, rfl, iff_of_false (by decide) hgood, fun _ => ⟨rfl, rfl⟩, fun h => by cases h⟩

/-- The `read` operations write the position of the descriptor only. -/
theorem fops_read_table {fs : file_sys} {ops : fops_ptr} {fd buf : ℕ} {nbytes : Int} {k k' : Kernel}
    {c : Control} {bytes : List UInt8}
    (h : fops_read fs ops fd buf nbytes k = some (c, bytes, k')) :
    ∃ pos, table k' k.curr_pid = Function.update (table k k.curr_pid) fd
      { table k k.curr_pid fd with file_pos := pos } := by
  have hsame : k'.pcb = k.pcb → ∃ pos, table k' k.curr_pid
      = Function.update (table k k.curr_pid) fd { table k k.curr_pid fd with file_pos := pos } := by
    intro hpcb
    refine ⟨(table k k.curr_pid fd).file_pos, ?_⟩
    rw [Function.update_eq_self]
    unfold table
    rw [hpcb]
  unfold fops_read at h
  split at h <;> simp only [Option.some.injEq, Prod.mk.injEq, reduceCtorEq] at h
  · apply hsame
    rw [← h.2.2]
    rcases terminal_read_begin_cases buf nbytes k with ⟨-, hread⟩ | ⟨-, hread⟩
    · rw [hread]
    · rw [hread]
      rfl
  · exact hsame (h.2.2 ▸ rfl)
  · apply hsame
    rw [← h.2.2]
    unfold read_directory
    split <;> rfl
  · unfold read_file at h
    split at h
    · exact hsame (h.2.2 ▸ rfl)
    · refine ⟨i32 ((table k k.curr_pid fd).file_pos + nbytes), ?_⟩
      rw [← h.2.2]
      exact table_set_fd k.curr_pid fd
        (fun file => { file with file_pos := i32 (file.file_pos + nbytes) }) k

theorem system_read_table {env : Env} {k : Kernel} (ht : FileTable (table k k.curr_pid))
    (fd : Int) (buf : ℕ) (nbytes : Int) :
    ∃ c bytes k', system_read env.fs fd buf nbytes k = some (c, bytes, k') ∧
      Reads fd (table k k.curr_pid) (table k' k.curr_pid) c := by
  have hmin : FILE_DESCRIPTOR_MIN = 2 := rfl
  have hmax : FILE_DESCRIPTOR_MAX = 8 := rfl
  have heq : system_read env.fs fd buf nbytes k
      = if (0 ≤ fd ∧ fd < FILE_DESCRIPTOR_MAX ∧ fd ≠ 1) ∧ used (table k k.curr_pid) fd.toNat
        then fops_read env.fs (table k k.curr_pid fd.toNat).file_op_table_ptr fd.toNat buf nbytes k
        else some (.ret (-1), [], k) := rfl
  rw [heq]
  by_cases hgood : (0 ≤ fd ∧ fd < FILE_DESCRIPTOR_MAX ∧ fd ≠ 1) ∧
      used (table k k.curr_pid) fd.toNat
  · rw [if_pos hgood]
    -- `stdin` and what is open have a `read`
    have hread : ∃ r, fops_read env.fs (table k k.curr_pid fd.toNat).file_op_table_ptr fd.toNat
        buf nbytes k = some r := by
      by_cases hzero : fd = 0
      · rw [hzero, Int.toNat_zero, ht.stdin.2]
        exact ⟨_, rfl⟩
      · obtain ⟨n, hops⟩ := ht.general fd.toNat (by omega) (by omega) hgood.2
        exact (fops_of_type hops).2.2.1 _ _ _ _ _
    obtain ⟨⟨c, bytes, k'⟩, hr⟩ := hread
    exact ⟨c, bytes, k', hr, fun hbad => absurd hgood hbad, fops_read_table hr⟩
  · rw [if_neg hgood]
    refine ⟨_, _, k, rfl, fun _ => ⟨rfl, rfl⟩, (table k k.curr_pid fd.toNat).file_pos, ?_⟩
    rw [Function.update_eq_self]

theorem system_write_table {k : Kernel} (ht : FileTable (table k k.curr_pid)) (fd : Int)
    (buf : Option (ℕ → UInt8)) (nbytes : Int) :
    ∃ r k', system_write fd buf nbytes k = some (r, k') ∧
      Writes fd (table k k.curr_pid) (table k' k.curr_pid) r := by
  have hmin : FILE_DESCRIPTOR_MIN = 2 := rfl
  have hmax : FILE_DESCRIPTOR_MAX = 8 := rfl
  have hsome : ∃ r k', system_write fd buf nbytes k = some (r, k') ∧
      (¬ ((1 ≤ fd ∧ fd < FILE_DESCRIPTOR_MAX) ∧ used (table k k.curr_pid) fd.toNat) → r = -1) := by
    have heq : system_write fd buf nbytes k
        = if (1 ≤ fd ∧ fd < FILE_DESCRIPTOR_MAX) ∧ used (table k k.curr_pid) fd.toNat
          then fops_write (table k k.curr_pid fd.toNat).file_op_table_ptr buf nbytes k
          else some (-1, k) := rfl
    rw [heq]
    by_cases hgood : (1 ≤ fd ∧ fd < FILE_DESCRIPTOR_MAX) ∧ used (table k k.curr_pid) fd.toNat
    · rw [if_pos hgood]
      -- `stdout` and what is open have a `write`
      have hwrite : ∃ r, fops_write (table k k.curr_pid fd.toNat).file_op_table_ptr buf nbytes k
          = some r := by
        by_cases hone : fd = 1
        · rw [hone]
          show ∃ r, fops_write (table k k.curr_pid 1).file_op_table_ptr buf nbytes k = some r
          rw [ht.stdout.2]
          exact ⟨_, rfl⟩
        · obtain ⟨n, hops⟩ := ht.general fd.toNat (by omega) (by omega) hgood.2
          exact (fops_of_type hops).2.2.2 _ _ _
      obtain ⟨⟨r, k'⟩, hr⟩ := hwrite
      exact ⟨r, k', hr, fun hbad => absurd hgood hbad⟩
    · rw [if_neg hgood]
      exact ⟨-1, k, rfl, fun _ => rfl⟩
  obtain ⟨r, k', hr, hbad⟩ := hsome
  refine ⟨r, k', hr, hbad, ?_⟩
  unfold table
  rw [system_write_pcb hr]

/-! ## The record -/

/-- A table and the record of the slots it has handed out. -/
structure OpenRecorded (t : ℕ → fd_t) (out : Finset ℕ) : Prop extends FileTable t where
  handed : Handed (used t) FILE_DESCRIPTOR_MIN FILE_DESCRIPTOR_MAX out

namespace OpenRecorded

variable {t t' : ℕ → fd_t} {out : Finset ℕ} {fd r : Int}

theorem new (t : ℕ → fd_t) : OpenRecorded (new_fds t) ∅ :=
  ⟨fileTable_new t, handed_empty fun _ hi hi' => new_fds_used t hi hi'⟩

/-- The slots in use are `stdin`, `stdout` and those on record. -/
theorem used_iff (h : OpenRecorded t out) {i : ℕ} (hi : i < FILE_DESCRIPTOR_MAX) :
    used t i ↔ i = 0 ∨ i = 1 ∨ i ∈ out := by
  have hmin : FILE_DESCRIPTOR_MIN = 2 := rfl
  rw [h.handed i]
  rcases Nat.lt_or_ge i 2 with hlt | hge
  · have hcases : i = 0 ∨ i = 1 := by omega
    rcases hcases with rfl | rfl
    · exact iff_of_true h.stdin.1 (Or.inl rfl)
    · exact iff_of_true h.stdout.1 (Or.inr (Or.inl rfl))
  · constructor
    · exact fun huse => Or.inr (Or.inr ⟨⟨by omega, hi⟩, huse⟩)
    · rintro (h0 | h1 | ⟨-, huse⟩)
      · omega
      · omega
      · exact huse

/-- A slot that was free goes on record. -/
theorem opens (h : OpenRecorded t out) {fs : file_sys} {filename : List UInt8}
    (ho : Opens fs filename t t' r) : OpenRecorded t' (if r = -1 then out else insert r.toNat out) := by
  by_cases hr : r = -1
  · rw [if_pos hr, ho.failed hr]
    exact h
  · obtain ⟨d, ops, i, -, hops, hi, hleast, ht'⟩ := ho.opened hr
    rw [if_neg hr, hi, Int.toNat_natCast, ht']
    refine ⟨h.toFileTable.update hleast.lower fun _ => ⟨_, hops⟩, ?_⟩
    apply h.handed.insert hleast.lower hleast.upper
    intro j
    rw [used_update]
    by_cases hj : j = i
    · exact iff_of_true (Or.inl ⟨hj, show IN_USE ≠ NOT_IN_USE by decide⟩) (Or.inl hj)
    · simp [hj]

/-- A slot that is closed goes off. -/
theorem closes (h : OpenRecorded t out) (hc : Closes fd t t' r) :
    OpenRecorded t' (if r = 0 then out.erase fd.toNat else out) := by
  by_cases hr : r = 0
  · have hlow := (hc.succeeds_iff.mp hr).1.1
    have hmin : FILE_DESCRIPTOR_MIN = 2 := rfl
    have hno : ¬ (closed_fd (t fd.toNat)).in_use := fun huse => huse rfl
    rw [if_pos hr, hc.closed hr]
    refine ⟨h.toFileTable.update (by omega) fun huse => absurd huse hno, ?_⟩
    apply h.handed.erase
    intro j
    rw [used_update]
    simp [hno]
  · rw [if_neg hr, (hc.failed hr).2]
    exact h

/-- A position moves. -/
theorem reads (h : OpenRecorded t out) {c : Control} (hr : Reads fd t t' c) : OpenRecorded t' out := by
  obtain ⟨pos, rfl⟩ := hr.moved
  have hsame : ∀ j, (Function.update t fd.toNat { t fd.toNat with file_pos := pos } j).flags
        = (t j).flags ∧
      (Function.update t fd.toNat { t fd.toNat with file_pos := pos } j).file_op_table_ptr
        = (t j).file_op_table_ptr := by
    intro j
    by_cases hj : j = fd.toNat
    · rw [hj, Function.update_self]
      exact ⟨rfl, rfl⟩
    · rw [Function.update_of_ne hj]
      exact ⟨rfl, rfl⟩
  have hused : ∀ j, used (Function.update t fd.toNat { t fd.toNat with file_pos := pos }) j ↔
      used t j := by
    intro j
    unfold used fd_t.in_use
    rw [(hsame j).1]
  refine ⟨⟨?_, ?_, fun j hj hj' huse => ?_⟩, h.handed.congr fun j _ _ => hused j⟩
  · rw [hused, (hsame 0).2]
    exact h.stdin
  · rw [hused, (hsame 1).2]
    exact h.stdout
  · rw [(hsame j).2]
    exact h.general j hj hj' ((hused j).mp huse)

end OpenRecorded

/-! ## Runs -/

/-- The call meets its description, for a call of `p`; it returns from the kernel. -/
def CallMeets (env : Env) (p : ℕ) (k : Kernel) : SysOp → Prop
  | .base (.open filename) => ∃ r k', system_open env.fs filename k = some (r, k') ∧
      Opens env.fs filename (table k p) (table k' p) r
  | .base (.close fd) => ∃ r k', system_close fd k = some (r, k') ∧
      Closes fd (table k p) (table k' p) r
  | .base (.read fd buf nbytes) => ∃ c bytes k',
      system_read env.fs fd buf nbytes k = some (c, bytes, k') ∧
        Reads fd (table k p) (table k' p) c
  | .write fd buf nbytes => ∃ r k', system_write fd buf nbytes k = some (r, k') ∧
      Writes fd (table k p) (table k' p) r
  | _ => True

/-- The descriptors handed out to `p` and not closed since. -/
def record_open (env : Env) (p : ℕ) (k : Kernel) (op : SysOp) (_ : Kernel) (out : Finset ℕ) :
    Finset ℕ :=
  if k.curr_pid = p then
    match op, sys_perform env k op with
    | .base (.open _), some (.ret r, _) => if r = -1 then out else insert r.toNat out
    | .base (.close fd), some (.ret r, _) => if r = 0 then out.erase fd.toNat else out
    | _, _ => out
  else out

/-- The kernel with that record. -/
def open_step (env : Env) (p : ℕ) : Kernel × Finset ℕ → SysOp → Option (Kernel × Finset ℕ) :=
  with_history (sys_step env) (record_open env p)

/-- The slots in use are `stdin`, `stdout` and those on record. -/
def SlotsOnRecord (p : ℕ) (w : Kernel × Finset ℕ) : Prop :=
  ∀ i, i < FILE_DESCRIPTOR_MAX → (used (table w.1 p) i ↔ i = 0 ∨ i = 1 ∨ i ∈ w.2)

/-- The process has its slot and a table that agrees with the record. -/
structure OwnTable (p : ℕ) (w : Kernel × Finset ℕ) : Prop where
  busy : w.1.cur_processes p ≠ 0
  recorded : OpenRecorded (table w.1 p) w.2

/-- The calls of `p` meet their descriptions. -/
theorem OwnTable.meets {env : Env} (hdoc : Documented env.fs) {p : ℕ} {w : Kernel × Finset ℕ}
    (h : OwnTable p w) (hcurr : w.1.curr_pid = p) (op : SysOp) : CallMeets env p w.1 op := by
  have ht := h.recorded.toFileTable
  subst hcurr
  cases op with
  | write fd buf nbytes => exact system_write_table ht fd buf nbytes
  | base op =>
      cases op with
      | «open» filename => exact system_open_table hdoc filename
      | close fd => exact system_close_table ht fd
      | read fd buf nbytes => exact system_read_table ht fd buf nbytes
      | _ => trivial

/-- One call of `p` keeps the table and the record together. -/
theorem OwnTable.own_call {env : Env} (hdoc : Documented env.fs) {p : ℕ}
    {w w' : Kernel × Finset ℕ} {op : SysOp} {c : Control} (h : OwnTable p w)
    (hcurr : w.1.curr_pid = p) (hfiles : op.on_files)
    (hperform : sys_perform env w.1 op = some (c, w'.1))
    (hrecord : record_open env p w.1 op w'.1 w.2 = w'.2) : OwnTable p w' := by
  have hmeets := h.meets hdoc hcurr op
  refine ⟨by rw [(hfiles.same_memory hperform).cur_processes]; exact h.busy, ?_⟩
  unfold record_open at hrecord
  rw [if_pos hcurr, hperform] at hrecord
  cases op with
  | write fd buf nbytes =>
      obtain ⟨r, k', hcall, hw⟩ := hmeets
      rw [sys_perform, hcall, Option.map_some, Option.some.injEq, Prod.ext_iff] at hperform
      obtain ⟨-, rfl⟩ := hperform
      rw [← hrecord, hw.kept]
      exact h.recorded
  | base op =>
      cases op with
      | «open» filename =>
          obtain ⟨r, k', hcall, ho⟩ := hmeets
          rw [sys_perform, perform, hcall, Option.map_some, Option.some.injEq,
            Prod.ext_iff] at hperform
          dsimp only at hperform
          obtain ⟨rfl, rfl⟩ := hperform
          exact hrecord ▸ h.recorded.opens ho
      | close fd =>
          obtain ⟨r, k', hcall, hc⟩ := hmeets
          rw [sys_perform, perform, hcall, Option.map_some, Option.some.injEq,
            Prod.ext_iff] at hperform
          dsimp only at hperform
          obtain ⟨rfl, rfl⟩ := hperform
          exact hrecord ▸ h.recorded.closes hc
      | read fd buf nbytes =>
          obtain ⟨c', bytes, k', hcall, hr⟩ := hmeets
          rw [sys_perform, perform, hcall, Option.map_some, Option.some.injEq,
            Prod.ext_iff] at hperform
          obtain ⟨-, rfl⟩ := hperform
          exact hrecord ▸ h.recorded.reads hr
      | _ => exact hfiles.elim

/-- **One step** keeps them together, whoever makes it, while no process ends. -/
theorem OwnTable.step {env : Env} (hdoc : Documented env.fs) {p : ℕ} {w w' : Kernel × Finset ℕ}
    {op : SysOp} (h : OwnTable p w) (hhalt : ¬ op.halts)
    (hstep : open_step env p w op = some w') : OwnTable p w' := by
  obtain ⟨hsys, hrecord⟩ := with_history_eq_some.mp hstep
  obtain ⟨c, hperform⟩ := sys_step_eq_some.mp hsys
  by_cases hown : op.on_files ∧ w.1.curr_pid = p
  · exact h.own_call hdoc hown.2 hown.1 hperform hrecord
  · have hkeeps : KeepsTable p w.1 w'.1 :=
      sys_perform_keeps hperform hhalt (fun hfiles hcurr => hown ⟨hfiles, hcurr⟩) h.busy
    have hsame : w'.2 = w.2 := by
      rw [← hrecord]
      unfold record_open
      split
      · rename_i hcurr
        split
        · exact absurd ⟨trivial, hcurr⟩ hown
        · exact absurd ⟨trivial, hcurr⟩ hown
        · rfl
      · rfl
    refine ⟨hkeeps.busy h.busy, ?_⟩
    rw [hkeeps.table, hsame]
    exact h.recorded

/-- The table `system_execute` sets up has nothing on record. -/
theorem ownTable_started {env : Env} {fr : frame} {command : Option (List UInt8)} {k₀ k : Kernel}
    {c : Control} {p : ℕ} (hexec : system_execute env command fr k₀ = some (c, k))
    (hpid : started_pid env fr command k₀ = some p) : OwnTable p (k, ∅) := by
  obtain ⟨ht, hbusy⟩ := table_started hexec hpid
  refine ⟨hbusy, ?_⟩
  rw [ht]
  exact .new _

end LinuxLikeOS
