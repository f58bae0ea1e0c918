/-
Listing a directory.

The position of a listing is one counter for the whole machine: `open` does not reset it,
`close` does not either, and every directory descriptor moves it. A listing that is read
to its end by one descriptor, with no other reading in between, leaves the counter at zero
for the next. Here it is shown that this discipline is enough, for any number of
descriptors and processes: every read returns the entry that comes next on its own
descriptor.
-/
import LinuxLikeOS.Processes

set_option autoImplicit false

namespace LinuxLikeOS

open Kernel Transition

/-! ## The record of the reads -/

/-- How often each descriptor, as process and index, has been read since it was opened, and
the descriptor whose read has returned a name last, until a read returns 0. -/
structure listings where
  reads : ℕ × ℕ → ℕ
  active : Option (ℕ × ℕ)

/-- An open directory descriptor of the running process that `system_read` accepts. -/
def reads_directory (k : Kernel) (fd : Int) : Prop :=
  ((0 ≤ fd ∧ fd < FILE_DESCRIPTOR_MAX ∧ fd ≠ 1) ∧
      ((k.pcb k.curr_pid).file_descriptors fd.toNat).in_use) ∧
    ((k.pcb k.curr_pid).file_descriptors fd.toNat).file_op_table_ptr = .dir_ops

instance (k : Kernel) (fd : Int) : Decidable (reads_directory k fd) :=
  inferInstanceAs (Decidable (_ ∧ _))

/-- The descriptor `fd` of the running process. -/
def descriptor (k : Kernel) (fd : Int) : ℕ × ℕ := (k.curr_pid, fd.toNat)

/-- `open` starts the count of a descriptor again, and a directory read adds one to it. -/
def record_read (env : Env) (k : Kernel) (op : Op) (_ : Kernel) (l : listings) : listings :=
  match op, perform env k op with
  | .open _, some (.ret fd, _) =>
      if 0 ≤ fd then { l with reads := Function.update l.reads (descriptor k fd) 0 } else l
  | .read fd _ _, some (.ret n, _) =>
      if reads_directory k fd then
        { reads := Function.update l.reads (descriptor k fd) (l.reads (descriptor k fd) + 1)
          active := if n = 0 then none else some (descriptor k fd) }
      else l
  | _, _ => l

def listing_step (env : Env) : Kernel × listings → Op → Option (Kernel × listings) :=
  with_history (kstep env) (record_read env)

/-! ## The property -/

/-- What read number `n` of a directory returns, and the bytes it stores. -/
def entry_at (fs : file_sys) (n : ℕ) : Control × List UInt8 :=
  if n < fs.boot_block.dir_count then
    (.ret FILENAME_LEN, (List.range FILENAME_LEN).map (fs.boot_block.direntries n).filename)
  else (.ret 0, [])

/-- A directory read returns the entry whose number is the number of reads on that
descriptor before. -/
def ReadsNext (env : Env) (w : Kernel × listings) : Op → Prop
  | .read fd buf nbytes => reads_directory w.1 fd → ∀ c bytes k',
      system_read env.fs fd buf nbytes w.1 = some (c, bytes, k') →
      (c, bytes) = entry_at env.fs (w.2.reads (descriptor w.1 fd))
  | _ => True

/-- A directory read goes on with the listing in progress, or begins one when there is
none. -/
def ReadsInTurn (w : Kernel × listings) : Op → Prop
  | .read fd _ _ => reads_directory w.1 fd →
      (w.2.active = none ∧ w.2.reads (descriptor w.1 fd) = 0) ∨
        (w.2.active = some (descriptor w.1 fd) ∧ 0 < w.2.reads (descriptor w.1 fd))
  | _ => True

instance (w : Kernel × listings) : (op : Op) → Decidable (ReadsInTurn w op)
  | .read fd _ _ => inferInstanceAs (Decidable (reads_directory w.1 fd → _ ∨ _))
  | .tick _ | .switch_screen _ | .execute _ _ | .halt _ | .exception _ | .open _ | .close _
  | .vidmap _ => isTrue trivial

/-! ## The counter -/

theorem system_read_directory {fs : file_sys} {fd : Int} {buf : ℕ} {nbytes : Int} {k : Kernel}
    (h : reads_directory k fd) :
    system_read fs fd buf nbytes k
      = some (.ret (read_directory fs fd.toNat k).1, (read_directory fs fd.toNat k).2) := by
  unfold system_read
  dsimp only [get_pcb]
  rw [if_pos h.1, h.2]
  rfl

/-- No other read touches the counter. -/
theorem system_read_dentry_counter {fs : file_sys} {fd : Int} {buf : ℕ} {nbytes : Int}
    {k k' : Kernel} {c : Control} {bytes : List UInt8} (hno : ¬ reads_directory k fd)
    (h : system_read fs fd buf nbytes k = some (c, bytes, k')) :
    k'.dentry_counter = k.dentry_counter := by
  rcases system_read_cases h with rfl | rfl | rfl | ⟨hdir, -⟩ | rfl
  · rfl
  · rcases terminal_read_begin_cases buf nbytes k with ⟨-, hread⟩ | ⟨-, hread⟩
    · rw [hread]
    · rw [hread]
      rfl
  · rfl
  · exact absurd hdir hno
  · unfold read_file
    split <;> rfl

theorem system_open_dentry_counter {fs : file_sys} {filename : List UInt8} {k k' : Kernel}
    {r : Int} (h : system_open fs filename k = some (r, k')) :
    k'.dentry_counter = k.dentry_counter := by
  rcases system_open_cases h with ⟨-, rfl⟩ | ⟨index, file, -, -, rfl | rfl⟩
  · rfl
  · rfl
  · unfold set_RTC_frequency
    split <;> rfl

theorem system_close_dentry_counter {fd : Int} {k k' : Kernel} {r : Int}
    (h : system_close fd k = some (r, k')) : k'.dentry_counter = k.dentry_counter := by
  rcases system_close_cases h with rfl | rfl <;> rfl

/-- The entry at the counter is returned, and the counter goes on or back to zero. -/
theorem read_directory_eq (fs : file_sys) (fd : ℕ) (k : Kernel) :
    ((.ret (read_directory fs fd k).1, (read_directory fs fd k).2.1) : Control × List UInt8)
        = entry_at fs k.dentry_counter ∧
      (read_directory fs fd k).2.2.dentry_counter
        = if k.dentry_counter < fs.boot_block.dir_count then k.dentry_counter + 1 else 0 := by
  unfold read_directory entry_at read_dentry_by_index
  by_cases h : k.dentry_counter < fs.boot_block.dir_count
  · have hge : ¬ k.dentry_counter ≥ fs.boot_block.dir_count := by omega
    rw [if_neg hge, if_pos h, if_pos h, if_pos h]
    exact ⟨rfl, rfl⟩
  · have hge : k.dentry_counter ≥ fs.boot_block.dir_count := by omega
    rw [if_pos hge, if_neg h, if_neg h]
    exact ⟨rfl, rfl⟩

/-- The value tells the two cases apart. -/
theorem read_directory_eq_zero_iff (fs : file_sys) (fd : ℕ) (k : Kernel) :
    (read_directory fs fd k).1 = 0 ↔ ¬ k.dentry_counter < fs.boot_block.dir_count := by
  have h := (read_directory_eq fs fd k).1
  unfold entry_at at h
  split at h <;> rename_i hlt <;> simp only [Prod.mk.injEq, Control.ret.injEq] at h <;> rw [h.1]
  · exact iff_of_false (by decide) (fun hn => hn hlt)
  · exact iff_of_true rfl hlt

/-! ## The invariant -/

/-- Without a listing in progress the counter is zero, and with one it is the number of its
reads. -/
structure ListingInv (w : Kernel × listings) : Prop where
  table : ProcessTable w.1
  idle : w.2.active = none → w.1.dentry_counter = 0
  active : ∀ d, w.2.active = some d → 0 < w.2.reads d → w.1.dentry_counter = w.2.reads d

/-- In turn, the counter is the number of reads on the descriptor. -/
theorem ListingInv.counter {w : Kernel × listings} (h : ListingInv w) {fd : Int} {buf : ℕ}
    {nbytes : Int} (hturn : ReadsInTurn w (.read fd buf nbytes)) (hdir : reads_directory w.1 fd) :
    w.1.dentry_counter = w.2.reads (descriptor w.1 fd) := by
  rcases hturn hdir with ⟨hidle, hzero⟩ | ⟨hactive, hpos⟩
  · rw [h.idle hidle, hzero]
  · exact h.active _ hactive hpos

theorem readsNext {env : Env} {w : Kernel × listings} {op : Op} (h : ListingInv w)
    (hturn : ReadsInTurn w op) : ReadsNext env w op := by
  cases op with
  | read fd buf nbytes =>
      intro hdir c bytes k' hread
      rw [system_read_directory hdir, Option.some.injEq, Prod.mk.injEq] at hread
      rw [← hread.1, ← (Prod.mk.inj hread.2).1, ← h.counter hturn hdir]
      exact (read_directory_eq env.fs fd.toNat w.1).1
  | _ => trivial

/-- The record is kept by the reads of directories and by `open`. -/
theorem record_read_of_ne {env : Env} {k k' : Kernel} {op : Op} {l : listings}
    (hop : ¬ op.on_files) : record_read env k op k' l = l := by
  cases op <;> first | rfl | exact absurd trivial hop

/-- The record and the counter stay. -/
theorem ListingInv.keep {w w' : Kernel × listings} (h : ListingInv w) (htable : ProcessTable w'.1)
    (hl : w'.2 = w.2) (hcounter : w'.1.dentry_counter = w.1.dentry_counter) : ListingInv w' := by
  refine ⟨htable, fun hidle => ?_, fun d hactive hpos => ?_⟩
  · rw [hcounter]
    exact h.idle (hl ▸ hidle)
  · rw [hcounter, hl]
    exact h.active d (hl ▸ hactive) (hl ▸ hpos)

/-- A descriptor that is opened again has no listing any more. -/
theorem ListingInv.reopened {w w' : Kernel × listings} (h : ListingInv w)
    (htable : ProcessTable w'.1) (hcounter : w'.1.dentry_counter = w.1.dentry_counter) {d₀ : ℕ × ℕ}
    (hrec : { w.2 with reads := Function.update w.2.reads d₀ 0 } = w'.2) : ListingInv w' := by
  refine ⟨htable, fun hidle => ?_, fun d hactive hpos => ?_⟩
  · rw [hcounter]
    rw [← hrec] at hidle
    exact h.idle hidle
  · rw [← hrec] at hactive hpos ⊢
    dsimp only at hactive hpos ⊢
    rw [Function.update_apply] at hpos ⊢
    split at hpos
    · exact absurd hpos (Nat.lt_irrefl 0)
    · rename_i hd
      rw [hcounter, if_neg hd]
      exact h.active d hactive hpos

/-- A read in turn goes on with the listing, or ends it. -/
theorem ListingInv.read_in_turn {w w' : Kernel × listings} {d₀ : ℕ × ℕ} {count : ℕ} {n : Int}
    (htable : ProcessTable w'.1) (hcounter : w.1.dentry_counter = w.2.reads d₀)
    (hzero : n = 0 ↔ ¬ w.1.dentry_counter < count)
    (hnext : w'.1.dentry_counter = if w.1.dentry_counter < count then w.1.dentry_counter + 1 else 0)
    (hrec : { reads := Function.update w.2.reads d₀ (w.2.reads d₀ + 1),
              active := if n = 0 then none else some d₀ } = w'.2) : ListingInv w' := by
  by_cases hlt : w.1.dentry_counter < count
  · -- a name: the listing goes on
    rw [if_neg (fun hz => hzero.mp hz hlt)] at hrec
    rw [if_pos hlt] at hnext
    refine ⟨htable, fun hidle => ?_, fun d hactive _ => ?_⟩
    · rw [← hrec] at hidle
      cases hidle
    · rw [← hrec] at hactive ⊢
      obtain rfl : d₀ = d := Option.some.inj hactive
      dsimp only
      rw [Function.update_self, hnext, hcounter]
  · -- the end: the counter is zero again
    rw [if_pos (hzero.mpr hlt)] at hrec
    rw [if_neg hlt] at hnext
    refine ⟨htable, fun _ => hnext, fun d hactive _ => ?_⟩
    rw [← hrec] at hactive
    cases hactive

theorem listingInv_step {env : Env} (w : Kernel × listings) (op : Op) (w' : Kernel × listings)
    (h : ListingInv w) (hturn : ReadsInTurn w op) (hstep : listing_step env w op = some w') :
    ListingInv w' := by
  obtain ⟨hkstep, hrec⟩ := with_history_eq_some.mp hstep
  have htable : ProcessTable w'.1 := h.table.step hkstep
  obtain ⟨stack, hinv, -⟩ := h.table
  by_cases hfiles : op.on_files
  · obtain ⟨c, hperform⟩ := kstep_eq_some.mp hkstep
    cases op with
    | «open» filename =>
        obtain ⟨⟨r, k₁⟩, hopen, heq⟩ := Option.map_eq_some_iff.mp hperform
        obtain ⟨rfl, rfl⟩ := Prod.mk.inj heq
        have hcounter := system_open_dentry_counter hopen
        simp only [record_read, hperform] at hrec
        by_cases hr : 0 ≤ r
        · rw [if_pos hr] at hrec
          exact h.reopened htable hcounter hrec
        · rw [if_neg hr] at hrec
          exact h.keep htable hrec.symm hcounter
    | close fd =>
        obtain ⟨⟨r, k₁⟩, hclose, heq⟩ := Option.map_eq_some_iff.mp hperform
        obtain ⟨rfl, rfl⟩ := Prod.mk.inj heq
        exact h.keep htable hrec.symm (system_close_dentry_counter hclose)
    | read fd buf nbytes =>
        obtain ⟨⟨c₁, bytes, k₁⟩, hread, heq⟩ := Option.map_eq_some_iff.mp hperform
        obtain ⟨rfl, rfl⟩ := Prod.mk.inj heq
        by_cases hdir : reads_directory w.1 fd
        · have hnext := (read_directory_eq env.fs fd.toNat w.1).2
          rw [system_read_directory hdir, Option.some.injEq, Prod.mk.injEq] at hread
          obtain ⟨rfl, hrest⟩ := hread
          have hk₁ : (read_directory env.fs fd.toNat w.1).2.2 = w'.1 := (Prod.mk.inj hrest).2
          simp only [record_read, hperform, if_pos hdir] at hrec
          rw [hk₁] at hnext
          exact .read_in_turn htable (h.counter hturn hdir)
            (read_directory_eq_zero_iff env.fs fd.toNat w.1) hnext hrec
        · -- a read of something else is not on record
          refine h.keep htable ?_ (system_read_dentry_counter hdir hread)
          rw [← hrec]
          simp only [record_read, hperform]
          split
          · rename_i hd _
            cases hd
          · rename_i hop hctrl
            obtain ⟨rfl, -, -⟩ := Op.read.inj hop
            exact if_neg hdir
          · rfl
    | _ => exact hfiles.elim
  · refine h.keep htable ?_ ((kstep_memory hinv.flag hkstep).2 hfiles)
    rw [← hrec, record_read_of_ne hfiles]

/-! ## Runs -/

/-- Nothing has been read yet. -/
def no_listings : listings := ⟨fun _ => 0, none⟩

theorem listingInv_boot {env : Env} {k : Kernel} (h : Started env k) :
    ListingInv (k, no_listings) where
  table := h.process_table
  idle _ := h.booted.dentry_counter
  active _ hactive := nomatch hactive

/-- **If every listing is read to its end before the next one begins, each descriptor gets
the entries in order, each once, and then 0.** -/
theorem directory_reads_next {env : Env} {k₀ : Kernel} {ops : List Op} (hstart : Started env k₀)
    (hturn : AllSteps (listing_step env) ReadsInTurn (k₀, no_listings) ops) :
    AllSteps (listing_step env) (ReadsNext env) (k₀, no_listings) ops :=
  hturn.mono ListingInv listingInv_step (fun _ _ h hC => readsNext h hC) (listingInv_boot hstart)

/-- A shell lists the directory with one descriptor, and then begins with another. -/
theorem directory_reads_next_demo :
    AllSteps (listing_step demo_env) (ReadsNext demo_env) (demo, no_listings)
      [.tick (demo_frame 3 3), .open (ascii "."), .open (ascii "."), .read 2 demo_buf 32, .tick (demo_frame 4 4),
        .tick (demo_frame 5 5), .tick (demo_frame 6 6), .read 2 demo_buf 32, .read 2 demo_buf 32, .read 3 demo_buf 32] :=
  directory_reads_next demo_started (by decide +kernel)

/-- A shell with two descriptors on the directory: the first read of the second one
returns the second entry. -/
theorem directory_read_skips : Started demo_env demo ∧ ∃ w,
    run (listing_step demo_env) (demo, no_listings) [.tick (demo_frame 3 3), .open (ascii "."),
      .open (ascii "."), .read 2 demo_buf 32] = some w ∧
    w.2.reads (descriptor w.1 3) = 0 ∧
    (system_read demo_env.fs 3 demo_buf 32 w.1).map (fun r => (r.1, r.2.1))
      = some (entry_at demo_env.fs 1) ∧
    ¬ ReadsNext demo_env w (.read 3 demo_buf 32) := by
  have hvalues : (run (listing_step demo_env) (demo, no_listings) [.tick (demo_frame 3 3),
      .open (ascii "."), .open (ascii "."), .read 2 demo_buf 32]).map (fun w =>
        (w.2.reads (descriptor w.1 3), decide (reads_directory w.1 3),
          (system_read demo_env.fs 3 demo_buf 32 w.1).map fun r => (r.1, r.2.1)))
      = some (0, true, some (entry_at demo_env.fs 1)) := by decide +kernel
  obtain ⟨w, hw, hv⟩ := Option.map_eq_some_iff.mp hvalues
  simp only [Prod.mk.injEq] at hv
  obtain ⟨hreads, hdir, hread⟩ := hv
  refine ⟨demo_started, w, hw, hreads, hread, fun hnext => ?_⟩
  obtain ⟨⟨c, bytes, k'⟩, hsys, heq⟩ := Option.map_eq_some_iff.mp hread
  have hentry := hnext (of_decide_eq_true hdir) c bytes k' hsys
  rw [hreads] at hentry
  have hsame : entry_at demo_env.fs 1 = entry_at demo_env.fs 0 := heq.symm.trans hentry
  exact absurd hsame (by decide +kernel)

end LinuxLikeOS
