/-
Whose descriptors the end of a process closes.

`system_halt` gives the terminal to the parent before it calls `system_close`, and
`system_close` looks its table up through the terminal. So the eight calls close the
descriptors of the parent, and those of the process that ends stay open in its free slot.
That is the frame a caller expects exactly when there is nothing to close: neither in the
process that ends nor in its parent.
-/
import LinuxLikeOS.Calls

set_option autoImplicit false

namespace LinuxLikeOS

open Kernel StackForest Transition

/-! ## The property -/

/-- No descriptor that `open` hands out is in use. -/
def nothing_open (p : pcb_t) : Prop :=
  ∀ i, i < FILE_DESCRIPTOR_MAX → FILE_DESCRIPTOR_MIN ≤ i → ¬ (p.file_descriptors i).in_use

instance (p : pcb_t) : Decidable (nothing_open p) := inferInstanceAs (Decidable (∀ _, _))

/-- The end of the running process closes the descriptors it has open, leaves the tables
of all other processes alone, and so hands its parent the descriptors it was called
with. -/
structure ClosesOwn (w : Kernel × (ℕ → call)) (k' : Kernel) : Prop where
  own : (k'.pcb w.1.curr_pid).file_descriptors
    = (close_below FILE_DESCRIPTOR_MAX (w.1.pcb w.1.curr_pid)).file_descriptors
  other : ∀ p, p ≠ w.1.curr_pid →
    (k'.pcb p).file_descriptors = (w.1.pcb p).file_descriptors
  caller : ¬ base_halt w.1 → (w.2 w.1.curr_pid).caller = curr_parent w.1 →
    (k'.pcb (curr_parent w.1)).file_descriptors = (w.2 w.1.curr_pid).file_descriptors

def HaltClosesOwn (env : Env) (w : Kernel × (ℕ → call)) (op : Op) : Prop :=
  op.halts → ∀ k', kstep env w.1 op = some k' → ClosesOwn w k'

/-- A process that ends has nothing open, and neither has the parent it returns to. -/
def HaltNothingOpen (k : Kernel) (op : Op) : Prop :=
  op.halts → nothing_open (k.pcb k.curr_pid) ∧
    (¬ base_halt k → nothing_open (k.pcb (curr_parent k)))

instance (k : Kernel) (op : Op) : Decidable (HaltNothingOpen k op) :=
  inferInstanceAs (Decidable (_ → _))

/-- Closing changes a table that has something open. -/
theorem close_below_eq_iff (p : pcb_t) :
    (close_below FILE_DESCRIPTOR_MAX p).file_descriptors = p.file_descriptors ↔
      nothing_open p := by
  constructor
  · intro h i hi hi' hopen
    have hclosed : (close_below FILE_DESCRIPTOR_MAX p).file_descriptors i
        = closed_fd (p.file_descriptors i) := if_pos ⟨hi', hi, hopen⟩
    rw [h] at hclosed
    apply hopen
    rw [hclosed]
    rfl
  · intro h
    funext i
    apply if_neg
    rintro ⟨hi', hi, hopen⟩
    exact h i hi hi' hopen

/-! ## Every open descriptor can be closed

`open` leaves the operation pointer of an unknown file type as it was, and calls through
it at once, so a descriptor that stays open has one of the three tables with a `close`. -/

/-- The open descriptors of the live processes have a `close` operation. -/
def Closable (k : Kernel) : Prop :=
  ∀ p i, live k p → i < FILE_DESCRIPTOR_MAX → FILE_DESCRIPTOR_MIN ≤ i →
    ((k.pcb p).file_descriptors i).in_use →
    (fops_close ((k.pcb p).file_descriptors i).file_op_table_ptr).isSome = true

theorem set_fd_file_descriptors (pid i : ℕ) (f : fd_t → fd_t) (k : Kernel) (p j : ℕ) :
    ((set_fd pid i f k).pcb p).file_descriptors j
      = if p = pid ∧ j = i then f ((k.pcb p).file_descriptors j)
        else (k.pcb p).file_descriptors j := by
  unfold set_fd
  rw [set_pcb_apply]
  by_cases hp : p = pid
  · subst hp
    simp only [true_and, if_true, Function.update_apply]
    by_cases hj : j = i <;> simp [hj]
  · simp [hp]

/-- `read` writes positions only. -/
theorem system_read_fd {fs : file_sys} {fd : Int} {buf : ℕ} {nbytes : Int} {k k' : Kernel}
    {c : Control} {bytes : List UInt8} (h : system_read fs fd buf nbytes k = some (c, bytes, k'))
    (p i : ℕ) :
    ((k'.pcb p).file_descriptors i).flags = ((k.pcb p).file_descriptors i).flags ∧
      ((k'.pcb p).file_descriptors i).file_op_table_ptr
        = ((k.pcb p).file_descriptors i).file_op_table_ptr := by
  rcases system_read_cases h with rfl | rfl | rfl | ⟨-, rfl⟩ | rfl
  · exact ⟨rfl, rfl⟩
  · rcases terminal_read_begin_cases buf nbytes k with ⟨-, hread⟩ | ⟨-, hread⟩
    · rw [hread]
      exact ⟨rfl, rfl⟩
    · rw [hread]
      exact ⟨rfl, rfl⟩
  · exact ⟨rfl, rfl⟩
  · unfold read_directory
    split <;> exact ⟨rfl, rfl⟩
  · unfold read_file
    split
    · exact ⟨rfl, rfl⟩
    · dsimp only
      rw [set_fd_file_descriptors]
      split <;> exact ⟨rfl, rfl⟩

/-- A descriptor that is open after a file operation was open before with the same table,
or has a `close` operation. -/
theorem Op.on_files.descriptor {env : Env} {k k' : Kernel} {op : Op} {c : Control}
    (hop : op.on_files) (h : perform env k op = some (c, k')) (p i : ℕ)
    (hopen : ((k'.pcb p).file_descriptors i).in_use) :
    (fops_close ((k'.pcb p).file_descriptors i).file_op_table_ptr).isSome = true ∨
      (((k.pcb p).file_descriptors i).in_use ∧
        ((k'.pcb p).file_descriptors i).file_op_table_ptr
          = ((k.pcb p).file_descriptors i).file_op_table_ptr) := by
  cases op with
  | «open» filename =>
      obtain ⟨⟨r, k₁⟩, hsys, heq⟩ := Option.map_eq_some_iff.mp h
      obtain ⟨-, rfl⟩ := Prod.mk.inj heq
      rcases system_open_cases hsys with ⟨-, hk⟩ | ⟨index, file, -, hclose, hk⟩
      · dsimp only at hopen ⊢
        rw [hk] at hopen ⊢
        exact Or.inr ⟨hopen, rfl⟩
      · have hpcb : k₁.pcb = (set_fd k.curr_pid index (fun _ => file) k).pcb := by
          rcases hk with rfl | rfl
          · rfl
          · unfold set_RTC_frequency
            split <;> rfl
        dsimp only at hopen ⊢
        rw [hpcb, set_fd_file_descriptors] at hopen ⊢
        split
        · exact Or.inl hclose
        · rename_i hne
          rw [if_neg hne] at hopen
          exact Or.inr ⟨hopen, rfl⟩
  | close fd =>
      obtain ⟨⟨r, k₁⟩, hsys, heq⟩ := Option.map_eq_some_iff.mp h
      obtain ⟨-, rfl⟩ := Prod.mk.inj heq
      right
      rcases system_close_cases hsys with hk | hk
      · dsimp only at hopen ⊢
        rw [hk] at hopen ⊢
        exact ⟨hopen, rfl⟩
      · -- the one descriptor that was written is not in use
        dsimp only at hopen ⊢
        rw [hk, set_fd_file_descriptors] at hopen ⊢
        split at hopen
        · exact absurd rfl hopen
        · rename_i hne
          rw [if_neg hne]
          exact ⟨hopen, rfl⟩
  | read fd buf nbytes =>
      obtain ⟨⟨c₁, bytes, k₁⟩, hsys, heq⟩ := Option.map_eq_some_iff.mp h
      obtain ⟨-, rfl⟩ := Prod.mk.inj heq
      right
      rcases system_read_fd hsys p i with ⟨hflags, hops⟩
      unfold fd_t.in_use at hopen ⊢
      rw [hflags] at hopen
      exact ⟨hopen, hops⟩
  | _ => exact hop.elim

theorem closable_boot {env : Env} {k : Kernel} (h : Started env k) : Closable k := by
  intro p i hp hi hi' hopen
  have hlt : p < 3 := h.booted.lt_of_live hp
  exact absurd hopen (h.booted.file_descriptors p i hlt hi' hi)

theorem closable_step {env : Env} {k k' : Kernel} {op : Op} {stack : Terminal → List ℕ}
    (hinv : ProcessInv k stack) (h : Closable k) (hstep : kstep env k op = some k') :
    Closable k' := by
  obtain ⟨c, hperform⟩ := kstep_eq_some.mp hstep
  have he := perform_effect hinv.flag hperform
  intro p i hp hi hi' hopen
  rcases hinv.live_or_started he hp with hnew | ⟨hne, hlive⟩
  · -- a new process has nothing open
    cases op with
    | execute command fr =>
        rcases hinv.pcb_started he hnew with ⟨eip, hpcb⟩
        rw [hpcb] at hopen
        refine absurd ?_ hopen
        have h2 : FILE_DESCRIPTOR_MIN = 2 := rfl
        show (new_fds (k.pcb p).file_descriptors i).flags = NOT_IN_USE
        unfold new_fds
        rw [if_neg (by omega), if_neg (by omega), if_pos hi]
    | _ => cases hnew
  · have hold : ((k.pcb p).file_descriptors i).in_use →
        ((k'.pcb p).file_descriptors i).file_op_table_ptr
          = ((k.pcb p).file_descriptors i).file_op_table_ptr →
        (fops_close ((k'.pcb p).file_descriptors i).file_op_table_ptr).isSome = true := by
      intro huse hops
      rw [hops]
      exact h p i hlive hi hi' huse
    by_cases hfiles : op.on_files
    · rcases hfiles.descriptor hperform p i hopen with hclose | ⟨huse, hops⟩
      · exact hclose
      · exact hold huse hops
    · -- no other operation opens a descriptor of an older process
      cases he with
      | tick fr =>
          rw [ticked_file_descriptors] at hopen ⊢
          exact h p i hlive hi hi' hopen
      | @create command fr pid _ eip hpid =>
          have hnew : p ≠ pid := fun heq => ProcessInv.not_live_of_started hpid (heq ▸ hlive)
          rw [hinv.create_eq hpid, created_file_descriptors hnew] at hopen ⊢
          exact h p i hlive hi hi' hopen
      | @halt _ k₁ hop hdraw hbase =>
          -- what the loop has left open it has left alone
          rw [halted_pcb, hdraw.pcb] at hopen ⊢
          split at hopen
          · rename_i hparent
            have hsame := close_below_of_in_use hopen
            rw [if_pos hparent]
            rw [hsame] at hopen ⊢
            exact h p i hlive hi hi' hopen
          · rename_i hparent
            rw [if_neg hparent]
            exact h p i hlive hi hi' hopen
      | quiet hquiet hhalt hpid hpcb =>
          rw [hpcb.resolve_left hfiles] at hopen ⊢
          exact h p i hlive hi hi' hopen

/-- The calls of `system_close` all return. -/
theorem close_files_isSome {k : Kernel} {n : ℕ} (hn : n ≤ FILE_DESCRIPTOR_MAX)
    (h : ∀ i, i < FILE_DESCRIPTOR_MAX → FILE_DESCRIPTOR_MIN ≤ i →
      ((k.pcb k.curr_pid).file_descriptors i).in_use →
      (fops_close ((k.pcb k.curr_pid).file_descriptors i).file_op_table_ptr).isSome = true) :
    (close_files n k).isSome = true := by
  induction n with
  | zero => rfl
  | succ n ih =>
      obtain ⟨k₁, hk₁⟩ := Option.isSome_iff_exists.mp (ih (by omega))
      have heq := close_files_eq (by omega) hk₁
      have hcurr : k₁.curr_pid = k.curr_pid := by rw [heq]; rfl
      -- descriptor `n` is still as it was when its turn comes
      have hfile : (k₁.pcb k.curr_pid).file_descriptors n
          = (k.pcb k.curr_pid).file_descriptors n := by
        rw [heq, set_pcb_apply, if_pos rfl, close_below_self]
      rw [close_files, hk₁, Option.bind_some, Option.isSome_map]
      simp only [system_close, get_pcb, hcurr, Int.toNat_natCast, hfile]
      split
      · rename_i hrange
        rw [Option.isSome_map]
        exact h n (by omega) (by omega) hrange.2
      · rfl

/-- **The end of a process returns to its parent.** -/
theorem system_halt_isSome {k : Kernel} {stack : Terminal → List ℕ} (hinv : ProcessInv k stack)
    (h : Closable k) (hbase : ¬ base_halt k) (status : ℕ) :
    (system_halt status k).isSome = true := by
  have hlive : live k (curr_parent k) :=
    hinv.forest.live_parent hinv.live_curr_pid (hinv.parent_of_curr hbase)
  have hcurr : (leave_process k.curr_pid (curr_parent k) k).curr_pid = curr_parent k := by
    rw [leave_process_eq]
    exact if_pos rfl
  have hfiles : (close_files FILE_DESCRIPTOR_MAX
      (leave_process k.curr_pid (curr_parent k) k)).isSome = true := by
    apply close_files_isSome (Nat.le_refl _)
    rw [hcurr]
    intro i hi hi' hopen
    exact h _ i hlive hi hi' hopen
  rw [system_halt_of_not_base status hbase, Option.isSome_map]
  exact hfiles

/-! ## The descriptors of a process that waits -/

/-- A process that waits for a child it called has the descriptors of the call. -/
def CallerFds (w : Kernel × (ℕ → call)) : Prop :=
  ∀ q p, live w.1 q → parent_of w.1 q = some p → (w.2 q).caller = p →
    (w.1.pcb p).file_descriptors = (w.2 q).file_descriptors

theorem callerFds_boot {env : Env} {k : Kernel} (h : Started env k) : CallerFds (k, boot_calls) := by
  intro q p hq hp
  -- at the start there are only base shells
  have hlt : q < 3 := h.booted.lt_of_live hq
  unfold parent_of at hp
  rw [if_pos (h.booted.parent_pid q hlt)] at hp
  cases hp

theorem callerFds_step {env : Env} {w w' : Kernel × (ℕ → call)} {op : Op}
    (htable : ProcessTable w.1) (h : CallerFds w) (hstep : call_step env w op = some w') :
    CallerFds w' := by
  obtain ⟨stack, hinv, -⟩ := htable
  obtain ⟨c, he⟩ := kstep_effect hinv.flag (call_step_fst hstep)
  intro q p hq hp hcaller
  rw [call_step_snd hstep] at hcaller ⊢
  rcases hinv.waiting he hq hp with ⟨command, fr, rfl, hpid, -, hpcb⟩ | ⟨hne, hlive, hpar, hpcb⟩
  · -- a new child: the record is of this very call
    rw [record_call_execute hpid, Function.update_self] at hcaller ⊢
    rw [hpcb, ← hcaller]
    rfl
  · rw [record_call_of_ne hne] at hcaller ⊢
    rw [hpcb]
    exact h q p hlive hpar hcaller

/-! ## The condition is exact -/

/-- The parent of a process that is not a base shell is another process. -/
theorem ProcessInv.curr_parent_ne {k : Kernel} {stack : Terminal → List ℕ} (h : ProcessInv k stack)
    (hbase : ¬ base_halt k) : curr_parent k ≠ k.curr_pid :=
  h.parent_ne_terminal_pid h.live_curr_pid (h.parent_of_curr hbase) k.curr_terminal

theorem haltClosesOwn_iff {env : Env} {w w' : Kernel × (ℕ → call)} {op : Op}
    (htable : ProcessTable w.1) (hcaller : CallerFds w) (hstep : call_step env w op = some w') :
    HaltClosesOwn env w op ↔ HaltNothingOpen w.1 op := by
  obtain ⟨stack, hinv, -⟩ := htable
  have hkstep := call_step_fst hstep
  by_cases hop : op.halts
  · by_cases hbase : base_halt w.1
    · -- a base shell: no table changes
      have hpcb : w'.1.pcb = w.1.pcb := (hop.base hbase hkstep).pcb
      constructor
      · intro h _
        refine ⟨?_, fun hn => absurd hbase hn⟩
        have hown := (h hop w'.1 hkstep).own
        rw [hpcb] at hown
        exact (close_below_eq_iff _).mp hown.symm
      · intro h _ k' hk'
        have hpcb' : k'.pcb = w.1.pcb := (hop.base hbase hk').pcb
        refine ⟨?_, fun p _ => by rw [hpcb'], fun hn => absurd hbase hn⟩
        rw [hpcb', (close_below_eq_iff _).mpr (h hop).1]
    · -- any other process: the parent's table is the one that changes
      have hne := hinv.curr_parent_ne hbase
      have hfds : ∀ k', kstep env w.1 op = some k' → ∀ p, (k'.pcb p).file_descriptors
          = if p = curr_parent w.1 then
              (close_below FILE_DESCRIPTOR_MAX (w.1.pcb p)).file_descriptors
            else (w.1.pcb p).file_descriptors := by
        intro k' hk' p
        obtain ⟨k₁, hdraw, rfl⟩ := hop.parent hbase hk'
        rw [halted_pcb, hdraw.curr_parent, hdraw.pcb]
        split <;> rfl
      constructor
      · intro h _
        have hcloses := h hop w'.1 hkstep
        -- the table of the process that ends has not changed, the parent's was closed
        have hown := hcloses.own
        rw [hfds _ hkstep, if_neg hne.symm] at hown
        have hother := hcloses.other (curr_parent w.1) hne
        rw [hfds _ hkstep, if_pos rfl] at hother
        exact ⟨(close_below_eq_iff _).mp hown.symm, fun _ => (close_below_eq_iff _).mp hother⟩
      · intro h _ k' hk'
        have hown := (close_below_eq_iff _).mpr (h hop).1
        have hparent := (close_below_eq_iff _).mpr ((h hop).2 hbase)
        have hsame : ∀ p, (k'.pcb p).file_descriptors = (w.1.pcb p).file_descriptors := by
          intro p
          rw [hfds k' hk']
          split
          · rename_i hp
            rw [hp, hparent]
          · rfl
        refine ⟨by rw [hsame, hown], fun p _ => hsame p, fun _ hcall => ?_⟩
        rw [hsame]
        exact hcaller _ _ hinv.live_curr_pid (hinv.parent_of_curr hbase) hcall
  · exact iff_of_true (fun h => absurd h hop) fun h => absurd h hop

/-- **The end of a process closes its own descriptors and no others, and hands the caller
its descriptors back, exactly when neither of the two processes has any open.** -/
theorem halt_closes_own_iff {env : Env} {k₀ : Kernel} {w : Kernel × (ℕ → call)} {ops : List Op}
    (hstart : Started env k₀) (hrun : run (call_step env) (k₀, boot_calls) ops = some w) :
    AllSteps (call_step env) (HaltClosesOwn env) (k₀, boot_calls) ops ↔
      AllSteps (call_step env) (fun w op => HaltNothingOpen w.1 op) (k₀, boot_calls) ops := by
  refine AllSteps.congr (B := fun _ _ => True) (fun w => ProcessTable w.1 ∧ CallerFds w) ?_ ?_
    ⟨hstart.process_table, callerFds_boot hstart⟩ (allSteps_of_forall fun _ _ => trivial) hrun
  · rintro w op w' ⟨htable, hcaller⟩ - hstep
    exact ⟨htable.step (call_step_fst hstep), callerFds_step htable hcaller hstep⟩
  · rintro w op w' ⟨htable, hcaller⟩ - hstep
    exact haltClosesOwn_iff htable hcaller hstep

/-- A shell that starts a shell without any file open. -/
theorem halt_closes_own_demo : ∃ w,
    run (call_step demo_env) (demo, boot_calls) [.tick (demo_frame 3 3),
      .execute (some (ascii "shell")) (demo_frame 4 4), .open (ascii "."), .close 2,
      .halt 0] = some w ∧
    (AllSteps (call_step demo_env) (HaltClosesOwn demo_env) (demo, boot_calls)
        [.tick (demo_frame 3 3), .execute (some (ascii "shell")) (demo_frame 4 4),
          .open (ascii "."), .close 2, .halt 0] ↔
      AllSteps (call_step demo_env) (fun w op => HaltNothingOpen w.1 op) (demo, boot_calls)
        [.tick (demo_frame 3 3), .execute (some (ascii "shell")) (demo_frame 4 4),
          .open (ascii "."), .close 2, .halt 0]) ∧
    AllSteps (call_step demo_env) (fun w op => HaltNothingOpen w.1 op) (demo, boot_calls)
      [.tick (demo_frame 3 3), .execute (some (ascii "shell")) (demo_frame 4 4),
        .open (ascii "."), .close 2, .halt 0] := by
  have hsome : (run (call_step demo_env) (demo, boot_calls) [.tick (demo_frame 3 3),
      .execute (some (ascii "shell")) (demo_frame 4 4), .open (ascii "."), .close 2,
      .halt 0]).isSome = true := by decide +kernel
  obtain ⟨w, hw⟩ := Option.isSome_iff_exists.mp hsome
  exact ⟨w, hw, halt_closes_own_iff demo_started hw, by decide +kernel⟩

/-- A shell with the directory open starts a shell, which ends at once: the directory of
the first shell is closed. -/
theorem halt_closes_parent : Started demo_env demo ∧ ∃ w w',
    run (call_step demo_env) (demo, boot_calls) [.tick (demo_frame 3 3), .open (ascii "."),
      .execute (some (ascii "shell")) (demo_frame 4 4)] = some w ∧
    call_step demo_env w (.halt 0) = some w' ∧
    ((w.1.pcb (curr_parent w.1)).file_descriptors 2).in_use ∧
    ¬ ((w'.1.pcb (curr_parent w.1)).file_descriptors 2).in_use ∧
    ¬ HaltClosesOwn demo_env w (.halt 0) := by
  have hvalues : (run (call_step demo_env) (demo, boot_calls) [.tick (demo_frame 3 3),
      .open (ascii "."), .execute (some (ascii "shell")) (demo_frame 4 4)]).bind (fun w =>
        (call_step demo_env w (.halt 0)).map fun w' =>
          (w.1.curr_pid, curr_parent w.1, ((w.1.pcb (curr_parent w.1)).file_descriptors 2).flags,
            ((w'.1.pcb (curr_parent w.1)).file_descriptors 2).flags))
      = some (3, 0, IN_USE, NOT_IN_USE) := by decide +kernel
  obtain ⟨w, hw, hmap⟩ := Option.bind_eq_some_iff.mp hvalues
  obtain ⟨w', hw', hv⟩ := Option.map_eq_some_iff.mp hmap
  simp only [Prod.mk.injEq] at hv
  obtain ⟨hcurr, hparent, hopen, hclosed⟩ := hv
  have hopen' : ((w.1.pcb (curr_parent w.1)).file_descriptors 2).in_use := by
    rw [fd_t.in_use, hopen]
    decide
  refine ⟨demo_started, w, w', hw, hw', hopen', fun h => h hclosed, fun hcloses => ?_⟩
  have hne : curr_parent w.1 ≠ w.1.curr_pid := by
    rw [hcurr, hparent]
    decide
  have hsame := (hcloses trivial w'.1 (call_step_fst hw')).other _ hne
  rw [← hsame] at hopen'
  exact hopen' hclosed

end LinuxLikeOS
