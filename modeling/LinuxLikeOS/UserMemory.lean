/-
The memory of the processes, over whole runs.

The kernel is put beside physical memory here, and its operations are interleaved with the stores
of the program that runs. A store goes through the page structures, and the only other writer of
process memory is the loader of `system_execute`. Both reach the frame of one process and nothing
of another: the one that runs, and the one that is started. So a process that is live and does not
run has its 4 MB byte for byte, however long it waits and whatever the others do.
-/
import LinuxLikeOS.Agreement
import LinuxLikeOS.Calls
import LinuxLikeOS.Loader

set_option autoImplicit false

namespace LinuxLikeOS

open Kernel Transition

/-! ## What a process sees -/

/-- Byte `addr` as the program that runs sees it. -/
def Machine.load (link : Linkage) (m : Machine) (addr : ℕ) : Option UInt8 :=
  (translate link m.kernel.paging addr).map fun t => m.mem t.phys

/-- The frame of a process. -/
def user_memory (p : ℕ) (mem : ℕ → UInt8) (off : Fin FOUR_MB) : UInt8 :=
  mem (EIGHT_MB + FOUR_MB * p + off)

/-- A process that is started comes from the terminal on display. -/
def StartsOnDisplay (env : Env) (m : Machine) : MachineOp → Prop
  | .op op => OnDisplay env m.kernel op
  | .store _ _ => True

instance (env : Env) (m : Machine) : (e : MachineOp) → Decidable (StartsOnDisplay env m e)
  | .op op => inferInstanceAs (Decidable (OnDisplay env m.kernel op))
  | .store _ _ => isTrue trivial

/-! ## What is reached -/

section

variable {env : Env} {pg : Paging} {link : Linkage} {p q addr phys : ℕ} {user : Bool}

/-- Through the two user entries of the directory: the frame of the process, and memory below
every frame. -/
theorem user_translation (hpage : UserPage pg p) (hinv : PagingInv link pg)
    (hindex : addr >>> 22 = USER_ADDR_INDEX ∨ addr >>> 22 = USER_ADDR_INDEX + 1)
    (htr : translate link pg addr = some ⟨phys, user⟩) :
    phys < EIGHT_MB ∨ (EIGHT_MB + FOUR_MB * p ≤ phys ∧ phys < EIGHT_MB + FOUR_MB * (p + 1)) := by
  have h8 : EIGHT_MB = 8388608 := rfl
  rcases hindex with h32 | h33
  · right
    exact hinv.frame_translation hpage.base_addr h32 htr
  · left
    have hvideo := hinv.video_translation h33 htr
    omega

/-- A store there is not in the frame of another process. -/
theorem user_memory_update (hpage : UserPage pg p) (hinv : PagingInv link pg)
    (hindex : addr >>> 22 = USER_ADDR_INDEX ∨ addr >>> 22 = USER_ADDR_INDEX + 1)
    (htr : translate link pg addr = some ⟨phys, user⟩) (hq : q ≠ p) (mem : ℕ → UInt8) (byte : UInt8) :
    user_memory q (Function.update mem phys byte) = user_memory q mem := by
  have hreach := user_translation hpage hinv hindex htr
  have h4 : FOUR_MB = 4194304 := rfl
  funext ⟨off, hoff⟩
  unfold user_memory
  apply Function.update_of_ne
  dsimp only
  rw [h4] at hoff hreach ⊢
  omega

/-- Where user code may store. -/
theorem user_index (hinv : PagingInv link pg) (haddr : addr < ADDRESS_SPACE)
    (htr : translate link pg addr = some ⟨phys, true⟩) :
    addr >>> 22 = USER_ADDR_INDEX ∨ addr >>> 22 = USER_ADDR_INDEX + 1 := by
  obtain ⟨s, -, hreach⟩ := hinv.user_reach
  rcases (hreach addr phys haddr htr).1 with h | h
  · exact Or.inl h.1
  · exact Or.inr h.1

/-! ## The loader -/

/-- The 4 MB that are asked for are the most that is read. -/
theorem length_read_data_le (fs : file_sys) (inode_num : ℕ) :
    (read_data fs inode_num 0 FOUR_MB).2.length ≤ FOUR_MB := by
  have h4 : FOUR_MB = 4194304 := rfl
  by_cases hino : inode_num < fs.boot_block.inode_count
  · by_cases hin : 0 < (fs.inode inode_num).length
    · rw [read_data_inside hino hin, clipped_of_fits hin (by omega), length_file_bytes]
      omega
    · rw [read_data_at_end hino (by omega)]
      exact Nat.zero_le _
  · rw [read_data_of_bad_inode (by omega)]
    exact Nat.zero_le _

/-- **Loading a program leaves the frames of the other processes alone**, even when the file runs
out of the page. By the invariant of the loop: so far nothing was stored in the frame of `q`. -/
theorem user_memory_loaded {k : Kernel} {dentry : dentry_t} (hpage : UserPage k.paging p)
    (hinv : PagingInv env.link k.paging) (hq : q ≠ p) (mem : ℕ → UInt8) :
    user_memory q (loaded_memory env k dentry mem) = user_memory q mem := by
  have hlen := length_read_data_le env.fs dentry.inode_num
  unfold loaded_memory load_program
  apply for_loop_invariant (fun _ mem' => user_memory q mem' = user_memory q mem) rfl
  intro i mem' hi hkept
  have hindex : (VIRTUAL_ADDR + i) >>> 22 = USER_ADDR_INDEX ∨
      (VIRTUAL_ADDR + i) >>> 22 = USER_ADDR_INDEX + 1 := by
    have h4 : FOUR_MB = 4194304 := rfl
    have hvirtual : VIRTUAL_ADDR = 134512640 := rfl
    have h32 : USER_ADDR_INDEX = 32 := rfl
    rw [Nat.shiftRight_eq_div_pow]
    omega
  split
  · rename_i t htr
    rw [user_memory_update hpage hinv hindex htr hq, hkept]
  · exact hkept

end

/-! ## One step -/

section

variable {env : Env} {m m' : Machine} {p q : ℕ}

/-- What the steps keep. -/
structure MachineInv (env : Env) (m : Machine) : Prop where
  agree : ∃ stack, AgreeInv m.kernel stack
  paging : PagingInv env.link m.kernel.paging

theorem Started.machine_inv {k : Kernel} (h : Started env k) (mem : ℕ → UInt8) :
    MachineInv env ⟨k, mem⟩ :=
  ⟨⟨_, h.booted.agree_inv⟩, h.paging_inv⟩

theorem machine_step_store {addr : BitVec 32} {byte : UInt8} :
    machine_step env m (.store addr byte) = some m' ↔
      ∃ phys, translate env.link m.kernel.paging addr.toNat = some ⟨phys, true⟩ ∧
        m' = { m with mem := Function.update m.mem phys byte } := by
  rw [machine_step]
  split
  · rename_i phys htr
    rw [htr]
    constructor
    · intro h
      exact ⟨phys, rfl, (Option.some.inj h).symm⟩
    · rintro ⟨phys', htr', rfl⟩
      obtain ⟨rfl, -⟩ := Translation.mk.inj (Option.some.inj htr')
      rfl
  · rename_i hno
    constructor
    · intro h
      cases h
    · rintro ⟨phys, htr, -⟩
      exact absurd htr (hno phys)

theorem MachineInv.step {e : MachineOp} (h : MachineInv env m) (hdisplay : StartsOnDisplay env m e)
    (hstep : machine_step env m e = some m') : MachineInv env m' := by
  cases e with
  | op op =>
      obtain ⟨k', hk', rfl⟩ := machine_step_op.mp hstep
      exact ⟨agree_step _ _ _ h.agree hdisplay hk', kstep_paging _ _ _ h.paging hk'⟩
  | store addr byte =>
      -- a store is to memory that has none of the kernel's structures
      obtain ⟨phys, -, rfl⟩ := machine_step_store.mp hstep
      exact ⟨h.agree, h.paging⟩

/-- An operation that starts nothing stores nothing. -/
theorem op_memory_of_none {k k' : Kernel} {op : Op} (h : op.started_pid env k = none)
    (mem : ℕ → UInt8) : op_memory env k k' op mem = mem := by
  unfold op_memory
  split
  · rename_i command fr
    split
    · rename_i dentry pid hprog hfree
      have hsome : started_pid env fr (some command) k = some pid :=
        started_pid_eq_some.mpr ⟨command, dentry, rfl, hprog, hfree⟩
      replace h : started_pid env fr (some command) k = none := h
      rw [hsome] at h
      cases h
    · rfl
  · rfl

/-- **One operation leaves the frame of every live process alone.** A program is loaded into the
slot that was free. -/
theorem user_memory_op {op : Op} (h : MachineInv env m) {k' : Kernel}
    (hstep : kstep env m.kernel op = some k') (hq : live m.kernel q) :
    user_memory q (op_memory env m.kernel k' op m.mem) = user_memory q m.mem := by
  cases hpid : op.started_pid env m.kernel with
  | none => rw [op_memory_of_none hpid]
  | some pid =>
      cases op with
      | execute command fr =>
          obtain ⟨stack, hagree⟩ := h.agree
          replace hpid : started_pid env fr command m.kernel = some pid := hpid
          obtain ⟨line, dentry, rfl, hprog, hfree⟩ := started_pid_eq_some.mp hpid
          have hne : q ≠ pid := by
            intro heq
            apply ProcessInv.not_live_of_started hpid
            exact heq ▸ hq
          -- the directory has the new frame when the loader runs
          have hpage : UserPage k'.paging pid := by
            obtain ⟨c, hexec⟩ := kstep_eq_some.mp hstep
            replace hexec : system_execute env (some line) fr m.kernel = some (c, k') := hexec
            obtain ⟨eip, -, rfl⟩ := system_execute_starts hexec hpid
            rw [(create_process_memory pid _ eip fr _).1]
            exact .process_page (free_pid_spec hfree).1 hagree.user_page.page_size
          have hload : op_memory env m.kernel k' (.execute (some line) fr) m.mem
              = loaded_memory env k' dentry m.mem := by
            unfold op_memory
            simp only [hprog, hfree]
          rw [hload]
          exact user_memory_loaded hpage (kstep_paging _ _ _ h.paging hstep) hne m.mem
      | _ => cases hpid

/-- **One step leaves the frame of a live process that does not run alone.** -/
theorem user_memory_step {e : MachineOp} (h : MachineInv env m)
    (hstep : machine_step env m e = some m') (hq : live m.kernel q) (hne : q ≠ m.kernel.curr_pid) :
    user_memory q m'.mem = user_memory q m.mem := by
  cases e with
  | op op =>
      obtain ⟨k', hk', rfl⟩ := machine_step_op.mp hstep
      exact user_memory_op h hk' hq
  | store addr byte =>
      obtain ⟨phys, htr, rfl⟩ := machine_step_store.mp hstep
      obtain ⟨stack, hagree⟩ := h.agree
      exact user_memory_update hagree.user_page h.paging (user_index h.paging addr.isLt htr) htr hne
        m.mem byte

/-- The process that runs sees its own frame. -/
theorem MachineInv.load (h : MachineInv env m) (off : Fin FOUR_MB) :
    m.load env.link (USER_ADDR_INDEX * FOUR_MB + off)
      = some (user_memory m.kernel.curr_pid m.mem off) := by
  obtain ⟨stack, hagree⟩ := h.agree
  unfold Machine.load
  rw [hagree.user_page.translate env.link off.isLt]
  rfl

/-! ## Runs -/

/-- Process `p` waits for `q`, which it has executed: with its registers saved, and its frame as
it left it. -/
structure Waits (env : Env) (p q : ℕ) (fr : frame) (page : Fin FOUR_MB → UInt8) (m : Machine) : Prop
    extends MachineInv env m where
  child : live m.kernel q
  parent : parent_of m.kernel q = some p
  esp : (m.kernel.pcb p).esp = fr.esp
  ebp : (m.kernel.pcb p).ebp = fr.ebp
  memory : user_memory p m.mem = page

/-- A call begins: the caller's frame is left as it is by the loader. -/
theorem waits_execute {command : Option (List UInt8)} {fr : frame} (h : MachineInv env m)
    (hq : started_pid env fr command m.kernel = some q)
    (hdisplay : StartsOnDisplay env m (.op (.execute command fr)))
    (hstep : machine_step env m (.op (.execute command fr)) = some m') :
    Waits env m.kernel.curr_pid q fr (user_memory m.kernel.curr_pid m.mem) m' := by
  have hinv' := h.step hdisplay hstep
  obtain ⟨k', hk', rfl⟩ := machine_step_op.mp hstep
  obtain ⟨stack, hagree⟩ := h.agree
  obtain ⟨c, he⟩ := kstep_effect hagree.flag hk'
  have hscreen : m.kernel.curr_terminal = m.kernel.screen_terminal := by
    apply hdisplay
    rw [Op.started_pid, hq]
    exact Option.some_ne_none _
  have hcaller : terminal_pid m.kernel m.kernel.screen_terminal = m.kernel.curr_pid := by
    rw [← hscreen]
    rfl
  obtain ⟨eip, hpcb⟩ := hagree.pcb_started he hq
  have hparent : parent_of k' q = some m.kernel.curr_pid := by
    unfold parent_of
    rw [hpcb, ← hcaller]
    exact if_neg (ProcessInv.ne_base_shell (hagree.live_terminal_pid _))
  have hlive : live k' q := by
    cases he with
    | @create _ _ pid _ eip hpid =>
        obtain rfl : pid = q := Option.some.inj (hpid.symm.trans hq)
        rw [hagree.create_eq hpid]
        exact ⟨(started_pid_spec hpid).1, Function.update_self _ _ _⟩
    | halt hop _ _ => exact hop.elim
    | quiet _ _ hnone =>
        rw [Op.started_pid, hq] at hnone
        cases hnone
  -- the registers are those the caller has just saved
  have hsaved : (k'.pcb m.kernel.curr_pid).esp = fr.esp ∧ (k'.pcb m.kernel.curr_pid).ebp = fr.ebp := by
    rcases hagree.waiting he hlive hparent with ⟨command', fr', hop, -, -, hsaved⟩ | ⟨hne, -⟩
    · obtain ⟨-, rfl⟩ := Op.execute.inj hop
      rw [hsaved]
      exact ⟨rfl, rfl⟩
    · exact absurd hq hne
  exact ⟨hinv', hlive, hparent, hsaved.1, hsaved.2, user_memory_op h hk' hagree.live_curr_pid⟩

/-- While the child lives, no step touches the process that waits for it. -/
theorem Waits.step {fr : frame} {page : Fin FOUR_MB → UInt8} {e : MachineOp}
    (h : Waits env p q fr page m) (hdisplay : StartsOnDisplay env m e)
    (hstep : machine_step env m e = some m') (hlive : live m'.kernel q) :
    Waits env p q fr page m' := by
  have hinv' := h.toMachineInv.step hdisplay hstep
  obtain ⟨stack, hagree⟩ := h.agree
  have hne := hagree.parent_ne_terminal_pid h.child h.parent m.kernel.curr_terminal
  have hp : live m.kernel p := hagree.forest.live_parent h.child h.parent
  have hmem := (user_memory_step h.toMachineInv hstep hp hne).trans h.memory
  cases e with
  | op op =>
      obtain ⟨k', hk', rfl⟩ := machine_step_op.mp hstep
      obtain ⟨c, he⟩ := kstep_effect hagree.flag hk'
      have hold : op.started_pid env m.kernel ≠ some q := by
        intro hstarted
        cases op with
        | execute command fr' => exact ProcessInv.not_live_of_started hstarted h.child
        | _ => cases hstarted
      have hparent : parent_of k' q = some p := by
        obtain ⟨fds, esp, ebp, hpcb⟩ := hagree.pcb_step he hold
        rw [← h.parent]
        apply parent_of_congr
        rw [hpcb]
      rcases hagree.waiting he hlive hparent with ⟨command, fr', rfl, hstarted, -⟩ | ⟨-, -, -, hpcb⟩
      · exact absurd hstarted hold
      · exact ⟨hinv', hlive, hparent, hpcb ▸ h.esp, hpcb ▸ h.ebp, hmem⟩
  | store addr byte =>
      obtain ⟨phys, -, rfl⟩ := machine_step_store.mp hstep
      exact ⟨hinv', h.child, h.parent, h.esp, h.ebp, hmem⟩

/-- The end of the child hands the processor back to the caller. -/
theorem Waits.returns {fr : frame} {page : Fin FOUR_MB → UInt8} {op : Op}
    (h : Waits env p q fr page m) (hq : m.kernel.curr_pid = q) (hop : op.halts)
    (hstep : machine_step env m (.op op) = some m') :
    perform env m.kernel op = some (.execute_return op.ext_status fr.esp fr.ebp, m'.kernel) ∧
      m'.kernel.curr_pid = p ∧ user_memory p m'.mem = page := by
  obtain ⟨stack, hagree⟩ := h.agree
  have hp : live m.kernel p := hagree.forest.live_parent h.child h.parent
  obtain ⟨k', hk', rfl⟩ := machine_step_op.mp hstep
  obtain ⟨c, hperform⟩ := kstep_eq_some.mp hk'
  have hmem := (user_memory_op h.toMachineInv hk' hp).trans h.memory
  have hparent : (m.kernel.pcb m.kernel.curr_pid).parent_pid ≠ BASE_SHELL ∧
      curr_parent m.kernel = p := by
    have hpar := h.parent
    unfold parent_of at hpar
    rw [← hq] at hpar
    split at hpar
    · cases hpar
    · rename_i hne
      exact ⟨hne, Option.some.inj hpar⟩
  have he := perform_effect hagree.flag hperform
  cases he with
  | tick fr => exact hop.elim
  | create _ _ => exact hop.elim
  | @halt _ k₁ _ hdraw hbase =>
      rw [hparent.2, h.esp, h.ebp] at hperform
      refine ⟨hperform, ?_, hmem⟩
      have hcurr : (halted k₁).curr_pid = curr_parent k₁ := if_pos rfl
      rw [hcurr, hdraw.curr_parent]
      exact hparent.2
  | quiet _ hbase _ _ => exact absurd (hbase hop).1 hparent.1

end

end LinuxLikeOS
