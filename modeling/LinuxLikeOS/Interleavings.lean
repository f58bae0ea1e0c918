/-
The processes in every interleaving.

The kernel of a moment takes the steps of `Machine` as long as its stores are contained, so what
those steps keep holds in every moment of a contained run: the process table represents three
stacks, and the four places that name the running process agree, if processes are started from the
terminal on display.

Without containment neither lasts. A program that runs past its page is given a slot before it
faults, and the handler ends the process that has called, or enters its base shell again, so the
slot stays in use for ever and belongs to no process.
-/
import LinuxLikeOS.Agreement
import LinuxLikeOS.Moments

set_option autoImplicit false

namespace LinuxLikeOS

open Kernel StackForest Transition

/-! ## System calls and processes -/

/-- The slot an operation takes. -/
def SysOp.started_pid (env : Env) (k : Kernel) : SysOp → Option ℕ
  | .base op => op.started_pid env k
  | .write _ _ _ => none

/-- An operation that starts a process comes from the terminal on display. -/
def SysOp.OnDisplay (env : Env) (k : Kernel) (op : SysOp) : Prop :=
  op.started_pid env k ≠ none → k.curr_terminal = k.screen_terminal

instance (env : Env) (k : Kernel) (op : SysOp) : Decidable (op.OnDisplay env k) :=
  inferInstanceAs (Decidable (_ → _))

/-- Output and the calls on files leave the processes alone. -/
theorem sys_step_write {env : Env} {k k' : Kernel} {fd nbytes : Int} {buf : Option (ℕ → UInt8)}
    (h : sys_step env k (.write fd buf nbytes) = some k') : Quiet k k' := by
  obtain ⟨c, hperform⟩ := sys_step_eq_some.mp h
  have hfiles : (SysOp.write fd buf nbytes).on_files := trivial
  exact (hfiles.same_memory hperform).toQuiet

/-! ## The invariant of the process table -/

/-- The process table represents three stacks, and the frame of a process is mapped. -/
structure Mapped (k : Kernel) : Prop where
  table : ProcessTable k
  user_page : ∃ p, UserPage k.paging p

section

variable {env : Env} {poke : ℕ → List UInt8 → Kernel → Kernel} {k k' : Kernel} {m m' : Moment}
  {e : Event}

theorem Started.mapped (h : Started env k) : Mapped k :=
  ⟨h.process_table, _, h.booted.user_page⟩

/-- Whatever maps a frame maps the one of a process. -/
theorem user_page_effect {stack : Terminal → List ℕ} {op : Op} {c : Control} {p : ℕ}
    (h : ProcessInv k stack) (hpage : UserPage k.paging p) (he : Effect env k op c k') :
    ∃ p, UserPage k'.paging p := by
  cases he with
  | tick fr =>
      exact ⟨_, .process_page (h.live_terminal_pid (next_terminal k.curr_terminal)).1 hpage.page_size⟩
  | create eip hpid =>
      rw [(create_process_memory _ _ _ _ _).1]
      exact ⟨_, .process_page (started_pid_spec hpid).1 hpage.page_size⟩
  | @halt _ k₁ hop hdraw hbase =>
      have h₁ : ProcessInv k₁ stack := h.quiet hdraw.quiet
      have hparent := h₁.parent_of_curr (mt hdraw.base_halt_iff.mp hbase)
      have hlive := h₁.forest.live_parent h₁.live_curr_pid hparent
      exact ⟨_, .process_page hlive.1 (hpage.congr hdraw.quiet.user_page).page_size⟩
  | quiet hquiet _ _ _ => exact ⟨p, hpage.congr hquiet.user_page⟩

theorem Mapped.step {op : SysOp} (h : Mapped k) (hstep : sys_step env k op = some k') : Mapped k' := by
  obtain ⟨stack, hinv, hlast⟩ := h.table
  obtain ⟨p, hpage⟩ := h.user_page
  cases op with
  | write fd buf nbytes =>
      have hquiet := sys_step_write hstep
      exact ⟨⟨stack, hinv.quiet hquiet, hlast⟩, p, hpage.congr hquiet.user_page⟩
  | base op =>
      refine ⟨h.table.step hstep, ?_⟩
      obtain ⟨c, he⟩ := kstep_effect hinv.flag hstep
      exact user_page_effect hinv hpage he

/-- The kernel of a contained step. -/
theorem Mapped.kernel_step {op : SysOp} (h : Mapped m.kernel) (hcont : Contained env m.kernel op)
    (hstep : moment_step env poke m (.op op) = some m') :
    sys_step env m.kernel op = some m'.kernel := by
  obtain ⟨p, hpage⟩ := h.user_page
  exact moment_step_op hcont hpage hstep

/-- **The step lemma**: what every operation keeps, a contained moment keeps. -/
theorem Mapped.moment (h : Mapped m.kernel) (hcont : OnOps (Contained env) m e)
    (hstep : moment_step env poke m e = some m') : Mapped m'.kernel := by
  cases e with
  | op op => exact h.step (h.kernel_step hcont hstep)
  | load_registers =>
      rw [moment_step_load hstep]
      exact h

theorem mapped_of_run {k₀ : Kernel} {es : List Event} (hstart : Started env k₀)
    (hcont : AllSteps (moment_step env poke) (OnOps (Contained env)) (.start k₀) es)
    (hrun : run (moment_step env poke) (.start k₀) es = some m) : Mapped m.kernel :=
  (allStates_of_allSteps (fun m => Mapped m.kernel) (fun _ _ _ h hC hstep => h.moment hC hstep)
    (fun _ h => h) hstart.mapped hcont).last hrun

/-- The operation of an event. The loads are none, since they leave the kernel alone. -/
def Event.operation : Event → Option SysOp
  | .op performed => some performed
  | .load_registers => none

/-- **The kernel of a contained run is that of a run of `Machine`**, with the same operations in the
same order. -/
theorem kernel_of_run {k₀ : Kernel} {es : List Event} (hstart : Started env k₀)
    (hcont : AllSteps (moment_step env poke) (OnOps (Contained env)) (.start k₀) es)
    (hrun : run (moment_step env poke) (.start k₀) es = some m) :
    run (sys_step env) k₀ (es.filterMap Event.operation) = some m.kernel := by
  refine run_seen (fun m => Mapped m.kernel) Moment.kernel Event.operation
    (fun _ _ _ h hC hstep => h.moment hC hstep) ?_ hstart.mapped hcont hrun
  intro m e m' h hC hstep
  cases e with
  | op op => exact run_cons_eq_some.mpr ⟨_, h.kernel_step hC hstep, rfl⟩
  | load_registers =>
      rw [moment_step_load hstep]
      rfl

/-! ## Slots -/

/-- The slots of a moment with the chains `stack t`, in a run that started in `k₀`. -/
structure SlotsSound (env : Env) (poke : ℕ → List UInt8 → Kernel → Kernel) (k₀ : Kernel)
    (m : Moment) (stack : Terminal → List ℕ) : Prop where
  /-- Following `parent_pid` from the pid of a terminal is finite and passes its chain. -/
  chain : ∀ t, Chain (parent_of m.kernel) (terminal_pid m.kernel t) (stack t)
  /-- It ends in the base shell the terminal was started with. -/
  base : ∀ t, (stack t).getLast? = some (terminal_pid k₀ t) ∧
    (m.kernel.pcb (terminal_pid k₀ t)).parent_pid = BASE_SHELL
  nodup : ∀ t, (stack t).Nodup
  disjoint : ∀ t u, t ≠ u → List.Disjoint (stack t) (stack u)
  /-- The chains hold exactly the slots in use, and every other slot is free. -/
  in_use : ∀ p, (∃ t, p ∈ stack t) ↔ p < NUM_PROCESSES ∧ m.kernel.cur_processes p = 1
  free : ∀ p, m.kernel.cur_processes p ≠ 1 → m.kernel.cur_processes p = 0
  /-- The slot an operation takes is on no chain. -/
  fresh : ∀ (op : SysOp) p, op.started_pid env m.kernel = some p → ∀ t, p ∉ stack t
  /-- A slot that a step frees is no base shell, and no parent of a process that stays. -/
  freed : ∀ e m' p, OnOps (Contained env) m e → moment_step env poke m e = some m' →
    live m.kernel p → ¬ live m'.kernel p →
    (∀ t, p ≠ terminal_pid k₀ t) ∧ ∀ q, live m'.kernel q → parent_of m'.kernel q ≠ some p

/-- A step that does not free a live slot, or does not free the slot of a base shell or a parent. -/
theorem ProcessInv.freed {k₀ : Kernel} {stack : Terminal → List ℕ} {op : SysOp} {p : ℕ}
    (hinv : ProcessInv k stack) (hlast : ∀ t, (stack t).getLast? = some (terminal_pid k₀ t))
    (hstep : sys_step env k op = some k') (hp : live k p) (hp' : ¬ live k' p) :
    (∀ t, p ≠ terminal_pid k₀ t) ∧ ∀ q, live k' q → parent_of k' q ≠ some p := by
  -- a base shell is the bottom of a stack before and after, so its slot is not freed
  have hafter : ∃ stack', ProcessInv k' stack' ∧ ∀ t, (stack' t).getLast? = (stack t).getLast? := by
    cases op with
    | write fd buf nbytes => exact ⟨stack, hinv.quiet (sys_step_write hstep), fun _ => rfl⟩
    | base op => exact hinv.step hstep
  obtain ⟨stack', hinv', hlast'⟩ := hafter
  constructor
  · rintro t rfl
    have hmem : terminal_pid k₀ t ∈ stack' t := by
      apply List.mem_of_getLast?
      rw [hlast', hlast]
    exact hp' ((hinv'.forest.live_iff _).mpr ⟨t, hmem⟩)
  · intro q hq hpar
    exact hp' (hinv'.forest.live_parent hq hpar)

/-- A process in use that no chain leads to, since without it there would be three stacks. -/
theorem not_slotsSound {k₀ : Kernel} {stack stack' : Terminal → List ℕ} {pid : ℕ}
    (hinv : ProcessInv k stack) (htop : terminal_pid m.kernel = terminal_pid k)
    (hpcb : m.kernel.pcb = k.pcb) (hlt : pid < NUM_PROCESSES) (hdead : ¬ live k pid)
    (huse : m.kernel.cur_processes pid = 1) : ¬ SlotsSound env poke k₀ m stack' := by
  intro h
  have hparent : parent_of m.kernel = parent_of k := by
    funext p
    apply parent_of_congr
    rw [hpcb]
  obtain ⟨t, ht⟩ := (h.in_use pid).mpr ⟨hlt, huse⟩
  have hchain := h.chain t
  rw [htop, hparent] at hchain
  rw [hchain.unique (hinv.forest.chain t)] at ht
  exact hdead ((hinv.forest.live_iff pid).mpr ⟨t, ht⟩)

/-- What an `execute` of a program that is longer than its page comes to. -/
structure RunsOver (env : Env) (fr : frame) (k : Kernel) (line : List UInt8) (pid : ℕ) : Prop where
  args : ArgsFit env.link (some line)
  slot : free_pid k = some pid
  program : ∃ dentry, find_program env.fs fr (command_name line) = some dentry ∧
    PROGRAM_ROOM < (read_data env.fs dentry.inode_num 0 FOUR_MB).2.length
  unmapped : translate env.link (process_page pid k.paging) (VIRTUAL_ADDR + PROGRAM_ROOM) = none

variable (poke) in
/-- The handler goes on with the slot in use and its frame mapped. -/
theorem RunsOver.step {fr : frame} {line : List UInt8} {pid : ℕ}
    (h : RunsOver env fr m.kernel line pid) (hmapped : Mapped m.kernel) (hrunning : m.returning = none) :
    ∃ k₁, Draws (claim_slot pid { m.kernel with
        kernel_mem := execute_mem env (some line) m.kernel.kernel_mem }) k₁ ∧
      moment_step env poke m (.op (.base (.execute (some line) fr)))
        = halt_moment EXCEPTION { m with kernel := k₁ } := by
  obtain ⟨p, hpage⟩ := hmapped.user_page
  obtain ⟨dentry, hprog, hlong⟩ := h.program
  have hout := execute_outcome_faults poke h.args hprog h.slot hpage.page_size hlong h.unmapped
  refine ⟨_, draws_puts (page_fault_message (VIRTUAL_ADDR + PROGRAM_ROOM)) _, ?_⟩
  simp only [moment_step, hrunning, Option.isNone_none, if_true, call_moment, hout]
  rfl

/-- **The slot is lost**: it stays in use and is on no chain, whether the process that called is
ended or entered again. -/
theorem RunsOver.leaks {fr : frame} {line : List UInt8} {pid : ℕ}
    (h : RunsOver env fr m.kernel line pid) (hmapped : Mapped m.kernel) (hrunning : m.returning = none)
    (hstep : moment_step env poke m (.op (.base (.execute (some line) fr))) = some m') :
    m'.kernel.cur_processes pid = 1 ∧ ∀ k₀ stack, ¬ SlotsSound env poke k₀ m' stack := by
  obtain ⟨stack, hinv, -⟩ := hmapped.table
  obtain ⟨k₁, hdraw, heq⟩ := h.step poke hmapped hrunning
  rw [heq] at hstep
  obtain ⟨hlt, hzero⟩ := free_pid_spec h.slot
  have hdead : ¬ live m.kernel pid := by
    intro hl
    rw [hl.2] at hzero
    exact absurd hzero (by decide)
  have hone : k₁.cur_processes pid = 1 := by
    rw [hdraw.cur_processes]
    exact Function.update_self _ _ _
  -- the kernel without the slot still represents the three stacks
  let k₂ : Kernel := { k₁ with cur_processes := m.kernel.cur_processes }
  have hinv₂ : ProcessInv k₂ stack := by
    refine hinv.congr (fun t => hdraw.quiet.flag t) (fun t => hdraw.quiet.pid t) rfl
      hdraw.quiet.base_shell fun p => ?_
    show (k₁.pcb p).parent_pid = (m.kernel.pcb p).parent_pid
    rw [hdraw.pcb]
    rfl
  by_cases hbase : base_halt k₁
  · rw [halt_moment_base hbase, Option.some.injEq] at hstep
    subst hstep
    exact ⟨hone, fun k₀ stack' => not_slotsSound hinv₂ rfl rfl hlt hdead hone⟩
  · obtain rfl := halt_moment_parent hbase hstep
    have hbase₂ : ¬ base_halt k₂ := hbase
    have hinv₃ := hinv₂.halt hbase₂
    have hne : pid ≠ k₁.curr_pid := by
      intro heq
      apply hdead
      rw [heq]
      exact hinv₂.live_curr_pid
    have huse : (halted k₁).cur_processes pid = 1 := by
      show Function.update k₁.cur_processes k₁.curr_pid 0 pid = 1
      rw [Function.update_of_ne hne, hone]
    refine ⟨huse, fun k₀ stack' => not_slotsSound hinv₃ rfl rfl hlt ?_ huse⟩
    rintro ⟨-, hcur⟩
    replace hcur : Function.update m.kernel.cur_processes k₁.curr_pid 0 pid = 1 := hcur
    rw [Function.update_of_ne hne] at hcur
    exact hdead ⟨hlt, hcur⟩

/-! ## The running process -/

/-- A step that starts a process records it for the scheduled terminal, below the process that
called, and leaves the other terminals alone. -/
def Recorded (env : Env) (poke : ℕ → List UInt8 → Kernel → Kernel) (m : Moment) : Event → Prop
  | .op op => ∀ pid m', op.started_pid env m.kernel = some pid →
      moment_step env poke m (.op op) = some m' → RecordedAs m.kernel m'.kernel pid
  | .load_registers => True

theorem recorded_iff_onDisplay (h : Mapped m.kernel) (hcont : OnOps (Contained env) m e)
    (hstep : moment_step env poke m e = some m') :
    Recorded env poke m e ↔ OnOps (SysOp.OnDisplay env) m e := by
  cases e with
  | load_registers => exact Iff.rfl
  | op op =>
      have hkernel := h.kernel_step hcont hstep
      cases hpid : op.started_pid env m.kernel with
      | none =>
          -- nothing is started, so there is nothing to record
          refine iff_of_true (fun pid m₁ hsome => ?_) fun hne => absurd hpid hne
          rw [hpid] at hsome
          cases hsome
      | some pid =>
          cases op with
          | write fd buf nbytes => cases hpid
          | base op =>
              rw [show OnOps (SysOp.OnDisplay env) m (.op (.base op)) ↔ OnDisplay env m.kernel op from
                Iff.rfl, ← recordedAs_iff_onDisplay h.table hpid hkernel]
              constructor
              · exact fun hrec => hrec pid m' hpid hstep
              · intro hrec pid₁ m₁ hpid₁ hstep₁
                obtain rfl := Option.some.inj (hpid.symm.trans hpid₁)
                obtain rfl := Option.some.inj (hstep.symm.trans hstep₁)
                exact hrec

theorem agree_sys_step {op : SysOp} (h : ∃ stack, AgreeInv k stack) (hdisplay : op.OnDisplay env k)
    (hstep : sys_step env k op = some k') : ∃ stack, AgreeInv k' stack := by
  cases op with
  | write fd buf nbytes =>
      obtain ⟨stack, hinv⟩ := h
      exact ⟨stack, hinv.quiet (sys_step_write hstep)⟩
  | base op => exact agree_step k op k' h hdisplay hstep

theorem agree_moment (h : ∃ stack, AgreeInv m.kernel stack) (hcont : OnOps (Contained env) m e)
    (hdisplay : OnOps (SysOp.OnDisplay env) m e) (hstep : moment_step env poke m e = some m') :
    ∃ stack, AgreeInv m'.kernel stack := by
  cases e with
  | op op =>
      obtain ⟨stack, hinv⟩ := h
      exact agree_sys_step ⟨stack, hinv⟩ hdisplay (moment_step_op hcont hinv.user_page hstep)
  | load_registers =>
      rw [moment_step_load hstep]
      exact h

end

/-! ## On the small image -/

/-- A shell started on terminal 0 while it is on display, that ends after a round of the
terminals. -/
def demo_nested : List Event :=
  [.op (.base (.tick (demo_frame 3 3))),
    .op (.base (.execute (some (ascii "shell")) (demo_frame 4 4))),
    .op (.base (.tick (demo_frame 5 5))), .op (.base (.tick (demo_frame 6 6))),
    .op (.base (.tick (demo_frame 7 7))), .op (.base (.halt 0)), .load_registers]

/-- The small image with a second program, of as many blocks as an inode has. -/
def long_env : Env :=
  { demo_env with fs :=
    { demo_fs with
      boot_block :=
        { dir_count := 3
          inode_count := 2
          direntries := fun i =>
            if i = 2 then ⟨c_str (ascii "long"), 2, 1⟩ else demo_fs.boot_block.direntries i }
      inode := fun i => ⟨if i = 0 then 28 else 4190208, fun _ => 0⟩ } }

theorem long_env_lengths : LengthsFit long_env.fs := by
  intro i _
  show (if i = 0 then 28 else 4190208) ≤ _
  split <;> decide

/-- It goes over the end of its page. -/
theorem long_runs_over : ∃ k₀ m, Started long_env k₀ ∧
    run (moment_step long_env harmless) (.start k₀) [.op (.base (.tick (demo_frame 4 4)))] = some m ∧
    m.returning = none ∧ base_halt m.kernel ∧
    RunsOver long_env (demo_frame 3 3) m.kernel (ascii "long") 3 := by
  have hboot : ((bootstrap long_env demo_memory (demo_frame 0 0) (demo_frame 1 1)
      (demo_frame 2 2)).bind fun k => run (moment_step long_env harmless) (.start k)
        [.op (.base (.tick (demo_frame 4 4)))]).isSome = true := by decide +kernel
  obtain ⟨m, hm⟩ := Option.isSome_iff_exists.mp hboot
  obtain ⟨k₀, hstart, hrun⟩ := Option.bind_eq_some_iff.mp hm
  have hvalues : ∀ m ∈ (bootstrap long_env demo_memory (demo_frame 0 0) (demo_frame 1 1)
      (demo_frame 2 2)).bind fun k => run (moment_step long_env harmless) (.start k)
        [.op (.base (.tick (demo_frame 4 4)))],
        m.returning = none ∧ base_halt m.kernel ∧ free_pid m.kernel = some 3 ∧
        (find_program long_env.fs (demo_frame 3 3) (command_name (ascii "long"))).map
          dentry_t.inode_num = some 1 ∧
        (translate long_env.link (process_page (3 : ℕ) m.kernel.paging)
          (VIRTUAL_ADDR + PROGRAM_ROOM)).isNone = true := by
    decide +kernel
  obtain ⟨hrunning, hbase, hfree, hprog, hnone⟩ := hvalues m hm
  obtain ⟨dentry, hprog, hinode⟩ := Option.map_eq_some_iff.mp hprog
  have hroom : PROGRAM_ROOM < file_length long_env.fs dentry := by
    unfold file_length
    rw [hinode]
    decide
  refine ⟨k₀, m, ⟨_, _, _, _, hstart⟩, hrun, hrunning, hbase, by decide, hfree, ⟨dentry, hprog, ?_⟩,
    Option.isNone_iff_eq_none.mp hnone⟩
  rw [length_read_program long_env_lengths]
  exact hroom

end LinuxLikeOS
