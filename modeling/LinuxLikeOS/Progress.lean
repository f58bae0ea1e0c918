/-
What the kernel can fault on.

An operation of `Machine` has no outcome when it calls through a pointer that is not set, or loads
a program over a page that is not mapped. After the boot, and as long as no entry of an unknown type
is opened, the pointers are right. So the only page fault in the kernel is that of an `execute` whose
program does not end in its page, if the strings and buffers that programs pass are where they should
be, processes are started from the terminal on display, and no timer interrupt comes while
`system_halt` is returning. On an image without such a program, from any contents of the memory, the
three shells start and nothing stops the kernel.
-/
import LinuxLikeOS.Dispatch
import LinuxLikeOS.Returns

set_option autoImplicit false

namespace LinuxLikeOS

open Kernel Transition

section

variable {env : Env} {poke : ℕ → List UInt8 → Kernel → Kernel} {fr : frame} {k k' : Kernel}
  {op : SysOp} {m m' : Moment} {e : Event}

/-! ## One operation -/

/-- What the operations keep, and what they need. -/
structure KernelInv (env : Env) (k : Kernel) : Prop where
  tables : ∃ types, DispatchInv (k, types)
  paging : PagingInv env.link k.paging

theorem Started.kernel_inv (h : Started env k) : KernelInv env k :=
  ⟨⟨fun _ _ => 0, dispatchInv_boot h _⟩, h.paging_inv⟩

theorem KernelInv.step (h : KernelInv env k) (hknown : OpensKnown env k op)
    (hstep : sys_step env k op = some k') : KernelInv env k' := by
  obtain ⟨types, htables⟩ := h.tables
  have hrecord : type_step env (k, types) op = some (k', record_types env k op k' types) :=
    with_history_eq_some.mpr ⟨hstep, rfl⟩
  refine ⟨⟨_, htables.step hknown hrecord⟩, ?_⟩
  cases op with
  | base op => exact kstep_paging k op k' h.paging hstep
  | write fd buf nbytes =>
      obtain ⟨c, hperform⟩ := sys_step_eq_some.mp hstep
      have hfiles : (SysOp.write fd buf nbytes).on_files := trivial
      rw [(hfiles.same_memory hperform).paging]
      exact h.paging

/-- The program passes the checks, a slot is free for it, and it goes over its page into one that is
not mapped. -/
def LoadFaults (env : Env) (k : Kernel) (command : Option (List UInt8)) (fr : frame) : Prop :=
  ∃ line dentry pid, command = some line ∧
    find_program env.fs fr (command_name line) = some dentry ∧ free_pid k = some pid ∧
    ¬ fits_page env k pid dentry

theorem system_execute_eq_none {command : Option (List UInt8)} :
    system_execute env command fr k = none ↔ LoadFaults env k command fr := by
  constructor
  · intro hnone
    cases hpid : started_pid env fr command k with
    | none =>
        rw [system_execute_refuses hpid] at hnone
        cases hnone
    | some pid =>
        obtain ⟨line, dentry, rfl, hprog, hfree⟩ := started_pid_eq_some.mp hpid
        refine ⟨line, dentry, pid, rfl, hprog, hfree, ?_⟩
        intro hfits
        obtain ⟨eip, k', hexec⟩ := (system_execute_passes hprog hfree).1 hfits
        rw [hexec] at hnone
        cases hnone
  · rintro ⟨line, dentry, pid, rfl, hprog, hfree, hfits⟩
    exact (system_execute_passes hprog hfree).2 hfits

/-- A program with room in its page does not fault. -/
theorem not_loadFaults_of_room {command : Option (List UInt8)} (hlen : LengthsFit env.fs)
    (hsize : pde_kb.page_size.get (k.paging.page_directory USER_ADDR_INDEX) = 1)
    (hroom : ∀ fr name d, find_program env.fs fr name = some d → file_length env.fs d ≤ PROGRAM_ROOM) :
    ¬ LoadFaults env k command fr := by
  rintro ⟨line, dentry, pid, rfl, hprog, hfree, hfits⟩
  apply hfits
  have hpage : UserPage (process_page pid k.paging) pid :=
    UserPage.process_page (free_pid_spec hfree).1 hsize
  exact fits_page_of_room hlen hpage (hroom fr _ dentry hprog)

/-- The operations that can fault. -/
def FaultsLoading (env : Env) (k : Kernel) : SysOp → Prop
  | .base (.execute command fr) => LoadFaults env k command fr
  | _ => False

/-- **The step lemma**: one case for each operation. -/
theorem KernelInv.faults_iff (h : KernelInv env k) (hknown : OpensKnown env k op) :
    sys_step env k op = none ↔ FaultsLoading env k op := by
  obtain ⟨types, htables⟩ := h.tables
  obtain ⟨stack, hinv, -⟩ := htables.processes
  unfold sys_step
  rw [Option.map_eq_none_iff]
  -- the calls on descriptors and the ends of processes go where they should
  have hcalls : op.on_files ∨ op.halts → sys_perform env k op ≠ none := by
    intro hop
    rw [← Option.isSome_iff_ne_none]
    exact (sys_perform_isSome_iff env (k, types) hop).mpr fun d hd => (htables.right hknown d hd).2
  cases op with
  | write fd buf nbytes => exact iff_of_false (hcalls (Or.inl trivial)) id
  | base op =>
      cases op with
      | tick fr =>
          have hflag : (k.terminal_array (next_terminal k.curr_terminal)).flag ≠ 0 := by
            rw [hinv.flag]
            decide
          obtain ⟨esp, ebp, hsched⟩ := scheduler_eq env fr hflag
          refine iff_of_false ?_ id
          show scheduler env fr k ≠ none
          rw [hsched]
          exact Option.some_ne_none _
      | switch_screen t => exact iff_of_false (Option.some_ne_none _) id
      | vidmap screen_start => exact iff_of_false (Option.some_ne_none _) id
      | execute command fr => exact system_execute_eq_none
      | halt status => exact iff_of_false (hcalls (Or.inr trivial)) id
      | exception message => exact iff_of_false (hcalls (Or.inr trivial)) id
      | «open» filename => exact iff_of_false (hcalls (Or.inl trivial)) id
      | close fd => exact iff_of_false (hcalls (Or.inl trivial)) id
      | read fd buf nbytes => exact iff_of_false (hcalls (Or.inl trivial)) id

/-! ## One moment -/

/-- An event that can come: interrupts always, the calls of a process while it runs, and the loads
while `system_halt` is returning. -/
def Possible (m : Moment) : Event → Prop
  | .op op => op.interrupts ∨ m.returning = none
  | .load_registers => m.returning ≠ none

instance (m : Moment) : (e : Event) → Decidable (Possible m e)
  | .op _ => inferInstanceAs (Decidable (_ ∨ _))
  | .load_registers => inferInstanceAs (Decidable (_ ≠ _))

/-- What a program passes has room: the arguments behind the literal, and what is read in the user
page. -/
def PassesRoom (env : Env) (k : Kernel) : SysOp → Prop
  | .base (.execute command _) => ArgsFit env.link command
  | .base (.read fd buf nbytes) => ReadRoom env k fd buf nbytes
  | _ => True

instance (env : Env) (k : Kernel) : (op : SysOp) → Decidable (PassesRoom env k op)
  | .base (.execute _ _) => inferInstanceAs (Decidable (ArgsFit _ _))
  | .base (.read _ _ _) => inferInstanceAs (Decidable (ReadRoom _ _ _ _ _))
  | .base (.tick _) | .base (.switch_screen _) | .base (.halt _) | .base (.exception _)
  | .base (.open _) | .base (.close _) | .base (.vidmap _) | .write _ _ _ => isTrue trivial

/-- The kernel itself raises a page fault in the step. -/
def PageFaults (env : Env) (poke : ℕ → List UInt8 → Kernel → Kernel) (m : Moment) : Event → Prop
  | .op (.base (.execute command fr)) =>
      ∃ location k', execute_outcome env poke command fr m.kernel = .page_fault location k'
  | .op (.base (.read fd buf nbytes)) =>
      ∃ r ∈ system_read env.fs fd buf nbytes m.kernel, ∃ location k',
        store_mapped env.link poke buf r.2.1 r.2.2 = .page_fault location k'
  | _ => False

/-- It is an `execute` of a program that goes over its page into one that is not mapped. -/
def LoadsOver (env : Env) (m : Moment) : Event → Prop
  | .op op => FaultsLoading env m.kernel op
  | .load_registers => False

/-- The invariant of the kernel, a frame that is mapped, and registers saved for every terminal that
is not scheduled. -/
structure MomentInv (env : Env) (m : Moment) : Prop where
  kernel : KernelInv env m.kernel
  mapped : Mapped m.kernel
  resumable : ∀ t, t ≠ m.kernel.curr_terminal → m.resumable t = true

theorem Started.moment_inv (h : Started env k) : MomentInv env (.start k) :=
  ⟨h.kernel_inv, h.mapped, fun _ ht => decide_eq_true ht⟩

/-- Only a timer interrupt schedules another terminal. -/
theorem sys_step_curr_terminal (h : ProcessTable k) (htick : ∀ fr, op ≠ .base (.tick fr))
    (hstep : sys_step env k op = some k') : k'.curr_terminal = k.curr_terminal := by
  cases op with
  | write fd buf nbytes => exact (sys_step_write hstep).curr_terminal
  | base op =>
      obtain ⟨stack, hinv, -⟩ := h
      obtain ⟨c, he⟩ := kstep_effect hinv.flag hstep
      cases he with
      | tick fr => exact absurd rfl (htick fr)
      | create eip hpid =>
          rw [hinv.create_eq hpid]
          rfl
      | halt _ hdraw _ => exact hdraw.curr_terminal
      | quiet hquiet _ _ _ => exact hquiet.curr_terminal

/-- **The step lemma**, in an ordinary step. -/
theorem MomentInv.step (h : MomentInv env m) (hC : Ordinary env m e)
    (hknown : OnOps (OpensKnown env) m e) (hstep : moment_step env poke m e = some m') :
    MomentInv env m' := by
  cases e with
  | load_registers =>
      obtain ⟨r, -, rfl⟩ := Option.map_eq_some_iff.mp hstep
      exact ⟨h.kernel, h.mapped, h.resumable⟩
  | op op =>
      obtain ⟨p, hpage⟩ := h.mapped.user_page
      obtain ⟨hkernel, heffect⟩ := moment_effect hC.contained hpage hstep
      refine ⟨h.kernel.step hknown hkernel, h.mapped.moment hC.contained hstep, ?_⟩
      have hsame : (∀ fr, op ≠ .base (.tick fr)) →
          m'.kernel.curr_terminal = m.kernel.curr_terminal :=
        fun htick => sys_step_curr_terminal h.mapped.table htick hkernel
      cases heffect with
      | tick _ =>
          intro t _
          have hrunning : m.returning = none := hC.uninterrupted
          dsimp only
          rw [Function.update_apply]
          split
          · rw [hrunning]
            rfl
          · rename_i hother
            exact h.resumable t hother
      | switch_screen =>
          intro t ht
          exact h.resumable t (hsame (fun _ => nofun) ▸ ht)
      | @create command fr k' _ hpid =>
          intro t ht
          have hne : t ≠ m.kernel.curr_terminal := hsame (fun _ => nofun) ▸ ht
          have hscreen : m.kernel.curr_terminal = m.kernel.screen_terminal := hC.display hpid
          unfold recorded_by_execute
          dsimp only
          rw [if_neg fun hno => hne (hno.1.trans hscreen.symm)]
          exact h.resumable t hne
      | halt _ hop _ =>
          intro t ht
          refine h.resumable t (hsame (fun fr heq => ?_) ▸ ht)
          rw [heq] at hop
          exact hop
      | call _ hcall _ =>
          intro t ht
          refine h.resumable t (hsame (fun fr heq => ?_) ▸ ht)
          rw [heq] at hcall
          exact hcall trivial

variable (poke) in
theorem MomentInv.page_faults_iff (h : MomentInv env m) (hpasses : OnOps (PassesRoom env) m e) :
    PageFaults env poke m e ↔ LoadsOver env m e := by
  obtain ⟨p, hpage⟩ := h.mapped.user_page
  cases e with
  | load_registers => exact Iff.rfl
  | op op =>
      cases op with
      | write fd buf nbytes => exact Iff.rfl
      | base op =>
          cases op with
          | execute command fr =>
              have hargs : ArgsFit env.link command := hpasses
              constructor
              · rintro ⟨location, k', hfault⟩
                cases hpid : started_pid env fr command m.kernel with
                | none =>
                    rw [execute_outcome_refused hargs hpid] at hfault
                    cases hfault
                | some pid =>
                    obtain ⟨line, dentry, rfl, hprog, hfree⟩ := started_pid_eq_some.mp hpid
                    refine ⟨line, dentry, pid, rfl, hprog, hfree, fun hfits => ?_⟩
                    obtain ⟨eip, k₁, hstart⟩ := (execute_outcome_loads poke hargs hprog hfree).1 hfits
                    rw [hfault] at hstart
                    cases hstart
              · rintro ⟨line, dentry, pid, rfl, hprog, hfree, hfits⟩
                exact (execute_outcome_loads poke hargs hprog hfree).2 hfits
          | read fd buf nbytes =>
              refine iff_of_false ?_ id
              rintro ⟨r, hread, location, k', hfault⟩
              have hmem := same_memory_read hread
              rw [store_mapped_user_page (p := p) (hpage.congr hmem.toQuiet.user_page) (hpasses r hread).1]
                at hfault
              cases hfault
          | _ => exact Iff.rfl

variable (poke) in
/-- **Nothing else stops the kernel.** -/
theorem MomentInv.goes_on (h : MomentInv env m) (hpossible : Possible m e)
    (hpasses : OnOps (PassesRoom env) m e) (hknown : OnOps (OpensKnown env) m e)
    (hno : ¬ LoadsOver env m e) : ∃ m', moment_step env poke m e = some m' := by
  have hquiet := mt (h.page_faults_iff poke hpasses).mp hno
  cases e with
  | load_registers =>
      obtain ⟨r, hr⟩ := Option.ne_none_iff_exists'.mp hpossible
      exact ⟨_, Option.map_eq_some_iff.mpr ⟨r, hr, rfl⟩⟩
  | op op =>
      have hgo : ∃ k', sys_step env m.kernel op = some k' := by
        rw [← Option.ne_none_iff_exists']
        exact fun hnone => hno ((h.kernel.faults_iff hknown).mp hnone)
      obtain ⟨k', hk'⟩ := hgo
      by_cases hint : op.interrupts
      · cases op with
        | write fd buf nbytes => exact hint.elim
        | base op =>
            cases op with
            | tick fr =>
                have hnext : next_terminal m.kernel.curr_terminal ≠ m.kernel.curr_terminal := by
                  have hall : ∀ t, next_terminal t ≠ t := by decide
                  exact hall _
                simp only [moment_step, h.resumable _ hnext, if_true]
                exact ⟨_, Option.map_eq_some_iff.mpr ⟨k', hk', rfl⟩⟩
            | switch_screen t => exact ⟨_, rfl⟩
            | _ => exact hint.elim
      · have hrunning : m.returning = none := hpossible.resolve_left hint
        by_cases hend : op.halts
        · obtain ⟨c, hperform⟩ := sys_step_eq_some.mp hk'
          by_cases hbase : base_halt m.kernel
          · rw [moment_step_running hint hrunning]
            cases op with
            | write fd buf nbytes => exact hend.elim
            | base op =>
                cases op with
                | halt status => exact ⟨_, halt_moment_base hbase⟩
                | exception message =>
                    have hdraw := draws_puts message m.kernel
                    have hbase₁ : base_halt (puts message m.kernel) := hdraw.base_halt_iff.mpr hbase
                    exact ⟨_, halt_moment_base hbase₁⟩
                | _ => exact hend.elim
          · obtain ⟨r, hmoment, -⟩ := moment_step_halt poke hend hrunning hbase hperform
            exact ⟨_, hmoment⟩
        · rw [moment_step_running hint hrunning]
          have hsys : ∃ m', (sys_step env m.kernel op).map (fun k => { m with kernel := k }) = some m' :=
            ⟨_, Option.map_eq_some_iff.mpr ⟨k', hk', rfl⟩⟩
          cases op with
          | write fd buf nbytes => exact hsys
          | base op =>
              cases op with
              | execute command fr =>
                  simp only [call_moment]
                  cases hout : execute_outcome env poke command fr m.kernel with
                  | refused k => exact ⟨_, rfl⟩
                  | started eip k => exact ⟨_, rfl⟩
                  | page_fault location k => exact absurd ⟨location, k, hout⟩ hquiet
              | read fd buf nbytes =>
                  obtain ⟨c, hperform⟩ := sys_step_eq_some.mp hk'
                  obtain ⟨r, hread, -⟩ := Option.map_eq_some_iff.mp hperform
                  simp only [call_moment, hread, Option.bind_some]
                  cases hstore : store_mapped env.link poke buf r.2.1 r.2.2 with
                  | done k => exact ⟨_, rfl⟩
                  | page_fault location k => exact absurd ⟨r, hread, location, k, hstore⟩ hquiet
              | tick _ | switch_screen _ => exact absurd trivial hint
              | halt _ | exception _ => exact absurd trivial hend
              | «open» _ | close _ | vidmap _ => exact hsys

/-! ## Runs -/

end

section

variable {env : Env} {poke : ℕ → List UInt8 → Kernel → Kernel} {fr : frame} {k k' : Kernel}
  {op : SysOp} {m m' : Moment} {e : Event}

/-- The image has a shell, its entries have the three documented types, its inodes name the blocks of
their files, and what passes for a program has room in its page. -/
structure SoundImage (env : Env) : Prop where
  types : Documented env.fs
  lengths : LengthsFit env.fs
  room : ∀ fr name d, find_program env.fs fr name = some d → file_length env.fs d ≤ PROGRAM_ROOM
  shell : ∃ d, read_dentry_by_name env.fs (c_str (ascii "shell")) = some d ∧ Program env.fs d

theorem SoundImage.opensKnown (h : SoundImage env) : OpensKnown env k op := by
  intro filename d i _ hname _
  exact type_ops_isSome.mp (Option.isSome_iff_exists.mpr (h.types.type_ops hname))

/-- What it loads has room. -/
theorem SoundImage.programRoom (h : SoundImage env) {command : Option (List UInt8)} :
    ProgramRoom env fr k command := by
  intro program hprogram
  unfold loaded_program at hprogram
  split at hprogram
  · cases hprogram
  · split at hprogram
    · rename_i dentry _ hprog _
      obtain rfl := Option.some.inj hprogram
      rw [length_read_program h.lengths]
      exact h.room _ _ _ hprog
    · cases hprogram

/-- The events of the runs on it: those that can come, with what programs pass where it should be. -/
structure Allowed (env : Env) (m : Moment) (e : Event) : Prop where
  possible : Possible m e
  passes : OnOps (PassesRoom env) m e
  display : OnOps (SysOp.OnDisplay env) m e
  uninterrupted : NoTickReturning m e

instance (env : Env) (m : Moment) (e : Event) : Decidable (Allowed env m e) :=
  decidable_of_iff (Possible m e ∧ OnOps (PassesRoom env) m e ∧ OnOps (SysOp.OnDisplay env) m e ∧
      NoTickReturning m e)
    ⟨fun h => ⟨h.1, h.2.1, h.2.2.1, h.2.2.2⟩, fun h => ⟨h.1, h.2, h.3, h.4⟩⟩

theorem SoundImage.ordinary (himage : SoundImage env) (h : Allowed env m e) : Ordinary env m e := by
  refine ⟨?_, h.display, h.uninterrupted⟩
  cases e with
  | load_registers => trivial
  | op op =>
      cases op with
      | write fd buf nbytes => trivial
      | base op =>
          cases op with
          | execute command fr => exact ⟨h.passes, himage.programRoom⟩
          | read fd buf nbytes => exact h.passes
          | _ => trivial

/-- Nothing goes over its page. -/
theorem SoundImage.not_loadsOver (himage : SoundImage env) (h : MomentInv env m) :
    ¬ LoadsOver env m e := by
  intro hover
  cases e with
  | load_registers => exact hover
  | op op =>
      cases op with
      | write fd buf nbytes => exact hover
      | base op =>
          cases op with
          | execute command fr =>
              exact not_loadFaults_of_room himage.lengths h.kernel.paging.page_size himage.room hover
          | _ => exact hover

/-! ## The boot -/

/-- A terminal that is being opened gets its shell. -/
theorem Opening.starts {n : ℕ} (h : Opening env n k) (himage : SoundImage env) (hn : n < MAX_TERMINALS)
    (fr : frame) : ∃ eip k', system_execute env (some (ascii "shell")) fr k = some (.iret eip, k') := by
  obtain ⟨d, hname, hprogram⟩ := himage.shell
  have hshell : command_name (ascii "shell") = ascii "shell" := by decide
  have hprog : find_program env.fs fr (command_name (ascii "shell")) = some d := by
    rw [hshell]
    exact hprogram.find hname
  have hthree : MAX_TERMINALS < NUM_PROCESSES := by decide
  have hfree : free_pid k = some n := free_pid_eq (Nat.lt_trans hn hthree) h.cur_processes
  by_contra hno
  have hfaults : LoadFaults env k (some (ascii "shell")) fr := by
    refine ⟨_, d, n, rfl, hprog, hfree, ?_⟩
    intro hfits
    exact hno ((system_execute_passes hprog hfree).1 hfits)
  exact not_loadFaults_of_room himage.lengths h.page_size himage.room hfaults

/-- So the boot goes on: the first shell, and one more at each timer interrupt. -/
theorem Opening.boots {n : ℕ} (h : Opening env n k) (himage : SoundImage env) (hn : n < MAX_TERMINALS)
    (fr : frame) : ∃ k', new_process (system_execute env (some (ascii "shell")) fr k) = some k' := by
  obtain ⟨eip, k', hexec⟩ := h.starts himage hn fr
  exact ⟨k', by rw [hexec]; rfl⟩

theorem Booted.boots {n : ℕ} (h : Booted env n k) (himage : SoundImage env) (hn : n < MAX_TERMINALS)
    (fr : frame) : ∃ k', new_process (scheduler env fr k) = some k' := by
  have hopening : Opening env n (open_terminal (preempt fr k)) := h.opening hn
  obtain ⟨eip, k', hexec⟩ := hopening.starts himage hn fr
  have hclosed : ((preempt fr k).terminal_array (preempt fr k).curr_terminal).flag = 0 := by
    have hnext : (next_terminal k.curr_terminal).val = n := by
      show (k.curr_terminal.val + 1) % MAX_TERMINALS = n
      rw [h.curr_terminal, Nat.mod_eq_of_lt hn]
    show (k.terminal_array (next_terminal k.curr_terminal)).flag = 0
    rw [h.flag, hnext, if_neg (Nat.lt_irrefl n)]
  refine ⟨k', ?_⟩
  unfold scheduler
  dsimp only
  rw [if_pos hclosed, hexec]
  rfl

theorem SoundImage.boots (himage : SoundImage env) (memory : Kernel) (fr₀ fr₁ fr₂ : frame) :
    ∃ k, bootstrap env memory fr₀ fr₁ fr₂ = some k := by
  have hopening : Opening env 0 (init_kernel env (loaded memory)) := init_kernel_opening env memory
  obtain ⟨k₁, hfirst⟩ := hopening.boots himage (by decide) fr₀
  have hone : Booted env 1 k₁ := hopening.booted hfirst
  obtain ⟨k₂, hsecond⟩ := hone.boots himage (by decide) fr₁
  have htwo : Booted env 2 k₂ := (hone.opening (by decide)).booted (new_process_scheduler hsecond)
  obtain ⟨k₃, hthird⟩ := htwo.boots himage (by decide) fr₂
  refine ⟨k₃, ?_⟩
  unfold bootstrap entry
  rw [hfirst, Option.bind_some, hsecond, Option.bind_some, hthird]

end

end LinuxLikeOS
