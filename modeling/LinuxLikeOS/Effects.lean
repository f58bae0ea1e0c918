/-
The three operations that change which process runs where: a new process, the end of
one, and a timer interrupt.

Each gets one equation that writes the new kernel out field by field, and `perform_effect`
puts them together: a completed operation is one of the three or leaves the processes
alone. The invariants of the later modules are proved from that case split, and the
operations are not unfolded again.
-/
import LinuxLikeOS.Frames

set_option autoImplicit false

namespace LinuxLikeOS

open Kernel

/-- The terminals after a process switch: `t` records the process, and the scheduled
terminal has its kernel stack. -/
def switched_terminal (k : Kernel) (pid : ℕ) (t u : Terminal) : terminal_info_t :=
  { k.terminal_array u with
    pid := if u = t then pid else (k.terminal_array u).pid
    base_tss_esp0 :=
      if u = k.curr_terminal then stack_top pid else (k.terminal_array u).base_tss_esp0
    base_tss_ss0 := if u = k.curr_terminal then KERNEL_DS else (k.terminal_array u).base_tss_ss0 }

/-! ## A new process -/

/-- The slot a command would take: the checks on the file pass and a slot is free. -/
def started_pid (env : Env) (fr : frame) (command : Option (List UInt8)) (k : Kernel) :
    Option ℕ :=
  match command with
  | none => none
  | some command =>
      match find_program env.fs fr (command_name command) with
      | none => none
      | some _ => free_pid k

/-- The string memory behind the command line parser. -/
def execute_mem (env : Env) (command : Option (List UInt8)) (mem : ℕ → UInt8) : ℕ → UInt8 :=
  match command with
  | none => mem
  | some command => store_string env.link.empty_string (command_args command) mem

/-- An `execute` that does not start a process returns `-1`; the parser has stored the
arguments all the same. -/
theorem system_execute_refuses {env : Env} {fr : frame} {command : Option (List UInt8)}
    {k : Kernel} (hnone : started_pid env fr command k = none) :
    system_execute env command fr k
      = some (.ret (-1), { k with kernel_mem := execute_mem env command k.kernel_mem }) := by
  unfold system_execute
  unfold started_pid at hnone
  cases command with
  | none => rfl
  | some command =>
      dsimp only at hnone ⊢
      cases hprog : find_program env.fs fr (command_name command) with
      | none => rfl
      | some dentry =>
          have hfree : free_pid k = none := by simpa only [hprog] using hnone
          -- the search reads the process table only
          replace hfree : free_pid { k with kernel_mem :=
            (store_string env.link.empty_string (command_args command) k.kernel_mem) }
              = none := hfree
          simp only [hfree]
          rfl

theorem system_execute_fails {env : Env} {fr : frame} {command : Option (List UInt8)}
    {k k' : Kernel} {c : Control} (h : system_execute env command fr k = some (c, k'))
    (hnone : started_pid env fr command k = none) :
    c = .ret (-1) ∧ k' = { k with kernel_mem := execute_mem env command k.kernel_mem } := by
  rw [system_execute_refuses hnone, Option.some.injEq, Prod.mk.injEq] at h
  exact ⟨h.1.symm, h.2.symm⟩

/-- An `execute` that passes the checks takes the slot and ends in the new process. -/
theorem system_execute_starts {env : Env} {fr : frame} {command : Option (List UInt8)}
    {k k' : Kernel} {c : Control} {pid : ℕ} (h : system_execute env command fr k = some (c, k'))
    (hpid : started_pid env fr command k = some pid) :
    ∃ eip, c = .iret eip ∧ k' = create_process pid env.link.empty_string eip fr
      (claim_slot pid { k with kernel_mem := execute_mem env command k.kernel_mem }) := by
  unfold system_execute at h
  unfold started_pid at hpid
  cases command with
  | none => cases hpid
  | some command =>
      simp only at h hpid
      cases hprog : find_program env.fs fr (command_name command) with
      | none => simp only [hprog, reduceCtorEq] at hpid
      | some dentry =>
          have hfree : free_pid k = some pid := by simpa only [hprog] using hpid
          -- the search reads the process table only
          replace hfree : free_pid { k with kernel_mem :=
            (store_string env.link.empty_string (command_args command) k.kernel_mem) }
              = some pid := hfree
          simp only [hprog, hfree] at h
          split at h
          · simp only [Option.some.injEq, Prod.mk.injEq] at h
            exact ⟨_, h.1.symm, h.2.symm⟩
          · cases h

/-- A free slot is one of the six and not in use. -/
theorem free_pid_spec {k : Kernel} {pid : ℕ} (h : free_pid k = some pid) :
    pid < NUM_PROCESSES ∧ k.cur_processes pid = 0 := by
  unfold free_pid at h
  have hmem := List.mem_of_find?_eq_some h
  have hfree := List.find?_some h
  exact ⟨List.mem_range.mp hmem, of_decide_eq_true hfree⟩

theorem started_pid_spec {env : Env} {fr : frame} {command : Option (List UInt8)} {k : Kernel}
    {pid : ℕ} (h : started_pid env fr command k = some pid) :
    pid < NUM_PROCESSES ∧ k.cur_processes pid = 0 := by
  unfold started_pid at h
  split at h
  · cases h
  · split at h
    · cases h
    · exact free_pid_spec h

theorem link_parent_child (pid : ℕ) (fr : frame) {k : Kernel} (hb : k.base_shell ≠ 1)
    (hne : pid ≠ (k.terminal_array k.screen_terminal).pid) :
    link_parent pid fr k =
      { k with
        terminal_array := fun u =>
          { k.terminal_array u with
            pid := if u = k.screen_terminal then pid else (k.terminal_array u).pid }
        pcb := fun p =>
          if p = pid then
            { k.pcb pid with
              parent_pid := (k.terminal_array k.screen_terminal).pid
              terminal_id := k.screen_terminal.val }
          else if p = (k.terminal_array k.screen_terminal).pid then
            { k.pcb p with ebp := fr.ebp, esp := fr.esp }
          else k.pcb p } := by
  unfold link_parent
  rw [if_neg hb]
  apply Kernel.ext <;> try rfl
  · funext u
    simp only [set_pcb_terminal_array, set_terminal_apply]
    split
    · rename_i hu
      rw [hu]
    · rfl
  · funext p
    simp only [set_pcb_apply, set_terminal_pcb]
    -- the two blocks that are written are different ones
    by_cases hp : p = pid
    · subst hp
      simp [hne]
    · by_cases hq : p = (k.terminal_array k.screen_terminal).pid
      · subst hq
        simp [hp]
      · simp [hp, hq]

theorem link_parent_base (pid : ℕ) (fr : frame) {k : Kernel} (hb : k.base_shell = 1) :
    link_parent pid fr k =
      { k with
        terminal_array := fun u =>
          { k.terminal_array u with
            pid := if u = k.curr_terminal then pid else (k.terminal_array u).pid }
        pcb := fun p =>
          if p = pid then
            { k.pcb pid with parent_pid := BASE_SHELL, terminal_id := k.curr_terminal.val }
          else k.pcb p } := by
  unfold link_parent
  rw [if_pos hb]
  apply Kernel.ext <;> try rfl
  · funext u
    simp only [set_pcb_terminal_array, set_terminal_apply]
    split
    · rename_i hu
      rw [hu]
    · rfl
  · funext p
    simp only [set_pcb_apply, set_terminal_pcb]

/-- The task state for a process, field by field. -/
theorem context_switch_eq (pid : ℕ) (k : Kernel) :
    context_switch pid k =
      { k with
        terminal_array := fun u =>
          { k.terminal_array u with
            base_tss_esp0 :=
              if u = k.curr_terminal then stack_top pid else (k.terminal_array u).base_tss_esp0
            base_tss_ss0 :=
              if u = k.curr_terminal then KERNEL_DS else (k.terminal_array u).base_tss_ss0 }
        tss := ⟨stack_top pid, KERNEL_DS⟩ } := by
  unfold context_switch update_tss
  apply Kernel.ext <;> try rfl
  funext u
  simp only [set_terminal_apply]
  split
  · rename_i hu
    rw [hu]
  · rfl

/-- The control block of a new process. -/
def created_pcb (k : Kernel) (pid parent args eip : ℕ) (t : Terminal) : pcb_t where
  file_descriptors := new_fds (k.pcb pid).file_descriptors
  pid := pid
  parent_pid := parent
  terminal_id := t.val
  esp := (k.pcb pid).esp
  ebp := (k.pcb pid).ebp
  eip := eip
  tss_esp0 := k.tss.esp0
  tss_ss0 := k.tss.ss0
  args := args

/-- The kernel with a new process that is not a base shell: everything is recorded for
the terminal on display but the kernel stack. -/
def created (pid args eip : ℕ) (fr : frame) (k : Kernel) : Kernel :=
  let parent := (k.terminal_array k.screen_terminal).pid
  { k with
    terminal_array := switched_terminal k pid k.screen_terminal
    pcb := fun p =>
      if p = pid then created_pcb k pid parent args eip k.screen_terminal
      else if p = parent then { k.pcb p with ebp := fr.ebp, esp := fr.esp }
      else k.pcb p
    base_shell := 0
    tss := ⟨stack_top pid, KERNEL_DS⟩ }

theorem created_pcb_apply (pid args eip : ℕ) (fr : frame) (k : Kernel) (p : ℕ) :
    (created pid args eip fr k).pcb p
      = if p = pid then
          created_pcb k pid (k.terminal_array k.screen_terminal).pid args eip k.screen_terminal
        else if p = (k.terminal_array k.screen_terminal).pid then
          { k.pcb p with ebp := fr.ebp, esp := fr.esp }
        else k.pcb p := rfl

/-- **A new process that is not a base shell**, field by field. -/
theorem create_process_child {k : Kernel} {pid args eip : ℕ} {fr : frame}
    (hb : k.base_shell ≠ 1) (hne : pid ≠ (k.terminal_array k.screen_terminal).pid) :
    create_process pid args eip fr k = created pid args eip fr k := by
  have hlink := link_parent_child pid fr
    (k := k.set_pcb pid fun p => { p with pid := pid, args := args }) hb hne
  unfold create_process created
  extract_lets k₁ parent
  rw [hlink, context_switch_eq]
  apply Kernel.ext <;> try rfl
  funext p
  simp only [init_pcb, set_pcb_apply]
  by_cases hp : p = pid
  · simp [hp, created_pcb, parent]
  · by_cases hq : p = (k.terminal_array k.screen_terminal).pid
    · subst hq
      simp [hp, parent]
    · simp [hp, hq, parent]

/-- **A new base shell**, field by field: everything is recorded for the scheduled
terminal. -/
theorem create_process_base {k : Kernel} {pid args eip : ℕ} {fr : frame}
    (hb : k.base_shell = 1) :
    create_process pid args eip fr k =
      { k with
        terminal_array := switched_terminal k pid k.curr_terminal
        pcb := fun p =>
          if p = pid then created_pcb k pid BASE_SHELL args eip k.curr_terminal else k.pcb p
        base_shell := 0
        tss := ⟨stack_top pid, KERNEL_DS⟩ } := by
  have hlink := link_parent_base pid fr
    (k := k.set_pcb pid fun p => { p with pid := pid, args := args }) hb
  unfold create_process
  extract_lets k₁
  rw [hlink, context_switch_eq]
  apply Kernel.ext <;> try rfl
  funext p
  simp only [init_pcb, set_pcb_apply]
  by_cases hp : p = pid <;> simp [hp, created_pcb]

/-- A new process is written to control blocks, terminals and the task state only. -/
theorem create_process_memory (pid args eip : ℕ) (fr : frame) (k : Kernel) :
    (create_process pid args eip fr k).paging = k.paging ∧
      (create_process pid args eip fr k).kernel_mem = k.kernel_mem ∧
      (create_process pid args eip fr k).dentry_counter = k.dentry_counter := by
  have hlink : ∀ k, (link_parent pid fr k).paging = k.paging ∧
      (link_parent pid fr k).kernel_mem = k.kernel_mem ∧
      (link_parent pid fr k).dentry_counter = k.dentry_counter := by
    intro k
    unfold link_parent
    split <;> exact ⟨rfl, rfl, rfl⟩
  exact hlink (k.set_pcb pid fun p => { p with pid := pid, args := args })

/-- Of a terminal it changes the process recorded and its kernel stack. -/
theorem create_process_terminal (pid args eip : ℕ) (fr : frame) (k : Kernel) (t : Terminal) :
    ∃ p esp0 ss0, (create_process pid args eip fr k).terminal_array t =
      { k.terminal_array t with pid := p, base_tss_esp0 := esp0, base_tss_ss0 := ss0 } := by
  have hlink : ∀ k, ∃ p, (link_parent pid fr k).terminal_array t
      = { k.terminal_array t with pid := p } := by
    intro k
    unfold link_parent
    split
    · simp only [set_terminal_apply, set_pcb_terminal_array]
      split
      · rename_i ht
        rw [ht]
        exact ⟨pid, rfl⟩
      · exact ⟨_, rfl⟩
    · simp only [set_terminal_apply, set_pcb_terminal_array]
      split
      · rename_i ht
        rw [ht]
        exact ⟨pid, rfl⟩
      · exact ⟨_, rfl⟩
  obtain ⟨p, hp⟩ := hlink (k.set_pcb pid fun p => { p with pid := pid, args := args })
  rw [set_pcb_terminal_array] at hp
  unfold create_process
  extract_lets k₁
  rw [context_switch_eq]
  have hinit : (init_pcb pid eip (link_parent pid fr k₁)).terminal_array t
      = { k.terminal_array t with pid := p } := hp
  dsimp only
  rw [hinit]
  exact ⟨p, _, _, rfl⟩

/-- It does not draw. -/
theorem create_process_display (pid args eip : ℕ) (fr : frame) (k : Kernel) :
    (create_process pid args eip fr k).cursor = k.cursor ∧
      (create_process pid args eip fr k).screen_terminal = k.screen_terminal := by
  have hlink : ∀ k, (link_parent pid fr k).cursor = k.cursor ∧
      (link_parent pid fr k).screen_terminal = k.screen_terminal := by
    intro k
    unfold link_parent
    split <;> exact ⟨rfl, rfl⟩
  exact hlink (k.set_pcb pid fun p => { p with pid := pid, args := args })

/-! ## The end of a process -/

/-- A control block with the descriptors from `FILE_DESCRIPTOR_MIN` up to `n` closed. -/
def close_below (n : ℕ) (p : pcb_t) : pcb_t :=
  { p with
    file_descriptors := fun i =>
      if FILE_DESCRIPTOR_MIN ≤ i ∧ i < n ∧ (p.file_descriptors i).in_use then
        closed_fd (p.file_descriptors i)
      else p.file_descriptors i }

theorem close_below_zero (p : pcb_t) : close_below 0 p = p := by
  unfold close_below
  simp

/-- A descriptor that is still open has not been touched. -/
theorem close_below_of_in_use {n i : ℕ} {p : pcb_t}
    (h : ((close_below n p).file_descriptors i).in_use) :
    (close_below n p).file_descriptors i = p.file_descriptors i := by
  unfold close_below at h ⊢
  dsimp only at h ⊢
  split at h
  · exact absurd rfl h
  · rename_i hc
    rw [if_neg hc]

theorem close_below_self (n : ℕ) (p : pcb_t) :
    (close_below n p).file_descriptors n = p.file_descriptors n := by
  unfold close_below
  simp

/-- One more descriptor, when it is open. -/
theorem close_below_succ_of_open {n : ℕ} {p : pcb_t} (hn : FILE_DESCRIPTOR_MIN ≤ n)
    (hopen : (p.file_descriptors n).in_use) :
    close_below (n + 1) p =
      { close_below n p with
        file_descriptors := Function.update (close_below n p).file_descriptors n
          (closed_fd ((close_below n p).file_descriptors n)) } := by
  rw [close_below_self]
  unfold close_below
  congr 1
  funext i
  rw [Function.update_apply]
  by_cases hi : i = n
  · subst hi
    simp [hn, hopen]
  · have hlt : i < n + 1 ↔ i < n := by omega
    simp [hi, hlt]

/-- One more descriptor, when there is nothing to close. -/
theorem close_below_succ_of_closed {n : ℕ} {p : pcb_t}
    (h : ¬ (FILE_DESCRIPTOR_MIN ≤ n ∧ (p.file_descriptors n).in_use)) :
    close_below (n + 1) p = close_below n p := by
  unfold close_below
  congr 1
  funext i
  by_cases hi : i = n
  · subst hi
    have hno : ¬ (FILE_DESCRIPTOR_MIN ≤ i ∧ i < i + 1 ∧ (p.file_descriptors i).in_use) :=
      fun h' => h ⟨h'.1, h'.2.2⟩
    rw [if_neg hno]
    simp
  · have hlt : i < n + 1 ↔ i < n := by omega
    simp [hlt]

/-- The loop of `system_close` calls closes the descriptors of the process that is
recorded for the scheduled terminal, whichever that is by then. -/
theorem close_files_eq {k k' : Kernel} {n : ℕ} (hn : n ≤ FILE_DESCRIPTOR_MAX)
    (h : close_files n k = some k') : k' = k.set_pcb k.curr_pid (close_below n) := by
  -- what the first `n` calls leave is the old kernel with one block changed
  induction n generalizing k' with
  | zero =>
      rw [close_files, Option.some.injEq] at h
      rw [← h]
      apply Kernel.ext <;> try rfl
      funext p
      rw [set_pcb_apply, close_below_zero]
      split
      · rename_i hp
        rw [hp]
      · rfl
  | succ n ih =>
      rw [close_files, Option.bind_eq_some_iff] at h
      obtain ⟨k₁, hk₁, hstep⟩ := h
      have hk₁ := ih (by omega) hk₁
      have hcurr : k₁.curr_pid = k.curr_pid := by rw [hk₁]; rfl
      obtain ⟨⟨r, k₂⟩, hclose, rfl⟩ := Option.map_eq_some_iff.mp hstep
      -- descriptor `n` is still as it was when its turn comes
      have hfile : (k₁.pcb k.curr_pid).file_descriptors n
          = (k.pcb k.curr_pid).file_descriptors n := by
        rw [hk₁, set_pcb_apply, if_pos rfl, close_below_self]
      simp only [system_close, get_pcb, hcurr, Int.toNat_natCast, hfile] at hclose
      by_cases hopen : FILE_DESCRIPTOR_MIN ≤ n ∧
          ((k.pcb k.curr_pid).file_descriptors n).in_use
      · rw [if_pos ⟨⟨by omega, by omega⟩, hopen.2⟩] at hclose
        obtain ⟨_, -, heq⟩ := Option.map_eq_some_iff.mp hclose
        obtain ⟨-, rfl⟩ := Prod.mk.inj heq
        rw [hk₁]
        apply Kernel.ext <;> try rfl
        funext p
        simp only [set_fd, set_pcb_apply, if_true]
        rw [close_below_succ_of_open hopen.1 hopen.2]
        by_cases hp : p = k.curr_pid
        · rw [if_pos hp, if_pos hp]
        · rw [if_neg hp, if_neg hp, if_neg hp]
      · rw [if_neg (by rintro ⟨⟨h₁, -⟩, h₂⟩; exact hopen ⟨by omega, h₂⟩)] at hclose
        simp only [Option.some.injEq, Prod.mk.injEq] at hclose
        rw [← hclose.2, hk₁]
        apply Kernel.ext <;> try rfl
        funext p
        simp only [set_pcb_apply, close_below_succ_of_closed hopen]

theorem leave_process_eq (halting_pid parent_pid : ℕ) (k : Kernel) :
    leave_process halting_pid parent_pid k =
      { k with
        terminal_array := fun u =>
          { k.terminal_array u with
            pid := if u = k.curr_terminal then parent_pid else (k.terminal_array u).pid }
        cur_processes := Function.update k.cur_processes halting_pid 0
        paging := process_page parent_pid k.paging } := by
  unfold leave_process
  apply Kernel.ext <;> try rfl
  funext u
  simp only [set_paging, set_terminal_apply]
  split
  · rename_i hu
    rw [hu]
  · rfl

theorem resume_parent_eq (parent_pid : ℕ) (k : Kernel) :
    resume_parent parent_pid k =
      { k with
        terminal_array := switched_terminal k parent_pid k.curr_terminal
        tss := ⟨stack_top parent_pid, KERNEL_DS⟩ } := by
  unfold resume_parent
  rw [context_switch_eq]
  apply Kernel.ext <;> try rfl
  funext u
  simp only [set_terminal_apply, switched_terminal]
  by_cases hu : u = k.curr_terminal
  · simp only [hu, if_true]
  · simp only [hu, if_false]

/-- The running process is a base shell, which `system_halt` restarts. -/
def base_halt (k : Kernel) : Prop :=
  (k.pcb k.curr_pid).parent_pid = BASE_SHELL ∧ (k.terminal_array k.curr_terminal).flag = 1

instance (k : Kernel) : Decidable (base_halt k) := inferInstanceAs (Decidable (_ ∧ _))

/-- The process recorded as the parent of the running one. -/
def curr_parent (k : Kernel) : ℕ := (k.pcb k.curr_pid).parent_pid

theorem system_halt_base (status : ℕ) {k : Kernel} (h : base_halt k) :
    system_halt status k = some (.iret (k.pcb k.curr_pid).eip, k) := by
  unfold system_halt
  exact if_pos h

/-- The kernel after the end of a process that is not a base shell. The descriptors
that are closed are the parent's. -/
def halted (k : Kernel) : Kernel :=
  { k with
    terminal_array := switched_terminal k (curr_parent k) k.curr_terminal
    cur_processes := Function.update k.cur_processes k.curr_pid 0
    paging := process_page (curr_parent k) k.paging
    pcb := fun p =>
      if p = curr_parent k then close_below FILE_DESCRIPTOR_MAX (k.pcb p) else k.pcb p
    tss := ⟨stack_top (curr_parent k), KERNEL_DS⟩ }

/-- The branch that leaves a process to its parent. -/
theorem system_halt_of_not_base (status : ℕ) {k : Kernel} (h : ¬ base_halt k) :
    system_halt status k =
      (close_files FILE_DESCRIPTOR_MAX (leave_process k.curr_pid (curr_parent k) k)).map
        fun k₁ => (Control.execute_return (ext_status status)
          ((resume_parent (curr_parent k) k₁).pcb (curr_parent k)).esp
          ((resume_parent (curr_parent k) k₁).pcb (curr_parent k)).ebp,
          resume_parent (curr_parent k) k₁) := by
  unfold system_halt
  exact if_neg h

theorem halted_pcb (k : Kernel) (p : ℕ) :
    (halted k).pcb p
      = if p = curr_parent k then close_below FILE_DESCRIPTOR_MAX (k.pcb p) else k.pcb p := rfl

/-- **The end of a process that is not a base shell**, field by field. -/
theorem system_halt_parent {status : ℕ} {k k' : Kernel} {c : Control} (hbase : ¬ base_halt k)
    (h : system_halt status k = some (c, k')) :
    c = .execute_return (ext_status status) (k.pcb (curr_parent k)).esp
      (k.pcb (curr_parent k)).ebp ∧ k' = halted k := by
  rw [system_halt_of_not_base status hbase] at h
  obtain ⟨k₁, hclose, heq⟩ := Option.map_eq_some_iff.mp h
  have hk₁ := close_files_eq (Nat.le_refl _) hclose
  -- the terminal already records the parent when the files are closed
  have hcurr : (leave_process k.curr_pid (curr_parent k) k).curr_pid = curr_parent k := by
    rw [leave_process_eq]
    exact if_pos rfl
  rw [hcurr, leave_process_eq] at hk₁
  simp only [resume_parent_eq, Prod.mk.injEq] at heq
  obtain ⟨rfl, rfl⟩ := heq
  subst hk₁
  constructor
  · simp only [set_pcb_apply, if_true]
    rfl
  · clear h hclose
    unfold halted
    apply Kernel.ext <;> try rfl
    · funext u
      simp only [switched_terminal, set_pcb_terminal_array, set_pcb_curr_terminal]
      by_cases hu : u = k.curr_terminal <;> simp only [hu, if_true, if_false]
    · funext p
      simp only [set_pcb_apply]
      split
      · rename_i hp
        rw [hp]
      · rfl

/-! ## A timer interrupt -/

/-- The kernel after a timer interrupt that switches to a started terminal. -/
def ticked (fr : frame) (k : Kernel) : Kernel :=
  let next := next_terminal k.curr_terminal
  { k with
    curr_terminal := next
    pcb := Function.update k.pcb k.curr_pid { k.pcb k.curr_pid with ebp := fr.ebp, esp := fr.esp }
    paging := process_page (k.terminal_array next).pid
      (set_vid_map_base (vid_map_page (preempt fr k)) k.paging)
    tss := ⟨(k.terminal_array next).base_tss_esp0, (k.terminal_array next).base_tss_ss0⟩ }

theorem ticked_pcb (fr : frame) (k : Kernel) (p : ℕ) :
    (ticked fr k).pcb p
      = if p = k.curr_pid then { k.pcb p with ebp := fr.ebp, esp := fr.esp } else k.pcb p := by
  show Function.update k.pcb k.curr_pid _ p = _
  rw [Function.update_apply]
  split
  · rename_i hp
    rw [hp]
  · rfl

/-- **A timer interrupt on a terminal whose shell has been started**, field by field. -/
theorem scheduler_eq (env : Env) (fr : frame) {k : Kernel}
    (hflag : (k.terminal_array (next_terminal k.curr_terminal)).flag ≠ 0) :
    ∃ esp ebp, scheduler env fr k = some (.switch esp ebp, ticked fr k) :=
  ⟨_, _, if_neg hflag⟩

/-- Once the terminals have their shells every timer interrupt is of that kind. -/
theorem perform_tick {env : Env} {fr : frame} {k k' : Kernel} {c : Control}
    (hflag : ∀ t, (k.terminal_array t).flag = 1) (h : perform env k (.tick fr) = some (c, k')) :
    k' = ticked fr k := by
  have hne : (k.terminal_array (next_terminal k.curr_terminal)).flag ≠ 0 := by
    rw [hflag]
    decide
  obtain ⟨esp, ebp, heq⟩ := scheduler_eq env fr hne
  rw [perform, heq, Option.some.injEq, Prod.mk.injEq] at h
  exact h.2.symm

/-! ## The parents and the descriptors -/

theorem ticked_parent_pid (fr : frame) (k : Kernel) (p : ℕ) :
    ((ticked fr k).pcb p).parent_pid = (k.pcb p).parent_pid := by
  rw [ticked_pcb]
  split <;> rfl

theorem ticked_file_descriptors (fr : frame) (k : Kernel) (p : ℕ) :
    ((ticked fr k).pcb p).file_descriptors = (k.pcb p).file_descriptors := by
  rw [ticked_pcb]
  split <;> rfl

theorem halted_parent_pid (k : Kernel) (p : ℕ) :
    ((halted k).pcb p).parent_pid = (k.pcb p).parent_pid := by
  rw [halted_pcb]
  split <;> rfl

theorem created_parent_pid {pid args eip : ℕ} {fr : frame} {k : Kernel} {p : ℕ} (hp : p ≠ pid) :
    ((created pid args eip fr k).pcb p).parent_pid = (k.pcb p).parent_pid := by
  rw [created_pcb_apply, if_neg hp]
  split <;> rfl

theorem created_file_descriptors {pid args eip : ℕ} {fr : frame} {k : Kernel} {p : ℕ}
    (hp : p ≠ pid) :
    ((created pid args eip fr k).pcb p).file_descriptors = (k.pcb p).file_descriptors := by
  rw [created_pcb_apply, if_neg hp]
  split <;> rfl

/-! ## The case split -/

/-- The operations that end a process. -/
def Op.halts : Op → Prop
  | .halt _ | .exception _ => True
  | _ => False

instance : (op : Op) → Decidable op.halts
  | .halt _ | .exception _ => isTrue trivial
  | .tick _ | .switch_screen _ | .execute _ _ | .open _ | .close _ | .read _ _ _ | .vidmap _ =>
      isFalse id

/-- The value an operation that ends a process hands to the parent. -/
def Op.ext_status : Op → ℕ
  | .halt status => LinuxLikeOS.ext_status status.toNat
  | _ => EXCEPTION + 1

/-- The slot an operation takes. -/
def Op.started_pid (env : Env) (k : Kernel) : Op → Option ℕ
  | .execute command fr => LinuxLikeOS.started_pid env fr command k
  | _ => none

theorem Op.halts.started_pid {op : Op} (h : op.halts) (env : Env) (k : Kernel) :
    op.started_pid env k = none := by
  cases op <;> first | rfl | exact h.elim

/-- The operations on descriptors. -/
def Op.on_files : Op → Prop
  | .open _ | .close _ | .read _ _ _ => True
  | _ => False

theorem Op.on_files.same_memory {env : Env} {k k' : Kernel} {op : Op} {c : Control}
    (hop : op.on_files) (h : perform env k op = some (c, k')) : SameMemory k k' := by
  cases op with
  | «open» filename =>
      obtain ⟨⟨r, k₁⟩, hopen, heq⟩ := Option.map_eq_some_iff.mp h
      obtain ⟨-, rfl⟩ := Prod.mk.inj heq
      exact same_memory_open hopen
  | close fd =>
      obtain ⟨⟨r, k₁⟩, hclose, heq⟩ := Option.map_eq_some_iff.mp h
      obtain ⟨-, rfl⟩ := Prod.mk.inj heq
      exact same_memory_close hclose
  | read fd buf nbytes =>
      obtain ⟨⟨c₁, bytes, k₁⟩, hread, heq⟩ := Option.map_eq_some_iff.mp h
      obtain ⟨-, rfl⟩ := Prod.mk.inj heq
      exact same_memory_read hread
  | _ => exact hop.elim

/-- What a completed operation does to the processes, when all three terminals have
their shells. -/
inductive Effect (env : Env) (k : Kernel) : Op → Control → Kernel → Prop
  | tick (fr : frame) {c : Control} : Effect env k (.tick fr) c (ticked fr k)
  | create {command : Option (List UInt8)} {fr : frame} {pid : ℕ} {c : Control} (eip : ℕ)
      (hpid : started_pid env fr command k = some pid) :
      Effect env k (.execute command fr) c
        (create_process pid env.link.empty_string eip fr
          (claim_slot pid { k with kernel_mem := execute_mem env command k.kernel_mem }))
  | halt {op : Op} {k₁ : Kernel} (hop : op.halts) (hdraw : Draws k k₁) (hbase : ¬ base_halt k) :
      Effect env k op
        (.execute_return op.ext_status (k.pcb (curr_parent k)).esp (k.pcb (curr_parent k)).ebp)
        (halted k₁)
  | quiet {op : Op} {c : Control} {k' : Kernel} (hquiet : Quiet k k')
      (hhalt : op.halts → base_halt k) (hpid : op.started_pid env k = none)
      (hpcb : op.on_files ∨ k'.pcb = k.pcb) : Effect env k op c k'

theorem Draws.curr_pid {k k' : Kernel} (h : Draws k k') : k'.curr_pid = k.curr_pid :=
  h.quiet.curr_pid

theorem Draws.curr_parent {k k' : Kernel} (h : Draws k k') : curr_parent k' = curr_parent k := by
  unfold LinuxLikeOS.curr_parent
  rw [h.pcb, h.curr_pid]

theorem Draws.base_halt_iff {k k' : Kernel} (h : Draws k k') : base_halt k' ↔ base_halt k := by
  unfold base_halt
  rw [h.pcb, h.curr_pid, h.curr_terminal, h.quiet.flag]

theorem halt_effect {env : Env} {k k₁ k' : Kernel} {op : Op} {status : ℕ} {c : Control}
    (hop : op.halts) (hpid : op.started_pid env k = none) (hstatus : op.ext_status = ext_status status)
    (hdraw : Draws k k₁) (h : system_halt status k₁ = some (c, k')) : Effect env k op c k' := by
  by_cases hbase : base_halt k
  · rw [system_halt_base status (hdraw.base_halt_iff.mpr hbase), Option.some.injEq,
      Prod.mk.injEq] at h
    exact .quiet (h.2 ▸ hdraw.quiet) (fun _ => hbase) hpid (Or.inr (h.2 ▸ hdraw.pcb))
  · obtain ⟨rfl, rfl⟩ := system_halt_parent (mt hdraw.base_halt_iff.mp hbase) h
    -- the saved registers of the parent are those of before the message was printed
    rw [hdraw.pcb, hdraw.curr_parent, ← hstatus]
    exact .halt hop hdraw hbase

/-- **The case split.** -/
theorem perform_effect {env : Env} {k k' : Kernel} {op : Op} {c : Control}
    (hflag : ∀ t, (k.terminal_array t).flag = 1) (h : perform env k op = some (c, k')) :
    Effect env k op c k' := by
  cases op with
  | tick fr =>
      rw [perform_tick hflag h]
      exact .tick fr
  | switch_screen t =>
      rw [perform, Option.some.injEq, Prod.mk.injEq] at h
      rw [← h.2]
      exact .quiet (quiet_switch_screen t k) False.elim rfl (Or.inr rfl)
  | execute command fr =>
      rw [perform] at h
      cases hpid : started_pid env fr command k with
      | none =>
          obtain ⟨-, rfl⟩ := system_execute_fails h hpid
          exact .quiet { Quiet.refl k with } False.elim hpid (Or.inr rfl)
      | some pid =>
          obtain ⟨eip, -, rfl⟩ := system_execute_starts h hpid
          exact .create eip hpid
  | halt status => exact halt_effect trivial rfl rfl (.refl k) h
  | exception message => exact halt_effect trivial rfl rfl (draws_puts message k) h
  | «open» _ | close _ | read _ _ _ =>
      exact .quiet (Op.on_files.same_memory (by trivial) h).toQuiet False.elim rfl
        (Or.inl trivial)
  | vidmap screen_start =>
      rw [perform, Option.some.injEq, Prod.mk.injEq] at h
      rw [← h.2]
      refine .quiet (quiet_vidmap env.link screen_start k) False.elim rfl (Or.inr ?_)
      unfold system_vidmap
      split <;> rfl

/-! ## The two ends of a process -/

/-- An operation that ends a process is `system_halt` after some printing. -/
theorem Op.halts.system_halt {env : Env} {k k' : Kernel} {op : Op} {c : Control} (hop : op.halts)
    (h : perform env k op = some (c, k')) :
    ∃ k₁ status, Draws k k₁ ∧ LinuxLikeOS.system_halt status k₁ = some (c, k') := by
  cases op with
  | halt status => exact ⟨k, status.toNat, .refl k, h⟩
  | exception message => exact ⟨puts message k, EXCEPTION, draws_puts message k, h⟩
  | _ => exact hop.elim

/-- A base shell that ends is restarted, and the kernel stays as it is. -/
theorem Op.halts.base {env : Env} {k k' : Kernel} {op : Op} (hop : op.halts)
    (hbase : base_halt k) (hstep : kstep env k op = some k') : Draws k k' := by
  obtain ⟨c, hperform⟩ := kstep_eq_some.mp hstep
  obtain ⟨k₁, status, hdraw, hhalt⟩ := hop.system_halt hperform
  rw [system_halt_base status (hdraw.base_halt_iff.mpr hbase), Option.some.injEq,
    Prod.mk.injEq] at hhalt
  exact hhalt.2 ▸ hdraw

/-- Any other process is left to its parent. -/
theorem Op.halts.parent {env : Env} {k k' : Kernel} {op : Op} (hop : op.halts)
    (hbase : ¬ base_halt k) (hstep : kstep env k op = some k') :
    ∃ k₁, Draws k k₁ ∧ k' = halted k₁ := by
  obtain ⟨c, hperform⟩ := kstep_eq_some.mp hstep
  obtain ⟨k₁, status, hdraw, hhalt⟩ := hop.system_halt hperform
  exact ⟨k₁, hdraw, (system_halt_parent (mt hdraw.base_halt_iff.mp hbase) hhalt).2⟩

theorem kstep_effect {env : Env} {k k' : Kernel} {op : Op}
    (hflag : ∀ t, (k.terminal_array t).flag = 1) (h : kstep env k op = some k') :
    ∃ c, Effect env k op c k' := by
  obtain ⟨c, hc⟩ := kstep_eq_some.mp h
  exact ⟨c, perform_effect hflag hc⟩

/-! ## String memory and the directory counter -/

/-- What an operation does to string memory. -/
def Op.store_args (env : Env) (op : Op) (mem : ℕ → UInt8) : ℕ → UInt8 :=
  match op with
  | .execute command _ => execute_mem env command mem
  | _ => mem

/-- Only the parser of `system_execute` writes string memory, and only file operations
move the directory counter. -/
theorem kstep_memory {env : Env} {k k' : Kernel} {op : Op}
    (hflag : ∀ t, (k.terminal_array t).flag = 1) (hstep : kstep env k op = some k') :
    k'.kernel_mem = op.store_args env k.kernel_mem ∧
      (¬ op.on_files → k'.dentry_counter = k.dentry_counter) := by
  obtain ⟨c, hperform⟩ := kstep_eq_some.mp hstep
  -- both ends of a process: a base shell that starts over, and a return to the parent
  have hhalt : op.halts → k'.kernel_mem = k.kernel_mem ∧ k'.dentry_counter = k.dentry_counter := by
    intro hop
    by_cases hbase : base_halt k
    · have hdraw := hop.base hbase hstep
      exact ⟨hdraw.kernel_mem, hdraw.dentry_counter⟩
    · obtain ⟨k₁, hdraw, rfl⟩ := hop.parent hbase hstep
      exact ⟨hdraw.kernel_mem, hdraw.dentry_counter⟩
  cases op with
  | tick fr =>
      rw [perform_tick hflag hperform]
      exact ⟨rfl, fun _ => rfl⟩
  | switch_screen t =>
      rw [perform, Option.some.injEq, Prod.mk.injEq] at hperform
      rw [← hperform.2]
      exact ⟨rfl, fun _ => rfl⟩
  | execute command fr =>
      rw [perform] at hperform
      cases hpid : started_pid env fr command k with
      | none =>
          obtain ⟨-, rfl⟩ := system_execute_fails hperform hpid
          exact ⟨rfl, fun _ => rfl⟩
      | some pid =>
          obtain ⟨eip, -, rfl⟩ := system_execute_starts hperform hpid
          have hmem := create_process_memory pid env.link.empty_string eip fr
            (claim_slot pid { k with kernel_mem := execute_mem env command k.kernel_mem })
          exact ⟨hmem.2.1, fun _ => hmem.2.2⟩
  | halt status => exact ⟨(hhalt trivial).1, fun _ => (hhalt trivial).2⟩
  | exception message => exact ⟨(hhalt trivial).1, fun _ => (hhalt trivial).2⟩
  | «open» _ | close _ | read _ _ _ =>
      exact ⟨(Op.on_files.same_memory (by trivial) hperform).kernel_mem,
        fun hno => absurd (by trivial) hno⟩
  | vidmap screen_start =>
      rw [perform, Option.some.injEq, Prod.mk.injEq] at hperform
      rw [← hperform.2]
      unfold system_vidmap
      split <;> exact ⟨rfl, fun _ => rfl⟩

end LinuxLikeOS
