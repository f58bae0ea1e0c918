/-
The state the runs start from: what the boot and the first two timer interrupts leave.

`Booted env n` describes the kernel with the first `n` base shells started. The boot
establishes it for one shell, a timer interrupt that starts a shell carries it from `n`
to `n + 1`, and `Started` is the case of three.
-/
import LinuxLikeOS.Effects
import LinuxLikeOS.Drawing

set_option autoImplicit false

namespace LinuxLikeOS

open Kernel

/-- The processes below `n` are the base shells of the terminals below `n`, and there
is no other process. -/
structure BaseShells (env : Env) (n : ℕ) (k : Kernel) : Prop where
  cur_processes : ∀ p, k.cur_processes p = if p < n then 1 else 0
  pid : ∀ t : Terminal, t.val < n → (k.terminal_array t).pid = t.val
  base_tss_esp0 : ∀ t : Terminal, t.val < n → (k.terminal_array t).base_tss_esp0 = stack_top t.val
  base_tss_ss0 : ∀ t : Terminal, t.val < n → (k.terminal_array t).base_tss_ss0 = KERNEL_DS
  parent_pid : ∀ p, p < n → (k.pcb p).parent_pid = BASE_SHELL
  terminal_id : ∀ p, p < n → (k.pcb p).terminal_id = p
  args : ∀ p, p < n → (k.pcb p).args = env.link.empty_string
  file_descriptors : ∀ p i, p < n → FILE_DESCRIPTOR_MIN ≤ i → i < FILE_DESCRIPTOR_MAX →
    ¬ ((k.pcb p).file_descriptors i).in_use

/-- Nothing has been typed, printed, listed or mapped yet. -/
structure Blank (k : Kernel) : Prop where
  screen_terminal : k.screen_terminal = 0
  screen_x : ∀ t, (k.terminal_array t).screen_x = 0
  screen_y : ∀ t, (k.terminal_array t).screen_y = 0
  buffer_size : ∀ t, (k.terminal_array t).buffer_size = 0
  DISPLAY_ON_MAIN_PAGE : k.DISPLAY_ON_MAIN_PAGE = 0
  dentry_counter : k.dentry_counter = 0
  line_accesses : k.line_accesses = []
  vid_map : pte.base_addr.get (k.paging.vid_map 0) = 0

/-- The kernel at the `execute` of the shell of terminal `n`. -/
structure Opening (env : Env) (n : ℕ) (k : Kernel) : Prop
    extends BaseShells env n k, Blank k where
  curr_terminal : k.curr_terminal.val = n
  flag : ∀ t : Terminal, (k.terminal_array t).flag = if t.val < n + 1 then 1 else 0
  base_shell : k.base_shell = 1
  page_size : pde_kb.page_size.get (k.paging.page_directory USER_ADDR_INDEX) = 1

/-- The kernel with the shells of the terminals below `n` started, just after the last
of them. -/
structure Booted (env : Env) (n : ℕ) (k : Kernel) : Prop
    extends BaseShells env n k, Blank k where
  curr_terminal : k.curr_terminal.val + 1 = n
  flag : ∀ t : Terminal, (k.terminal_array t).flag = if t.val < n then 1 else 0
  base_shell : k.base_shell = 0
  tss : k.tss = ⟨stack_top k.curr_terminal.val, KERNEL_DS⟩
  user_page : UserPage k.paging k.curr_terminal.val
  kernel_mem : k.kernel_mem env.link.empty_string = 0

/-! ## A base shell -/

/-- A boot step that ends in a new process is a successful `execute`. -/
theorem new_process_execute {env : Env} {fr : frame} {command : Option (List UInt8)}
    {k k' : Kernel} (h : new_process (system_execute env command fr k) = some k') :
    ∃ pid eip, started_pid env fr command k = some pid ∧
      k' = create_process pid env.link.empty_string eip fr
        (claim_slot pid { k with kernel_mem := execute_mem env command k.kernel_mem }) := by
  -- of the three outcomes only the `iret` is a new process
  cases hexec : system_execute env command fr k with
  | none =>
      rw [hexec] at h
      cases h
  | some r =>
      obtain ⟨c, k₁⟩ := r
      rw [hexec] at h
      cases hpid : started_pid env fr command k with
      | none =>
          obtain ⟨rfl, rfl⟩ := system_execute_fails hexec hpid
          cases h
      | some pid =>
          obtain ⟨eip, rfl, rfl⟩ := system_execute_starts hexec hpid
          rw [new_process, Option.some.injEq] at h
          exact ⟨pid, eip, rfl, h.symm⟩

/-- A timer interrupt that ends in a new process found a terminal without a shell. -/
theorem new_process_scheduler {env : Env} {fr : frame} {k k' : Kernel}
    (h : new_process (scheduler env fr k) = some k') :
    new_process (system_execute env (some (ascii "shell")) fr (open_terminal (preempt fr k)))
      = some k' := by
  unfold scheduler at h
  dsimp only at h
  split at h
  · split at h
    · -- the shell was not started, and the interrupt switched instead
      cases h
    · exact h
  · cases h

/-- The free slot when the slots below `n` are taken. -/
theorem free_pid_eq {k : Kernel} {n : ℕ} (hn : n < NUM_PROCESSES)
    (h : ∀ p, k.cur_processes p = if p < n then 1 else 0) : free_pid k = some n := by
  unfold free_pid
  rw [List.find?_range_eq_some]
  refine ⟨?_, List.mem_range.mpr hn, ?_⟩
  · rw [h]
    simp
  · intro j hj
    rw [h]
    simp [hj]

theorem started_pid_eq {env : Env} {fr : frame} {command : Option (List UInt8)} {k : Kernel}
    {n pid : ℕ} (hn : n < NUM_PROCESSES) (h : ∀ p, k.cur_processes p = if p < n then 1 else 0)
    (hpid : started_pid env fr command k = some pid) : pid = n := by
  unfold started_pid at hpid
  split at hpid
  · cases hpid
  · split at hpid
    · cases hpid
    · rw [free_pid_eq hn h, Option.some.injEq] at hpid
      exact hpid.symm

/-- The shell's command line has no arguments. -/
theorem command_args_shell : command_args (ascii "shell") = [] := by decide

/-- **One more shell.** The process takes the next slot and is recorded for the
scheduled terminal. -/
theorem Opening.booted {env : Env} {fr : frame} {n : ℕ} {k k' : Kernel} (h : Opening env n k)
    (hexec : new_process (system_execute env (some (ascii "shell")) fr k) = some k') :
    Booted env (n + 1) k' := by
  have hn : n < MAX_TERMINALS := h.curr_terminal ▸ k.curr_terminal.isLt
  have hn6 : n < NUM_PROCESSES := by
    have h3 : MAX_TERMINALS < NUM_PROCESSES := by decide
    omega
  obtain ⟨pid, eip, hpid, rfl⟩ := new_process_execute hexec
  obtain rfl : pid = n := started_pid_eq hn6 h.cur_processes hpid
  -- `t` is below `n + 1` when it is below `n` or the scheduled terminal
  have hlt : ∀ t : Terminal, t.val < pid + 1 → t ≠ k.curr_terminal → t.val < pid := by
    intro t ht hne
    have hval : t.val ≠ pid := fun heq => hne (Fin.ext (heq.trans h.curr_terminal.symm))
    omega
  have hcurr : ∀ t : Terminal, t = k.curr_terminal → t.val = pid := fun t ht => by
    rw [ht, h.curr_terminal]
  rw [create_process_base (by exact h.base_shell)]
  refine
    { cur_processes := fun p => ?_, pid := fun t ht => ?_, base_tss_esp0 := fun t ht => ?_,
      base_tss_ss0 := fun t ht => ?_, parent_pid := fun p hp => ?_, terminal_id := fun p hp => ?_,
      args := fun p hp => ?_, file_descriptors := fun p i hp hi hi' => ?_,
      screen_terminal := h.screen_terminal, screen_x := h.screen_x, screen_y := h.screen_y,
      buffer_size := h.buffer_size, DISPLAY_ON_MAIN_PAGE := h.DISPLAY_ON_MAIN_PAGE,
      dentry_counter := h.dentry_counter, line_accesses := h.line_accesses, vid_map := ?_,
      curr_terminal := by rw [← h.curr_terminal]; rfl, flag := h.flag, base_shell := rfl,
      tss := by rw [← h.curr_terminal]; rfl, user_page := ?_, kernel_mem := ?_ }
  · -- the table grows by the slot that was taken
    show Function.update k.cur_processes pid 1 p = _
    rw [Function.update_apply, h.cur_processes]
    by_cases hp : p = pid
    · simp [hp]
    · have hiff : p < pid + 1 ↔ p < pid := by omega
      simp [hp, hiff]
  · show (if t = k.curr_terminal then pid else (k.terminal_array t).pid) = _
    by_cases hc : t = k.curr_terminal
    · rw [if_pos hc, hcurr t hc]
    · rw [if_neg hc, h.pid t (hlt t ht hc)]
  · show (if t = k.curr_terminal then stack_top pid else (k.terminal_array t).base_tss_esp0) = _
    by_cases hc : t = k.curr_terminal
    · rw [if_pos hc, hcurr t hc]
    · rw [if_neg hc, h.base_tss_esp0 t (hlt t ht hc)]
  · show (if t = k.curr_terminal then KERNEL_DS else (k.terminal_array t).base_tss_ss0) = _
    by_cases hc : t = k.curr_terminal
    · rw [if_pos hc]
    · rw [if_neg hc, h.base_tss_ss0 t (hlt t ht hc)]
  · by_cases hp' : p = pid
    · simp only [hp', if_true, created_pcb]
    · simp only [hp', if_false]
      exact h.parent_pid p (by omega)
  · by_cases hp' : p = pid
    · simp only [hp', if_true, created_pcb]
      exact h.curr_terminal
    · simp only [hp', if_false]
      exact h.terminal_id p (by omega)
  · by_cases hp' : p = pid
    · simp only [hp', if_true, created_pcb]
    · simp only [hp', if_false]
      exact h.args p (by omega)
  · by_cases hp' : p = pid
    · -- a new control block has `stdin` and `stdout`, and the other six closed
      simp only [hp', if_true, created_pcb]
      have h2 : FILE_DESCRIPTOR_MIN = 2 := rfl
      have h0 : i ≠ 0 := by omega
      have h1 : i ≠ 1 := by omega
      simp [new_fds, h0, h1, hi', fd_t.in_use]
    · simp only [hp', if_false]
      exact h.file_descriptors p i (by omega) hi hi'
  · show pte.base_addr.get ((process_page pid k.paging).vid_map 0) = 0
    rw [process_page_vid_map]
    exact h.vid_map
  · show UserPage (process_page pid k.paging) k.curr_terminal.val
    rw [h.curr_terminal]
    exact .process_page hn6 h.page_size
  · -- the shell has no arguments, so the parser stores the terminator only
    show store_string env.link.empty_string (command_args (ascii "shell")) k.kernel_mem
      env.link.empty_string = 0
    rw [command_args_shell]
    simp [store_string, c_str]

/-! ## The boot -/

/-- The kernel `entry` has prepared is ready for its first shell. -/
theorem init_kernel_opening (env : Env) (memory : Kernel) :
    Opening env 0 (init_kernel env (loaded memory)) where
  cur_processes p := by
    show (loaded memory).cur_processes p = _
    simp [loaded]
  pid t ht := absurd ht (Nat.not_lt_zero _)
  base_tss_esp0 t ht := absurd ht (Nat.not_lt_zero _)
  base_tss_ss0 t ht := absurd ht (Nat.not_lt_zero _)
  parent_pid p hp := absurd hp (Nat.not_lt_zero _)
  terminal_id p hp := absurd hp (Nat.not_lt_zero _)
  args p hp := absurd hp (Nat.not_lt_zero _)
  file_descriptors p i hp := absurd hp (Nat.not_lt_zero _)
  screen_terminal := (draws_clear _).screen_terminal
  screen_x t := by
    unfold init_kernel
    extract_lets k₁ k₂ k₃ k₄
    rw [clear_terminal]
    split <;> rfl
  screen_y t := by
    unfold init_kernel
    extract_lets k₁ k₂ k₃ k₄
    rw [clear_terminal]
    split <;> rfl
  buffer_size t := by
    obtain ⟨x, y, hxy⟩ := (draws_clear _).terminal t
    unfold init_kernel
    rw [hxy]
    rfl
  DISPLAY_ON_MAIN_PAGE := draw_flags_display _
  dentry_counter := (draws_clear _).dentry_counter
  line_accesses := (draws_clear _).line_accesses
  vid_map := by
    unfold init_kernel
    rw [(draws_clear _).paging]
    exact blank_pte_base_addr 0 _
  curr_terminal := by
    unfold init_kernel
    rw [(draws_clear _).curr_terminal]
    rfl
  flag t := by
    unfold init_kernel
    rw [(draws_clear _).quiet.flag]
    show (if t.val = 0 then 1 else 0) = _
    by_cases ht : t.val = 0 <;> simp [ht]
  base_shell := (draws_clear _).base_shell
  page_size := by
    unfold init_kernel
    rw [(draws_clear _).paging]
    exact blank_pde_page_size _

/-! ## A terminal is opened -/

section

variable {fr : frame} {k : Kernel}

/-- The timer interrupt clears the screen, and marks the terminal that is scheduled next. -/
theorem open_terminal_terminal (t : Terminal) : (open_terminal (preempt fr k)).terminal_array t
    = if t = next_terminal k.curr_terminal then
        { (clear (preempt fr k)).terminal_array t with flag := 1 }
      else (clear (preempt fr k)).terminal_array t := by
  show ((clear (preempt fr k)).set_terminal (next_terminal k.curr_terminal)
    fun ti => { ti with flag := 1 }).terminal_array t = _
  rw [set_terminal_apply]
  split
  · rename_i ht
    rw [ht]
  · rfl

/-- Only the flag of that terminal differs from what `clear` leaves. -/
theorem open_terminal_field {α : Type*} (field : terminal_info_t → α)
    (hflag : ∀ ti n, field { ti with flag := n } = field ti) (t : Terminal) :
    field ((open_terminal (preempt fr k)).terminal_array t)
      = field ((clear (preempt fr k)).terminal_array t) := by
  rw [open_terminal_terminal]
  split
  · exact hflag _ _
  · rfl

/-- In a control block the interrupt stores the stack of the process it has stopped. -/
theorem open_terminal_pcb (fr : frame) (k : Kernel) (p : ℕ) : ∃ esp ebp, (open_terminal (preempt fr k)).pcb p
    = { k.pcb p with esp := esp, ebp := ebp } := by
  show ∃ esp ebp, (clear (preempt fr k)).pcb p = _
  rw [(draws_clear (preempt fr k)).pcb]
  show ∃ esp ebp, (Function.update k.pcb k.curr_pid _) p = _
  rw [Function.update_apply]
  split
  · rename_i hp
    exact ⟨fr.esp, fr.ebp, by rw [hp]⟩
  · exact ⟨_, _, rfl⟩

theorem BaseShells.opened {env : Env} {n : ℕ} (h : BaseShells env n k) :
    BaseShells env n (open_terminal (preempt fr k)) := by
  have hdraw : Draws (preempt fr k) (clear (preempt fr k)) := draws_clear _
  refine
    { cur_processes := fun p => ?_, pid := fun t ht => ?_, base_tss_esp0 := fun t ht => ?_,
      base_tss_ss0 := fun t ht => ?_, parent_pid := fun p hp => ?_, terminal_id := fun p hp => ?_,
      args := fun p hp => ?_, file_descriptors := fun p i hp hi hi' => ?_ }
  · show (clear (preempt fr k)).cur_processes p = _
    rw [hdraw.cur_processes]
    exact h.cur_processes p
  · rw [open_terminal_field (·.pid) fun _ _ => rfl]
    exact (hdraw.quiet.pid t).trans (h.pid t ht)
  · rw [open_terminal_field (·.base_tss_esp0) fun _ _ => rfl]
    exact (hdraw.quiet.base_tss_esp0 t).trans (h.base_tss_esp0 t ht)
  · rw [open_terminal_field (·.base_tss_ss0) fun _ _ => rfl]
    exact (hdraw.quiet.base_tss_ss0 t).trans (h.base_tss_ss0 t ht)
  · obtain ⟨esp, ebp, heq⟩ := open_terminal_pcb fr k p
    rw [heq]
    exact h.parent_pid p hp
  · obtain ⟨esp, ebp, heq⟩ := open_terminal_pcb fr k p
    rw [heq]
    exact h.terminal_id p hp
  · obtain ⟨esp, ebp, heq⟩ := open_terminal_pcb fr k p
    rw [heq]
    exact h.args p hp
  · obtain ⟨esp, ebp, heq⟩ := open_terminal_pcb fr k p
    rw [heq]
    exact h.file_descriptors p i hp hi hi'

theorem Blank.opened (h : Blank k) : Blank (open_terminal (preempt fr k)) := by
  have hdraw : Draws (preempt fr k) (clear (preempt fr k)) := draws_clear _
  refine
    { screen_terminal := hdraw.screen_terminal.trans h.screen_terminal,
      screen_x := fun t => ?_, screen_y := fun t => ?_, buffer_size := fun t => ?_,
      DISPLAY_ON_MAIN_PAGE := draw_flags_display _,
      dentry_counter := hdraw.dentry_counter.trans h.dentry_counter,
      line_accesses := hdraw.line_accesses.trans h.line_accesses, vid_map := ?_ }
  · rw [open_terminal_field (·.screen_x) fun _ _ => rfl, clear_terminal]
    split
    · rfl
    · exact h.screen_x t
  · rw [open_terminal_field (·.screen_y) fun _ _ => rfl, clear_terminal]
    split
    · rfl
    · exact h.screen_y t
  · obtain ⟨x, y, hxy⟩ := hdraw.terminal t
    rw [open_terminal_field (·.buffer_size) fun _ _ => rfl, hxy]
    exact h.buffer_size t
  · show pte.base_addr.get ((clear (preempt fr k)).paging.vid_map 0) = 0
    rw [hdraw.paging]
    exact h.vid_map

end

/-- A timer interrupt on a terminal without a shell makes it ready for one. -/
theorem Booted.opening {env : Env} {fr : frame} {n : ℕ} {k : Kernel} (h : Booted env n k)
    (hn : n < MAX_TERMINALS) : Opening env n (open_terminal (preempt fr k)) := by
  have hcurr : (next_terminal k.curr_terminal).val = n := by
    show (k.curr_terminal.val + 1) % MAX_TERMINALS = n
    rw [h.curr_terminal, Nat.mod_eq_of_lt hn]
  have hdraw : Draws (preempt fr k) (clear (preempt fr k)) := draws_clear _
  refine
    { toBaseShells := h.toBaseShells.opened, toBlank := h.toBlank.opened, curr_terminal := ?_,
      flag := fun t => ?_, base_shell := rfl, page_size := ?_ }
  · show (clear (preempt fr k)).curr_terminal.val = n
    rw [hdraw.curr_terminal]
    exact hcurr
  · -- one more terminal is open, the one that is scheduled now
    have hold : ((clear (preempt fr k)).terminal_array t).flag = if t.val < n then 1 else 0 :=
      (hdraw.quiet.flag t).trans (h.flag t)
    rw [open_terminal_terminal]
    by_cases ht : t = next_terminal k.curr_terminal
    · have htn : t.val < n + 1 := by rw [ht, hcurr]; omega
      rw [if_pos ht, if_pos htn]
    · have hne : t.val ≠ n := fun heq => ht (Fin.ext (heq.trans hcurr.symm))
      have hiff : t.val < n + 1 ↔ t.val < n := by omega
      rw [if_neg ht, hold]
      simp only [hiff]
  · show pde_kb.page_size.get ((clear (preempt fr k)).paging.page_directory _) = 1
    rw [hdraw.paging]
    exact h.user_page.page_size

/-- What the boot establishes and a new terminal with its shell keeps holds at the start. -/
theorem Started.invariant {env : Env} {P : Kernel → Prop}
    (hinit : ∀ memory, P (init_kernel env (loaded memory)))
    (hopen : ∀ fr k, P k → P (open_terminal (preempt fr k)))
    (hexec : ∀ fr k k', P k →
      new_process (system_execute env (some (ascii "shell")) fr k) = some k' → P k')
    {k : Kernel} (h : Started env k) : P k := by
  obtain ⟨memory, fr₀, fr₁, fr₂, hboot⟩ := h
  obtain ⟨k₁, h₁, hboot⟩ := Option.bind_eq_some_iff.mp hboot
  obtain ⟨k₂, h₂, h₃⟩ := Option.bind_eq_some_iff.mp hboot
  have hp₁ : P k₁ := hexec _ _ _ (hinit memory) h₁
  have hp₂ : P k₂ := hexec _ _ _ (hopen _ _ hp₁) (new_process_scheduler h₂)
  exact hexec _ _ _ (hopen _ _ hp₂) (new_process_scheduler h₃)

/-- **The start.** The three base shells are the processes 0, 1 and 2, on the
terminals of the same number. -/
theorem Started.booted {env : Env} {k : Kernel} (h : Started env k) : Booted env 3 k := by
  obtain ⟨memory, fr₀, fr₁, fr₂, hboot⟩ := h
  obtain ⟨k₁, h₁, hboot⟩ := Option.bind_eq_some_iff.mp hboot
  obtain ⟨k₂, h₂, h₃⟩ := Option.bind_eq_some_iff.mp hboot
  have hb₁ : Booted env 1 k₁ := (init_kernel_opening env memory).booted h₁
  have hb₂ : Booted env 2 k₂ :=
    (hb₁.opening (by decide)).booted (new_process_scheduler h₂)
  exact (hb₂.opening (by decide)).booted (new_process_scheduler h₃)

end LinuxLikeOS
