/-
Which process is running: four places of the kernel that have to say the same.

The terminal table has the pid of the scheduled terminal, the page directory the frame
of the running process, the task state its kernel stack, and its control block the
terminal it runs on. They are written by four operations, and `system_execute` takes
some of its indices from `curr_terminal` and some from `screen_terminal`. On the
terminal on display the two are the same and the four places stay together; elsewhere
a new process is recorded for the wrong terminal at once. Both directions are proved
of one operation here, and of every interleaving in `Interleavings`.
-/
import LinuxLikeOS.Processes

set_option autoImplicit false

namespace LinuxLikeOS

open Kernel StackForest Transition

/-! ## The property -/

/-- With `t = curr_terminal` and `p` its pid: user memory is the frame of `p`, the task
state and the terminal have the kernel stack of `p`, and `p` is on terminal `t`. -/
structure Agree (link : Linkage) (k : Kernel) : Prop where
  user_page : ∀ off, off < FOUR_MB → translate link k.paging (USER_ADDR_INDEX * FOUR_MB + off)
    = some ⟨EIGHT_MB + FOUR_MB * k.curr_pid + off, true⟩
  tss : k.tss.esp0 = (k.terminal_array k.curr_terminal).base_tss_esp0
  base_tss_esp0 : (k.terminal_array k.curr_terminal).base_tss_esp0
    = EIGHT_MB - EIGHT_KB * k.curr_pid
  terminal_id : (k.pcb k.curr_pid).terminal_id = k.curr_terminal.val

/-- A new process is recorded for the scheduled terminal, below the process that called, and the
other terminals are left alone. -/
structure RecordedAs (k k' : Kernel) (pid : ℕ) : Prop where
  recorded : terminal_pid k' k.curr_terminal = pid
  parent_pid : (k'.pcb pid).parent_pid = k.curr_pid
  terminal_id : (k'.pcb pid).terminal_id = k.curr_terminal.val
  other : ∀ t, t ≠ k.curr_terminal → terminal_pid k' t = terminal_pid k t

/-- An operation that starts a process comes from the terminal on display. -/
def OnDisplay (env : Env) (k : Kernel) (op : Op) : Prop :=
  op.started_pid env k ≠ none → k.curr_terminal = k.screen_terminal

instance (env : Env) (k : Kernel) (op : Op) : Decidable (OnDisplay env k op) :=
  inferInstanceAs (Decidable (_ → _))

/-! ## The invariant -/

/-- The three stacks, each process with the number of its terminal, and each terminal
with the kernel stack of its process. -/
structure AgreeInv (k : Kernel) (stack : Terminal → List ℕ) : Prop
    extends ProcessInv k stack where
  base_tss_esp0 : ∀ t, (k.terminal_array t).base_tss_esp0 = stack_top (terminal_pid k t)
  terminal_id : ∀ t p, p ∈ stack t → (k.pcb p).terminal_id = t.val
  user_page : UserPage k.paging k.curr_pid
  tss : k.tss.esp0 = stack_top k.curr_pid

/-- The kernel stacks lie below 8 MB, one every 8 KB. -/
theorem stack_top_eq {p : ℕ} (hp : p < NUM_PROCESSES) : stack_top p = EIGHT_MB - EIGHT_KB * p := by
  have h8 : EIGHT_MB = 8388608 := rfl
  have h8k : EIGHT_KB = 8192 := rfl
  have h6 : NUM_PROCESSES = 6 := rfl
  unfold stack_top u32
  rw [h8, h8k]
  omega

namespace AgreeInv

variable {env : Env} {k k' : Kernel} {stack : Terminal → List ℕ}

theorem agree (h : AgreeInv k stack) (link : Linkage) : Agree link k where
  user_page off hoff := h.user_page.translate link hoff
  tss := h.tss.trans (h.base_tss_esp0 k.curr_terminal).symm
  base_tss_esp0 := by
    rw [h.base_tss_esp0]
    exact stack_top_eq (h.live_terminal_pid k.curr_terminal).1
  terminal_id := h.terminal_id _ _ (h.forest.chain k.curr_terminal).mem_head

theorem quiet (h : AgreeInv k stack) (hq : Quiet k k') : AgreeInv k' stack where
  toProcessInv := h.toProcessInv.quiet hq
  base_tss_esp0 t := by
    unfold terminal_pid
    rw [hq.base_tss_esp0, hq.pid]
    exact h.base_tss_esp0 t
  terminal_id t p hp := by
    obtain ⟨fds, hfds⟩ := hq.pcb p
    rw [hfds]
    exact h.terminal_id t p hp
  user_page := by
    rw [hq.curr_pid]
    exact h.user_page.congr hq.user_page
  tss := by
    rw [hq.tss, hq.curr_pid]
    exact h.tss

theorem tick (h : AgreeInv k stack) (fr : frame) : AgreeInv (ticked fr k) stack where
  toProcessInv := h.toProcessInv.tick fr
  base_tss_esp0 := h.base_tss_esp0
  terminal_id t p hp := by
    show (Function.update k.pcb k.curr_pid _ p).terminal_id = t.val
    rw [Function.update_apply]
    split
    · rename_i hpid
      exact h.terminal_id t k.curr_pid (hpid ▸ hp)
    · exact h.terminal_id t p hp
  user_page :=
    -- entry 32 is still a 4 MB entry when the frame of the next process is mapped
    .process_page (h.live_terminal_pid _).1 h.user_page.page_size
  tss := h.base_tss_esp0 (next_terminal k.curr_terminal)

/-- A new process keeps the invariant when its terminal is the one on display. -/
theorem create (h : AgreeInv k stack) {fr : frame} {command : Option (List UInt8)}
    {pid args eip : ℕ} {mem : ℕ → UInt8} (hpid : started_pid env fr command k = some pid)
    (hscreen : k.curr_terminal = k.screen_terminal) :
    AgreeInv (created pid args eip fr (claim_slot pid { k with kernel_mem := mem }))
      (Function.update stack k.screen_terminal (pid :: stack k.screen_terminal)) := by
  have hfree : ¬ live k pid := ProcessInv.not_live_of_started hpid
  have hcurr : (created pid args eip fr (claim_slot pid { k with kernel_mem := mem })).curr_pid
      = pid := by
    show (if k.curr_terminal = k.screen_terminal then pid else _) = pid
    rw [if_pos hscreen]
  refine { toProcessInv := h.toProcessInv.create hpid, base_tss_esp0 := fun t => ?_,
           terminal_id := fun t p hp => ?_, user_page := ?_, tss := ?_ }
  · show (if t = k.curr_terminal then stack_top pid else (k.terminal_array t).base_tss_esp0)
      = stack_top (if t = k.screen_terminal then pid else (k.terminal_array t).pid)
    rw [← hscreen]
    by_cases ht : t = k.curr_terminal
    · rw [if_pos ht, if_pos ht]
    · rw [if_neg ht, if_neg ht]
      exact h.base_tss_esp0 t
  · show (if p = pid then created_pcb _ pid _ args eip k.screen_terminal
      else if p = (k.terminal_array k.screen_terminal).pid then
        { k.pcb p with ebp := fr.ebp, esp := fr.esp } else k.pcb p).terminal_id = t.val
    -- a process that was on a stack is not the new one, and keeps its terminal
    have hold : p ∈ stack t → p ≠ pid ∧ (k.pcb p).terminal_id = t.val := by
      intro hmem
      refine ⟨?_, h.terminal_id t p hmem⟩
      intro heq
      exact hfree (heq ▸ (h.forest.live_iff p).mpr ⟨t, hmem⟩)
    by_cases hpp : p = pid
    · rw [if_pos hpp]
      show k.screen_terminal.val = t.val
      by_cases ht : t = k.screen_terminal
      · rw [ht]
      · rw [Function.update_of_ne ht] at hp
        exact absurd hpp (hold hp).1
    · rw [if_neg hpp]
      have hmem : p ∈ stack t := by
        by_cases ht : t = k.screen_terminal
        · subst ht
          rw [Function.update_self] at hp
          exact (List.mem_cons.mp hp).resolve_left hpp
        · rwa [Function.update_of_ne ht] at hp
      split <;> exact (hold hmem).2
  · rw [hcurr]
    exact .process_page (started_pid_spec hpid).1 h.user_page.page_size
  · rw [hcurr]
    rfl

theorem halt (h : AgreeInv k stack) (hbase : ¬ base_halt k) :
    AgreeInv (halted k)
      (Function.update stack k.curr_terminal (stack k.curr_terminal).tail) := by
  have hparent := h.parent_of_curr hbase
  have hlive : live k (curr_parent k) := h.forest.live_parent h.live_curr_pid hparent
  have hcurr : (halted k).curr_pid = curr_parent k := if_pos rfl
  refine { toProcessInv := h.toProcessInv.halt hbase, base_tss_esp0 := fun t => ?_,
           terminal_id := fun t p hp => ?_, user_page := ?_, tss := ?_ }
  · show (if t = k.curr_terminal then stack_top (curr_parent k)
        else (k.terminal_array t).base_tss_esp0)
      = stack_top (if t = k.curr_terminal then curr_parent k else (k.terminal_array t).pid)
    by_cases ht : t = k.curr_terminal
    · rw [if_pos ht, if_pos ht]
    · rw [if_neg ht, if_neg ht]
      exact h.base_tss_esp0 t
  · -- whoever is left was on the same stack before
    have hmem : p ∈ stack t := by
      by_cases ht : t = k.curr_terminal
      · subst ht
        rw [Function.update_self] at hp
        exact List.mem_of_mem_tail hp
      · rwa [Function.update_of_ne ht] at hp
    show (if p = curr_parent k then close_below FILE_DESCRIPTOR_MAX (k.pcb p)
      else k.pcb p).terminal_id = t.val
    split <;> exact h.terminal_id t p hmem
  · rw [hcurr]
    exact .process_page hlive.1 h.user_page.page_size
  · rw [hcurr]
    rfl

/-- One operation keeps the invariant, if a new process comes from the terminal on
display. -/
theorem effect (h : AgreeInv k stack) {op : Op} {c : Control} (he : Effect env k op c k')
    (hdisplay : OnDisplay env k op) : ∃ stack', AgreeInv k' stack' := by
  cases he with
  | tick fr => exact ⟨stack, h.tick fr⟩
  | create eip hpid =>
      have hscreen : k.curr_terminal = k.screen_terminal := by
        apply hdisplay
        rw [Op.started_pid, hpid]
        exact Option.some_ne_none _
      rw [h.create_eq hpid]
      exact ⟨_, h.create hpid hscreen⟩
  | @halt _ k₁ hop hdraw hbase =>
      have h₁ : AgreeInv k₁ stack := h.quiet hdraw.quiet
      exact ⟨_, h₁.halt (mt hdraw.base_halt_iff.mp hbase)⟩
  | quiet hquiet _ _ => exact ⟨stack, h.quiet hquiet⟩

end AgreeInv

theorem Booted.agree_inv {env : Env} {k : Kernel} (h : Booted env 3 k) :
    AgreeInv k fun t => [t.val] where
  toProcessInv := h.process_inv
  base_tss_esp0 t := by
    unfold terminal_pid
    rw [h.base_tss_esp0 t t.isLt, h.pid t t.isLt]
  terminal_id t p hp := by
    rw [List.mem_singleton] at hp
    rw [hp]
    exact h.terminal_id _ t.isLt
  user_page := by
    unfold Kernel.curr_pid
    rw [h.pid _ k.curr_terminal.isLt]
    exact h.user_page
  tss := by
    unfold Kernel.curr_pid
    rw [h.tss, h.pid _ k.curr_terminal.isLt]

/-! ## The condition is exact -/

/-- A new process is recorded as it should be exactly when it comes from the terminal on
display. -/
theorem recordedAs_iff_onDisplay {env : Env} {k k' : Kernel} {op : Op} {pid : ℕ} (h : ProcessTable k)
    (hpid : op.started_pid env k = some pid) (hstep : kstep env k op = some k') :
    RecordedAs k k' pid ↔ OnDisplay env k op := by
  obtain ⟨stack, hinv, -⟩ := h
  obtain ⟨c, he⟩ := kstep_effect hinv.flag hstep
  cases he with
  | tick fr => cases hpid
  | halt hop _ _ =>
      rw [hop.started_pid] at hpid
      cases hpid
  | quiet _ _ hnone =>
      rw [hnone] at hpid
      cases hpid
  | @create command fr pid₁ _ eip hpid₁ =>
      obtain rfl : pid₁ = pid := Option.some.inj (hpid₁.symm.trans hpid)
      rw [hinv.create_eq hpid₁]
      constructor
      · intro hrec _
        -- the terminal on display has changed, so it must be the scheduled one
        by_contra hne
        have hsame := hrec.other k.screen_terminal (Ne.symm hne)
        have hnew : pid₁ = terminal_pid k k.screen_terminal := by
          rw [← hsame]
          exact (if_pos rfl).symm
        exact ProcessInv.not_live_of_started hpid₁ (hnew ▸ hinv.live_terminal_pid _)
      · intro hdisplay
        have hscreen : k.curr_terminal = k.screen_terminal :=
          hdisplay (by rw [hpid]; exact Option.some_ne_none _)
        refine ⟨if_pos hscreen, ?_, ?_, fun t ht => if_neg (hscreen ▸ ht)⟩
        · simp only [created, if_true, created_pcb]
          rw [Kernel.curr_pid, hscreen]
          rfl
        · simp only [created, if_true, created_pcb]
          rw [hscreen]
          rfl

theorem agree_step {env : Env} (k : Kernel) (op : Op) (k' : Kernel)
    (h : ∃ stack, AgreeInv k stack) (hdisplay : OnDisplay env k op)
    (hstep : kstep env k op = some k') : ∃ stack, AgreeInv k' stack := by
  obtain ⟨stack, hinv⟩ := h
  obtain ⟨c, he⟩ := kstep_effect hinv.flag hstep
  exact hinv.effect he hdisplay

end LinuxLikeOS
