/-
The process table as three stacks.

`cur_processes`, the `pid` of each terminal and the `parent_pid` of each control block
together represent one stack of processes for each terminal, with the terminal's base
shell at the bottom (`StackForest.Represents`). A new process is a push, the end of a
process is a pop, and nothing else touches the three. Which terminal is pushed on and
which is popped from do not matter for that: a process started in the background is
pushed on the stack of the terminal on display, and the invariant holds all the same.
-/
import LinuxLikeOS.Start
import LinuxLikeOS.StackForest

set_option autoImplicit false

namespace LinuxLikeOS

open Kernel StackForest Transition

/-! ## The invariant -/

/-- The process a terminal records. -/
def terminal_pid (k : Kernel) (t : Terminal) : ℕ := (k.terminal_array t).pid

/-- The parent of a process; a base shell has none. -/
def parent_of (k : Kernel) (p : ℕ) : Option ℕ :=
  if (k.pcb p).parent_pid = BASE_SHELL then none else some (k.pcb p).parent_pid

theorem parent_of_congr {k k' : Kernel} {p : ℕ}
    (h : (k'.pcb p).parent_pid = (k.pcb p).parent_pid) : parent_of k' p = parent_of k p := by
  unfold parent_of
  rw [h]

/-- The slot of a process is in use. -/
def live (k : Kernel) (p : ℕ) : Prop := p < NUM_PROCESSES ∧ k.cur_processes p = 1

instance (k : Kernel) (p : ℕ) : Decidable (live k p) := inferInstanceAs (Decidable (_ ∧ _))

/-- The three terminals have their shells, and the process table represents the stacks
`stack t`. -/
structure ProcessInv (k : Kernel) (stack : Terminal → List ℕ) : Prop where
  forest : Represents (terminal_pid k) (parent_of k) (live k) stack
  slot : ∀ p, k.cur_processes p = 0 ∨ k.cur_processes p = 1
  flag : ∀ t, (k.terminal_array t).flag = 1
  base_shell : k.base_shell = 0

namespace ProcessInv

variable {env : Env} {k k' : Kernel} {stack : Terminal → List ℕ}

theorem live_terminal_pid (h : ProcessInv k stack) (t : Terminal) : live k (terminal_pid k t) :=
  h.forest.live_top t

theorem live_curr_pid (h : ProcessInv k stack) : live k k.curr_pid :=
  h.live_terminal_pid k.curr_terminal

/-- A live process does not have the number that marks a base shell. -/
theorem ne_base_shell {p : ℕ} (h : live k p) : p ≠ BASE_SHELL := by
  intro hp
  have hlt : p < NUM_PROCESSES := h.1
  rw [hp] at hlt
  exact absurd hlt (by decide)

/-- A free slot is not live. -/
theorem not_live_of_started {fr : frame} {command : Option (List UInt8)} {pid : ℕ}
    (hpid : started_pid env fr command k = some pid) : ¬ live k pid := by
  intro hl
  have hzero := (started_pid_spec hpid).2
  rw [hl.2] at hzero
  exact absurd hzero (by decide)

/-- A running process that is not a base shell has a parent. -/
theorem parent_of_curr (h : ProcessInv k stack) (hbase : ¬ base_halt k) :
    parent_of k k.curr_pid = some (curr_parent k) := by
  have hne : (k.pcb k.curr_pid).parent_pid ≠ BASE_SHELL :=
    fun hp => hbase ⟨hp, h.flag _⟩
  unfold parent_of
  rw [if_neg hne]
  rfl

/-- The invariant only reads the table, the terminals and the parents. -/
theorem congr (h : ProcessInv k stack)
    (hflag : ∀ t, (k'.terminal_array t).flag = (k.terminal_array t).flag)
    (hpid : ∀ t, (k'.terminal_array t).pid = (k.terminal_array t).pid)
    (hcur : k'.cur_processes = k.cur_processes) (hbase : k'.base_shell = k.base_shell)
    (hparent : ∀ p, (k'.pcb p).parent_pid = (k.pcb p).parent_pid) : ProcessInv k' stack := by
  have htop : terminal_pid k' = terminal_pid k := funext hpid
  have hpar : parent_of k' = parent_of k := funext fun p => parent_of_congr (hparent p)
  have hlive : live k' = live k := by
    funext p
    unfold live
    rw [hcur]
  refine ⟨?_, ?_, ?_, hbase.trans h.base_shell⟩
  · rw [htop, hpar, hlive]
    exact h.forest
  · rw [hcur]
    exact h.slot
  · intro t
    rw [hflag]
    exact h.flag t

theorem quiet (h : ProcessInv k stack) (hq : Quiet k k') : ProcessInv k' stack :=
  h.congr hq.flag hq.pid hq.cur_processes hq.base_shell hq.parent_pid

theorem tick (h : ProcessInv k stack) (fr : frame) : ProcessInv (ticked fr k) stack :=
  h.congr (fun _ => rfl) (fun _ => rfl) rfl rfl (ticked_parent_pid fr k)

/-! ### A new process -/

/-- The kernel after a successful `execute` that is not of a base shell. -/
theorem create_eq (h : ProcessInv k stack) {fr : frame} {command : Option (List UInt8)}
    {pid eip : ℕ} (hpid : started_pid env fr command k = some pid) :
    create_process pid env.link.empty_string eip fr
        (claim_slot pid { k with kernel_mem := execute_mem env command k.kernel_mem })
      = created pid env.link.empty_string eip fr
        (claim_slot pid { k with kernel_mem := execute_mem env command k.kernel_mem }) := by
  refine create_process_child ?_ ?_
  · show k.base_shell ≠ 1
    rw [h.base_shell]
    decide
  · intro heq
    exact not_live_of_started hpid (heq ▸ h.live_terminal_pid k.screen_terminal)

/-- **A new process is a push** on the stack of the terminal on display. -/
theorem create (h : ProcessInv k stack) {fr : frame} {command : Option (List UInt8)}
    {pid args eip : ℕ} {mem : ℕ → UInt8} (hpid : started_pid env fr command k = some pid) :
    ProcessInv (created pid args eip fr (claim_slot pid { k with kernel_mem := mem }))
      (Function.update stack k.screen_terminal (pid :: stack k.screen_terminal)) := by
  have hfree : ¬ live k pid := not_live_of_started hpid
  have hlt : pid < NUM_PROCESSES := (started_pid_spec hpid).1
  have htop := h.live_terminal_pid k.screen_terminal
  let k' := created pid args eip fr (claim_slot pid { k with kernel_mem := mem })
  have hcur : ∀ p, k'.cur_processes p = if p = pid then 1 else k.cur_processes p :=
    fun p => Function.update_apply _ _ _ _
  refine ⟨?_, fun p => ?_, h.flag, rfl⟩
  · have htops : terminal_pid k' = Function.update (terminal_pid k) k.screen_terminal pid := by
      funext t
      rw [Function.update_apply]
      rfl
    show Represents (terminal_pid k') (parent_of k') (live k') _
    rw [htops]
    refine h.forest.push k.screen_terminal hfree ?_ (fun p hp => ?_) (fun p => ?_)
    · -- the parent is the process on display, whoever called
      unfold parent_of
      rw [created_pcb_apply, if_pos rfl]
      exact if_neg (ne_base_shell htop)
    · -- an older process keeps its parent
      have hne : p ≠ pid := fun heq => hfree (heq ▸ hp)
      exact parent_of_congr (created_parent_pid hne)
    · -- the table has the new slot and the old ones
      unfold live
      rw [hcur]
      by_cases hp : p = pid
      · simp [hp, hlt]
      · simp [hp]
  · show k'.cur_processes p = 0 ∨ k'.cur_processes p = 1
    rw [hcur]
    split
    · exact Or.inr rfl
    · exact h.slot p

/-! ### The end of a process -/

/-- **The end of a process is a pop** of the stack of the scheduled terminal. -/
theorem halt (h : ProcessInv k stack) (hbase : ¬ base_halt k) :
    ProcessInv (halted k)
      (Function.update stack k.curr_terminal (stack k.curr_terminal).tail) := by
  have hparent := h.parent_of_curr hbase
  refine ⟨?_, fun p => ?_, h.flag, h.base_shell⟩
  · have htops : terminal_pid (halted k)
        = Function.update (terminal_pid k) k.curr_terminal (curr_parent k) := by
      funext t
      rw [Function.update_apply]
      rfl
    rw [htops]
    refine h.forest.pop k.curr_terminal hparent (fun p _ => ?_) (fun p => ?_)
    · -- closing descriptors does not touch the parents
      exact parent_of_congr (halted_parent_pid k p)
    · -- and the table is short of the one slot that was given back
      show p < NUM_PROCESSES ∧ Function.update k.cur_processes k.curr_pid 0 p = 1 ↔
        live k p ∧ p ≠ k.curr_pid
      unfold live
      rw [Function.update_apply]
      by_cases hp : p = k.curr_pid <;> simp [hp]
  · show Function.update k.cur_processes k.curr_pid 0 p = 0 ∨
      Function.update k.cur_processes k.curr_pid 0 p = 1
    rw [Function.update_apply]
    split
    · exact Or.inl rfl
    · exact h.slot p

/-! ### Runs -/

/-- One operation keeps the invariant, and the bottoms of the stacks. -/
theorem effect (h : ProcessInv k stack) {op : Op} {c : Control} (he : Effect env k op c k') :
    ∃ stack', ProcessInv k' stack' ∧ ∀ t, (stack' t).getLast? = (stack t).getLast? := by
  cases he with
  | tick fr => exact ⟨stack, h.tick fr, fun _ => rfl⟩
  | create eip hpid =>
      rw [h.create_eq hpid]
      refine ⟨_, h.create hpid, fun t => ?_⟩
      exact Represents.getLast?_push k.screen_terminal (fun j => (h.forest.chain j).ne_nil) t
  | @halt _ k₁ hop hdraw hbase =>
      -- the message of an exception is printed first, and prints on no stack
      have h₁ : ProcessInv k₁ stack := h.quiet hdraw.quiet
      have hbase₁ := mt hdraw.base_halt_iff.mp hbase
      exact ⟨_, h₁.halt hbase₁, h₁.forest.getLast?_pop k₁.curr_terminal (h₁.parent_of_curr hbase₁)⟩
  | quiet hquiet _ _ => exact ⟨stack, h.quiet hquiet, fun _ => rfl⟩

theorem step (h : ProcessInv k stack) {op : Op} (hstep : kstep env k op = some k') :
    ∃ stack', ProcessInv k' stack' ∧ ∀ t, (stack' t).getLast? = (stack t).getLast? := by
  obtain ⟨c, he⟩ := kstep_effect h.flag hstep
  exact h.effect he

end ProcessInv

/-- At the start only the three base shells are live. -/
theorem Booted.lt_of_live {env : Env} {k : Kernel} (h : Booted env 3 k) {p : ℕ}
    (hp : live k p) : p < 3 := by
  by_contra hge
  have hcur := hp.2
  rw [h.cur_processes, if_neg hge] at hcur
  exact absurd hcur (by decide)

/-- The stacks at the start hold one base shell each. -/
theorem Booted.process_inv {env : Env} {k : Kernel} (h : Booted env 3 k) :
    ProcessInv k fun t => [t.val] := by
  have hpid : ∀ t, terminal_pid k t = t.val := fun t => h.pid t t.isLt
  refine ⟨⟨fun t => ?_, fun t => List.nodup_singleton _, fun t u htu => ?_, fun p => ?_⟩,
    fun p => ?_, fun t => ?_, h.base_shell⟩
  · rw [hpid]
    refine .bottom ?_
    unfold parent_of
    exact if_pos (h.parent_pid _ t.isLt)
  · have hne : u.val ≠ t.val := fun heq => htu (Fin.ext heq.symm)
    simpa using hne
  · constructor
    · intro hp
      exact ⟨⟨p, h.lt_of_live hp⟩, List.mem_singleton.mpr rfl⟩
    · rintro ⟨t, ht⟩
      rw [List.mem_singleton] at ht
      have hlt : p < 3 := ht ▸ t.isLt
      have h3 : 3 < NUM_PROCESSES := by decide
      refine ⟨by omega, ?_⟩
      rw [h.cur_processes]
      exact if_pos hlt
  · rw [h.cur_processes]
    split
    · exact Or.inr rfl
    · exact Or.inl rfl
  · rw [h.flag]
    exact if_pos t.isLt

/-- The process table represents three stacks, each on the base shell the boot gave the
terminal. -/
def ProcessTable (k : Kernel) : Prop :=
  ∃ stack, ProcessInv k stack ∧ ∀ t : Terminal, (stack t).getLast? = some t.val

theorem Started.process_table {env : Env} {k : Kernel} (h : Started env k) : ProcessTable k :=
  ⟨_, h.booted.process_inv, fun _ => rfl⟩

theorem ProcessTable.step {env : Env} {k k' : Kernel} {op : Op} (h : ProcessTable k)
    (hstep : kstep env k op = some k') : ProcessTable k' := by
  obtain ⟨stack, hinv, hlast⟩ := h
  obtain ⟨stack', hinv', hlast'⟩ := hinv.step hstep
  exact ⟨stack', hinv', fun t => (hlast' t).trans (hlast t)⟩

end LinuxLikeOS
