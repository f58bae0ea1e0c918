/-
The turns of the terminals.

A timer interrupt parks the process that is running, with its registers, and goes on with the next
terminal. Two more interrupts later it is that process's turn again. Whatever the other terminals
do in between, the process goes on with the registers it was parked with, on its own kernel stack
and with its own frame as user memory, in which every byte is as it was.
-/
import LinuxLikeOS.UserMemory
import LinuxLikeOS.VideoMap

set_option autoImplicit false

namespace LinuxLikeOS

open Kernel Transition

/-- The timer interrupts of a run. -/
def ticks : List MachineOp → ℕ
  | [] => 0
  | .op (.tick _) :: es => ticks es + 1
  | _ :: es => ticks es

/-- Terminal `t` waits for its turn, which is `n` interrupts from when its process `p` was parked. -/
structure Parked (t : Terminal) (p : ℕ) (fr : frame) (n : ℕ) (k : Kernel) : Prop where
  agree : ∃ stack, AgreeInv k stack
  turn : k.curr_terminal.val = (t.val + n) % MAX_TERMINALS
  pid : terminal_pid k t = p
  esp : (k.pcb p).esp = fr.esp
  ebp : (k.pcb p).ebp = fr.ebp

section

variable {env : Env} {k k' : Kernel} {t : Terminal} {p n : ℕ} {fr : frame} {stack : Terminal → List ℕ}

/-- The terminals have different processes. -/
theorem ProcessInv.terminal_pid_ne (h : ProcessInv k stack) {t u : Terminal} (htu : t ≠ u) :
    terminal_pid k t ≠ terminal_pid k u := by
  intro heq
  refine h.forest.disjoint t u htu (h.forest.chain t).mem_head ?_
  rw [heq]
  exact (h.forest.chain u).mem_head

/-- It is not the turn of a terminal that waits. -/
theorem Parked.not_its_turn (h : Parked t p fr n k) (hn : 0 < n) (hn' : n < MAX_TERMINALS) :
    t ≠ k.curr_terminal := by
  rintro rfl
  have hturn : k.curr_terminal.val = (k.curr_terminal.val + n) % 3 := h.turn
  have hlt : k.curr_terminal.val < 3 := k.curr_terminal.isLt
  have hlt' : n < 3 := hn'
  omega

/-- A new process writes two control blocks. -/
theorem created_pcb_of_ne {pid : ℕ} (args eip : ℕ) (fr : frame) (hp : p ≠ pid)
    (hparent : p ≠ terminal_pid k k.screen_terminal) : (created pid args eip fr k).pcb p = k.pcb p := by
  rw [created_pcb_apply, if_neg hp]
  exact if_neg hparent

/-- Parked by a timer interrupt. -/
theorem parked_tick (h : ∃ stack, AgreeInv k stack) (fr : frame) :
    Parked k.curr_terminal k.curr_pid fr 1 (ticked fr k) := by
  obtain ⟨stack, hinv⟩ := h
  refine ⟨⟨stack, hinv.tick fr⟩, rfl, rfl, ?_, ?_⟩
  · rw [ticked_pcb, if_pos rfl]
  · rw [ticked_pcb, if_pos rfl]

/-- A timer interrupt that is not the last one before its turn leaves a parked process alone. -/
theorem Parked.tick (h : Parked t p fr n k) (hn : 0 < n) (hn' : n < MAX_TERMINALS) (fr' : frame) :
    Parked t p fr (n + 1) (ticked fr' k) := by
  have hturn := h.not_its_turn hn hn'
  obtain ⟨⟨stack, hinv⟩, hcurr, hpid, hesp, hebp⟩ := h
  have hne : p ≠ k.curr_pid := by
    rw [← hpid]
    exact hinv.terminal_pid_ne hturn
  refine ⟨⟨stack, hinv.tick fr'⟩, ?_, hpid, ?_, ?_⟩
  · have hnext : (ticked fr' k).curr_terminal.val = (k.curr_terminal.val + 1) % MAX_TERMINALS := rfl
    rw [hnext, hcurr, Nat.mod_add_mod, Nat.add_assoc]
  · rw [ticked_pcb, if_neg hne, hesp]
  · rw [ticked_pcb, if_neg hne, hebp]

/-- **What the other terminals do leaves a parked process alone.** -/
theorem Parked.effect {op : Op} {c : Control} (h : Parked t p fr n k) (hn : 0 < n)
    (hn' : n < MAX_TERMINALS) (hop : ticks [.op op] = 0) (he : Effect env k op c k')
    (hdisplay : OnDisplay env k op) : Parked t p fr n k' := by
  have hturn := h.not_its_turn hn hn'
  obtain ⟨⟨stack, hinv⟩, hcurr, hpid, hesp, hebp⟩ := h
  have hagree := hinv.effect he hdisplay
  cases he with
  | tick fr' => cases hop
  | @create command fr' pid _ eip hstarted =>
      -- the caller is on display, so the terminal that waits is not
      have hscreen : k.curr_terminal = k.screen_terminal := by
        apply hdisplay
        rw [Op.started_pid, hstarted]
        exact Option.some_ne_none _
      have hne : p ≠ pid := by
        rintro rfl
        exact ProcessInv.not_live_of_started hstarted (hpid ▸ hinv.live_terminal_pid t)
      have hne' : p ≠ terminal_pid k k.screen_terminal := by
        rw [← hpid]
        exact hinv.terminal_pid_ne (hscreen ▸ hturn)
      rw [hinv.create_eq hstarted] at hagree ⊢
      have hpcb := created_pcb_of_ne (k := claim_slot pid
        { k with kernel_mem := execute_mem env command k.kernel_mem }) env.link.empty_string eip fr'
        hne hne'
      refine ⟨hagree, hcurr, (if_neg (hscreen ▸ hturn)).trans hpid, ?_, ?_⟩
      · rw [hpcb]
        exact hesp
      · rw [hpcb]
        exact hebp
  | @halt _ k₁ _ hdraw hbase =>
      refine ⟨hagree, ?_, ?_, ?_, ?_⟩
      · rw [← hcurr]
        exact congrArg Fin.val hdraw.curr_terminal
      · rw [← hpid]
        exact (if_neg (hdraw.curr_terminal ▸ hturn)).trans (hdraw.quiet.pid t)
      · rw [halted_pcb, hdraw.pcb]
        split <;> exact hesp
      · rw [halted_pcb, hdraw.pcb]
        split <;> exact hebp
  | quiet hquiet hhalt hstarted hpcb =>
      obtain ⟨fds, hfds⟩ := hquiet.pcb p
      refine ⟨hagree, ?_, (hquiet.pid t).trans hpid, ?_, ?_⟩
      · rw [hquiet.curr_terminal, hcurr]
      · rw [hfds]
        exact hesp
      · rw [hfds]
        exact hebp

/-- One operation, which counts when it is a timer interrupt. -/
theorem Parked.step {op : Op} (h : Parked t p fr n k) (hn : 0 < n) (hn' : n < MAX_TERMINALS)
    (hdisplay : OnDisplay env k op) (hstep : kstep env k op = some k') :
    Parked t p fr (n + ticks [.op op]) k' := by
  obtain ⟨stack, hinv⟩ := h.agree
  obtain ⟨c, hperform⟩ := kstep_eq_some.mp hstep
  by_cases hop : ticks [.op op] = 0
  · rw [hop]
    exact h.effect hn hn' hop (perform_effect hinv.flag hperform) hdisplay
  · cases op with
    | tick fr' =>
        rw [perform_tick hinv.flag hperform]
        exact h.tick hn hn' fr'
    | _ => exact absurd rfl hop

/-- At its turn the process goes on. -/
theorem Parked.resumes (env : Env) (h : Parked t p fr (MAX_TERMINALS - 1) k) (fr' : frame) :
    perform env k (.tick fr') = some (.switch fr.esp fr.ebp, ticked fr' k) ∧
      (ticked fr' k).curr_terminal = t ∧ (ticked fr' k).curr_pid = p := by
  have hturn := h.not_its_turn (by decide) (by decide)
  have hnext : next_terminal k.curr_terminal = t := by
    apply Fin.ext
    have hval : (next_terminal k.curr_terminal).val = (k.curr_terminal.val + 1) % 3 := rfl
    have hcurr : k.curr_terminal.val = (t.val + 2) % 3 := h.turn
    have hlt : t.val < 3 := t.isLt
    omega
  obtain ⟨⟨stack, hinv⟩, -, hpid, hesp, hebp⟩ := h
  have hne : p ≠ k.curr_pid := by
    rw [← hpid]
    exact hinv.terminal_pid_ne hturn
  have hflag : (k.terminal_array (next_terminal k.curr_terminal)).flag ≠ 0 := by
    rw [hinv.flag]
    decide
  have hnow : (ticked fr' k).curr_pid = p := by
    rw [← hpid, ← hnext]
    rfl
  -- the control block that is loaded is not the one just written
  have hpcb : (preempt fr' k).pcb (ticked fr' k).curr_pid = k.pcb p := by
    rw [hnow]
    unfold preempt
    rw [set_pcb_apply, if_neg hne]
  have hperform : perform env k (.tick fr')
      = some (.switch ((preempt fr' k).pcb (ticked fr' k).curr_pid).esp
        ((preempt fr' k).pcb (ticked fr' k).curr_pid).ebp, ticked fr' k) := if_neg hflag
  rw [hpcb, hesp, hebp] at hperform
  exact ⟨hperform, hnext, hnow⟩

end

/-! ## With its memory -/

section

variable {env : Env} {m m' : Machine} {t : Terminal} {p n : ℕ} {fr : frame}
  {page : Fin FOUR_MB → UInt8}

/-- A parked process and the contents of its frame. -/
structure Suspended (env : Env) (t : Terminal) (p : ℕ) (fr : frame) (page : Fin FOUR_MB → UInt8)
    (n : ℕ) (m : Machine) : Prop where
  parked : Parked t p fr n m.kernel
  paging : PagingInv env.link m.kernel.paging
  memory : user_memory p m.mem = page

theorem Suspended.inv (h : Suspended env t p fr page n m) : MachineInv env m :=
  ⟨h.parked.agree, h.paging⟩

/-- One step, which counts when it is a timer interrupt. -/
theorem Suspended.step {e : MachineOp} (h : Suspended env t p fr page n m) (hn : 0 < n)
    (hn' : n < MAX_TERMINALS) (hdisplay : StartsOnDisplay env m e)
    (hstep : machine_step env m e = some m') : Suspended env t p fr page (n + ticks [e]) m' := by
  obtain ⟨stack, hagree⟩ := h.parked.agree
  have hlive : live m.kernel p := by
    rw [← h.parked.pid]
    exact hagree.live_terminal_pid t
  have hne : p ≠ m.kernel.curr_pid := by
    rw [← h.parked.pid]
    exact hagree.terminal_pid_ne (h.parked.not_its_turn hn hn')
  have hpaging := (h.inv.step hdisplay hstep).paging
  have hmem := (user_memory_step h.inv hstep hlive hne).trans h.memory
  cases e with
  | op op =>
      obtain ⟨k', hk', rfl⟩ := machine_step_op.mp hstep
      exact ⟨h.parked.step hn hn' hdisplay hk', hpaging, hmem⟩
  | store addr byte =>
      obtain ⟨phys, -, rfl⟩ := machine_step_store.mp hstep
      exact ⟨h.parked, hpaging, hmem⟩

theorem ticks_cons (e : MachineOp) (es : List MachineOp) : ticks (e :: es) = ticks [e] + ticks es := by
  cases e with
  | op op => cases op <;> simp [ticks, Nat.add_comm]
  | store addr byte => exact (Nat.zero_add _).symm

/-- A run up to its turn. -/
theorem Suspended.run {es : List MachineOp} (h : Suspended env t p fr page n m) (hn : 0 < n)
    (hn' : n + ticks es < MAX_TERMINALS)
    (hdisplay : AllSteps (machine_step env) (StartsOnDisplay env) m es)
    (hrun : Transition.run (machine_step env) m es = some m') :
    Suspended env t p fr page (n + ticks es) m' := by
  induction es generalizing m n with
  | nil =>
      rw [run_nil, Option.some.injEq] at hrun
      exact hrun ▸ h
  | cons e es ih =>
      obtain ⟨m₁, hstep, hrest⟩ := run_cons_eq_some.mp hrun
      rw [ticks_cons] at hn' ⊢
      rw [← Nat.add_assoc]
      apply ih (h.step hn (by omega) hdisplay.1 hstep)
      · omega
      · omega
      · exact hdisplay.2 m₁ hstep
      · exact hrest

/-- Suspended by a timer interrupt. -/
theorem suspended_tick (h : MachineInv env m)
    (hstep : machine_step env m (.op (.tick fr)) = some m') :
    Suspended env m.kernel.curr_terminal m.kernel.curr_pid fr
      (user_memory m.kernel.curr_pid m.mem) 1 m' := by
  obtain ⟨k', hk', rfl⟩ := machine_step_op.mp hstep
  obtain ⟨stack, hagree⟩ := h.agree
  obtain ⟨c, hperform⟩ := kstep_eq_some.mp hk'
  refine ⟨?_, kstep_paging _ _ _ h.paging hk', rfl⟩
  rw [perform_tick hagree.flag hperform]
  exact parked_tick h.agree fr

end

end LinuxLikeOS
