/-
The calls of `system_execute`, as a record beside the kernel.

For every process the record keeps who executed it: the caller, its terminal, the
registers it saved, the arguments it passed and the descriptors it had. The kernel does
not read the record, so the runs with it are the runs of the kernel.

What makes the record last is that a process with a live child is not the process of any
terminal: no operation but the end of that child touches its control block.
-/
import LinuxLikeOS.Processes

set_option autoImplicit false

namespace LinuxLikeOS

open Kernel StackForest Transition

/-! ## The record -/

/-- A successful call of `system_execute`, as its caller made it. -/
structure call where
  caller : ℕ
  terminal : Terminal
  esp : ℕ
  ebp : ℕ
  args : List UInt8
  file_descriptors : ℕ → fd_t

/-- The base shells are executed by the kernel. -/
def boot_calls : ℕ → call := fun _ =>
  ⟨BASE_SHELL, 0, 0, 0, command_args (ascii "shell"), fun _ => ⟨.NULL, 0, 0, NOT_IN_USE⟩⟩

/-- The call a successful `execute` makes. -/
def call_of (command : Option (List UInt8)) (fr : frame) (k : Kernel) : call where
  caller := k.curr_pid
  terminal := k.curr_terminal
  esp := fr.esp
  ebp := fr.ebp
  args := command_args (command.getD [])
  file_descriptors := (k.pcb k.curr_pid).file_descriptors

def record_call (env : Env) (k : Kernel) (op : Op) (_ : Kernel) (calls : ℕ → call) : ℕ → call :=
  match op with
  | .execute command fr =>
      match started_pid env fr command k with
      | some pid => Function.update calls pid (call_of command fr k)
      | none => calls
  | _ => calls

/-- The kernel with the record. -/
def call_step (env : Env) : Kernel × (ℕ → call) → Op → Option (Kernel × (ℕ → call)) :=
  with_history (kstep env) (record_call env)

theorem record_call_of_none {env : Env} {k : Kernel} {op : Op} (h : op.started_pid env k = none)
    (k' : Kernel) (calls : ℕ → call) : record_call env k op k' calls = calls := by
  cases op with
  | execute command fr =>
      replace h : started_pid env fr command k = none := h
      simp only [record_call, h]
  | _ => rfl

theorem record_call_execute {env : Env} {k : Kernel} {command : Option (List UInt8)}
    {fr : frame} {pid : ℕ} (h : started_pid env fr command k = some pid) (k' : Kernel)
    (calls : ℕ → call) :
    record_call env k (.execute command fr) k' calls
      = Function.update calls pid (call_of command fr k) := by
  simp only [record_call, h]

/-- The call of an older process stays as it is. -/
theorem record_call_of_ne {env : Env} {k : Kernel} {op : Op} {q : ℕ}
    (h : op.started_pid env k ≠ some q) (k' : Kernel) (calls : ℕ → call) :
    record_call env k op k' calls q = calls q := by
  cases hpid : op.started_pid env k with
  | none => rw [record_call_of_none hpid]
  | some pid =>
      have hne : q ≠ pid := fun heq => h (by rw [hpid, heq])
      cases op with
      | execute command fr =>
          rw [record_call_execute hpid, Function.update_of_ne hne]
      | _ => cases hpid

/-- The invariants of the kernel are invariants of the kernel with the record. -/
theorem call_step_fst {env : Env} {w w' : Kernel × (ℕ → call)} {op : Op}
    (h : call_step env w op = some w') : kstep env w.1 op = some w'.1 :=
  (with_history_eq_some.mp h).1

theorem call_step_snd {env : Env} {w w' : Kernel × (ℕ → call)} {op : Op}
    (h : call_step env w op = some w') : w'.2 = record_call env w.1 op w'.1 w.2 :=
  (with_history_eq_some.mp h).2.symm

/-! ## A process that waits for a child -/

namespace ProcessInv

variable {env : Env} {k k' : Kernel} {stack : Terminal → List ℕ}

/-- The process of a terminal is no parent. -/
theorem parent_ne_terminal_pid (h : ProcessInv k stack) {q p : ℕ} (hq : live k q)
    (hp : parent_of k q = some p) (t : Terminal) : p ≠ terminal_pid k t := by
  rintro rfl
  exact h.forest.top_not_parent hq t hp

/-- After an operation a process is new, or it was there before. -/
theorem live_or_started (h : ProcessInv k stack) {op : Op} {c : Control}
    (he : Effect env k op c k') {q : ℕ} (hq : live k' q) :
    op.started_pid env k = some q ∨ (op.started_pid env k ≠ some q ∧ live k q) := by
  cases he with
  | tick fr => exact Or.inr ⟨nofun, hq⟩
  | @create command fr pid _ eip hpid =>
      rw [h.create_eq hpid] at hq
      by_cases hqp : q = pid
      · left
        rw [hqp]
        exact hpid
      · right
        refine ⟨fun heq => hqp (Option.some.inj (hpid.symm.trans heq)).symm, hq.1, ?_⟩
        have hcur := hq.2
        -- the table has changed in the slot that was taken only
        replace hcur : Function.update k.cur_processes pid 1 q = 1 := hcur
        rwa [Function.update_of_ne hqp] at hcur
  | @halt _ k₁ hop hdraw hbase =>
      right
      rw [hop.started_pid]
      refine ⟨nofun, hq.1, ?_⟩
      have hcur := hq.2
      replace hcur : Function.update k₁.cur_processes k₁.curr_pid 0 q = 1 := hcur
      rw [Function.update_apply, hdraw.cur_processes] at hcur
      split at hcur
      · exact absurd hcur (by decide)
      · exact hcur
  | quiet hquiet hhalt hpid =>
      right
      rw [hpid]
      refine ⟨nofun, ?_⟩
      unfold live at hq ⊢
      rwa [hquiet.cur_processes] at hq

/-- The control block of a process that an operation did not start keeps everything but
its descriptors and the saved registers. -/
theorem pcb_step (h : ProcessInv k stack) {op : Op} {c : Control} (he : Effect env k op c k')
    {q : ℕ} (hq : op.started_pid env k ≠ some q) :
    ∃ fds esp ebp, k'.pcb q = { k.pcb q with file_descriptors := fds, esp := esp, ebp := ebp } := by
  cases he with
  | tick fr =>
      rw [ticked_pcb]
      split <;> exact ⟨_, _, _, rfl⟩
  | @create command fr pid _ eip hpid =>
      have hne : q ≠ pid := fun heq => hq (by rw [heq]; exact hpid)
      rw [h.create_eq hpid, created_pcb_apply, if_neg hne]
      split <;> exact ⟨_, _, _, rfl⟩
  | halt hop hdraw _ =>
      rw [halted_pcb, hdraw.pcb]
      split <;> exact ⟨_, _, _, rfl⟩
  | quiet hquiet _ _ =>
      rcases hquiet.pcb q with ⟨fds, hfds⟩
      exact ⟨fds, _, _, hfds⟩

/-- The control block of a process that an operation has started. -/
theorem pcb_started (h : ProcessInv k stack) {command : Option (List UInt8)} {fr : frame}
    {c : Control} (he : Effect env k (.execute command fr) c k') {q : ℕ}
    (hq : started_pid env fr command k = some q) :
    ∃ eip, k'.pcb q = created_pcb k q (terminal_pid k k.screen_terminal) env.link.empty_string
      eip k.screen_terminal := by
  cases he with
  | @create _ _ pid _ eip hpid =>
      obtain rfl : pid = q := Option.some.inj (hpid.symm.trans hq)
      refine ⟨eip, ?_⟩
      rw [h.create_eq hpid, created_pcb_apply, if_pos rfl]
      rfl
  | halt hop _ _ => exact hop.elim
  | quiet _ _ hpid =>
      rw [Op.started_pid, hq] at hpid
      cases hpid

/-- **A process that waits is left alone.** After an operation, the parent of a live
process has either just executed it, with its registers saved, or had it as its child
before and still has the same control block. -/
theorem waiting (h : ProcessInv k stack) {op : Op} {c : Control} (he : Effect env k op c k')
    {q p : ℕ} (hq : live k' q) (hp : parent_of k' q = some p) :
    (∃ command fr, op = .execute command fr ∧ started_pid env fr command k = some q ∧
        p = terminal_pid k k.screen_terminal ∧
        k'.pcb p = { k.pcb p with ebp := fr.ebp, esp := fr.esp }) ∨
      (op.started_pid env k ≠ some q ∧ live k q ∧ parent_of k q = some p ∧
        k'.pcb p = k.pcb p) := by
  obtain ⟨stack', hinv', -⟩ := h.effect he
  rcases h.live_or_started he hq with hstarted | ⟨hne, hlive⟩
  · -- `q` is new: its parent is the process on display, whose registers were saved
    left
    cases op with
    | execute command fr =>
        have htop := h.live_terminal_pid k.screen_terminal
        rcases h.pcb_started he hstarted with ⟨eip, hpcb⟩
        have hparent : p = terminal_pid k k.screen_terminal := by
          unfold parent_of at hp
          rw [hpcb] at hp
          replace hp : (if terminal_pid k k.screen_terminal = BASE_SHELL then none
            else some (terminal_pid k k.screen_terminal)) = some p := hp
          rw [if_neg (ne_base_shell htop), Option.some.injEq] at hp
          exact hp.symm
        refine ⟨command, fr, rfl, hstarted, hparent, ?_⟩
        cases he with
        | @create _ _ pid _ eip hpid =>
            have hne_top : p ≠ pid := by
              intro heq
              apply not_live_of_started hpid
              rw [← heq, hparent]
              exact htop
            rw [h.create_eq hpid, created_pcb_apply, if_neg hne_top]
            exact if_pos hparent
        | halt hop _ _ => exact hop.elim
        | quiet _ _ hpid =>
            rw [hpid] at hstarted
            cases hstarted
    | _ => cases hstarted
  · -- `q` was there: its parent is below another process, before and after
    right
    have hpar : parent_of k q = some p := by
      rcases h.pcb_step he hne with ⟨fds, esp, ebp, hpcb⟩
      rw [← hp]
      apply parent_of_congr
      rw [hpcb]
    have hcurr := h.parent_ne_terminal_pid hlive hpar k.curr_terminal
    refine ⟨hne, hlive, hpar, ?_⟩
    cases he with
    | tick fr =>
        rw [ticked_pcb]
        exact if_neg hcurr
    | @create command fr pid _ eip hpid =>
        -- the new process is above the old one of its terminal, which is no parent yet
        have hp_live : live k p := h.forest.live_parent hlive hpar
        have hp_ne : p ≠ pid := fun heq => not_live_of_started hpid (heq ▸ hp_live)
        have hp_top := h.parent_ne_terminal_pid hlive hpar k.screen_terminal
        rw [h.create_eq hpid, created_pcb_apply, if_neg hp_ne]
        exact if_neg hp_top
    | @halt _ k₁ hop hdraw hbase =>
        -- the parent of the process that ended is now the process of its terminal
        have hp_ne : p ≠ curr_parent k₁ := by
          have htop : terminal_pid (halted k₁) k₁.curr_terminal = curr_parent k₁ := if_pos rfl
          rw [← htop]
          exact hinv'.parent_ne_terminal_pid hq hp _
        rw [halted_pcb, if_neg hp_ne, hdraw.pcb]
    | quiet hquiet hhalt hpid => exact hquiet.other_pcb p hcurr

end ProcessInv

end LinuxLikeOS
