/-
`system_execute` and `system_halt` as call and return.

The registers to return to are in the control block of the caller, where a timer interrupt
and every `execute` store registers too. They last because the caller waits: it is the
process of no terminal until the process it called ends (`ProcessInv.waiting`). As long as
every process is started from the terminal on display, the caller is the recorded parent,
and then the end of a process resumes exactly the call that started it. The value it hands
over is the status, but for 255, which the handlers of the exceptions pass to the same
function.
-/
import LinuxLikeOS.Agreement
import LinuxLikeOS.Descriptors

set_option autoImplicit false

namespace LinuxLikeOS

open Kernel StackForest Transition

/-! ## The property -/

/-- The value a process that ends should leave to its caller. -/
def Op.returned : Op → ℕ
  | .halt status => status.toNat
  | _ => EXCEPTION + 1

/-- Control is back in a call: with its registers and a value, in the caller, on the
terminal and the kernel stack of the caller, with the caller's frame as user memory. -/
structure Resumes (link : Linkage) (call : call) (value : ℕ) (c : Control) (k' : Kernel) :
    Prop where
  control : c = .execute_return value call.esp call.ebp
  curr_terminal : k'.curr_terminal = call.terminal
  pid : terminal_pid k' call.terminal = call.caller
  tss : k'.tss.esp0 = EIGHT_MB - EIGHT_KB * call.caller
  user_page : ∀ off, off < FOUR_MB → translate link k'.paging (USER_ADDR_INDEX * FOUR_MB + off)
    = some ⟨EIGHT_MB + FOUR_MB * call.caller + off, true⟩

/-- A process that passes 255 to `halt` is a base shell. -/
def StatusKept (k : Kernel) : Op → Prop
  | .halt status => status.toNat = EXCEPTION → base_halt k
  | _ => True

instance (k : Kernel) : (op : Op) → Decidable (StatusKept k op)
  | .halt status => inferInstanceAs (Decidable (status.toNat = EXCEPTION → base_halt k))
  | .tick _ | .switch_screen _ | .execute _ _ | .exception _ | .open _ | .close _ | .read _ _ _
  | .vidmap _ => isTrue trivial

/-! ## The calls that have not returned -/

/-- The call that started a process is still as its caller made it. -/
structure Pending (w : Kernel × (ℕ → call)) (q p : ℕ) : Prop where
  caller : (w.2 q).caller = p
  terminal : (w.2 q).terminal.val = (w.1.pcb q).terminal_id
  esp : (w.2 q).esp = (w.1.pcb p).esp
  ebp : (w.2 q).ebp = (w.1.pcb p).ebp

structure CallInv (w : Kernel × (ℕ → call)) : Prop where
  agree : ∃ stack, AgreeInv w.1 stack
  closable : Closable w.1
  pending : ∀ q p, live w.1 q → parent_of w.1 q = some p → Pending w q p

theorem callInv_boot {env : Env} {k : Kernel} (h : Started env k) : CallInv (k, boot_calls) where
  agree := ⟨_, h.booted.agree_inv⟩
  closable := closable_boot h
  pending q p hq hp := by
    unfold parent_of at hp
    rw [if_pos (h.booted.parent_pid q (h.booted.lt_of_live hq))] at hp
    cases hp

/-- Calls stay pending while every process is started from the terminal on display. -/
theorem callInv_step {env : Env} (w : Kernel × (ℕ → call)) (op : Op) (w' : Kernel × (ℕ → call))
    (h : CallInv w) (hdisplay : OnDisplay env w.1 op) (hstep : call_step env w op = some w') :
    CallInv w' := by
  obtain ⟨stack, hagree⟩ := h.agree
  have hinv := hagree.toProcessInv
  have hkstep := call_step_fst hstep
  obtain ⟨c, he⟩ := kstep_effect hinv.flag hkstep
  refine ⟨hagree.effect he hdisplay, closable_step hinv h.closable hkstep, fun q p hq hp => ?_⟩
  have hcalls := call_step_snd hstep
  rcases hinv.waiting he hq hp with ⟨command, fr, rfl, hpid, hparent, hpcb⟩ | ⟨hne, hlive, hpar, hpcb⟩
  · -- the call has just been made, by the process of the terminal on display
    have hscreen : w.1.curr_terminal = w.1.screen_terminal := by
      apply hdisplay
      rw [Op.started_pid, hpid]
      exact Option.some_ne_none _
    have hcall : w'.2 q = call_of command fr w.1 := by
      rw [hcalls, record_call_execute hpid, Function.update_self]
    rcases hinv.pcb_started he hpid with ⟨eip, hnew⟩
    constructor
    · rw [hcall, hparent, ← hscreen]
      rfl
    · rw [hcall, hnew, ← hscreen]
      rfl
    · rw [hcall, hpcb]
      rfl
    · rw [hcall, hpcb]
      rfl
  · -- an older call: neither the record nor the two control blocks have changed
    have hold := h.pending q p hlive hpar
    rcases hinv.pcb_step he hne with ⟨fds, esp, ebp, hq_pcb⟩
    have hcall : w'.2 q = w.2 q := by rw [hcalls, record_call_of_ne hne]
    constructor
    · rw [hcall, hold.caller]
    · rw [hcall, hold.terminal, hq_pcb]
    · rw [hcall, hpcb, hold.esp]
    · rw [hcall, hpcb, hold.ebp]

/-! ## The return -/

/-- The status reaches the parent as it is, exactly when it is not the one the handlers
use. -/
theorem ext_status_eq_iff {op : Op} (hop : op.halts) {k : Kernel} (hbase : ¬ base_halt k) :
    op.ext_status = op.returned ↔ StatusKept k op := by
  cases op with
  | halt status =>
      show (if status.toNat = EXCEPTION then EXCEPTION + 1 else status.toNat) = status.toNat ↔
        (status.toNat = EXCEPTION → base_halt k)
      split
      · rename_i hs
        exact iff_of_false (by omega) fun h => hbase (h hs)
      · rename_i hs
        exact iff_of_true rfl fun h => absurd h hs
  | exception message => exact iff_of_true rfl trivial
  | _ => exact hop.elim

/-- **The end of a process, in the terms of its call.** -/
theorem halt_returns {env : Env} {w : Kernel × (ℕ → call)} {op : Op} (h : CallInv w)
    (hop : op.halts) (hbase : ¬ base_halt w.1) :
    ∃ c k', perform env w.1 op = some (c, k') ∧
      Resumes env.link (w.2 w.1.curr_pid) op.ext_status c k' := by
  obtain ⟨stack, hagree⟩ := h.agree
  have hinv := hagree.toProcessInv
  have hparent := hinv.parent_of_curr hbase
  have hpending := h.pending _ _ hinv.live_curr_pid hparent
  -- `system_halt` runs to its end on what the handler has printed
  have hreturns : ∀ k₁ status, Draws w.1 k₁ → op.ext_status = ext_status status →
      perform env w.1 op = system_halt status k₁ →
      ∃ c k', perform env w.1 op = some (c, k') ∧
        Resumes env.link (w.2 w.1.curr_pid) op.ext_status c k' := by
    intro k₁ status hdraw hstatus hperform
    have hbase₁ : ¬ base_halt k₁ := mt hdraw.base_halt_iff.mp hbase
    have hclosable : Closable k₁ := by
      intro p i hp
      unfold live at hp
      rw [hdraw.cur_processes] at hp
      rw [hdraw.pcb]
      exact h.closable p i hp
    have hagree₁ : AgreeInv k₁ stack := hagree.quiet hdraw.quiet
    -- it does return, since every open descriptor can be closed
    have hsome := system_halt_isSome hagree₁.toProcessInv hclosable hbase₁ status
    obtain ⟨⟨c, k'⟩, hhalt⟩ := Option.isSome_iff_exists.mp hsome
    obtain ⟨hc, hk'⟩ := system_halt_parent hbase₁ hhalt
    have hafter := (hagree₁.halt hbase₁).agree env.link
    have hcurr : (halted k₁).curr_pid = curr_parent k₁ := if_pos rfl
    -- the terminal of the call is the one on record for the process that ends
    have hterm : (halted k₁).curr_terminal = (w.2 w.1.curr_pid).terminal := by
      apply Fin.ext
      rw [hpending.terminal]
      show k₁.curr_terminal.val = _
      rw [hdraw.curr_terminal]
      exact (hagree.agree env.link).terminal_id.symm
    have hcaller : curr_parent k₁ = (w.2 w.1.curr_pid).caller := by
      rw [hdraw.curr_parent, hpending.caller]
    refine ⟨c, k', hperform.trans hhalt, ?_⟩
    subst hk'
    constructor
    · rw [hc, hdraw.pcb, hdraw.curr_parent, hpending.esp, hpending.ebp, hstatus]
    · exact hterm
    · rw [← hterm, ← hcaller]
      exact hcurr
    · rw [hafter.tss, hafter.base_tss_esp0, hcurr, hcaller]
    · intro off hoff
      rw [hafter.user_page off hoff, hcurr, hcaller]
  cases op with
  | halt status => exact hreturns w.1 status.toNat (.refl _) rfl rfl
  | exception message => exact hreturns _ EXCEPTION (draws_puts message w.1) rfl rfl
  | _ => exact hop.elim

end LinuxLikeOS
