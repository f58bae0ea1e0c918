/-
The return from `system_execute`, in every interleaving.

A process that ends leaves a call to be resumed: its registers are loaded from the control block of
the caller, behind the `sti` of `system_halt`. The record keeps the calls, and the call and the value
that are due while `system_halt` is returning. A screen may be switched in between, and nothing else
happens to the caller there but a timer interrupt, which stores its own registers over those that
were saved (`tick_while_returning`).
-/
import LinuxLikeOS.Interleavings
import LinuxLikeOS.Nesting

set_option autoImplicit false

namespace LinuxLikeOS

open Kernel StackForest Transition

/-! ## The record -/

structure history where
  calls : ℕ → call
  due : Option (call × ℕ)

def boot_history : history := ⟨boot_calls, none⟩

/-- The value a process that ends should leave to its caller. -/
def SysOp.returned : SysOp → ℕ
  | .base op => op.returned
  | .write _ _ _ => EXCEPTION + 1

def record_calls (env : Env) (k : Kernel) (op : SysOp) (k' : Kernel) (calls : ℕ → call) : ℕ → call :=
  match op with
  | .base op => record_call env k op k' calls
  | .write _ _ _ => calls

def record_return (env : Env) (m : Moment) (e : Event) (m' : Moment) (h : history) : history :=
  match e with
  | .op op =>
      { calls := record_calls env m.kernel op m'.kernel h.calls
        due :=
          if m.returning = none ∧ m'.returning ≠ none then
            some (h.calls m.kernel.curr_pid, op.returned)
          else h.due }
  | .load_registers => h

/-- The machine with the record. -/
def return_step (env : Env) (poke : ℕ → List UInt8 → Kernel → Kernel) :
    Moment × history → Event → Option (Moment × history) :=
  with_history (moment_step env poke) (record_return env)

/-! ## The property -/

/-- The end of a process that is not a base shell gets to the loads, and what they load then resumes
the call that started it. So does what they load in the end. -/
def HaltResumes (env : Env) (poke : ℕ → List UInt8 → Kernel → Kernel) (w : Moment × history) :
    Event → Prop
  | .op op => op.halts → w.1.returning = none → ¬ base_halt w.1.kernel →
      ∃ m' r, moment_step env poke w.1 (.op op) = some m' ∧ m'.returning = some r ∧
        Resumes env.link (w.2.calls w.1.kernel.curr_pid) op.returned (load_registers r m'.kernel)
          m'.kernel
  | .load_registers => ∀ r, w.1.returning = some r → ∃ call value, w.2.due = some (call, value) ∧
      Resumes env.link call value (load_registers r w.1.kernel) w.1.kernel

/-- A process that passes 255 to `halt` is a base shell. -/
def SysOp.StatusKept (k : Kernel) : SysOp → Prop
  | .base op => LinuxLikeOS.StatusKept k op
  | .write _ _ _ => True

instance (k : Kernel) : (op : SysOp) → Decidable (op.StatusKept k)
  | .base op => inferInstanceAs (Decidable (LinuxLikeOS.StatusKept k op))
  | .write _ _ _ => isTrue trivial

def KeepsStatus (m : Moment) : Event → Prop
  | .op op => m.returning = none → op.StatusKept m.kernel
  | .load_registers => True

instance (m : Moment) : (e : Event) → Decidable (KeepsStatus m e)
  | .op _ => inferInstanceAs (Decidable (_ → _))
  | .load_registers => isTrue trivial

/-- No timer interrupt comes before the loads. -/
def NoTickReturning (m : Moment) : Event → Prop
  | .op (.base (.tick _)) => m.returning = none
  | _ => True

instance (m : Moment) : (e : Event) → Decidable (NoTickReturning m e)
  | .op (.base (.tick _)) => inferInstanceAs (Decidable (_ = _))
  | .op (.base (.switch_screen _)) | .op (.base (.execute _ _)) | .op (.base (.halt _))
  | .op (.base (.exception _)) | .op (.base (.open _)) | .op (.base (.close _))
  | .op (.base (.read _ _ _)) | .op (.base (.vidmap _)) | .op (.write _ _ _)
  | .load_registers => isTrue trivial

/-- The steps of the runs that are looked at: the kernel stores as it should, processes are started
from the terminal on display, and a return is not interrupted by the timer. -/
structure Ordinary (env : Env) (m : Moment) (e : Event) : Prop where
  contained : OnOps (Contained env) m e
  display : OnOps (SysOp.OnDisplay env) m e
  uninterrupted : NoTickReturning m e

instance (env : Env) (m : Moment) (e : Event) : Decidable (Ordinary env m e) :=
  decidable_of_iff (OnOps (Contained env) m e ∧ OnOps (SysOp.OnDisplay env) m e ∧ NoTickReturning m e)
    ⟨fun h => ⟨h.1, h.2.1, h.2.2⟩, fun h => ⟨h.1, h.2, h.3⟩⟩

section

variable {env : Env} {poke : ℕ → List UInt8 → Kernel → Kernel} {w w' : Moment × history} {e : Event}
  {op : SysOp}

/-! ## The calls that have not returned -/

/-- Neither the control blocks nor the slots have changed. -/
theorem CallInv.quiet {k k' : Kernel} {calls : ℕ → call} (h : CallInv (k, calls)) (hq : Quiet k k')
    (hpcb : k'.pcb = k.pcb) : CallInv (k', calls) where
  agree := by
    obtain ⟨stack, hinv⟩ := h.agree
    exact ⟨stack, hinv.quiet hq⟩
  closable p i hp hi hmin huse := by
    have hlive : live k p := ⟨hp.1, hq.cur_processes ▸ hp.2⟩
    rw [hpcb] at huse ⊢
    exact h.closable p i hlive hi hmin huse
  pending q p hq' hp := by
    have hlive : live k q := ⟨hq'.1, hq.cur_processes ▸ hq'.2⟩
    have hpar : parent_of k q = some p := by
      rw [← hp]
      apply parent_of_congr
      rw [hpcb]
    obtain ⟨hcaller, hterm, hesp, hebp⟩ := h.pending q p hlive hpar
    dsimp only at hcaller hterm hesp hebp ⊢
    constructor <;> dsimp only
    · exact hcaller
    · rw [hpcb]
      exact hterm
    · rw [hpcb]
      exact hesp
    · rw [hpcb]
      exact hebp

/-- Calls stay pending in an ordinary step. -/
theorem callInv_return (h : CallInv (w.1.kernel, w.2.calls)) (hC : Ordinary env w.1 e)
    (hstep : return_step env poke w e = some w') : CallInv (w'.1.kernel, w'.2.calls) := by
  obtain ⟨hmoment, hrecord⟩ := with_history_eq_some.mp hstep
  rw [← hrecord]
  cases e with
  | load_registers =>
      rw [moment_step_load hmoment]
      exact h
  | op op =>
      obtain ⟨stack, hinv⟩ := h.agree
      have hkernel := moment_step_op hC.contained hinv.user_page hmoment
      cases op with
      | write fd buf nbytes =>
          obtain ⟨c, hperform⟩ := sys_step_eq_some.mp hkernel
          obtain ⟨r, hwrite, heq⟩ := Option.map_eq_some_iff.mp hperform
          obtain ⟨-, hkernel'⟩ := Prod.mk.inj heq
          rw [← hkernel'] at hkernel ⊢
          exact h.quiet (sys_step_write hkernel) (system_write_pcb hwrite)
      | base op =>
          exact callInv_step (w.1.kernel, w.2.calls) op _ h hC.display
            (with_history_eq_some.mpr ⟨hkernel, rfl⟩)

/-! ## The call that is due -/

/-- The registers that are to be loaded are those of a call of the running process. -/
structure Due (k : Kernel) (r : parent_return) (call : call) : Prop where
  terminal : call.terminal = k.curr_terminal
  caller : call.caller = k.curr_pid
  esp : call.esp = (k.pcb r.parent_pid).esp
  ebp : call.ebp = (k.pcb r.parent_pid).ebp

theorem Due.resumes {k : Kernel} {r : parent_return} {call : call} (h : Due k r call)
    (hagree : ∃ stack, AgreeInv k stack) :
    Resumes env.link call r.ext_status (load_registers r k) k := by
  obtain ⟨stack, hinv⟩ := hagree
  have hrunning := hinv.agree env.link
  constructor
  · unfold load_registers get_pcb
    rw [h.esp, h.ebp]
  · exact h.terminal.symm
  · rw [h.terminal, h.caller]
    rfl
  · rw [h.caller, hrunning.tss, hrunning.base_tss_esp0]
  · rw [h.caller]
    exact hrunning.user_page

theorem Resumes.due {k : Kernel} {r : parent_return} {call : call} {value : ℕ}
    (h : Resumes env.link call value (load_registers r k) k) : Due k r call ∧ value = r.ext_status := by
  obtain ⟨hstatus, hesp, hebp⟩ := Control.execute_return.inj h.control
  refine ⟨⟨h.curr_terminal.symm, ?_, hesp.symm, hebp.symm⟩, hstatus.symm⟩
  rw [← h.pid, ← h.curr_terminal]
  rfl

/-- A screen switch leaves it due. -/
theorem Due.switch_screen {k : Kernel} {r : parent_return} {call : call} (h : Due k r call)
    (t : Terminal) : Due (switch_screen t k) r call :=
  ⟨h.terminal, h.caller, h.esp, h.ebp⟩

variable (poke) in
/-- **The end of a process, in the terms of its call.** -/
theorem halt_due (h : CallInv (w.1.kernel, w.2.calls)) (hop : op.halts)
    (hrunning : w.1.returning = none) (hbase : ¬ base_halt w.1.kernel) :
    ∃ m' r, moment_step env poke w.1 (.op op) = some m' ∧ m'.returning = some r ∧
      Resumes env.link (w.2.calls w.1.kernel.curr_pid) r.ext_status (load_registers r m'.kernel)
        m'.kernel ∧
      (r.ext_status = op.returned ↔ op.StatusKept w.1.kernel) := by
  cases op with
  | write fd buf nbytes => exact hop.elim
  | base op =>
      obtain ⟨c, k', hperform, hresumes⟩ := @halt_returns env _ _ h hop hbase
      obtain ⟨r, hmoment, rfl⟩ := moment_step_halt poke hop hrunning hbase hperform
      have hvalue := hresumes.due.2
      rw [hvalue] at hresumes
      refine ⟨_, r, hmoment, rfl, hresumes, ?_⟩
      rw [← hvalue]
      exact ext_status_eq_iff hop hbase

/-! ## Runs -/

/-- The calls are pending, and while `system_halt` is returning the right one is due. -/
structure ReturnInv (w : Moment × history) : Prop where
  calls : CallInv (w.1.kernel, w.2.calls)
  due : ∀ r, w.1.returning = some r → ∃ call, w.2.due = some (call, r.ext_status) ∧ Due w.1.kernel r call

theorem returnInv_start {k : Kernel} (h : Started env k) : ReturnInv (.start k, boot_history) :=
  ⟨callInv_boot h, nofun⟩

/-- **The step lemma.** -/
theorem returnInv_step (h : ReturnInv w) (hC : Ordinary env w.1 e)
    (hkept : KeepsStatus w.1 e) (hstep : return_step env poke w e = some w') :
    ReturnInv w' := by
  refine ⟨callInv_return h.calls hC hstep, fun r hr => ?_⟩
  obtain ⟨hmoment, hrecord⟩ := with_history_eq_some.mp hstep
  cases e with
  | load_registers =>
      obtain ⟨r', -, heq⟩ := Option.map_eq_some_iff.mp hmoment
      rw [← heq] at hr
      cases hr
  | op op =>
      obtain ⟨stack, hinv⟩ := h.calls.agree
      obtain ⟨hkernel, heffect⟩ := moment_effect hC.contained hinv.user_page hmoment
      rw [← hrecord]
      generalize w'.1 = m' at hmoment hkernel heffect hr
      cases heffect with
      | tick _ => cases hr
      | @switch_screen t k' =>
          -- it is still under way, behind a screen switch
          obtain ⟨call, hcall, hdue⟩ := h.due r hr
          obtain rfl := Option.some.inj (hkernel : some (switch_screen t w.1.kernel) = some k')
          refine ⟨call, ?_, hdue.switch_screen t⟩
          rw [← hcall]
          refine if_neg fun hno => ?_
          rw [hr] at hno
          exact Option.some_ne_none _ hno.1
      | create hrunning _ =>
          rw [hrunning] at hr
          cases hr
      | call hrunning _ _ =>
          rw [hrunning] at hr
          cases hr
      | @halt _ k' r₁ hrunning hop hbase =>
          -- the return begins, and its call is the one on record for the process
          obtain rfl := Option.some.inj hr
          obtain ⟨m', r', hmoment', hr', hresumes, hvalue⟩ := halt_due poke h.calls hop hrunning hbase
          obtain rfl := Option.some.inj (hmoment.symm.trans hmoment')
          obtain rfl := Option.some.inj hr'
          refine ⟨_, ?_, hresumes.due.1⟩
          rw [hvalue.mpr (hkept hrunning)]
          exact if_pos ⟨hrunning, Option.some_ne_none _⟩

theorem haltResumes_iff (h : ReturnInv w) : HaltResumes env poke w e ↔ KeepsStatus w.1 e := by
  cases e with
  | load_registers =>
      refine iff_of_true (fun r hr => ?_) trivial
      obtain ⟨call, hcall, hdue⟩ := h.due r hr
      exact ⟨call, _, hcall, hdue.resumes h.calls.agree⟩
  | op op =>
      by_cases hrunning : w.1.returning = none
      · by_cases hend : op.halts ∧ ¬ base_halt w.1.kernel
        · obtain ⟨m', r, hmoment, hr, hresumes, hvalue⟩ :=
            halt_due poke h.calls hend.1 hrunning hend.2
          constructor
          · -- there is one outcome, so the value in it is the one that should be returned
            intro hret _
            obtain ⟨m₁, r₁, hmoment₁, hr₁, hresumes₁⟩ := hret hend.1 hrunning hend.2
            obtain rfl := Option.some.inj (hmoment.symm.trans hmoment₁)
            obtain rfl := Option.some.inj (hr.symm.trans hr₁)
            exact hvalue.mp hresumes₁.due.2.symm
          · intro hkept _ _ _
            rw [← hvalue.mpr (hkept hrunning)]
            exact ⟨m', r, hmoment, hr, hresumes⟩
        · refine iff_of_true (fun hop _ hbase => absurd ⟨hop, hbase⟩ hend) fun _ => ?_
          cases op with
          | write fd buf nbytes => trivial
          | base op =>
              cases op with
              | halt status =>
                  intro _
                  by_contra hbase
                  exact hend ⟨trivial, hbase⟩
              | _ => trivial
      · exact iff_of_true (fun _ hr => absurd hr hrunning) fun hr => absurd hr hrunning

/-- **In an ordinary run every process that ends resumes the call that started it, exactly when no
process but a base shell ends with status 255.** -/
theorem halt_resumes_iff {k₀ : Kernel} {es : List Event} (hstart : Started env k₀)
    (hordinary : AllSteps (return_step env poke) (fun w e => Ordinary env w.1 e)
      (.start k₀, boot_history) es) :
    AllSteps (return_step env poke) (HaltResumes env poke) (.start k₀, boot_history) es ↔
      AllSteps (return_step env poke) (fun w e => KeepsStatus w.1 e) (.start k₀, boot_history) es := by
  have hboot := returnInv_start hstart
  constructor
  · intro h
    apply (allSteps_and.mpr ⟨hordinary, h⟩).mono ReturnInv _ _ hboot
    · intro w e w' hinv hC hstep
      exact returnInv_step hinv hC.1 ((haltResumes_iff hinv).mp hC.2) hstep
    · intro w e hinv hC
      exact (haltResumes_iff hinv).mp hC.2
  · intro h
    apply (allSteps_and.mpr ⟨hordinary, h⟩).mono ReturnInv _ _ hboot
    · intro w e w' hinv hC hstep
      exact returnInv_step hinv hC.1 hC.2 hstep
    · intro w e hinv hC
      exact (haltResumes_iff hinv).mpr hC.2

end

/-- Two shells below the shell of terminal 0; one ends in an exception, with the screen switched
while it returns, and one by itself. -/
def demo_ends : List Event :=
  [.op (.base (.tick (demo_frame 3 3))),
    .op (.base (.execute (some (ascii "shell")) (demo_frame 4 4))),
    .op (.base (.execute (some (ascii "shell")) (demo_frame 5 5))),
    .op (.base (.tick (demo_frame 6 6))), .op (.base (.tick (demo_frame 7 7))),
    .op (.base (.tick (demo_frame 8 8))), .op (.base (.exception (ascii "x"))),
    .op (.base (.switch_screen 1)), .load_registers, .op (.base (.halt 7)), .load_registers]

theorem halt_resumes_demo :
    (AllSteps (return_step demo_env harmless) (HaltResumes demo_env harmless)
        (.start demo, boot_history) demo_ends ↔
      AllSteps (return_step demo_env harmless) (fun w e => KeepsStatus w.1 e)
        (.start demo, boot_history) demo_ends) ∧
    AllSteps (return_step demo_env harmless) (fun w e => KeepsStatus w.1 e)
      (.start demo, boot_history) demo_ends :=
  ⟨halt_resumes_iff demo_started (by decide +kernel), by decide +kernel⟩

/-- A shell started from terminal 0 on display calls `halt(255)`, and its parent gets 256. -/
theorem halt_status_lost : Started demo_env demo ∧ ∃ w,
    run (return_step demo_env harmless) (.start demo, boot_history)
      [.op (.base (.tick (demo_frame 3 3))),
        .op (.base (.execute (some (ascii "shell")) (demo_frame 4 4))),
        .op (.base (.halt 255))] = some w ∧
    w.1.returning.map (fun r => load_registers r w.1.kernel) = some (.execute_return 256 4 4) ∧
    ¬ HaltResumes demo_env harmless w .load_registers := by
  have hvalues : (run (return_step demo_env harmless) (.start demo, boot_history)
      [.op (.base (.tick (demo_frame 3 3))),
        .op (.base (.execute (some (ascii "shell")) (demo_frame 4 4))),
        .op (.base (.halt 255))]).map (fun w =>
          (w.1.returning.map (fun r => load_registers r w.1.kernel), w.2.due.map Prod.snd))
      = some (some (.execute_return 256 4 4), some 255) := by decide +kernel
  obtain ⟨w, hw, hv⟩ := Option.map_eq_some_iff.mp hvalues
  obtain ⟨hcontrol, hdue⟩ := Prod.mk.inj hv
  refine ⟨demo_started, w, hw, hcontrol, fun h => ?_⟩
  obtain ⟨r, hr, hload⟩ := Option.map_eq_some_iff.mp hcontrol
  obtain ⟨call, value, hvalue, hresumes⟩ := h r hr
  rw [hvalue, Option.map_some, Option.some.injEq] at hdue
  rw [hresumes.control, Control.execute_return.injEq] at hload
  -- the value that is due is the status
  have hstatus : value = 255 := hdue
  rw [hstatus] at hload
  exact absurd hload.1 (by decide)

end LinuxLikeOS
