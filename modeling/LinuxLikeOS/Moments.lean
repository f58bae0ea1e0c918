/-
The kernel from one interrupt to the next.

`Machine` takes every operation as one step that ends. Here the two places where that is not so
are steps of their own. `system_halt` lets interrupts in again before it loads the registers of the
parent (`sti`, and then three moves), and a timer interrupt that has been waiting is taken there. And
a page fault in the kernel is not the end: the handler prints, and ends the process that made the
call, with everything else as the fault has left it.

A moment keeps two things beside the kernel. `returning` is what `system_halt` has still to load.
`resumable t` says whether the saved registers of the process on terminal `t` are its own. They are
not when it was recorded by an `execute` of another terminal, since its registers have never been
saved then, nor when it was interrupted while it was returning, since the saved registers lead into
a `system_halt` on a kernel stack that is free. Nothing is said about a timer interrupt that goes
to such a terminal: it has no outcome.

As long as the kernel stores where it should (`Contained`), a moment goes on exactly as the kernel
of `Machine` does. A `read` that waits has only begun, as there: the line it gets is in `LineRead`,
and the clock in `Clock`.
-/
import LinuxLikeOS.Faults
import LinuxLikeOS.FileOps
import LinuxLikeOS.Numbers

set_option autoImplicit false

namespace LinuxLikeOS

open Kernel Transition

/-! ## `system_halt`, cut at its `sti` -/

/-- What `system_halt` is going to load: the status, and the registers saved for the parent. -/
structure parent_return where
  ext_status : ℕ
  parent_pid : ℕ
  deriving DecidableEq

/-- Where `system_halt` lets interrupts in again. -/
inductive halting
  /-- In a base shell, entered at its first instruction. -/
  | iret (eip : ℕ)
  /-- Before the loads. -/
  | loads (r : parent_return)

def system_halt_to_sti (status : ℕ) (k : Kernel) : Option (halting × Kernel) :=
  let halting_pid := k.curr_pid
  let pcb := get_pcb k halting_pid
  let parent_pid := pcb.parent_pid
  if parent_pid = BASE_SHELL ∧ (k.terminal_array k.curr_terminal).flag = 1 then
    some (.iret pcb.eip, k)
  else
    (close_files FILE_DESCRIPTOR_MAX (leave_process halting_pid parent_pid k)).map fun k =>
      (.loads ⟨ext_status status, parent_pid⟩, resume_parent parent_pid k)

/-- The loads of `eax`, `esp` and `ebp`, and the jump. -/
def load_registers (r : parent_return) (k : Kernel) : Control :=
  .execute_return r.ext_status (get_pcb k r.parent_pid).esp (get_pcb k r.parent_pid).ebp

/-- Where `system_halt` goes when nothing comes between. -/
def halting.control (k : Kernel) : halting → Control
  | .iret eip => .iret eip
  | .loads r => load_registers r k

/-- The two parts are `system_halt`. -/
theorem system_halt_eq (status : ℕ) (k : Kernel) :
    system_halt status k = (system_halt_to_sti status k).map fun r => (r.1.control r.2, r.2) := by
  unfold system_halt system_halt_to_sti
  dsimp only
  split
  · rfl
  · rw [Option.map_map]
    rfl

/-! ## The machine -/

structure Moment where
  kernel : Kernel
  resumable : Terminal → Bool
  returning : Option parent_return

/-- An operation, or the end of the `system_halt` that is under way on the scheduled terminal. -/
inductive Event
  | op (op : SysOp)
  | load_registers

/-- A process ends by `system_halt`. -/
def halt_moment (status : ℕ) (m : Moment) : Option Moment :=
  (system_halt_to_sti status m.kernel).map fun r =>
    match r.1 with
    | .iret _ => { m with kernel := r.2 }
    | .loads p => { m with kernel := r.2, returning := some p }

/-- What `page_fault` prints. -/
def page_fault_message (location : ℕ) : List UInt8 :=
  ascii "Page-Fault Exception: " ++ numeral 16 location ++ ascii " \n"

/-- A page fault in the kernel, which ends the running process like one in user code. -/
def page_fault_moment (location : ℕ) (m : Moment) : Option Moment :=
  halt_moment EXCEPTION { m with kernel := puts (page_fault_message location) m.kernel }

/-- The registers of a process that is recorded for another terminal than the scheduled one have
never been saved. -/
def recorded_by_execute (m : Moment) (t : Terminal) : Bool :=
  if t = m.kernel.screen_terminal ∧ t ≠ m.kernel.curr_terminal then false else m.resumable t

/-- A call of the running process, or its end by an exception. -/
def call_moment (env : Env) (poke : ℕ → List UInt8 → Kernel → Kernel) (m : Moment) :
    SysOp → Option Moment
  | .base (.execute command fr) =>
      match execute_outcome env poke command fr m.kernel with
      | .refused k => some { m with kernel := k }
      | .started _ k => some { m with kernel := k, resumable := recorded_by_execute m }
      | .page_fault location k => page_fault_moment location { m with kernel := k }
  | .base (.halt status) => halt_moment status.toNat m
  | .base (.exception message) =>
      halt_moment EXCEPTION { m with kernel := puts message m.kernel }
  | .base (.read fd buf nbytes) =>
      (system_read env.fs fd buf nbytes m.kernel).bind fun r =>
        match store_mapped env.link poke buf r.2.1 r.2.2 with
        | .done k => some { m with kernel := k }
        | .page_fault location k =>
            -- the directory counter moves on behind the stores
            page_fault_moment location
              { m with kernel := { k with dentry_counter := m.kernel.dentry_counter } }
  | op => (sys_step env m.kernel op).map fun k => { m with kernel := k }

/-- While `system_halt` is returning no process runs on the terminal, and only interrupts come. -/
def moment_step (env : Env) (poke : ℕ → List UInt8 → Kernel → Kernel) (m : Moment) :
    Event → Option Moment
  | .load_registers => m.returning.map fun _ => { m with returning := none }
  | .op (.base (.tick fr)) =>
      if m.resumable (next_terminal m.kernel.curr_terminal) then
        (kstep env m.kernel (.tick fr)).map fun k =>
          { kernel := k
            resumable := Function.update m.resumable m.kernel.curr_terminal m.returning.isNone
            returning := none }
      else none
  | .op (.base (.switch_screen t)) =>
      (kstep env m.kernel (.switch_screen t)).map fun k => { m with kernel := k }
  | .op op => if m.returning.isNone then call_moment env poke m op else none

/-- What comes to the processor while `system_halt` is returning, too. -/
def SysOp.interrupts : SysOp → Prop
  | .base (.tick _) | .base (.switch_screen _) => True
  | _ => False

instance : (op : SysOp) → Decidable op.interrupts
  | .base (.tick _) | .base (.switch_screen _) => isTrue trivial
  | .base (.execute _ _) | .base (.halt _) | .base (.exception _) | .base (.open _)
  | .base (.close _) | .base (.read _ _ _) | .base (.vidmap _) | .write _ _ _ => isFalse id

/-- The start: the processes of the other two terminals have been preempted. -/
def Moment.start (k : Kernel) : Moment := ⟨k, fun t => decide (t ≠ k.curr_terminal), none⟩

/-! ## Where the kernel stores as it should -/

/-- The bytes a `read` stores, and those of the line that it waits for, are in the user page. -/
def ReadRoom (env : Env) (k : Kernel) (fd : Int) (buf : ℕ) (nbytes : Int) : Prop :=
  ∀ r ∈ system_read env.fs fd buf nbytes k, InUserPage buf r.2.1.length ∧
    (r.1 = .wait → ((get_pcb k k.curr_pid).file_descriptors fd.toNat).file_op_table_ptr = .term_read_ops →
      InUserPage buf (min nbytes.toNat MAX_BUF_SIZE))

instance (env : Env) (k : Kernel) (fd : Int) (buf : ℕ) (nbytes : Int) :
    Decidable (ReadRoom env k fd buf nbytes) := inferInstanceAs (Decidable (∀ _ ∈ _, _ ∧ (_ → _ → _)))

/-- The arguments and the program of an `execute` have room, and so has what is read. -/
def Contained (env : Env) (k : Kernel) : SysOp → Prop
  | .base (.execute command fr) => ArgsFit env.link command ∧ ProgramRoom env fr k command
  | .base (.read fd buf nbytes) => ReadRoom env k fd buf nbytes
  | _ => True

instance (env : Env) (k : Kernel) : (op : SysOp) → Decidable (Contained env k op)
  | .base (.execute _ _) => inferInstanceAs (Decidable (_ ∧ _))
  | .base (.read _ _ _) => inferInstanceAs (Decidable (ReadRoom _ _ _ _ _))
  | .base (.tick _) | .base (.switch_screen _) | .base (.halt _) | .base (.exception _)
  | .base (.open _) | .base (.close _) | .base (.vidmap _) | .write _ _ _ => isTrue trivial

/-- A condition on the kernel and an operation, as one on events. -/
def OnOps (C : Kernel → SysOp → Prop) (m : Moment) : Event → Prop
  | .op op => C m.kernel op
  | .load_registers => True

instance (C : Kernel → SysOp → Prop) [∀ k op, Decidable (C k op)] (m : Moment) :
    (e : Event) → Decidable (OnOps C m e)
  | .op op => inferInstanceAs (Decidable (C m.kernel op))
  | .load_registers => isTrue trivial

section

variable {env : Env} {poke : ℕ → List UInt8 → Kernel → Kernel} {m m' : Moment} {op : SysOp}
  {status : ℕ}

/-! ## The end of a process -/

/-- The kernel behind the first part is the one `system_halt` leaves. -/
theorem halt_moment_kernel (h : halt_moment status m = some m') :
    (system_halt status m.kernel).map Prod.snd = some m'.kernel := by
  obtain ⟨r, hr, rfl⟩ := Option.map_eq_some_iff.mp h
  rw [system_halt_eq, hr]
  cases r.1 <;> rfl

theorem system_halt_to_sti_base (status : ℕ) {k : Kernel} (h : base_halt k) :
    system_halt_to_sti status k = some (.iret (k.pcb k.curr_pid).eip, k) := by
  unfold system_halt_to_sti
  exact if_pos h

theorem system_halt_to_sti_of_not_base (status : ℕ) {k : Kernel} (h : ¬ base_halt k) :
    system_halt_to_sti status k =
      (close_files FILE_DESCRIPTOR_MAX (leave_process k.curr_pid (curr_parent k) k)).map fun k₁ =>
        (.loads ⟨ext_status status, curr_parent k⟩, resume_parent (curr_parent k) k₁) := by
  unfold system_halt_to_sti
  exact if_neg h

/-- A base shell is entered again. -/
theorem halt_moment_base (hbase : base_halt m.kernel) : halt_moment status m = some m := by
  unfold halt_moment
  rw [system_halt_to_sti_base status hbase]
  rfl

/-- A process that is not a base shell is returning then, with its status for its parent. -/
theorem halt_moment_parent (hbase : ¬ base_halt m.kernel) (h : halt_moment status m = some m') :
    m' = { m with
      kernel := halted m.kernel
      returning := some ⟨ext_status status, curr_parent m.kernel⟩ } := by
  have hkernel := halt_moment_kernel h
  obtain ⟨⟨c, k'⟩, hhalt, rfl⟩ := Option.map_eq_some_iff.mp hkernel
  have hk' := (system_halt_parent hbase hhalt).2
  unfold halt_moment at h
  rw [system_halt_to_sti_of_not_base status hbase, Option.map_map] at h
  obtain ⟨k₁, -, rfl⟩ := Option.map_eq_some_iff.mp h
  rw [← hk']
  rfl

/-! ## A moment and its kernel -/

/-- Any other step is a call of a process that runs. -/
theorem moment_step_call (hop : ¬ op.interrupts) :
    moment_step env poke m (.op op) =
      if m.returning.isNone = true then call_moment env poke m op else none := by
  cases op with
  | write fd buf nbytes => rfl
  | base op =>
      cases op with
      | tick fr => exact absurd trivial hop
      | switch_screen t => exact absurd trivial hop
      | _ => rfl

theorem moment_step_running (hop : ¬ op.interrupts) (hrunning : m.returning = none) :
    moment_step env poke m (.op op) = call_moment env poke m op := by
  rw [moment_step_call hop, hrunning]
  rfl

theorem running_of_call (hop : ¬ op.interrupts) (h : moment_step env poke m (.op op) = some m') :
    m.returning = none ∧ call_moment env poke m op = some m' := by
  rw [moment_step_call hop] at h
  split at h
  · rename_i hnone
    exact ⟨Option.isNone_iff_eq_none.mp hnone, h⟩
  · cases h

/-- What a contained step does beside the kernel. The kernel itself takes the step of `Machine`. -/
inductive MomentEffect (env : Env) (m : Moment) : SysOp → Moment → Prop
  | tick {fr : frame} {k' : Kernel}
      (hresumable : m.resumable (next_terminal m.kernel.curr_terminal) = true) :
      MomentEffect env m (.base (.tick fr))
        ⟨k', Function.update m.resumable m.kernel.curr_terminal m.returning.isNone, none⟩
  | switch_screen {t : Terminal} {k' : Kernel} :
      MomentEffect env m (.base (.switch_screen t)) { m with kernel := k' }
  | create {command : Option (List UInt8)} {fr : frame} {k' : Kernel} (hrunning : m.returning = none)
      (hpid : started_pid env fr command m.kernel ≠ none) :
      MomentEffect env m (.base (.execute command fr))
        { m with kernel := k', resumable := recorded_by_execute m }
  | halt {op : SysOp} {k' : Kernel} {r : parent_return} (hrunning : m.returning = none)
      (hop : op.halts) (hbase : ¬ base_halt m.kernel) :
      MomentEffect env m op { m with kernel := k', returning := some r }
  | call {op : SysOp} {k' : Kernel} (hrunning : m.returning = none) (hcall : ¬ op.interrupts)
      (hend : op.halts → base_halt m.kernel) : MomentEffect env m op { m with kernel := k' }

/-- A process ends, by itself or behind a message. -/
theorem halt_moment_effect {k₁ : Kernel} (hrunning : m.returning = none) (hop : op.halts)
    (hdraw : Draws m.kernel k₁) (h : halt_moment status { m with kernel := k₁ } = some m') :
    MomentEffect env m op m' := by
  by_cases hbase : base_halt k₁
  · obtain rfl := Option.some.inj ((halt_moment_base hbase).symm.trans h)
    refine .call hrunning (fun hint => ?_) fun _ => hdraw.base_halt_iff.mp hbase
    -- an interrupt ends no process
    cases op with
    | write fd buf nbytes => exact hint
    | base op => cases op <;> first | exact hint | exact hop
  · obtain rfl := halt_moment_parent hbase h
    exact .halt hrunning hop (mt hdraw.base_halt_iff.mpr hbase)

/-- **The case split.** While the stores are contained the kernel of a moment does what the kernel
does. -/
theorem moment_effect {p : ℕ} (hcont : Contained env m.kernel op)
    (hpage : UserPage m.kernel.paging p) (h : moment_step env poke m (.op op) = some m') :
    sys_step env m.kernel op = some m'.kernel ∧ MomentEffect env m op m' := by
  by_cases hint : op.interrupts
  · cases op with
    | write fd buf nbytes => exact hint.elim
    | base op =>
        cases op with
        | tick fr =>
            simp only [moment_step] at h
            split at h
            · rename_i hresumable
              obtain ⟨k', hk', rfl⟩ := Option.map_eq_some_iff.mp h
              exact ⟨hk', .tick hresumable⟩
            · cases h
        | switch_screen t =>
            simp only [moment_step] at h
            obtain ⟨k', hk', rfl⟩ := Option.map_eq_some_iff.mp h
            exact ⟨hk', .switch_screen⟩
        | _ => exact hint.elim
  · obtain ⟨hrunning, hcall⟩ := running_of_call hint h
    -- the calls that are left to the kernel
    have hsys : ¬ op.halts → (sys_step env m.kernel op).map (fun k => { m with kernel := k }) = some m' →
        sys_step env m.kernel op = some m'.kernel ∧ MomentEffect env m op m' := by
      intro hop h
      obtain ⟨k', hk', rfl⟩ := Option.map_eq_some_iff.mp h
      exact ⟨hk', .call hrunning hint fun hend => absurd hend hop⟩
    cases op with
    | write fd buf nbytes => exact hsys id hcall
    | base op =>
        cases op with
        | tick fr => exact absurd trivial hint
        | switch_screen t => exact absurd trivial hint
        | execute command fr =>
            simp only [call_moment] at hcall
            rcases execute_outcome_eq poke hcont.1 hcont.2 hpage.page_size with
              ⟨k', hout, hexec⟩ | ⟨eip, k', hout, hexec⟩
            · rw [hout] at hcall
              obtain rfl := Option.some.inj hcall
              exact ⟨sys_step_eq_some.mpr ⟨_, hexec⟩, .call hrunning hint False.elim⟩
            · rw [hout] at hcall
              obtain rfl := Option.some.inj hcall
              refine ⟨sys_step_eq_some.mpr ⟨_, hexec⟩, .create hrunning fun hnone => ?_⟩
              rw [system_execute_refuses hnone] at hexec
              cases hexec
        | halt status =>
            exact ⟨halt_moment_kernel hcall, halt_moment_effect hrunning trivial (.refl _) hcall⟩
        | exception message =>
            exact ⟨halt_moment_kernel hcall,
              halt_moment_effect hrunning trivial (draws_puts message _) hcall⟩
        | read fd buf nbytes =>
            simp only [call_moment] at hcall
            obtain ⟨r, hread, hstore⟩ := Option.bind_eq_some_iff.mp hcall
            have hmem := same_memory_read hread
            rw [store_mapped_user_page (p := p) (hpage.congr hmem.toQuiet.user_page) (hcont r hread).1]
              at hstore
            obtain rfl := Option.some.inj hstore
            refine ⟨sys_step_eq_some.mpr ⟨r.1, ?_⟩, .call hrunning hint False.elim⟩
            rw [sys_perform, perform, hread]
            rfl
        | «open» filename => exact hsys id hcall
        | close fd => exact hsys id hcall
        | vidmap screen_start => exact hsys id hcall

theorem moment_step_op {p : ℕ} (hcont : Contained env m.kernel op)
    (hpage : UserPage m.kernel.paging p) (h : moment_step env poke m (.op op) = some m') :
    sys_step env m.kernel op = some m'.kernel := (moment_effect hcont hpage h).1

/-- The end of a process that is not a base shell leads to its return. -/
theorem halt_moment_of_system_halt {c : Control} {k' : Kernel} (hbase : ¬ base_halt m.kernel)
    (h : system_halt status m.kernel = some (c, k')) :
    ∃ r, halt_moment status m = some { m with kernel := k', returning := some r } ∧
      c = load_registers r k' := by
  rw [system_halt_eq, system_halt_to_sti_of_not_base status hbase, Option.map_map] at h
  obtain ⟨k₁, hclose, heq⟩ := Option.map_eq_some_iff.mp h
  obtain ⟨rfl, rfl⟩ := Prod.mk.inj heq
  refine ⟨⟨ext_status status, curr_parent m.kernel⟩, ?_, rfl⟩
  unfold halt_moment
  rw [system_halt_to_sti_of_not_base status hbase, hclose]
  rfl

variable (poke) in
/-- **Where the process ends in `Machine`, it is returning here.** -/
theorem moment_step_halt {c : Control} {k' : Kernel} (hop : op.halts) (hrunning : m.returning = none)
    (hbase : ¬ base_halt m.kernel) (h : sys_perform env m.kernel op = some (c, k')) :
    ∃ r, moment_step env poke m (.op op) = some { m with kernel := k', returning := some r } ∧
      c = load_registers r k' := by
  cases op with
  | write fd buf nbytes => exact hop.elim
  | base op =>
      cases op with
      | halt status =>
          obtain ⟨r, hmoment, hc⟩ := halt_moment_of_system_halt hbase h
          refine ⟨r, ?_, hc⟩
          rw [moment_step_running id hrunning]
          exact hmoment
      | exception message =>
          have hdraw := draws_puts message m.kernel
          -- the message is printed before `system_halt` looks at the process
          obtain ⟨r, hmoment, hc⟩ := halt_moment_of_system_halt
            (m := { m with kernel := puts message m.kernel }) (mt hdraw.base_halt_iff.mp hbase) h
          refine ⟨r, ?_, hc⟩
          rw [moment_step_running id hrunning]
          exact hmoment
      | _ => exact hop.elim

/-- **A timer interrupt while `system_halt` is returning** stores into the registers that are still to
be loaded, and the terminal cannot be resumed. -/
theorem tick_while_returning {fr : frame} {r : parent_return} (hr : m.returning = some r)
    (hparent : r.parent_pid = m.kernel.curr_pid) (hflag : ∀ t, (m.kernel.terminal_array t).flag = 1)
    (h : moment_step env poke m (.op (.base (.tick fr))) = some m') :
    load_registers r m'.kernel = .execute_return r.ext_status fr.esp fr.ebp ∧
      m'.resumable m.kernel.curr_terminal = false := by
  simp only [moment_step] at h
  split at h
  · obtain ⟨k', hk', rfl⟩ := Option.map_eq_some_iff.mp h
    obtain ⟨c, hperform⟩ := kstep_eq_some.mp hk'
    obtain rfl := perform_tick hflag hperform
    constructor
    · simp only [load_registers, get_pcb, ticked_pcb, hparent, if_true]
    · simp only [Function.update_self, hr, Option.isNone_some]
  · cases h

/-- The loads leave the kernel as it is. -/
theorem moment_step_load (h : moment_step env poke m .load_registers = some m') :
    m'.kernel = m.kernel := by
  obtain ⟨r, -, rfl⟩ := Option.map_eq_some_iff.mp h
  rfl

end

end LinuxLikeOS
