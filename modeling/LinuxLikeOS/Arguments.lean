/-
What becomes of the arguments a process is started with.

Every call of `system_execute` parses into the same few bytes, those of one string
literal, before it looks the command up, and every control block points there. So the
arguments of all processes are those of the last command anyone tried. The base shells
have none, and with them nobody can have any: the arguments are right in every state
exactly when no command line of the run has arguments.
-/
import LinuxLikeOS.Calls

set_option autoImplicit false

namespace LinuxLikeOS

open Kernel StackForest Transition

/-! ## The property -/

/-- Behind the argument pointer of every live process stand the arguments of the call it
was started by, and a terminator. -/
def ArgsKept (w : Kernel × (ℕ → call)) : Prop :=
  ∀ p, live w.1 p → ∀ i, i ≤ (w.2 p).args.length →
    args_text w.1 p i = (w.2 p).args.getD i 0

/-- The command line of an `execute` has no arguments. -/
def NoArgs : Op → Prop
  | .execute (some command) _ => command_args command = []
  | _ => True

instance : (op : Op) → Decidable (NoArgs op)
  | .execute (some command) _ => inferInstanceAs (Decidable (command_args command = []))
  | .execute none _ | .tick _ | .switch_screen _ | .halt _ | .exception _ | .open _ | .close _
  | .read _ _ _ | .vidmap _ => isTrue trivial

/-! ## The parser -/

/-- The copied text has no terminator in it. -/
theorem copy_args_ne_zero {l : List UInt8} {c : UInt8} (hc : c ∈ copy_args l) : c ≠ 0 := by
  induction l with
  | nil => cases hc
  | cons a l ih =>
      rw [copy_args] at hc
      split at hc
      · cases hc
      · rename_i ha
        split at hc
        · cases hc
        · rcases List.mem_cons.mp hc with rfl | hc
          · exact ha
          · exact ih hc

theorem command_args_ne_zero {command : List UInt8} {c : UInt8}
    (hc : c ∈ command_args command) : c ≠ 0 := by
  unfold command_args at hc
  dsimp only at hc
  split at hc
  · cases hc
  · exact copy_args_ne_zero hc

/-- The first byte stored is a terminator only when there is no text. -/
theorem store_string_first (addr : ℕ) (s : List UInt8) (mem : ℕ → UInt8) :
    store_string addr s mem addr = s.getD 0 0 := by
  unfold store_string c_str
  rw [if_pos ⟨Nat.le_refl _, Nat.le_add_right _ _⟩, Nat.sub_self]

/-- The empty text stored where a string was already empty changes nothing. -/
theorem store_string_nil {addr : ℕ} {mem : ℕ → UInt8} (h : mem addr = 0) :
    store_string addr [] mem = mem := by
  funext a
  unfold store_string
  split
  · rename_i ha
    have heq : a = addr := by
      simp only [List.length_nil] at ha
      omega
    rw [heq, h]
    simp [c_str]
  · rfl

/-! ## The pointers and the base shells -/

/-- Every live process points to the literal, and the base shells have no arguments on
record. -/
structure ArgsInv (env : Env) (w : Kernel × (ℕ → call)) : Prop where
  table : ProcessTable w.1
  pointer : ∀ p, live w.1 p → (w.1.pcb p).args = env.link.empty_string
  base : ∀ t : Terminal, live w.1 t.val ∧ (w.2 t.val).args = []

theorem argsInv_boot {env : Env} {k : Kernel} (h : Started env k) : ArgsInv env (k, boot_calls) where
  table := h.process_table
  pointer p hp := h.booted.args p (h.booted.lt_of_live hp)
  base t := by
    have hlive := h.booted.process_inv.live_terminal_pid t
    rw [terminal_pid, h.booted.pid t t.isLt] at hlive
    exact ⟨hlive, command_args_shell⟩

/-- The base shell of a terminal is the bottom of its stack, for ever. -/
theorem ProcessTable.live_base {k : Kernel} (h : ProcessTable k) (t : Terminal) : live k t.val := by
  obtain ⟨stack, hinv, hlast⟩ := h
  exact (hinv.forest.live_iff _).mpr ⟨t, List.mem_of_getLast? (hlast t)⟩

theorem argsInv_step {env : Env} {w w' : Kernel × (ℕ → call)} {op : Op} (h : ArgsInv env w)
    (hstep : call_step env w op = some w') : ArgsInv env w' := by
  have htable' : ProcessTable w'.1 := h.table.step (call_step_fst hstep)
  obtain ⟨stack, hinv, -⟩ := h.table
  obtain ⟨c, he⟩ := kstep_effect hinv.flag (call_step_fst hstep)
  refine ⟨htable', fun p hp => ?_, fun t => ⟨htable'.live_base t, ?_⟩⟩
  · rcases hinv.live_or_started he hp with hnew | ⟨hne, hlive⟩
    · cases op with
      | execute command fr =>
          rcases hinv.pcb_started he hnew with ⟨eip, hpcb⟩
          rw [hpcb]
          rfl
      | _ => cases hnew
    · rcases hinv.pcb_step he hne with ⟨fds, esp, ebp, hpcb⟩
      rw [hpcb]
      exact h.pointer p hlive
  · -- a base shell is live, so its slot is not taken again
    have hne : op.started_pid env w.1 ≠ some t.val := by
      intro hpid
      cases op with
      | execute command fr => exact ProcessInv.not_live_of_started hpid (h.base t).1
      | _ => cases hpid
    rw [call_step_snd hstep, record_call_of_ne hne]
    exact (h.base t).2

/-- The bytes behind the pointer of a live process. -/
theorem ArgsInv.args_text {env : Env} {w : Kernel × (ℕ → call)} (h : ArgsInv env w) {p : ℕ}
    (hp : live w.1 p) (i : ℕ) :
    args_text w.1 p i = w.1.kernel_mem (env.link.empty_string + i) := by
  unfold LinuxLikeOS.args_text get_pcb
  rw [h.pointer p hp]

/-- With the arguments of the base shells right, the literal is the empty string. -/
theorem ArgsInv.literal {env : Env} {w : Kernel × (ℕ → call)} (h : ArgsInv env w)
    (hkept : ArgsKept w) : w.1.kernel_mem env.link.empty_string = 0 := by
  obtain ⟨hlive, hargs⟩ := h.base 0
  have htext := hkept _ hlive 0 (Nat.zero_le _)
  rw [h.args_text hlive, hargs] at htext
  exact htext

/-! ## The condition is exact -/

theorem argsKept_step {env : Env} {w w' : Kernel × (ℕ → call)} {op : Op} (h : ArgsInv env w)
    (hkept : ArgsKept w) (hstep : call_step env w op = some w') : ArgsKept w' ↔ NoArgs op := by
  have h' : ArgsInv env w' := argsInv_step h hstep
  obtain ⟨stack, hinv, -⟩ := h.table
  obtain ⟨c, he⟩ := kstep_effect hinv.flag (call_step_fst hstep)
  have hmem := (kstep_memory hinv.flag (call_step_fst hstep)).1
  constructor
  · intro hkept'
    have hzero := h'.literal hkept'
    rw [hmem] at hzero
    unfold NoArgs
    split
    · rename_i command fr
      -- a first byte that is not the terminator is what the base shells now read
      replace hzero : store_string env.link.empty_string (command_args command) w.1.kernel_mem
        env.link.empty_string = 0 := hzero
      rw [store_string_first] at hzero
      cases hargs : command_args command with
      | nil => rfl
      | cons a l =>
          rw [hargs] at hzero
          exact absurd hzero (command_args_ne_zero (hargs ▸ List.mem_cons_self))
    · trivial
  · intro hno
    -- storing no text where there was none changes no byte
    have hsame : w'.1.kernel_mem = w.1.kernel_mem := by
      rw [hmem]
      cases op with
      | execute command fr =>
          cases command with
          | none => rfl
          | some command =>
              replace hno : command_args command = [] := hno
              show store_string _ (command_args command) _ = _
              rw [hno]
              exact store_string_nil (h.literal hkept)
      | _ => rfl
    intro p hp i hi
    rw [h'.args_text hp, hsame]
    rw [call_step_snd hstep] at hi ⊢
    rcases hinv.live_or_started he hp with hnew | ⟨hne, hlive⟩
    · -- a new process has no arguments either
      cases op with
      | execute command fr =>
          rw [record_call_execute hnew, Function.update_self] at hi ⊢
          have hargs : (call_of command fr w.1).args = [] := by
            cases command with
            | none => cases hnew
            | some command => exact hno
          rw [hargs] at hi ⊢
          obtain rfl : i = 0 := Nat.le_zero.mp hi
          exact h.literal hkept
      | _ => cases hnew
    · rw [record_call_of_ne hne] at hi ⊢
      rw [← hkept p hlive i hi, h.args_text hlive]

/-- **Every live process keeps its arguments in every state of a run exactly when no
command line of the run has arguments.** -/
theorem args_kept_iff {env : Env} {k₀ : Kernel} {w : Kernel × (ℕ → call)} {ops : List Op}
    (hstart : Started env k₀) (hrun : run (call_step env) (k₀, boot_calls) ops = some w) :
    AllStates (call_step env) ArgsKept (k₀, boot_calls) ops ↔
      AllSteps (call_step env) (fun _ op => NoArgs op) (k₀, boot_calls) ops := by
  have hinv := argsInv_boot hstart
  have hkept : ArgsKept (k₀, boot_calls) := by
    intro p hp i hi
    have hargs : (boot_calls p).args = [] := command_args_shell
    rw [hinv.args_text hp]
    replace hi : i ≤ (boot_calls p).args.length := hi
    show _ = (boot_calls p).args.getD i 0
    rw [hargs] at hi ⊢
    obtain rfl : i = 0 := Nat.le_zero.mp hi
    exact hstart.booted.kernel_mem
  exact allStates_iff_allSteps (ArgsInv env) (fun _ _ _ h hs => argsInv_step h hs)
    (fun _ _ _ h hP hs => argsKept_step h hP hs) hinv hkept hrun

/-- Two shells without arguments, and a command that is not found. -/
theorem args_kept_demo : ∃ w,
    run (call_step demo_env) (demo, boot_calls) [.tick (demo_frame 3 3),
      .execute (some (ascii "shell")) (demo_frame 4 4), .execute (some (ascii "ls")) (demo_frame 5 5)]
        = some w ∧
    (AllStates (call_step demo_env) ArgsKept (demo, boot_calls) [.tick (demo_frame 3 3),
        .execute (some (ascii "shell")) (demo_frame 4 4),
        .execute (some (ascii "ls")) (demo_frame 5 5)] ↔
      AllSteps (call_step demo_env) (fun _ op => NoArgs op) (demo, boot_calls)
        [.tick (demo_frame 3 3), .execute (some (ascii "shell")) (demo_frame 4 4),
          .execute (some (ascii "ls")) (demo_frame 5 5)]) ∧
    AllSteps (call_step demo_env) (fun _ op => NoArgs op) (demo, boot_calls)
      [.tick (demo_frame 3 3), .execute (some (ascii "shell")) (demo_frame 4 4),
        .execute (some (ascii "ls")) (demo_frame 5 5)] := by
  have hsome : (run (call_step demo_env) (demo, boot_calls) [.tick (demo_frame 3 3),
      .execute (some (ascii "shell")) (demo_frame 4 4),
      .execute (some (ascii "ls")) (demo_frame 5 5)]).isSome = true := by decide +kernel
  obtain ⟨w, hw⟩ := Option.isSome_iff_exists.mp hsome
  exact ⟨w, hw, args_kept_iff demo_started hw, by decide +kernel⟩

/-- A shell started with the argument `a`; then another terminal tries a command that does
not exist, with the argument `b`, and the first shell has the argument `b`. -/
theorem args_overwritten : Started demo_env demo ∧ ∃ w,
    run (call_step demo_env) (demo, boot_calls) [.tick (demo_frame 3 3),
      .execute (some (ascii "shell a")) (demo_frame 4 4), .tick (demo_frame 5 5),
      .execute (some (ascii "nothing b")) (demo_frame 6 6)] = some w ∧
    (w.2 3).args = ascii "a" ∧ args_text w.1 3 0 = 98 ∧ ¬ ArgsKept w := by
  have hvalues : (run (call_step demo_env) (demo, boot_calls) [.tick (demo_frame 3 3),
      .execute (some (ascii "shell a")) (demo_frame 4 4), .tick (demo_frame 5 5),
      .execute (some (ascii "nothing b")) (demo_frame 6 6)]).map (fun w =>
        ((w.2 3).args, args_text w.1 3 0, w.1.cur_processes 3)) = some (ascii "a", 98, 1) := by
    decide +kernel
  obtain ⟨w, hw, hv⟩ := Option.map_eq_some_iff.mp hvalues
  simp only [Prod.mk.injEq] at hv
  obtain ⟨hargs, htext, hlive⟩ := hv
  refine ⟨demo_started, w, hw, hargs, htext, fun hkept => ?_⟩
  have hkept := hkept 3 ⟨by decide, hlive⟩ 0 (Nat.zero_le _)
  rw [htext, hargs] at hkept
  exact absurd hkept (by decide)

end LinuxLikeOS
