/-
The system calls as steps, `write` included, and what they do to a table of descriptors.

A table is the eight descriptors of one process. Four calls read or write it, and they
write the table of the running process only; a new process gets a table of its own, and
the end of a process closes descriptors. No other operation touches any table. The lemmas
here hold from any kernel, also from one that no boot has left.
-/
import LinuxLikeOS.Descriptors

set_option autoImplicit false

namespace LinuxLikeOS

open Kernel

/-! ## The machine -/

/-- The operations of `Op`, and the call that is not among them. -/
inductive SysOp
  | base (op : Op)
  | write (fd : Int) (buf : Option (ℕ → UInt8)) (nbytes : Int)

def sys_perform (env : Env) (k : Kernel) : SysOp → Option (Control × Kernel)
  | .base op => perform env k op
  | .write fd buf nbytes => (system_write fd buf nbytes k).map fun r => (.ret r.1, r.2)

def sys_step (env : Env) (k : Kernel) (op : SysOp) : Option Kernel :=
  (sys_perform env k op).map Prod.snd

theorem sys_step_eq_some {env : Env} {k k' : Kernel} {op : SysOp} :
    sys_step env k op = some k' ↔ ∃ c, sys_perform env k op = some (c, k') := by
  unfold sys_step
  rw [Option.map_eq_some_iff]
  constructor
  · rintro ⟨⟨c, k₁⟩, h, rfl⟩
    exact ⟨c, h⟩
  · rintro ⟨c, h⟩
    exact ⟨_, h, rfl⟩

/-- The operations that end a process. -/
def SysOp.halts : SysOp → Prop
  | .base op => op.halts
  | .write _ _ _ => False

instance : (op : SysOp) → Decidable op.halts
  | .base op => inferInstanceAs (Decidable op.halts)
  | .write _ _ _ => isFalse id

/-- The calls on descriptors. -/
def SysOp.on_files : SysOp → Prop
  | .base op => op.on_files
  | .write _ _ _ => True

/-! ## Writing -/

theorem draws_write_char (buf : ℕ → UInt8) (i : ℕ) (s : Int × Kernel) :
    Draws s.2 (write_char buf i s).2 := by
  unfold write_char
  split
  · exact draws_putc _ _
  · exact .refl _

/-- Output is printing. -/
theorem draws_terminal_write (buf : Option (ℕ → UInt8)) (nbytes : Int) (k : Kernel) :
    Draws k (terminal_write buf nbytes k).2 := by
  unfold terminal_write
  cases buf with
  | none => exact .refl k
  | some buf =>
      dsimp only
      split
      · exact .refl k
      · apply for_loop_invariant (fun _ (s : Int × Kernel) => Draws k s.2) (s := (0, k))
        · exact .refl k
        · intro i s _ hs
          exact hs.trans (draws_write_char buf i s)

theorem try_rates_cases (freq : ℕ) (k : Kernel) :
    try_rates freq k = (-1, k) ∨ ∃ f, try_rates freq k = (0, set_RTC_frequency f k) := by
  unfold try_rates
  cases rate_of freq with
  | none => exact Or.inl rfl
  | some i => exact Or.inr ⟨_, rfl⟩

theorem RTC_write_cases (buf : Option (ℕ → UInt8)) (nbytes : Int) (k : Kernel) :
    RTC_write buf nbytes k = (-1, k) ∨
      ∃ freq, RTC_write buf nbytes k = (0, set_RTC_frequency freq k) := by
  unfold RTC_write
  by_cases hbytes : nbytes ≠ BYTE_4
  · exact Or.inl (if_pos hbytes)
  · rw [if_neg hbytes]
    cases buf with
    | none => exact Or.inl rfl
    | some buf => exact try_rates_cases (little_endian buf) k

theorem set_RTC_frequency_pcb (freq : Int) (k : Kernel) : (set_RTC_frequency freq k).pcb = k.pcb := by
  unfold set_RTC_frequency
  split <;> rfl

/-- A `write` that returns prints, sets a frequency, or changes nothing. -/
theorem system_write_cases {fd : Int} {buf : Option (ℕ → UInt8)} {nbytes r : Int} {k k' : Kernel}
    (h : system_write fd buf nbytes k = some (r, k')) :
    Draws k k' ∨ ∃ freq, k' = set_RTC_frequency freq k := by
  unfold system_write at h
  dsimp only at h
  split at h
  · unfold fops_write at h
    split at h <;> simp only [Option.some.injEq, reduceCtorEq] at h
    · left
      have hdraw := draws_terminal_write buf nbytes k
      rwa [h] at hdraw
    · rcases RTC_write_cases buf nbytes k with heq | ⟨freq, heq⟩
      · rw [heq, Prod.mk.injEq] at h
        exact Or.inl (h.2 ▸ .refl k)
      · rw [heq, Prod.mk.injEq] at h
        exact Or.inr ⟨freq, h.2.symm⟩
    all_goals
      rw [Prod.mk.injEq] at h
      exact Or.inl (h.2 ▸ .refl k)
  · rw [Option.some.injEq, Prod.mk.injEq] at h
    exact Or.inl (h.2 ▸ .refl k)

theorem system_write_pcb {fd : Int} {buf : Option (ℕ → UInt8)} {nbytes r : Int} {k k' : Kernel}
    (h : system_write fd buf nbytes k = some (r, k')) : k'.pcb = k.pcb := by
  rcases system_write_cases h with hdraw | ⟨freq, rfl⟩
  · exact hdraw.pcb
  · exact set_RTC_frequency_pcb freq k

theorem same_memory_write {fd : Int} {buf : Option (ℕ → UInt8)} {nbytes r : Int} {k k' : Kernel}
    (h : system_write fd buf nbytes k = some (r, k')) : SameMemory k k' := by
  rcases system_write_cases h with hdraw | ⟨freq, rfl⟩
  · exact hdraw.same_memory
  · exact same_memory_set_RTC_frequency freq k

theorem SysOp.on_files.same_memory {env : Env} {k k' : Kernel} {op : SysOp} {c : Control}
    (hop : op.on_files) (h : sys_perform env k op = some (c, k')) : SameMemory k k' := by
  cases op with
  | base op =>
      have hfiles : op.on_files := hop
      exact hfiles.same_memory h
  | write fd buf nbytes =>
      obtain ⟨⟨r, k₁⟩, hwrite, heq⟩ := Option.map_eq_some_iff.mp h
      obtain ⟨-, rfl⟩ := Prod.mk.inj heq
      exact same_memory_write hwrite

/-! ## The table of a process -/

/-- The descriptors of a process. -/
def table (k : Kernel) (p : ℕ) : ℕ → fd_t := (k.pcb p).file_descriptors

/-- The slot of `p` is taken and its table is the same. -/
structure KeepsTable (p : ℕ) (k k' : Kernel) : Prop where
  table : table k' p = table k p
  busy : k.cur_processes p ≠ 0 → k'.cur_processes p ≠ 0

namespace KeepsTable

variable {p : ℕ} {k k' k'' : Kernel}

theorem of_eq (hpcb : k'.pcb = k.pcb) (hslots : k'.cur_processes = k.cur_processes) :
    KeepsTable p k k' := by
  constructor
  · unfold LinuxLikeOS.table
    rw [hpcb]
  · rw [hslots]
    exact id

theorem refl (p : ℕ) (k : Kernel) : KeepsTable p k k := of_eq rfl rfl

theorem trans (h : KeepsTable p k k') (h' : KeepsTable p k' k'') : KeepsTable p k k'' :=
  ⟨h'.table.trans h.table, fun hbusy => h'.busy (h.busy hbusy)⟩

end KeepsTable

theorem table_set_pcb {pid : ℕ} {f : pcb_t → pcb_t}
    (hf : ∀ b, (f b).file_descriptors = b.file_descriptors) (k : Kernel) (p : ℕ) :
    table (k.set_pcb pid f) p = table k p := by
  unfold table
  rw [set_pcb_apply]
  split
  · rename_i hp
    rw [hf, hp]
  · rfl

theorem table_link_parent (pid : ℕ) (fr : frame) (k : Kernel) (p : ℕ) :
    table (link_parent pid fr k) p = table k p := by
  unfold link_parent
  split
  · exact table_set_pcb (f := fun b => { b with
      parent_pid := BASE_SHELL, terminal_id := k.curr_terminal.val }) (fun _ => rfl) k p
  · -- three stores, and none of them to the table
    extract_lets t parent k₁ k₂ k₃
    have h₁ : table k₁ p = table k p :=
      table_set_pcb (f := fun b => { b with parent_pid := parent }) (fun _ => rfl) k p
    have h₂ : table k₂ p = table k₁ p :=
      table_set_pcb (f := fun b => { b with ebp := fr.ebp, esp := fr.esp }) (fun _ => rfl) k₁ p
    have h₃ : table (k₃.set_pcb pid fun b => { b with terminal_id := t.val }) p = table k₂ p :=
      table_set_pcb (f := fun b => { b with terminal_id := t.val }) (fun _ => rfl) k₃ p
    exact h₃.trans (h₂.trans h₁)

/-- **A new process has `stdin` and `stdout`**, and no other table changes. -/
theorem table_create_process (pid args eip : ℕ) (fr : frame) (k : Kernel) (p : ℕ) :
    table (create_process pid args eip fr k) p
      = if p = pid then new_fds (table k pid) else table k p := by
  unfold create_process
  extract_lets k₁
  have h₁ : ∀ q, table (link_parent pid fr k₁) q = table k q := by
    intro q
    rw [table_link_parent]
    exact table_set_pcb (f := fun b => { b with pid := pid, args := args }) (fun _ => rfl) k q
  show ((init_pcb pid eip (link_parent pid fr k₁)).pcb p).file_descriptors = _
  unfold init_pcb
  rw [set_pcb_apply]
  split
  · exact congrArg new_fds (h₁ pid)
  · exact h₁ p

theorem create_process_cur_processes (pid args eip : ℕ) (fr : frame) (k : Kernel) :
    (create_process pid args eip fr k).cur_processes = k.cur_processes := by
  have hlink : ∀ k, (link_parent pid fr k).cur_processes = k.cur_processes := by
    intro k
    unfold link_parent
    split <;> rfl
  exact hlink (k.set_pcb pid fun b => { b with pid := pid, args := args })

/-- The process that was started has a table of its own. -/
theorem table_started {env : Env} {fr : frame} {command : Option (List UInt8)} {k k' : Kernel}
    {c : Control} {pid : ℕ} (h : system_execute env command fr k = some (c, k'))
    (hpid : started_pid env fr command k = some pid) :
    table k' pid = new_fds (table k pid) ∧ k'.cur_processes pid ≠ 0 := by
  obtain ⟨eip, -, rfl⟩ := system_execute_starts h hpid
  rw [table_create_process, if_pos rfl, create_process_cur_processes]
  refine ⟨rfl, ?_⟩
  show Function.update k.cur_processes pid 1 pid ≠ 0
  rw [Function.update_self]
  decide

/-- `execute` leaves the tables of the other processes alone. -/
theorem system_execute_keeps {env : Env} {fr : frame} {command : Option (List UInt8)}
    {k k' : Kernel} {c : Control} {p : ℕ} (h : system_execute env command fr k = some (c, k'))
    (hbusy : k.cur_processes p ≠ 0) : KeepsTable p k k' := by
  cases hpid : started_pid env fr command k with
  | none =>
      obtain ⟨-, rfl⟩ := system_execute_fails h hpid
      exact .of_eq rfl rfl
  | some pid =>
      obtain ⟨eip, -, rfl⟩ := system_execute_starts h hpid
      -- the slot that is taken was free
      have hne : p ≠ pid := fun hp => hbusy (hp ▸ (started_pid_spec hpid).2)
      constructor
      · rw [table_create_process, if_neg hne]
        rfl
      · intro _
        rw [create_process_cur_processes]
        show Function.update k.cur_processes pid 1 p ≠ 0
        rw [Function.update_of_ne hne]
        exact hbusy

theorem resume_next_keeps (p : ℕ) (k : Kernel) : KeepsTable p k (resume_next k).2 :=
  .of_eq rfl rfl

/-- Opening a terminal saves registers and clears a page. -/
theorem open_terminal_cur_processes (fr : frame) (k : Kernel) :
    (open_terminal (preempt fr k)).cur_processes = k.cur_processes :=
  (draws_clear (preempt fr k)).cur_processes

theorem open_terminal_table (fr : frame) (k : Kernel) (p : ℕ) :
    table (open_terminal (preempt fr k)) p = table k p := by
  have hclear : table (open_terminal (preempt fr k)) p = table (preempt fr k) p := by
    unfold table
    rw [← (draws_clear (preempt fr k)).pcb]
    rfl
  rw [hclear]
  exact table_set_pcb (f := fun b => { b with ebp := fr.ebp, esp := fr.esp }) (fun _ => rfl)
    { k with curr_terminal := next_terminal k.curr_terminal } p

/-- A timer interrupt leaves them alone, also one that starts a shell. -/
theorem scheduler_keeps {env : Env} {fr : frame} {k k' : Kernel} {c : Control} {p : ℕ}
    (h : scheduler env fr k = some (c, k')) (hbusy : k.cur_processes p ≠ 0) :
    KeepsTable p k k' := by
  have hpre : KeepsTable p k (preempt fr k) :=
    ⟨table_set_pcb (f := fun b => { b with ebp := fr.ebp, esp := fr.esp }) (fun _ => rfl)
      { k with curr_terminal := next_terminal k.curr_terminal } p, id⟩
  unfold scheduler at h
  dsimp only at h
  split at h
  · have hopen : KeepsTable p k (open_terminal (preempt fr k)) :=
      ⟨open_terminal_table fr k p, by rw [open_terminal_cur_processes]; exact id⟩
    have hexec : ∀ {c₁ k₁}, system_execute env (some (ascii "shell")) fr
        (open_terminal (preempt fr k)) = some (c₁, k₁) → KeepsTable p k k₁ :=
      fun h₁ => hopen.trans (system_execute_keeps h₁ (hopen.busy hbusy))
    split at h
    · rename_i heq
      rw [Option.some.injEq, Prod.ext_iff] at h
      have hk := (hexec heq).trans (resume_next_keeps p _)
      rwa [h.2] at hk
    · exact hexec h
  · rw [Option.some.injEq, Prod.ext_iff] at h
    have hk := hpre.trans (resume_next_keeps p (preempt fr k))
    rwa [h.2] at hk

/-- **Only the four calls and the end of a process write a table.** -/
theorem sys_perform_keeps {env : Env} {k k' : Kernel} {op : SysOp} {c : Control} {p : ℕ}
    (h : sys_perform env k op = some (c, k')) (hhalt : ¬ op.halts)
    (hfiles : op.on_files → k.curr_pid ≠ p) (hbusy : k.cur_processes p ≠ 0) :
    KeepsTable p k k' := by
  by_cases hop : op.on_files
  · -- the call of another process
    have hsame := hop.same_memory h
    refine ⟨?_, by rw [hsame.cur_processes]; exact id⟩
    unfold table
    rw [hsame.other_pcb p fun hp => hfiles hop hp.symm]
  · cases op with
    | write _ _ _ => exact absurd trivial hop
    | base op =>
        cases op with
        | tick fr => exact scheduler_keeps h hbusy
        | switch_screen t =>
            rw [sys_perform, perform, Option.some.injEq, Prod.mk.injEq] at h
            exact h.2 ▸ .of_eq rfl rfl
        | execute command fr => exact system_execute_keeps h hbusy
        | halt _ | exception _ => exact absurd trivial hhalt
        | «open» _ | close _ | read _ _ _ => exact absurd trivial hop
        | vidmap screen_start =>
            rw [sys_perform, perform, Option.some.injEq, Prod.mk.injEq] at h
            rw [← h.2]
            unfold system_vidmap
            split <;> exact .of_eq rfl rfl

end LinuxLikeOS
