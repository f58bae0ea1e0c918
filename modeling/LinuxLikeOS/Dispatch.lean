/-
Where the calls through operation pointers go.

A pointer is set when its slot is opened and stays as it is from then on, through `close`,
the end of the process and the next process in the same slot of the process table. That
is harmless as long as every `open` sets it, which it does for the three known file types.
For any other type `open` keeps the old pointer and calls through it at once: `NULL` or
whatever memory held, if the slot was never used, and the table of an earlier file if it
was. A record beside the kernel keeps the type of the entry behind every descriptor.
-/
import LinuxLikeOS.Tables
import LinuxLikeOS.Reads

set_option autoImplicit false

namespace LinuxLikeOS

open Kernel Slots Transition

/-! ## Indirect calls -/

/-- What is behind a descriptor. -/
inductive file_kind
  | stdin
  | stdout
  | entry (filetype : ℕ)
  deriving DecidableEq

/-- The operation table of a kind, if it has one. -/
def file_kind.ops : file_kind → Option fops_ptr
  | .stdin => some .term_read_ops
  | .stdout => some .term_write_ops
  | .entry filetype => type_ops filetype

/-- The members of an operation table. -/
inductive fop
  | «open»
  | close
  | read
  | write
  deriving DecidableEq

/-- The pointer is to a table, and the member is not `NULL` in it. -/
def fops_ptr.has : fops_ptr → fop → Bool
  | .rtc_ops, _ | .dir_ops, _ | .file_ops, _ => true
  | .term_read_ops, .read | .term_write_ops, .write => true
  | _, _ => false

/-- A call of a member through an operation pointer, with what is behind the descriptor. -/
structure dispatch where
  op : fop
  ops : fops_ptr
  kind : file_kind
  deriving DecidableEq

/-- The call reaches a function of the table that belongs to what is behind the descriptor. -/
def dispatch.Right (d : dispatch) : Prop := d.kind.ops = some d.ops ∧ d.ops.has d.op = true

/-- The kind of a slot, with the types of the entries behind the general ones. -/
def kind_of (types : ℕ → ℕ) (i : ℕ) : file_kind :=
  if i = 0 then .stdin else if i = 1 then .stdout else .entry (types i)

/-- A call through the pointer of slot `i` of `p`. -/
def dispatch_on (op : fop) (w : Kernel × (ℕ → ℕ → ℕ)) (p i : ℕ) : dispatch :=
  ⟨op, (table w.1 p i).file_op_table_ptr, kind_of (w.2 p) i⟩

/-- The test of `system_close`. -/
def closable (k : Kernel) (fd : Int) : Prop :=
  (FILE_DESCRIPTOR_MIN ≤ fd ∧ fd < FILE_DESCRIPTOR_MAX) ∧ (named_fd k fd).in_use

/-- The test of `system_write`. -/
def writable (k : Kernel) (fd : Int) : Prop :=
  (1 ≤ fd ∧ fd < FILE_DESCRIPTOR_MAX) ∧ (named_fd k fd).in_use

instance (k : Kernel) (fd : Int) : Decidable (closable k fd) := inferInstanceAs (Decidable (_ ∧ _))
instance (k : Kernel) (fd : Int) : Decidable (writable k fd) := inferInstanceAs (Decidable (_ ∧ _))

/-- The descriptors the loop of `system_halt` closes, which are those of `p`. -/
def closed_on_halt (k : Kernel) (p : ℕ) : List ℕ :=
  (List.range FILE_DESCRIPTOR_MAX).filter fun i => FILE_DESCRIPTOR_MIN ≤ i ∧ used (table k p) i

/-- The calls through operation pointers that an operation makes. -/
def dispatches (env : Env) (w : Kernel × (ℕ → ℕ → ℕ)) : SysOp → List dispatch
  | .base (.open filename) =>
      match read_dentry_by_name env.fs (c_str filename), free_fd (get_pcb w.1 w.1.curr_pid) with
      | some d, some i =>
          [⟨.open, file_type_ops d.filetype (table w.1 w.1.curr_pid i).file_op_table_ptr,
            .entry d.filetype⟩]
      | _, _ => []
  | .base (.close fd) =>
      if closable w.1 fd then [dispatch_on .close w w.1.curr_pid fd.toNat] else []
  | .base (.read fd _ _) =>
      if readable w.1 fd then [dispatch_on .read w w.1.curr_pid fd.toNat] else []
  | .write fd _ _ => if writable w.1 fd then [dispatch_on .write w w.1.curr_pid fd.toNat] else []
  | .base (.halt _) | .base (.exception _) =>
      if base_halt w.1 then []
      else (closed_on_halt w.1 (curr_parent w.1)).map (dispatch_on .close w (curr_parent w.1))
  | _ => []

def RightDispatches (env : Env) (w : Kernel × (ℕ → ℕ → ℕ)) (op : SysOp) : Prop :=
  ∀ d, d ∈ dispatches env w op → d.Right

/-- An `open` that finds an entry and a free slot finds an entry of a known type. -/
def OpensKnown (env : Env) (k : Kernel) (op : SysOp) : Prop :=
  ∀ filename d i, op = .base (.open filename) →
    read_dentry_by_name env.fs (c_str filename) = some d →
    free_fd (get_pcb k k.curr_pid) = some i → d.filetype ≤ 2

/-- The type of the entry behind every descriptor that was opened. -/
def record_types (env : Env) (k : Kernel) (op : SysOp) (_ : Kernel) (types : ℕ → ℕ → ℕ) :
    ℕ → ℕ → ℕ :=
  match op with
  | .base (.open filename) =>
      match read_dentry_by_name env.fs (c_str filename), free_fd (get_pcb k k.curr_pid) with
      | some d, some i =>
          Function.update types k.curr_pid (Function.update (types k.curr_pid) i d.filetype)
      | _, _ => types
  | _ => types

def type_step (env : Env) : Kernel × (ℕ → ℕ → ℕ) → SysOp → Option (Kernel × (ℕ → ℕ → ℕ)) :=
  with_history (sys_step env) (record_types env)

/-! ## The calls that are made -/

/-- A call of the running process on a descriptor, through the table `ops`. -/
def call_through (env : Env) (k : Kernel) (ops : fops_ptr) : SysOp → Option (Control × Kernel)
  | .base (.open filename) =>
      match read_dentry_by_name env.fs (c_str filename), free_fd (get_pcb k k.curr_pid) with
      | some dentry, some i =>
          (fops_open ops (set_fd k.curr_pid i (fun _ =>
            { file_op_table_ptr := ops, inode := i32 dentry.inode_num, file_pos := 0,
              flags := IN_USE }) k)).map fun r => (.ret i, r.2)
      | _, _ => none
  | .base (.close fd) =>
      (fops_close ops).map fun r => (.ret r, set_fd k.curr_pid fd.toNat closed_fd k)
  | .base (.read fd buf nbytes) =>
      (fops_read env.fs ops fd.toNat buf nbytes k).map fun r => (r.1, r.2.2)
  | .write _ buf nbytes => (fops_write ops buf nbytes k).map fun r => (.ret r.1, r.2)
  | _ => none

/-- **A call goes through the table that is on the list**, and is refused where there is none. -/
theorem sys_perform_eq_call_through (env : Env) (w : Kernel × (ℕ → ℕ → ℕ)) {op : SysOp}
    (hop : op.on_files) : (dispatches env w op = [] ∧
        sys_perform env w.1 op = some (.ret (-1), w.1)) ∨
      ∃ d, dispatches env w op = [d] ∧ sys_perform env w.1 op = call_through env w.1 d.ops op := by
  cases op with
  | write fd buf nbytes =>
      have heq : system_write fd buf nbytes w.1
          = if writable w.1 fd then fops_write (named_fd w.1 fd).file_op_table_ptr buf nbytes w.1
            else some (-1, w.1) := rfl
      simp only [dispatches, sys_perform]
      rw [heq]
      by_cases htest : writable w.1 fd
      · rw [if_pos htest, if_pos htest]
        exact Or.inr ⟨_, rfl, rfl⟩
      · rw [if_neg htest, if_neg htest]
        exact Or.inl ⟨rfl, rfl⟩
  | base op =>
      cases op with
      | «open» filename =>
          simp only [dispatches, sys_perform, perform]
          cases hname : read_dentry_by_name env.fs (c_str filename) with
          | none =>
              rw [system_open_fails (Or.inl hname)]
              exact Or.inl ⟨rfl, rfl⟩
          | some d =>
              cases hfree : free_fd (get_pcb w.1 w.1.curr_pid) with
              | none =>
                  rw [system_open_fails (Or.inr hfree)]
                  exact Or.inl ⟨rfl, rfl⟩
              | some i =>
                  refine Or.inr ⟨_, rfl, ?_⟩
                  simp only [system_open, call_through, hname, hfree, Option.map_map]
                  rfl
      | close fd =>
          have heq : system_close fd w.1
              = if closable w.1 fd then (fops_close (named_fd w.1 fd).file_op_table_ptr).map fun r =>
                  (r, set_fd w.1.curr_pid fd.toNat closed_fd w.1)
                else some (-1, w.1) := rfl
          simp only [dispatches, sys_perform, perform]
          rw [heq]
          by_cases htest : closable w.1 fd
          · rw [if_pos htest, if_pos htest, Option.map_map]
            exact Or.inr ⟨_, rfl, rfl⟩
          · rw [if_neg htest, if_neg htest]
            exact Or.inl ⟨rfl, rfl⟩
      | read fd buf nbytes =>
          have heq : system_read env.fs fd buf nbytes w.1
              = if readable w.1 fd
                then fops_read env.fs (named_fd w.1 fd).file_op_table_ptr fd.toNat buf nbytes w.1
                else some (.ret (-1), [], w.1) := rfl
          simp only [dispatches, sys_perform, perform]
          rw [heq]
          by_cases htest : readable w.1 fd
          · rw [if_pos htest, if_pos htest]
            exact Or.inr ⟨_, rfl, rfl⟩
          · rw [if_neg htest, if_neg htest]
            exact Or.inl ⟨rfl, rfl⟩
      | _ => exact hop.elim

/-- **The loop of `system_halt`**, whose turn `n` goes through the table descriptor `n` had before
the loop. -/
theorem close_files_succ {k k₁ : Kernel} {n : ℕ} (hn : n < FILE_DESCRIPTOR_MAX)
    (hk₁ : close_files n k = some k₁) :
    close_files (n + 1) k =
      if FILE_DESCRIPTOR_MIN ≤ n ∧ used (table k k.curr_pid) n
      then (fops_close (table k k.curr_pid n).file_op_table_ptr).map fun _ =>
        set_fd k.curr_pid n closed_fd k₁
      else some k₁ := by
  have heq := close_files_eq (Nat.le_of_lt hn) hk₁
  have hcurr : k₁.curr_pid = k.curr_pid := by rw [heq]; rfl
  have hfile : table k₁ k.curr_pid n = table k k.curr_pid n := by
    unfold table
    rw [heq, set_pcb_apply, if_pos rfl, close_below_self]
  have hclose : system_close n k₁
      = if ((FILE_DESCRIPTOR_MIN : Int) ≤ n ∧ (n : Int) < FILE_DESCRIPTOR_MAX) ∧
          (table k₁ k₁.curr_pid n).in_use
        then (fops_close (table k₁ k₁.curr_pid n).file_op_table_ptr).map fun r =>
          (r, set_fd k₁.curr_pid n closed_fd k₁)
        else some (-1, k₁) := rfl
  have htest : (((FILE_DESCRIPTOR_MIN : Int) ≤ n ∧ (n : Int) < FILE_DESCRIPTOR_MAX) ∧
      (table k k.curr_pid n).in_use) ↔ FILE_DESCRIPTOR_MIN ≤ n ∧ used (table k k.curr_pid) n := by
    rw [Int.ofNat_le, Int.ofNat_lt]
    exact and_congr_left fun _ => and_iff_left hn
  rw [close_files, hk₁, Option.bind_some, hclose, hcurr, hfile, if_congr htest rfl rfl]
  split
  · rw [Option.map_map]
    rfl
  · rfl

/-! ## They fault exactly when a member is missing -/

theorem fops_isSome_iff (ops : fops_ptr) :
    (∀ k, (fops_open ops k).isSome = ops.has .open) ∧ (fops_close ops).isSome = ops.has .close ∧
      (∀ fs fd buf nbytes k, (fops_read fs ops fd buf nbytes k).isSome = ops.has .read) ∧
      ∀ buf nbytes k, (fops_write ops buf nbytes k).isSome = ops.has .write := by
  cases ops <;> exact ⟨fun _ => rfl, rfl, fun _ _ _ _ _ => rfl, fun _ _ _ => rfl⟩

theorem close_files_isSome_iff {k : Kernel} {n : ℕ} (hn : n ≤ FILE_DESCRIPTOR_MAX) :
    (close_files n k).isSome = true ↔ ∀ i, i < n → FILE_DESCRIPTOR_MIN ≤ i →
      used (table k k.curr_pid) i →
      (table k k.curr_pid i).file_op_table_ptr.has .close = true := by
  induction n with
  | zero => exact iff_of_true rfl fun i hi => absurd hi (Nat.not_lt_zero i)
  | succ n ih =>
      cases hk₁ : close_files n k with
      | none =>
          rw [hk₁] at ih
          rw [close_files, hk₁]
          refine iff_of_false Bool.false_ne_true fun h => ?_
          have hsome := (ih (by omega)).mpr fun i hi => h i (by omega)
          cases hsome
      | some k₁ =>
          rw [hk₁] at ih
          have hbelow := (ih (by omega)).mp rfl
          have hlast : (close_files (n + 1) k).isSome = true ↔
              (FILE_DESCRIPTOR_MIN ≤ n → used (table k k.curr_pid) n →
                (table k k.curr_pid n).file_op_table_ptr.has .close = true) := by
            rw [close_files_succ (by omega) hk₁]
            split
            · rename_i hgood
              rw [Option.isSome_map, (fops_isSome_iff _).2.1]
              exact ⟨fun h _ _ => h, fun h => h hgood.1 hgood.2⟩
            · rename_i hbad
              exact iff_of_true rfl fun hmin huse => absurd ⟨hmin, huse⟩ hbad
          rw [hlast]
          constructor
          · intro h i hi hmin huse
            rcases Nat.lt_succ_iff_lt_or_eq.mp hi with hlt | rfl
            · exact hbelow i hlt hmin huse
            · exact h hmin huse
          · exact fun h => h n (Nat.lt_succ_self n)

/-- The call completes when the table has the function. -/
theorem call_through_isSome {env : Env} {w : Kernel × (ℕ → ℕ → ℕ)} {op : SysOp} {d : dispatch}
    (hop : op.on_files) (hd : dispatches env w op = [d]) :
    (call_through env w.1 d.ops op).isSome = d.ops.has d.op := by
  cases op with
  | write fd buf nbytes =>
      simp only [dispatches] at hd
      split at hd
      · obtain rfl := (List.cons.inj hd).1
        rw [call_through, Option.isSome_map, (fops_isSome_iff _).2.2.2]
        rfl
      · cases hd
  | base op =>
      cases op with
      | «open» filename =>
          simp only [dispatches] at hd
          split at hd
          · rename_i hname hfree
            obtain rfl := (List.cons.inj hd).1
            simp only [call_through, hname, hfree]
            rw [Option.isSome_map, (fops_isSome_iff _).1]
          · cases hd
      | close fd =>
          simp only [dispatches] at hd
          split at hd
          · obtain rfl := (List.cons.inj hd).1
            rw [call_through, Option.isSome_map, (fops_isSome_iff _).2.1]
            rfl
          · cases hd
      | read fd buf nbytes =>
          simp only [dispatches] at hd
          split at hd
          · obtain rfl := (List.cons.inj hd).1
            rw [call_through, Option.isSome_map, (fops_isSome_iff _).2.2.1]
            rfl
          · cases hd
      | _ => exact hop.elim

/-- `halt` calls the `close` of what is open, whatever has been drawn before. -/
theorem system_halt_isSome_iff (w : Kernel × (ℕ → ℕ → ℕ)) (status : ℕ) {k₁ : Kernel}
    (hdraw : Draws w.1 k₁) : (system_halt status k₁).isSome = true ↔
      ∀ d, d ∈ (if base_halt w.1 then []
        else (closed_on_halt w.1 (curr_parent w.1)).map (dispatch_on .close w (curr_parent w.1))) →
          d.ops.has d.op = true := by
  by_cases hbase : base_halt w.1
  · rw [system_halt_base status (hdraw.base_halt_iff.mpr hbase), if_pos hbase]
    exact iff_of_true rfl nofun
  · rw [system_halt_of_not_base status (mt hdraw.base_halt_iff.mp hbase), if_neg hbase,
      Option.isSome_map, close_files_isSome_iff (Nat.le_refl _), leave_process_eq]
    have hcurr : Kernel.curr_pid { k₁ with
        terminal_array := fun u =>
          { k₁.terminal_array u with
            pid := if u = k₁.curr_terminal then curr_parent k₁ else (k₁.terminal_array u).pid }
        cur_processes := Function.update k₁.cur_processes k₁.curr_pid 0
        paging := process_page (curr_parent k₁) k₁.paging } = curr_parent w.1 :=
      (if_pos rfl).trans hdraw.curr_parent
    rw [hcurr]
    unfold table
    dsimp only
    rw [hdraw.pcb]
    simp only [List.mem_map, closed_on_halt, List.mem_filter, List.mem_range, decide_eq_true_eq]
    constructor
    · rintro h d ⟨i, ⟨hi, hmin, huse⟩, rfl⟩
      exact h i hi hmin huse
    · exact fun h i hi hmin huse => h _ ⟨i, ⟨hi, hmin, huse⟩, rfl⟩

/-- **The record of the calls is complete**: a call on descriptors, or the end of a process,
faults exactly when one of them has no function to go to. -/
theorem sys_perform_isSome_iff (env : Env) (w : Kernel × (ℕ → ℕ → ℕ)) {op : SysOp}
    (hop : op.on_files ∨ op.halts) : (sys_perform env w.1 op).isSome = true ↔
      ∀ d, d ∈ dispatches env w op → d.ops.has d.op = true := by
  by_cases hfiles : op.on_files
  · rcases sys_perform_eq_call_through env w hfiles with ⟨hnil, heq⟩ | ⟨d, hd, heq⟩
    · rw [hnil, heq]
      exact iff_of_true rfl nofun
    · rw [heq, call_through_isSome hfiles hd, hd, List.forall_mem_singleton]
  · cases op with
    | write fd buf nbytes => exact absurd trivial hfiles
    | base op =>
        cases op with
        | halt status => exact system_halt_isSome_iff w status.toNat (.refl _)
        | exception message => exact system_halt_isSome_iff w EXCEPTION (draws_puts message w.1)
        | «open» _ | close _ | read _ _ _ => exact absurd trivial hfiles
        | tick _ | switch_screen _ | execute _ _ | vidmap _ => exact (hop.elim id id).elim

/-! ## Tables and types -/

/-- What is in use has the table of what is behind it. -/
def KindTable (t : ℕ → fd_t) (types : ℕ → ℕ) : Prop :=
  ∀ i, i < FILE_DESCRIPTOR_MAX → used t i → (kind_of types i).ops = some (t i).file_op_table_ptr

namespace KindTable

variable {t : ℕ → fd_t} {types : ℕ → ℕ}

theorem new (t : ℕ → fd_t) (types : ℕ → ℕ) : KindTable (new_fds t) types := by
  intro i hi huse
  rcases Nat.lt_or_ge i FILE_DESCRIPTOR_MIN with hlt | hge
  · have hmin : FILE_DESCRIPTOR_MIN = 2 := rfl
    have hcases : i = 0 ∨ i = 1 := by omega
    rcases hcases with rfl | rfl <;> rfl
  · exact absurd huse (new_fds_used t hge hi)

/-- Slots that are in use after a change were in use before, with the same pointer. -/
theorem shrink (h : KindTable t types) {t' : ℕ → fd_t}
    (hsub : ∀ i, used t' i → used t i ∧ (t' i).file_op_table_ptr = (t i).file_op_table_ptr) :
    KindTable t' types := by
  intro i hi huse
  obtain ⟨huse', hptr⟩ := hsub i huse
  rw [hptr]
  exact h i hi huse'

/-- A slot is opened for an entry of a known type. -/
theorem update (h : KindTable t types) {i filetype : ℕ} (hi : FILE_DESCRIPTOR_MIN ≤ i) {f : fd_t}
    (hf : type_ops filetype = some f.file_op_table_ptr) :
    KindTable (Function.update t i f) (Function.update types i filetype) := by
  have hmin : FILE_DESCRIPTOR_MIN = 2 := rfl
  intro j hj huse
  unfold kind_of
  by_cases hji : j = i
  · subst hji
    rw [Function.update_self, Function.update_self, if_neg (by omega), if_neg (by omega)]
    exact hf
  · have huse' := (((used_update t i f j).mp huse).resolve_left fun h => hji h.1).2
    rw [Function.update_of_ne hji, Function.update_of_ne hji]
    exact h j hj huse'

/-- The calls through a slot that is in use go where they should. -/
theorem right (h : KindTable t types) {i : ℕ} (hi : i < FILE_DESCRIPTOR_MAX) (huse : used t i)
    {op : fop} (hop : (op = .read ∧ i ≠ 1) ∨ (op = .write ∧ i ≠ 0) ∨ FILE_DESCRIPTOR_MIN ≤ i) :
    dispatch.Right ⟨op, (t i).file_op_table_ptr, kind_of types i⟩ := by
  have hkind := h i hi huse
  refine ⟨hkind, ?_⟩
  generalize (t i).file_op_table_ptr = ops at hkind ⊢
  have hmin : FILE_DESCRIPTOR_MIN = 2 := rfl
  unfold kind_of at hkind
  dsimp only
  split at hkind
  · -- `stdin` can be read
    obtain rfl := Option.some.inj hkind
    rcases hop with ⟨rfl, -⟩ | ⟨-, hne⟩ | hge
    · rfl
    · omega
    · omega
  · split at hkind
    · obtain rfl := Option.some.inj hkind
      rcases hop with ⟨-, hne⟩ | ⟨rfl, -⟩ | hge
      · omega
      · rfl
      · omega
    · -- the other three tables have every member
      have hops : ops = .rtc_ops ∨ ops = .dir_ops ∨ ops = .file_ops := type_ops_cases hkind
      rcases hops with rfl | rfl | rfl <;> rfl

end KindTable

/-! ## The start -/

/-- Every process has the table it was created with. -/
def FreshTables (k : Kernel) : Prop :=
  ∀ p, k.cur_processes p ≠ 0 → ∃ t, table k p = new_fds t

theorem freshTables_execute {env : Env} {fr : frame} {command : Option (List UInt8)}
    {k k' : Kernel} (h : FreshTables k)
    (hexec : new_process (system_execute env command fr k) = some k') : FreshTables k' := by
  obtain ⟨pid, eip, -, rfl⟩ := new_process_execute hexec
  intro p hp
  rw [table_create_process]
  rw [create_process_cur_processes] at hp
  replace hp : Function.update k.cur_processes pid 1 p ≠ 0 := hp
  split
  · exact ⟨_, rfl⟩
  · rename_i hne
    rw [Function.update_of_ne hne] at hp
    exact h p hp

theorem Started.fresh_tables {env : Env} {k : Kernel} (h : Started env k) : FreshTables k := by
  refine h.invariant (fun memory p hp => ?_) (fun fr k hk p hp => ?_)
    (fun fr k k' hk hexec => freshTables_execute hk hexec)
  · rw [(init_kernel_opening env memory).cur_processes] at hp
    exact absurd (if_neg (Nat.not_lt_zero p)) hp
  · rw [open_terminal_cur_processes] at hp
    rw [open_terminal_table]
    exact hk p hp

/-! ## Runs -/

/-- The processes are three stacks, and what is open has the table of its type. -/
structure DispatchInv (w : Kernel × (ℕ → ℕ → ℕ)) : Prop where
  processes : ProcessTable w.1
  tables : ∀ p, live w.1 p → KindTable (table w.1 p) (w.2 p)

theorem dispatchInv_boot {env : Env} {k : Kernel} (h : Started env k) (types : ℕ → ℕ → ℕ) :
    DispatchInv (k, types) := by
  refine ⟨h.process_table, fun p hp => ?_⟩
  have hbusy : k.cur_processes p ≠ 0 := by
    rw [hp.2]
    decide
  obtain ⟨t, ht⟩ := h.fresh_tables p hbusy
  dsimp only
  rw [ht]
  exact .new t _

/-- **The calls of one operation** go where they should. -/
theorem DispatchInv.right {env : Env} {w : Kernel × (ℕ → ℕ → ℕ)} {op : SysOp}
    (h : DispatchInv w) (hknown : OpensKnown env w.1 op) : RightDispatches env w op := by
  obtain ⟨stack, hinv, -⟩ := h.processes
  have hcurr := h.tables _ hinv.live_curr_pid
  have hmin : FILE_DESCRIPTOR_MIN = 2 := rfl
  have hmax : FILE_DESCRIPTOR_MAX = 8 := rfl
  -- the end of a process closes descriptors of its parent
  have hhalt : ∀ d, d ∈ (if base_halt w.1 then []
      else (closed_on_halt w.1 (curr_parent w.1)).map (dispatch_on .close w (curr_parent w.1))) →
        d.Right := by
    intro d hd
    split at hd
    · exact absurd hd List.not_mem_nil
    · rename_i hbase
      have hlive : live w.1 (curr_parent w.1) :=
        hinv.forest.live_parent hinv.live_curr_pid (hinv.parent_of_curr hbase)
      obtain ⟨i, hi, rfl⟩ := List.mem_map.mp hd
      obtain ⟨hlt, hge, huse⟩ : i < FILE_DESCRIPTOR_MAX ∧ FILE_DESCRIPTOR_MIN ≤ i ∧
          used (table w.1 (curr_parent w.1)) i := by
        simpa [closed_on_halt] using hi
      exact (h.tables _ hlive).right hlt huse (Or.inr (Or.inr hge))
  intro d hd
  cases op with
  | write fd buf nbytes =>
      rw [dispatches] at hd
      split at hd
      · rename_i hfd
        rw [List.mem_singleton] at hd
        have hrange := hfd.1
        exact hd ▸ hcurr.right (by omega) hfd.2 (Or.inr (Or.inl ⟨rfl, by omega⟩))
      · exact absurd hd List.not_mem_nil
  | base op =>
      cases op with
      | halt status => exact hhalt d hd
      | exception message => exact hhalt d hd
      | «open» filename =>
          rw [dispatches] at hd
          split at hd
          · rename_i dentry i hname hfree
            obtain ⟨ops, hops⟩ := Option.isSome_iff_exists.mp
              (type_ops_isSome.mpr (hknown filename dentry i rfl hname hfree))
            rw [List.mem_singleton, file_type_ops_eq, hops, Option.getD_some] at hd
            refine hd ▸ ⟨hops, ?_⟩
            rcases type_ops_cases hops with rfl | rfl | rfl <;> rfl
          · exact absurd hd List.not_mem_nil
      | close fd =>
          rw [dispatches] at hd
          split at hd
          · rename_i hfd
            rw [List.mem_singleton] at hd
            have hrange := hfd.1
            exact hd ▸ hcurr.right (by omega) hfd.2 (Or.inr (Or.inr (by omega)))
          · exact absurd hd List.not_mem_nil
      | read fd buf nbytes =>
          rw [dispatches] at hd
          split at hd
          · rename_i hfd
            rw [List.mem_singleton] at hd
            have hrange := hfd.1
            exact hd ▸ hcurr.right (by omega) hfd.2 (Or.inl ⟨rfl, by omega⟩)
          · exact absurd hd List.not_mem_nil
      | _ => exact absurd hd List.not_mem_nil

/-- An `open` that fails leaves the record alone. -/
theorem record_types_fails {env : Env} {k : Kernel} {filename : List UInt8}
    (h : read_dentry_by_name env.fs (c_str filename) = none ∨ free_fd (get_pcb k k.curr_pid) = none)
    (k' : Kernel) (types : ℕ → ℕ → ℕ) :
    record_types env k (.base (.open filename)) k' types = types := by
  rcases h with hname | hfree
  · simp only [record_types, hname]
  · simp only [record_types, hfree]
    cases read_dentry_by_name env.fs (c_str filename) <;> rfl

theorem record_types_opens {env : Env} {k : Kernel} {filename : List UInt8} {d : dentry_t} {i : ℕ}
    (hname : read_dentry_by_name env.fs (c_str filename) = some d)
    (hfree : free_fd (get_pcb k k.curr_pid) = some i) (k' : Kernel) (types : ℕ → ℕ → ℕ) :
    record_types env k (.base (.open filename)) k' types
      = Function.update types k.curr_pid (Function.update (types k.curr_pid) i d.filetype) := by
  simp only [record_types, hname, hfree]

/-- An `open` fails, or has an entry and a free slot. -/
theorem open_cases (env : Env) (k : Kernel) (filename : List UInt8) :
    (read_dentry_by_name env.fs (c_str filename) = none ∨
        free_fd (get_pcb k k.curr_pid) = none) ∨
      ∃ d i, read_dentry_by_name env.fs (c_str filename) = some d ∧
        free_fd (get_pcb k k.curr_pid) = some i := by
  cases read_dentry_by_name env.fs (c_str filename) with
  | none => exact Or.inl (Or.inl rfl)
  | some d =>
      cases free_fd (get_pcb k k.curr_pid) with
      | none => exact Or.inl (Or.inr rfl)
      | some i => exact Or.inr ⟨d, i, rfl, rfl⟩

theorem record_types_of_not_open {env : Env} {k k' : Kernel} {op : SysOp} {types : ℕ → ℕ → ℕ}
    (hop : ∀ filename, op ≠ .base (.open filename)) : record_types env k op k' types = types := by
  unfold record_types
  split
  · rename_i filename
    exact absurd rfl (hop filename)
  · rfl

theorem record_types_of_ne {env : Env} {k k' : Kernel} {op : SysOp} {types : ℕ → ℕ → ℕ} {p : ℕ}
    (hp : p ≠ k.curr_pid) : record_types env k op k' types p = types p := by
  by_cases hop : ∃ filename, op = .base (.open filename)
  · obtain ⟨filename, rfl⟩ := hop
    rcases open_cases env k filename with hfails | ⟨d, i, hname, hfree⟩
    · rw [record_types_fails hfails]
    · rw [record_types_opens hname hfree, Function.update_of_ne hp]
  · rw [record_types_of_not_open fun filename heq => hop ⟨filename, heq⟩]

/-- A call of the running process on its descriptors. -/
theorem own_call_kinds {env : Env} {w : Kernel × (ℕ → ℕ → ℕ)} {k' : Kernel} {op : Op} {c : Control}
    (h : KindTable (table w.1 w.1.curr_pid) (w.2 w.1.curr_pid))
    (hknown : OpensKnown env w.1 (.base op)) (hfiles : op.on_files)
    (hperform : perform env w.1 op = some (c, k')) :
    KindTable (table k' w.1.curr_pid) (record_types env w.1 (.base op) k' w.2 w.1.curr_pid) := by
  cases op with
  | «open» filename =>
      rw [perform] at hperform
      rcases open_cases env w.1 filename with hfails | ⟨d, i, hname, hfree⟩
      · rw [system_open_fails hfails, Option.map_some, Option.some.injEq, Prod.mk.injEq] at hperform
        rw [← hperform.2, record_types_fails hfails]
        exact h
      · obtain ⟨ops, hops⟩ := Option.isSome_iff_exists.mp
          (type_ops_isSome.mpr (hknown filename d i rfl hname hfree))
        obtain ⟨k₁, hopen, htable⟩ := system_open_opens hname hfree hops
        rw [hopen, Option.map_some, Option.some.injEq, Prod.mk.injEq] at hperform
        rw [← hperform.2, record_types_opens hname hfree, Function.update_self, htable]
        exact h.update (free_fd_eq_some.mp hfree).lower hops
  | close fd =>
      obtain ⟨⟨r, k₁⟩, hclose, heq⟩ := Option.map_eq_some_iff.mp hperform
      obtain ⟨-, rfl⟩ := Prod.mk.inj heq
      refine h.shrink fun i huse => ?_
      rcases system_close_cases hclose with hk | hk
      · dsimp only at huse ⊢
        rw [hk] at huse ⊢
        exact ⟨huse, rfl⟩
      · dsimp only at huse ⊢
        rw [hk, table_set_fd] at huse ⊢
        -- the slot that was closed is not in use
        rcases (used_update _ _ _ _).mp huse with ⟨-, hclosed⟩ | ⟨hne, huse'⟩
        · exact absurd rfl hclosed
        · rw [Function.update_of_ne hne]
          exact ⟨huse', rfl⟩
  | read fd buf nbytes =>
      obtain ⟨⟨c₁, bytes, k₁⟩, hread, heq⟩ := Option.map_eq_some_iff.mp hperform
      obtain ⟨-, rfl⟩ := Prod.mk.inj heq
      refine h.shrink fun i huse => ?_
      obtain ⟨hflags, hops⟩ := system_read_fd hread w.1.curr_pid i
      unfold used fd_t.in_use table at huse ⊢
      rw [hflags] at huse
      exact ⟨huse, hops⟩
  | _ => exact hfiles.elim

/-- The end of a process leaves fewer descriptors open. -/
theorem halt_kinds {env : Env} {k k' : Kernel} {op : Op} {p : ℕ} {types : ℕ → ℕ}
    (h : KindTable (table k p) types) (hop : op.halts) (hstep : kstep env k op = some k') :
    KindTable (table k' p) types := by
  by_cases hbase : base_halt k
  · unfold table
    rw [(hop.base hbase hstep).pcb]
    exact h
  · obtain ⟨k₁, hdraw, rfl⟩ := hop.parent hbase hstep
    refine h.shrink fun i huse => ?_
    unfold used table at huse ⊢
    rw [halted_pcb, hdraw.pcb] at huse ⊢
    by_cases hp : p = curr_parent k₁
    · rw [if_pos hp] at huse ⊢
      have hsame := close_below_of_in_use huse
      rw [hsame] at huse ⊢
      exact ⟨huse, rfl⟩
    · rw [if_neg hp] at huse ⊢
      exact ⟨huse, rfl⟩

theorem DispatchInv.step {env : Env} {w w' : Kernel × (ℕ → ℕ → ℕ)} {op : SysOp}
    (h : DispatchInv w) (hknown : OpensKnown env w.1 op) (hstep : type_step env w op = some w') :
    DispatchInv w' := by
  obtain ⟨hsys, hrecord⟩ := with_history_eq_some.mp hstep
  obtain ⟨c, hperform⟩ := sys_step_eq_some.mp hsys
  obtain ⟨stack, hinv, hlast⟩ := h.processes
  cases op with
  | write fd buf nbytes =>
      have hfiles : (SysOp.write fd buf nbytes).on_files := trivial
      have hsame := hfiles.same_memory hperform
      refine ⟨⟨stack, hinv.quiet hsame.toQuiet, hlast⟩, fun p hp => ?_⟩
      have hlive : live w.1 p := by
        unfold live at hp ⊢
        rwa [hsame.cur_processes] at hp
      obtain ⟨⟨r, k₁⟩, hwrite, heq⟩ := Option.map_eq_some_iff.mp hperform
      obtain ⟨-, hk₁⟩ := Prod.mk.inj heq
      rw [← hrecord, ← hk₁]
      unfold table
      rw [system_write_pcb hwrite]
      exact h.tables p hlive
  | base op =>
      have hkstep : kstep env w.1 op = some w'.1 := hsys
      refine ⟨h.processes.step hkstep, fun p hp => ?_⟩
      rcases hinv.live_or_started (perform_effect hinv.flag hperform) hp with hnew | ⟨-, hlive⟩
      · cases op with
        | execute command fr =>
            rw [(table_started hperform hnew).1]
            exact .new _ _
        | _ => cases hnew
      · have hold := h.tables p hlive
        have hbusy : w.1.cur_processes p ≠ 0 := by
          rw [hlive.2]
          decide
        rw [← hrecord]
        by_cases hhalt : op.halts
        · rw [record_types_of_not_open]
          · exact halt_kinds hold hhalt hkstep
          · rintro filename heq
            obtain rfl := SysOp.base.inj heq
            exact hhalt.elim
        · by_cases hown : op.on_files ∧ p = w.1.curr_pid
          · obtain ⟨hfiles, rfl⟩ := hown
            exact own_call_kinds hold hknown hfiles hperform
          · -- the table of a process that does not call
            have hkeeps : KeepsTable p w.1 w'.1 := sys_perform_keeps hperform hhalt
              (fun hfiles hcurr => hown ⟨hfiles, hcurr.symm⟩) hbusy
            rw [hkeeps.table]
            by_cases hcurr : p = w.1.curr_pid
            · rw [record_types_of_not_open]
              · exact hold
              · rintro filename heq
                obtain rfl := SysOp.base.inj heq
                exact hown ⟨trivial, hcurr⟩
            · rw [record_types_of_ne hcurr]
              exact hold

/-- **Every call through an operation pointer reaches the table of the file behind the
descriptor exactly when no entry of an unknown type is opened.** -/
theorem dispatches_right_iff {env : Env} {k₀ : Kernel} (hstart : Started env k₀)
    (types : ℕ → ℕ → ℕ) (ops : List SysOp) :
    AllSteps (type_step env) (RightDispatches env) (k₀, types) ops ↔
      AllSteps (type_step env) (fun w op => OpensKnown env w.1 op) (k₀, types) ops := by
  constructor
  · intro h
    refine h.mono (fun _ => True) (fun _ _ _ _ _ _ => trivial) (fun w op _ hright => ?_) trivial
    rintro filename d i rfl hname hfree
    -- a call through the pointer of an unknown type is not the right one
    have hmem : ⟨.open, file_type_ops d.filetype (table w.1 w.1.curr_pid i).file_op_table_ptr,
        .entry d.filetype⟩ ∈ dispatches env w (.base (.open filename)) := by
      simp [dispatches, hname, hfree]
    have hops := (hright _ hmem).1
    exact type_ops_isSome.mp (Option.isSome_iff_exists.mpr ⟨_, hops⟩)
  · intro h
    exact h.mono DispatchInv (fun _ _ _ hinv hknown hstep => hinv.step hknown hstep)
      (fun _ _ hinv hknown => hinv.right hknown) (dispatchInv_boot hstart types)

/-- A shell that reads the directory and starts a shell. -/
theorem dispatches_right_demo :
    (AllSteps (type_step demo_env) (RightDispatches demo_env) (demo, fun _ _ => 0)
        [.base (.tick (demo_frame 3 3)), .base (.open (ascii ".")), .base (.read 2 demo_buf 32),
          .write 1 none 1, .base (.close 2), .base (.execute (some (ascii "shell")) (demo_frame 4 4)),
          .base (.open (ascii "shell")), .base (.halt 0)] ↔
      AllSteps (type_step demo_env) (fun w op => OpensKnown demo_env w.1 op) (demo, fun _ _ => 0)
        [.base (.tick (demo_frame 3 3)), .base (.open (ascii ".")), .base (.read 2 demo_buf 32),
          .write 1 none 1, .base (.close 2), .base (.execute (some (ascii "shell")) (demo_frame 4 4)),
          .base (.open (ascii "shell")), .base (.halt 0)]) ∧
    Documented demo_env.fs :=
  ⟨dispatches_right_iff demo_started _ _, by decide⟩

/-- The small image with an entry of type 3. -/
def odd_env : Env where
  link := demo_env.link
  fs :=
    { demo_fs with
      boot_block :=
        { demo_fs.boot_block with
          dir_count := 3
          direntries := fun i =>
            if i = 2 then ⟨c_str (ascii "odd"), 3, 0⟩ else demo_fs.boot_block.direntries i } }

/-- Opening it in a slot that was never used calls through `NULL`. -/
theorem unknown_type_faults : ∃ k, Started odd_env k ∧
    dispatches odd_env (k, fun _ _ => 0) (.base (.open (ascii "odd")))
      = [⟨.open, .NULL, .entry 3⟩] ∧
    sys_step odd_env k (.base (.open (ascii "odd"))) = none ∧
    ¬ RightDispatches odd_env (k, fun _ _ => 0) (.base (.open (ascii "odd"))) := by
  have hvalues : (bootstrap odd_env demo_memory (demo_frame 0 0) (demo_frame 1 1)
      (demo_frame 2 2)).map (fun k =>
        (dispatches odd_env (k, fun _ _ => 0) (.base (.open (ascii "odd"))),
          (sys_step odd_env k (.base (.open (ascii "odd")))).isSome))
      = some ([⟨.open, .NULL, .entry 3⟩], false) := by decide +kernel
  obtain ⟨k, hk, hv⟩ := Option.map_eq_some_iff.mp hvalues
  rw [Prod.mk.injEq, Option.isSome_eq_false_iff, Option.isNone_iff_eq_none] at hv
  refine ⟨k, ⟨_, _, _, _, hk⟩, hv.1, hv.2, fun h => ?_⟩
  have hright := h ⟨.open, .NULL, .entry 3⟩ (by rw [hv.1]; exact List.mem_singleton_self _)
  cases hright.1

end LinuxLikeOS
