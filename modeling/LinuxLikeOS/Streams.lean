/-
Files as streams, over the whole machine.

Every descriptor on a regular file has a position of its own in the process control block. A record
is kept of what each descriptor was opened on, how many bytes have been asked of it since, and what
it has delivered. Whatever the processes of the three terminals do in between, what a descriptor
has delivered is the beginning of its file, as long as it was asked for.
-/
import LinuxLikeOS.Directory
import LinuxLikeOS.FileReads
import LinuxLikeOS.Descriptors

set_option autoImplicit false

namespace LinuxLikeOS

open Kernel Transition

/-! ## The record of the streams -/

/-- A descriptor since it was opened. -/
structure stream where
  inode_num : ℕ
  asked : ℕ
  delivered : List UInt8

/-- An open descriptor of the running process on a regular file. -/
def reads_file (k : Kernel) (fd : Int) : Prop :=
  readable k fd ∧ (named_fd k fd).file_op_table_ptr = .file_ops

instance (k : Kernel) (fd : Int) : Decidable (reads_file k fd) := inferInstanceAs (Decidable (_ ∧ _))

/-- `open` begins a stream, and a read of a regular file goes on with it. -/
def record_stream (env : Env) (k : Kernel) (op : Op) (_ : Kernel) (s : ℕ × ℕ → stream) :
    ℕ × ℕ → stream :=
  match op with
  | .open filename =>
      match system_open env.fs filename k, read_dentry_by_name env.fs (c_str filename) with
      | some (fd, _), some dentry =>
          if 0 ≤ fd then Function.update s (descriptor k fd) ⟨dentry.inode_num, 0, []⟩ else s
      | _, _ => s
  | .read fd buf nbytes =>
      match system_read env.fs fd buf nbytes k with
      | some (_, bytes, _) =>
          if reads_file k fd then
            Function.update s (descriptor k fd)
              { s (descriptor k fd) with
                asked := (s (descriptor k fd)).asked + nbytes.toNat
                delivered := (s (descriptor k fd)).delivered ++ bytes }
          else s
      | none => s
  | _ => s

def stream_step (env : Env) : Kernel × (ℕ × ℕ → stream) → Op → Option (Kernel × (ℕ × ℕ → stream)) :=
  with_history (kstep env) (record_stream env)

/-! ## The property -/

/-- The first `n` bytes of a file, as far as it goes. There is nothing behind a wrong number. -/
def file_prefix (fs : file_sys) (inode_num n : ℕ) : List UInt8 :=
  if inode_num < fs.boot_block.inode_count then
    file_bytes fs (fs.inode inode_num) 0 (min n (fs.inode inode_num).length)
  else []

/-- A stream has delivered the beginning of its file. -/
def Whole (fs : file_sys) (s : stream) : Prop := s.delivered = file_prefix fs s.inode_num s.asked

/-- The open descriptors of the live processes on regular files. -/
def OpenFile (k : Kernel) (p i : ℕ) : Prop :=
  live k p ∧ i < FILE_DESCRIPTOR_MAX ∧ (table k p i).in_use ∧
    (table k p i).file_op_table_ptr = .file_ops

/-- A read asks for a number of bytes that is not negative, and for fewer than `2^31` bytes in all,
so that the position does not overflow. -/
def AskFits (w : Kernel × (ℕ × ℕ → stream)) : Op → Prop
  | .read fd _ nbytes => reads_file w.1 fd →
      0 ≤ nbytes ∧ (w.2 (descriptor w.1 fd)).asked + nbytes < 2147483648
  | _ => True

instance (w : Kernel × (ℕ × ℕ → stream)) : (op : Op) → Decidable (AskFits w op)
  | .read fd _ _ => inferInstanceAs (Decidable (reads_file w.1 fd → _ ∧ _))
  | .tick _ | .switch_screen _ | .execute _ _ | .halt _ | .exception _ | .open _ | .close _
  | .vidmap _ => isTrue trivial

/-! ## One descriptor -/

/-- The descriptor is at the end of what its stream has been asked for. -/
structure OnStream (fs : file_sys) (file : fd_t) (s : stream) : Prop where
  inode : u32 file.inode = s.inode_num
  file_pos : file.file_pos = (s.asked : Int)
  whole : Whole fs s

theorem file_prefix_zero (fs : file_sys) (inode_num : ℕ) : file_prefix fs inode_num 0 = [] := by
  unfold file_prefix
  rw [Nat.zero_min]
  split <;> rfl

/-- **A read delivers the next bytes**, whatever file it is of. -/
theorem file_prefix_read (fs : file_sys) (inode_num : ℕ) {offset length : ℕ}
    (hsum : offset + length < 2147483648) :
    file_prefix fs inode_num offset ++ (read_data fs inode_num offset length).2
      = file_prefix fs inode_num (offset + length) := by
  unfold file_prefix
  by_cases h : inode_num < fs.boot_block.inode_count
  · have hnext := file_bytes_min fs (fs.inode inode_num) 0 offset length
    rw [Nat.sub_zero, Nat.zero_add] at hnext
    rw [if_pos h, if_pos h, read_data_fits h (fun _ => by omega) (by omega), hnext]
  · rw [if_neg h, if_neg h, read_data_of_bad_inode (Nat.le_of_not_lt h)]
    rfl

theorem read_dentry_by_name_inode_num {fs : file_sys} {fname : ℕ → UInt8} {d : dentry_t} {n : ℕ}
    (hfs : ∀ i, (fs.boot_block.direntries i).inode_num < n)
    (hd : read_dentry_by_name fs fname = some d) : d.inode_num < n := by
  unfold read_dentry_by_name at hd
  split at hd
  · cases hd
  · obtain ⟨j, -, rfl⟩ := find_dentry_slot hd
    exact hfs j

theorem onStream_opened (fs : file_sys) {inode_num : ℕ} (h : inode_num < 4294967296) (ops : fops_ptr) :
    OnStream fs { file_op_table_ptr := ops, inode := i32 inode_num, file_pos := 0, flags := IN_USE }
      ⟨inode_num, 0, []⟩ where
  inode := by
    have hinode := u32_i32_of_lt h
    dsimp only
    exact hinode
  file_pos := rfl
  whole := (file_prefix_zero fs inode_num).symm

theorem OnStream.read {fs : file_sys} {file : fd_t} {s : stream} {n : ℕ} (h : OnStream fs file s)
    (hsum : s.asked + n < 2147483648) :
    OnStream fs { file with file_pos := i32 (file.file_pos + n) }
      { s with
        asked := s.asked + n
        delivered := s.delivered ++ (read_data fs (u32 file.inode) (u32 file.file_pos) n).2 } where
  inode := h.inode
  file_pos := by
    dsimp only
    rw [h.file_pos, ← Int.natCast_add, i32_of_lt hsum]
  whole := by
    rw [h.inode, h.file_pos, u32_of_lt (by omega)]
    unfold Whole
    dsimp only
    rw [show s.delivered = _ from h.whole]
    exact file_prefix_read fs s.inode_num hsum

/-! ## One operation -/

/-- `open` writes the first free descriptor of the running process. -/
theorem system_open_writes {fs : file_sys} {filename : List UInt8} {k k' : Kernel} {r : Int}
    (h : system_open fs filename k = some (r, k')) : (r = -1 ∧ k' = k) ∨
      ∃ (index : ℕ) (dentry : dentry_t) (ops : fops_ptr),
        read_dentry_by_name fs (c_str filename) = some dentry ∧ r = index ∧
          k'.pcb = (set_fd k.curr_pid index (fun _ =>
            { file_op_table_ptr := ops, inode := i32 dentry.inode_num, file_pos := 0,
              flags := IN_USE }) k).pcb := by
  unfold system_open at h
  split at h
  · rename_i dentry index hname hfree
    obtain ⟨⟨r₀, k₁⟩, hopen, heq⟩ := Option.map_eq_some_iff.mp h
    obtain ⟨rfl, rfl⟩ := Prod.mk.inj heq
    refine .inr ⟨index, dentry, file_type_ops dentry.filetype
      ((get_pcb k k.curr_pid).file_descriptors index).file_op_table_ptr, hname, rfl, ?_⟩
    rcases (fops_open_cases hopen).2 with rfl | rfl
    · rfl
    · exact set_RTC_frequency_pcb _ _
  · rw [Option.some.injEq, Prod.mk.injEq] at h
    exact .inl ⟨h.1.symm, h.2.symm⟩

/-- A read of a regular file. -/
theorem system_read_of_file {fs : file_sys} {fd : Int} (buf : ℕ) (nbytes : Int) {k : Kernel}
    (h : reads_file k fd) : system_read fs fd buf nbytes k =
      some (.ret (read_data fs (u32 (named_fd k fd).inode) (u32 (named_fd k fd).file_pos) (u32 nbytes)).1,
        (read_data fs (u32 (named_fd k fd).inode) (u32 (named_fd k fd).file_pos) (u32 nbytes)).2,
        set_fd k.curr_pid fd.toNat
          (fun file => { file with file_pos := i32 (file.file_pos + nbytes) }) k) := by
  have hlt : ¬ fd.toNat ≥ FILE_DESCRIPTOR_MAX := by
    have := h.1.1
    omega
  rw [system_read_readable fs buf nbytes h.1 h.2]
  unfold fops_read read_file
  rw [if_neg hlt]
  rfl

/-- The other reads write no descriptor. -/
theorem system_read_of_other {fs : file_sys} {fd : Int} {buf : ℕ} {nbytes : Int} {k k' : Kernel}
    {c : Control} {bytes : List UInt8} (hno : ¬ reads_file k fd)
    (h : system_read fs fd buf nbytes k = some (c, bytes, k')) : k'.pcb = k.pcb := by
  by_cases hread : readable k fd
  · have hops : (named_fd k fd).file_op_table_ptr ≠ .file_ops := fun hops => hno ⟨hread, hops⟩
    rw [system_read_readable fs buf nbytes hread rfl] at h
    unfold fops_read at h
    split at h <;> simp only [Option.some.injEq, Prod.mk.injEq, reduceCtorEq] at h
    · rw [← h.2.2]
      rcases terminal_read_begin_cases buf nbytes k with ⟨-, hbegin⟩ | ⟨-, hbegin⟩
      · rw [hbegin]
      · rw [hbegin]
        rfl
    · rw [← h.2.2]
      rfl
    · rw [← h.2.2]
      unfold read_directory
      split <;> rfl
    · rename_i hfile
      exact absurd hfile hops
  · have hrefused : system_read fs fd buf nbytes k = some (.ret (-1), [], k) := if_neg hread
    rw [hrefused, Option.some.injEq, Prod.mk.injEq, Prod.mk.injEq] at h
    rw [← h.2.2]

/-- No other operation writes an open descriptor of an older process. -/
theorem open_fd_same {env : Env} {k k' : Kernel} {op : Op} {c : Control}
    {stack : Terminal → List ℕ} (hinv : ProcessInv k stack) (he : Effect env k op c k')
    (hop : ¬ op.on_files) {p i : ℕ} (hlive : live k p) (hopen : (table k' p i).in_use) :
    table k' p i = table k p i := by
  unfold table at hopen ⊢
  cases he with
  | tick fr => rw [ticked_file_descriptors]
  | @create command fr pid _ eip hpid =>
      have hne : p ≠ pid := fun heq => ProcessInv.not_live_of_started hpid (heq ▸ hlive)
      rw [hinv.create_eq hpid, created_file_descriptors hne]
      rfl
  | @halt _ k₁ hhalt hdraw hbase =>
      -- what the loop has left open it has left alone
      rw [halted_pcb, hdraw.pcb] at hopen ⊢
      split at hopen
      · rename_i hparent
        rw [if_pos hparent]
        exact close_below_of_in_use hopen
      · rename_i hparent
        rw [if_neg hparent]
  | quiet hquiet hhalt hpid hpcb => rw [hpcb.resolve_left hop]

/-! ## The invariant -/

/-- Every open descriptor on a regular file is on its stream. -/
structure StreamInv (fs : file_sys) (w : Kernel × (ℕ × ℕ → stream)) : Prop where
  processes : ProcessTable w.1
  streams : ∀ p i, OpenFile w.1 p i → OnStream fs (table w.1 p i) (w.2 (p, i))

theorem record_stream_of_ne {env : Env} {k k' : Kernel} {op : Op} {s : ℕ × ℕ → stream}
    (hop : ¬ op.on_files) : record_stream env k op k' s = s := by
  cases op <;> first | rfl | exact absurd trivial hop

/-- What was not written has its descriptor and its stream as before. -/
theorem StreamInv.same {fs : file_sys} {w w' : Kernel × (ℕ × ℕ → stream)} (h : StreamInv fs w)
    {p i : ℕ} (hlive : live w.1 p) (hopen : OpenFile w'.1 p i)
    (hfd : table w'.1 p i = table w.1 p i) (hs : w'.2 (p, i) = w.2 (p, i)) :
    OnStream fs (table w'.1 p i) (w'.2 (p, i)) := by
  obtain ⟨-, hi, huse, hops⟩ := hopen
  rw [hfd] at huse hops ⊢
  rw [hs]
  exact h.streams p i ⟨hlive, hi, huse, hops⟩

/-- A new process has no file open. -/
theorem not_openFile_new {k : Kernel} {fds : ℕ → fd_t} {p i : ℕ} (h : table k p = new_fds fds) :
    ¬ OpenFile k p i := by
  rintro ⟨-, hi, huse, hops⟩
  rw [h] at huse hops
  unfold new_fds at huse hops
  split at hops
  · cases hops
  · rename_i h0
    split at hops
    · cases hops
    · rename_i h1
      rw [if_neg h0, if_neg h1, if_pos hi] at huse
      exact huse rfl

section

variable {env : Env} {w w' : Kernel × (ℕ × ℕ → stream)} {p i : ℕ}

theorem StreamInv.opened {filename : List UInt8} {r : Int} (h : StreamInv env.fs w)
    (hfs : ∀ i, (env.fs.boot_block.direntries i).inode_num < 4294967296)
    (hsys : system_open env.fs filename w.1 = some (r, w'.1))
    (hrec : record_stream env w.1 (.open filename) w'.1 w.2 = w'.2) (hlive : live w.1 p)
    (hopen : OpenFile w'.1 p i) : OnStream env.fs (table w'.1 p i) (w'.2 (p, i)) := by
  simp only [record_stream, hsys] at hrec
  rcases system_open_writes hsys with ⟨rfl, hk⟩ | ⟨index, dentry, ops, hname, rfl, hpcb⟩
  · -- refused
    refine h.same hlive hopen (congrArg (fun k => table k p i) hk) ?_
    rw [← hrec]
    cases read_dentry_by_name env.fs (c_str filename) with
    | none => rfl
    | some dentry =>
        dsimp only
        rw [if_neg (by decide)]
  · simp only [hname, Int.natCast_nonneg, if_true] at hrec
    have htable : ∀ q j, table w'.1 q j = if q = w.1.curr_pid ∧ j = index then
        { file_op_table_ptr := ops, inode := i32 dentry.inode_num, file_pos := 0, flags := IN_USE }
        else table w.1 q j := by
      intro q j
      unfold table
      rw [hpcb, set_fd_file_descriptors]
    by_cases hnew : p = w.1.curr_pid ∧ i = index
    · obtain ⟨rfl, rfl⟩ := hnew
      rw [htable, if_pos ⟨rfl, rfl⟩, ← hrec]
      unfold descriptor
      rw [Int.toNat_natCast, Function.update_self]
      exact onStream_opened env.fs (read_dentry_by_name_inode_num hfs hname) ops
    · refine h.same hlive hopen ?_ ?_
      · rw [htable, if_neg hnew]
      · rw [← hrec]
        refine Function.update_of_ne (fun heq => hnew ?_) _ _
        obtain ⟨hp, hi⟩ := Prod.mk.inj heq
        exact ⟨hp, hi.trans (Int.toNat_natCast index)⟩

theorem StreamInv.closed {fd r : Int} (h : StreamInv env.fs w)
    (hsys : system_close fd w.1 = some (r, w'.1)) (hrec : w.2 = w'.2) (hlive : live w.1 p)
    (hopen : OpenFile w'.1 p i) : OnStream env.fs (table w'.1 p i) (w'.2 (p, i)) := by
  refine h.same hlive hopen ?_ (congrFun hrec.symm (p, i))
  rcases system_close_cases hsys with hk | hk
  · exact congrArg (fun k => table k p i) hk
  · -- the one descriptor that was written is not in use
    have huse := hopen.2.2.1
    unfold table at huse ⊢
    rw [hk, set_fd_file_descriptors] at huse ⊢
    split at huse
    · exact absurd rfl huse
    · rename_i hne
      exact if_neg hne

theorem StreamInv.read {fd nbytes : Int} {buf : ℕ} {c : Control} {bytes : List UInt8}
    (h : StreamInv env.fs w) (hcurr : live w.1 w.1.curr_pid)
    (hfits : AskFits w (.read fd buf nbytes))
    (hsys : system_read env.fs fd buf nbytes w.1 = some (c, bytes, w'.1))
    (hrec : record_stream env w.1 (.read fd buf nbytes) w'.1 w.2 = w'.2) (hlive : live w.1 p)
    (hopen : OpenFile w'.1 p i) : OnStream env.fs (table w'.1 p i) (w'.2 (p, i)) := by
  simp only [record_stream, hsys] at hrec
  by_cases hfile : reads_file w.1 fd
  · rw [if_pos hfile] at hrec
    rw [system_read_of_file buf nbytes hfile, Option.some.injEq, Prod.mk.injEq, Prod.mk.injEq] at hsys
    obtain ⟨-, hbytes, hk⟩ := hsys
    obtain ⟨hpos, hsum⟩ := hfits hfile
    obtain ⟨n, rfl⟩ := Int.eq_ofNat_of_zero_le hpos
    have hfd : fd.toNat < FILE_DESCRIPTOR_MAX := by
      have := hfile.1.1
      omega
    have hnow := h.streams w.1.curr_pid fd.toNat ⟨hcurr, hfd, hfile.1.2, hfile.2⟩
    have htable : ∀ q j, table w'.1 q j = if q = w.1.curr_pid ∧ j = fd.toNat then
        { table w.1 q j with file_pos := i32 ((table w.1 q j).file_pos + n) }
        else table w.1 q j := by
      intro q j
      unfold table
      rw [← hk, set_fd_file_descriptors]
    by_cases hthis : p = w.1.curr_pid ∧ i = fd.toNat
    · obtain ⟨rfl, rfl⟩ := hthis
      have hnext := hnow.read (n := n) (by
        unfold descriptor at hsum
        omega)
      rw [htable, if_pos ⟨rfl, rfl⟩, ← hrec]
      unfold descriptor
      rw [Function.update_self, Int.toNat_natCast, ← hbytes, u32_of_lt (by omega)]
      exact hnext
    · refine h.same hlive hopen ?_ ?_
      · rw [htable, if_neg hthis]
      · rw [← hrec]
        refine Function.update_of_ne (fun heq => hthis ?_) _ _
        obtain ⟨hp, hi⟩ := Prod.mk.inj heq
        exact ⟨hp, hi⟩
  · rw [if_neg hfile] at hrec
    refine h.same hlive hopen ?_ (congrFun hrec.symm (p, i))
    unfold table
    rw [system_read_of_other hfile hsys]

/-- **One step** of any process keeps every stream. -/
theorem streamInv_step (hfs : ∀ i, (env.fs.boot_block.direntries i).inode_num < 4294967296)
    (w : Kernel × (ℕ × ℕ → stream)) (op : Op) (w' : Kernel × (ℕ × ℕ → stream))
    (h : StreamInv env.fs w) (hfits : AskFits w op) (hstep : stream_step env w op = some w') :
    StreamInv env.fs w' := by
  obtain ⟨hkstep, hrec⟩ := with_history_eq_some.mp hstep
  refine ⟨h.processes.step hkstep, fun p i hopen => ?_⟩
  obtain ⟨stack, hinv, -⟩ := h.processes
  obtain ⟨c, hperform⟩ := kstep_eq_some.mp hkstep
  have he := perform_effect hinv.flag hperform
  rcases hinv.live_or_started he hopen.1 with hnew | ⟨-, hlive⟩
  · cases op with
    | execute command fr =>
        obtain ⟨eip, hpcb⟩ := hinv.pcb_started he hnew
        have htable : table w'.1 p = new_fds (table w.1 p) := by
          unfold table
          rw [hpcb]
          rfl
        exact absurd hopen (not_openFile_new htable)
    | _ => cases hnew
  · by_cases hfiles : op.on_files
    · cases op with
      | «open» filename =>
          obtain ⟨⟨r, k₁⟩, hsys, heq⟩ := Option.map_eq_some_iff.mp hperform
          obtain ⟨-, rfl⟩ := Prod.mk.inj heq
          exact h.opened hfs hsys hrec hlive hopen
      | close fd =>
          obtain ⟨⟨r, k₁⟩, hsys, heq⟩ := Option.map_eq_some_iff.mp hperform
          obtain ⟨-, rfl⟩ := Prod.mk.inj heq
          exact h.closed hsys hrec hlive hopen
      | read fd buf nbytes =>
          obtain ⟨⟨c₁, bytes, k₁⟩, hsys, heq⟩ := Option.map_eq_some_iff.mp hperform
          obtain ⟨-, rfl⟩ := Prod.mk.inj heq
          exact h.read hinv.live_curr_pid hfits hsys hrec hlive hopen
      | _ => exact hfiles.elim
    · refine h.same hlive hopen (open_fd_same hinv he hfiles hlive hopen.2.2.1) ?_
      rw [← hrec, record_stream_of_ne hfiles]

/-! ## Runs -/

/-- What a read returns is the number of bytes it has stored, or `-1` for a wrong inode number. -/
def ReturnsCount (env : Env) (w : Kernel × (ℕ × ℕ → stream)) : Op → Prop
  | .read fd buf nbytes => reads_file w.1 fd → ∀ c bytes k',
      system_read env.fs fd buf nbytes w.1 = some (c, bytes, k') →
        c = if (w.2 (descriptor w.1 fd)).inode_num < env.fs.boot_block.inode_count then
          .ret bytes.length else .ret (-1)
  | _ => True

theorem StreamInv.returnsCount {op : Op} (h : StreamInv env.fs w) (hfits : AskFits w op) :
    ReturnsCount env w op := by
  cases op with
  | read fd buf nbytes =>
      intro hfile c bytes k' hsys
      obtain ⟨hpos, hsum⟩ := hfits hfile
      obtain ⟨n, rfl⟩ := Int.eq_ofNat_of_zero_le hpos
      have hfd : fd.toNat < FILE_DESCRIPTOR_MAX := by
        have := hfile.1.1
        omega
      obtain ⟨stack, hinv, -⟩ := h.processes
      have hnow := h.streams w.1.curr_pid fd.toNat ⟨hinv.live_curr_pid, hfd, hfile.1.2, hfile.2⟩
      rw [system_read_of_file buf _ hfile, Option.some.injEq, Prod.mk.injEq, Prod.mk.injEq] at hsys
      obtain ⟨rfl, rfl, -⟩ := hsys
      have hinode : u32 (named_fd w.1 fd).inode = (w.2 (descriptor w.1 fd)).inode_num := hnow.inode
      have hpos : (named_fd w.1 fd).file_pos = ((w.2 (descriptor w.1 fd)).asked : Int) := hnow.file_pos
      rw [hinode, hpos, u32_of_lt (by omega), u32_of_lt (by omega)]
      split
      · rename_i hino
        rw [read_data_fits hino (fun _ => by omega) (by omega), length_file_bytes]
      · rename_i hino
        rw [read_data_of_bad_inode (Nat.le_of_not_lt hino)]
  | _ => trivial

/-- Nothing has been opened yet. -/
def no_streams (_ : ℕ × ℕ) : stream := ⟨0, 0, []⟩

/-- The tables of the base shells are as they were set up. -/
theorem Started.new_tables {k : Kernel} (h : Started env k) :
    ∀ p, k.cur_processes p ≠ 0 → ∃ fds, table k p = new_fds fds := by
  refine h.invariant (P := fun k => ∀ p, k.cur_processes p ≠ 0 → ∃ fds, table k p = new_fds fds)
    (fun memory p hp => ?_) (fun fr k hk p hp => ?_) fun fr k k' hk hnew p hp => ?_
  · rw [(init_kernel_opening env memory).cur_processes, if_neg (Nat.not_lt_zero p)] at hp
    exact absurd rfl hp
  · rw [open_terminal_table]
    rw [open_terminal_cur_processes] at hp
    exact hk p hp
  · obtain ⟨pid, eip, hpid, rfl⟩ := new_process_execute hnew
    rw [table_create_process]
    split
    · exact ⟨_, rfl⟩
    · rename_i hne
      rw [create_process_cur_processes] at hp
      replace hp : Function.update k.cur_processes pid 1 p ≠ 0 := hp
      rw [Function.update_of_ne hne] at hp
      exact hk p hp

theorem streamInv_boot {k : Kernel} (h : Started env k) : StreamInv env.fs (k, no_streams) := by
  refine ⟨h.process_table, fun p i hopen => ?_⟩
  obtain ⟨fds, htable⟩ := h.new_tables p (by
    rw [hopen.1.2]
    decide)
  exact absurd hopen (not_openFile_new htable)

/-- **Files are streams.** Whatever the processes of the three terminals do, every open descriptor on
a regular file has delivered the first bytes of that file, as many as it was asked for or the file
has, and each of its reads has returned the number it delivered. -/
theorem files_are_streams {k₀ : Kernel} {ops : List Op} (hstart : Started env k₀)
    (hfs : ∀ i, (env.fs.boot_block.direntries i).inode_num < 4294967296)
    (hfits : AllSteps (stream_step env) AskFits (k₀, no_streams) ops) :
    AllStates (stream_step env) (fun w => ∀ p i, OpenFile w.1 p i → Whole env.fs (w.2 (p, i)))
        (k₀, no_streams) ops ∧
      AllSteps (stream_step env) (ReturnsCount env) (k₀, no_streams) ops := by
  have hboot := streamInv_boot hstart
  constructor
  · exact allStates_of_allSteps (StreamInv env.fs) (streamInv_step hfs)
      (fun _ h p i hopen => (h.streams p i hopen).whole) hboot hfits
  · exact hfits.mono (StreamInv env.fs) (streamInv_step hfs)
      (fun _ _ h hC => h.returnsCount hC) hboot

end

/-- Two shells that read the same file in turns. -/
theorem files_are_streams_demo :
    AllStates (stream_step demo_env)
        (fun w => ∀ p i, OpenFile w.1 p i → Whole demo_env.fs (w.2 (p, i))) (demo, no_streams)
        [.open (ascii "shell"), .read 2 demo_buf 10, .tick (demo_frame 3 3), .open (ascii "shell"),
          .read 2 demo_buf 25, .tick (demo_frame 4 4), .tick (demo_frame 5 5), .read 2 demo_buf 25] ∧
      AllSteps (stream_step demo_env) (ReturnsCount demo_env) (demo, no_streams)
        [.open (ascii "shell"), .read 2 demo_buf 10, .tick (demo_frame 3 3), .open (ascii "shell"),
          .read 2 demo_buf 25, .tick (demo_frame 4 4), .tick (demo_frame 5 5), .read 2 demo_buf 25] := by
  refine files_are_streams demo_started (fun i => ?_) (by decide +kernel)
  show (if i = 0 then (⟨c_str (ascii "."), 1, 0⟩ : dentry_t) else if i = 1 then
    ⟨c_str (ascii "shell"), 2, 0⟩ else ⟨fun _ => 0, 0, 0⟩).inode_num < 4294967296
  split
  · decide
  · split <;> decide

end LinuxLikeOS
