/-
`ece391shell.c`, and a command on its way from the keyboard to a running program.

The shell takes the line break off the line it has read, leaves when the line is "exit", asks again
when it is empty, and hands everything else to `execute`. The results about the keyboard handler,
the line buffer, the reader, the command parser and the loader are put together with that: what is
typed at a shell is the program that runs, with the rest of the line as its arguments.
-/
import LinuxLikeOS.GetArgs
import LinuxLikeOS.Loader
import LinuxLikeOS.ScanLines
import LinuxLikeOS.Support

set_option autoImplicit false

namespace LinuxLikeOS

open Kernel Transition LineEdit

/-! ## The shell -/

/-- What the loop of `main` does after its `read`. -/
inductive shell_action
  /-- `return` from `main`. -/
  | leave (status : Int)
  /-- The prompt is printed again. -/
  | prompt
  | execute (command : ℕ → UInt8)

/-- The body of the loop, from the value and the buffer that `read` has left. -/
def shell_line (cnt : Int) (buf : ℕ → UInt8) : shell_action :=
  if cnt = -1 then .leave 3
  else
    let cnt := cnt.toNat
    let cnt := if cnt > 0 ∧ buf (cnt - 1) = END_OF_LINE then cnt - 1 else cnt
    let buf := Function.update buf cnt 0
    if ece391_strcmp buf (c_str (ascii "exit")) = 0 then .leave 0
    else if buf 0 = 0 then .prompt
    else .execute buf

/-- The size of its `read`. -/
def SHELL_READ : Int := 1023

/-! ## Lines as commands -/

section

variable {text : List UInt8} {buf : ℕ → UInt8} {k : Kernel}

/-- A line as `read` leaves it: its bytes, and a line break behind them. -/
structure EnteredLine (buf : ℕ → UInt8) (text : List UInt8) : Prop where
  no_terminator : (0 : UInt8) ∉ text
  length_lt : text.length < MAX_BUF_SIZE
  bytes : ∀ i (hi : i < text.length), buf i = text[i]
  line_break : buf text.length = END_OF_LINE

/-- **The shell takes the line for what it says.** -/
theorem EnteredLine.shell_line (h : EnteredLine buf text) :
    ∃ command, TextAt command text ∧ shell_line ((text.length + 1 : ℕ) : Int) buf =
      if text = ascii "exit" then .leave 0 else if text = [] then .prompt else .execute command := by
  have hmax : MAX_BUF_SIZE = 128 := rfl
  have hlen := h.length_lt
  have hcommand : TextAt (Function.update buf text.length 0) text := by
    refine ⟨h.no_terminator, by omega, fun i hi => ?_⟩
    by_cases hend : i = text.length
    · rw [hend, Function.update_self, c_str_end (Nat.le_refl _)]
    · rw [Function.update_of_ne hend, h.bytes i (by omega), c_str_eq (by omega)]
  have hexit : TextAt (c_str (ascii "exit")) (ascii "exit") := .c_str (by decide) (by decide)
  have hempty : Function.update buf text.length 0 0 = 0 ↔ text = [] := by
    constructor
    · intro hzero
      by_contra hne
      exact hcommand.ne_zero (List.length_pos_iff.mpr hne) hzero
    · rintro rfl
      exact hcommand.end_eq
  have hcut : (if text.length + 1 > 0 ∧ buf (text.length + 1 - 1) = END_OF_LINE then
      text.length + 1 - 1 else text.length + 1) = text.length := if_pos ⟨Nat.succ_pos _, h.line_break⟩
  refine ⟨_, hcommand, ?_⟩
  unfold LinuxLikeOS.shell_line
  rw [if_neg (by omega), Int.toNat_natCast]
  dsimp only
  rw [hcut]
  simp only [hcommand.strcmp_eq_zero hexit, hempty]

/-- A line that is read by the shell is complete. -/
theorem ReadsLine.enteredLine (h : ReadsLine text SHELL_READ buf k) (hzero : (0 : UInt8) ∉ text)
    (hlen : text.length < MAX_BUF_SIZE) :
    (terminal_read_end SHELL_READ buf k).1 = text.length + 1 ∧
      EnteredLine (terminal_read_end SHELL_READ buf k).2.1 text := by
  have hmax : MAX_BUF_SIZE = 128 := rfl
  have hsize : SHELL_READ.toNat = 1023 := rfl
  have hcount : (terminal_read_end SHELL_READ buf k).1 = text.length + 1 := by
    have hreturned := h.returned
    omega
  refine ⟨hcount, hzero, hlen, fun i hi => ?_, ?_⟩
  · have hbyte := h.chars i (by omega)
    rw [List.getElem?_eq_getElem hi, Option.some.injEq] at hbyte
    exact hbyte
  · have hbreak := h.line_break
    rwa [hcount, Nat.add_sub_cancel] at hbreak

/-- A line that was typed fits the buffer and has no terminator in it. -/
theorem held_line_spec {keys : List LineKey} (hok : ∀ key ∈ keys, key.ok) :
    (0 : UInt8) ∉ held_line keys ∧ (held_line keys).length < MAX_BUF_SIZE := by
  have hmax : MAX_BUF_SIZE = 128 := rfl
  have hline := line_text_key_bytes hok
  rw [← hline]
  constructor
  · intro hmem
    exact (mem_key_bytes hok (mem_of_mem_edited hmem)).1 rfl
  · have hle : (line_text (key_bytes keys)).length ≤ MAX_BUF_SIZE - 1 := length_edited_le _
    omega

end

/-! ## The program that is started -/

section

variable {env : Env} {fr : frame} {k k' : Kernel} {text : List UInt8} {d : dentry_t} {pid : ℕ}

theorem link_parent_args (pid : ℕ) (fr : frame) (k : Kernel) :
    ((link_parent pid fr k).pcb pid).args = (k.pcb pid).args := by
  unfold link_parent
  split
  · simp only [set_terminal_pcb, set_pcb_apply, if_true]
  · by_cases hparent : pid = (k.terminal_array k.screen_terminal).pid
    · simp [set_pcb_apply, ← hparent]
    · simp [set_pcb_apply, hparent]

/-- The displayed terminal gets the new process, or the scheduled one at the boot. -/
theorem link_parent_pid (pid : ℕ) (fr : frame) (hshown : k.screen_terminal = k.curr_terminal) :
    (link_parent pid fr k).curr_terminal = k.curr_terminal ∧
      ((link_parent pid fr k).terminal_array k.curr_terminal).pid = pid := by
  unfold link_parent
  split
  · refine ⟨rfl, ?_⟩
    dsimp only
    rw [set_terminal_apply, if_pos rfl]
  · refine ⟨rfl, ?_⟩
    dsimp only
    rw [set_pcb_terminal_array, set_terminal_apply, if_pos hshown.symm]

/-- A new process runs on the terminal that is scheduled when that one is displayed. -/
theorem create_process_runs (pid args eip : ℕ) (fr : frame) (hshown : k.screen_terminal = k.curr_terminal) :
    (create_process pid args eip fr k).curr_pid = pid ∧
      ((create_process pid args eip fr k).pcb pid).args = args := by
  unfold create_process
  extract_lets k₁
  obtain ⟨hcurr, hpid⟩ := link_parent_pid pid fr (k := k₁) hshown
  have hargs : (k₁.pcb pid).args = args := by
    show ((k.set_pcb pid _).pcb pid).args = args
    rw [set_pcb_apply, if_pos rfl]
  rw [context_switch_eq]
  constructor
  · show ((link_parent pid fr k₁).terminal_array (link_parent pid fr k₁).curr_terminal).pid = pid
    rw [hcurr]
    exact hpid
  · show ((init_pcb pid eip (link_parent pid fr k₁)).pcb pid).args = args
    unfold init_pcb
    rw [set_pcb_apply, if_pos rfl]
    exact (link_parent_args pid fr k₁).trans hargs

/-- A command whose first word names a program. -/
structure NamesProgram (env : Env) (text : List UInt8) (d : dentry_t) : Prop where
  word : leading_spaces text + (first_word text).length < FILENAME_LEN
  found : read_dentry_by_name env.fs (c_str (first_word text)) = some d
  program : Program env.fs d

/-- **A command that names a program starts it** at its entry point, with the rest of the command
as its arguments. -/
theorem NamesProgram.execute (fr : frame) (h : NamesProgram env text d) (hzero : (0 : UInt8) ∉ text)
    (hlen : text.length < MAX_BUF_SIZE) (hfree : free_pid k = some pid) (hfits : fits_page env k pid d)
    (hshown : k.screen_terminal = k.curr_terminal) :
    ∃ k', system_execute env (some text) fr k = some (.iret (entry_point env.fs d fr), k') ∧
      k'.curr_pid = pid ∧ ArgsString (rest_text text) k' := by
  have hmax : MAX_BUF_SIZE = 128 := rfl
  have hname : command_name text = first_word text := by
    have hword := h.word
    rw [command_name_eq hzero]
    exact List.take_of_length_le (by omega)
  have hargs : command_args text = rest_text text := by
    rw [command_args_eq hzero, if_pos h.word]
  have hprog : find_program env.fs fr (command_name text) = some d := by
    rw [hname]
    exact h.program.find h.found
  have hloads : ∃ k', system_execute env (some text) fr k = some (.iret (entry_point env.fs d fr), k') ∧
      k'.paging = process_page pid k.paging ∧ (k'.pcb pid).eip = entry_point env.fs d fr :=
    system_execute_loads hprog hfree hfits
  obtain ⟨k', hexec, -, -⟩ := hloads
  have hpid : started_pid env fr (some text) k = some pid := by
    unfold started_pid
    simp only [hprog, hfree]
  obtain ⟨eip, -, rfl⟩ := system_execute_starts hexec hpid
  have hscreen : (claim_slot pid { k with kernel_mem := execute_mem env (some text) k.kernel_mem }).screen_terminal
      = (claim_slot pid { k with
          kernel_mem := execute_mem env (some text) k.kernel_mem }).curr_terminal := hshown
  obtain ⟨hcurr, hptr⟩ := create_process_runs pid env.link.empty_string eip fr hscreen
  refine ⟨_, hexec, hcurr, ?_, ?_, fun i hi => ?_⟩
  · intro hmem
    refine hzero ?_
    unfold rest_text at hmem
    have hdrop := (List.rdropWhile_prefix is_space _).subset hmem
    exact (List.dropWhile_sublist _).subset ((List.dropWhile_sublist _).subset
      ((List.dropWhile_sublist _).subset hdrop))
  · have hsub : (rest_text text).length ≤ text.length := by
      unfold rest_text
      exact ((List.rdropWhile_prefix is_space _).length_le.trans (List.length_dropWhile_le _ _)).trans
        ((List.length_dropWhile_le _ _).trans (List.length_dropWhile_le _ _))
    unfold ADDRESS_SPACE
    omega
  · unfold args_text get_pcb
    rw [hcurr, hptr]
    rw [← hargs] at hi ⊢
    exact system_execute_stores hexec hi

/-- **What is typed at a shell is run.** From the start of the keyboard, after any scan codes, a line
is typed on the terminal of a shell that is blocked in `read`, in any order with what else happens.
If the shell's terminal is displayed when it gets the line, and the first word names a program for
which there is a slot and room, the shell hands the line to `execute`, and the program runs on that
terminal with the rest of the line as its arguments. -/
theorem typed_command_runs {b₀ b₁ b' : Board} {before ops : List BoardOp} {keys : List LineKey}
    {t : Terminal} (hstart : (b₀.kb, b₀.held) = keyboard_start)
    (hscan : AllSteps board_step ScansRight b₀ (before ++ ops))
    (hbefore : run board_step b₀ before = some b₁) (hpending : b₁.pending = [])
    (hread : ReadBegun (b₁.kernel.terminal_array t))
    (htyping : AllSteps board_step (BoardTyping t) b₁ ops) (hrun : run board_step b₁ ops = some b')
    (hdone : b'.pending = []) (hok : ∀ key ∈ keys, key.ok)
    (htext : board_text b₁.held ops = key_bytes keys ++ [ENTER_KEY])
    (ht : b'.kernel.curr_terminal = t) (hshown : b'.kernel.screen_terminal = t)
    (hexit : held_line keys ≠ ascii "exit") (hprogram : NamesProgram env (held_line keys) d)
    (hfree : free_pid b'.kernel = some pid) (hfits : fits_page env b'.kernel pid d) (buf : ℕ → UInt8)
    (fr : frame) :
    ∃ command k', shell_line (terminal_read_end SHELL_READ buf b'.kernel).1
        (terminal_read_end SHELL_READ buf b'.kernel).2.1 = .execute command ∧
      string_at command = held_line keys ∧
      system_execute env (some (string_at command)) fr (terminal_read_end SHELL_READ buf b'.kernel).2.2
        = some (.iret (entry_point env.fs d fr), k') ∧
      k'.curr_pid = pid ∧ ArgsString (rest_text (held_line keys)) k' := by
  have htyped := board_typed hstart hscan hbefore hpending hread htyping hrun hdone hok htext
  subst ht
  obtain ⟨hzero, hlen⟩ := held_line_spec hok
  obtain ⟨hcount, hline⟩ := (htyped.reads_keys hok (by decide) buf).enteredLine hzero hlen
  obtain ⟨command, hcommand, hshell⟩ := hline.shell_line
  -- there is no program without a name
  have hne : held_line keys ≠ [] := by
    intro hnil
    have hfind : find_program env.fs fr (first_word (held_line keys)) = some d :=
      hprogram.program.find hprogram.found
    have hword : first_word (held_line keys) = [] := by
      rw [hnil]
      rfl
    rw [hword, find_program_empty] at hfind
    cases hfind
  rw [if_neg hexit, if_neg hne] at hshell
  have htext := hcommand.string_at
  obtain ⟨k', hexec, hcurr, hargs⟩ := hprogram.execute fr
    (k := (terminal_read_end SHELL_READ buf b'.kernel).2.2) hzero hlen hfree hfits hshown
  refine ⟨command, k', ?_, htext, ?_, hcurr, hargs⟩
  · rw [hcount]
    exact hshell
  · rw [htext]
    exact hexec

end

/-- The boards that type "shell b", with a key that is taken back and a timer interrupt. -/
def demo_command : List BoardOp :=
  [.interrupt ⟨0x1F, 0⟩, .call, .interrupt ⟨0x23, 0⟩, .call, .interrupt ⟨0x12, 0⟩, .call,
    .console .tick, .interrupt ⟨0x26, 0⟩, .call, .interrupt ⟨0x26, 0⟩, .call,
    .interrupt ⟨0x1E, 0⟩, .call, .interrupt ⟨BACKSPACE_PRESSED, 0⟩, .call, .interrupt ⟨0x39, 0⟩, .call,
    .interrupt ⟨0x30, 0⟩, .call, .console .tick, .console .tick, .interrupt ⟨ENTER_PRESESED, 0⟩, .call]

theorem typed_command_runs_demo : ∃ b₁ b' command k',
    run board_step ⟨demo, keyboard_start.1, [], keyboard_start.2⟩
      [.console .tick, .console (.read_begin demo_buf SHELL_READ)] = some b₁ ∧
    run board_step b₁ demo_command = some b' ∧
    shell_line (terminal_read_end SHELL_READ (fun _ => 0) b'.kernel).1
      (terminal_read_end SHELL_READ (fun _ => 0) b'.kernel).2.1 = .execute command ∧
    system_execute demo_env (some (string_at command)) (demo_frame 3 3)
        (terminal_read_end SHELL_READ (fun _ => 0) b'.kernel).2.2 = some (.iret 0x08048018, k') ∧
    k'.curr_pid = 3 ∧ ArgsString (ascii "b") k' := by
  have hsome : ((run board_step ⟨demo, keyboard_start.1, [], keyboard_start.2⟩
      [.console .tick, .console (.read_begin demo_buf SHELL_READ)]).bind fun b₁ =>
        run board_step b₁ demo_command).isSome = true := by decide +kernel
  obtain ⟨b, hb⟩ := Option.isSome_iff_exists.mp hsome
  obtain ⟨b₁, hbefore, hrun⟩ := Option.bind_eq_some_iff.mp hb
  have hfirst : ∀ b₁ ∈ run board_step ⟨demo, keyboard_start.1, [], keyboard_start.2⟩
      [.console .tick, .console (.read_begin demo_buf SHELL_READ)],
        b₁.pending = [] ∧ AllSteps board_step (BoardTyping 0) b₁ demo_command ∧
        board_text b₁.held demo_command = key_bytes [.char 0x73, .char 0x68, .char 0x65, .char 0x6C,
          .char 0x6C, .char 0x61, .backspace, .char 0x20, .char 0x62] ++ [ENTER_KEY] ∧
        (b₁.kernel.terminal_array 0).waitingInRead = 1 ∧
        (b₁.kernel.terminal_array 0).enter_flag = 0 ∧
        (b₁.kernel.terminal_array 0).buffer_size = 0 := by decide +kernel
  have hlast : ∀ b ∈ run board_step ⟨demo, keyboard_start.1, [], keyboard_start.2⟩
      ([.console .tick, .console (.read_begin demo_buf SHELL_READ)] ++ demo_command),
        b.pending = [] ∧ b.kernel.curr_terminal = 0 ∧ b.kernel.screen_terminal = 0 ∧
        free_pid b.kernel = some 3 ∧
        loadable demo_env.link (process_page 3 b.kernel.paging)
          (read_data demo_env.fs 0 0 FOUR_MB).2.length = true := by decide +kernel
  obtain ⟨hpending, htyping, htext, hwaiting, hflag, hsize⟩ := hfirst b₁ hbefore
  obtain ⟨hdone, hcurr, hshown, hfree, hfits⟩ := hlast b (run_append hbefore hrun)
  have hline : held_line [.char 0x73, .char 0x68, .char 0x65, .char 0x6C, .char 0x6C, .char 0x61,
      .backspace, .char 0x20, .char 0x62] = ascii "shell b" := by decide
  have hprogram : NamesProgram demo_env (ascii "shell b") ⟨c_str (ascii "shell"), 2, 0⟩ :=
    ⟨by decide, rfl, ⟨rfl, by decide, by decide⟩, by decide⟩
  have hpage : fits_page demo_env b.kernel 3 ⟨c_str (ascii "shell"), 2, 0⟩ := by
    unfold fits_page
    exact hfits
  obtain ⟨command, k', hshell, -, hexec, hpid, hargs⟩ := typed_command_runs
    rfl (by decide +kernel) hbefore hpending ⟨hwaiting, hflag, hsize⟩ htyping hrun hdone (by decide)
    htext hcurr hshown (by rw [hline]; decide) (hline ▸ hprogram) hfree hpage (fun _ => 0)
    (demo_frame 3 3)
  have hentry : entry_point demo_env.fs ⟨c_str (ascii "shell"), 2, 0⟩ (demo_frame 3 3) = 0x08048018 := by
    decide +kernel
  have hrest : rest_text (ascii "shell b") = ascii "b" := by decide
  rw [hentry] at hexec
  rw [hline, hrest] at hargs
  exact ⟨b₁, b, command, k', hbefore, hrun, hshell, hexec, hpid, hargs⟩

end LinuxLikeOS
