/-
A line, from the scan codes of the keyboard to the reader.

The keyboard's interrupt handler makes its calls one after the other, and interrupts are on again
after each of them, so that processes run, and terminals are switched, between two characters of
one tab. The next keyboard interrupt comes when the handler has sent its end of interrupt. The
results about the handler, about the line buffer and about the reader are put together here: what
is read is the line that a US keyboard types.
-/
import LinuxLikeOS.LineRead

set_option autoImplicit false

namespace LinuxLikeOS

open Kernel Transition LineEdit

/-! ## The kernel with its keyboard -/

/-- The kernel, the variables of the handlers, the calls that a handler has still to make, and the
keys that are down. No step reads the last one. -/
structure Board where
  kernel : Kernel
  kb : keyboard_t
  pending : List KeyCall
  held : Held

/-- A scan code arrives, the handler makes its next call, or something else happens. -/
inductive BoardOp
  | interrupt (e : scan)
  | call
  | console (op : ConsoleOp)

/-- Keys reach the consoles through the handler only. -/
def board_step (b : Board) : BoardOp → Option Board
  | .interrupt e =>
      if b.pending = [] then
        some { b with
          kb := (keyboard_handler e.printed_char e.code b.kb).1
          pending := (keyboard_handler e.printed_char e.code b.kb).2
          held := b.held.after e.code }
      else none
  | .call =>
      match b.pending with
      | [] => none
      | call :: calls => some { b with kernel := perform_call b.kernel call, pending := calls }
  | .console (.key _) => none
  | .console op => (console_step b.kernel op).map fun k => { b with kernel := k }

/-- What a US keyboard types. -/
def board_text : Held → List BoardOp → List UInt8
  | _, [] => []
  | held, .interrupt e :: ops => us_keyboard held e.code ++ board_text (held.after e.code) ops
  | held, _ :: ops => board_text held ops

/-- The step of the consoles in a step of the board. -/
def console_op (b : Board) : BoardOp → Option ConsoleOp
  | .interrupt _ => none
  | .call =>
      match b.pending with
      | [] => none
      | .edit_buffer response :: _ => some (.key response)
      | .switch_screen t :: _ => some (.switch_screen t)
  | .console op => some op

/-- The conditions on a scan code: no Shift key is released while the other one is down, and the
local variable does no harm behind the tables. -/
def ScansRight (b : Board) : BoardOp → Prop
  | .interrupt e => ShiftsApart b.held e.code ∧ LocalHarmless b.held e
  | _ => True

instance (b : Board) : (op : BoardOp) → Decidable (ScansRight b op)
  | .interrupt _ => inferInstanceAs (Decidable (_ ∧ _))
  | .call | .console _ => isTrue trivial

/-- The keys go to terminal `t`, whose reader is blocked. -/
def BoardTyping (t : Terminal) (b : Board) (op : BoardOp) : Prop :=
  ∀ op' ∈ console_op b op, WhileTyping t b.kernel op'

instance (t : Terminal) (b : Board) (op : BoardOp) : Decidable (BoardTyping t b op) :=
  inferInstanceAs (Decidable (∀ op' ∈ console_op b op, WhileTyping t b.kernel op'))

/-! ## One step -/

/-- What a step of the board can be. -/
inductive BoardStep (b : Board) : BoardOp → Board → Prop
  | interrupt (e : scan) (hnone : b.pending = []) :
      BoardStep b (.interrupt e)
        { b with
          kb := (keyboard_handler e.printed_char e.code b.kb).1
          pending := (keyboard_handler e.printed_char e.code b.kb).2
          held := b.held.after e.code }
  | key {response : UInt8} {calls : List KeyCall} (hnext : b.pending = .edit_buffer response :: calls) :
      BoardStep b .call { b with kernel := edit_buffer response b.kernel, pending := calls }
  | switch {t : Terminal} {calls : List KeyCall} (hnext : b.pending = .switch_screen t :: calls) :
      BoardStep b .call { b with kernel := switch_screen t b.kernel, pending := calls }
  | console {op : ConsoleOp} {k : Kernel} (hkey : ∀ response, op ≠ .key response)
      (hk : console_step b.kernel op = some k) : BoardStep b (.console op) { b with kernel := k }

section

variable {b b' : Board} {op : BoardOp} {t : Terminal}

theorem board_step_cases (hstep : board_step b op = some b') : BoardStep b op b' := by
  cases op with
  | interrupt e =>
      rw [board_step] at hstep
      split at hstep
      · rename_i hnone
        obtain rfl := Option.some.inj hstep
        exact .interrupt e hnone
      · cases hstep
  | call =>
      rw [board_step] at hstep
      split at hstep
      · cases hstep
      · rename_i call calls hnext
        obtain rfl := Option.some.inj hstep
        cases call with
        | edit_buffer response => exact .key hnext
        | switch_screen t => exact .switch hnext
  | console op =>
      have hkey : ∀ response, op ≠ .key response := by
        rintro response rfl
        cases hstep
      have hmap : board_step b (.console op)
          = (console_step b.kernel op).map fun k => { b with kernel := k } := by
        cases op with
        | key response => exact absurd rfl (hkey response)
        | _ => rfl
      rw [hmap] at hstep
      obtain ⟨k, hk, rfl⟩ := Option.map_eq_some_iff.mp hstep
      exact .console hkey hk

/-- The flags stay those of the keys that are down. -/
theorem keyboardInv_step (h : KeyboardInv b.kb b.held) (hscan : ScansRight b op)
    (hstep : board_step b op = some b') : KeyboardInv b'.kb b'.held := by
  cases board_step_cases hstep with
  | interrupt e hnone => exact (h.handler hscan.1 hscan.2).1
  | key hnext => exact h
  | switch hnext => exact h
  | console hkey hk => exact h

/-- The text of a run is the text of its first step and the text of the rest. -/
theorem board_text_cons (hstep : board_step b op = some b') (ops : List BoardOp) :
    board_text b.held (op :: ops) = board_text b.held [op] ++ board_text b'.held ops := by
  cases board_step_cases hstep with
  | interrupt e hnone =>
      simp only [board_text, List.append_nil]
  | key hnext => rfl
  | switch hnext => rfl
  | console hkey hk => rfl

/-- **A step of the board is a step of the consoles or none.** What has been typed is what has
reached the consoles and what the handler has still to pass on. -/
theorem board_step_console (h : KeyboardInv b.kb b.held) (hscan : ScansRight b op)
    (htyping : BoardTyping t b op) (hstep : board_step b op = some b') :
    ∃ cops, run console_step b.kernel cops = some b'.kernel ∧
      AllSteps console_step (WhileTyping t) b.kernel cops ∧
      keys_typed cops ++ passed b'.pending = passed b.pending ++ board_text b.held [op] := by
  have hone : ∀ op' k', console_op b op = some op' → console_step b.kernel op' = some k' →
      run console_step b.kernel [op'] = some k' ∧
        AllSteps console_step (WhileTyping t) b.kernel [op'] := by
    intro op' k' hop hk
    exact ⟨run_cons_eq_some.mpr ⟨k', hk, rfl⟩, htyping op' hop, fun _ _ => trivial⟩
  cases board_step_cases hstep with
  | interrupt e hnone =>
      refine ⟨[], rfl, trivial, ?_⟩
      -- the handler's calls are what the keyboard types
      rw [hnone]
      simp only [board_text, List.append_nil]
      exact (h.handler hscan.1 hscan.2).2
  | @key response calls hnext =>
      obtain ⟨hrun, hall⟩ := hone (.key response) _ (by unfold console_op; rw [hnext]) rfl
      refine ⟨_, hrun, hall, ?_⟩
      rw [hnext]
      exact (List.append_nil _).symm
  | @switch u calls hnext =>
      obtain ⟨hrun, hall⟩ := hone (.switch_screen u) _ (by unfold console_op; rw [hnext]) rfl
      refine ⟨_, hrun, hall, ?_⟩
      rw [hnext]
      exact (List.append_nil _).symm
  | @console op k hkey hk =>
      obtain ⟨hrun, hall⟩ := hone op k rfl hk
      refine ⟨_, hrun, hall, ?_⟩
      have hnone : keys_typed [op] = [] := by
        cases op with
        | key response => exact absurd rfl (hkey response)
        | _ => rfl
      rw [hnone]
      exact (List.append_nil _).symm

end

/-! ## Runs -/

section

variable {b b' : Board} {t : Terminal}

/-- **A run of the board is a run of the consoles**, by induction: the keys in it are what has
been typed, up to the calls that are still pending. -/
theorem board_run_console {ops : List BoardOp} (h : KeyboardInv b.kb b.held)
    (hscan : AllSteps board_step ScansRight b ops)
    (htyping : AllSteps board_step (BoardTyping t) b ops) (hrun : run board_step b ops = some b') :
    ∃ cops, run console_step b.kernel cops = some b'.kernel ∧
      AllSteps console_step (WhileTyping t) b.kernel cops ∧
      keys_typed cops ++ passed b'.pending = passed b.pending ++ board_text b.held ops := by
  induction ops generalizing b with
  | nil =>
      obtain rfl := Option.some.inj hrun
      exact ⟨[], rfl, trivial, (List.append_nil _).symm⟩
  | cons op ops ih =>
      obtain ⟨b₁, hstep, hrest⟩ := run_cons_eq_some.mp hrun
      obtain ⟨cops₁, hrun₁, hall₁, htext₁⟩ := board_step_console h hscan.1 htyping.1 hstep
      obtain ⟨cops, hrun₂, hall₂, htext₂⟩ := ih (keyboardInv_step h hscan.1 hstep)
        (hscan.2 b₁ hstep) (htyping.2 b₁ hstep) hrest
      refine ⟨cops₁ ++ cops, run_append hrun₁ hrun₂, hall₁.append hrun₁ hall₂, ?_⟩
      have hkeys : keys_typed (cops₁ ++ cops) = keys_typed cops₁ ++ keys_typed cops :=
        List.filterMap_append
      -- what the first step has typed, and then the rest
      calc keys_typed (cops₁ ++ cops) ++ passed b'.pending
          = keys_typed cops₁ ++ (keys_typed cops ++ passed b'.pending) := by
            rw [hkeys, List.append_assoc]
        _ = (keys_typed cops₁ ++ passed b₁.pending) ++ board_text b₁.held ops := by
            rw [htext₂, List.append_assoc]
        _ = passed b.pending ++ board_text b.held (op :: ops) := by
            rw [htext₁, List.append_assoc, board_text_cons hstep ops]

/-- **The line is typed into the terminal** of the process that is blocked in `read`. -/
theorem board_typed {b₀ b₁ : Board} {before ops : List BoardOp} {keys : List LineKey}
    (hstart : (b₀.kb, b₀.held) = keyboard_start)
    (hscan : AllSteps board_step ScansRight b₀ (before ++ ops))
    (hbefore : run board_step b₀ before = some b₁) (hpending : b₁.pending = [])
    (hread : ReadBegun (b₁.kernel.terminal_array t))
    (htyping : AllSteps board_step (BoardTyping t) b₁ ops) (hrun : run board_step b₁ ops = some b')
    (hdone : b'.pending = []) (hok : ∀ key ∈ keys, key.ok)
    (htext : board_text b₁.held ops = key_bytes keys ++ [ENTER_KEY]) :
    Typed (b'.kernel.terminal_array t) (key_bytes keys ++ [ENTER_KEY]) := by
  obtain ⟨hscan₁, hscan₂⟩ := hscan.split hbefore
  have hinv₀ : KeyboardInv b₀.kb b₀.held := by
    obtain ⟨hkb, hheld⟩ := Prod.mk.inj hstart
    rw [hkb, hheld]
    exact keyboardInv_start
  have hinv : KeyboardInv b₁.kb b₁.held :=
    (allStates_of_allSteps (fun b => KeyboardInv b.kb b.held)
      (fun _ _ _ h hs hstep => keyboardInv_step h hs hstep) (fun _ h => h) hinv₀ hscan₁).last hbefore
  obtain ⟨cops, hcrun, hcall, hkeys⟩ := board_run_console hinv hscan₂ htyping hrun
  rw [hpending, hdone, htext] at hkeys
  have hnone : passed [] = [] := rfl
  rw [hnone, List.append_nil, List.nil_append] at hkeys
  have hbytes : ∀ c, c ∈ key_bytes keys → c ≠ 0 ∧ c ≠ CTL_L_CMD ∧ c ≠ ENTER_KEY := by
    intro c hc
    obtain ⟨h₀, h₁, h₂, -⟩ := mem_key_bytes hok hc
    exact ⟨h₀, h₁, h₂⟩
  exact hread.typed.run hcall hcrun (by rw [List.nil_append, hkeys]) hbytes

/-- What is read then is the line that the keys make. -/
theorem Typed.reads_keys {k : Kernel} {keys : List LineKey} {nbytes : Int}
    (h : Typed (k.terminal_array k.curr_terminal) (key_bytes keys ++ [ENTER_KEY]))
    (hok : ∀ key ∈ keys, key.ok) (hn : 0 < nbytes) (buf : ℕ → UInt8) :
    ReadsLine (held_line keys) nbytes buf k := by
  have hreads := h.reads (fun hmem => (mem_key_bytes hok (mem_of_mem_edited hmem)).2.2.2 rfl) hn buf
  rwa [line_text_key_bytes hok] at hreads

/-- **The reader gets the line that was typed on the keyboard.** From the start of the keyboard,
after any scan codes; then a line is typed on the terminal of a process that is blocked in `read`.
Whatever is scheduled and displayed between the interrupts and within them, the process gets what
a US keyboard types for the codes, as it was edited, cut to the size asked for. -/
theorem line_typed_through {b₀ b₁ : Board} {before ops : List BoardOp} {keys : List LineKey}
    {nbytes : Int} (hstart : (b₀.kb, b₀.held) = keyboard_start)
    (hscan : AllSteps board_step ScansRight b₀ (before ++ ops))
    (hbefore : run board_step b₀ before = some b₁) (hpending : b₁.pending = [])
    (hread : ReadBegun (b₁.kernel.terminal_array t))
    (htyping : AllSteps board_step (BoardTyping t) b₁ ops) (hrun : run board_step b₁ ops = some b')
    (hdone : b'.pending = []) (hok : ∀ key ∈ keys, key.ok)
    (htext : board_text b₁.held ops = key_bytes keys ++ [ENTER_KEY])
    (ht : b'.kernel.curr_terminal = t) (hn : 0 < nbytes) (buf : ℕ → UInt8) :
    ReadsLine (held_line keys) nbytes buf b'.kernel := by
  have htyped := board_typed hstart hscan hbefore hpending hread htyping hrun hdone hok htext
  subst ht
  exact htyped.reads_keys hok hn buf

/-- The boards that type "A", a tab that is interrupted, "b", and two backspaces, and complete the
line. -/
def demo_typing : List BoardOp :=
  [.interrupt ⟨LEFT_SHIFT_PRESSED, 0⟩, .interrupt ⟨0x1E, 0⟩, .call, .interrupt ⟨0x9E, 0⟩,
    .interrupt ⟨LEFT_SHIFT_RELEASED, 0⟩, .interrupt ⟨TAB_PRESSED, 0⟩, .call, .call,
    .console .tick, .console (.putc 0x78), .call, .call, .interrupt ⟨0x30, 0⟩, .call,
    .console (.switch_screen 1), .console .tick, .console (.switch_screen 0),
    .interrupt ⟨BACKSPACE_PRESSED, 0⟩, .call, .interrupt ⟨BACKSPACE_PRESSED, 0⟩, .call,
    .console .tick, .interrupt ⟨ENTER_PRESESED, 0⟩, .call]

theorem line_typed_through_demo : ∃ b₁ b,
    run board_step ⟨demo, keyboard_start.1, [], keyboard_start.2⟩
      [.console .tick, .console (.read_begin demo_buf 4)] = some b₁ ∧
    run board_step b₁ demo_typing = some b ∧
    ReadsLine (held_line [.char 0x41, .tab, .char 0x62, .backspace, .backspace]) 4 (fun _ => 0)
      b.kernel := by
  have hsome : ((run board_step ⟨demo, keyboard_start.1, [], keyboard_start.2⟩
      [.console .tick, .console (.read_begin demo_buf 4)]).bind fun b₁ =>
        run board_step b₁ demo_typing).isSome = true := by decide +kernel
  obtain ⟨b, hb⟩ := Option.isSome_iff_exists.mp hsome
  obtain ⟨b₁, hbefore, hrun⟩ := Option.bind_eq_some_iff.mp hb
  have hfirst : ∀ b₁ ∈ run board_step ⟨demo, keyboard_start.1, [], keyboard_start.2⟩
      [.console .tick, .console (.read_begin demo_buf 4)],
        b₁.pending = [] ∧ AllSteps board_step (BoardTyping 0) b₁ demo_typing ∧
        board_text b₁.held demo_typing
          = key_bytes [.char 0x41, .tab, .char 0x62, .backspace, .backspace] ++ [ENTER_KEY] ∧
        (b₁.kernel.terminal_array 0).waitingInRead = 1 ∧
        (b₁.kernel.terminal_array 0).enter_flag = 0 ∧
        (b₁.kernel.terminal_array 0).buffer_size = 0 := by decide +kernel
  have hlast : ∀ b ∈ run board_step ⟨demo, keyboard_start.1, [], keyboard_start.2⟩
      ([.console .tick, .console (.read_begin demo_buf 4)] ++ demo_typing),
        b.pending = [] ∧ b.kernel.curr_terminal = 0 := by decide +kernel
  obtain ⟨hpending, htyping, htext, hwaiting, hflag, hsize⟩ := hfirst b₁ hbefore
  obtain ⟨hdone, hcurr⟩ := hlast b (run_append hbefore hrun)
  exact ⟨b₁, b, hbefore, hrun, line_typed_through rfl (by decide +kernel) hbefore hpending
    ⟨hwaiting, hflag, hsize⟩ htyping hrun hdone (by decide) htext hcurr (by decide) _⟩

end

end LinuxLikeOS
