/-
One line, from its first key to its reader.

A process is blocked in `terminal_read`, and a line is typed on its terminal and completed
with ENTER. What the other processes do meanwhile, and in which order, does not matter, and
neither do the bytes that earlier lines have left in the buffer: the reader gets the line
as it was edited, cut to the size it asked for, and leaves the terminal as it found it.
-/
import LinuxLikeOS.Keyboard
import LinuxLikeOS.LineInput

set_option autoImplicit false

namespace LinuxLikeOS

open Kernel Transition LineEdit

/-! ## The keys of a line -/

/-- What is typed before ENTER. -/
inductive LineKey
  | char (c : UInt8)
  | tab
  | backspace

def printable (c : UInt8) : Prop := 0x20 ≤ c.toNat ∧ c.toNat ≤ 0x7E

/-- The characters are printable ones. -/
def LineKey.ok : LineKey → Prop
  | .char c => printable c
  | .tab | .backspace => True

instance (c : UInt8) : Decidable (printable c) := inferInstanceAs (Decidable (_ ∧ _))

instance : (key : LineKey) → Decidable key.ok
  | .char c => inferInstanceAs (Decidable (printable c))
  | .tab | .backspace => isTrue trivial

/-- The calls of the keyboard's handlers for a key. -/
def LineKey.calls : LineKey → List KeyCall
  | .char c => [.edit_buffer c]
  | .tab => tab_key_handler
  | .backspace => backspace_handler

/-- A character is added to a line of fewer than 127. -/
def add_to_line (line : List UInt8) (c : UInt8) : List UInt8 :=
  if line.length < MAX_BUF_SIZE - 1 then line ++ [c] else line

/-- The line after one more key. A tab counts as four spaces. -/
def LineKey.edit (line : List UInt8) : LineKey → List UInt8
  | .char c => add_to_line line c
  | .tab => (List.replicate 4 SPACE_ASCII).foldl add_to_line line
  | .backspace => line.dropLast

/-- The line that the keys make. -/
def held_line (keys : List LineKey) : List UInt8 := keys.foldl LineKey.edit []

/-- The bytes that the keys pass to `edit_buffer`. -/
def key_bytes (keys : List LineKey) : List UInt8 := passed (keys.flatMap LineKey.calls)

/-- The keys among the steps of the consoles. -/
def keys_typed (ops : List ConsoleOp) : List UInt8 :=
  ops.filterMap fun
    | .key response => some response
    | _ => none

theorem printable_ne {c : UInt8} (h : printable c) :
    c ≠ 0 ∧ c ≠ CTL_L_CMD ∧ c ≠ BACKSPACE_PRESSED ∧ c ≠ ENTER_KEY ∧ c ≠ END_OF_LINE := by
  have hne : ∀ b : UInt8, ¬ printable b → c ≠ b := fun b hb heq => hb (heq ▸ h)
  unfold printable at hne
  exact ⟨hne _ (by decide), hne _ (by decide), hne _ (by decide), hne _ (by decide),
    hne _ (by decide)⟩

theorem passed_append (calls calls' : List KeyCall) :
    passed (calls ++ calls') = passed calls ++ passed calls' := List.filterMap_append

/-- A key that is no backspace is added to the line. -/
theorem edit_eq_add {c : UInt8} (hc : c ≠ BACKSPACE_PRESSED) (line : List UInt8) :
    LineEdit.edit BACKSPACE_PRESSED (MAX_BUF_SIZE - 1) line c = add_to_line line c := if_neg hc

/-- **The bytes make the line that the keys make.** -/
theorem line_text_key_bytes {keys : List LineKey} (hok : ∀ key, key ∈ keys → key.ok) :
    line_text (key_bytes keys) = held_line keys := by
  have hfold : ∀ line, (key_bytes keys).foldl (LineEdit.edit BACKSPACE_PRESSED (MAX_BUF_SIZE - 1)) line
      = keys.foldl LineKey.edit line := by
    induction keys with
    | nil => exact fun _ => rfl
    | cons key keys ih =>
        intro line
        have hrest := ih fun key' hkey' => hok key' (List.mem_cons_of_mem _ hkey')
        have hone : (passed key.calls).foldl (LineEdit.edit BACKSPACE_PRESSED (MAX_BUF_SIZE - 1)) line
            = key.edit line := by
          cases key with
          | char c =>
              have hc := (printable_ne (hok (.char c) List.mem_cons_self)).2.2.1
              exact edit_eq_add hc line
          | tab =>
              have hspace : SPACE_ASCII ≠ BACKSPACE_PRESSED := by decide
              have hpassed : passed tab_key_handler = List.replicate 4 SPACE_ASCII := by decide
              show (passed tab_key_handler).foldl _ line = _
              rw [hpassed]
              simp only [LineKey.edit, List.replicate, List.foldl_cons, List.foldl_nil,
                edit_eq_add hspace]
          | backspace =>
              show LineEdit.edit BACKSPACE_PRESSED (MAX_BUF_SIZE - 1) line BACKSPACE_PRESSED = line.dropLast
              exact if_pos rfl
        unfold key_bytes at hrest ⊢
        rw [List.flatMap_cons, passed_append, List.foldl_append, hone, hrest, List.foldl_cons]
  exact hfold []

/-- No byte of a line has another meaning to `edit_buffer`. -/
theorem mem_key_bytes {keys : List LineKey} (hok : ∀ key, key ∈ keys → key.ok) {c : UInt8}
    (hc : c ∈ key_bytes keys) :
    c ≠ 0 ∧ c ≠ CTL_L_CMD ∧ c ≠ ENTER_KEY ∧ c ≠ END_OF_LINE := by
  unfold key_bytes passed at hc
  rw [List.mem_filterMap] at hc
  obtain ⟨call, hcall, hc⟩ := hc
  obtain ⟨key, hkey, hcall⟩ := List.mem_flatMap.mp hcall
  cases key with
  | char c' =>
      obtain rfl := List.mem_singleton.mp hcall
      obtain rfl := Option.some.inj hc
      obtain ⟨h₀, h₁, -, h₂, h₃⟩ := printable_ne (hok _ hkey)
      exact ⟨h₀, h₁, h₂, h₃⟩
  | tab =>
      obtain rfl := List.eq_of_mem_replicate hcall
      obtain rfl := Option.some.inj hc
      decide
  | backspace =>
      obtain rfl := List.mem_singleton.mp hcall
      obtain rfl := Option.some.inj hc
      decide

/-! ## The steps while the line is typed -/

/-- The keys go to terminal `t`, and its reader is blocked. Everything else is free. -/
def WhileTyping (t : Terminal) (k : Kernel) : ConsoleOp → Prop
  | .key _ => k.screen_terminal = t
  | .read_end _ _ => k.curr_terminal ≠ t
  | _ => True

instance (t : Terminal) (k : Kernel) : (op : ConsoleOp) → Decidable (WhileTyping t k op)
  | .key _ => inferInstanceAs (Decidable (_ = _))
  | .read_end _ _ => inferInstanceAs (Decidable (_ ≠ _))
  | .putc _ | .clear | .read_begin _ _ | .tick | .switch_screen _ => isTrue trivial

/-- The reader of a terminal is blocked, and these keys have been typed for it. -/
structure Typed (ti : terminal_info_t) (keys : List UInt8) : Prop where
  waiting : ti.waitingInRead = 1
  line : LineState ti keys

/-- A read has just begun: the counter is 0, and the buffer may hold anything. -/
structure ReadBegun (ti : terminal_info_t) : Prop where
  waiting : ti.waitingInRead = 1
  enter_flag : ti.enter_flag = 0
  buffer_size : ti.buffer_size = 0

theorem ReadBegun.typed {ti : terminal_info_t} (h : ReadBegun ti) : Typed ti [] := by
  refine ⟨h.waiting, .editing ?_ List.not_mem_nil ?_⟩
  · rw [h.enter_flag]
    decide
  · rw [h.buffer_size]
    exact .nil _

/-- A branch of `edit_buffer` does not end the wait. -/
theorem on_line_waiting (response : UInt8) (ti : terminal_info_t) (b : KeyBranch) :
    (b.on_line response ti).waitingInRead = ti.waitingInRead := by
  cases b with
  | redraw => rfl
  | nothing => rfl
  | enter => rfl
  | add => rfl
  | delete =>
      show (shortened ti).waitingInRead = ti.waitingInRead
      unfold shortened
      dsimp only
      split <;> split <;> rfl

/-- **One key** of an open line. -/
theorem Typed.key {k : Kernel} {t : Terminal} {keys : List UInt8} {response : UInt8}
    (h : Typed (k.terminal_array t) keys) (ht : k.screen_terminal = t) (hctl : response ≠ CTL_L_CMD)
    (hzero : response ≠ 0) (hopen : ENTER_KEY ∉ keys) :
    Typed ((edit_buffer response k).terminal_array t) (keys ++ [response]) := by
  subst ht
  have htaken : Taken response (k.terminal_array k.screen_terminal) := ⟨hctl, hzero, h.waiting⟩
  have hflag : (k.terminal_array k.screen_terminal).enter_flag ≠ 1 := by
    intro hone
    cases h.line with
    | editing flag => exact flag hone
    | completed => exact hopen (List.mem_append_right _ (List.mem_singleton_self _))
  have hfits : KeyFits k (.key response) := fun _ _ _ => Nat.ne_of_lt (h.line.size_lt hflag)
  obtain ⟨b, hcase⟩ := exists_keyCase response (k.terminal_array k.screen_terminal)
  obtain ⟨p, hp⟩ := (edit_buffer_edits h.line.size_le hfits hcase).terminal k.screen_terminal
  rw [if_pos rfl] at hp
  rw [hp]
  exact ⟨(on_line_waiting response _ b).trans h.waiting,
    (h.line.key hflag htaken hcase).at_position p⟩

/-- The other steps leave the line of `t` alone. -/
theorem Typed.other {k k' : Kernel} {t : Terminal} {keys : List UInt8} {op : ConsoleOp}
    (h : Typed (k.terminal_array t) keys) (hop : WhileTyping t k op)
    (hkey : ∀ response, op ≠ .key response) (hstep : console_step k op = some k') :
    Typed (k'.terminal_array t) keys := by
  have hdraws : Draws k k' → Typed (k'.terminal_array t) keys := by
    intro hd
    obtain ⟨x, y, hxy⟩ := hd.terminal t
    rw [hxy]
    exact ⟨h.waiting, h.line.congr rfl rfl rfl⟩
  cases op with
  | putc c => exact hdraws (Option.some.inj hstep ▸ draws_putc c k)
  | clear => exact hdraws (Option.some.inj hstep ▸ draws_clear k)
  | key response => exact absurd rfl (hkey response)
  | read_begin buf nbytes =>
      rw [console_step, Option.some.injEq] at hstep
      subst hstep
      rcases terminal_read_begin_cases buf nbytes k with ⟨-, hread⟩ | ⟨-, hread⟩
      · rw [hread]
        exact h
      · rw [hread]
        dsimp only
        rw [set_terminal_apply]
        split
        · rename_i ht
          rw [← ht]
          exact ⟨rfl, h.line.congr rfl rfl rfl⟩
        · exact h
  | read_end nbytes buf =>
      rw [console_step] at hstep
      split at hstep
      · rw [Option.some.injEq] at hstep
        subst hstep
        unfold terminal_read_end
        dsimp only
        rw [set_terminal_apply, if_neg fun ht => hop ht.symm]
        exact h
      · cases hstep
  | tick => exact Option.some.inj hstep ▸ h
  | switch_screen t' => exact Option.some.inj hstep ▸ h

/-- **The keys of a run**, by induction on its steps: what has been typed and what is still
to come make the line and its ENTER, so no key finds a completed line. -/
theorem Typed.run {k k' : Kernel} {t : Terminal} {keys text : List UInt8} {ops : List ConsoleOp}
    (h : Typed (k.terminal_array t) keys) (hops : AllSteps console_step (WhileTyping t) k ops)
    (hrun : Transition.run console_step k ops = some k')
    (hkeys : keys ++ keys_typed ops = text ++ [ENTER_KEY])
    (htext : ∀ c, c ∈ text → c ≠ 0 ∧ c ≠ CTL_L_CMD ∧ c ≠ ENTER_KEY) :
    Typed (k'.terminal_array t) (text ++ [ENTER_KEY]) := by
  induction ops generalizing k keys with
  | nil =>
      obtain rfl := Option.some.inj hrun
      rw [← hkeys]
      exact (List.append_nil keys).symm ▸ h
  | cons op ops ih =>
      obtain ⟨k₁, hstep, hrest⟩ := run_cons_eq_some.mp hrun
      by_cases hkey : ∃ response, op = .key response
      · obtain ⟨response, rfl⟩ := hkey
        have hnext : keys ++ response :: keys_typed ops = text ++ [ENTER_KEY] := hkeys
        -- what has been typed before the last key is part of the line
        have hbefore : keys <+: text := by
          have hprefix : keys <+: text ++ [ENTER_KEY] := ⟨_, hnext⟩
          refine (List.prefix_concat_iff.mp hprefix).resolve_left fun hall => ?_
          have hlen := congrArg List.length hnext
          rw [hall, List.length_append, List.length_cons] at hlen
          omega
        have hmem : response ∈ text ++ [ENTER_KEY] := hnext ▸ by simp
        have hresponse : response ≠ CTL_L_CMD ∧ response ≠ 0 := by
          rcases List.mem_append.mp hmem with hmem | hmem
          · exact ⟨(htext _ hmem).2.1, (htext _ hmem).1⟩
          · obtain rfl := List.mem_singleton.mp hmem
            decide
        have hopen : ENTER_KEY ∉ keys := fun hc => (htext _ (hbefore.subset hc)).2.2 rfl
        have hone := h.key hops.1 hresponse.1 hresponse.2 hopen
        refine ih (Option.some.inj hstep ▸ hone) (hops.2 k₁ hstep) hrest ?_
        rw [List.append_assoc]
        exact hnext
      · have hne : ∀ response, op ≠ .key response := fun response heq => hkey ⟨response, heq⟩
        have hsame : keys_typed (op :: ops) = keys_typed ops := by
          cases op with
          | key response => exact absurd rfl (hne response)
          | _ => rfl
        exact ih (h.other hops.1 hne hstep) (hops.2 k₁ hstep) hrest (hsame ▸ hkeys)

/-! ## The read -/

/-- The waiting loop of the reader ends, and `read` returns the line, cut to the size asked
for, and a line break; nothing is stored behind them, and the terminal is ready for the
next line. -/
structure ReadsLine (text : List UInt8) (nbytes : Int) (buf : ℕ → UInt8) (k : Kernel) : Prop where
  ready : line_ready k
  returned : (terminal_read_end nbytes buf k).1
    = min (min (text.length + 1) nbytes.toNat) MAX_BUF_SIZE
  chars : ∀ i, i + 1 < (terminal_read_end nbytes buf k).1 →
    some ((terminal_read_end nbytes buf k).2.1 i) = text[i]?
  line_break : (terminal_read_end nbytes buf k).2.1 ((terminal_read_end nbytes buf k).1 - 1)
    = END_OF_LINE
  behind : ∀ i, (terminal_read_end nbytes buf k).1 ≤ i →
    (terminal_read_end nbytes buf k).2.1 i = buf i
  empty : ((terminal_read_end nbytes buf k).2.2.terminal_array k.curr_terminal).buffer_size = 0
  flag : ((terminal_read_end nbytes buf k).2.2.terminal_array k.curr_terminal).enter_flag = 0
  done : ((terminal_read_end nbytes buf k).2.2.terminal_array k.curr_terminal).waitingInRead = 0

theorem length_line_read (text : List UInt8) {nbytes : Int} (hn : 0 < nbytes) :
    (line_read text nbytes).length = min (min (text.length + 1) nbytes.toNat) MAX_BUF_SIZE := by
  have hmax : MAX_BUF_SIZE = 128 := rfl
  unfold line_read
  rw [List.length_append, List.length_take, List.length_singleton]
  omega

/-- **A completed line is read.** -/
theorem Typed.reads {k : Kernel} {text : List UInt8} {nbytes : Int}
    (h : Typed (k.terminal_array k.curr_terminal) (text ++ [ENTER_KEY]))
    (hclean : END_OF_LINE ∉ line_text text) (hn : 0 < nbytes) (buf : ℕ → UInt8) :
    ReadsLine (line_text text) nbytes buf k := by
  -- the keys up to the last one are those of the line
  obtain ⟨hflag, hw⟩ : (k.terminal_array k.curr_terminal).enter_flag = 1 ∧
      Written (k.terminal_array k.curr_terminal).buffer
        (k.terminal_array k.curr_terminal).buffer_size (line_text text ++ [END_OF_LINE]) := by
    generalize hkeys : text ++ [ENTER_KEY] = keys at h
    cases h.line with
    | editing flag under_way =>
        rw [← hkeys] at under_way
        exact absurd (List.mem_append_right _ (List.mem_singleton_self _)) under_way
    | @completed keys' flag first written =>
        obtain ⟨rfl, -⟩ := List.append_inj' hkeys rfl
        exact ⟨flag, written⟩
  obtain ⟨hcount, hbuf⟩ := terminal_read_end_line buf hw hclean hn
  have hbyte : ∀ i, (terminal_read_end nbytes buf k).2.1 i
      = (line_read (line_text text) nbytes).getD i (buf i) := fun i => by rw [hbuf]
  have hlen := length_line_read (line_text text) hn
  have htake : ((line_text text).take (min nbytes.toNat MAX_BUF_SIZE - 1)).length + 1
      = (line_read (line_text text) nbytes).length := by
    unfold line_read
    rw [List.length_append, List.length_singleton]
  constructor
  · exact ⟨h.waiting, hflag⟩
  · rw [hcount, hlen]
  · intro i hi
    rw [hcount] at hi
    have hlt : i < ((line_text text).take (min nbytes.toNat MAX_BUF_SIZE - 1)).length := by omega
    rw [List.length_take] at hlt
    rw [hbyte, List.getD_eq_getElem _ _ (by omega), List.getElem?_eq_getElem (by omega)]
    unfold line_read
    rw [List.getElem_append_left (by rw [List.length_take]; exact hlt), List.getElem_take]
  · have hlast : (line_read (line_text text) nbytes).length - 1
        = ((line_text text).take (min nbytes.toNat MAX_BUF_SIZE - 1)).length := by omega
    rw [hcount, hbyte, hlast, List.getD_eq_getElem?_getD]
    unfold line_read
    rw [List.getElem?_concat_length]
    rfl
  · intro i hi
    rw [hcount] at hi
    rw [hbyte, List.getD_eq_default _ _ hi]
  all_goals
    unfold terminal_read_end
    dsimp only
    rw [set_terminal_apply, if_pos rfl]

/-- **Whatever the processes do while a line is typed, its reader gets it as it was
edited.** -/
theorem line_read_through {t : Terminal} {k k' : Kernel} {keys : List LineKey}
    {ops : List ConsoleOp} {nbytes : Int} (h : ReadBegun (k.terminal_array t))
    (hok : ∀ key, key ∈ keys → key.ok) (hkeys : keys_typed ops = key_bytes keys ++ [ENTER_KEY])
    (hops : AllSteps console_step (WhileTyping t) k ops) (hrun : run console_step k ops = some k')
    (ht : k'.curr_terminal = t) (hn : 0 < nbytes) (buf : ℕ → UInt8) :
    ReadsLine (held_line keys) nbytes buf k' := by
  have hbytes : ∀ c, c ∈ key_bytes keys → c ≠ 0 ∧ c ≠ CTL_L_CMD ∧ c ≠ ENTER_KEY := by
    intro c hc
    obtain ⟨h₀, h₁, h₂, -⟩ := mem_key_bytes hok hc
    exact ⟨h₀, h₁, h₂⟩
  have htyped := h.typed.run hops hrun (by rw [List.nil_append, hkeys]) hbytes
  have hclean : END_OF_LINE ∉ line_text (key_bytes keys) := fun hmem =>
    (mem_key_bytes hok (mem_of_mem_edited hmem)).2.2.2 rfl
  subst ht
  have hreads := htyped.reads hclean hn buf
  rwa [line_text_key_bytes hok] at hreads

/-- Two characters, a backspace, a tab and ENTER, with output of another terminal and screen
switches in between; four bytes are asked for. -/
theorem line_read_through_demo : ∃ k k',
    run console_step demo [.tick, .read_begin demo_buf 4] = some k ∧
    run console_step k [.key 0x61, .tick, .putc 0x78, .key 0x62, .key BACKSPACE_PRESSED,
      .switch_screen 1, .tick, .switch_screen 0, .key SPACE_ASCII, .key SPACE_ASCII,
      .key SPACE_ASCII, .tick, .key SPACE_ASCII, .key ENTER_KEY] = some k' ∧
    ReadsLine (held_line [.char 0x61, .char 0x62, .backspace, .tab]) 4 (fun _ => 0) k' := by
  have hbegin : (run console_step demo [.tick, .read_begin demo_buf 4]).map (fun k =>
      ((k.terminal_array 0).waitingInRead, (k.terminal_array 0).enter_flag,
        (k.terminal_array 0).buffer_size)) = some (1, 0, 0) := by decide +kernel
  obtain ⟨k, hk, hv⟩ := Option.map_eq_some_iff.mp hbegin
  simp only [Prod.mk.injEq] at hv
  have hops : (run console_step demo [.tick, .read_begin demo_buf 4]).map (fun k =>
      (decide (AllSteps console_step (WhileTyping 0) k [.key 0x61, .tick, .putc 0x78, .key 0x62,
        .key BACKSPACE_PRESSED, .switch_screen 1, .tick, .switch_screen 0, .key SPACE_ASCII,
        .key SPACE_ASCII, .key SPACE_ASCII, .tick, .key SPACE_ASCII, .key ENTER_KEY]),
      (run console_step k [.key 0x61, .tick, .putc 0x78, .key 0x62,
        .key BACKSPACE_PRESSED, .switch_screen 1, .tick, .switch_screen 0, .key SPACE_ASCII,
        .key SPACE_ASCII, .key SPACE_ASCII, .tick, .key SPACE_ASCII, .key ENTER_KEY]).map
          Kernel.curr_terminal)) = some (true, some 0) := by decide +kernel
  rw [hk, Option.map_some, Option.some.injEq, Prod.mk.injEq] at hops
  obtain ⟨hsteps, hlast⟩ := hops
  obtain ⟨k', hk', hcurr⟩ := Option.map_eq_some_iff.mp hlast
  exact ⟨k, k', hk, hk', line_read_through ⟨hv.1, hv.2.1, hv.2.2⟩ (by decide) (by decide)
    (of_decide_eq_true hsteps) hk' hcurr (by decide) _⟩

end LinuxLikeOS
