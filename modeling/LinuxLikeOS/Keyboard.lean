/-
`keyboard.c`: from scan codes to calls of `edit_buffer`.

Five flags are kept between the interrupts, and a character is looked up in one of four
tables. A handler's calls are collected in order, since its flags do not depend on what
they do to the kernel. `printed_char` of `typing_handler` is a local variable that is
assigned for codes in the tables only, so its value before is an input of the handler.

The results compare the handler with a keyboard that knows which keys are down. One flag
stands for two Shift keys, and the release of either clears it. And for the codes behind
the tables, which is all break codes, the handler goes on with whatever the local variable
held.
-/
import LinuxLikeOS.Scheduler
import LinuxLikeOS.Transition

set_option autoImplicit false

namespace LinuxLikeOS

open Transition

def SCAN_CODE_MAP_SIZE : ℕ := 59
def CAPS_LOCK_PRESSED : UInt8 := 0x3A
def CAPS_LOCK_RELEASED : UInt8 := 0xBA
def LEFT_SHIFT_PRESSED : UInt8 := 0x2A
def RIGHT_SHIFT_PRESSED : UInt8 := 0x36
def LEFT_SHIFT_RELEASED : UInt8 := 0xAA
def RIGHT_SHIFT_RELEASED : UInt8 := 0xB6
def LEFT_CTL_PRESSED : UInt8 := 0x1D
def LEFT_CTL_RELEASED : UInt8 := 0x9D
def ALT_PRESSED : UInt8 := 0x38
def ALT_RELEASED : UInt8 := 0xB8
def ENTER_PRESESED : UInt8 := 0x1C
def TAB_PRESSED : UInt8 := 0x0F
def F1_PRESSED : UInt8 := 0xBB
def F2_PRESSED : UInt8 := 0xBC
def F3_PRESSED : UInt8 := 0xBD
def NEW_LINE_ASCII : UInt8 := 0x0A
def FORWARD_SLASH_ASCII : UInt8 := 0x2F
def QUESTION_MARK_ASCII : UInt8 := 0x3F
def SINGLE_QUOTE_ASCII : UInt8 := 0x27
def BACKWARD_SLASH_ASCII : UInt8 := 0x5C

/-! ## The handlers -/

/-- The static variables of `keyboard.c`. -/
structure keyboard_t where
  shift_held : Int
  caps_locked_activated : Int
  caps_lock_held : Int
  ctrl_held : Int
  alt_held : Int
  deriving DecidableEq

/-- The calls a handler makes. -/
inductive KeyCall
  | edit_buffer (response : UInt8)
  | switch_screen (new_terminal : Terminal)
  deriving DecidableEq

/-- What a call does to the kernel. -/
def perform_call (k : Kernel) : KeyCall → Kernel
  | .edit_buffer response => edit_buffer response k
  | .switch_screen new_terminal => switch_screen new_terminal k

/-- The entry of a table. The last one is not written out in the source. -/
def scan_code_data (scan_code_data : List UInt8) (response : UInt8) : UInt8 :=
  scan_code_data.getD response.toNat 0

def default_scan_code_data : UInt8 → UInt8 :=
  scan_code_data ([0, 0] ++ ascii "1234567890-=" ++ [0, 0] ++ ascii "qwertyuiop[]" ++
    [NEW_LINE_ASCII, 0] ++ ascii "asdfghjkl;" ++ [SINGLE_QUOTE_ASCII] ++ ascii "`" ++
    [0, BACKWARD_SLASH_ASCII] ++ ascii "zxcvbnm,." ++ [FORWARD_SLASH_ASCII, 0] ++ ascii "*" ++
    [0, SPACE_ASCII])

def caps_lock_scan_data : UInt8 → UInt8 :=
  scan_code_data ([0, 0] ++ ascii "1234567890-=" ++ [0, 0] ++ ascii "QWERTYUIOP[]" ++
    [NEW_LINE_ASCII, 0] ++ ascii "ASDFGHJKL;" ++ [SINGLE_QUOTE_ASCII] ++ ascii "`" ++
    [0, BACKWARD_SLASH_ASCII] ++ ascii "ZXCVBNM,." ++ [FORWARD_SLASH_ASCII, 0] ++ ascii "*" ++
    [0, SPACE_ASCII])

def shift_key_scan_data : UInt8 → UInt8 :=
  scan_code_data ([0, 0] ++ ascii "!@#$%^&*()_+" ++ [0, 0] ++ ascii "QWERTYUIOP\x7b\x7d" ++
    [NEW_LINE_ASCII, 0] ++ ascii "ASDFGHJKL:\"~" ++ [0] ++ ascii "|ZXCVBNM<>" ++
    [QUESTION_MARK_ASCII, 0] ++ ascii "*" ++ [0, SPACE_ASCII])

def shift_and_caps_data : UInt8 → UInt8 :=
  scan_code_data ([0, 0] ++ ascii "!@#$%^&*()_+" ++ [0, 0] ++ ascii "qwertyuiop\x7b\x7d" ++
    [NEW_LINE_ASCII, 0] ++ ascii "asdfghjkl:\"~" ++ [0] ++ ascii "|zxcvbnm<>" ++
    [QUESTION_MARK_ASCII, 0] ++ ascii "*" ++ [0, SPACE_ASCII])

def caps_lock_handler (response : UInt8) (kb : keyboard_t) : keyboard_t :=
  let kb :=
    if response = CAPS_LOCK_PRESSED ∧ kb.caps_lock_held = 0 ∧ kb.caps_locked_activated = 0 then
      { kb with caps_lock_held := 1, caps_locked_activated := 1 }
    else kb
  let kb :=
    if response = CAPS_LOCK_PRESSED ∧ kb.caps_locked_activated = 1 ∧ kb.caps_lock_held = 0 then
      { kb with caps_locked_activated := 0, caps_lock_held := 1 }
    else kb
  if response = CAPS_LOCK_RELEASED then { kb with caps_lock_held := 0 } else kb

def shift_key_handler (response : UInt8) (kb : keyboard_t) : keyboard_t :=
  let kb :=
    if response = LEFT_SHIFT_PRESSED ∨ response = RIGHT_SHIFT_PRESSED then
      { kb with shift_held := 1 }
    else kb
  -- the other key may still be down
  if response = RIGHT_SHIFT_RELEASED ∨ response = LEFT_SHIFT_RELEASED then
    { kb with shift_held := 0 }
  else kb

def ctrl_key_handler (response : UInt8) (kb : keyboard_t) : keyboard_t × List KeyCall :=
  let kb := if response = LEFT_CTL_PRESSED then { kb with ctrl_held := 1 } else kb
  let kb := if response = LEFT_CTL_RELEASED then { kb with ctrl_held := 0 } else kb
  -- 'l' and 'L'
  if response = 0x6C ∨ response = 0x4C then (kb, [.edit_buffer CTL_L_CMD]) else (kb, [])

def alt_key_handler (response : UInt8) (kb : keyboard_t) : keyboard_t × List KeyCall :=
  let kb := if response = ALT_PRESSED ∧ kb.alt_held = 0 then { kb with alt_held := 1 } else kb
  let kb := if response = ALT_RELEASED ∧ kb.alt_held = 1 then { kb with alt_held := 0 } else kb
  let calls := if response = F1_PRESSED then [KeyCall.switch_screen 0] else []
  let calls := calls ++ if response = F2_PRESSED then [KeyCall.switch_screen 1] else []
  (kb, calls ++ if response = F3_PRESSED then [KeyCall.switch_screen 2] else [])

/-- `printed_char` is what the local variable holds at the start. -/
def typing_handler (printed_char response : UInt8) (kb : keyboard_t) :
    keyboard_t × List KeyCall :=
  let printed_char :=
    if kb.caps_locked_activated = 1 ∧ kb.shift_held = 0 then
      if response.toNat < SCAN_CODE_MAP_SIZE then caps_lock_scan_data response else printed_char
    else if kb.shift_held = 1 ∧ kb.caps_locked_activated = 0 then
      if response.toNat < SCAN_CODE_MAP_SIZE then shift_key_scan_data response else printed_char
    else if kb.shift_held ≠ 0 ∧ kb.caps_locked_activated ≠ 0 then
      if response.toNat < SCAN_CODE_MAP_SIZE then shift_and_caps_data response else printed_char
    else
      if response.toNat < SCAN_CODE_MAP_SIZE then default_scan_code_data response else printed_char
  if kb.ctrl_held = 1 then ctrl_key_handler printed_char kb
  else if kb.alt_held = 1 then alt_key_handler response kb
  else if printed_char ≠ 0 then (kb, [.edit_buffer printed_char])
  else (kb, [])

def backspace_handler : List KeyCall := [.edit_buffer BACKSPACE_PRESSED]

def enter_key_handler : List KeyCall := [.edit_buffer ENTER_PRESESED]

def tab_key_handler : List KeyCall := List.replicate 4 (.edit_buffer SPACE_ASCII)

/-- `keyboard_handler` for the scan code `response`. -/
def keyboard_handler (printed_char response : UInt8) (kb : keyboard_t) :
    keyboard_t × List KeyCall :=
  if response = CAPS_LOCK_PRESSED then (caps_lock_handler CAPS_LOCK_PRESSED kb, [])
  else if response = CAPS_LOCK_RELEASED then (caps_lock_handler CAPS_LOCK_RELEASED kb, [])
  else if response = LEFT_SHIFT_PRESSED then (shift_key_handler LEFT_SHIFT_PRESSED kb, [])
  else if response = RIGHT_SHIFT_PRESSED then (shift_key_handler RIGHT_SHIFT_PRESSED kb, [])
  else if response = LEFT_SHIFT_RELEASED then (shift_key_handler LEFT_SHIFT_RELEASED kb, [])
  else if response = RIGHT_SHIFT_RELEASED then (shift_key_handler RIGHT_SHIFT_RELEASED kb, [])
  else if response = LEFT_CTL_PRESSED then ctrl_key_handler LEFT_CTL_PRESSED kb
  else if response = LEFT_CTL_RELEASED then ctrl_key_handler LEFT_CTL_RELEASED kb
  else if response = BACKSPACE_PRESSED then (kb, backspace_handler)
  else if response = ENTER_PRESESED then (kb, enter_key_handler)
  else if response = TAB_PRESSED then (kb, tab_key_handler)
  else if response = ALT_PRESSED then alt_key_handler ALT_PRESSED kb
  else if response = ALT_RELEASED then alt_key_handler ALT_RELEASED kb
  else typing_handler printed_char response kb

/-! ## A US keyboard -/

/-- The keys that print, row by row: the scan code of the first key, the characters, and
those with Shift. -/
def us_rows : List (ℕ × List UInt8 × List UInt8) :=
  [(0x02, ascii "1234567890-=", ascii "!@#$%^&*()_+"),
    (0x10, ascii "qwertyuiop[]", ascii "QWERTYUIOP\x7b\x7d"),
    (0x1E, ascii "asdfghjkl;'`", ascii "ASDFGHJKL:\"~"),
    (0x2B, ascii "\\zxcvbnm,./", ascii "|ZXCVBNM<>?"),
    (0x37, ascii "*", ascii "*"),
    (0x39, ascii " ", ascii " ")]

/-- The two characters of a key. -/
def us_key (code : UInt8) : Option (UInt8 × UInt8) :=
  us_rows.findSome? fun row =>
    if row.1 ≤ code.toNat then (row.2.1.zip row.2.2)[code.toNat - row.1]? else none

/-- A letter has its case flipped by Caps Lock; other keys do not look at it. -/
def us_char (shift caps : Bool) (code : UInt8) : Option UInt8 :=
  (us_key code).map fun key =>
    let is_letter := decide (0x61 ≤ key.1.toNat ∧ key.1.toNat ≤ 0x7A)
    if shift != (caps && is_letter) then key.2 else key.1

/-- Which keys are down, and how often Caps Lock has been pressed. -/
structure Held where
  left_shift : Bool
  right_shift : Bool
  caps_lock : Bool
  ctrl : Bool
  alt : Bool
  caps_presses : ℕ

namespace Held

def shift (h : Held) : Bool := h.left_shift || h.right_shift

def caps (h : Held) : Bool := h.caps_presses % 2 == 1

/-- A key is down from its make code to its break code. The make codes that a key repeats
while it is down are no presses. -/
def after (h : Held) (code : UInt8) : Held :=
  if code = LEFT_SHIFT_PRESSED then { h with left_shift := true }
  else if code = LEFT_SHIFT_RELEASED then { h with left_shift := false }
  else if code = RIGHT_SHIFT_PRESSED then { h with right_shift := true }
  else if code = RIGHT_SHIFT_RELEASED then { h with right_shift := false }
  else if code = LEFT_CTL_PRESSED then { h with ctrl := true }
  else if code = LEFT_CTL_RELEASED then { h with ctrl := false }
  else if code = ALT_PRESSED then { h with alt := true }
  else if code = ALT_RELEASED then { h with alt := false }
  else if code = CAPS_LOCK_PRESSED then
    { h with
      caps_lock := true
      caps_presses := if h.caps_lock then h.caps_presses else h.caps_presses + 1 }
  else if code = CAPS_LOCK_RELEASED then { h with caps_lock := false }
  else h

end Held

/-- The scan code of the key with the letter L. -/
def L_KEY : UInt8 := 0x26

/-- What the keyboard is to pass to `edit_buffer` for a scan code: the keys that edit the
line under any modifier, Ctrl-L, and the characters of the keys that print. -/
def us_keyboard (h : Held) (code : UInt8) : List UInt8 :=
  if code = BACKSPACE_PRESSED then [BACKSPACE_PRESSED]
  else if code = ENTER_KEY then [ENTER_KEY]
  else if code = TAB_PRESSED then List.replicate 4 SPACE_ASCII
  else if h.ctrl then if code = L_KEY then [CTL_L_CMD] else []
  else if h.alt then []
  else (us_char h.shift h.caps code).toList

/-! ## Runs of scan codes -/

/-- A scan code, and what the local variable of `typing_handler` holds when it comes. -/
structure scan where
  code : UInt8
  printed_char : UInt8

def keyboard_step (w : keyboard_t × Held) (e : scan) : Option (keyboard_t × Held) :=
  some ((keyboard_handler e.printed_char e.code w.1).1, w.2.after e.code)

/-- The flags at the start, and no key down. -/
def keyboard_start : keyboard_t × Held := (⟨0, 0, 0, 0, 0⟩, ⟨false, false, false, false, false, 0⟩)

/-- What the calls pass to `edit_buffer`. -/
def passed (calls : List KeyCall) : List UInt8 :=
  calls.filterMap fun
    | .edit_buffer response => some response
    | .switch_screen _ => none

/-- The handler passes on what the keyboard has typed. -/
def TypesRight (w : keyboard_t × Held) (e : scan) : Prop :=
  passed (keyboard_handler e.printed_char e.code w.1).2 = us_keyboard w.2 e.code

instance (w : keyboard_t × Held) (e : scan) : Decidable (TypesRight w e) :=
  inferInstanceAs (Decidable (_ = _))

/-- A Shift key is not released while the other one is down. -/
def ShiftsApart (h : Held) (code : UInt8) : Prop :=
  (code = LEFT_SHIFT_RELEASED → h.right_shift = false) ∧
    (code = RIGHT_SHIFT_RELEASED → h.left_shift = false)

instance (h : Held) (code : UInt8) : Decidable (ShiftsApart h code) :=
  inferInstanceAs (Decidable (_ ∧ _))

/-- `typing_handler` finds no table for the code. -/
def no_table (code : UInt8) : Prop :=
  SCAN_CODE_MAP_SIZE ≤ code.toNat ∧ code ≠ CAPS_LOCK_RELEASED ∧ code ≠ LEFT_SHIFT_RELEASED ∧
    code ≠ RIGHT_SHIFT_RELEASED ∧ code ≠ LEFT_CTL_RELEASED ∧ code ≠ ALT_RELEASED

instance (code : UInt8) : Decidable (no_table code) := inferInstanceAs (Decidable (_ ∧ _))

/-- What the local variable holds then does no harm: with Ctrl it is neither the letter L
nor the break code of Ctrl, and without Ctrl and Alt it is 0. -/
def LocalHarmless (h : Held) (e : scan) : Prop :=
  no_table e.code →
    if h.ctrl then e.printed_char ≠ 0x6C ∧ e.printed_char ≠ 0x4C ∧ e.printed_char ≠ LEFT_CTL_RELEASED
    else h.alt = true ∨ e.printed_char = 0

instance (h : Held) (e : scan) : Decidable (LocalHarmless h e) := inferInstanceAs (Decidable (_ → _))

/-! ## The flags -/

def flag (b : Bool) : Int := if b then 1 else 0

theorem flag_eq_one {b : Bool} : flag b = 1 ↔ b = true := by cases b <;> decide

theorem flag_eq_zero {b : Bool} : flag b = 0 ↔ b = false := by cases b <;> decide

/-- The flags say which keys are down. -/
structure KeyboardInv (kb : keyboard_t) (h : Held) : Prop where
  shift_held : kb.shift_held = flag h.shift
  caps_locked_activated : kb.caps_locked_activated = flag h.caps
  caps_lock_held : kb.caps_lock_held = flag h.caps_lock
  ctrl_held : kb.ctrl_held = flag h.ctrl
  alt_held : kb.alt_held = flag h.alt

/-- The scan codes, as `keyboard_handler` tells them apart. -/
inductive ScanCase : UInt8 → Prop
  | caps_pressed : ScanCase CAPS_LOCK_PRESSED
  | caps_released : ScanCase CAPS_LOCK_RELEASED
  | left_shift_pressed : ScanCase LEFT_SHIFT_PRESSED
  | right_shift_pressed : ScanCase RIGHT_SHIFT_PRESSED
  | left_shift_released : ScanCase LEFT_SHIFT_RELEASED
  | right_shift_released : ScanCase RIGHT_SHIFT_RELEASED
  | ctl_pressed : ScanCase LEFT_CTL_PRESSED
  | ctl_released : ScanCase LEFT_CTL_RELEASED
  | backspace : ScanCase BACKSPACE_PRESSED
  | enter : ScanCase ENTER_PRESESED
  | tab : ScanCase TAB_PRESSED
  | alt_pressed : ScanCase ALT_PRESSED
  | alt_released : ScanCase ALT_RELEASED
  | typing {code : UInt8} (held : ∀ h : Held, h.after code = h)
      (handler : ∀ printed_char kb,
        keyboard_handler printed_char code kb = typing_handler printed_char code kb)
      (edits : code ≠ BACKSPACE_PRESSED ∧ code ≠ ENTER_KEY ∧ code ≠ TAB_PRESSED)
      (alt : code ≠ ALT_PRESSED ∧ code ≠ ALT_RELEASED)
      (table : SCAN_CODE_MAP_SIZE ≤ code.toNat → no_table code) : ScanCase code

theorem exists_scanCase (code : UInt8) : ScanCase code := by
  by_cases h₁ : code = CAPS_LOCK_PRESSED; · exact h₁ ▸ .caps_pressed
  by_cases h₂ : code = CAPS_LOCK_RELEASED; · exact h₂ ▸ .caps_released
  by_cases h₃ : code = LEFT_SHIFT_PRESSED; · exact h₃ ▸ .left_shift_pressed
  by_cases h₄ : code = RIGHT_SHIFT_PRESSED; · exact h₄ ▸ .right_shift_pressed
  by_cases h₅ : code = LEFT_SHIFT_RELEASED; · exact h₅ ▸ .left_shift_released
  by_cases h₆ : code = RIGHT_SHIFT_RELEASED; · exact h₆ ▸ .right_shift_released
  by_cases h₇ : code = LEFT_CTL_PRESSED; · exact h₇ ▸ .ctl_pressed
  by_cases h₈ : code = LEFT_CTL_RELEASED; · exact h₈ ▸ .ctl_released
  by_cases h₉ : code = BACKSPACE_PRESSED; · exact h₉ ▸ .backspace
  by_cases h₁₀ : code = ENTER_PRESESED; · exact h₁₀ ▸ .enter
  by_cases h₁₁ : code = TAB_PRESSED; · exact h₁₁ ▸ .tab
  by_cases h₁₂ : code = ALT_PRESSED; · exact h₁₂ ▸ .alt_pressed
  by_cases h₁₃ : code = ALT_RELEASED; · exact h₁₃ ▸ .alt_released
  refine .typing (fun h => ?_) (fun printed_char kb => ?_) ⟨h₉, h₁₀, h₁₁⟩
    ⟨h₁₂, h₁₃⟩ fun hlarge => ⟨hlarge, h₂, h₅, h₆, h₈, h₁₃⟩
  · unfold Held.after
    simp only [h₁, h₂, h₃, h₄, h₅, h₆, h₇, h₈, h₁₂, h₁₃, if_false]
  · unfold keyboard_handler
    simp only [h₁, h₂, h₃, h₄, h₅, h₆, h₇, h₈, h₉, h₁₀, h₁₁, h₁₂, h₁₃, if_false]

/-! ## The characters -/

/-- The table for the state of Shift and Caps Lock. -/
def scan_data (shift caps : Bool) : UInt8 → UInt8 :=
  match shift, caps with
  | false, false => default_scan_code_data
  | false, true => caps_lock_scan_data
  | true, false => shift_key_scan_data
  | true, true => shift_and_caps_data

/-- What has been checked for the first `n` codes. -/
theorem forall_codes {n : ℕ} {P : UInt8 → Prop} (hall : ∀ c : Fin n, P (UInt8.ofNat c.val))
    {code : UInt8} (hcode : code.toNat < n) : P code := by
  have hentry := hall ⟨code.toNat, hcode⟩
  rwa [UInt8.ofNat_toNat] at hentry

/-- **The four tables are those of a US keyboard**, but for the line break that the table
has for ENTER. -/
theorem scan_data_eq {code : UInt8} (hcode : code.toNat < SCAN_CODE_MAP_SIZE) (hne : code ≠ ENTER_KEY)
    (shift caps : Bool) : scan_data shift caps code = (us_char shift caps code).getD 0 :=
  forall_codes (P := fun code => code ≠ ENTER_KEY → ∀ shift caps : Bool,
    scan_data shift caps code = (us_char shift caps code).getD 0) (by decide +kernel) hcode hne
    shift caps

/-- A key that prints does not print the byte 0. -/
theorem us_char_ne_zero {code : UInt8} (hcode : code.toNat < SCAN_CODE_MAP_SIZE) (shift caps : Bool) :
    us_char shift caps code ≠ some 0 :=
  forall_codes (P := fun code => ∀ shift caps : Bool, us_char shift caps code ≠ some 0)
    (by decide +kernel) hcode shift caps

/-- Behind the tables no key prints. -/
theorem us_char_eq_none {code : UInt8} (hcode : SCAN_CODE_MAP_SIZE ≤ code.toNat) (shift caps : Bool) :
    us_char shift caps code = none :=
  forall_codes (n := 256) (P := fun code => SCAN_CODE_MAP_SIZE ≤ code.toNat →
    ∀ shift caps : Bool, us_char shift caps code = none) (by decide +kernel) code.toNat_lt hcode
    shift caps

/-- The letter L is on its key only, and no table has a code of the Ctrl key. -/
theorem scan_data_ctrl {code : UInt8} (hcode : code.toNat < SCAN_CODE_MAP_SIZE) (shift caps : Bool) :
    (scan_data shift caps code = 0x6C ∨ scan_data shift caps code = 0x4C ↔ code = L_KEY) ∧
      scan_data shift caps code ≠ LEFT_CTL_PRESSED ∧ scan_data shift caps code ≠ LEFT_CTL_RELEASED :=
  forall_codes (P := fun code => ∀ shift caps : Bool,
    (scan_data shift caps code = 0x6C ∨ scan_data shift caps code = 0x4C ↔ code = L_KEY) ∧
      scan_data shift caps code ≠ LEFT_CTL_PRESSED ∧ scan_data shift caps code ≠ LEFT_CTL_RELEASED)
    (by decide +kernel) hcode shift caps

/-- The character that `typing_handler` goes on with: from a table, or what the local variable
holds. -/
def typed_char (h : Held) (printed_char code : UInt8) : UInt8 :=
  if code.toNat < SCAN_CODE_MAP_SIZE then scan_data h.shift h.caps code else printed_char

section

variable {kb : keyboard_t} {h : Held}

/-- `typing_handler` in terms of the keys that are down. -/
theorem KeyboardInv.typing_handler_eq (hinv : KeyboardInv kb h) (printed_char code : UInt8) :
    typing_handler printed_char code kb =
      if h.ctrl then ctrl_key_handler (typed_char h printed_char code) kb
      else if h.alt then alt_key_handler code kb
      else if typed_char h printed_char code ≠ 0 then
        (kb, [.edit_buffer (typed_char h printed_char code)])
      else (kb, []) := by
  unfold typing_handler typed_char
  simp only [hinv.shift_held, hinv.caps_locked_activated, hinv.ctrl_held, hinv.alt_held,
    flag_eq_one, flag_eq_zero, ne_eq]
  cases h.shift <;> cases h.caps <;> rfl

theorem caps_succ (n : ℕ) : ((n + 1) % 2 == 1) = !(n % 2 == 1) := by
  rcases Nat.mod_two_eq_zero_or_one n with hn | hn
  · rw [Nat.add_mod, hn]
    rfl
  · rw [Nat.add_mod, hn]
    rfl

/-- Caps Lock is switched by a press, and not by a make code that repeats. -/
theorem KeyboardInv.caps_pressed (hinv : KeyboardInv kb h) :
    KeyboardInv (caps_lock_handler CAPS_LOCK_PRESSED kb) (h.after CAPS_LOCK_PRESSED) := by
  obtain ⟨hshift, hcaps, hheld, hctrl, halt⟩ := hinv
  have hafter : h.after CAPS_LOCK_PRESSED =
      { h with
        caps_lock := true
        caps_presses := if h.caps_lock then h.caps_presses else h.caps_presses + 1 } := rfl
  have hnot : CAPS_LOCK_PRESSED ≠ CAPS_LOCK_RELEASED := by decide
  rw [hafter]
  unfold caps_lock_handler
  simp only [hheld, hcaps, flag_eq_zero, true_and, if_neg hnot]
  cases hdown : h.caps_lock with
  | true =>
      simp only [Bool.true_eq_false, false_and, if_false, and_false, hheld, hdown, hcaps,
        flag_eq_zero, if_true]
      exact ⟨hshift, hcaps, hheld.trans (congrArg flag hdown), hctrl, halt⟩
  | false =>
      have hswitch : Held.caps { h with caps_lock := true, caps_presses := h.caps_presses + 1 }
          = !h.caps := caps_succ h.caps_presses
      cases hon : h.caps with
      | true =>
          simp only [Bool.true_eq_false, and_false, if_false, hcaps, hon, hheld, hdown, and_self,
            flag_eq_one, flag_eq_zero, if_true, Bool.false_eq_true]
          exact ⟨hshift, by rw [hswitch, hon]; rfl, rfl, hctrl, halt⟩
      | false =>
          simp only [and_self, if_true, Int.one_ne_zero, and_false, if_false, Bool.false_eq_true]
          exact ⟨hshift, by rw [hswitch, hon]; rfl, rfl, hctrl, halt⟩

/-- The keys that do not print pass nothing on. -/
theorem us_keyboard_of_none {code : UInt8}
    (hedits : code ≠ BACKSPACE_PRESSED ∧ code ≠ ENTER_KEY ∧ code ≠ TAB_PRESSED) (hkey : code ≠ L_KEY)
    (hchar : ∀ shift caps, us_char shift caps code = none) (h : Held) : us_keyboard h code = [] := by
  unfold us_keyboard
  rw [if_neg hedits.1, if_neg hedits.2.1, if_neg hedits.2.2, if_neg hkey, hchar]
  split
  · rfl
  · split <;> rfl

theorem us_keyboard_modifier {code : UInt8}
    (hcode : code ∈ [CAPS_LOCK_PRESSED, CAPS_LOCK_RELEASED, LEFT_SHIFT_PRESSED, RIGHT_SHIFT_PRESSED,
      LEFT_SHIFT_RELEASED, RIGHT_SHIFT_RELEASED, LEFT_CTL_PRESSED, LEFT_CTL_RELEASED, ALT_PRESSED,
      ALT_RELEASED]) (h : Held) : us_keyboard h code = [] := by
  have hall : ∀ c, c ∈ [CAPS_LOCK_PRESSED, CAPS_LOCK_RELEASED, LEFT_SHIFT_PRESSED,
      RIGHT_SHIFT_PRESSED, LEFT_SHIFT_RELEASED, RIGHT_SHIFT_RELEASED, LEFT_CTL_PRESSED,
      LEFT_CTL_RELEASED, ALT_PRESSED, ALT_RELEASED] →
      (c ≠ BACKSPACE_PRESSED ∧ c ≠ ENTER_KEY ∧ c ≠ TAB_PRESSED) ∧ c ≠ L_KEY ∧
        ∀ shift caps, us_char shift caps c = none := by decide +kernel
  obtain ⟨hedits, hkey, hchar⟩ := hall code hcode
  exact us_keyboard_of_none hedits hkey hchar h

/-- With Alt only the screen is switched. -/
theorem passed_alt_key_handler (code : UInt8) (kb : keyboard_t) :
    passed (alt_key_handler code kb).2 = [] := by
  unfold alt_key_handler
  dsimp only
  split <;> split <;> split <;> rfl

/-- A code that is not Alt's leaves the flags alone. -/
theorem alt_key_handler_fst {code : UInt8} (h₁ : code ≠ ALT_PRESSED) (h₂ : code ≠ ALT_RELEASED)
    (kb : keyboard_t) : (alt_key_handler code kb).1 = kb := by
  unfold alt_key_handler
  simp only [h₁, h₂, false_and, if_false]

/-- The flag of the Shift keys, set for the keys that are down now. -/
theorem KeyboardInv.shift_key (hinv : KeyboardInv kb h) {n : Int} {left right : Bool}
    (hn : n = flag (left || right)) :
    KeyboardInv { kb with shift_held := n } { h with left_shift := left, right_shift := right } :=
  ⟨hn, hinv.caps_locked_activated, hinv.caps_lock_held, hinv.ctrl_held, hinv.alt_held⟩

/-- The flag of Alt, set for the key that is down now unless it is so already. -/
theorem KeyboardInv.alt_key (hinv : KeyboardInv kb h) (down : Bool) :
    KeyboardInv (if kb.alt_held = flag (!down) then { kb with alt_held := flag down } else kb)
      { h with alt := down } := by
  split
  · exact ⟨hinv.shift_held, hinv.caps_locked_activated, hinv.caps_lock_held, hinv.ctrl_held, rfl⟩
  · -- the key repeats
    rename_i hne
    have hsame : h.alt = down := by
      by_contra hother
      apply hne
      rw [hinv.alt_held, Bool.eq_not.mpr hother]
    rw [← hsame]
    exact hinv

theorem KeyboardInv.alt_pressed (hinv : KeyboardInv kb h) :
    KeyboardInv (alt_key_handler ALT_PRESSED kb).1 (h.after ALT_PRESSED) := by
  have hflags : (alt_key_handler ALT_PRESSED kb).1
      = if kb.alt_held = 0 then { kb with alt_held := 1 } else kb := by
    unfold alt_key_handler
    simp only [true_and, show ALT_PRESSED ≠ ALT_RELEASED by decide, false_and, if_false]
  rw [hflags]
  exact hinv.alt_key true

theorem KeyboardInv.alt_released (hinv : KeyboardInv kb h) :
    KeyboardInv (alt_key_handler ALT_RELEASED kb).1 (h.after ALT_RELEASED) := by
  have hflags : (alt_key_handler ALT_RELEASED kb).1
      = if kb.alt_held = 1 then { kb with alt_held := 0 } else kb := by
    unfold alt_key_handler
    simp only [true_and, show ALT_RELEASED ≠ ALT_PRESSED by decide, false_and, if_false]
  rw [hflags]
  exact hinv.alt_key false

/-- With Ctrl the letter L clears the screen, and no other character does anything. -/
theorem KeyboardInv.ctrl_key_handler (hinv : KeyboardInv kb h) (hctrl : h.ctrl = true) {c : UInt8}
    (hc : c ≠ LEFT_CTL_RELEASED) :
    KeyboardInv (ctrl_key_handler c kb).1 h ∧
      passed (LinuxLikeOS.ctrl_key_handler c kb).2
        = if c = 0x6C ∨ c = 0x4C then [CTL_L_CMD] else [] := by
  have hflags : (LinuxLikeOS.ctrl_key_handler c kb).1
      = if c = LEFT_CTL_PRESSED then { kb with ctrl_held := 1 } else kb := by
    unfold LinuxLikeOS.ctrl_key_handler
    dsimp only
    rw [if_neg hc]
    split <;> rfl
  constructor
  · rw [hflags]
    split
    · have hone : flag h.ctrl = 1 := flag_eq_one.mpr hctrl
      exact ⟨hinv.shift_held, hinv.caps_locked_activated, hinv.caps_lock_held, hone.symm,
        hinv.alt_held⟩
    · exact hinv
  · unfold LinuxLikeOS.ctrl_key_handler
    dsimp only
    split <;> rfl

/-- With Ctrl down the character is the letter L for its key only. -/
theorem typed_char_ctrl {h : Held} {printed_char code : UInt8} (hctrl : h.ctrl = true)
    (htable : SCAN_CODE_MAP_SIZE ≤ code.toNat → no_table code)
    (hlocal : LocalHarmless h ⟨code, printed_char⟩) :
    typed_char h printed_char code ≠ LEFT_CTL_RELEASED ∧
      (typed_char h printed_char code = 0x6C ∨ typed_char h printed_char code = 0x4C ↔
        code = L_KEY) := by
  unfold typed_char
  by_cases hcode : code.toNat < SCAN_CODE_MAP_SIZE
  · obtain ⟨hl, -, hreleased⟩ := scan_data_ctrl hcode h.shift h.caps
    rw [if_pos hcode]
    exact ⟨hreleased, hl⟩
  · -- no table: the local variable
    have hlarge := Nat.le_of_not_lt hcode
    have hno := hlocal (htable hlarge)
    rw [if_pos hctrl] at hno
    have hkey : code ≠ L_KEY := by
      intro hl
      rw [hl] at hlarge
      exact absurd hlarge (by decide)
    rw [if_neg hcode]
    exact ⟨hno.2.2, fun h => absurd h (not_or.mpr ⟨hno.1, hno.2.1⟩), fun h => absurd h hkey⟩

/-- Without Ctrl and Alt it is that of the key, or 0. -/
theorem typed_char_plain {h : Held} {printed_char code : UInt8} (hctrl : h.ctrl = false)
    (halt : h.alt = false) (henter : code ≠ ENTER_KEY)
    (htable : SCAN_CODE_MAP_SIZE ≤ code.toNat → no_table code)
    (hlocal : LocalHarmless h ⟨code, printed_char⟩) :
    typed_char h printed_char code = (us_char h.shift h.caps code).getD 0 := by
  unfold typed_char
  by_cases hcode : code.toNat < SCAN_CODE_MAP_SIZE
  · rw [if_pos hcode]
    exact scan_data_eq hcode henter h.shift h.caps
  · have hlarge := Nat.le_of_not_lt hcode
    have hno := hlocal (htable hlarge)
    rw [if_neg (by rw [hctrl]; decide)] at hno
    rw [if_neg hcode, us_char_eq_none hlarge]
    exact hno.resolve_left (by rw [halt]; decide)

/-- No key types the byte 0. -/
theorem us_char_some_ne_zero {code v : UInt8} {shift caps : Bool}
    (h : us_char shift caps code = some v) : v ≠ 0 := by
  intro hzero
  rw [hzero] at h
  by_cases hcode : code.toNat < SCAN_CODE_MAP_SIZE
  · exact us_char_ne_zero hcode shift caps h
  · rw [us_char_eq_none (Nat.le_of_not_lt hcode)] at h
    cases h

/-- **A code that the switch passes to `typing_handler`**, with a local variable that does no
harm. -/
theorem KeyboardInv.typing (hinv : KeyboardInv kb h) {printed_char code : UInt8}
    (hedits : code ≠ BACKSPACE_PRESSED ∧ code ≠ ENTER_KEY ∧ code ≠ TAB_PRESSED)
    (halt : code ≠ ALT_PRESSED ∧ code ≠ ALT_RELEASED)
    (htable : SCAN_CODE_MAP_SIZE ≤ code.toNat → no_table code)
    (hlocal : LocalHarmless h ⟨code, printed_char⟩) :
    KeyboardInv (typing_handler printed_char code kb).1 h ∧
      passed (typing_handler printed_char code kb).2 = us_keyboard h code := by
  rw [hinv.typing_handler_eq]
  unfold us_keyboard
  rw [if_neg hedits.1, if_neg hedits.2.1, if_neg hedits.2.2]
  cases hctrl : h.ctrl with
  | true =>
      obtain ⟨hreleased, hl⟩ := typed_char_ctrl hctrl htable hlocal
      obtain ⟨hkeep, hpassed⟩ := hinv.ctrl_key_handler hctrl hreleased
      refine ⟨hkeep, hpassed.trans ?_⟩
      simp only [hl, if_true]
  | false =>
      cases hdown : h.alt with
      | true =>
          simp only [Bool.false_eq_true, if_false, if_true]
          exact ⟨by rw [alt_key_handler_fst halt.1 halt.2]; exact hinv, passed_alt_key_handler _ _⟩
      | false =>
          simp only [Bool.false_eq_true, if_false]
          rw [typed_char_plain hctrl hdown hedits.2.1 htable hlocal]
          cases hus : us_char h.shift h.caps code with
          | none => exact ⟨hinv, rfl⟩
          | some v =>
              simp only [Option.getD_some, if_pos (us_char_some_ne_zero hus)]
              exact ⟨hinv, rfl⟩

/-! ## One scan code -/

/-- **One scan code**: the flags keep saying which keys are down, and the calls are the
keyboard's. -/
theorem KeyboardInv.handler (hinv : KeyboardInv kb h) {e : scan} (hshift : ShiftsApart h e.code)
    (hlocal : LocalHarmless h e) :
    KeyboardInv (keyboard_handler e.printed_char e.code kb).1 (h.after e.code) ∧
      passed (keyboard_handler e.printed_char e.code kb).2 = us_keyboard h e.code := by
  obtain ⟨code, printed_char⟩ := e
  dsimp only at hshift ⊢
  obtain hcase := exists_scanCase code
  cases hcase with
  | caps_pressed => exact ⟨hinv.caps_pressed, (us_keyboard_modifier (by decide) h).symm⟩
  | caps_released =>
      refine ⟨?_, (us_keyboard_modifier (by decide) h).symm⟩
      exact ⟨hinv.shift_held, hinv.caps_locked_activated, rfl, hinv.ctrl_held, hinv.alt_held⟩
  | left_shift_pressed =>
      refine ⟨?_, (us_keyboard_modifier (by decide) h).symm⟩
      have hdown : 1 = flag (true || h.right_shift) := rfl
      exact hinv.shift_key hdown
  | right_shift_pressed =>
      refine ⟨?_, (us_keyboard_modifier (by decide) h).symm⟩
      have hdown : 1 = flag (h.left_shift || true) := by rw [Bool.or_true]; rfl
      exact hinv.shift_key hdown
  | left_shift_released =>
      refine ⟨?_, (us_keyboard_modifier (by decide) h).symm⟩
      -- the other key is up
      have hup : 0 = flag (false || h.right_shift) := by rw [hshift.1 rfl]; rfl
      exact hinv.shift_key hup
  | right_shift_released =>
      refine ⟨?_, (us_keyboard_modifier (by decide) h).symm⟩
      have hup : 0 = flag (h.left_shift || false) := by rw [hshift.2 rfl]; rfl
      exact hinv.shift_key hup
  | ctl_pressed =>
      refine ⟨?_, (us_keyboard_modifier (by decide) h).symm⟩
      exact ⟨hinv.shift_held, hinv.caps_locked_activated, hinv.caps_lock_held, rfl, hinv.alt_held⟩
  | ctl_released =>
      refine ⟨?_, (us_keyboard_modifier (by decide) h).symm⟩
      exact ⟨hinv.shift_held, hinv.caps_locked_activated, hinv.caps_lock_held, rfl, hinv.alt_held⟩
  | backspace => exact ⟨hinv, rfl⟩
  | enter => exact ⟨hinv, rfl⟩
  | tab => exact ⟨hinv, rfl⟩
  | alt_pressed =>
      exact ⟨hinv.alt_pressed, (passed_alt_key_handler _ _).trans
        (us_keyboard_modifier (by decide) h).symm⟩
  | alt_released =>
      exact ⟨hinv.alt_released, (passed_alt_key_handler _ _).trans
        (us_keyboard_modifier (by decide) h).symm⟩
  | typing held handler edits alt table =>
      rw [held, handler]
      exact hinv.typing edits alt table hlocal

end

/-! ## Every run -/

theorem keyboardInv_start : KeyboardInv keyboard_start.1 keyboard_start.2 := ⟨rfl, rfl, rfl, rfl, rfl⟩

/-- **The characters are those of a US keyboard in every run in which no Shift key is
released while the other one is down and the local variable does no harm behind the
tables.** -/
theorem types_right {es : List scan}
    (hes : AllSteps keyboard_step (fun w e => ShiftsApart w.2 e.code ∧ LocalHarmless w.2 e)
      keyboard_start es) : AllSteps keyboard_step TypesRight keyboard_start es := by
  refine hes.mono (fun w => KeyboardInv w.1 w.2) ?_ ?_ keyboardInv_start
  · rintro w e w' hinv ⟨hshift, hlocal⟩ hstep
    obtain rfl := Option.some.inj hstep
    exact (hinv.handler hshift hlocal).1
  · rintro w e hinv ⟨hshift, hlocal⟩
    exact (hinv.handler hshift hlocal).2

/-- The codes of a sequence, with the local variable 0. -/
def scans (codes : List UInt8) : List scan := codes.map fun code => ⟨code, 0⟩

/-- Caps Lock is held until it repeats, and letters are typed with and without Shift. -/
theorem types_right_demo :
    AllSteps keyboard_step TypesRight keyboard_start
      (scans [CAPS_LOCK_PRESSED, CAPS_LOCK_PRESSED, CAPS_LOCK_RELEASED, 0x1E, 0x9E,
        RIGHT_SHIFT_PRESSED, 0x1E, 0x02, RIGHT_SHIFT_RELEASED]) :=
  types_right (by decide +kernel)

/-- Both Shift keys are pressed and one is released: the next letter is a small one. -/
theorem shift_forgotten : ¬ AllSteps keyboard_step TypesRight keyboard_start
    (scans [LEFT_SHIFT_PRESSED, RIGHT_SHIFT_PRESSED, RIGHT_SHIFT_RELEASED, 0x1E]) := by
  decide +kernel

end LinuxLikeOS
