/-
The consoles as typewriters.

What the consoles are for, without pages, flags and cursor registers: each has a sheet that is
printed on, a line that is being typed, and a reader who may be waiting for it. A process prints
on the sheet of the console that is scheduled; a key goes to the one on display, edits its line
and is printed as well. Nothing else happens to a console, and nothing that happens to one shows
on another.

An orderly step is one that the programs and the person at the keyboard do not go wrong with. It
keeps the line at the end of what is printed (`Console.Tidy`), so that a backspace takes the same
character from both.
-/
import LinuxLikeOS.Sheets

set_option autoImplicit false

namespace LinuxLikeOS

open Kernel Transition LineEdit TextLayout

/-! ## The typewriters -/

structure Console where
  sheet : Sheet UInt8
  line : List UInt8
  reading : Bool
  complete : Bool

/-- A text printed on a sheet. -/
def printed (s : Sheet UInt8) (text : List UInt8) : Sheet UInt8 := text.foldl print s

theorem printed_concat (s : Sheet UInt8) (text : List UInt8) (c : UInt8) :
    printed s (text ++ [c]) = print (printed s text) c := by
  simp only [printed, List.foldl_append, List.foldl_cons, List.foldl_nil]

/-- What has been printed stays in the text, also where it has left the screen. -/
theorem printed_text (s : Sheet UInt8) (text : List UInt8) :
    (printed s text).text = s.text ++ text := by
  induction text using List.reverseRecOn with
  | nil => rw [List.append_nil]; rfl
  | append_singleton text c ih =>
      rw [printed_concat, ← List.append_assoc, ← ih]
      rfl

namespace Console

/-- A key comes. -/
def key (response : UInt8) (con : Console) : Console :=
  if response = CTL_L_CMD then { con with sheet := printed .blank con.line }
  else if response = 0 ∨ con.reading = false then con
  else if response = BACKSPACE_PRESSED then
    if con.line = [] then con
    else { con with sheet := con.sheet.erase, line := con.line.dropLast }
  else if response = ENTER_KEY then
    { con with
      sheet := print con.sheet END_OF_LINE
      line := con.line ++ [END_OF_LINE]
      complete := true }
  else if con.line.length = MAX_BUF_SIZE - 1 then con
  else { con with sheet := print con.sheet response, line := con.line ++ [response] }

/-- The reader has been given its line. -/
def taken (con : Console) : Console :=
  { con with line := [], reading := false, complete := false }

end Console

structure Consoles where
  scheduled : Terminal
  displayed : Terminal
  console : Terminal → Console

/-- The bytes of a buffer that are printed. -/
def bytes_written (buf : Option (ℕ → UInt8)) (nbytes : Int) : List UInt8 :=
  match buf with
  | none => []
  | some buf => ((List.range nbytes.toNat).map buf).filter (· ≠ 0)

namespace Consoles

def update (s : Consoles) (t : Terminal) (f : Console → Console) : Consoles :=
  { s with console := Function.update s.console t (f (s.console t)) }

def step (s : Consoles) : ScreenOp → Option Consoles
  | .write buf nbytes => some (s.update s.scheduled fun con =>
      { con with sheet := printed con.sheet (bytes_written buf nbytes) })
  | .key response => some (s.update s.displayed (·.key response))
  | .read_begin buf nbytes => some (if buf = 0 ∨ nbytes ≤ 0 then s
      else s.update s.scheduled fun con => { con with reading := true })
  | .read_end _ _ =>
      if (s.console s.scheduled).reading = true ∧ (s.console s.scheduled).complete = true then
        some (s.update s.scheduled Console.taken)
      else none
  | .tick => some { s with scheduled := next_terminal s.scheduled }
  | .switch_screen t => some { s with displayed := t }

/-- A process that waits for a line makes no other call. A key that is taken finds room in the
line, is no line break, and is no backspace behind ENTER. -/
def Orderly (s : Consoles) : ScreenOp → Prop
  | .write _ _ => (s.console s.scheduled).reading = false
  | .key response => OneCell response ∧
      (response ≠ CTL_L_CMD → response ≠ 0 → (s.console s.displayed).reading = true →
        (s.console s.displayed).line.length ≠ MAX_BUF_SIZE) ∧
      (response = BACKSPACE_PRESSED → (s.console s.displayed).complete = false)
  | .read_begin _ _ | .read_end _ _ | .tick | .switch_screen _ => True

instance (s : Consoles) : (op : ScreenOp) → Decidable (s.Orderly op)
  | .write _ _ => inferInstanceAs (Decidable (_ = _))
  | .key _ => inferInstanceAs (Decidable (_ ∧ _ ∧ _))
  | .read_begin _ _ | .read_end _ _ | .tick | .switch_screen _ => isTrue trivial

end Consoles

/-! ## Lines and sheets -/

/-- The line is the end of what has been printed, and there is none without a reader. -/
structure Console.Tidy (con : Console) : Prop where
  idle : con.reading = false → con.line = []
  printed : con.line <:+ con.sheet.text
  one_cell : con.complete = false → ∀ c, c ∈ con.line → OneCell c

namespace Console.Tidy

variable {con : Console}

/-- A character that is typed is printed. -/
theorem type (h : con.Tidy) (hreading : con.reading = true) (c : UInt8) {done : Bool}
    (hc : done = false → OneCell c) (hdone : con.complete = true → done = true) :
    Console.Tidy { con with
      sheet := print con.sheet c, line := con.line ++ [c], complete := done } where
  idle hidle := by rw [hreading] at hidle; cases hidle
  printed := by
    obtain ⟨before, hbefore⟩ := h.printed
    refine ⟨before, ?_⟩
    show before ++ (con.line ++ [c]) = con.sheet.text ++ [c]
    rw [← hbefore, List.append_assoc]
  one_cell hcomplete d hd := by
    have hopen : con.complete = false := by
      by_contra hcon
      rw [hdone (Bool.not_eq_false _ ▸ hcon)] at hcomplete
      cases hcomplete
    rcases List.mem_append.mp hd with hd | hd
    · exact h.one_cell hopen d hd
    · exact List.mem_singleton.mp hd ▸ hc hcomplete

/-- The last character of the line is the last one of the sheet. -/
theorem exists_last (h : con.Tidy) (hline : con.line ≠ []) :
    ∃ c, con.line = con.line.dropLast ++ [c] ∧
      con.sheet.text = con.sheet.text.dropLast ++ [c] := by
  obtain ⟨before, hbefore⟩ := h.printed
  have hlast := List.dropLast_append_getLast hline
  refine ⟨con.line.getLast hline, hlast.symm, ?_⟩
  rw [← hbefore, List.dropLast_append_of_ne_nil hline, List.append_assoc, hlast]

theorem erase (h : con.Tidy) :
    Console.Tidy { con with sheet := con.sheet.erase, line := con.line.dropLast } where
  idle hidle := by
    have hnil := h.idle hidle
    rw [hnil]
    rfl
  printed := by
    obtain ⟨before, hbefore⟩ := h.printed
    by_cases hline : con.line = []
    · rw [hline]
      exact List.nil_suffix
    · refine ⟨before, ?_⟩
      show before ++ con.line.dropLast = con.sheet.text.dropLast
      rw [← hbefore, List.dropLast_append_of_ne_nil hline]
  one_cell hcomplete c hc := h.one_cell hcomplete c (List.dropLast_subset _ hc)

/-- **A key keeps the line at the end of the sheet.** -/
theorem key {response : UInt8} (h : con.Tidy) (hc : OneCell response) :
    (con.key response).Tidy := by
  unfold Console.key
  by_cases hctl : response = CTL_L_CMD
  · rw [if_pos hctl]
    refine ⟨h.idle, ?_, h.one_cell⟩
    rw [printed_text]
    exact List.suffix_append _ _
  · rw [if_neg hctl]
    by_cases hnone : response = 0 ∨ con.reading = false
    · rw [if_pos hnone]
      exact h
    · have hreading : con.reading = true := by
        rw [not_or, Bool.not_eq_false] at hnone
        exact hnone.2
      rw [if_neg hnone]
      by_cases hback : response = BACKSPACE_PRESSED
      · rw [if_pos hback]
        split
        · exact h
        · exact h.erase
      · rw [if_neg hback]
        by_cases henter : response = ENTER_KEY
        · rw [if_pos henter]
          exact h.type hreading END_OF_LINE (fun hfalse => by cases hfalse) fun _ => rfl
        · rw [if_neg henter]
          split
          · exact h
          · exact h.type hreading response (fun _ => hc) id

end Console.Tidy

end LinuxLikeOS
