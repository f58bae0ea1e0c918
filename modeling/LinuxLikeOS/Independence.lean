/-
The consoles do not show on each other.

The content of a console is the page on display for the terminal that is there, and the
terminal's backup page otherwise; a screen switch copies two pages and moves no console.
Every other step works on one console, inside its page and its terminal fields
(`Local`), and does there what it would do on a machine where that terminal is always
scheduled and on display (`Same`). So what happened on a console is the replay of its own
output and keys.

Two things have to be kept from happening. A key that comes to a full line is stored
behind the line buffer, and from there the stores reach the next terminal. And a backspace
on the first cell of the screen, which takes a `clear` in the middle of a line, leaves the
page backwards.
-/
import LinuxLikeOS.Keys
import LinuxLikeOS.Replay

set_option autoImplicit false

namespace LinuxLikeOS

open Kernel Transition

/-! ## The screen switch -/

/-- What a terminal shows when it is on display. -/
def content (k : Kernel) (t : Terminal) (c : Int) : cell := k.video (page_of k t + c)

theorem copy_page_at {dest src c : Int} (h₀ : 0 ≤ c) (h₁ : c < PAGE_CELLS) (video : Int → cell) :
    copy_page dest src video (dest + c) = video (src + c) := by
  have hback : dest + c - dest = c := by omega
  unfold copy_page
  rw [if_pos (by omega), hback]

theorem copy_page_off {dest src c : Int} (hc : c < dest ∨ dest + PAGE_CELLS ≤ c)
    (video : Int → cell) : copy_page dest src video c = video c := by
  unfold copy_page
  exact if_neg (by omega)

/-- After the first copy every backup page holds what its terminal shows. -/
theorem saved_page (k : Kernel) (u : Terminal) {c : Int} (h₀ : 0 ≤ c) (h₁ : c < PAGE_CELLS) :
    copy_page (backup_page k.screen_terminal) 0 k.video (backup_page u + c) = content k u c := by
  unfold content page_of
  by_cases hu : u = k.screen_terminal
  · rw [if_pos hu, hu, copy_page_at h₀ h₁]
  · rw [if_neg hu, copy_page_off (backup_page_disjoint hu h₀ h₁)]

/-- No console changes when another one is put on display, or the same one again. -/
theorem same_switch_screen (n u : Terminal) (k : Kernel) : Same u k (switch_screen n k) where
  terminal := (Same.refl u k).terminal
  cell c h₀ h₁ := by
    have hbackup := backup_page_ge u
    have hvideo : (switch_screen n k).video
        = copy_page 0 (backup_page n) (copy_page (backup_page k.screen_terminal) 0 k.video) := rfl
    have hpage : page_of (switch_screen n k) u = if u = n then 0 else backup_page u := rfl
    rw [hvideo, hpage]
    -- the new terminal finds its page on display, every other one its backup page
    by_cases hu : u = n
    · rw [if_pos hu, copy_page_at h₀ h₁, ← hu]
      exact saved_page k u h₀ h₁
    · rw [if_neg hu, copy_page_off (by omega)]
      exact saved_page k u h₀ h₁

/-! ## Runs -/

/-- What holds of the consoles between two steps. -/
structure ConsoleInv (k : Kernel) : Prop where
  display : k.DISPLAY_ON_MAIN_PAGE = 0
  in_screen : ∀ t, InScreen (k.terminal_array t)
  bounds : LineBounds k

/-- The step does not leave the line buffer or the page. -/
def ConsoleFits (k : Kernel) (op : ConsoleOp) : Prop := KeyFits k op ∧ EraseFits k op

instance (k : Kernel) (op : ConsoleOp) : Decidable (ConsoleFits k op) :=
  inferInstanceAs (Decidable (_ ∧ _))

/-- The terminal a step belongs to. Interrupts and screen switches belong to none. -/
def owner (k : Kernel) : ConsoleOp → Option Terminal
  | .putc _ | .clear | .read_begin _ _ | .read_end _ _ => some k.curr_terminal
  | .key _ => some k.screen_terminal
  | .tick | .switch_screen _ => none

/-- The kernel with terminal `t` scheduled and on display, its content on the page there. -/
def solo (t : Terminal) (k : Kernel) : Kernel :=
  { k with curr_terminal := t, screen_terminal := t, video := content k t }

theorem copy_solo {k : Kernel} (h : ConsoleInv k) (t : Terminal) : Copy t k (solo t k) where
  same := by
    refine ⟨(Same.refl t k).terminal, fun c h₀ h₁ => ?_⟩
    have hpage : page_of (solo t k) t = 0 := page_of_screen (solo t k)
    rw [hpage, Int.zero_add]
    rfl
  curr_terminal := rfl
  screen_terminal := rfl
  display := h.display

theorem consoleInv_boot {env : Env} {k : Kernel} (h : Started env k) : ConsoleInv k where
  display := h.booted.DISPLAY_ON_MAIN_PAGE
  in_screen t := AtOrigin.in_screen ⟨h.booted.screen_x t, h.booted.screen_y t⟩
  bounds := lineBounds_boot h

/-- The terminal after a reader has taken its line. -/
def line_taken (nbytes : Int) (ti : terminal_info_t) : terminal_info_t :=
  { ti with
    buffer := fun i =>
      if i < if (MAX_BUF_SIZE : Int) < nbytes then MAX_BUF_SIZE else nbytes.toNat then 0
      else ti.buffer i
    buffer_size := 0
    waitingInRead := 0
    enter_flag := 0 }

theorem same_line_taken (nbytes : Int) {ti ti' : terminal_info_t} (h : SameTerminal ti ti') :
    SameTerminal (line_taken nbytes ti) (line_taken nbytes ti') := by
  refine { h with buffer := fun i hi => ?_, buffer_size := rfl, waitingInRead := rfl, enter_flag := rfl }
  unfold line_taken
  dsimp only
  rw [h.buffer i hi]

theorem terminal_read_end_eq (nbytes : Int) (buf : ℕ → UInt8) {k : Kernel} {t : Terminal}
    (ht : k.curr_terminal = t) :
    ∃ accesses, (terminal_read_end nbytes buf k).2.2
      = { k with line_accesses := accesses }.set_terminal t (line_taken nbytes) := by
  subst ht
  exact ⟨_, rfl⟩

/-- Where a key for the terminal on display begins. -/
theorem ConsoleInv.typing {k r : Kernel} (h : ConsoleInv k) (hcopy : Copy k.screen_terminal k r) :
    Typing k.screen_terminal k k r :=
  ⟨.refl _ k, hcopy, h.in_screen _, rfl, h.display⟩

/-- A step of one owner stays inside the owner's console. -/
theorem owned_step {k k' : Kernel} {op : ConsoleOp} {t : Terminal} (h : ConsoleInv k)
    (hfits : ConsoleFits k op) (howner : owner k op = some t) (hstep : console_step k op = some k') :
    Local t k k' ∧ InScreen (k'.terminal_array t) ∧ k'.DISPLAY_ON_MAIN_PAGE = 0 := by
  have hdraw := draw_terminal_of_off h.display
  cases op with
  | putc c =>
      rw [owner, Option.some.injEq] at howner
      rw [console_step, Option.some.injEq] at hstep
      have hpos : InScreen (k.terminal_array (draw_terminal k)) := h.in_screen _
      have hnear := local_putc (c := c) hpos
      have hpos' := inScreen_putc (c := c) hpos
      rw [hdraw, howner] at hnear hpos'
      exact hstep ▸ ⟨hnear, hpos', (putc_eq c k).2.2⟩
  | clear =>
      rw [owner, Option.some.injEq] at howner
      rw [console_step, Option.some.injEq] at hstep
      have hnear := local_clear k
      have hpos := inScreen_clear k
      rw [hdraw, howner] at hnear hpos
      exact hstep ▸ ⟨hnear, hpos, draw_flags_display k⟩
  | key response =>
      rw [owner, Option.some.injEq] at howner
      rw [console_step, Option.some.injEq] at hstep
      subst howner
      have htyping := (h.typing (copy_solo h _)).edit_buffer h.bounds.line_le hfits.1 hfits.2
      exact hstep ▸ ⟨htyping.others, htyping.in_screen, htyping.display⟩
  | read_begin buf nbytes =>
      rw [owner, Option.some.injEq] at howner
      rw [console_step, Option.some.injEq] at hstep
      rw [← hstep, ← howner]
      rcases terminal_read_begin_cases buf nbytes k with ⟨-, hread⟩ | ⟨-, hread⟩
      · rw [hread]
        exact ⟨.refl _ k, h.in_screen _, h.display⟩
      · rw [hread]
        dsimp only
        refine ⟨local_set_terminal _ k _, ?_, h.display⟩
        rw [set_terminal_apply, if_pos rfl]
        exact h.in_screen k.curr_terminal
  | read_end nbytes buf =>
      rw [owner, Option.some.injEq] at howner
      rw [console_step] at hstep
      split at hstep
      · rw [Option.some.injEq] at hstep
        rcases terminal_read_end_eq nbytes buf howner with ⟨accesses, heq⟩
        rw [← hstep, heq]
        have hset := local_set_terminal t { k with line_accesses := accesses } (line_taken nbytes)
        refine ⟨⟨hset.1, hset.2, hset.3, hset.4⟩, ?_, h.display⟩
        rw [set_terminal_apply, if_pos rfl]
        exact h.in_screen t
      · cases hstep
  | tick => cases howner
  | switch_screen n => cases howner

/-- A step that does not belong to `t` does not show there. -/
theorem same_of_not_owned {k k' : Kernel} {op : ConsoleOp} {t : Terminal} (h : ConsoleInv k)
    (hfits : ConsoleFits k op) (howner : owner k op ≠ some t) (hstep : console_step k op = some k') :
    Same t k k' := by
  cases hop : owner k op with
  | some u =>
      have htu : t ≠ u := fun htu => howner (htu ▸ hop)
      exact (owned_step h hfits hop hstep).1.same htu
  | none =>
      cases op with
      | tick =>
          rw [console_step, Option.some.injEq] at hstep
          exact hstep ▸ ⟨(Same.refl t k).terminal, fun _ _ _ => rfl⟩
      | switch_screen n =>
          rw [console_step, Option.some.injEq] at hstep
          exact hstep ▸ same_switch_screen n t k
      | _ => cases hop

/-- What every step leaves. -/
theorem consoleInv_step {k k' : Kernel} {op : ConsoleOp} (h : ConsoleInv k)
    (hfits : ConsoleFits k op) (hstep : console_step k op = some k') : ConsoleInv k' := by
  have hbounds := h.bounds.step hfits.1 hstep
  cases hop : owner k op with
  | some t =>
      rcases owned_step h hfits hop hstep with ⟨hnear, hpos, hdisplay⟩
      refine ⟨hdisplay, fun u => ?_, hbounds⟩
      by_cases hu : u = t
      · rw [hu]
        exact hpos
      · rw [hnear.terminal u hu]
        exact h.in_screen u
  | none =>
      cases op with
      | tick =>
          rw [console_step, Option.some.injEq] at hstep
          exact hstep ▸ ⟨h.display, h.in_screen, hstep ▸ hbounds⟩
      | switch_screen n =>
          rw [console_step, Option.some.injEq] at hstep
          exact hstep ▸ ⟨h.display, h.in_screen, hstep ▸ hbounds⟩
      | _ => cases hop

/-- A step that belongs to `t` does the same to the copy. -/
theorem copy_step {k k' r : Kernel} {op : ConsoleOp} {t : Terminal} (h : ConsoleInv k)
    (hcopy : Copy t k r) (hfits : ConsoleFits k op) (howner : owner k op = some t)
    (hstep : console_step k op = some k') : ∃ r', console_step r op = some r' ∧ Copy t k' r' := by
  have hdk := draw_terminal_of_off h.display
  have hdr : draw_terminal r = t := (draw_terminal_of_off hcopy.display).trans hcopy.curr_terminal
  cases op with
  | putc c =>
      rw [owner, Option.some.injEq] at howner
      rw [console_step, Option.some.injEq] at hstep
      have hdraws := draws_putc c r
      exact ⟨putc c r, rfl, hstep ▸ same_putc c hcopy.same (hdk.trans howner) hdr,
        hdraws.curr_terminal.trans hcopy.curr_terminal,
        hdraws.screen_terminal.trans hcopy.screen_terminal, (putc_eq c r).2.2⟩
  | clear =>
      rw [owner, Option.some.injEq] at howner
      rw [console_step, Option.some.injEq] at hstep
      have hdraws := draws_clear r
      exact ⟨clear r, rfl, hstep ▸ same_clear hcopy.same (hdk.trans howner) hdr,
        hdraws.curr_terminal.trans hcopy.curr_terminal,
        hdraws.screen_terminal.trans hcopy.screen_terminal, draw_flags_display r⟩
  | key response =>
      rw [owner, Option.some.injEq] at howner
      rw [console_step, Option.some.injEq] at hstep
      subst howner
      have htyping := (h.typing hcopy).edit_buffer h.bounds.line_le hfits.1 hfits.2
      exact ⟨edit_buffer response r, rfl, hstep ▸ htyping.copy⟩
  | read_begin buf nbytes =>
      rw [owner, Option.some.injEq] at howner
      rw [console_step, Option.some.injEq] at hstep
      refine ⟨_, rfl, ?_⟩
      rw [← hstep]
      unfold terminal_read_begin
      split
      · exact hcopy
      · split
        · exact hcopy
        · dsimp only
          rw [hcopy.curr_terminal, howner]
          exact ⟨same_set_terminal hcopy.same fun ti ti' hti => { hti with waitingInRead := rfl },
            hcopy.curr_terminal, hcopy.screen_terminal, hcopy.display⟩
  | read_end nbytes buf =>
      rw [owner, Option.some.injEq] at howner
      rw [console_step] at hstep
      split at hstep
      · rename_i hready
        have hready' : line_ready r := by
          unfold line_ready at hready ⊢
          rw [howner] at hready
          rw [hcopy.curr_terminal, hcopy.same.terminal.waitingInRead, hcopy.same.terminal.enter_flag]
          exact hready
        refine ⟨(terminal_read_end nbytes buf r).2.2, by rw [console_step, if_pos hready'], ?_⟩
        rw [Option.some.injEq] at hstep
        rcases terminal_read_end_eq nbytes buf howner with ⟨accesses, heq⟩
        rcases terminal_read_end_eq nbytes buf hcopy.curr_terminal with ⟨accesses', heq'⟩
        have hsame : Same t { k with line_accesses := accesses }
            { r with line_accesses := accesses' } := ⟨hcopy.same.1, hcopy.same.2⟩
        rw [← hstep, heq, heq']
        exact ⟨same_set_terminal hsame fun ti ti' hti => same_line_taken nbytes hti,
          hcopy.curr_terminal, hcopy.screen_terminal, hcopy.display⟩
      · cases hstep
  | tick => cases howner
  | switch_screen n => cases howner

/-- In a run that stays inside the buffers and pages, every terminal's own events replay on
a kernel where it is always scheduled and on display. -/
theorem replay_own {env : Env} {k₀ k : Kernel} {ops : List ConsoleOp} (hstart : Started env k₀)
    (hrun : run console_step k₀ ops = some k) (hfits : AllSteps console_step ConsoleFits k₀ ops)
    (t : Terminal) :
    ∃ r, run console_step (solo t k₀) (own console_step owner t k₀ ops) = some r ∧
      (ConsoleInv k ∧ Copy t k r) := by
  have hinv := consoleInv_boot hstart
  -- the relation: the invariant here, and the console of `t` over there
  apply replay (C := ConsoleFits) (fun k r => ConsoleInv k ∧ Copy t k r) t ?_ ?_
    ⟨hinv, copy_solo hinv t⟩ hfits hrun
  · rintro k r op k' ⟨h, hcopy⟩ hop howner hstep
    have hsame := (same_of_not_owned h hop howner hstep).symm.trans hcopy.same
    exact ⟨consoleInv_step h hop hstep, hsame, hcopy.curr_terminal, hcopy.screen_terminal,
      hcopy.display⟩
  · rintro k r op k' ⟨h, hcopy⟩ hop howner hstep
    rcases copy_step h hcopy hop howner hstep with ⟨r', hr', hcopy'⟩
    exact ⟨r', hr', consoleInv_step h hop hstep, hcopy'⟩

/-- What terminal `t` shows, and where its cursor is, comes from its own output and keys. -/
def ReplaysAlone (t : Terminal) (k₀ : Kernel) (ops : List ConsoleOp) (k : Kernel) : Prop :=
  ∃ r, run console_step (solo t k₀) (own console_step owner t k₀ ops) = some r ∧
    (r.curr_terminal = t ∧ r.screen_terminal = t) ∧
    (∀ c, 0 ≤ c → c < PAGE_CELLS → content r t c = content k t c) ∧
    (r.terminal_array t).screen_x = (k.terminal_array t).screen_x ∧
    (r.terminal_array t).screen_y = (k.terminal_array t).screen_y

/-- **The consoles are independent in every run in which no key comes to a full line and no
backspace to the first cell.** -/
theorem consoles_replay_alone {env : Env} {k₀ k : Kernel} {ops : List ConsoleOp}
    (hstart : Started env k₀) (hrun : run console_step k₀ ops = some k)
    (hfits : AllSteps console_step ConsoleFits k₀ ops) (t : Terminal) :
    ReplaysAlone t k₀ ops k := by
  rcases replay_own hstart hrun hfits t with ⟨r, hr, -, hcopy⟩
  exact ⟨r, hr, ⟨hcopy.curr_terminal, hcopy.screen_terminal⟩, hcopy.same.cell,
    hcopy.same.terminal.screen_x, hcopy.same.terminal.screen_y⟩

/-- Terminal 1 prints in the background and on display while the line of terminal 0 is
typed, corrected and redrawn. -/
theorem consoles_replay_alone_demo : ∃ k,
    run console_step demo [.tick, .read_begin demo_buf 128, .tick, .putc 65, .key 97, .switch_screen 1,
      .putc 66, .switch_screen 1, .switch_screen 0, .key BACKSPACE_PRESSED, .key 98,
      .key CTL_L_CMD] = some k ∧
    ∀ t, ReplaysAlone t demo [.tick, .read_begin demo_buf 128, .tick, .putc 65, .key 97,
      .switch_screen 1, .putc 66, .switch_screen 1, .switch_screen 0, .key BACKSPACE_PRESSED,
      .key 98, .key CTL_L_CMD] k := by
  have hsome : (run console_step demo [.tick, .read_begin demo_buf 128, .tick, .putc 65, .key 97,
      .switch_screen 1, .putc 66, .switch_screen 1, .switch_screen 0, .key BACKSPACE_PRESSED,
      .key 98, .key CTL_L_CMD]).isSome = true := by decide +kernel
  obtain ⟨k, hk⟩ := Option.isSome_iff_exists.mp hsome
  exact ⟨k, hk, consoles_replay_alone demo_started hk (by decide +kernel)⟩

/-! ## A line that reaches the next terminal -/

theorem line_store_screen (t : Terminal) (i : ℕ) (v : UInt8) (k : Kernel) :
    (line_store t i v k).screen_terminal = k.screen_terminal := by
  unfold line_store
  dsimp only
  split
  · rfl
  · split <;> rfl

theorem echo_store_screen (c v : UInt8) (k : Kernel) :
    (echo c (store_at_end v k)).screen_terminal = k.screen_terminal :=
  (draws_echo c _).screen_terminal.trans (line_store_screen _ _ v k)

theorem delete_char_screen (k : Kernel) : (delete_char k).screen_terminal = k.screen_terminal := by
  have hlast : ∀ k₁ : Kernel, (if (k₁.terminal_array k₁.screen_terminal).buffer_size = 0 then
      store_at_end 0 k₁ else k₁).screen_terminal = k₁.screen_terminal := by
    intro k₁
    split
    · exact line_store_screen _ _ 0 k₁
    · rfl
  unfold delete_char
  dsimp only
  rw [hlast]
  split
  · exact (line_store_screen _ _ 0 _).trans (draws_erase_char k).screen_terminal
  · rfl

/-- A key leaves the same terminal on display. -/
theorem edit_buffer_screen {c : UInt8} (hc : c ≠ CTL_L_CMD) (k : Kernel) :
    (edit_buffer c k).screen_terminal = k.screen_terminal := by
  obtain ⟨b, hcase⟩ := exists_keyCase c (k.terminal_array k.screen_terminal)
  rw [edit_buffer_eq hcase]
  cases hcase with
  | redraw key => exact absurd key hc
  | idle => rfl
  | full => rfl
  | enter => exact echo_store_screen _ _ k
  | delete => exact delete_char_screen k
  | add => exact echo_store_screen c c k

/-- Keys belong to the terminal on display, and none of them to another. -/
theorem own_keys {cs : List UInt8} {k k' : Kernel} (hcs : ∀ c, c ∈ cs → c ≠ CTL_L_CMD)
    (hrun : run console_step k (cs.map ConsoleOp.key) = some k') :
    k'.screen_terminal = k.screen_terminal ∧
      ∀ t, t ≠ k.screen_terminal → own console_step owner t k (cs.map ConsoleOp.key) = [] := by
  induction cs generalizing k with
  | nil =>
      rw [List.map_nil, run_nil, Option.some.injEq] at hrun
      exact ⟨hrun ▸ rfl, fun t ht => rfl⟩
  | cons c cs ih =>
      rcases run_cons_eq_some.mp hrun with ⟨k₁, hk₁, hrest⟩
      have hscreen : k₁.screen_terminal = k.screen_terminal := by
        rw [console_step, Option.some.injEq] at hk₁
        rw [← hk₁]
        exact edit_buffer_screen (hcs c List.mem_cons_self) k
      rcases ih (fun c hc => hcs c (List.mem_cons_of_mem _ hc)) hrest with ⟨hscreen', hown⟩
      refine ⟨hscreen'.trans hscreen, fun t ht => ?_⟩
      have howner : owner k (.key c) ≠ some t := by
        intro h
        rw [owner, Option.some.injEq] at h
        exact ht h.symm
      rw [List.map_cons, own_cons_of_ne hk₁ howner]
      apply hown t
      rw [hscreen]
      exact ht

theorem lineAt_shrink {n : ℕ} {k : Kernel} (h : LineAt n k) :
    LineAt ((n + 255) % 256) (shrink_line k) := by
  refine ⟨?_, by rw [line_size_shrink_line, h.2]⟩
  unfold line_waiting
  show ((k.set_terminal k.screen_terminal _).terminal_array k.screen_terminal).waitingInRead = 1
  rw [set_terminal_apply, if_pos rfl]
  exact h.1

theorem Draws.lineAt {n : ℕ} {k k' : Kernel} (h : Draws k k') (hline : LineAt n k) : LineAt n k' :=
  ⟨h.line.2.mpr hline.1, h.line.1.trans hline.2⟩

/-- A backspace stores before it shortens the line, and stores once while bytes are left. -/
theorem delete_char_eq {n : ℕ} {k : Kernel} (hn : 0 < n) (h : LineAt n k)
    (hleft : ∀ k₁, k₁ = shrink_line (store_at_end 0 (erase_char k)) → line_size k₁ ≠ 0) :
    edit_buffer BACKSPACE_PRESSED k = shrink_line (store_at_end 0 (erase_char k)) := by
  have hsize : (k.terminal_array k.screen_terminal).buffer_size = n := h.2
  have hpos : (k.terminal_array k.screen_terminal).buffer_size > 0 := by omega
  have hcase : KeyCase BACKSPACE_PRESSED (k.terminal_array k.screen_terminal) .delete :=
    .delete ⟨by decide, by decide, h.1⟩ rfl
  rw [edit_buffer_eq hcase]
  unfold KeyBranch.perform delete_char
  dsimp only
  rw [if_pos hpos]
  exact if_neg (hleft _ rfl)

/-- The store of a backspace on a full line is to `buffer_size`, which then runs below
zero. -/
theorem backspace_full {k : Kernel} (h : LineAt MAX_BUF_SIZE k) :
    LineAt 255 (edit_buffer BACKSPACE_PRESSED k) := by
  have herase := (draws_erase_char k).lineAt h
  have hstore : LineAt 0 (store_at_end 0 (erase_char k)) := by
    have hsize : ((erase_char k).terminal_array (erase_char k).screen_terminal).buffer_size = 128 :=
      herase.2
    have hset : store_at_end 0 (erase_char k)
        = { erase_char k with
            line_accesses := 128 :: (erase_char k).line_accesses }.set_terminal
          (erase_char k).screen_terminal fun ti => { ti with buffer_size := 0 } := by
      unfold store_at_end
      rw [hsize]
      rfl
    unfold LineAt line_waiting line_size
    rw [hset]
    show ((Kernel.set_terminal _ _ _).terminal_array (erase_char k).screen_terminal).waitingInRead = 1 ∧
      ((Kernel.set_terminal _ _ _).terminal_array (erase_char k).screen_terminal).buffer_size = 0
    rw [set_terminal_apply, if_pos rfl]
    exact ⟨herase.1, rfl⟩
  have hshrink := lineAt_shrink hstore
  rw [delete_char_eq (by decide) h]
  · exact hshrink
  · intro k₁ hk₁
    rw [hk₁, hshrink.2]
    decide

/-- A store behind the fields of terminal 0 is a store to terminal 1. -/
theorem store_past {n : ℕ} {k : Kernel} (hn : 156 ≤ n) (h : LineAt n k)
    (hscreen : k.screen_terminal = 0) (v : UInt8) :
    LineAt n (store_at_end v k) ∧
      (store_at_end v k).terminal_array 1 = set_terminal_byte (n - 156) v (k.terminal_array 1) := by
  have hoff : BUFFER_OFFSET = 16 := rfl
  have hbytes : TERMINAL_INFO_BYTES = 172 := rfl
  have hsize : (k.terminal_array k.screen_terminal).buffer_size = n := h.2
  have hset : store_at_end v k
      = { k with line_accesses := n :: k.line_accesses }.set_terminal 1
        (set_terminal_byte (n - 156) v) := by
    have hindex : BUFFER_OFFSET + n - TERMINAL_INFO_BYTES = n - 156 := by omega
    unfold store_at_end line_store
    rw [hsize, hscreen]
    dsimp only
    rw [if_neg (by omega), dif_pos (by decide), hindex]
    rfl
  rw [hset]
  refine ⟨?_, by rw [set_terminal_apply, if_pos rfl]⟩
  unfold LineAt line_waiting line_size at h ⊢
  show ((Kernel.set_terminal _ _ _).terminal_array k.screen_terminal).waitingInRead = 1 ∧
    ((Kernel.set_terminal _ _ _).terminal_array k.screen_terminal).buffer_size = n
  rw [hscreen] at h ⊢
  rw [set_terminal_apply, if_neg (by decide)]
  exact h

/-- From there backspaces walk down through the bytes of terminal 1. -/
theorem backspaces_past {n m : ℕ} {k : Kernel} (hn : 156 ≤ n) (hm : n + m < 256)
    (h : LineAt (n + m) k) (hscreen : k.screen_terminal = 0) :
    ∃ k', run console_step k (List.replicate m (.key BACKSPACE_PRESSED)) = some k' ∧
      LineAt n k' ∧ k'.screen_terminal = 0 := by
  induction m generalizing k with
  | zero => exact ⟨k, rfl, h, hscreen⟩
  | succ m ih =>
      have herase := (draws_erase_char k).lineAt h
      have hdisplay : (erase_char k).screen_terminal = 0 :=
        (draws_erase_char k).screen_terminal.trans hscreen
      have hshrink := lineAt_shrink (store_past (by omega) herase hdisplay 0).1
      have hindex : (n + (m + 1) + 255) % 256 = n + m := by omega
      rw [hindex] at hshrink
      have hback : LineAt (n + m) (edit_buffer BACKSPACE_PRESSED k) := by
        rw [delete_char_eq (by omega) h]
        · exact hshrink
        · intro k₁ hk₁
          rw [hk₁, hshrink.2]
          omega
      have hscreen' := (edit_buffer_screen (c := BACKSPACE_PRESSED) (by decide) k).trans hscreen
      rcases ih (by omega) hback hscreen' with ⟨k', hrun, hpast⟩
      exact ⟨k', run_cons_eq_some.mpr ⟨_, rfl, hrun⟩, hpast⟩

/-- A character at index 164 is the low byte of terminal 1's column. -/
theorem column_overwritten {k : Kernel} (h : LineAt 164 k) (hscreen : k.screen_terminal = 0) :
    ((edit_buffer 97 k).terminal_array 1).screen_x
      = set_int_byte (k.terminal_array 1).screen_x 0 97 := by
  have hcase : KeyCase 97 (k.terminal_array k.screen_terminal) .add := by
    refine .add ⟨by decide, by decide, h.1⟩ (by decide) (by decide) (fun hsize => ?_)
    have hcontra : 164 = MAX_BUF_SIZE - 1 := h.2.symm.trans hsize
    exact absurd hcontra (by decide)
  have hstore := (store_past (by decide) h hscreen 97).2
  have hscreen' : (store_at_end 97 k).screen_terminal = 0 :=
    (line_store_screen _ _ 97 k).trans hscreen
  have hecho : (echo 97 (store_at_end 97 k)).terminal_array 1 = (store_at_end 97 k).terminal_array 1 := by
    unfold echo
    rw [putc_terminal, draw_terminal_of_on rfl]
    apply if_neg
    show (1 : Terminal) ≠ (store_at_end 97 k).screen_terminal
    rw [hscreen']
    decide
  have hgrow : ((edit_buffer 97 k).terminal_array 1) = (echo 97 (store_at_end 97 k)).terminal_array 1 := by
    rw [edit_buffer_eq hcase]
    unfold KeyBranch.perform add_char grow_line
    rw [set_terminal_apply, if_neg]
    rw [(draws_echo _ _).screen_terminal, hscreen']
    decide
  rw [hgrow, hecho, hstore]
  unfold set_terminal_byte
  rw [if_neg (by decide), if_neg (by decide), if_pos (by decide)]

/-- The column it makes is not the first one. -/
theorem set_int_byte_ne_zero (x : Int) : set_int_byte x 0 97 ≠ 0 := by
  have hword : set_word_byte (u32 x) 0 97 = u32 x - u32 x % 256 + 97 := by
    unfold set_word_byte
    rw [Nat.mul_zero, Nat.shiftRight_zero, Nat.pow_zero, Nat.mul_one]
    rfl
  have hlt : u32 x < 4294967296 := by
    unfold u32
    omega
  unfold set_int_byte i32 Int.bmod
  rw [hword]
  dsimp only
  split <;> omega

/-- The keys of `full_line`. -/
def line_keys : List UInt8 := List.replicate 127 97 ++ [ENTER_KEY]

/-- Backspaces and one character, typed before the shell has been scheduled. -/
def overrun : List UInt8 := List.replicate 92 BACKSPACE_PRESSED ++ [97]

theorem overrun_keys (c : UInt8) (hc : c ∈ line_keys ++ overrun) : c ≠ CTL_L_CMD := by
  unfold line_keys overrun at hc
  simp only [List.mem_append, List.mem_replicate, List.mem_singleton] at hc
  rcases hc with (⟨-, rfl⟩ | rfl) | ⟨-, rfl⟩ | rfl <;> decide

/-- The whole of it, from the full line on. -/
theorem overrun_run {k : Kernel} (h : LineAt MAX_BUF_SIZE k) (hscreen : k.screen_terminal = 0) :
    ∃ k', run console_step k (overrun.map ConsoleOp.key) = some k' ∧
      (k'.terminal_array 1).screen_x ≠ 0 := by
  have hscreen' : (edit_buffer BACKSPACE_PRESSED k).screen_terminal = 0 :=
    (edit_buffer_screen (by decide) k).trans hscreen
  obtain ⟨k', hrun, hpast, hdisplay⟩ :=
    backspaces_past (n := 164) (m := 91) (by decide) (by decide) (backspace_full h) hscreen'
  refine ⟨edit_buffer 97 k', run_append (run_cons_eq_some.mpr ⟨_, rfl, hrun⟩) rfl, ?_⟩
  rw [column_overwritten hpast hdisplay]
  exact set_int_byte_ne_zero _

/-- Keys typed for terminal 0 alone move the cursor of terminal 1, which has no events. -/
theorem consoles_replay_alone_fails : Started demo_env demo ∧ ∃ k,
    run console_step demo (full_line ++ overrun.map ConsoleOp.key) = some k ∧
    own console_step owner 1 demo (full_line ++ overrun.map ConsoleOp.key) = [] ∧
    ¬ ReplaysAlone 1 demo (full_line ++ overrun.map ConsoleOp.key) k := by
  have hsplit : full_line ++ overrun.map ConsoleOp.key
      = .tick :: .read_begin demo_buf 128 :: (line_keys ++ overrun).map ConsoleOp.key := rfl
  obtain ⟨k₁, hk₁, hfull⟩ := full_line_demo
  have hfirst : run console_step demo (.tick :: .read_begin demo_buf 128 :: line_keys.map ConsoleOp.key)
      = some k₁ := hk₁
  -- the first two steps, then keys only
  rcases run_cons_eq_some.mp hfirst with ⟨ka, hka, hrest⟩
  rcases run_cons_eq_some.mp hrest with ⟨kb, hkb, hline⟩
  have hka' : { demo with curr_terminal := next_terminal demo.curr_terminal } = ka :=
    Option.some.inj hka
  have hkb' : (terminal_read_begin demo_buf 128 ka).2 = kb := Option.some.inj hkb
  have hscreen : kb.screen_terminal = 0 := by
    rw [← hkb', ← hka']
    exact demo_started.booted.screen_terminal
  have hline_screen :=
    (own_keys (fun c hc => overrun_keys c (List.mem_append_left _ hc)) hline).1.trans hscreen
  obtain ⟨k, hover, hcolumn⟩ := overrun_run hfull hline_screen
  have hkeys : run console_step kb ((line_keys ++ overrun).map ConsoleOp.key) = some k := by
    rw [List.map_append]
    exact run_append hline hover
  have hreader : owner ka (.read_begin demo_buf 128) ≠ some 1 := by
    rw [← hka']
    decide +kernel
  have hown : own console_step owner 1 demo (full_line ++ overrun.map ConsoleOp.key) = [] := by
    rw [hsplit, own_cons_of_ne hka (by decide +kernel), own_cons_of_ne hkb hreader]
    exact (own_keys overrun_keys hkeys).2 1 (by rw [hscreen]; decide)
  refine ⟨demo_started, k, run_append hk₁ hover, hown, ?_⟩
  rintro ⟨r, hr, -, -, hx, -⟩
  rw [hown, run_nil, Option.some.injEq] at hr
  have hzero : (r.terminal_array 1).screen_x = 0 := by
    rw [← hr]
    exact demo_started.booted.screen_x 1
  exact hcolumn (hx.symm.trans hzero)

end LinuxLikeOS
