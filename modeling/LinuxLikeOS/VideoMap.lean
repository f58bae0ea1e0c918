/-
Whose screen a process draws on through its video mapping.

`vid_map[0]` has one base address for the whole machine. The scheduler sets it for the
terminal it switches to, `switch_screen` to the backup page of the terminal that was on
display, and `system_vidmap` to the page on display. Only the first of the three looks at
both terminals, so the other two are right for some pairs of them and wrong for the rest;
here the pairs are worked out, and a run keeps the mapping right exactly when its steps
stay among the right ones.
-/
import LinuxLikeOS.Processes
import LinuxLikeOS.PageSafety

set_option autoImplicit false

namespace LinuxLikeOS

open Kernel Transition

/-! ## The property -/

/-- The page that belongs to the scheduled terminal: the one on display, or its backup
page. -/
def own_page (k : Kernel) : ℕ :=
  if k.curr_terminal = k.screen_terminal then VIDEO_ADDR / ALIGN
  else VIDEO_ADDR / ALIGN + (k.curr_terminal.val + 1)

/-- The video mapping belongs to the scheduled terminal. -/
def MapsOwnPage (k : Kernel) : Prop := pte.base_addr.get (k.paging.vid_map 0) = own_page k

/-- A process that stores through the video mapping draws on its own page. -/
def DrawsOwnPage (link : Linkage) (k : Kernel) : Prop :=
  ∀ addr phys, addr >>> 22 = USER_ADDR_INDEX + 1 →
    translate link k.paging addr = some ⟨phys, true⟩ → phys = own_page k * ALIGN + addr % ALIGN

/-- The operations that write the mapping. -/
def Op.maps : Op → Prop
  | .tick _ | .switch_screen _ => True
  | .vidmap screen_start => vidmap_addr_ok screen_start
  | _ => False

/-- A screen switch finds the scheduled terminal on display and puts another one there; a
`vidmap` that is carried out comes from the terminal on display. -/
def MapsInTurn (k : Kernel) : Op → Prop
  | .switch_screen t => k.curr_terminal = k.screen_terminal ∧ t ≠ k.screen_terminal
  | .vidmap screen_start => vidmap_addr_ok screen_start → k.curr_terminal = k.screen_terminal
  | _ => True

instance (k : Kernel) : (op : Op) → Decidable (MapsInTurn k op)
  | .switch_screen t =>
      inferInstanceAs (Decidable (k.curr_terminal = k.screen_terminal ∧ t ≠ k.screen_terminal))
  | .vidmap screen_start =>
      inferInstanceAs (Decidable (vidmap_addr_ok screen_start → k.curr_terminal = k.screen_terminal))
  | .tick _ | .execute _ _ | .halt _ | .exception _ | .open _ | .close _ | .read _ _ _ => isTrue trivial

/-! ## The three writers -/

/-- A video page number fits the field. -/
theorem video_page_get {e : BitVec 32} {page : ℕ} (hj : page ≤ VIDEO_ADDR / ALIGN + MAX_TERMINALS) :
    pte.base_addr.get (pte.base_addr.set page e) = page := by
  have hmax : VIDEO_ADDR / ALIGN + MAX_TERMINALS < 2 ^ 20 := by decide
  rw [pte_base_addr_get_set, Nat.mod_eq_of_lt]
  omega

/-- After a timer interrupt the mapping is right, whatever it was. -/
theorem ticked_mapsOwnPage (fr : frame) (k : Kernel) : MapsOwnPage (ticked fr k) := by
  have hentry : (ticked fr k).paging.vid_map 0
      = pte.base_addr.set (vid_map_page (preempt fr k)) (k.paging.vid_map 0) := by
    show (process_page _ (set_vid_map_base _ k.paging)).vid_map 0 = _
    rw [process_page_vid_map]
    simp only [set_vid_map_base, Function.update_self]
  have hle : vid_map_page (preempt fr k) ≤ VIDEO_ADDR / ALIGN + MAX_TERMINALS := by
    unfold vid_map_page
    have hlt := (preempt fr k).curr_terminal.isLt
    split <;> omega
  unfold MapsOwnPage
  rw [hentry, video_page_get hle]
  exact rfl

/-- After a screen switch the mapping is the backup page of the terminal that was on
display, and that is right when this terminal is the scheduled one and has left. -/
theorem switch_screen_mapsOwnPage (t : Terminal) (k : Kernel) :
    MapsOwnPage (switch_screen t k) ↔
      k.curr_terminal = k.screen_terminal ∧ t ≠ k.screen_terminal := by
  have hentry : (switch_screen t k).paging.vid_map 0
      = pte.base_addr.set (VIDEO_ADDR / ALIGN + (k.screen_terminal.val + 1))
        (k.paging.vid_map 0) := by
    show (set_vid_map_base _ k.paging).vid_map 0 = _
    simp only [set_vid_map_base, Function.update_self]
  have hcurr : (switch_screen t k).curr_terminal = k.curr_terminal := rfl
  have hscreen : (switch_screen t k).screen_terminal = t := rfl
  have hle : VIDEO_ADDR / ALIGN + (k.screen_terminal.val + 1)
      ≤ VIDEO_ADDR / ALIGN + MAX_TERMINALS := by
    have hlt := k.screen_terminal.isLt
    omega
  unfold MapsOwnPage own_page
  rw [hentry, video_page_get hle, hcurr, hscreen]
  -- a terminal that arrives on display needs the main page, and gets a backup page
  by_cases hct : k.curr_terminal = t
  · rw [if_pos hct]
    constructor
    · intro h
      omega
    · rintro ⟨hcs, hne⟩
      exact absurd (hct.symm.trans hcs) hne
  · rw [if_neg hct]
    constructor
    · intro h
      have hcs : k.curr_terminal = k.screen_terminal := Fin.ext (by omega)
      exact ⟨hcs, fun hts => hct (hcs.trans hts.symm)⟩
    · rintro ⟨hcs, -⟩
      rw [hcs]

/-- A `vidmap` that is carried out sets the mapping to the page on display. -/
theorem vidmap_mapsOwnPage (link : Linkage) (k : Kernel) :
    MapsOwnPage (k.set_paging (vidmap_pages link)) ↔ k.curr_terminal = k.screen_terminal := by
  have hentry : pte.base_addr.get ((vidmap_pages link k.paging).vid_map 0)
      = VIDEO_ADDR / ALIGN := by
    simp only [vidmap_pages, Function.update_self]
    exact video_page_get (Nat.le_add_right _ _)
  have hiff : MapsOwnPage (k.set_paging (vidmap_pages link)) ↔
      pte.base_addr.get ((vidmap_pages link k.paging).vid_map 0) = own_page k := Iff.rfl
  rw [hiff, hentry]
  unfold own_page
  split
  · rename_i hcs
    exact iff_of_true rfl hcs
  · rename_i hcs
    exact iff_of_false (by omega) hcs

/-! ## Every other operation -/

/-- The property reads the scheduled terminal, the one on display and one entry. -/
theorem mapsOwnPage_congr {k k' : Kernel} (hcurr : k'.curr_terminal = k.curr_terminal)
    (hscreen : k'.screen_terminal = k.screen_terminal)
    (hvid : k'.paging.vid_map = k.paging.vid_map) : MapsOwnPage k' ↔ MapsOwnPage k := by
  unfold MapsOwnPage own_page
  rw [hcurr, hscreen, hvid]

theorem SameMemory.mapsOwnPage {k k' : Kernel} (h : SameMemory k k') :
    MapsOwnPage k' ↔ MapsOwnPage k :=
  mapsOwnPage_congr h.curr_terminal h.screen_terminal (by rw [h.paging])

/-- A process that ends hands over the frame of its parent, which is in the directory. -/
theorem halt_mapsOwnPage {status : ℕ} {k k' : Kernel} {c : Control}
    (hhalt : system_halt status k = some (c, k')) : MapsOwnPage k' ↔ MapsOwnPage k := by
  by_cases hbase : base_halt k
  · rw [system_halt_base status hbase, Option.some.injEq, Prod.mk.injEq] at hhalt
    rw [hhalt.2]
  · obtain ⟨-, rfl⟩ := system_halt_parent hbase hhalt
    exact mapsOwnPage_congr rfl rfl (process_page_vid_map _ _)

/-- So does a new process. -/
theorem create_mapsOwnPage (pid args eip : ℕ) (fr : frame) (mem : ℕ → UInt8) (k : Kernel) :
    MapsOwnPage (created pid args eip fr (claim_slot pid { k with kernel_mem := mem })) ↔
      MapsOwnPage k :=
  mapsOwnPage_congr rfl rfl (process_page_vid_map _ _)

/-- **One operation.** It leaves the right mapping exactly when it is carried out in turn,
and writes the mapping or finds it right. -/
theorem mapsOwnPage_step {env : Env} {k k' : Kernel} {op : Op} (htable : ProcessTable k)
    (hstep : kstep env k op = some k') :
    MapsOwnPage k' ↔ MapsInTurn k op ∧ (op.maps ∨ MapsOwnPage k) := by
  obtain ⟨stack, hinv, -⟩ := htable
  obtain ⟨c, hperform⟩ := kstep_eq_some.mp hstep
  -- the operations that leave the mapping alone
  have hkeep : (MapsOwnPage k' ↔ MapsOwnPage k) → ¬ op.maps → MapsInTurn k op →
      (MapsOwnPage k' ↔ MapsInTurn k op ∧ (op.maps ∨ MapsOwnPage k)) := by
    intro hiff hmaps hturn
    rw [hiff]
    exact ⟨fun h => ⟨hturn, Or.inr h⟩, fun h => h.2.resolve_left hmaps⟩
  cases op with
  | tick fr =>
      rw [perform_tick hinv.flag hperform]
      exact iff_of_true (ticked_mapsOwnPage fr k) ⟨trivial, Or.inl trivial⟩
  | switch_screen t =>
      rw [perform, Option.some.injEq, Prod.mk.injEq] at hperform
      rw [← hperform.2, switch_screen_mapsOwnPage]
      exact ⟨fun h => ⟨h, Or.inl trivial⟩, fun h => h.1⟩
  | vidmap screen_start =>
      rw [perform, Option.some.injEq, Prod.mk.injEq] at hperform
      rw [← hperform.2]
      unfold system_vidmap
      by_cases hok : vidmap_addr_ok screen_start
      · rw [if_pos hok, vidmap_mapsOwnPage]
        exact ⟨fun h => ⟨fun _ => h, Or.inl hok⟩, fun h => h.1 hok⟩
      · rw [if_neg hok]
        exact ⟨fun h => ⟨fun hok' => absurd hok' hok, Or.inr h⟩, fun h => h.2.resolve_left hok⟩
  | execute command fr =>
      refine hkeep ?_ id trivial
      rw [perform] at hperform
      cases hpid : started_pid env fr command k with
      | none =>
          obtain ⟨-, rfl⟩ := system_execute_fails hperform hpid
          exact Iff.rfl
      | some pid =>
          obtain ⟨eip, -, rfl⟩ := system_execute_starts hperform hpid
          rw [hinv.create_eq hpid]
          exact create_mapsOwnPage _ _ _ _ _ k
  | halt status => exact hkeep (halt_mapsOwnPage hperform) id trivial
  | exception message =>
      have hdraw := (draws_puts message k).same_memory
      exact hkeep ((halt_mapsOwnPage hperform).trans hdraw.mapsOwnPage) id trivial
  | «open» _ | close _ | read _ _ _ =>
      exact hkeep (Op.on_files.same_memory (by trivial) hperform).mapsOwnPage id trivial

/-! ## Runs -/

/-- With the right mapping a process draws on its own page. -/
theorem MapsOwnPage.draws {link : Linkage} {k : Kernel} (h : MapsOwnPage k)
    (hpaging : PagingInv link k.paging) : DrawsOwnPage link k := by
  intro addr phys hindex htr
  rw [(hpaging.vid_map_translation hindex htr).2, h]

/-- The boot leaves the mapping unset. -/
theorem Started.not_mapsOwnPage {env : Env} {k : Kernel} (h : Started env k) : ¬ MapsOwnPage k := by
  intro hmaps
  have hbase : VIDEO_ADDR / ALIGN = 184 := rfl
  have hpage : own_page k = 0 := hmaps.symm.trans h.booted.vid_map
  unfold own_page at hpage
  split at hpage <;> omega

/-- The boot ends on another terminal than the one on display, so the first operation that
is in turn and writes the mapping is a timer interrupt. -/
theorem Started.curr_ne_screen {env : Env} {k : Kernel} (h : Started env k) :
    k.curr_terminal ≠ k.screen_terminal := by
  intro heq
  have hcurr := h.booted.curr_terminal
  rw [heq, h.booted.screen_terminal] at hcurr
  exact absurd hcurr (by decide)

/-- **The video mapping belongs to the scheduled terminal after every operation of a run
exactly when the run begins with a timer interrupt and all its operations are in turn;
processes then draw on their own pages only.** -/
theorem maps_own_page_iff {env : Env} {k₀ k₁ k : Kernel} {op : Op} {ops : List Op}
    (hstart : Started env k₀) (hfirst : kstep env k₀ op = some k₁)
    (hrun : run (kstep env) k₁ ops = some k) :
    (AllStates (kstep env) MapsOwnPage k₁ ops ↔
        (∃ fr, op = .tick fr) ∧ AllSteps (kstep env) MapsInTurn k₁ ops) ∧
      (AllStates (kstep env) MapsOwnPage k₁ ops →
        AllStates (kstep env) (DrawsOwnPage env.link) k₁ ops) := by
  have htable : ProcessTable k₁ := hstart.process_table.step hfirst
  have hstep := mapsOwnPage_step hstart.process_table hfirst
  -- in the first state the mapping is wrong, and the scheduled terminal is not on display
  have htick : MapsOwnPage k₁ ↔ ∃ fr, op = .tick fr := by
    rw [hstep]
    constructor
    · rintro ⟨hturn, hmaps⟩
      have hmaps := hmaps.resolve_right hstart.not_mapsOwnPage
      cases op with
      | tick fr => exact ⟨fr, rfl⟩
      | switch_screen t => exact absurd hturn.1 hstart.curr_ne_screen
      | vidmap screen_start => exact absurd (hturn hmaps) hstart.curr_ne_screen
      | execute _ _ | halt _ | exception _ | «open» _ | close _ | read _ _ _ => exact hmaps.elim
    · rintro ⟨fr, rfl⟩
      exact ⟨trivial, Or.inl trivial⟩
  have hiff : MapsOwnPage k₁ →
      (AllStates (kstep env) MapsOwnPage k₁ ops ↔ AllSteps (kstep env) MapsInTurn k₁ ops) := by
    intro hmaps
    refine allStates_iff_allSteps ProcessTable (fun _ _ _ h hs => h.step hs) ?_ htable hmaps hrun
    intro s e s' hs hP hs'
    rw [mapsOwnPage_step hs hs']
    exact ⟨fun h => h.1, fun h => ⟨h, Or.inr hP⟩⟩
  refine ⟨⟨fun h => ⟨htick.mp h.first, (hiff h.first).mp h⟩,
    fun h => (hiff (htick.mpr h.1)).mpr h.2⟩, fun h => ?_⟩
  -- what a process can reach is read off the page walk, in each state
  have hpaging : PagingInv env.link k₁.paging := kstep_paging k₀ op k₁ hstart.paging_inv hfirst
  exact h.mono (fun k => PagingInv env.link k.paging) kstep_paging
    (fun _ hs hP => hP.draws hs) hpaging

/-- A shell on terminal 0 asks for the video page, and the screen goes to terminal 1. -/
theorem maps_own_page_demo : ∃ k₁ k,
    kstep demo_env demo (.tick (demo_frame 3 3)) = some k₁ ∧
    run (kstep demo_env) k₁ [.vidmap 0x8048000, .switch_screen 1, .tick (demo_frame 4 4)] = some k ∧
    (AllStates (kstep demo_env) MapsOwnPage k₁
          [.vidmap 0x8048000, .switch_screen 1, .tick (demo_frame 4 4)] ↔
        (∃ fr, Op.tick (demo_frame 3 3) = .tick fr) ∧ AllSteps (kstep demo_env) MapsInTurn k₁
          [.vidmap 0x8048000, .switch_screen 1, .tick (demo_frame 4 4)]) ∧
    AllSteps (kstep demo_env) MapsInTurn demo [.tick (demo_frame 3 3), .vidmap 0x8048000,
      .switch_screen 1, .tick (demo_frame 4 4)] := by
  have hsome : (run (kstep demo_env) demo [.tick (demo_frame 3 3), .vidmap 0x8048000,
      .switch_screen 1, .tick (demo_frame 4 4)]).isSome = true := by decide +kernel
  obtain ⟨k, hk⟩ := Option.isSome_iff_exists.mp hsome
  obtain ⟨k₁, hfirst, hrun⟩ := run_cons_eq_some.mp hk
  exact ⟨k₁, k, hfirst, hrun, (maps_own_page_iff demo_started hfirst hrun).1, by decide +kernel⟩

/-- Terminal 2 is scheduled again when the screen goes from terminal 0 to terminal 2: the
mapping of its process is then the backup page of terminal 0. -/
theorem maps_own_page_fails : Started demo_env demo ∧ ∃ k,
    run (kstep demo_env) demo [.tick (demo_frame 3 3), .tick (demo_frame 4 4),
      .tick (demo_frame 5 5), .switch_screen 2] = some k ∧
    k.curr_terminal = k.screen_terminal ∧
    pte.base_addr.get (k.paging.vid_map 0) = VIDEO_ADDR / ALIGN + 1 ∧ ¬ MapsOwnPage k := by
  have hvalues : (run (kstep demo_env) demo [.tick (demo_frame 3 3), .tick (demo_frame 4 4),
      .tick (demo_frame 5 5), .switch_screen 2]).map (fun k =>
        (k.curr_terminal, k.screen_terminal, pte.base_addr.get (k.paging.vid_map 0), own_page k))
      = some (2, 2, VIDEO_ADDR / ALIGN + 1, VIDEO_ADDR / ALIGN) := by decide +kernel
  obtain ⟨k, hk, hv⟩ := Option.map_eq_some_iff.mp hvalues
  simp only [Prod.mk.injEq] at hv
  obtain ⟨hcurr, hscreen, hentry, hown⟩ := hv
  refine ⟨demo_started, k, hk, hcurr.trans hscreen.symm, hentry, fun hmaps => ?_⟩
  rw [MapsOwnPage, hentry, hown] at hmaps
  omega

end LinuxLikeOS
