/-
What user code can reach through the page structures.

`PagingInv` says what the entries hold after `init_page`, for ever: the user bit is set
in the directory entries 32 and 33 at most, the first is a 4 MB page on the frame of a
process slot, and the second is the table `vid_map`, whose only present entry is on a
video page. Three functions write page entries after the boot, and each keeps it. The
page walk then reads the two kinds of user translation off the invariant.
-/
import LinuxLikeOS.Start

set_option autoImplicit false

namespace LinuxLikeOS

open Kernel Transition

/-! ## The invariant -/

/-- The entries the translation of a user address depends on. -/
structure PagingInv (link : Linkage) (pg : Paging) : Prop where
  /-- No other directory entry has the user bit. -/
  supervisor : ∀ i, i < PAGE_SIZE → i ≠ USER_ADDR_INDEX → i ≠ USER_ADDR_INDEX + 1 →
    pde_kb.user_supervisor.get (pg.page_directory i) = 0
  page_size : pde_kb.page_size.get (pg.page_directory USER_ADDR_INDEX) = 1
  frame : pde_kb.present.get (pg.page_directory USER_ADDR_INDEX) = 0 ∨
    ∃ s, s < NUM_PROCESSES ∧ pde_mb.base_addr.get (pg.page_directory USER_ADDR_INDEX) = 2 + s
  table : pde_kb.present.get (pg.page_directory (USER_ADDR_INDEX + 1)) = 0 ∨
    pde_kb.page_size.get (pg.page_directory (USER_ADDR_INDEX + 1)) = 0 ∧
    pde_kb.base_addr.get (pg.page_directory (USER_ADDR_INDEX + 1)) = link.vid_map / ALIGN
  absent : ∀ i, 0 < i → i < PAGE_SIZE → pte.present.get (pg.vid_map i) = 0
  video : pte.present.get (pg.vid_map 0) = 0 ∨
    ∃ j, j ≤ MAX_TERMINALS ∧ pte.base_addr.get (pg.vid_map 0) = VIDEO_ADDR / ALIGN + j

namespace PagingInv

variable {link : Linkage} {pg : Paging}

theorem init_page (link : Linkage) (pg : Paging) : PagingInv link (init_page link pg) where
  supervisor i hi h32 h33 := by
    show pde_kb.user_supervisor.get (if i = 0 then low_memory_pde link (pg.page_directory 0)
      else if i = 1 then kernel_pde (blank_pde (pg.page_directory 1))
      else if i < PAGE_SIZE then blank_pde (pg.page_directory i)
      else pg.page_directory i) = 0
    by_cases h0 : i = 0
    · rw [if_pos h0]
      exact low_memory_pde_user _ _
    · by_cases h1 : i = 1
      · rw [if_neg h0, if_pos h1, kernel_pde_user]
        exact blank_pde_user _
      · rw [if_neg h0, if_neg h1, if_pos hi]
        exact blank_pde_user _
  page_size := blank_pde_page_size _
  frame := Or.inl (blank_pde_present _)
  table := Or.inl (blank_pde_present _)
  absent i _ hi := by
    show pte.present.get (if i < PAGE_SIZE then blank_pte i (pg.vid_map i) else _) = 0
    rw [if_pos hi]
    exact blank_pte_present _ _
  video := Or.inl (blank_pte_present _ _)

/-- `process_page` writes entry 32 and keeps it on a slot, for any argument. -/
theorem process_page (h : PagingInv link pg) (p : Int) : PagingInv link (process_page p pg) := by
  unfold LinuxLikeOS.process_page
  split
  · rename_i hp
    have hentry : ∀ i, i ≠ USER_ADDR_INDEX → Function.update pg.page_directory USER_ADDR_INDEX
        (process_pde p (pg.page_directory USER_ADDR_INDEX)) i = pg.page_directory i :=
      fun i hi => Function.update_of_ne hi _ _
    have h33 := hentry (USER_ADDR_INDEX + 1) (by decide)
    refine { h with supervisor := fun i hi h₁ h₂ => ?_, page_size := ?_, frame := ?_, table := ?_ }
    · simp only [hentry i h₁]
      exact h.supervisor i hi h₁ h₂
    · simp only [Function.update_self]
      rw [process_pde_page_size]
      exact h.page_size
    · refine Or.inr ⟨p.toNat, by omega, ?_⟩
      simp only [Function.update_self]
      exact process_pde_base_addr _ hp.1 hp.2
    · simp only [h33]
      exact h.table
  · exact h

/-- A new base for `vid_map[0]` keeps it on a video page. -/
theorem set_vid_map_base (h : PagingInv link pg) {j : ℕ} (hj : j ≤ MAX_TERMINALS) :
    PagingInv link (set_vid_map_base (VIDEO_ADDR / ALIGN + j) pg) := by
  have hentry : ∀ i, i ≠ 0 → (LinuxLikeOS.set_vid_map_base (VIDEO_ADDR / ALIGN + j) pg).vid_map i
      = pg.vid_map i := fun i hi => Function.update_of_ne hi _ _
  have hself : (LinuxLikeOS.set_vid_map_base (VIDEO_ADDR / ALIGN + j) pg).vid_map 0
      = pte.base_addr.set (VIDEO_ADDR / ALIGN + j) (pg.vid_map 0) := by
    unfold LinuxLikeOS.set_vid_map_base
    simp only [Function.update_self]
  refine { h with absent := fun i hi hi' => ?_, video := ?_ }
  · rw [hentry i (by omega)]
    exact h.absent i hi hi'
  · -- the page number fits the field
    have hbase : VIDEO_ADDR / ALIGN = 184 := rfl
    have hthree : MAX_TERMINALS = 3 := rfl
    refine Or.inr ⟨j, hj, ?_⟩
    rw [hself, pte_base_addr_get_set, Nat.mod_eq_of_lt]
    omega

/-- `system_vidmap` makes entry 33 point to `vid_map`, and its first entry to the page
on display. -/
theorem vidmap_pages (h : PagingInv link pg) : PagingInv link (vidmap_pages link pg) := by
  have hdir : ∀ i, i ≠ USER_ADDR_INDEX + 1 →
      (LinuxLikeOS.vidmap_pages link pg).page_directory i = pg.page_directory i :=
    fun i hi => Function.update_of_ne hi _ _
  have hself : (LinuxLikeOS.vidmap_pages link pg).page_directory (USER_ADDR_INDEX + 1)
      = vidmap_pde link (pg.page_directory (USER_ADDR_INDEX + 1)) := by
    unfold LinuxLikeOS.vidmap_pages
    simp only [Function.update_self]
  have hvid : ∀ i, i ≠ 0 → (LinuxLikeOS.vidmap_pages link pg).vid_map i = pg.vid_map i :=
    fun i hi => Function.update_of_ne hi _ _
  have h32 := hdir USER_ADDR_INDEX (by decide)
  constructor
  · intro i hi h₁ h₂
    rw [hdir i h₂]
    exact h.supervisor i hi h₁ h₂
  · rw [h32]
    exact h.page_size
  · rw [h32]
    exact h.frame
  · rw [hself]
    exact Or.inr ⟨vidmap_pde_page_size _ _, vidmap_pde_base_addr _ _⟩
  · intro i hi hi'
    rw [hvid i (by omega)]
    exact h.absent i hi hi'
  · refine Or.inr ⟨0, Nat.zero_le _, ?_⟩
    unfold LinuxLikeOS.vidmap_pages
    simp only [Function.update_self]
    rw [pte_base_addr_get_set]
    rfl

/-! ## What the page walk finds -/

/-- Without the user bit in the directory entry no translation is for user code. -/
theorem supervisor_translation {addr phys : ℕ}
    (hsup : pde_kb.user_supervisor.get (pg.page_directory (addr >>> 22)) = 0) :
    translate link pg addr ≠ some ⟨phys, true⟩ := by
  intro htr
  unfold translate at htr
  dsimp only at htr
  -- the two kinds of entry have the bit at the same place
  have hmb : pde_mb.user_supervisor.get (pg.page_directory (addr >>> 22)) = 0 := hsup
  split at htr
  · cases htr
  · split at htr
    · simp [hmb] at htr
    · split at htr
      · cases htr
      · simp [hsup] at htr

/-- The two tables of the kernel are different frames. -/
theorem table_at_vid_map (link : Linkage) (pg : Paging) :
    table_at link pg (link.vid_map / ALIGN) = pg.vid_map := by
  have hne : link.vid_map / ALIGN ≠ link.page_table / ALIGN := by
    intro heq
    apply link.page_table_ne_vid_map
    rw [← Nat.div_add_mod link.page_table ALIGN, ← Nat.div_add_mod link.vid_map ALIGN, heq,
      link.page_table_aligned, link.vid_map_aligned]
  unfold table_at
  rw [if_neg hne, if_pos rfl]

/-- Through entry 32 user code reaches the frame of the slot the entry holds. -/
theorem frame_translation {s addr phys : ℕ} {user : Bool} (hsize : PagingInv link pg)
    (hbase : pde_mb.base_addr.get (pg.page_directory USER_ADDR_INDEX) = 2 + s)
    (hindex : addr >>> 22 = USER_ADDR_INDEX) (htr : translate link pg addr = some ⟨phys, user⟩) :
    EIGHT_MB + FOUR_MB * s ≤ phys ∧ phys < EIGHT_MB + FOUR_MB * (s + 1) := by
  unfold translate at htr
  rw [hindex] at htr
  dsimp only at htr
  split at htr
  · cases htr
  · rw [if_pos hsize.page_size, Option.some.injEq, Translation.mk.injEq, hbase] at htr
    have h4 : FOUR_MB = 4194304 := rfl
    have h8 : EIGHT_MB = 8388608 := rfl
    rw [h4] at htr
    rw [h4, h8]
    omega

/-- Through entry 33 user code reaches the page of `vid_map[0]`. -/
theorem vid_map_translation {addr phys : ℕ} {user : Bool} (h : PagingInv link pg)
    (hindex : addr >>> 22 = USER_ADDR_INDEX + 1)
    (htr : translate link pg addr = some ⟨phys, user⟩) :
    pte.present.get (pg.vid_map 0) ≠ 0 ∧
      phys = pte.base_addr.get (pg.vid_map 0) * ALIGN + addr % ALIGN := by
  unfold translate at htr
  rw [hindex] at htr
  dsimp only at htr
  split at htr
  · cases htr
  · rename_i hpresent
    obtain ⟨hsize, hbase⟩ := h.table.resolve_left hpresent
    have hsmall : ¬ pde_kb.page_size.get (pg.page_directory (USER_ADDR_INDEX + 1)) = 1 := by
      rw [hsize]
      decide
    rw [if_neg hsmall, hbase, table_at_vid_map] at htr
    split at htr
    · cases htr
    · rename_i hpte
      -- only the first entry of the table is present
      have hzero : (addr >>> 12) % PAGE_SIZE = 0 := by
        by_contra hne
        exact hpte (h.absent _ (by omega) (Nat.mod_lt _ (by decide)))
      rw [hzero] at hpte htr
      rw [Option.some.injEq, Translation.mk.injEq] at htr
      exact ⟨hpte, htr.1.symm⟩

/-- That is one of the video pages. -/
theorem video_translation {addr phys : ℕ} {user : Bool} (h : PagingInv link pg)
    (hindex : addr >>> 22 = USER_ADDR_INDEX + 1)
    (htr : translate link pg addr = some ⟨phys, user⟩) : VIDEO_ADDR ≤ phys ∧ phys ≤ 0xBBFFF := by
  obtain ⟨hpresent, hphys⟩ := h.vid_map_translation hindex htr
  obtain ⟨j, hj, hj'⟩ := h.video.resolve_left hpresent
  have halign : ALIGN = 4096 := rfl
  have hvideo : VIDEO_ADDR = 753664 := rfl
  have hthree : MAX_TERMINALS = 3 := rfl
  rw [hj', halign, hvideo] at hphys
  rw [hvideo]
  omega

end PagingInv

/-- What user code can reach: one frame of a process slot through directory entry 32, or
a video page through directory entry 33. -/
def UserReach (link : Linkage) (pg : Paging) : Prop :=
  ∃ s, s < NUM_PROCESSES ∧ ∀ addr phys, addr < ADDRESS_SPACE →
    translate link pg addr = some ⟨phys, true⟩ →
    ((addr >>> 22 = USER_ADDR_INDEX ∧ EIGHT_MB + FOUR_MB * s ≤ phys ∧
        phys < EIGHT_MB + FOUR_MB * (s + 1)) ∨
      (addr >>> 22 = USER_ADDR_INDEX + 1 ∧ VIDEO_ADDR ≤ phys ∧ phys ≤ 0xBBFFF)) ∧
    ¬ (KERNEL_ADDR ≤ phys ∧ phys < EIGHT_MB)

/-- The two kinds of user translation, read off the invariant. -/
theorem PagingInv.user_reach {link : Linkage} {pg : Paging} (h : PagingInv link pg) :
    UserReach link pg := by
  have hkernel : KERNEL_ADDR = 4194304 := rfl
  have h8 : EIGHT_MB = 8388608 := rfl
  have hvideo : VIDEO_ADDR = 753664 := rfl
  -- the slot of entry 32, or any slot while the entry is not present
  obtain ⟨s, hs, hframe⟩ : ∃ s, s < NUM_PROCESSES ∧ ∀ addr phys,
      addr >>> 22 = USER_ADDR_INDEX → translate link pg addr = some ⟨phys, true⟩ →
      EIGHT_MB + FOUR_MB * s ≤ phys ∧ phys < EIGHT_MB + FOUR_MB * (s + 1) := by
    rcases h.frame with habsent | ⟨s, hs, hbase⟩
    · -- no walk gets past an absent entry
      refine ⟨0, by decide, fun addr phys hindex htr => ?_⟩
      unfold translate at htr
      rw [hindex] at htr
      simp only [habsent, if_true, reduceCtorEq] at htr
    · exact ⟨s, hs, fun addr phys hindex htr => h.frame_translation hbase hindex htr⟩
  refine ⟨s, hs, fun addr phys haddr htr => ?_⟩
  by_cases h32 : addr >>> 22 = USER_ADDR_INDEX
  · have hr := hframe addr phys h32 htr
    exact ⟨Or.inl ⟨h32, hr⟩, fun hk => by omega⟩
  · by_cases h33 : addr >>> 22 = USER_ADDR_INDEX + 1
    · have hr := h.video_translation h33 htr
      exact ⟨Or.inr ⟨h33, hr⟩, fun hk => by omega⟩
    · have hspace : ADDRESS_SPACE = 4294967296 := rfl
      have hpages : PAGE_SIZE = 1024 := rfl
      have hlt : addr >>> 22 < PAGE_SIZE := by
        rw [Nat.shiftRight_eq_div_pow]
        omega
      exact absurd htr (PagingInv.supervisor_translation (h.supervisor _ hlt h32 h33))

/-! ## Every operation keeps it -/

theorem execute_paging {env : Env} {fr : frame} {command : Option (List UInt8)} {k k' : Kernel}
    {c : Control} (h : PagingInv env.link k.paging)
    (hexec : system_execute env command fr k = some (c, k')) : PagingInv env.link k'.paging := by
  cases hpid : started_pid env fr command k with
  | none =>
      obtain ⟨-, rfl⟩ := system_execute_fails hexec hpid
      exact h
  | some pid =>
      obtain ⟨eip, -, rfl⟩ := system_execute_starts hexec hpid
      rw [(create_process_memory pid _ eip fr _).1]
      exact h.process_page pid

theorem halt_paging {link : Linkage} {status : ℕ} {k k' : Kernel} {c : Control}
    (h : PagingInv link k.paging) (hhalt : system_halt status k = some (c, k')) :
    PagingInv link k'.paging := by
  by_cases hbase : base_halt k
  · rw [system_halt_base status hbase, Option.some.injEq, Prod.mk.injEq] at hhalt
    exact hhalt.2 ▸ h
  · obtain ⟨-, rfl⟩ := system_halt_parent hbase hhalt
    exact h.process_page (curr_parent k)

/-- The page the scheduler selects is the one on display or a backup page. -/
theorem vid_map_page_eq (k : Kernel) : ∃ j, j ≤ MAX_TERMINALS ∧
    vid_map_page k = VIDEO_ADDR / ALIGN + j := by
  unfold vid_map_page
  split
  · exact ⟨0, Nat.zero_le _, rfl⟩
  · exact ⟨_, k.curr_terminal.isLt, rfl⟩

theorem resume_paging {link : Linkage} {k : Kernel} (h : PagingInv link k.paging) :
    PagingInv link (resume_next k).2.paging := by
  obtain ⟨j, hj, hpage⟩ := vid_map_page_eq k
  have hbase : PagingInv link (set_vid_map_base (vid_map_page k) k.paging) := by
    rw [hpage]
    exact h.set_vid_map_base hj
  exact hbase.process_page k.curr_pid

theorem scheduler_paging {env : Env} {fr : frame} {k k' : Kernel} {c : Control}
    (h : PagingInv env.link k.paging) (hsched : scheduler env fr k = some (c, k')) :
    PagingInv env.link k'.paging := by
  unfold scheduler at hsched
  dsimp only at hsched
  have hopen : PagingInv env.link (open_terminal (preempt fr k)).paging := by
    show PagingInv env.link (clear (preempt fr k)).paging
    rw [(draws_clear _).paging]
    exact h
  split at hsched
  · -- a terminal is opened; its shell may fail to start, and then the switch goes on
    split at hsched
    · rename_i k₁ hexec
      rw [Option.some.injEq] at hsched
      have hk : k' = (resume_next k₁).2 := (congrArg Prod.snd hsched).symm
      rw [hk]
      exact resume_paging (execute_paging hopen hexec)
    · exact execute_paging hopen hsched
  · rw [Option.some.injEq] at hsched
    have hk : k' = (resume_next (preempt fr k)).2 := (congrArg Prod.snd hsched).symm
    rw [hk]
    exact resume_paging (k := preempt fr k) h

/-- One operation. -/
theorem perform_paging {env : Env} {k k' : Kernel} {op : Op} {c : Control}
    (h : PagingInv env.link k.paging) (hop : perform env k op = some (c, k')) :
    PagingInv env.link k'.paging := by
  cases op with
  | tick fr => exact scheduler_paging h hop
  | switch_screen t =>
      rw [perform, Option.some.injEq] at hop
      have hk : k' = switch_screen t k := (congrArg Prod.snd hop).symm
      rw [hk]
      exact h.set_vid_map_base k.screen_terminal.isLt
  | execute command fr => exact execute_paging h hop
  | halt status => exact halt_paging h hop
  | exception message =>
      have hputs : PagingInv env.link (puts message k).paging := by
        rw [(draws_puts message k).paging]
        exact h
      exact halt_paging hputs hop
  | «open» _ | close _ | read _ _ _ =>
      rw [(Op.on_files.same_memory (by trivial) hop).paging]
      exact h
  | vidmap screen_start =>
      rw [perform, Option.some.injEq] at hop
      have hk : k' = (system_vidmap env.link screen_start k).2 := (congrArg Prod.snd hop).symm
      rw [hk]
      unfold system_vidmap
      split
      · exact h.vidmap_pages
      · exact h

theorem kstep_paging {env : Env} (k : Kernel) (op : Op) (k' : Kernel)
    (h : PagingInv env.link k.paging) (hstep : kstep env k op = some k') :
    PagingInv env.link k'.paging := by
  obtain ⟨c, hc⟩ := kstep_eq_some.mp hstep
  exact perform_paging h hc

theorem new_process_paging {link : Linkage} {r : Option (Control × Kernel)} {k : Kernel}
    (h : ∀ c k', r = some (c, k') → PagingInv link k'.paging) (hr : new_process r = some k) :
    PagingInv link k.paging := by
  unfold new_process at hr
  split at hr
  · rw [Option.some.injEq] at hr
    exact hr ▸ h _ _ rfl
  · cases hr

/-- The boot sets the structures up, and the first three shells keep them. -/
theorem Started.paging_inv {env : Env} {k : Kernel} (h : Started env k) :
    PagingInv env.link k.paging := by
  refine h.invariant (P := fun k => PagingInv env.link k.paging) (fun memory => ?_)
    (fun fr k hk => ?_) (fun fr k k' hk hexec => ?_)
  · unfold init_kernel
    rw [(draws_clear _).paging]
    exact .init_page env.link _
  · have hclear : (open_terminal (preempt fr k)).paging = k.paging := (draws_clear (preempt fr k)).paging
    rw [hclear]
    exact hk
  · exact new_process_paging (fun _ _ hstarts => execute_paging hk hstarts) hexec

/-! ## Runs after `init_page` -/

/-- The operations of the kernel, and `process_page` called with any argument. -/
inductive PageOp
  | process_page (process_id : Int)
  | op (op : Op)

def page_step (env : Env) (k : Kernel) : PageOp → Option Kernel
  | .process_page process_id => some (k.set_paging (process_page process_id))
  | .op op => kstep env k op

theorem page_step_paging {env : Env} (k : Kernel) (op : PageOp) (k' : Kernel)
    (h : PagingInv env.link k.paging) (hstep : page_step env k op = some k') :
    PagingInv env.link k'.paging := by
  cases op with
  | process_page process_id =>
      rw [page_step, Option.some.injEq] at hstep
      exact hstep ▸ PagingInv.process_page h process_id
  | op op => exact kstep_paging k op k' h hstep

/-- **User code never reaches the kernel or a second process.** From a kernel whose page
structures `init_page` has set up, after any operations. -/
theorem user_memory_isolated {env : Env} {pg : Paging} {k₀ k : Kernel} {ops : List PageOp}
    (hinit : k₀.paging = init_page env.link pg) (hrun : run (page_step env) k₀ ops = some k) :
    UserReach env.link k.paging := by
  have hstart : PagingInv env.link k₀.paging := by
    rw [hinit]
    exact PagingInv.init_page env.link pg
  have hinv : PagingInv env.link k.paging :=
    run_invariant (fun k => PagingInv env.link k.paging) page_step_paging hstart hrun
  exact hinv.user_reach

/-- A process outside the table, a valid one, and a shell that asks for the video page. -/
theorem user_memory_isolated_demo : ∃ k,
    run (page_step demo_env) (demo_memory.set_paging (init_page demo_env.link))
      [.process_page (-7), .process_page 4, .op (.vidmap 0x8048000), .op (.switch_screen 2)]
        = some k ∧ UserReach demo_env.link k.paging := by
  have hsome : (run (page_step demo_env) (demo_memory.set_paging (init_page demo_env.link))
      [.process_page (-7), .process_page 4, .op (.vidmap 0x8048000),
        .op (.switch_screen 2)]).isSome = true := rfl
  obtain ⟨k, hk⟩ := Option.isSome_iff_exists.mp hsome
  have hinit : (demo_memory.set_paging (init_page demo_env.link)).paging
      = init_page demo_env.link demo_memory.paging := rfl
  exact ⟨k, hk, user_memory_isolated hinit hk⟩

end LinuxLikeOS
