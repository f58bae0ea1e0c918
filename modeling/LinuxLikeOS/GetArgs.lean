/-
What `getargs` hands to the caller.

The test compares the unsigned length with the request, so a negative request counts as
almost 4 GB, and the copy is of the bytes asked for. A caller that asks for more than the
string is given the kernel memory behind it.
-/
import LinuxLikeOS.Arguments

set_option autoImplicit false

namespace LinuxLikeOS

open Kernel Transition

/-! ## The property -/

/-- The arguments of the running process are the string `a`: its bytes and a terminator
stand behind the pointer. -/
structure ArgsString (a : List UInt8) (k : Kernel) : Prop where
  no_terminator : (0 : UInt8) ∉ a
  length_lt : a.length < ADDRESS_SPACE
  text : ∀ i, i ≤ a.length → args_text k k.curr_pid i = c_str a i

/-- The second kernel is the first with other bytes in kernel memory, but for those of the
running process's arguments. -/
structure DifferBehind (a : List UInt8) (k k' : Kernel) : Prop where
  rest : k' = { k with kernel_mem := k'.kernel_mem }
  text : ∀ i, i ≤ a.length → args_text k' k.curr_pid i = args_text k k.curr_pid i

/-- The caller's buffer after the call. -/
def getargs_buffer (nbytes : Int) (k : Kernel) (buf : ℕ → UInt8) : ℕ → UInt8 :=
  store_bytes (system_getargs nbytes k).2 buf

/-- `getargs` gives the caller the string and its terminator when they fit, with nothing of
the kernel's memory behind them, and does not touch the buffer when they do not. -/
structure GetsArgs (a : List UInt8) (nbytes : Int) (k : Kernel) : Prop where
  zero_iff : (system_getargs nbytes k).1 = 0 ↔ a ≠ [] ∧ (a.length : Int) + 1 ≤ nbytes
  refused : (system_getargs nbytes k).1 ≠ 0 → (system_getargs nbytes k).1 = -1
  copied : (system_getargs nbytes k).1 = 0 →
    ∀ buf i, i ≤ a.length → getargs_buffer nbytes k buf i = c_str a i
  secret : (system_getargs nbytes k).1 = 0 →
    ∀ k', DifferBehind a k k' → ∀ buf, getargs_buffer nbytes k' buf = getargs_buffer nbytes k buf
  unchanged : (system_getargs nbytes k).1 = -1 → ∀ buf, getargs_buffer nbytes k buf = buf

/-! ## The test and the copy -/

theorem u32_lt (x : Int) : u32 x < ADDRESS_SPACE := by
  unfold u32 ADDRESS_SPACE
  omega

theorem succ_ne_self (b : UInt8) : b + 1 ≠ b := by
  intro h
  rw [← UInt8.toNat_inj, UInt8.toNat_add] at h
  have hlt := b.toNat_lt
  simp only [UInt8.reduceToNat] at h
  omega

section

variable {a : List UInt8} {k k' : Kernel} {nbytes : Int}

theorem ArgsString.strlen (h : ArgsString a k) : strlen (args_text k k.curr_pid) = a.length := by
  refine strlen_eq (Nat.le_of_lt h.length_lt) ?_ fun i hi => ?_
  · rw [h.text _ (Nat.le_refl _)]
    unfold c_str
    rw [List.getD_eq_default _ _ (Nat.le_refl _)]
  · rw [h.text _ (Nat.le_of_lt hi)]
    unfold c_str
    rw [List.getD_eq_getElem _ _ hi]
    intro hzero
    exact h.no_terminator (hzero ▸ List.getElem_mem hi)

/-- The call refuses an empty string, and one that is longer than the unsigned request. -/
theorem ArgsString.getargs_eq (h : ArgsString a k) (nbytes : Int) :
    system_getargs nbytes k
      = if u32 nbytes < u32 ((a.length : Int) + 1) ∨ a = [] then (-1, [])
        else (0, (List.range (u32 nbytes)).map (args_text k k.curr_pid)) := by
  unfold system_getargs
  simp only [h.strlen, List.length_eq_zero_iff, gt_iff_lt]

theorem ArgsString.getargs_refused (h : ArgsString a k)
    (hno : u32 nbytes < u32 ((a.length : Int) + 1) ∨ a = []) :
    system_getargs nbytes k = (-1, []) := by
  rw [h.getargs_eq, if_pos hno]

theorem ArgsString.getargs_copied (h : ArgsString a k)
    (hyes : ¬ (u32 nbytes < u32 ((a.length : Int) + 1) ∨ a = [])) :
    system_getargs nbytes k = (0, (List.range (u32 nbytes)).map (args_text k k.curr_pid)) := by
  rw [h.getargs_eq, if_neg hyes]

/-- The buffer holds the bytes behind the pointer as far as the request goes. -/
theorem ArgsString.getargs_buffer_apply (h : ArgsString a k)
    (hyes : ¬ (u32 nbytes < u32 ((a.length : Int) + 1) ∨ a = [])) (buf : ℕ → UInt8) (i : ℕ) :
    getargs_buffer nbytes k buf i
      = if i < u32 nbytes then args_text k k.curr_pid i else buf i := by
  unfold getargs_buffer store_bytes
  rw [h.getargs_copied hyes]
  split
  · rename_i hi
    rw [List.getD_eq_getElem _ _ (by simpa using hi)]
    simp
  · rename_i hi
    rw [List.getD_eq_default _ _ (by simpa using hi)]

theorem DifferBehind.curr_pid (hd : DifferBehind a k k') : k'.curr_pid = k.curr_pid := by
  rw [hd.rest]
  rfl

theorem DifferBehind.argsString (hd : DifferBehind a k k') (h : ArgsString a k) :
    ArgsString a k' := by
  refine ⟨h.no_terminator, h.length_lt, fun i hi => ?_⟩
  rw [hd.curr_pid, hd.text i hi, h.text i hi]

/-- A kernel with another byte behind the terminator. -/
def other_behind (a : List UInt8) (k : Kernel) : Kernel :=
  let addr := (get_pcb k k.curr_pid).args + (a.length + 1)
  { k with kernel_mem := Function.update k.kernel_mem addr (k.kernel_mem addr + 1) }

theorem other_behind_text (a : List UInt8) (k : Kernel) (i : ℕ) :
    args_text (other_behind a k) k.curr_pid i
      = if i = a.length + 1 then args_text k k.curr_pid i + 1 else args_text k k.curr_pid i := by
  show Function.update k.kernel_mem _ _ ((get_pcb k k.curr_pid).args + i) = _
  rw [Function.update_apply]
  unfold args_text
  by_cases hi : i = a.length + 1
  · rw [if_pos (by rw [hi]), if_pos hi, hi]
  · rw [if_neg (by omega), if_neg hi]

theorem differBehind_other (a : List UInt8) (k : Kernel) : DifferBehind a k (other_behind a k) where
  rest := rfl
  text i hi := by
    rw [other_behind_text, if_neg (by omega)]

/-! ## The condition is exact -/

/-- A request that goes past the terminator shows the byte behind it. -/
theorem ArgsString.getargs_leaks (h : ArgsString a k) (hne : a ≠ [])
    (hlong : a.length + 1 < u32 nbytes) : ¬ GetsArgs a nbytes k := by
  intro hgets
  have hfits : u32 ((a.length : Int) + 1) = a.length + 1 := by
    have hlt := u32_lt nbytes
    unfold u32 ADDRESS_SPACE at *
    omega
  have hyes : ¬ (u32 nbytes < u32 ((a.length : Int) + 1) ∨ a = []) := by
    rw [hfits]
    exact fun hno => hno.elim (fun hlt => by omega) hne
  have hzero : (system_getargs nbytes k).1 = 0 := by rw [h.getargs_copied hyes]
  have hother := differBehind_other a k
  -- the two buffers, at the byte behind the terminator
  have hsame := congrFun (hgets.secret hzero _ hother fun _ => 0) (a.length + 1)
  rw [h.getargs_buffer_apply hyes, (hother.argsString h).getargs_buffer_apply hyes, if_pos hlong,
    if_pos hlong, hother.curr_pid, other_behind_text, if_pos rfl] at hsame
  exact succ_ne_self _ hsame

/-- A request of exactly the string and its terminator shows nothing else. -/
theorem ArgsString.gets_exactly (h : ArgsString a k) (hne : a ≠ [])
    (hexact : nbytes = (a.length : Int) + 1) (hhi : nbytes < 2147483648) : GetsArgs a nbytes k := by
  have hn : u32 nbytes = a.length + 1 := by
    unfold u32
    omega
  have hyes : ¬ (u32 nbytes < u32 ((a.length : Int) + 1) ∨ a = []) := by
    rw [hexact]
    exact fun hno => hno.elim (Nat.lt_irrefl _) hne
  have hcopy := h.getargs_copied hyes
  constructor
  · rw [hcopy]
    exact ⟨fun _ => ⟨hne, Int.le_of_eq hexact.symm⟩, fun _ => rfl⟩
  · rw [hcopy]
    exact fun hno => absurd rfl hno
  · intro _ buf i hi
    rw [h.getargs_buffer_apply hyes, if_pos (by omega), h.text i hi]
  · intro _ k' hd buf
    funext i
    rw [h.getargs_buffer_apply hyes, (hd.argsString h).getargs_buffer_apply hyes, hd.curr_pid]
    split
    · exact hd.text i (by omega)
    · rfl
  · rw [hcopy]
    intro hno
    replace hno : (0 : Int) = -1 := hno
    omega

/-- A request that is refused by the call is one the string does not fit. -/
theorem ArgsString.gets_refused (h : ArgsString a k)
    (hno : u32 nbytes < u32 ((a.length : Int) + 1) ∨ a = []) (hlo : -2147483648 ≤ nbytes)
    (hhi : nbytes < 2147483648) : GetsArgs a nbytes k := by
  have hcall := h.getargs_refused hno
  have hbuf : ∀ buf, getargs_buffer nbytes k buf = buf := by
    intro buf
    unfold getargs_buffer
    rw [hcall]
    rfl
  constructor
  · rw [hcall]
    refine ⟨fun hzero => absurd hzero (by decide), fun ⟨hne, hle⟩ => ?_⟩
    rcases hno with hlt | hnil
    · unfold u32 at hlt
      omega
    · exact absurd hnil hne
  · rw [hcall]
    exact fun _ => rfl
  · rw [hcall]
    exact fun hzero => absurd hzero (by decide)
  · rw [hcall]
    exact fun hzero => absurd hzero (by decide)
  · exact fun _ => hbuf

/-- **`getargs` gives the caller its arguments and nothing of the kernel's memory exactly
when there are none, when they are longer than the unsigned request, or when the request is
for exactly the string and its terminator.** -/
theorem gets_args_iff (h : ArgsString a k) (hlo : -2147483648 ≤ nbytes)
    (hhi : nbytes < 2147483648) :
    GetsArgs a nbytes k ↔
      a = [] ∨ u32 nbytes < u32 ((a.length : Int) + 1) ∨ nbytes = (a.length : Int) + 1 := by
  constructor
  · intro hgets
    by_cases hnil : a = []
    · exact Or.inl hnil
    by_cases hlt : u32 nbytes < u32 ((a.length : Int) + 1)
    · exact Or.inr (Or.inl hlt)
    -- the call copies, so the string fits, and the request does not go past it
    have hyes : ¬ (u32 nbytes < u32 ((a.length : Int) + 1) ∨ a = []) := fun hno => hno.elim hlt hnil
    have hcopy := h.getargs_copied hyes
    obtain ⟨-, hle⟩ := hgets.zero_iff.mp (by rw [hcopy])
    have hshort : ¬ a.length + 1 < u32 nbytes := fun hlong => h.getargs_leaks hnil hlong hgets
    have hn : (u32 nbytes : Int) = nbytes := by
      unfold u32
      omega
    exact Or.inr (Or.inr (by omega))
  · rintro (hnil | hlt | hexact)
    · exact h.gets_refused (Or.inr hnil) hlo hhi
    · exact h.gets_refused (Or.inl hlt) hlo hhi
    · by_cases hnil : a = []
      · exact h.gets_refused (Or.inr hnil) hlo hhi
      · exact h.gets_exactly hnil hexact hhi

end

/-- A shell started with the argument `a`, running. -/
theorem args_string_demo : ∃ k, run (kstep demo_env) demo [.tick (demo_frame 3 3),
    .execute (some (ascii "shell a")) (demo_frame 4 4)] = some k ∧ ArgsString (ascii "a") k := by
  have hvalues : (run (kstep demo_env) demo [.tick (demo_frame 3 3),
      .execute (some (ascii "shell a")) (demo_frame 4 4)]).map (fun k =>
        (args_text k k.curr_pid 0, args_text k k.curr_pid 1)) = some (97, 0) := by
    decide +kernel
  obtain ⟨k, hk, hv⟩ := Option.map_eq_some_iff.mp hvalues
  simp only [Prod.mk.injEq] at hv
  refine ⟨k, hk, by decide, by decide, fun i hi => ?_⟩
  match i, hi with
  | 0, _ => exact hv.1
  | 1, _ => exact hv.2

theorem gets_args_demo : ∃ k, run (kstep demo_env) demo [.tick (demo_frame 3 3),
    .execute (some (ascii "shell a")) (demo_frame 4 4)] = some k ∧ GetsArgs (ascii "a") 2 k := by
  obtain ⟨k, hk, hargs⟩ := args_string_demo
  exact ⟨k, hk, (gets_args_iff hargs (by decide) (by decide)).mpr (Or.inr (Or.inr (by decide)))⟩

/-- Asked for three bytes, the call also hands out the byte behind the terminator. -/
theorem getargs_shows_kernel : ∃ k, run (kstep demo_env) demo [.tick (demo_frame 3 3),
    .execute (some (ascii "shell a")) (demo_frame 4 4)] = some k ∧ ArgsString (ascii "a") k ∧
    ¬ GetsArgs (ascii "a") 3 k := by
  obtain ⟨k, hk, hargs⟩ := args_string_demo
  exact ⟨k, hk, hargs, hargs.getargs_leaks (by decide) (by decide)⟩

end LinuxLikeOS
