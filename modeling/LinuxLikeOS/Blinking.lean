/-
The schedule of the characters that `blink.S` draws.

A record is a countdown between two phases. Its lengths are words that the code reads with a sign: a
length of 0, or one above 32768, is over at the first tick. Between the ticks records come and go at
other locations, and the order of the list changes; the one record at a location notices nothing of
it, and its cell shows the character of the phase.
-/
import LinuxLikeOS.Blink
import LinuxLikeOS.Countdown

set_option autoImplicit false

namespace LinuxLikeOS

open LinkedSlots Countdown

/-! ## Phases -/

/-- How many ticks a countdown lasts: the loop asks with a sign whether it is over. -/
def duration (countdown : BitVec 16) : ℕ :=
  if 1 ≤ countdown.toNat ∧ countdown.toNat ≤ 32768 then countdown.toNat else 1

theorem duration_pos (countdown : BitVec 16) : 0 < duration countdown := by
  unfold duration
  split
  · omega
  · exact Nat.one_pos

theorem duration_dec {countdown : BitVec 16} :
    (0 < (countdown - 1).toInt ↔ 1 < duration countdown) ∧
      (0 < (countdown - 1).toInt → duration (countdown - 1) = duration countdown - 1) := by
  have hlt := countdown.isLt
  have hone : (1 : BitVec 16).toNat = 1 := rfl
  unfold duration
  rw [BitVec.toInt_eq_toNat_cond, BitVec.toNat_sub, hone]
  constructor
  -- a word is over when its sign says so: at 0, and above 32767
  · split <;> split <;> omega
  · intro hpos
    split at hpos <;> split <;> split <;> omega

/-- A record's phase. -/
def Blink.phase (b : Blink) : Phase := ⟨b.status.getLsbD 0, duration b.countdown⟩

theorem status_off {status : BitVec 16} : status &&& 1 = 0 ↔ status.getLsbD 0 = false := by
  constructor
  · intro h
    have hbit := congrArg (fun x => x.getLsbD 0) h
    simpa using hbit
  · intro h
    apply BitVec.eq_of_getLsbD_eq
    intro i _
    cases i with
    | zero => simpa using h
    | succ i => simp

theorem status_flip (status : BitVec 16) : (status ^^^ 1).getLsbD 0 = !status.getLsbD 0 := by
  simp

/-- The character of the phase. -/
def Blink.face (b : Blink) : UInt8 := if b.phase.on then b.on_char else b.off_char

theorem Blink.begin_phase (b : Blink) : b.begin.phase = phase_at (duration b.on_length) (duration b.off_length) 0 := by
  have hon : (1 : BitVec 16).getLsbD 0 = true := by decide
  rw [phase_at_zero (duration_pos _)]
  unfold Blink.phase Blink.begin
  dsimp only
  rw [hon]

theorem Blink.tick_phase (b : Blink) :
    b.tick.phase = b.phase.tick (duration b.on_length) (duration b.off_length) := by
  have hdec := @duration_dec b.countdown
  unfold Blink.tick
  split
  next hpos =>
    unfold Phase.tick Blink.phase
    dsimp only
    rw [if_pos (hdec.1.mp hpos), hdec.2 hpos]
  next hpos =>
    -- the last tick of the phase, and the status says which one begins
    have hlast : ¬ 1 < duration b.countdown := fun h => hpos (hdec.1.mpr h)
    unfold Phase.tick Blink.phase
    dsimp only
    rw [if_neg hlast]
    split
    next hoff =>
      dsimp only
      rw [status_flip, status_off.mp hoff]
      rfl
    next hon =>
      rw [status_off, Bool.not_eq_false] at hon
      dsimp only
      rw [status_flip, hon]
      rfl

theorem Blink.tick_kept (b : Blink) : b.tick.location = b.location ∧ b.tick.on_char = b.on_char ∧
    b.tick.off_char = b.off_char ∧ b.tick.on_length = b.on_length ∧ b.tick.off_length = b.off_length := by
  unfold Blink.tick
  split
  · exact ⟨rfl, rfl, rfl, rfl, rfl⟩
  · split
    · exact ⟨rfl, rfl, rfl, rfl, rfl⟩
    · exact ⟨rfl, rfl, rfl, rfl, rfl⟩

/-- **What the tick draws is the character of the new phase.** -/
theorem Blink.draw_self {b : Blink} {screen : ℕ → UInt8}
    (h : screen (2 * b.location.toNat) = b.face) :
    b.draw screen (2 * b.location.toNat) = b.tick.face := by
  unfold Blink.draw Blink.tick
  split
  next hpos => exact h
  next hpos =>
    rw [Function.update_self]
    unfold Blink.face Blink.phase
    split
    next hoff =>
      dsimp only
      rw [status_flip, status_off.mp hoff]
      rfl
    next hon =>
      rw [status_off, Bool.not_eq_false] at hon
      dsimp only
      rw [status_flip, hon]
      rfl

theorem Blink.draw_other {b : Blink} {screen : ℕ → UInt8} {location : BitVec 16}
    (h : b.location ≠ location) : b.draw screen (2 * location.toNat) = screen (2 * location.toNat) := by
  unfold Blink.draw
  split
  · rfl
  · rw [Function.update_of_ne]
    intro heq
    exact h (BitVec.eq_of_toNat_eq (by omega))

/-! ## One location -/

/-- The one record at a location, and the screen shows it. -/
structure Listing.Alone (location : BitVec 16) (b : Blink) (w : Listing) : Prop where
  only : w.blinks.filter (Blink.at location) = [b]
  shown : w.screen (2 * location.toNat) = b.face

/-- No record is at a location, and something else stands there. -/
structure Listing.Vacant (location : BitVec 16) (c : UInt8) (w : Listing) : Prop where
  none : w.blinks.filter (Blink.at location) = []
  shown : w.screen (2 * location.toNat) = c

/-- Calls that add, remove or change a record at the location. -/
def BlinkOp.Names (location : BitVec 16) : BlinkOp → Prop
  | .ioctl (.RTC_ADD user) => user.location = location
  | .ioctl (.RTC_REMOVE arg) => arg.setWidth 16 = location
  | .ioctl (.RTC_FIND _) => False
  | .ioctl (.RTC_SYNC arg) => arg.setWidth 16 = location
  | .tasklet => False

instance (location : BitVec 16) : (op : BlinkOp) → Decidable (op.Names location)
  | .ioctl (.RTC_ADD _) => inferInstanceAs (Decidable (_ = _))
  | .ioctl (.RTC_REMOVE _) => inferInstanceAs (Decidable (_ = _))
  | .ioctl (.RTC_FIND _) => isFalse id
  | .ioctl (.RTC_SYNC _) => inferInstanceAs (Decidable (_ = _))
  | .tasklet => isFalse id

/-- A record behind a call that does not name it. -/
def Blink.passed (b : Blink) : BlinkOp → Blink
  | .tasklet => b.tick
  | .ioctl _ => b

/-- The number of ticks. -/
def blink_ticks : List BlinkOp → ℕ
  | [] => 0
  | .tasklet :: ops => blink_ticks ops + 1
  | .ioctl _ :: ops => blink_ticks ops

section

variable {location other : BitVec 16} {b : Blink} {w : Listing} {l : List Blink}

theorem at_iff : b.at location = true ↔ b.location = location := decide_eq_true_iff

theorem cell_ne (h : other ≠ location) : 2 * location.toNat ≠ 2 * other.toNat :=
  fun heq => h (BitVec.eq_of_toNat_eq (by omega))

/-- Erasing a record at another location. -/
theorem filter_eraseP (h : other ≠ location) (l : List Blink) :
    (l.eraseP (Blink.at other)).filter (Blink.at location) = l.filter (Blink.at location) := by
  induction l with
  | nil => rfl
  | cons x l ih =>
      by_cases hx : x.at other = true
      · have hno : ¬ x.at location = true := by
          rw [at_iff] at hx ⊢
          rw [hx]
          exact h
        rw [List.eraseP_cons_of_pos hx, List.filter_cons_of_neg hno]
      · rw [List.eraseP_cons_of_neg hx, List.filter_cons, List.filter_cons, ih]

/-- Synchronizing a record at another location. -/
theorem filter_sync (h : other ≠ location) (source : Blink) (l : List Blink) :
    (on_first (Blink.at other) source.sync l).filter (Blink.at location)
      = l.filter (Blink.at location) := by
  induction l with
  | nil => rfl
  | cons x l ih =>
      unfold on_first
      split
      next hx =>
        have hno : ¬ x.at location = true := by
          rw [at_iff] at hx ⊢
          rw [hx]
          exact h
        have hno' : ¬ (source.sync x).at location = true := hno
        rw [List.filter_cons_of_neg hno, List.filter_cons_of_neg hno']
      next hx => rw [List.filter_cons, List.filter_cons, ih]

theorem filter_tick (location : BitVec 16) (l : List Blink) :
    (l.map Blink.tick).filter (Blink.at location) = (l.filter (Blink.at location)).map Blink.tick := by
  have htick : Blink.at location ∘ Blink.tick = Blink.at location := by
    funext b
    unfold Function.comp Blink.at
    rw [Blink.tick_location]
  rw [List.filter_map, htick]

/-- Records at other locations draw elsewhere. -/
theorem foldl_draw_other (h : l.filter (Blink.at location) = []) (screen : ℕ → UInt8) :
    l.foldl (fun screen b => b.draw screen) screen (2 * location.toNat)
      = screen (2 * location.toNat) := by
  induction l generalizing screen with
  | nil => rfl
  | cons x l ih =>
      rw [List.filter_eq_nil_iff] at h
      have hx := h x List.mem_cons_self
      rw [at_iff] at hx
      rw [List.foldl_cons, ih (List.filter_eq_nil_iff.mpr fun y hy => h y (List.mem_cons_of_mem x hy)),
        Blink.draw_other hx]

theorem foldl_draw_self (h : l.filter (Blink.at location) = [b]) {screen : ℕ → UInt8}
    (hshown : screen (2 * location.toNat) = b.face) :
    l.foldl (fun screen b => b.draw screen) screen (2 * location.toNat) = b.tick.face := by
  induction l generalizing screen with
  | nil => cases h
  | cons x l ih =>
      rw [List.foldl_cons]
      rw [List.filter_cons] at h
      split at h
      next hx =>
        obtain ⟨rfl, hrest⟩ := List.cons.inj h
        rw [at_iff] at hx
        subst hx
        -- the records behind it are for other cells
        rw [foldl_draw_other hrest, Blink.draw_self hshown]
      next hx =>
        rw [at_iff] at hx
        exact ih h ((Blink.draw_other hx).trans hshown)

/-- **A call that does not name a location** changes nothing there. -/
theorem Listing.ioctl_other {command : BlinkCommand} (hop : ¬ (BlinkOp.ioctl command).Names location)
    (w : Listing) :
    (w.perform (.ioctl command)).2.blinks.filter (Blink.at location)
        = w.blinks.filter (Blink.at location) ∧
      (w.perform (.ioctl command)).2.screen (2 * location.toNat) = w.screen (2 * location.toNat) := by
  unfold Listing.perform
  cases command with
  | RTC_ADD user =>
      dsimp only
      unfold Listing.add
      split
      · exact ⟨rfl, rfl⟩
      · have hno : ¬ user.toBlink.begin.at location = true := fun hat => hop (at_iff.mp hat)
        exact ⟨List.filter_cons_of_neg hno, Function.update_of_ne (cell_ne hop) _ _⟩
  | RTC_REMOVE arg =>
      dsimp only
      unfold Listing.remove
      split
      · exact ⟨rfl, rfl⟩
      · exact ⟨filter_eraseP hop _, rfl⟩
  | RTC_FIND other =>
      dsimp only
      split
      · exact ⟨rfl, rfl⟩
      · exact ⟨rfl, rfl⟩
  | RTC_SYNC arg =>
      dsimp only
      unfold Listing.sync
      split
      next esi edi _ htarget =>
        -- it is the target that is drawn
        refine ⟨filter_sync hop esi _, ?_⟩
        dsimp only
        rw [at_iff.mp (List.find?_some htarget)]
        exact Function.update_of_ne (cell_ne hop) _ _
      next => exact ⟨rfl, rfl⟩

/-- The one record at a location makes a tick of its own. -/
theorem Listing.Alone.perform (h : w.Alone location b) {op : BlinkOp} (hop : ¬ op.Names location) :
    (w.perform op).2.Alone location (b.passed op) := by
  cases op with
  | ioctl command =>
      obtain ⟨honly, hshown⟩ := Listing.ioctl_other hop w
      exact ⟨honly.trans h.only, hshown.trans h.shown⟩
  | tasklet =>
      constructor
      · show (w.blinks.map Blink.tick).filter (Blink.at location) = [b.tick]
        rw [filter_tick, h.only]
        rfl
      · exact foldl_draw_self h.only h.shown

/-- Where no record is, nothing is drawn. -/
theorem Listing.Vacant.perform {c : UInt8} (h : w.Vacant location c) {op : BlinkOp}
    (hop : ¬ op.Names location) : (w.perform op).2.Vacant location c := by
  cases op with
  | ioctl command =>
      obtain ⟨hnone, hshown⟩ := Listing.ioctl_other hop w
      exact ⟨hnone.trans h.none, hshown.trans h.shown⟩
  | tasklet =>
      constructor
      · show (w.blinks.map Blink.tick).filter (Blink.at location) = []
        rw [filter_tick, h.none]
        rfl
      · exact (foldl_draw_other h.none _).trans h.shown

theorem Listing.Vacant.run {c : UInt8} (h : w.Vacant location c) {ops : List BlinkOp}
    (hops : ∀ op ∈ ops, ¬ op.Names location) : (w.run ops).2.Vacant location c := by
  induction ops generalizing w with
  | nil => exact h
  | cons op ops ih =>
      exact ih (h.perform (hops op List.mem_cons_self))
        fun op' hop' => hops op' (List.mem_cons_of_mem op hop')

/-- The record is that of `user`, `n` ticks after it was added. -/
structure OnSchedule (user : Blink) (n : ℕ) (b : Blink) : Prop where
  on_char : b.on_char = user.on_char
  off_char : b.off_char = user.off_char
  on_length : b.on_length = user.on_length
  off_length : b.off_length = user.off_length
  phase : b.phase = phase_at (duration user.on_length) (duration user.off_length) n

theorem OnSchedule.tick {user : Blink} {n : ℕ} (h : OnSchedule user n b) :
    OnSchedule user (n + 1) b.tick := by
  obtain ⟨-, hon, hoff, honlen, hofflen⟩ := b.tick_kept
  refine ⟨hon.trans h.on_char, hoff.trans h.off_char, honlen.trans h.on_length,
    hofflen.trans h.off_length, ?_⟩
  rw [b.tick_phase, phase_at_succ (duration_pos _) (duration_pos _), h.phase, h.on_length, h.off_length]

/-- A whole run of calls that do not name the location. -/
theorem Listing.Alone.run {user : Blink} {n : ℕ} (h : w.Alone location b) (hb : OnSchedule user n b)
    {ops : List BlinkOp} (hops : ∀ op ∈ ops, ¬ op.Names location) :
    ∃ b', (w.run ops).2.Alone location b' ∧ OnSchedule user (n + blink_ticks ops) b' := by
  induction ops generalizing w b n with
  | nil => exact ⟨b, h, hb⟩
  | cons op ops ih =>
      have hnext := h.perform (hops op List.mem_cons_self)
      have hrest : ∀ op' ∈ ops, ¬ op'.Names location :=
        fun op' hop' => hops op' (List.mem_cons_of_mem op hop')
      cases op with
      | ioctl command => exact ih hnext hb hrest
      | tasklet =>
          obtain ⟨b', halone, hb'⟩ := ih hnext hb.tick hrest
          refine ⟨b', halone, ?_⟩
          have hticks : n + blink_ticks (.tasklet :: ops) = n + 1 + blink_ticks ops := by
            show n + (blink_ticks ops + 1) = _
            omega
          rwa [hticks]

/-- What a record shows, `n` ticks after it was added. -/
def scheduled (user : Blink) (n : ℕ) : UInt8 :=
  if n % (duration user.on_length + duration user.off_length) < duration user.on_length then
    user.on_char
  else user.off_char

theorem OnSchedule.face {user : Blink} {n : ℕ} (h : OnSchedule user n b) :
    b.face = scheduled user n := by
  unfold Blink.face scheduled
  rw [h.phase, h.on_char, h.off_char]
  unfold phase_at
  split
  · rfl
  · rfl

/-- A record that has been added where none was. -/
theorem Listing.alone_added {user : Blink} (hnew : w.blinks.find? (Blink.at user.location) = none)
    (hadd : (w.add user).1 = 0) : (w.add user).2.Alone user.location user.begin := by
  unfold Listing.add at hadd ⊢
  split at hadd
  · cases hadd
  next hroom =>
    rw [if_neg hroom]
    constructor
    · have hat : user.begin.at user.location = true := at_iff.mpr rfl
      rw [List.find?_eq_none] at hnew
      rw [List.filter_cons_of_pos hat, List.filter_eq_nil_iff.mpr hnew]
    · have hface : user.begin.face = user.on_char := by
        unfold Blink.face
        rw [user.begin_phase, phase_at_zero (duration_pos _)]
        rfl
      rw [hface]
      exact Function.update_self _ _ _

end

/-- **A character blinks on its schedule.** Once a record is added where there is none, its cell
shows `on_char` for `on_length` ticks, `off_char` for `off_length` ticks, and so on, whatever is
added, removed, found and synchronized at other locations between the ticks. -/
theorem blinks_on_schedule {fuel : ℕ} (hfuel : BLINKS < fuel) {vmem : ℕ → UInt8}
    {before ops : List BlinkOp} (hbefore : ∀ op ∈ before, op.Placed) {answers : List BlinkAnswer}
    {f : Blinkers} (hrun : blink_run fuel (no_blinks vmem) before = some (answers, f))
    {user : mp1_blink_struct} (hloc : user.location ≠ 0)
    (hnew : mp1_find_helper fuel user.location f = some none) (hadd : (mp1_ioctl_add user f).1 = 0)
    (hops : ∀ op ∈ ops, op.Placed ∧ ¬ op.Names user.location) :
    ∃ answers' f', blink_run fuel (mp1_ioctl_add user f).2 ops = some (answers', f') ∧
      f'.vmem (2 * user.location.toNat) = scheduled user.toBlink (blink_ticks ops) := by
  obtain ⟨f₀, slots, hrun₀, hlisted⟩ := (listed_no_blinks vmem).run hfuel hbefore
  rw [hrun, Option.some.injEq, Prod.mk.injEq] at hrun₀
  obtain ⟨-, rfl⟩ := hrun₀
  -- the code has found no record at the location, so the list has none
  obtain ⟨found, hfound, -, hlist⟩ := hlisted.find_helper hfuel user.location
  rw [hnew, Option.some.injEq] at hfound
  obtain rfl := hfound
  obtain ⟨slots', hadded, hvalue⟩ := hlisted.add hloc
  have halone := Listing.alone_added hlist (hvalue.symm.trans hadd)
  have hbegin : OnSchedule user.toBlink 0 user.toBlink.begin :=
    ⟨rfl, rfl, rfl, rfl, user.toBlink.begin_phase⟩
  obtain ⟨f', slots'', hrun', hlisted'⟩ := hadded.run hfuel fun op hop => (hops op hop).1
  obtain ⟨b, hshows, hphase⟩ := halone.run hbegin fun op hop => (hops op hop).2
  rw [Nat.zero_add] at hphase
  refine ⟨_, f', hrun', ?_⟩
  rw [← hlisted'.screen, hshows.shown, hphase.face]

theorem mp1_malloc_no_blinks (vmem : ℕ → UInt8) : mp1_malloc (no_blinks vmem) = some 0 := by
  have hcells : BLINKS = 1999 + 1 := rfl
  unfold mp1_malloc
  rw [hcells, List.range_succ_eq_map, List.find?_cons]
  rfl

theorem blinks_on_schedule_demo :
    ∃ answers f, blink_run 2001 (mp1_ioctl_add main_blink (no_blinks fun _ => 0)).2
      (List.replicate 10 .tasklet) = some (answers, f) ∧ f.vmem 1080 = 0x4D := by
  have hadd : (mp1_ioctl_add main_blink (no_blinks fun _ => 0)).1 = 0 := by
    rw [mp1_ioctl_add_some (by decide) (mp1_malloc_no_blinks _)]
  obtain ⟨answers, f, hrun, hshown⟩ := blinks_on_schedule (by decide : BLINKS < 2001)
    (List.forall_mem_nil _) rfl (by decide) rfl hadd (by decide : ∀ op ∈ List.replicate 10 BlinkOp.tasklet, _)
  exact ⟨answers, f, hrun, hshown.trans (by decide)⟩

end LinuxLikeOS
