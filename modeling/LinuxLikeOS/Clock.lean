/-
The real-time clock and the reads that wait for it.

Every terminal has a countdown of its own (`Countdown.Timer`): an interrupt is a tick for
all three, a read starts the one of the scheduled terminal, and setting a frequency changes
that one's period. So a read waits for its own countdown alone, whatever the other
terminals do. How long it waits is another matter. The period is taken from 1024
interrupts a second, the chip is programmed for 8192, and the countdown takes one interrupt
more than its period.
-/
import LinuxLikeOS.Countdown
import LinuxLikeOS.FileOps
import LinuxLikeOS.Slots

set_option autoImplicit false

namespace LinuxLikeOS

open Kernel Transition Countdown

/-! ## The machine -/

/-- The operations on the clock. The calls come from the process of the scheduled
terminal. -/
inductive RtcOp
  | «open»
  | write (buf : Option (ℕ → UInt8)) (nbytes : Int)
  /-- `RTC_read` up to its waiting loop. -/
  | read
  | interrupt
  | tick

/-- The process of a terminal is in the waiting loop of `RTC_read`. -/
def in_read (k : Kernel) (t : Terminal) : Prop := k.rtc.RTC_block t ≠ 0

instance (k : Kernel) (t : Terminal) : Decidable (in_read k t) := inferInstanceAs (Decidable (_ ≠ _))

/-- A process that waits makes no call. -/
def rtc_step (k : Kernel) : RtcOp → Option Kernel
  | .open => if in_read k k.curr_terminal then none else some (RTC_open k).2
  | .write buf nbytes => if in_read k k.curr_terminal then none else some (RTC_write buf nbytes k).2
  | .read => if in_read k k.curr_terminal then none else some (RTC_read_begin k).2
  | .interrupt => some (RTC_handler k)
  | .tick => some { k with curr_terminal := next_terminal k.curr_terminal }

/-! ## The property -/

/-- The number of RTC interrupts among the operations. -/
def interrupts : List RtcOp → ℕ
  | [] => 0
  | .interrupt :: ops => interrupts ops + 1
  | _ :: ops => interrupts ops

/-- The operation begins a read on the terminal. -/
def reads_on (t : Terminal) (k : Kernel) : RtcOp → Prop
  | .read => k.curr_terminal = t
  | _ => False

/-- The read of the terminal returns after exactly `n` interrupts, whatever operations
come in between. -/
def ReturnsAfter (t : Terminal) (n : ℕ) (k : Kernel) : Prop :=
  ∀ ops k', run rtc_step k ops = some k' →
    AllSteps rtc_step (fun k op => ¬ reads_on t k op) k ops →
    (¬ in_read k' t ↔ n ≤ interrupts ops)

/-- The interrupt rate that register A is programmed for. -/
def interrupt_rate (prev_data : UInt8) : ℕ :=
  rtc_max_frequency >>> ((RTC_reg_A prev_data &&& 0x0F).toNat - 1)

/-- The frequency last accepted on each terminal. -/
def record_frequency (k : Kernel) (op : RtcOp) (_ : Kernel) (freq : Terminal → Option ℕ) :
    Terminal → Option ℕ :=
  match op with
  | .open => Function.update freq k.curr_terminal (some rtc_min_frequency.toNat)
  | .write (some buf) nbytes =>
      if (RTC_write (some buf) nbytes k).1 = 0 then
        Function.update freq k.curr_terminal (some (little_endian buf))
      else freq
  | _ => freq

/-- The clock with that record. -/
def frequency_step :
    Kernel × (Terminal → Option ℕ) → RtcOp → Option (Kernel × (Terminal → Option ℕ)) :=
  with_history rtc_step record_frequency

/-- A read with an accepted frequency: how long it takes, and that this is not what the
programmed rate makes of the frequency. -/
def ReadMistimed (w : Kernel × (Terminal → Option ℕ)) (op : RtcOp) : Prop :=
  ∀ freq k', op = .read → w.2 w.1.curr_terminal = some freq → rtc_step w.1 op = some k' →
    ReturnsAfter w.1.curr_terminal (rtc_max_usable_frequency.toNat / freq + 1) k' ∧
      ∀ prev_data, ¬ ReturnsAfter w.1.curr_terminal (interrupt_rate prev_data / freq) k'

/-! ## Frequencies -/

theorem interrupt_rate_eq (prev_data : UInt8) : interrupt_rate prev_data = 8192 := by
  have hall : ∀ n : Fin 256, (RTC_reg_A (UInt8.ofNat n.val) &&& 0x0F).toNat = 3 := by
    decide +kernel
  have hbyte : UInt8.ofNat prev_data.toNat = prev_data := UInt8.ofNat_toNat
  have h := hall ⟨prev_data.toNat, prev_data.toNat_lt⟩
  dsimp only at h
  rw [hbyte] at h
  unfold interrupt_rate
  rw [h]
  rfl

/-- The frequencies that are accepted. -/
def Accepted (freq : ℕ) : Prop := ∃ i, (6 ≤ i ∧ i < 16) ∧ freq = 32768 >>> (i - 1)

theorem rate_of_eq_some {freq i : ℕ} (h : rate_of freq = some i) :
    (6 ≤ i ∧ i < 16) ∧ freq = 32768 >>> (i - 1) := by
  have hleast := Slots.find_eq_some.mp h
  have hfree := hleast.free
  simp only [decide_eq_false_iff_not, not_not] at hfree
  exact ⟨⟨hleast.lower, hleast.upper⟩, hfree⟩

theorem rtc_min_accepted : Accepted rtc_min_frequency.toNat := ⟨15, by decide, by decide⟩

/-- What follows for an accepted frequency. -/
theorem Accepted.spec {freq : ℕ} (h : Accepted freq) :
    (rtc_min_frequency ≤ freq ∧ freq ≤ rtc_max_usable_frequency) ∧
      8192 / freq ≠ rtc_max_usable_frequency.toNat / freq + 1 ∧
      rtc_max_usable_frequency.tdiv freq = (rtc_max_usable_frequency.toNat / freq : ℕ) := by
  obtain ⟨i, hi, rfl⟩ := h
  have hall : ∀ i : Fin 16, 6 ≤ i.val →
      (rtc_min_frequency ≤ (32768 >>> (i.val - 1) : ℕ) ∧
        ((32768 >>> (i.val - 1) : ℕ) : Int) ≤ rtc_max_usable_frequency) ∧
      8192 / (32768 >>> (i.val - 1)) ≠ rtc_max_usable_frequency.toNat / (32768 >>> (i.val - 1)) + 1 ∧
      rtc_max_usable_frequency.tdiv (32768 >>> (i.val - 1) : ℕ)
        = (rtc_max_usable_frequency.toNat / (32768 >>> (i.val - 1)) : ℕ) := by decide
  exact hall ⟨i, hi.2⟩ hi.1

/-! ## Three countdowns -/

/-- The countdown of a terminal. -/
def timer (k : Kernel) (t : Terminal) : Timer :=
  ⟨k.rtc.RTC_max_counter t, k.rtc.RTC_counter t, in_read k t⟩

theorem timer_waiting (k : Kernel) (t : Terminal) : (timer k t).waiting ↔ in_read k t := Iff.rfl

/-- An interrupt is a tick of all three. -/
theorem timer_RTC_handler (k : Kernel) (t : Terminal) :
    timer (RTC_handler k) t = Countdown.tick (timer k t) := by
  unfold Countdown.tick timer
  dsimp only
  by_cases hzero : k.rtc.RTC_counter t = 0
  · rw [if_pos hzero]
    simp [RTC_handler, hzero, in_read]
  · rw [if_neg hzero]
    simp [RTC_handler, hzero, in_read]

/-- A read starts the countdown of its terminal. -/
theorem timer_RTC_read (k : Kernel) (t : Terminal) :
    timer (RTC_read_begin k).2 t = if t = k.curr_terminal then start (timer k t) else timer k t := by
  unfold timer start
  by_cases ht : t = k.curr_terminal
  · simp [RTC_read_begin, in_read, ht]
  · simp [RTC_read_begin, in_read, ht]

/-- A frequency is the period of one terminal, and nobody starts or stops to wait by it. -/
theorem timer_set_RTC_frequency (freq : Int) (k : Kernel) (t : Terminal) :
    (t ≠ k.curr_terminal → timer (set_RTC_frequency freq k) t = timer k t) ∧
      (in_read (set_RTC_frequency freq k) t ↔ in_read k t) := by
  unfold set_RTC_frequency
  split
  · refine ⟨fun ht => ?_, Iff.rfl⟩
    unfold timer in_read
    dsimp only
    rw [Function.update_of_ne ht, Function.update_of_ne ht]
  · exact ⟨fun _ => rfl, Iff.rfl⟩

/-- `RTC_open` and `RTC_write` set a frequency or do nothing. -/
theorem rtc_call_cases {k k' : Kernel} {op : RtcOp}
    (hop : op = .open ∨ ∃ buf nbytes, op = .write buf nbytes)
    (hstep : rtc_step k op = some k') :
    ¬ in_read k k.curr_terminal ∧ (k' = k ∨ ∃ freq, k' = set_RTC_frequency freq k) := by
  rcases hop with rfl | ⟨buf, nbytes, rfl⟩
  · rw [rtc_step, Option.ite_none_left_eq_some] at hstep
    exact ⟨hstep.1, Or.inr ⟨rtc_min_frequency, (Option.some.inj hstep.2).symm⟩⟩
  · rw [rtc_step, Option.ite_none_left_eq_some] at hstep
    refine ⟨hstep.1, ?_⟩
    rcases RTC_write_cases buf nbytes k with heq | ⟨freq, heq⟩
    · exact Or.inl (by rw [← Option.some.inj hstep.2, heq])
    · exact Or.inr ⟨freq, by rw [← Option.some.inj hstep.2, heq]⟩

/-! ## The wait -/

/-- A read that found the countdown `s` has seen `n` interrupts. -/
structure Waited (t : Terminal) (s : Timer) (n : ℕ) (k : Kernel) : Prop where
  waiting : in_read k t ↔ (n : Int) ≤ s.period
  countdown : in_read k t → timer k t = ticks n (start s)

theorem waited_read {k k' : Kernel} {t : Terminal} (hp : 0 ≤ (timer k t).period)
    (ht : k.curr_terminal = t) (hstep : rtc_step k .read = some k') : Waited t (timer k t) 0 k' := by
  rw [rtc_step, Option.ite_none_left_eq_some] at hstep
  obtain rfl := Option.some.inj hstep.2
  have htimer := timer_RTC_read k t
  rw [if_pos ht.symm] at htimer
  refine ⟨?_, fun _ => htimer⟩
  rw [← timer_waiting, htimer]
  exact iff_of_true trivial hp

/-- **One operation**, by anybody, that does not begin another read on the terminal. -/
theorem Waited.step {t : Terminal} {s : Timer} {n : ℕ} {k k' : Kernel} {op : RtcOp}
    (hp : 0 ≤ s.period) (h : Waited t s n k) (hread : ¬ reads_on t k op)
    (hstep : rtc_step k op = some k') : Waited t s (n + interrupts [op]) k' := by
  -- the countdown is the same
  have hsame : timer k' t = timer k t → (in_read k' t ↔ in_read k t) → Waited t s n k' :=
    fun htimer hblock => ⟨hblock.trans h.waiting, fun hin => htimer.trans (h.countdown (hblock.mp hin))⟩
  have hcall : (op = .open ∨ ∃ buf nbytes, op = .write buf nbytes) → Waited t s n k' := by
    intro hop
    obtain ⟨hfree, rfl | ⟨freq, rfl⟩⟩ := rtc_call_cases hop hstep
    · exact h
    · obtain ⟨hother, hblock⟩ := timer_set_RTC_frequency freq k t
      by_cases ht : t = k.curr_terminal
      · -- the terminal that makes the call does not wait any more
        refine ⟨hblock.trans h.waiting, fun hin => absurd (hblock.mp hin) ?_⟩
        rw [ht]
        exact hfree
      · exact hsame (hother ht) hblock
  cases op with
  | «open» => exact hcall (Or.inl rfl)
  | write buf nbytes => exact hcall (Or.inr ⟨buf, nbytes, rfl⟩)
  | read =>
      rw [rtc_step, Option.ite_none_left_eq_some] at hstep
      obtain rfl := Option.some.inj hstep.2
      have htimer := timer_RTC_read k t
      rw [if_neg fun ht => hread ht.symm] at htimer
      exact hsame htimer (by rw [← timer_waiting, htimer, timer_waiting])
  | interrupt =>
      rw [rtc_step, Option.some.injEq] at hstep
      subst hstep
      have htick := timer_RTC_handler k t
      show Waited t s (n + 1) (RTC_handler k)
      by_cases hin : in_read k t
      · have htimer : timer (RTC_handler k) t = ticks (n + 1) (start s) := by
          rw [htick, h.countdown hin, ticks_succ]
        refine ⟨?_, fun _ => htimer⟩
        rw [← timer_waiting, htimer]
        exact waiting_ticks hp (n + 1)
      · have hno : ¬ in_read (RTC_handler k) t := by
          rw [← timer_waiting, htick]
          exact tick_not_waiting hin
        have hlt := mt h.waiting.mpr hin
        exact ⟨iff_of_false hno (by omega), fun hin' => absurd hin' hno⟩
  | tick =>
      rw [rtc_step, Option.some.injEq] at hstep
      subst hstep
      exact hsame rfl Iff.rfl

theorem interrupts_cons (op : RtcOp) (ops : List RtcOp) :
    interrupts (op :: ops) = interrupts [op] + interrupts ops := by
  cases op <;> simp only [interrupts] <;> omega

theorem Waited.run {t : Terminal} {s : Timer} {n : ℕ} {k k' : Kernel} {ops : List RtcOp}
    (hp : 0 ≤ s.period) (h : Waited t s n k)
    (hreads : AllSteps rtc_step (fun k op => ¬ reads_on t k op) k ops)
    (hrun : Transition.run rtc_step k ops = some k') : Waited t s (n + interrupts ops) k' := by
  induction ops generalizing n k with
  | nil =>
      rw [run_nil, Option.some.injEq] at hrun
      exact hrun ▸ h
  | cons op ops ih =>
      obtain ⟨k₁, hk₁, hrun'⟩ := run_cons_eq_some.mp hrun
      rw [interrupts_cons, ← Nat.add_assoc]
      exact ih (h.step hp hreads.1 hk₁) (hreads.2 k₁ hk₁) hrun'

/-- **A read returns after its period and one interrupt more**, whatever comes in between. -/
theorem returnsAfter_period {k k' : Kernel} {t : Terminal} {p : ℕ}
    (hp : k.rtc.RTC_max_counter t = p) (ht : k.curr_terminal = t)
    (hstep : rtc_step k .read = some k') : ReturnsAfter t (p + 1) k' := by
  have hperiod : (timer k t).period = p := hp
  have hle : 0 ≤ (timer k t).period := by omega
  intro ops k'' hrun hreads
  have h := (waited_read hle ht hstep).run hle hreads hrun
  rw [h.waiting, hperiod, Nat.zero_add]
  omega

theorem run_interrupts (n : ℕ) (k : Kernel) :
    run rtc_step k (List.replicate n .interrupt) = some (RTC_handler^[n] k) := by
  induction n generalizing k with
  | zero => rfl
  | succ n ih =>
      rw [List.replicate_succ, run_cons, Function.iterate_succ_apply]
      exact ih (RTC_handler k)

theorem interrupts_replicate (n : ℕ) : interrupts (List.replicate n .interrupt) = n := by
  induction n with
  | zero => rfl
  | succ n ih => rw [List.replicate_succ, interrupts, ih]

theorem reads_on_replicate (t : Terminal) (n : ℕ) (k : Kernel) :
    AllSteps rtc_step (fun k op => ¬ reads_on t k op) k (List.replicate n .interrupt) := by
  induction n generalizing k with
  | zero => trivial
  | succ n ih => exact ⟨id, fun k' _ => ih k'⟩

/-- There is one such number. -/
theorem ReturnsAfter.unique {t : Terminal} {m n : ℕ} {k : Kernel} (hm : ReturnsAfter t m k)
    (hn : ReturnsAfter t n k) : m = n := by
  -- both decide when the read has returned, after as many interrupts as we like
  have hiff : ∀ i, m ≤ i ↔ n ≤ i := by
    intro i
    have h₁ := hm _ _ (run_interrupts i k) (reads_on_replicate t i k)
    have h₂ := hn _ _ (run_interrupts i k) (reads_on_replicate t i k)
    rw [interrupts_replicate] at h₁ h₂
    exact h₁.symm.trans h₂
  exact Nat.le_antisymm ((hiff n).mpr (Nat.le_refl n)) ((hiff m).mp (Nat.le_refl m))

/-! ## The period -/

/-- The period of a terminal is that of the frequency on record. -/
def PeriodOfFrequency (w : Kernel × (Terminal → Option ℕ)) : Prop :=
  ∀ t freq, w.2 t = some freq → Accepted freq ∧
    w.1.rtc.RTC_max_counter t = (rtc_max_usable_frequency.toNat / freq : ℕ)

theorem RTC_max_counter_set {freq : ℕ} (h : Accepted freq) (k : Kernel) (t : Terminal) :
    (set_RTC_frequency freq k).rtc.RTC_max_counter t
      = if t = k.curr_terminal then ((rtc_max_usable_frequency.toNat / freq : ℕ) : Int)
        else k.rtc.RTC_max_counter t := by
  obtain ⟨hrange, -, hdiv⟩ := h.spec
  unfold set_RTC_frequency
  rw [if_pos hrange]
  dsimp only
  rw [Function.update_apply, hdiv]

/-- A frequency that is set goes on record. -/
theorem PeriodOfFrequency.set {k : Kernel} {f : Terminal → Option ℕ}
    (h : PeriodOfFrequency (k, f)) {freq : ℕ} (hfreq : Accepted freq) :
    PeriodOfFrequency (set_RTC_frequency freq k,
      Function.update f k.curr_terminal (some freq)) := by
  intro t freq' ht
  dsimp only at ht ⊢
  rw [Function.update_apply] at ht
  rw [RTC_max_counter_set hfreq]
  split at ht
  · rename_i hcurr
    obtain rfl := Option.some.inj ht
    rw [if_pos hcurr]
    exact ⟨hfreq, rfl⟩
  · rename_i hcurr
    rw [if_neg hcurr]
    exact h t freq' ht

/-- A `write` sets the frequency in the buffer, or fails. -/
theorem RTC_write_some (buf : ℕ → UInt8) (nbytes : Int) (k : Kernel) :
    RTC_write (some buf) nbytes k = (-1, k) ∨
      (Accepted (little_endian buf) ∧
        RTC_write (some buf) nbytes k = (0, set_RTC_frequency (little_endian buf) k)) := by
  have htry : ∀ freq, try_rates freq k = (-1, k) ∨
      (Accepted freq ∧ try_rates freq k = (0, set_RTC_frequency freq k)) := by
    intro freq
    unfold try_rates
    cases hrate : rate_of freq with
    | none => exact Or.inl rfl
    | some i =>
        obtain ⟨hi, hfreq⟩ := rate_of_eq_some hrate
        refine Or.inr ⟨⟨i, hi, hfreq⟩, ?_⟩
        rw [hfreq]
        rfl
  unfold RTC_write
  by_cases hbytes : nbytes ≠ BYTE_4
  · exact Or.inl (if_pos hbytes)
  · rw [if_neg hbytes]
    exact htry (little_endian buf)

theorem periodOfFrequency_step {w w' : Kernel × (Terminal → Option ℕ)} {op : RtcOp}
    (h : PeriodOfFrequency w) (hstep : frequency_step w op = some w') : PeriodOfFrequency w' := by
  obtain ⟨k, f⟩ := w
  obtain ⟨k', f'⟩ := w'
  obtain ⟨hrtc, hrecord⟩ := with_history_eq_some.mp hstep
  dsimp only at hrtc hrecord
  cases op with
  | «open» =>
      rw [rtc_step, Option.ite_none_left_eq_some] at hrtc
      rw [← Option.some.inj hrtc.2, ← hrecord]
      exact h.set rtc_min_accepted
  | write buf nbytes =>
      rw [rtc_step, Option.ite_none_left_eq_some] at hrtc
      rw [← Option.some.inj hrtc.2, ← hrecord]
      cases buf with
      | none =>
          have hnone : RTC_write none nbytes k = (-1, k) := by
            unfold RTC_write
            split <;> rfl
          rw [hnone]
          exact h
      | some buf =>
          dsimp only [record_frequency]
          rcases RTC_write_some buf nbytes k with heq | ⟨hfreq, heq⟩
          · rw [heq, if_neg (show ¬ (-1 : Int) = 0 by decide)]
            exact h
          · rw [heq, if_pos rfl]
            exact h.set hfreq
  | read =>
      rw [rtc_step, Option.ite_none_left_eq_some] at hrtc
      rw [← Option.some.inj hrtc.2, ← hrecord]
      exact h
  | interrupt =>
      rw [rtc_step, Option.some.injEq] at hrtc
      rw [← hrtc, ← hrecord]
      exact h
  | tick =>
      rw [rtc_step, Option.some.injEq] at hrtc
      rw [← hrtc, ← hrecord]
      exact h

theorem readMistimed_of_period {w : Kernel × (Terminal → Option ℕ)} (h : PeriodOfFrequency w)
    (op : RtcOp) : ReadMistimed w op := by
  rintro freq k' rfl hfreq hstep
  obtain ⟨haccepted, hp⟩ := h _ freq hfreq
  have hreturns := returnsAfter_period hp rfl hstep
  refine ⟨hreturns, fun prev_data hrate => ?_⟩
  rw [interrupt_rate_eq] at hrate
  exact haccepted.spec.2.1 (hrate.unique hreturns)

/-- **No read waits for as long as the programmed rate makes of its frequency.** It returns
after `1024 / freq + 1` interrupts, and the other terminals do not change that. -/
theorem reads_mistimed (k : Kernel) (ops : List RtcOp) :
    AllSteps frequency_step ReadMistimed (k, fun _ => none) ops := by
  have hstart : PeriodOfFrequency (k, fun _ => none) := fun _ _ h => by cases h
  exact (allSteps_of_forall fun _ _ => trivial).mono (C := fun _ _ => True) PeriodOfFrequency
    (fun _ _ _ h _ hstep => periodOfFrequency_step h hstep)
    (fun _ op h _ => readMistimed_of_period h op) hstart

/-- A read at 2 Hz returns after 513 interrupts, not after 4096. -/
theorem read_too_early : ∃ k, run rtc_step demo [.open, .read] = some k ∧
    ReturnsAfter k.curr_terminal 513 k ∧
    ∀ prev_data, interrupt_rate prev_data / 2 = 4096 ∧
      ¬ ReturnsAfter k.curr_terminal (interrupt_rate prev_data / 2) k := by
  have hvalues : (run rtc_step demo [.open]).map (fun k =>
      (k.rtc.RTC_max_counter k.curr_terminal, decide (in_read k k.curr_terminal))) = some (512, false) := by
    decide +kernel
  obtain ⟨k₀, hopen, hv⟩ := Option.map_eq_some_iff.mp hvalues
  rw [Prod.mk.injEq] at hv
  have hfree : ¬ in_read k₀ k₀.curr_terminal := of_decide_eq_false hv.2
  have hread : rtc_step k₀ .read = some (RTC_read_begin k₀).2 := if_neg hfree
  have hreturns : ReturnsAfter k₀.curr_terminal 513 (RTC_read_begin k₀).2 :=
    returnsAfter_period (p := 512) hv.1 rfl hread
  refine ⟨_, run_append hopen (run_cons_eq_some.mpr ⟨_, hread, rfl⟩), hreturns, fun prev_data => ?_⟩
  rw [interrupt_rate_eq]
  exact ⟨rfl, fun hrate => absurd (hrate.unique hreturns) (by decide)⟩

/-! ## Setting a frequency -/

/-- A power of two among the frequencies of the virtual clock. -/
def Settable (freq : ℕ) : Prop := (∃ e, freq = 2 ^ e) ∧ 2 ≤ freq ∧ freq ≤ 1024

/-- The rates that are tried give the powers of two. -/
theorem settable_iff {freq : ℕ} : Settable freq ↔ Accepted freq := by
  constructor
  · rintro ⟨⟨e, rfl⟩, hlow, hhigh⟩
    have hpos : 1 ≤ e := by
      by_contra hzero
      obtain rfl : e = 0 := by omega
      exact absurd hlow (by decide)
    have hle : e ≤ 10 := (Nat.pow_le_pow_iff_right (by decide)).mp (show 2 ^ e ≤ 2 ^ 10 from hhigh)
    have hall : ∀ e : Fin 11, 1 ≤ e.val → 2 ^ e.val = 32768 >>> (16 - e.val - 1) := by decide
    exact ⟨16 - e, by omega, hall ⟨e, by omega⟩ hpos⟩
  · rintro ⟨i, hi, rfl⟩
    have hall : ∀ i : Fin 16, 6 ≤ i.val → 32768 >>> (i.val - 1) = 2 ^ (16 - i.val) ∧
        2 ≤ 32768 >>> (i.val - 1) ∧ 32768 >>> (i.val - 1) ≤ 1024 := by decide
    obtain ⟨hpow, hlow, hhigh⟩ := hall ⟨i, hi.2⟩ hi.1
    exact ⟨⟨_, hpow⟩, hlow, hhigh⟩

/-- The counter that makes a frequency of the 1024 interrupts. -/
theorem Accepted.counter {freq : ℕ} (h : Accepted freq) :
    1 ≤ rtc_max_usable_frequency.toNat / freq ∧
      rtc_max_usable_frequency.toNat / freq * freq = 1024 := by
  obtain ⟨i, hi, rfl⟩ := h
  have hall : ∀ i : Fin 16, 6 ≤ i.val →
      1 ≤ rtc_max_usable_frequency.toNat / (32768 >>> (i.val - 1)) ∧
        rtc_max_usable_frequency.toNat / (32768 >>> (i.val - 1)) * (32768 >>> (i.val - 1)) = 1024 := by
    decide
  exact hall ⟨i, hi.2⟩ hi.1

/-- Every accepted frequency is among the rates that are tried. -/
theorem Accepted.rate_of {freq : ℕ} (h : Accepted freq) : (rate_of freq).isSome = true := by
  obtain ⟨i, hi, rfl⟩ := h
  have hall : ∀ i : Fin 16, 6 ≤ i.val →
      (LinuxLikeOS.rate_of (32768 >>> (i.val - 1))).isSome = true := by decide
  exact hall ⟨i, hi.2⟩ hi.1

/-- The state of the clock with a frequency set on the scheduled terminal, which counts to
`max` from now on. -/
def frequency_set (freq max : ℕ) (k : Kernel) : Kernel :=
  { k with rtc :=
    { k.rtc with
      RTC_frequency := freq
      RTC_max_counter := Function.update k.rtc.RTC_max_counter k.curr_terminal max
      RTC_counter := Function.update k.rtc.RTC_counter k.curr_terminal max } }

/-- A `write` to the clock: what is accepted, the counter it sets, and that a call that is not
accepted changes nothing. -/
structure SetsFrequency (buffer : Option (ℕ → UInt8)) (nbytes : Int) (k : Kernel) : Prop where
  accepted_iff : (RTC_write buffer nbytes k).1 = 0 ↔
    nbytes = 4 ∧ ∃ bytes, buffer = some bytes ∧ Settable (little_endian bytes)
  counter : ∀ bytes, buffer = some bytes → (RTC_write buffer nbytes k).1 = 0 →
    ∃ max, 1 ≤ max ∧ max * little_endian bytes = 1024 ∧
      (RTC_write buffer nbytes k).2 = frequency_set (little_endian bytes) max k
  failure : (RTC_write buffer nbytes k).1 ≠ 0 → RTC_write buffer nbytes k = (-1, k)

/-- A call that fails with nothing to accept. -/
theorem setsFrequency_of_fails {buffer : Option (ℕ → UInt8)} {nbytes : Int} {k : Kernel}
    (hret : RTC_write buffer nbytes k = (-1, k))
    (hbad : ¬ (nbytes = 4 ∧ ∃ bytes, buffer = some bytes ∧ Settable (little_endian bytes))) :
    SetsFrequency buffer nbytes k := by
  have hne : (RTC_write buffer nbytes k).1 ≠ 0 := by
    rw [hret]
    exact (by decide : (-1 : Int) ≠ 0)
  exact ⟨iff_of_false hne hbad, fun _ _ h => absurd h hne, fun _ => hret⟩

theorem RTC_write_four (bytes : ℕ → UInt8) {nbytes : Int} (h : nbytes = BYTE_4) (k : Kernel) :
    RTC_write (some bytes) nbytes k = try_rates (little_endian bytes) k := by
  unfold RTC_write
  rw [if_neg (not_not.mpr h)]

/-- A frequency of the virtual clock is set. -/
theorem try_rates_settable {freq : ℕ} (h : Settable freq) (k : Kernel) :
    try_rates freq k = (0, frequency_set freq (rtc_max_usable_frequency.toNat / freq) k) := by
  have hacc := settable_iff.mp h
  obtain ⟨hrange, -, hdiv⟩ := hacc.spec
  obtain ⟨i, hi⟩ := Option.isSome_iff_exists.mp hacc.rate_of
  have hset : set_RTC_frequency freq k
      = frequency_set freq (rtc_max_usable_frequency.toNat / freq) k := by
    unfold set_RTC_frequency frequency_set
    rw [if_pos hrange]
    dsimp only
    rw [hdiv]
  have hrate : rtc_max_frequency >>> (i - 1) = freq := (rate_of_eq_some hi).2.symm
  unfold try_rates
  rw [hi]
  dsimp only
  rw [hrate, hset]

/-- **Every `write` to the clock**, whatever the buffer, the length and the state. -/
theorem frequency_writes (buffer : Option (ℕ → UInt8)) (nbytes : Int) (k : Kernel) :
    SetsFrequency buffer nbytes k := by
  by_cases hbytes : nbytes = BYTE_4
  · cases buffer with
    | none =>
        apply setsFrequency_of_fails
        · unfold RTC_write
          exact if_neg (not_not.mpr hbytes)
        · rintro ⟨-, bytes, h, -⟩
          cases h
    | some bytes =>
        by_cases hset : Settable (little_endian bytes)
        · obtain ⟨hpos, hmul⟩ := (settable_iff.mp hset).counter
          have hret := (RTC_write_four bytes hbytes k).trans (try_rates_settable hset k)
          have hzero : (RTC_write (some bytes) nbytes k).1 = 0 := by rw [hret]
          refine ⟨iff_of_true hzero ⟨hbytes, bytes, rfl, hset⟩, fun b hb _ => ?_,
            fun hne => absurd hzero hne⟩
          obtain rfl := Option.some.inj hb
          exact ⟨_, hpos, hmul, by rw [hret]⟩
        · apply setsFrequency_of_fails
          · rcases RTC_write_some bytes nbytes k with hfail | ⟨hacc, -⟩
            · exact hfail
            · exact absurd (settable_iff.mpr hacc) hset
          · rintro ⟨-, b, hb, hb'⟩
            obtain rfl := Option.some.inj hb
            exact hset hb'
  · apply setsFrequency_of_fails
    · unfold RTC_write
      exact if_pos hbytes
    · exact fun h => hbytes h.1

end LinuxLikeOS
