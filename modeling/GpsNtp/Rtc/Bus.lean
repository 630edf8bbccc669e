import GpsNtp.Machinery.Run
import GpsNtp.Rtc.Clock

/-!
# Rtc/Bus — the clock chip over a bus that fails

    read Control_1 ─▸ set STOP ─▸ seven time registers ─▸ clear STOP
         │               │                │                   │
         └── Err         └── Err          └── Err, later      └── a warning

A write of the time takes four transfers, each of which may fail with some of its bytes through.
The clock is stopped in between, and only the last transfer starts it again, whose failure is not
reported: after a write that returned `Ok` the clock may stand, until a boot clears the control
registers.  What is read later is the second that was written and those counted since, in the years
2020 to 2099 and with no later write that sets a register (`read_after_write`).
-/

namespace GpsNtp.Rtc

open Machine Calendar

/-! ## The chip and the bus -/

def REG_CONTROL1 : ℕ := 0
def REG_CONTROL2 : ℕ := 1
def REG_CONTROL3 : ℕ := 2
def REG_SECONDS : ℕ := 3
def STOP_BIT : UInt8 := 0x20

/-- The registers of the PCF8523 by their address. -/
abbrev Chip : Type := ℕ → UInt8

namespace Chip

/-- The registers from `reg` on are written in a row. -/
def write (chip : Chip) (reg : ℕ) (data : List UInt8) : Chip := fun r =>
  if reg ≤ r then (data[r - reg]?).getD (chip r) else chip r

/-- The seven registers that are read for the time. -/
def time (chip : Chip) : Vector UInt8 7 := Vector.ofFn fun i => chip (REG_SECONDS + i)

/-- Whether the clock is stopped. -/
def stopped (chip : Chip) : Bool := chip REG_CONTROL1 &&& STOP_BIT != 0

/-- A second passes, in which `tick` is what counting makes of the time registers. -/
def second (tick : Vector UInt8 7 → Vector UInt8 7) (chip : Chip) : Chip :=
  if chip.stopped then chip else chip.write REG_SECONDS (tick chip.time).toList

end Chip

/-- How a write transfer ends: without an error, or with one after so many bytes of the data. -/
inductive Transfer
  | done
  | failed (n : ℕ)
deriving DecidableEq

/-- `FeatherI2cBus::write` of a register address and data, and whether it returns `Ok`. -/
def busWrite (chip : Chip) (reg : ℕ) (data : List UInt8) : Transfer → Chip × Bool
  | .done => (chip.write reg data, true)
  | .failed n => (chip.write reg (data.take n), false)

/-- The transfer has set the register it begins with. -/
def Transfer.reaches : Transfer → Bool
  | .failed 0 => false
  | _ => true

/-- How the transfers of `write_datetime` end; the first one is a read. -/
structure Transfers where
  control : Bool
  stop : Transfer
  time : Transfer
  restart : Transfer
deriving DecidableEq

/-- `write_datetime`. -/
def writeDatetime (chip : Chip) (dt : RtcDateTime) (transfers : Transfers) : Chip × Bool :=
  if !transfers.control then (chip, false)
  else
    let control := chip REG_CONTROL1
    match busWrite chip REG_CONTROL1 [control ||| STOP_BIT] transfers.stop with
    | (chip, false) => (chip, false)
    | (chip, true) =>
      let (chip, writeResult) :=
        busWrite chip REG_SECONDS (encodeDatetimeRegs dt).toList transfers.time
      -- only logged where it fails
      let (chip, _) := busWrite chip REG_CONTROL1 [control &&& ~~~STOP_BIT] transfers.restart
      (chip, writeResult)

/-- `init_chip`, up to the first transfer that fails. -/
def initChip (chip : Chip) (control₁ control₂ control₃ : Transfer) : Chip :=
  match busWrite chip REG_CONTROL1 [0] control₁ with
  | (chip, false) => chip
  | (chip, true) =>
    match busWrite chip REG_CONTROL2 [0] control₂ with
    | (chip, false) => chip
    | (chip, true) => (busWrite chip REG_CONTROL3 [0] control₃).1

section

variable (env : Chrono)

/-- `write_unix_seconds`. -/
def writeUnixSeconds (chip : Chip) (unixSeconds : ℤ) (transfers : Transfers) : Chip × Bool :=
  match unixSecondsToDatetime env unixSeconds with
  | none => (chip, false)
  | some dt => writeDatetime chip dt transfers

/-- `read_unix_seconds`, of a bus that works or not. -/
def readUnixSeconds (chip : Chip) (transfer : Bool) : Option ℤ :=
  if transfer then (decodeDatetimeRegs chip.time).bind (datetimeToUnixSeconds env) else none

end

/-! ## Registers after a write -/

namespace Chip

variable {chip : Chip}

theorem write_of_lt {reg r : ℕ} (data : List UInt8) (h : r < reg) :
    chip.write reg data r = chip r := by
  rw [write, if_neg (not_le.mpr h)]

theorem write_of_length_le {reg r : ℕ} {data : List UInt8} (h : reg + data.length ≤ r) :
    chip.write reg data r = chip r := by
  rw [write, if_pos (by omega), List.getElem?_eq_none (by omega), Option.getD_none]

/-- A transfer that begins above `Control_1` leaves it. -/
@[simp] theorem busWrite_control {reg : ℕ} (hreg : REG_CONTROL1 < reg) (data : List UInt8)
    (transfer : Transfer) :
    (busWrite chip reg data transfer).1 REG_CONTROL1 = chip REG_CONTROL1 := by
  cases transfer <;> exact write_of_lt _ hreg

@[simp] theorem write_nil (reg : ℕ) : chip.write reg [] = chip := by
  funext r
  simp [write]

/-- A control register is not part of the time. -/
@[simp] theorem time_write {reg : ℕ} {bs : List UInt8} (hbs : reg + bs.length ≤ REG_SECONDS) :
    (chip.write reg bs).time = chip.time := by
  refine Vector.ext fun i hi => ?_
  rw [time, time, Vector.getElem_ofFn, Vector.getElem_ofFn]
  exact write_of_length_le (hbs.trans (Nat.le_add_right _ _))

theorem time_busWrite {reg : ℕ} {b : UInt8} (hreg : reg < REG_SECONDS) (transfer : Transfer) :
    (busWrite chip reg [b] transfer).1.time = chip.time := by
  cases transfer with
  | done => exact time_write hreg
  | failed n =>
    have hlength : ([b].take n).length ≤ 1 := List.length_take_le' _ _
    exact time_write (by omega)

/-- The time is what is written to its registers. -/
@[simp] theorem time_write_time (regs : Vector UInt8 7) :
    (chip.write REG_SECONDS regs.toList).time = regs := by
  refine Vector.ext fun i hi => ?_
  rw [time, Vector.getElem_ofFn, write, if_pos (Nat.le_add_right _ _), Nat.add_sub_cancel_left]
  simp [hi]

/-- The time registers are not the control register. -/
@[simp] theorem write_time_control (data : List UInt8) :
    chip.write REG_SECONDS data REG_CONTROL1 = chip REG_CONTROL1 :=
  write_of_lt data (by decide)

end Chip

/-! ## The clock counts -/

/-- The time registers hold an instant, and the chip says so. -/
def Holds (regs : Vector UInt8 7) (t : DateTime) : Prop :=
  regs.get 0 &&& 0x80 = 0 ∧
    timeFields regs = (values t).map fun value => UInt8.ofNat (Bcd.pack value)

/-- The seconds of the years that the registers can name and the decoder accepts. -/
def InRange (u : ℤ) : Prop := 1577836800 ≤ u ∧ u < 4102444800

/-- **The chip counts seconds**, leap years included. -/
structure Counts (tick : Vector UInt8 7 → Vector UInt8 7) : Prop where
  next : ∀ {u : ℤ} {regs : Vector UInt8 7}, InRange u → InRange (u + 1) →
    Holds regs (.ofUnixSeconds u) → Holds (tick regs) (.ofUnixSeconds (u + 1))

theorem plausible_of_inRange {u : ℤ} (hu : InRange u) :
    Plausible (.ofUnixSeconds u) ∧ (DateTime.ofUnixSeconds u).year ≤ 2099 := by
  obtain ⟨ht, hseconds⟩ := DateTime.ofUnixSeconds_spec u
  generalize DateTime.ofUnixSeconds u = t at ht hseconds
  subst hseconds
  obtain ⟨hfirst, hlast⟩ := @year_bounds_of_unixSeconds t ht 2020 2099 hu.1 hu.2
  obtain ⟨⟨hmonths, hdays, hlength⟩, hhours, hminutes, hseconds⟩ := ht
  have hthirty : Calendar.monthLength t.year t.month ≤ 31 := by
    rw [Calendar.monthLength]
    split_ifs <;> decide
  exact ⟨⟨hmonths, ⟨hdays, hlength.trans hthirty⟩, Nat.le_of_lt_succ hhours,
    Nat.le_of_lt_succ hminutes, Nat.le_of_lt_succ hseconds, hfirst⟩, hlast⟩

theorem values_lt {dt : RtcDateTime} (h : Plausible dt) (hyear : dt.year ≤ 2099) :
    ∀ value ∈ values dt, value < 100 := by
  have hlow := h.year
  obtain ⟨⟨-, hmonth⟩, ⟨-, hday⟩, hhour, hminute, hsecond, -⟩ := h
  simp only [values, List.forall_mem_cons]
  exact ⟨by omega, by omega, by omega, by omega, by omega, by omega, List.forall_mem_nil _⟩

/-- An instant of these years is written as the registers hold it. -/
theorem holds_encodeDatetimeRegs {dt : RtcDateTime} (h : Plausible dt) (hyear : dt.year ≤ 2099) :
    Holds (encodeDatetimeRegs dt) dt := by
  constructor
  · refine and_top ?_
    have hpack := Bcd.pack_lt 6 (Nat.lt_succ_of_le h.second)
    rw [show (encodeDatetimeRegs dt).get 0 = decToBcd (UInt8.ofNat dt.second) from rfl,
      toNat_decToBcd_ofNat (h.second.trans_lt (by decide))]
    omega
  · rw [timeFields_encodeDatetimeRegs h]
    refine List.map_congr_left fun value hvalue => ?_
    rw [min_eq_left (Nat.le_of_lt_succ (values_lt h hyear value hvalue))]

/-- Registers that hold an instant are decoded as it. -/
theorem decodeDatetimeRegs_of_holds {regs : Vector UInt8 7} {dt : RtcDateTime} (h : Plausible dt)
    (hyear : dt.year ≤ 2099) (hregs : Holds regs dt) : decodeDatetimeRegs regs = some dt := by
  refine decodeDatetimeRegs_eq_some_iff.mpr ⟨hregs.1, h, ?_⟩
  rw [hregs.2, List.map_map]
  refine ((List.map_congr_left fun value hvalue => ?_).trans (List.map_id _)).symm
  have hvalue' := values_lt h hyear value hvalue
  have hpack : Bcd.pack value < 256 := (Bcd.pack_lt 10 hvalue').trans (by decide)
  rw [Function.comp_apply, UInt8.toNat_ofNat', Nat.mod_eq_of_lt hpack, Bcd.unpack_pack, id_eq]

section

variable {env : Chrono} (henv : env.Gregorian) {u : ℤ} (hu : InRange u)

include henv hu

/-- Chrono takes a second of these years apart, and puts it together again. -/
theorem chrono_of_inRange :
    unixSecondsToDatetime env u = some (.ofUnixSeconds u) ∧
      datetimeToUnixSeconds env (.ofUnixSeconds u) = some u := by
  obtain ⟨hfields, hlast⟩ := plausible_of_inRange hu
  have hfirst : (2020 : ℤ) ≤ (DateTime.ofUnixSeconds u).year := hfields.year
  obtain ⟨ht, hseconds⟩ := DateTime.ofUnixSeconds_spec u
  generalize DateTime.ofUnixSeconds u = t at ht hseconds hfirst hlast
  subst hseconds
  obtain ⟨date, time, hdate, htime, hstamp, hopt⟩ :=
    henv.exists_instant ht ⟨by omega, by omega⟩
  obtain ⟨hyear, hmonth, hday⟩ := henv.readDate _ _ _ _ hdate
  obtain ⟨hhour, hminute, hsecond⟩ := henv.readTime _ _ _ _ htime
  constructor
  · rw [unixSecondsToDatetime, hopt, Option.bind_eq_bind, Option.bind_some, hyear, hmonth, hday,
      hhour, hminute, hsecond]
  · rw [datetimeToUnixSeconds, hdate, Option.bind_eq_bind, Option.bind_some, htime,
      Option.bind_eq_bind, Option.bind_some, hstamp]

theorem readUnixSeconds_of_holds {chip : Chip} (hchip : Holds chip.time (.ofUnixSeconds u)) :
    readUnixSeconds env chip true = some u := by
  obtain ⟨hfields, hlast⟩ := plausible_of_inRange hu
  rw [readUnixSeconds, if_pos rfl, decodeDatetimeRegs_of_holds hfields hlast hchip,
    Option.bind_some]
  exact (chrono_of_inRange henv hu).2

end

/-! ## Where the clock stands -/

theorem or_stop_and_stop (b : UInt8) : (b ||| STOP_BIT) &&& STOP_BIT = STOP_BIT := by
  refine UInt8.toBitVec_inj.mp (BitVec.eq_of_getElem_eq fun i hi => ?_)
  simp only [UInt8.toBitVec_and, UInt8.toBitVec_or, BitVec.getElem_and, BitVec.getElem_or]
  cases b.toBitVec[i] <;> cases STOP_BIT.toBitVec[i] <;> rfl

theorem and_not_stop_and_stop (b : UInt8) : (b &&& ~~~STOP_BIT) &&& STOP_BIT = 0 := by
  rw [UInt8.and_assoc, show ~~~STOP_BIT &&& STOP_BIT = 0 from rfl, UInt8.and_zero]

namespace Chip

variable {chip : Chip}

theorem stopped_congr {chip' : Chip} (h : chip' REG_CONTROL1 = chip REG_CONTROL1) :
    chip'.stopped = chip.stopped := by
  rw [stopped, stopped, h]

theorem stopped_of_set {b : UInt8} (h : chip REG_CONTROL1 = b ||| STOP_BIT) :
    chip.stopped = true := by
  rw [stopped, h, or_stop_and_stop]
  rfl

theorem stopped_of_cleared {b : UInt8} (h : chip REG_CONTROL1 = b &&& ~~~STOP_BIT) :
    chip.stopped = false := by
  rw [stopped, h, and_not_stop_and_stop]
  rfl

/-- A transfer that clears `STOP` starts the clock if it gets there. -/
theorem stopped_busWrite_control (b : UInt8) (transfer : Transfer) :
    (busWrite chip REG_CONTROL1 [b &&& ~~~STOP_BIT] transfer).1.stopped =
      (chip.stopped && !transfer.reaches) := by
  have hreached : ∀ chip' : Chip, chip' REG_CONTROL1 = b &&& ~~~STOP_BIT →
      chip'.stopped = (chip.stopped && !true) := by
    intro chip' hchip'
    rw [stopped_of_cleared hchip', Bool.not_true, Bool.and_false]
  cases transfer with
  | done => exact hreached _ rfl
  | failed n =>
    cases n with
    | zero =>
      show (chip.write REG_CONTROL1 []).stopped = (chip.stopped && !false)
      rw [write_nil, Bool.not_false, Bool.and_true]
    | succ n => exact hreached _ rfl

/-- What the transfers to the other control registers leave alone. -/
theorem initChip_eq {α : Type*} {f : Chip → α} (hf : ∀ (chip : Chip) (reg : ℕ)
      (transfer : Transfer), REG_CONTROL1 < reg → reg < REG_SECONDS →
      f (busWrite chip reg [0] transfer).1 = f chip) (control₁ control₂ control₃ : Transfer) :
    f (initChip chip control₁ control₂ control₃) =
      f (busWrite chip REG_CONTROL1 [0] control₁).1 := by
  cases control₁ with
  | failed n => rfl
  | done =>
    cases control₂ with
    | failed n => exact hf _ REG_CONTROL2 (.failed n) (by decide) (by decide)
    | done =>
      exact (hf _ REG_CONTROL3 control₃ (by decide) (by decide)).trans
        (hf _ REG_CONTROL2 .done (by decide) (by decide))

end Chip

/-- What a write that returns `Ok` leaves: the time, and a clock that stands if the last transfer
did not get through. -/
theorem writeDatetime_of_ok {chip : Chip} {dt : RtcDateTime} {transfers : Transfers}
    (h : (writeDatetime chip dt transfers).2 = true) :
    (writeDatetime chip dt transfers).1.time = encodeDatetimeRegs dt ∧
      (writeDatetime chip dt transfers).1.stopped = !transfers.restart.reaches := by
  obtain ⟨control, stop, time, restart⟩ := transfers
  cases control with
  | false => cases h
  | true =>
    cases stop with
    | failed n => cases h
    | done =>
      cases time with
      | failed n => cases h
      | done =>
        constructor
        · exact (Chip.time_busWrite (by decide) restart).trans (Chip.time_write_time _)
        · refine (Chip.stopped_busWrite_control _ restart).trans ?_
          rw [Chip.stopped_of_set (Chip.write_time_control _), Bool.true_and]

/-! ## What is read later -/

/-- What happens to the chip: a second passes, the board boots, and the panel task writes or reads
the time. -/
inductive BusEvent
  | second
  | boot (present : Bool) (control₁ control₂ control₃ : Transfer)
  | write (unixSeconds : ℤ) (transfers : Transfers)
  | read (transfer : Bool)
deriving DecidableEq

namespace BusEvent

def isSecond : BusEvent → Bool
  | .second => true
  | _ => false

/-- The event is no write that sets any register. -/
def harmless : BusEvent → Bool
  | .write _ transfers => !transfers.control || !transfers.stop.reaches
  | _ => true

/-- A boot that reaches `Control_1`. -/
def restarts : BusEvent → Bool
  | .boot present control₁ _ _ => present && control₁.reaches
  | _ => false

/-- The seconds that a clock counts which runs from the start, or from the first restart on. -/
def secondsCounted : Bool → List BusEvent → ℕ
  | _, [] => 0
  | running, e :: evs =>
    (running && e.isSecond).toNat + secondsCounted (running || e.restarts) evs

theorem secondsCounted_le (running : Bool) (evs : List BusEvent) :
    secondsCounted running evs ≤ evs.countP isSecond := by
  induction evs generalizing running with
  | nil => exact le_rfl
  | cons e evs ih =>
    have hrest := ih (running || e.restarts)
    rw [secondsCounted, List.countP_cons]
    cases running <;> cases e.isSecond <;> simp at hrest ⊢ <;> omega

end BusEvent

section

variable (env : Chrono) (tick : Vector UInt8 7 → Vector UInt8 7)

def Chip.step (chip : Chip) : BusEvent → Chip
  | .second => chip.second tick
  | .boot present control₁ control₂ control₃ =>
    if present then initChip chip control₁ control₂ control₃ else chip
  | .write u transfers => (writeUnixSeconds env chip u transfers).1
  | .read _ => chip

variable {env} {tick} {chip : Chip} {u : ℤ}

/-- Nothing but seconds moves the time. -/
theorem Chip.step_of_harmless {e : BusEvent} (he : e.harmless = true)
    (hsecond : e.isSecond = false) :
    (chip.step env tick e).time = chip.time ∧
      (!(chip.step env tick e).stopped) = (!chip.stopped || e.restarts) := by
  have hsame : ∀ chip' : Chip, chip' = chip →
      chip'.time = chip.time ∧ (!chip'.stopped) = (!chip.stopped || false) := by
    rintro chip' rfl
    exact ⟨rfl, (Bool.or_false _).symm⟩
  cases e with
  | second => cases hsecond
  | read transfer => exact hsame _ rfl
  | boot present control₁ control₂ control₃ =>
    cases present with
    | false => exact hsame _ rfl
    | true =>
      constructor
      · exact (initChip_eq (fun _ _ transfer _ hreg => time_busWrite hreg transfer) ..).trans
          (time_busWrite (by decide) control₁)
      · have hstopped : (initChip chip control₁ control₂ control₃).stopped =
            (chip.stopped && !control₁.reaches) :=
          (initChip_eq (fun _ _ transfer hreg _ =>
            stopped_congr (busWrite_control hreg _ transfer)) ..).trans
            (stopped_busWrite_control 0 control₁)
        show (!(initChip chip control₁ control₂ control₃).stopped) =
          (!chip.stopped || (true && control₁.reaches))
        rw [hstopped, Bool.not_and, Bool.not_not, Bool.true_and]
  | write v transfers =>
    refine hsame _ ?_
    rw [Chip.step, writeUnixSeconds]
    cases unixSecondsToDatetime env v with
    | none => rfl
    | some dt =>
      obtain ⟨control, stop, time, restart⟩ := transfers
      cases control with
      | false => rfl
      | true =>
        match stop, he with
        | .failed 0, _ => simp [writeDatetime, busWrite]

theorem Chip.step_second :
    (chip.step env tick .second).stopped = chip.stopped ∧
      (chip.step env tick .second).time = if chip.stopped then chip.time else tick chip.time := by
  rw [Chip.step, Chip.second]
  split
  · exact ⟨rfl, rfl⟩
  · exact ⟨stopped_congr (write_time_control _), time_write_time _⟩

theorem InRange.le {v : ℤ} {n : ℕ} (hu : InRange u) (hv : InRange v) (h : u + n ≤ v) :
    InRange (u + n) :=
  ⟨hu.1.trans (le_add_of_nonneg_right (Int.natCast_nonneg n)), h.trans_lt hv.2⟩

/-- The clock counts on while it runs, and stands while it does not. -/
theorem Chip.holds_run (htick : Counts tick) {evs : List BusEvent}
    (hharmless : ∀ e ∈ evs, e.harmless = true) (hu : InRange u)
    (hend : InRange (u + evs.countP BusEvent.isSecond))
    (hchip : Holds chip.time (.ofUnixSeconds u)) :
    Holds (run (Chip.step env tick) chip evs).time
      (.ofUnixSeconds (u + BusEvent.secondsCounted (!chip.stopped) evs)) := by
  induction evs generalizing chip u with
  | nil => simpa [BusEvent.secondsCounted] using hchip
  | cons e evs ih =>
    have hrest : ∀ e' ∈ evs, e'.harmless = true :=
      fun e' he' => hharmless e' (List.mem_cons_of_mem _ he')
    rw [run_cons, BusEvent.secondsCounted]
    cases hsecond : e.isSecond with
    | false =>
      obtain ⟨htime, hstopped⟩ :=
        @Chip.step_of_harmless env tick chip e (hharmless e List.mem_cons_self) hsecond
      rw [List.countP_cons_of_neg (by simp [hsecond])] at hend
      rw [← hstopped, Bool.and_false, Bool.toNat_false, Nat.zero_add]
      exact ih hrest hu hend (htime ▸ hchip)
    | true =>
      obtain rfl : e = .second := by cases e <;> simp_all [BusEvent.isSecond]
      obtain ⟨hstopped, htime⟩ := @Chip.step_second env tick chip
      rw [List.countP_cons_of_pos hsecond] at hend
      have hmid : InRange (u + 1) :=
        @InRange.le u _ 1 hu hend (by push_cast; omega)
      rw [show BusEvent.second.restarts = false from rfl, Bool.or_false, Bool.and_true]
      cases hchipStopped : chip.stopped with
      | true =>
        rw [hchipStopped, if_pos rfl] at htime
        have hcounted := ih hrest hu (hu.le hend (by push_cast; omega)) (htime ▸ hchip)
        rw [hstopped, hchipStopped] at hcounted
        simpa using hcounted
      | false =>
        rw [hchipStopped, if_neg Bool.false_ne_true] at htime
        have hcounted := @ih (chip.step env tick .second) (u + 1) hrest hmid
          (hmid.le hend (by push_cast; omega)) (htime ▸ htick.next hu hmid hchip)
        rw [hstopped, hchipStopped] at hcounted
        have hsum : u + ((!false).toNat + BusEvent.secondsCounted (!false) evs : ℕ) =
            u + 1 + (BusEvent.secondsCounted (!false) evs : ℕ) := by
          push_cast
          simp [add_assoc]
        rwa [hsum]

/-- **What is read after a write that returned `Ok`**: the second that was written, and those that
the clock has counted since, from the end of the write or, if that did not start it again, from the
first boot that does.  The seconds are those of the years in range, and every later write fails
before it sets a register. -/
theorem read_after_write (henv : env.Gregorian) (htick : Counts tick) {transfers : Transfers}
    {evs : List BusEvent} (hok : (writeUnixSeconds env chip u transfers).2 = true)
    (hharmless : ∀ e ∈ evs, e.harmless = true) (hu : InRange u)
    (hend : InRange (u + evs.countP BusEvent.isSecond)) :
    readUnixSeconds env (run (Chip.step env tick) (writeUnixSeconds env chip u transfers).1 evs)
        true =
      some (u + BusEvent.secondsCounted transfers.restart.reaches evs) := by
  have hwrite : writeUnixSeconds env chip u transfers =
      writeDatetime chip (.ofUnixSeconds u) transfers := by
    rw [writeUnixSeconds, (chrono_of_inRange henv hu).1]
  rw [hwrite] at hok ⊢
  obtain ⟨htime, hstopped⟩ := writeDatetime_of_ok hok
  obtain ⟨hfields, hlast⟩ := plausible_of_inRange hu
  have hholds := @Chip.holds_run env _ _ _ htick _ hharmless hu hend
    (htime ▸ holds_encodeDatetimeRegs hfields hlast)
  rw [hstopped, Bool.not_not] at hholds
  refine readUnixSeconds_of_holds henv (hu.le hend ?_) hholds
  have := BusEvent.secondsCounted_le transfers.restart.reaches evs
  omega

end

/-- The registers a second later, as a chip counts them. -/
def countSecond (regs : Vector UInt8 7) : Vector UInt8 7 :=
  match (decodeDatetimeRegs regs).bind (datetimeToUnixSeconds Chrono.utcCalendar) with
  | some u => encodeDatetimeRegs (.ofUnixSeconds (u + 1))
  | none => regs

theorem counts_countSecond : Counts countSecond where
  next {u regs} hu hu' hregs := by
    obtain ⟨hfields, hlast⟩ := plausible_of_inRange hu
    obtain ⟨hfields', hlast'⟩ := plausible_of_inRange hu'
    rw [countSecond, decodeDatetimeRegs_of_holds hfields hlast hregs, Option.bind_some,
      (chrono_of_inRange Chrono.utcCalendar_gregorian hu).2]
    exact holds_encodeDatetimeRegs hfields' hlast'

/-- The last transfer fails on a leap day, so that the clock stands until the next boot. -/
theorem read_after_write_leap :
    readUnixSeconds Chrono.utcCalendar
        (run (Chip.step Chrono.utcCalendar countSecond)
          (writeUnixSeconds Chrono.utcCalendar (fun _ => 0) 1709251199
            ⟨true, .done, .done, .failed 0⟩).1
          [.second, .write 0 ⟨false, .done, .done, .done⟩, .boot true .done (.failed 0) .done,
            .read true, .second]) true =
      some 1709251200 :=
  read_after_write Chrono.utcCalendar_gregorian counts_countSecond (by decide +kernel)
    (by decide) ⟨by decide, by decide⟩ ⟨by decide, by decide⟩

end GpsNtp.Rtc
