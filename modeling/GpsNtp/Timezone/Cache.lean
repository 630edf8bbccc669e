import GpsNtp.Machinery.Run
import GpsNtp.Machinery.Trim

/-!
# Timezone/Cache — the zone in force, and what a reboot makes of the caches

    lookup ─▸ set_runtime_timezone ─▸ persist ─▸ NVS   ─┐
                                              ─▸ microSD ─┴─▸ load at boot ─▸ set_runtime_timezone

A zone is in force by its name, which `chrono_tz` reads.  The boot takes NVS before the microSD
file, and a name from NVS that is no zone ends the search.  As long as no boot fails to read either
cache and the one that is read first takes every zone saved to it, a reboot with the same NVS and
card finds the zone that was in force (`reboot_restores`).
-/

namespace GpsNtp.Timezone

open Machine Utf8

variable {Tz : Type*}

/-! ## The two caches -/

/-- Both caches are read through a buffer of this size. -/
def cacheBufferLength : ℕ := 64

/-- What survives a reboot: the key `local_tz` in NVS, and the backup file on microSD. -/
structure Caches where
  nvs : Option (List Char)
  sdFile : Option (List UInt8)
deriving DecidableEq

/-- `TimezoneStore::load_cached`: a name that does not fit the buffer with its terminator is an
error. -/
def Caches.loadCached (caches : Caches) (fault : Bool) : Except Unit (Option (List Char)) :=
  if fault then .error ()
  else
    match caches.nvs with
    | none => .ok none
    | some name =>
      if (encode name).length < cacheBufferLength then .ok (some name) else .error ()

/-- `TimezoneStore::save`. -/
def Caches.save (caches : Caches) (tzName : List Char) (fault : Bool) : Caches :=
  if fault then caches else { caches with nvs := some tzName }

/-- Where writing the backup file fails: before the file is opened, or after so many bytes. -/
inductive SdFault
  | unopened
  | written (n : ℕ)
deriving DecidableEq

/-- `save_cached_sd`. -/
def Caches.saveCachedSd (caches : Caches) (ready : Bool) (tzName : List Char)
    (fault : Option SdFault) : Caches :=
  if ready then
    match fault with
    | none => { caches with sdFile := some (encode tzName) }
    | some .unopened => caches
    | some (.written n) => { caches with sdFile := some ((encode tzName).take n) }
  else caches

variable (fromStr : List Char → Option Tz)

/-- `load_cached_sd`. -/
def Caches.loadCachedSd (caches : Caches) (ready fault : Bool) : Option (List Char) :=
  if !ready || fault then none
  else do
    let content ← caches.sdFile
    let name := trim (← fromUtf8 (content.take cacheBufferLength))
    if name = [] ∨ (fromStr name).isNone then none else some name

/-- What can go wrong while a name is stored. -/
structure WriteFaults where
  nvs : Bool
  sd : Option SdFault
deriving DecidableEq

/-- `persist_cached`. -/
def Caches.persistCached (caches : Caches) (tzName : List Char) (store ready : Bool)
    (faults : WriteFaults) : Caches :=
  let caches := if store then caches.save tzName faults.nvs else caches
  caches.saveCachedSd ready tzName faults.sd

/-! ## The zone in force -/

/-- `RUNTIME_TZ`, `tz_initialized` and `current_tz_name`. -/
structure Zone (Tz : Type*) where
  runtime : Option Tz
  initialized : Bool
  currentName : Option (List Char)
deriving DecidableEq

/-- No zone yet. -/
def Zone.none : Zone Tz := ⟨.none, false, .none⟩

/-- `set_runtime_timezone`: whether the name is a zone's, which is then in force. -/
def Zone.setRuntimeTimezone (zone : Zone Tz) (tzName : List Char) : Zone Tz × Bool :=
  match fromStr tzName with
  | some tz => ({ zone with runtime := some tz }, true)
  | .none => (zone, false)

/-- What can go wrong while the caches are read. -/
structure ReadFaults where
  nvs : Bool
  sd : Bool
deriving DecidableEq

/-- The name that `load_timezone_boot` finds. -/
def Caches.bootName (caches : Caches) (store ready : Bool) (faults : ReadFaults) :
    Option (List Char) :=
  match (if store then caches.loadCached faults.nvs else .ok .none) with
  | .ok (some name) => some name
  | _ => caches.loadCachedSd fromStr ready faults.sd

/-- `load_timezone_boot`. -/
def Caches.boot (caches : Caches) (store ready : Bool) (faults : ReadFaults) : Zone Tz :=
  match caches.bootName fromStr store ready faults with
  | some name =>
    -- `apply_cached_timezone`
    match Zone.none.setRuntimeTimezone fromStr name with
    | (zone, true) => { zone with initialized := true, currentName := some name }
    | (zone, false) => zone
  | .none => .none

/-- `apply_timezone_lookup_result`, where an error or an empty result changes nothing. -/
def applyTimezoneLookupResult (zone : Zone Tz) (caches : Caches) (store ready : Bool)
    (result : Except Unit (Option (List Char))) (faults : WriteFaults) : Zone Tz × Caches :=
  match result with
  | .ok (some tzName) =>
    match zone.setRuntimeTimezone fromStr tzName with
    | (set, true) =>
      ({ set with initialized := true, currentName := some tzName },
        if zone.currentName ≠ some tzName then caches.persistCached tzName store ready faults
        else caches)
    | (unset, false) => (unset, caches)
  | _ => (zone, caches)

/-! ## Runs with reboots in them -/

/-- The zone in force, the caches, and which of them this boot has. -/
structure ZoneSystem (Tz : Type*) where
  zone : Zone Tz
  caches : Caches
  store : Bool
  ready : Bool
deriving DecidableEq

/-- A lookup's result comes in, or the power goes and comes back. -/
inductive ZoneEvent
  | resolved (result : Except Unit (Option (List Char))) (faults : WriteFaults)
  | reboot (store ready : Bool) (faults : ReadFaults)

namespace ZoneSystem

/-- The system after a boot. -/
def booted (caches : Caches) (store ready : Bool) (faults : ReadFaults) : ZoneSystem Tz where
  zone := caches.boot fromStr store ready faults
  caches
  store
  ready

def step (s : ZoneSystem Tz) : ZoneEvent → ZoneSystem Tz
  | .resolved result faults =>
    let (zone, caches) :=
      applyTimezoneLookupResult fromStr s.zone s.caches s.store s.ready result faults
    { s with zone, caches }
  | .reboot store ready faults => booted fromStr s.caches store ready faults

/-- **A lookup result is saved where the next boot reads first**: in NVS if that has opened, else on
a mounted card; **a reboot reads both caches** without a fault. -/
def Spared (s : ZoneSystem Tz) : ZoneEvent → Prop
  | .resolved _ faults =>
    if s.store then faults.nvs = false else s.ready = true ∧ faults.sd = none
  | .reboot _ _ faults => faults = ⟨false, false⟩

instance : ∀ (s : ZoneSystem Tz) (e : ZoneEvent), Decidable (s.Spared e)
  | s, .resolved _ faults =>
    inferInstanceAs
      (Decidable (if s.store then faults.nvs = false else s.ready = true ∧ faults.sd = none))
  | _, .reboot _ _ faults => inferInstanceAs (Decidable (faults = _))

end ZoneSystem

/-! ## What a boot finds -/

/-- The names that `chrono_tz` knows: they fit the buffer, and neither begin nor end with white
space. -/
structure ZoneNames : Prop where
  fits : ∀ {name tz}, fromStr name = some tz → (encode name).length < cacheBufferLength
  trimmed : ∀ {name tz}, fromStr name = some tz → trim name = name
  nonempty : fromStr [] = none

/-- A zone by its name. -/
def Zone.of (tz : Tz) (name : List Char) : Zone Tz := ⟨some tz, true, some name⟩

/-- **No zone, or the one that its name reads as.** -/
def Zone.Consistent (zone : Zone Tz) : Prop :=
  zone = .none ∨ ∃ name tz, fromStr name = some tz ∧ zone = .of tz name

variable {fromStr} {caches : Caches} {store ready : Bool} {name : List Char} {tz : Tz}

theorem boot_of_bootName {faults : ReadFaults} (htz : fromStr name = some tz)
    (hname : caches.bootName fromStr store ready faults = some name) :
    caches.boot fromStr store ready faults = .of tz name := by
  rw [Caches.boot, hname]
  simp only [Zone.setRuntimeTimezone, htz]
  rfl

theorem boot_consistent (caches : Caches) (store ready : Bool) (faults : ReadFaults) :
    Zone.Consistent fromStr (caches.boot fromStr store ready faults) := by
  rw [Caches.boot]
  cases caches.bootName fromStr store ready faults with
  | none => exact .inl rfl
  | some name =>
    simp only [Zone.setRuntimeTimezone]
    cases htz : fromStr name with
    | none => exact .inl rfl
    | some tz => exact .inr ⟨name, tz, htz, rfl⟩

/-- A name saved in NVS is what the boot finds. -/
theorem bootName_save (hnames : ZoneNames fromStr) (htz : fromStr name = some tz)
    (faults : WriteFaults) (hnvs : faults.nvs = false) :
    (caches.persistCached name true ready faults).bootName fromStr true ready ⟨false, false⟩ =
      some name := by
  have hstored : (caches.persistCached name true ready faults).nvs = some name := by
    simp only [Caches.persistCached, Caches.save, hnvs, Caches.saveCachedSd]
    cases ready with
    | true => rcases faults.sd with _ | _ | n <;> rfl
    | false => rfl
  rw [Caches.bootName]
  simp only [Caches.loadCached, hstored, hnames.fits htz]
  rfl

/-- Without NVS, a name written to the card is. -/
theorem bootName_saveCachedSd (hnames : ZoneNames fromStr) (htz : fromStr name = some tz)
    (faults : WriteFaults) (hsd : faults.sd = none) :
    (caches.persistCached name false true faults).bootName fromStr false true ⟨false, false⟩ =
      some name := by
  have hread : fromUtf8 ((encode name).take cacheBufferLength) = some name := by
    rw [List.take_of_length_le (hnames.fits htz).le, fromUtf8_eq_some_iff]
  have hname : name ≠ [] := by
    rintro rfl
    rw [hnames.nonempty] at htz
    cases htz
  rw [Caches.bootName]
  simp [Caches.persistCached, Caches.saveCachedSd, hsd, Caches.loadCachedSd, hread,
    hnames.trimmed htz, hname, htz]

/-! ## A reboot restores the zone -/

namespace ZoneSystem

variable {s : ZoneSystem Tz}

variable (fromStr) in
/-- **What a reboot would find is in force.** -/
structure Restored (s : ZoneSystem Tz) : Prop where
  zone : s.zone = s.caches.boot fromStr s.store s.ready ⟨false, false⟩
  consistent : s.zone.Consistent fromStr

/-- A name that is no zone, or no name, changes nothing. -/
theorem step_resolved_cases (result : Except Unit (Option (List Char))) (faults : WriteFaults) :
    s.step fromStr (.resolved result faults) = s ∨
      ∃ name tz, fromStr name = some tz ∧
        s.step fromStr (.resolved result faults) =
          { s with
            zone := .of tz name
            caches :=
              if s.zone.currentName ≠ some name then
                s.caches.persistCached name s.store s.ready faults
              else s.caches } := by
  cases result with
  | error err => exact .inl rfl
  | ok found =>
    cases found with
    | none => exact .inl rfl
    | some name =>
      simp only [step, applyTimezoneLookupResult, Zone.setRuntimeTimezone]
      cases htz : fromStr name with
      | none => exact .inl rfl
      | some tz => exact .inr ⟨name, tz, htz, rfl⟩

theorem Restored.resolved (hnames : ZoneNames fromStr) (h : Restored fromStr s)
    {result : Except Unit (Option (List Char))} {faults : WriteFaults}
    (hspared : s.Spared (.resolved result faults)) :
    Restored fromStr (s.step fromStr (.resolved result faults)) := by
  rcases s.step_resolved_cases result faults with hstep | ⟨name, tz, htz, hstep⟩
  · rwa [hstep]
  · rw [hstep]
    refine ⟨?_, .inr ⟨name, tz, htz, rfl⟩⟩
    dsimp only
    by_cases hchanged : s.zone.currentName = some name
    · rw [if_neg (not_not.mpr hchanged), ← h.zone]
      rcases h.consistent with hnone | ⟨name', tz', htz', hzone⟩
      · rw [hnone] at hchanged
        cases hchanged
      · rw [hzone] at hchanged ⊢
        obtain rfl : name' = name := Option.some.inj hchanged
        rw [Option.some.inj (htz.symm.trans htz')]
    · rw [if_pos hchanged]
      cases hstore : s.store with
      | true =>
        have hnvs : faults.nvs = false := by simpa [Spared, hstore] using hspared
        exact (boot_of_bootName htz (bootName_save hnames htz faults hnvs)).symm
      | false =>
        obtain ⟨hready, hsd⟩ : s.ready = true ∧ faults.sd = none := by
          simpa [Spared, hstore] using hspared
        rw [hready]
        exact (boot_of_bootName htz (bootName_saveCachedSd hnames htz faults hsd)).symm

theorem restored_booted (caches : Caches) (store ready : Bool) :
    Restored fromStr (booted fromStr caches store ready ⟨false, false⟩) :=
  ⟨rfl, boot_consistent caches store ready _⟩

theorem restored_run (hnames : ZoneNames fromStr) (h : Restored fromStr s) {evs : List ZoneEvent}
    (hspared : Throughout (step fromStr) Spared s evs) :
    Restored fromStr (run (step fromStr) s evs) := by
  have hkept : ∀ s e, Spared s e → Restored fromStr s → Restored fromStr (s.step fromStr e) := by
    intro s e he hs
    cases e with
    | resolved result faults => exact hs.resolved hnames he
    | reboot store ready faults =>
      obtain rfl : faults = ⟨false, false⟩ := he
      exact restored_booted s.caches store ready
  exact run_throughout hkept h hspared

/-- **A reboot at any time restores the zone in force**, after any run of lookups and reboots in
which every result is saved to the cache that is read first and no reboot fails to read either of
them.  The reboot itself finds the same NVS and card, and reads both. -/
theorem reboot_restores (hnames : ZoneNames fromStr) {caches : Caches} {store ready : Bool}
    {evs : List ZoneEvent}
    (hspared : Throughout (step fromStr) Spared
      (booted fromStr caches store ready ⟨false, false⟩) evs) :
    let s := run (step fromStr) (booted fromStr caches store ready ⟨false, false⟩) evs
    s.step fromStr (.reboot s.store s.ready ⟨false, false⟩) = s := by
  have hrestored := restored_run hnames (restored_booted caches store ready) hspared
  intro s
  change ZoneSystem.mk (s.caches.boot fromStr s.store s.ready ⟨false, false⟩) s.caches s.store
    s.ready = s
  rw [← hrestored.zone]

/-- Two zones. -/
def twoZones (name : List Char) : Option ℕ :=
  if name = "Asia/Tokyo".toList then some 9
  else if name = "Etc/UTC".toList then some 0
  else none

theorem twoZones_names : ZoneNames twoZones where
  fits {name tz} h := by
    rw [twoZones] at h
    split_ifs at h with htokyo hutc
    · rw [htokyo]
      decide +kernel
    · rw [hutc]
      decide +kernel
  trimmed {name tz} h := by
    rw [twoZones] at h
    split_ifs at h with htokyo hutc
    · rw [htokyo]
      decide +kernel
    · rw [hutc]
      decide +kernel
  nonempty := by decide +kernel

/-- From one zone to the other, with the card failing in the middle of the name. -/
theorem reboot_restores_moved :
    let s := run (step twoZones) (booted twoZones ⟨none, none⟩ true true ⟨false, false⟩)
      [.resolved (.ok (some "Etc/UTC".toList)) ⟨false, none⟩, .reboot true true ⟨false, false⟩,
        .resolved (.ok (some "Asia/Tokyo".toList)) ⟨false, some (.written 4)⟩,
        .resolved (.ok (some "Mars/Olympus".toList)) ⟨false, none⟩]
    s.step twoZones (.reboot s.store s.ready ⟨false, false⟩) = s :=
  reboot_restores twoZones_names (by decide +kernel)

end ZoneSystem

end GpsNtp.Timezone
