import GpsNtp.Gps.Nmea

/-!
# Gps/Sentence — what a sentence does to the snapshot

    parse_rmc     None: snapshot as it was     Some: this sentence's fix and second
    parse_gga     None: snapshot as it was     Some: this sentence's satellites and altitude

Every index and slice of the parsers stands behind a check of the checksum, of the number of fields
or of the six characters it takes, so none of them panics; what remains is one outcome lemma for
each sentence (`parseRmc_outcome`, `parseGga_outcome`).
-/

namespace GpsNtp

open Utf8 Ascii

/-! ## Checks that hold where a slice is taken -/

/-- The last occurrence of a byte is one. -/
theorem getElem?_of_rfind {bs : List UInt8} {b : UInt8} {i : ℕ} (h : rfind bs b = some i) :
    bs[i]? = some b := by
  obtain ⟨k, hk, rfl⟩ := Option.map_eq_some_iff.mp h
  obtain ⟨hlen, hget, -⟩ := List.findIdx?_eq_some_iff_getElem.mp hk
  rw [List.getElem_reverse, beq_iff_eq] at hget
  rw [List.length_reverse] at hlen
  rw [List.getElem?_eq_getElem (by omega), ← hget]

/-- The star stands behind the dollar sign, so that the slice between them is in range. -/
theorem nmeaChecksumValid_total (sentence : List UInt8) :
    ∃ valid, nmeaChecksumValid sentence = some valid := by
  rw [nmeaChecksumValid]
  split_ifs with hascii hdollar
  · exact ⟨_, rfl⟩
  · exact ⟨_, rfl⟩
  · cases hstar : rfind sentence '*'.toUInt8 with
    | none => exact ⟨_, rfl⟩
    | some starIdx =>
      have hget := getElem?_of_rfind hstar
      obtain ⟨hlt, -⟩ := List.getElem?_eq_some_iff.mp hget
      have hpos : 1 ≤ starIdx := by
        -- the sentence starts with a dollar sign
        by_contra hzero
        obtain rfl : starIdx = 0 := by omega
        rw [← List.head?_eq_getElem?, not_not.mp hdollar] at hget
        exact absurd hget (by decide)
      dsimp only
      cases hhex : slice sentence (starIdx + 1) (starIdx + 3) with
      | none => exact ⟨_, rfl⟩
      | some hex =>
        dsimp only
        cases hval : fromStrRadix 16 255 hex with
        | none => exact ⟨_, rfl⟩
        | some expected =>
          simp only [sliceBytes, if_pos (And.intro hpos hlt.le)]
          exact ⟨_, rfl⟩

/-- Six characters below 0x80, or more. -/
def SixAscii (raw : List UInt8) : Prop := 6 ≤ raw.length ∧ isAscii raw = true

instance : DecidablePred SixAscii := fun _ => inferInstanceAs (Decidable (_ ∧ _))

theorem isAscii_take {raw : List UInt8} (h : isAscii raw = true) (n : ℕ) :
    isAscii (raw.take n) = true :=
  List.all_eq_true.mpr fun b hb => List.all_eq_true.mp h b (List.mem_of_mem_take hb)

theorem SixAscii.take {raw : List UInt8} (h : SixAscii raw) : SixAscii (raw.take 6) :=
  ⟨by rw [List.length_take]; exact le_min le_rfl h.1, isAscii_take h.2 6⟩

theorem SixAscii.slice {raw : List UInt8} (h : SixAscii raw) {i j : ℕ} (hij : i ≤ j) (hj : j ≤ 6) :
    Utf8.slice raw i j = some ((raw.take j).drop i) := slice_of_isAscii h.2 hij (hj.trans h.1)

theorem parseDdmmyy_eq (raw : List UInt8) :
    parseDdmmyy raw = some (if SixAscii raw then some (raw.take 6) else none) := by
  rw [parseDdmmyy]
  by_cases h : SixAscii raw
  · rw [if_neg, if_pos h, h.slice (Nat.zero_le 6) le_rfl]
    · rfl
    · rintro (hlen | hascii)
      · exact absurd h.1 (not_le.mpr hlen)
      · rw [h.2] at hascii
        exact Bool.false_ne_true hascii
  · rw [if_pos, if_neg h]
    by_contra hchecks
    rw [not_or, not_lt] at hchecks
    exact h ⟨hchecks.1, by simpa using hchecks.2⟩

theorem parseHhmmss_eq (raw : List UInt8) :
    parseHhmmss raw = some (if SixAscii raw then some (raw.take 6) else none) := parseDdmmyy_eq raw

theorem formatDdmmyy_total {raw : List UInt8} (h : SixAscii raw) :
    ∃ text, formatDdmmyy raw = some text := by
  rw [formatDdmmyy, h.slice (by decide) le_rfl, h.slice (by decide) (by decide),
    h.slice (by decide) (by decide)]
  exact ⟨_, rfl⟩

theorem formatHhmmss_total {raw : List UInt8} (h : SixAscii raw) :
    ∃ text, formatHhmmss raw = some text := by
  rw [formatHhmmss, h.slice (by decide) (by decide), h.slice (by decide) (by decide),
    h.slice (by decide) le_rfl]
  exact ⟨_, rfl⟩

namespace Platform

variable {env : Platform}

theorem digitsU32_total {field : List UInt8} (h : SixAscii field) {i : ℕ} (hi : i + 2 ≤ 6) :
    ∃ value, digitsU32 field i = some value := by
  rw [digitsU32, h.slice (Nat.le_add_right i 2) hi]
  exact ⟨_, rfl⟩

theorem decodeFields_total {ddmmyy hhmmss : List UInt8} (hd : SixAscii ddmmyy)
    (ht : SixAscii hhmmss) : ∃ utc, env.decodeFields ddmmyy hhmmss = some utc := by
  obtain ⟨day, hday⟩ := digitsU32_total hd (show 0 + 2 ≤ 6 by decide)
  obtain ⟨month, hmonth⟩ := digitsU32_total hd (show 2 + 2 ≤ 6 by decide)
  obtain ⟨hour, hhour⟩ := digitsU32_total ht (show 0 + 2 ≤ 6 by decide)
  obtain ⟨minute, hminute⟩ := digitsU32_total ht (show 2 + 2 ≤ 6 by decide)
  obtain ⟨second, hsecond⟩ := digitsU32_total ht (show 4 + 2 ≤ 6 by decide)
  rw [decodeFields, hday, hmonth, hd.slice (by decide) le_rfl, hhour, hminute, hsecond]
  simp only [Option.bind_eq_bind, Option.bind_some]
  -- any of the eight values read may be missing
  repeat' split
  all_goals exact ⟨_, rfl⟩

/-- Both fields have to be six characters long, and only these six count. -/
theorem utcDatetimeFromFields_eq (utcDate utcTime : List UInt8) :
    env.utcDatetimeFromFields utcDate utcTime =
      if SixAscii utcDate ∧ SixAscii utcTime then
        env.decodeFields (utcDate.take 6) (utcTime.take 6)
      else some none := by
  rw [utcDatetimeFromFields, parseDdmmyy_eq, parseHhmmss_eq]
  by_cases hd : SixAscii utcDate
  · by_cases ht : SixAscii utcTime
    · rw [if_pos hd, if_pos ht, if_pos ⟨hd, ht⟩]
      rfl
    · have hboth : ¬(SixAscii utcDate ∧ SixAscii utcTime) := fun h => ht h.2
      rw [if_pos hd, if_neg ht, if_neg hboth]
      rfl
  · have hboth : ¬(SixAscii utcDate ∧ SixAscii utcTime) := fun h => hd h.1
    rw [if_neg hd, if_neg hboth]
    rfl

theorem utcDatetimeFromFields_take {utcDate utcTime : List UInt8} (hd : SixAscii utcDate)
    (ht : SixAscii utcTime) :
    env.utcDatetimeFromFields (utcDate.take 6) (utcTime.take 6) =
      env.utcDatetimeFromFields utcDate utcTime := by
  rw [utcDatetimeFromFields_eq, utcDatetimeFromFields_eq, if_pos ⟨hd.take, ht.take⟩,
    if_pos ⟨hd, ht⟩, List.take_take, List.take_take, min_self]

theorem utcDatetimeFromFields_total {utcDate utcTime : List UInt8} :
    ∃ utc, env.utcDatetimeFromFields utcDate utcTime = some utc := by
  rw [utcDatetimeFromFields_eq]
  split_ifs with h
  · exact decodeFields_total h.1.take h.2.take
  · exact ⟨_, rfl⟩

theorem localOrFields_total {utcDate utcTime : List UInt8} (hd : SixAscii utcDate)
    (ht : SixAscii utcTime) (utcDt : Option env.NaiveDateTime) (lon : Float32) :
    ∃ shown, env.localOrFields utcDt lon (utcDate.take 6) (utcTime.take 6) = some shown := by
  obtain ⟨date, hdate⟩ := formatDdmmyy_total hd.take
  obtain ⟨time, htime⟩ := formatHhmmss_total ht.take
  rw [localOrFields]
  cases utcDt.bind fun dt => env.localDatetimeFromNaiveUtc dt lon with
  | some rendered => exact ⟨rendered, rfl⟩
  | none =>
    rw [hdate, htime]
    exact ⟨_, rfl⟩

end Platform

/-! ## RMC -/

/-- A field of a sentence. -/
def sentenceField (sentence : List UInt8) (i : ℕ) : List UInt8 :=
  (sentence.splitOn ','.toUInt8).getD i []

/-- What `parse_rmc` asks of a sentence. -/
structure RmcAccepted (sentence : List UInt8) : Prop where
  checksum : nmeaChecksumValid sentence = some true
  fields : 10 ≤ (sentence.splitOn ','.toUInt8).length
  time : SixAscii (sentenceField sentence 1)
  date : SixAscii (sentenceField sentence 9)

/-- **What `parse_rmc` does**: nothing, or all of it. -/
inductive RmcOutcome (env : Platform) (sentence : List UInt8) (gps : GpsSnapshot) :
    Option Unit × GpsSnapshot → Prop
  | rejected (h : ¬RmcAccepted sentence) : RmcOutcome env sentence gps (none, gps)
  | accepted {gps' : GpsSnapshot} (h : RmcAccepted sentence)
      (fix : gps'.fix = (sentenceField sentence 2 == ['A'.toUInt8]))
      (position : gps'.lat = gps.lat ∧ gps'.lon = gps.lon ∨
        env.nmeaToDecimal (sentenceField sentence 3) (sentenceField sentence 4) = some gps'.lat ∧
          env.nmeaToDecimal (sentenceField sentence 5) (sentenceField sentence 6) = some gps'.lon)
      (second : ∃ utc, env.utcDatetimeFromFields (sentenceField sentence 9)
          (sentenceField sentence 1) = some utc ∧ gps'.utcUnixSeconds = utc.map env.timestamp)
      (rest : gps'.sats = gps.sats ∧ gps'.altitudeM = gps.altitudeM) :
      RmcOutcome env sentence gps (some (), gps')

theorem getElem?_splitOn {sentence : List UInt8} {i : ℕ}
    (h : i < (sentence.splitOn ','.toUInt8).length) :
    (sentence.splitOn ','.toUInt8)[i]? = some (sentenceField sentence i) := by
  rw [sentenceField, List.getD_eq_getElem?_getD, List.getElem?_eq_getElem h, Option.getD_some]

/-- The coordinates are both kept or both read. -/
theorem GpsSnapshot.withPosition_cases (gps : GpsSnapshot) (lat? lon? : Option Float32) :
    ∃ lat lon, gps.withPosition lat? lon? = { gps with lat, lon } ∧
      (lat = gps.lat ∧ lon = gps.lon ∨ lat? = some lat ∧ lon? = some lon) := by
  rcases lat? with _ | lat <;> rcases lon? with _ | lon
  · exact ⟨_, _, rfl, .inl ⟨rfl, rfl⟩⟩
  · exact ⟨_, _, rfl, .inl ⟨rfl, rfl⟩⟩
  · exact ⟨_, _, rfl, .inl ⟨rfl, rfl⟩⟩
  · exact ⟨_, _, rfl, .inr ⟨rfl, rfl⟩⟩

namespace Platform

variable (env : Platform)

/-- **No RMC sentence panics**, and a rejected one leaves the snapshot alone. -/
theorem parseRmc_outcome (sentence : List UInt8) (gps : GpsSnapshot) :
    ∃ r, env.parseRmc sentence gps = some r ∧ RmcOutcome env sentence gps r := by
  obtain ⟨valid, hvalid⟩ := nmeaChecksumValid_total sentence
  rw [parseRmc, hvalid]
  dsimp only [Option.bind_eq_bind, Option.bind_some]
  cases valid with
  | false =>
    exact ⟨_, rfl, .rejected fun h => nomatch hvalid.symm.trans h.checksum⟩
  | true =>
    by_cases hlen : (sentence.splitOn ','.toUInt8).length < 10
    · rw [if_neg (by decide), if_pos hlen]
      exact ⟨_, rfl, .rejected fun h => absurd h.fields (not_le.mpr hlen)⟩
    · have hfield : ∀ i < 10,
          (sentence.splitOn ','.toUInt8)[i]? = some (sentenceField sentence i) :=
        fun i hi => getElem?_splitOn (hi.trans_le (not_lt.mp hlen))
      rw [if_neg (by decide), if_neg hlen]
      simp only [hfield, Nat.reduceLT, Option.bind_some, parseHhmmss_eq]
      by_cases ht : SixAscii (sentenceField sentence 1)
      · rw [if_pos ht]
        dsimp only
        simp only [parseDdmmyy_eq, Option.bind_some]
        by_cases hd : SixAscii (sentenceField sentence 9)
        · rw [if_pos hd]
          obtain ⟨utc, hutc⟩ := @utcDatetimeFromFields_total env (sentenceField sentence 9)
            (sentenceField sentence 1)
          obtain ⟨lat, lon, hplaced, hpos⟩ := GpsSnapshot.withPosition_cases
            { gps with fix := sentenceField sentence 2 == ['A'.toUInt8] }
            (env.nmeaToDecimal (sentenceField sentence 3) (sentenceField sentence 4))
            (env.nmeaToDecimal (sentenceField sentence 5) (sentenceField sentence 6))
          obtain ⟨shown, hshown⟩ := localOrFields_total hd ht utc lon
          dsimp only
          rw [utcDatetimeFromFields_take hd ht, hutc, hplaced, Option.bind_some, hshown]
          exact ⟨_, rfl, .accepted ⟨hvalid, not_lt.mp hlen, ht, hd⟩ rfl hpos ⟨utc, hutc, rfl⟩
            ⟨rfl, rfl⟩⟩
        · rw [if_neg hd]
          exact ⟨_, rfl, .rejected fun h => hd h.date⟩
      · rw [if_neg ht]
        exact ⟨_, rfl, .rejected fun h => ht h.time⟩

end Platform

/-! ## GGA -/

/-- What `parse_gga` asks of a sentence, and the number of satellites it reads there. -/
structure GgaAccepted (sentence : List UInt8) (sats : ℕ) : Prop where
  checksum : nmeaChecksumValid sentence = some true
  fields : 8 ≤ (sentence.splitOn ','.toUInt8).length
  sats : fromStrRadix 10 255 (sentenceField sentence 7) = some sats

/-- **What `parse_gga` does**: nothing, or the satellites and the altitude. -/
inductive GgaOutcome (env : Platform) (sentence : List UInt8) (gps : GpsSnapshot) :
    Option Unit × GpsSnapshot → Prop
  | rejected (h : ∀ sats, ¬GgaAccepted sentence sats) : GgaOutcome env sentence gps (none, gps)
  | accepted {sats : ℕ} {gps' : GpsSnapshot} (h : GgaAccepted sentence sats)
      (update : gps' =
        { gps with
          sats
          altitudeM :=
            if 10 ≤ (sentence.splitOn ','.toUInt8).length then
              env.parseF32 (sentenceField sentence 9)
            else gps.altitudeM }) :
      GgaOutcome env sentence gps (some (), gps')

namespace Platform

variable (env : Platform)

/-- **No GGA sentence panics**, and a rejected one leaves the snapshot alone. -/
theorem parseGga_outcome (sentence : List UInt8) (gps : GpsSnapshot) :
    ∃ r, env.parseGga sentence gps = some r ∧ GgaOutcome env sentence gps r := by
  obtain ⟨valid, hvalid⟩ := nmeaChecksumValid_total sentence
  rw [parseGga, hvalid]
  dsimp only [Option.bind_eq_bind, Option.bind_some]
  cases valid with
  | false => exact ⟨_, rfl, .rejected fun _ h => nomatch hvalid.symm.trans h.checksum⟩
  | true =>
    by_cases hlen : (sentence.splitOn ','.toUInt8).length < 8
    · rw [if_neg (by decide), if_pos hlen]
      exact ⟨_, rfl, .rejected fun _ h => absurd h.fields (not_le.mpr hlen)⟩
    · rw [if_neg (by decide), if_neg hlen, getElem?_splitOn (by omega), Option.bind_some]
      cases hsats : fromStrRadix 10 255 (sentenceField sentence 7) with
      | none => exact ⟨_, rfl, .rejected fun _ h => nomatch hsats.symm.trans h.sats⟩
      | some sats =>
        dsimp only
        by_cases haltitude : 10 ≤ (sentence.splitOn ','.toUInt8).length
        · rw [if_pos haltitude, getElem?_splitOn (by omega)]
          exact ⟨_, rfl, .accepted ⟨hvalid, not_lt.mp hlen, hsats⟩ (by rw [if_pos haltitude])⟩
        · rw [if_neg haltitude]
          exact ⟨_, rfl, .accepted ⟨hvalid, not_lt.mp hlen, hsats⟩ (by rw [if_neg haltitude])⟩

/-- **Parsing is atomic.**  Whatever the sentence and the snapshot before it, both parsers return,
and accept exactly the sentences that have all they ask for; a rejected sentence leaves every field
as it was; an accepted RMC sentence sets the fix and the second from its own fields and keeps the
coordinates or replaces both, and an accepted GGA sentence sets its satellites and touches nothing
else but the altitude. -/
theorem sentence_atomic (sentence : List UInt8) (gps : GpsSnapshot) :
    (∃ result gps', env.parseRmc sentence gps = some (result, gps') ∧
      (result = some () ↔ RmcAccepted sentence) ∧
      (result = none → gps' = gps) ∧
      (result = some () →
        gps'.fix = (sentenceField sentence 2 == ['A'.toUInt8]) ∧
        (gps'.lat = gps.lat ∧ gps'.lon = gps.lon ∨
          env.nmeaToDecimal (sentenceField sentence 3) (sentenceField sentence 4) = some gps'.lat ∧
            env.nmeaToDecimal (sentenceField sentence 5) (sentenceField sentence 6) =
              some gps'.lon) ∧
        (∃ utc, env.utcDatetimeFromFields (sentenceField sentence 9)
            (sentenceField sentence 1) = some utc ∧
          gps'.utcUnixSeconds = utc.map env.timestamp) ∧
        gps'.sats = gps.sats ∧ gps'.altitudeM = gps.altitudeM)) ∧
    (∃ result gps', env.parseGga sentence gps = some (result, gps') ∧
      (result = some () ↔ ∃ sats, GgaAccepted sentence sats) ∧
      (result = none → gps' = gps) ∧
      (result = some () → ∃ sats altitudeM,
        GgaAccepted sentence sats ∧ gps' = { gps with sats, altitudeM })) := by
  constructor
  · obtain ⟨r, hr, houtcome⟩ := env.parseRmc_outcome sentence gps
    cases houtcome with
    | rejected hnot =>
      exact ⟨none, gps, hr, ⟨fun h => absurd h.symm (Option.some_ne_none ()),
        fun h => absurd h hnot⟩, fun _ => rfl, fun h => absurd h.symm (Option.some_ne_none ())⟩
    | accepted haccepted fix position second rest =>
      exact ⟨some (), _, hr, ⟨fun _ => haccepted, fun _ => rfl⟩,
        fun h => absurd h (Option.some_ne_none ()), fun _ => ⟨fix, position, second, rest⟩⟩
  · obtain ⟨r, hr, houtcome⟩ := env.parseGga_outcome sentence gps
    cases houtcome with
    | rejected hnot =>
      exact ⟨none, gps, hr, ⟨fun h => absurd h.symm (Option.some_ne_none ()),
        fun ⟨sats, h⟩ => absurd h (hnot sats)⟩, fun _ => rfl,
        fun h => absurd h.symm (Option.some_ne_none ())⟩
    | accepted haccepted update =>
      exact ⟨some (), _, hr, ⟨fun _ => ⟨_, haccepted⟩, fun _ => rfl⟩,
        fun h => absurd h (Option.some_ne_none ()), fun _ => ⟨_, _, haccepted, update⟩⟩

end Platform

end GpsNtp
