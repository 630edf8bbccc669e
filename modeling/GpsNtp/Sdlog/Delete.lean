import GpsNtp.Machinery.Split
import GpsNtp.Machinery.Volume
import GpsNtp.Sdlog.Form
import Mathlib.Data.List.Infix

/-!
# Sdlog/Delete — removing a file over HTTP

    body ─split '&'▸ name=⋯ ─formDecode▸ name ─guard▸ /sdcard/name ─metadata▸ a file? ─▸ remove
                                           │                │
                                   bytes compared     letter case ignored

The handler of `POST /files/delete` against the card, a FAT volume.  The guard compares the name
with that of the ready marker byte by byte, the card finds an entry under every spelling of its
name.
-/

namespace GpsNtp.Sdlog

open Utf8 Ascii Split

/-! ## The card by path -/

/-- VFS mount point of the microSD card. -/
def MOUNT_POINT : List UInt8 := "/sdcard".toUTF8.data.toList

/-- Marker file written at mount to confirm read/write access. -/
def READY_MARKER : List UInt8 := "/sdcard/.rust_gps_ntp_ready".toUTF8.data.toList

/-- What a directory entry is. -/
inductive Kind
  | file | dir
deriving DecidableEq

/-- The letter case of a path is ignored, name by name. -/
def foldPath (path : List (List UInt8)) : List (List UInt8) :=
  path.map fun name => name.map toAsciiLowercase

/-- The card: its directory entries, by the names that lead to them from the root. -/
abbrev FatVolume : Type := Volume foldPath Kind

/-- FATFS takes both slashes for separators. -/
def isSeparator (b : UInt8) : Bool := b == '/'.toUInt8 || b == '\\'.toUInt8

/-- The names that a path goes through below the mount point. -/
def cardPath (path : List UInt8) : Option (List (List UInt8)) :=
  (path.dropPrefix? MOUNT_POINT).map fun rest => (rest.splitOnP isSeparator).filter (· ≠ [])

/-- The entry that a path names. -/
def FatVolume.entryAt (card : FatVolume) (path : List UInt8) : Option (List (List UInt8) × Kind) :=
  (cardPath path).bind card.find

/-- What the handler tells apart among the kinds of `io::Error`. -/
inductive ErrorKind
  | notFound | invalidInput | other
deriving DecidableEq

/-- `fs::metadata`, as far as it is read.  A path with a NUL is none to the C library. -/
def FatVolume.metadata (card : FatVolume) (fault : Option ErrorKind) (path : List UInt8) :
    Except ErrorKind Kind :=
  if 0 ∈ path then .error .invalidInput
  else
    match fault, card.entryAt path with
    | some kind, _ => .error kind
    | none, some entry => .ok entry.2
    | none, none => .error .notFound

/-- `fs::remove_file`.  FATFS takes a directory away as well, and one that fails may have got as
far as to drop the entry. -/
def FatVolume.removeFile (card : FatVolume) (fault : Option (ErrorKind × Bool))
    (path : List UInt8) : Except ErrorKind Unit × FatVolume :=
  if 0 ∈ path then (.error .invalidInput, card)
  else
    match cardPath path with
    | none => (.error .notFound, card)
    | some names =>
      match fault, card.find names with
      | some (kind, dropped), _ => (.error kind, if dropped then card.remove names else card)
      | none, some _ => (.ok (), card.remove names)
      | none, none => (.error .notFound, card)

/-! ## The handler -/

/-- Upper bound on a form body. -/
def DELETE_BODY_MAX : ℕ := 512

/-- One read of the request: at most 128 bytes, or a fault of the connection. -/
inductive Read
  | data (chunk : List UInt8) (fits : chunk.length ≤ 128)
  | fault

/-- How the reading of the body ends. -/
inductive Body
  | failed | tooLarge
  | whole (body : List UInt8)
deriving DecidableEq

/-- The body read up to the end of the request, where a read returns nothing. -/
def readBody (body : List UInt8) : List Read → Body
  | [] => .whole body
  | .fault :: _ => .failed
  | .data chunk _ :: reads =>
    if chunk = [] then .whole body
    else if (body ++ chunk).length > DELETE_BODY_MAX then .tooLarge
    else readBody (body ++ chunk) reads

/-- The value of the first field `name`, decoded; the decoding is `none` where it panics. -/
def requestedName (body : List UInt8) : Option (Option (List UInt8)) :=
  (((body.splitOn '&'.toUInt8).filterMap (splitOnce '='.toUInt8)).find?
    (·.1 = "name".toUTF8.data.toList)).map fun kv => formDecode kv.2

/-- The last segment of the marker's path. -/
def markerName : List UInt8 := (READY_MARKER.splitOn '/'.toUInt8).getLastD []

/-- The names that the handler refuses. -/
def refused (name : List UInt8) : Bool :=
  name = [] ∨ '/'.toUInt8 ∈ name ∨ '\\'.toUInt8 ∈ name ∨
    ['.'.toUInt8, '.'.toUInt8] <:+: name ∨ name = markerName

/-- What is sent back. -/
structure Response where
  status : ℕ
  header : String × String
  text : String
deriving DecidableEq

/-- `respond_text`. -/
def respondText (status : ℕ) (text : String) : Response :=
  { status, header := ("Content-Type", "text/plain"), text }

/-- How the handler ends. -/
inductive Outcome
  | failed | panicked
  | responded (response : Response)
deriving DecidableEq

/-- The card's part in one request: the faults of the two operations. -/
structure Faults where
  metadata : Option ErrorKind
  removeFile : Option (ErrorKind × Bool)

/-- The job `sd delete`. -/
def deleteJob (card : FatVolume) (faults : Faults) (path : List UInt8) :
    Except ErrorKind Bool × FatVolume :=
  match card.metadata faults.metadata path with
  | .ok .file =>
    let (result, card) := card.removeFile faults.removeFile path
    (result.map fun _ => true, card)
  | .ok .dir => (.ok false, card)
  | .error err => (.error err, card)

/-- What the result of the job is answered with. -/
def deleteResponse : Except ErrorKind Bool → Response
  | .ok true => { status := 303, header := ("Location", "/files"), text := "" }
  | .ok false => respondText 400 "not a file\n"
  | .error .notFound => respondText 404 "no such file\n"
  | .error _ => respondText 500 "delete failed\n"

/-- `handle_delete`. -/
def handleDelete (card : FatVolume) (faults : Faults) (reads : List Read) : Outcome × FatVolume :=
  match readBody [] reads with
  | .failed => (.failed, card)
  | .tooLarge => (.responded (respondText 413 "body too large\n"), card)
  | .whole body =>
    match requestedName (fromUtf8Lossy body) with
    | none => (.responded (respondText 400 "missing name\n"), card)
    | some none => (.panicked, card)
    | some (some name) =>
      if refused name then (.responded (respondText 400 "refused\n"), card)
      else
        let (result, card) := deleteJob card faults (MOUNT_POINT ++ '/'.toUInt8 :: name)
        (.responded (deleteResponse result), card)

/-- Only files directly in the root are gone, and never the ready marker's entry. -/
def Spared (card card' : FatVolume) : Prop :=
  ∀ entry ∈ card.entries, entry ∉ card'.entries →
    entry.2 = .file ∧ entry.1.length = 1 ∧ card.entryAt READY_MARKER ≠ some entry

/-- The request asks for a file under the marker's name in another letter case. -/
def AsksForMarker (reads : List Read) : Prop :=
  ∃ body name, readBody [] reads = .whole body ∧
    requestedName (fromUtf8Lossy body) = some (some name) ∧
    name ≠ markerName ∧ name.map toAsciiLowercase = markerName.map toAsciiLowercase

/-! ## Names and paths -/

theorem markerName_eq :
    markerName = [46, 114, 117, 115, 116, 95, 103, 112, 115, 95, 110, 116, 112, 95, 114, 101, 97,
      100, 121] := by
  decide +kernel

theorem cardPath_marker : cardPath READY_MARKER = some [markerName] := by
  decide +kernel

/-- A name without separators is a path of one name. -/
theorem cardPath_name {name : List UInt8} (hne : name ≠ [])
    (hsep : ∀ b ∈ name, isSeparator b = false) :
    cardPath (MOUNT_POINT ++ '/'.toUInt8 :: name) = some [name] := by
  have hrest : (MOUNT_POINT ++ '/'.toUInt8 :: name).dropPrefix? MOUNT_POINT =
      some ('/'.toUInt8 :: name) :=
    List.dropPrefix?_append_of_beq _ (beq_self_eq_true _)
  have hsplit : ('/'.toUInt8 :: name).splitOnP isSeparator = [[], name] := by
    have hfirst : ([] ++ '/'.toUInt8 :: name).splitOnP isSeparator =
        [].splitOnP isSeparator ++ name.splitOnP isSeparator :=
      List.splitOnP_append_cons [] name rfl
    rw [List.splitOnP_nil, List.splitOnP_eq_singleton hsep] at hfirst
    exact hfirst
  rw [cardPath, hrest, Option.map_some, hsplit, List.filter_cons_of_neg (by decide),
    List.filter_cons_of_pos (by simpa using hne), List.filter_nil]

/-- What a name that is not refused looks like. -/
theorem of_not_refused {name : List UInt8} (h : refused name = false) :
    name ≠ [] ∧ (∀ b ∈ name, isSeparator b = false) ∧ name ≠ markerName := by
  simp only [refused, decide_eq_false_iff_not, not_or] at h
  obtain ⟨hne, hslash, hback, -, hmarker⟩ := h
  refine ⟨hne, fun b hb => ?_, hmarker⟩
  rw [isSeparator, Bool.or_eq_false_iff, beq_eq_false_iff_ne, beq_eq_false_iff_ne]
  exact ⟨fun heq => hslash (heq ▸ hb), fun heq => hback (heq ▸ hb)⟩

/-- A byte that is no letter stands in a text where it stands in another spelling of it. -/
theorem mem_of_respelt {name name' : List UInt8} {b : UInt8} (hb : toAsciiLowercase b = b)
    (h : name.map toAsciiLowercase = name'.map toAsciiLowercase) (hmem : b ∈ name) :
    b ∈ name'.map toAsciiLowercase :=
  h ▸ hb ▸ List.mem_map_of_mem hmem

/-- **Every other spelling of the marker's name passes the guard.** -/
theorem not_refused_of_respelt {name : List UInt8} (hne : name ≠ markerName)
    (h : name.map toAsciiLowercase = markerName.map toAsciiLowercase) :
    refused name = false ∧ 0 ∉ name := by
  have habsent : ∀ b, toAsciiLowercase b = b → b ∉ markerName.map toAsciiLowercase → b ∉ name :=
    fun b hb hmarker hmem => hmarker (mem_of_respelt hb h hmem)
  have hempty : name ≠ [] := by
    rintro rfl
    exact absurd h (by rw [markerName_eq]; decide)
  have hdots : ¬['.'.toUInt8, '.'.toUInt8] <:+: name := by
    intro hdots
    have hmapped := hdots.map toAsciiLowercase
    rw [h, markerName_eq] at hmapped
    exact absurd hmapped (by decide)
  have hslash := habsent '/'.toUInt8 (by decide) (by rw [markerName_eq]; decide)
  have hback := habsent '\\'.toUInt8 (by decide) (by rw [markerName_eq]; decide)
  refine ⟨?_, habsent 0 (by decide) (by rw [markerName_eq]; decide)⟩
  simp only [refused, decide_eq_false_iff_not, not_or]
  exact ⟨hempty, hslash, hback, hdots, hne⟩

/-! ## What the handler does to the card -/

theorem metadata_eq_ok {card : FatVolume} {fault : Option ErrorKind} {path : List UInt8}
    {kind : Kind} (h : card.metadata fault path = .ok kind) :
    ∃ names entry, cardPath path = some names ∧ card.find names = some entry ∧
      entry.2 = kind := by
  rw [FatVolume.metadata.eq_def] at h
  split_ifs at h
  split at h
  · exact absurd h nofun
  · rename_i entry hentry
    obtain ⟨names, hnames, hfind⟩ := Option.bind_eq_some_iff.mp hentry
    exact ⟨names, entry, hnames, hfind, Except.ok.inj h⟩
  · exact absurd h nofun

theorem removeFile_cases (card : FatVolume) (fault : Option (ErrorKind × Bool))
    {path : List UInt8} {names : List (List UInt8)} (hnames : cardPath path = some names) :
    (card.removeFile fault path).2 = card ∨
      (card.removeFile fault path).2 = card.remove names := by
  rw [FatVolume.removeFile.eq_def, hnames]
  split_ifs
  · exact .inl rfl
  · dsimp only
    split
    · rename_i dropped
      cases dropped with
      | false => exact .inl rfl
      | true => exact .inr rfl
    · exact .inr rfl
    · exact .inl rfl

/-- **The job leaves the card, or removes the file that the path names.** -/
theorem deleteJob_cases (card : FatVolume) (faults : Faults) (path : List UInt8) :
    (deleteJob card faults path).2 = card ∨
      ∃ names entry, cardPath path = some names ∧ card.find names = some entry ∧
        entry.2 = .file ∧ (deleteJob card faults path).2 = card.remove names := by
  rw [deleteJob]
  cases hstat : card.metadata faults.metadata path with
  | error err => exact .inl rfl
  | ok kind =>
    cases kind with
    | dir => exact .inl rfl
    | file =>
      obtain ⟨names, entry, hnames, hfind, hfile⟩ := metadata_eq_ok hstat
      exact (removeFile_cases card faults.removeFile hnames).imp_right fun hremoved =>
        ⟨names, entry, hnames, hfind, hfile, hremoved⟩

/-- **The handler leaves the card, or removes one file under the name that it was sent.** -/
theorem handleDelete_cases (card : FatVolume) (faults : Faults) (reads : List Read) :
    (handleDelete card faults reads).2 = card ∨
      ∃ body name entry, readBody [] reads = .whole body ∧
        requestedName (fromUtf8Lossy body) = some (some name) ∧ refused name = false ∧
        card.find [name] = some entry ∧ entry.2 = .file ∧
        (handleDelete card faults reads).2 = card.remove [name] := by
  rw [handleDelete]
  cases hbody : readBody [] reads with
  | failed => exact .inl rfl
  | tooLarge => exact .inl rfl
  | whole body =>
    dsimp only
    rcases hname : requestedName (fromUtf8Lossy body) with - | - | name
    · exact .inl rfl
    · exact .inl rfl
    · dsimp only
      split_ifs with hrefused
      · exact .inl rfl
      · have hrefused : refused name = false := Bool.eq_false_iff.mpr hrefused
        obtain ⟨hne, hsep, -⟩ := of_not_refused hrefused
        have hjob := deleteJob_cases card faults (MOUNT_POINT ++ '/'.toUInt8 :: name)
        rw [cardPath_name hne hsep] at hjob
        refine hjob.imp_right fun ⟨names, entry, hnames, hfind, hfile, hremoved⟩ => ?_
        obtain rfl := Option.some.inj hnames
        exact ⟨body, name, entry, rfl, hname, hrefused, hfind, hfile, hremoved⟩

/-- **Asked for the marker in another spelling, the handler removes it.** -/
theorem handleDelete_marker {card : FatVolume} {reads : List Read} (hasks : AsksForMarker reads)
    {entry : List (List UInt8) × Kind} (hentry : card.entryAt READY_MARKER = some entry)
    (hfile : entry.2 = .file) :
    (handleDelete card ⟨none, none⟩ reads).2 = card.remove [markerName] := by
  obtain ⟨body, name, hbody, hname, hne, hfold⟩ := hasks
  obtain ⟨hrefused, hnul⟩ := not_refused_of_respelt hne hfold
  obtain ⟨hempty, hsep, -⟩ := of_not_refused hrefused
  have hspelling : foldPath [name] = foldPath [markerName] := by
    rw [foldPath, foldPath, List.map_singleton, List.map_singleton, hfold]
  have hpath := cardPath_name hempty hsep
  have hpathNul : 0 ∉ MOUNT_POINT ++ '/'.toUInt8 :: name := by
    rw [List.mem_append, List.mem_cons, not_or, not_or]
    exact ⟨by decide +kernel, by decide, hnul⟩
  have hfind : card.find [name] = some entry := by
    rw [FatVolume.entryAt, cardPath_marker, Option.bind_some] at hentry
    rw [Volume.find_congr card hspelling, hentry]
  have hstat : card.metadata none (MOUNT_POINT ++ '/'.toUInt8 :: name) = .ok .file := by
    rw [FatVolume.metadata.eq_def, if_neg hpathNul, FatVolume.entryAt, hpath, Option.bind_some,
      hfind, ← hfile]
  have hremove : card.removeFile none (MOUNT_POINT ++ '/'.toUInt8 :: name) =
      (.ok (), card.remove [name]) := by
    rw [FatVolume.removeFile.eq_def, if_neg hpathNul, hpath]
    dsimp only
    rw [hfind]
  have hremoved : card.remove [name] = card.remove [markerName] := by
    rw [Volume.remove_congr card hspelling]
  rw [handleDelete, hbody]
  dsimp only
  rw [hname]
  dsimp only
  rw [if_neg (by rw [hrefused]; exact Bool.false_ne_true), deleteJob, hstat, ← hremoved]
  dsimp only
  rw [hremove]

/-! ## When the marker is safe -/

/-- **A request takes nothing but files in the root, and not the marker**, unless it asks for the
marker in another letter case on a card that has it. -/
theorem handleDelete_spared_iff (card : FatVolume) (reads : List Read) :
    (∀ faults, Spared card (handleDelete card faults reads).2) ↔
      ¬(AsksForMarker reads ∧ ∃ entry, card.entryAt READY_MARKER = some entry ∧
        entry.2 = .file) := by
  constructor
  · rintro hspared ⟨hasks, entry, hentry, hfile⟩
    have hfind : card.find [markerName] = some entry := by
      rwa [FatVolume.entryAt, cardPath_marker, Option.bind_some] at hentry
    obtain ⟨hmem, hgone⟩ := Volume.removed_iff.mpr hfind
    rw [← handleDelete_marker hasks hentry hfile] at hgone
    exact (hspared ⟨none, none⟩ entry hmem hgone).2.2 hentry
  · intro hsafe faults entry hmem hgone
    rcases handleDelete_cases card faults reads with
      hkept | ⟨body, name, entry', hbody, hname, hrefused, hfind, hfile, hremoved⟩
    · rw [hkept] at hgone
      exact absurd hmem hgone
    · rw [hremoved] at hgone
      obtain rfl : entry' = entry :=
        Option.some.inj (hfind.symm.trans (Volume.removed_iff.mp ⟨hmem, hgone⟩))
      have hfold := (Volume.find_eq_some_iff.mp hfind).2
      have hlength : entry'.1.length = 1 := by
        have hlen := congrArg List.length hfold
        rwa [foldPath, foldPath, List.length_map, List.length_map, List.length_singleton] at hlen
      refine ⟨hfile, hlength, fun hmarker => hsafe ⟨?_, entry', hmarker, hfile⟩⟩
      rw [FatVolume.entryAt, cardPath_marker, Option.bind_some] at hmarker
      have hspelling := hfold.symm.trans (Volume.find_eq_some_iff.mp hmarker).2
      have hrespelt : name.map toAsciiLowercase = markerName.map toAsciiLowercase :=
        (List.cons.inj hspelling).1
      exact ⟨body, name, hbody, hname, (of_not_refused hrefused).2.2, hrespelt⟩

/-- A card that holds the marker only. -/
def markerCard : FatVolume where
  entries := [([markerName], .file)]
  distinct := List.pairwise_singleton _ _

/-- `name=.RUST_GPS_NTP_READY`. -/
def markerInCapitals : List UInt8 := "name=.RUST_GPS_NTP_READY".toUTF8.data.toList

theorem asksForMarker_capitals :
    AsksForMarker [.data markerInCapitals (by decide +kernel)] := by
  have hascii : isAscii markerInCapitals = true := by decide +kernel
  have hfield : ((markerInCapitals.splitOn '&'.toUInt8).filterMap (splitOnce '='.toUInt8)).find?
      (·.1 = "name".toUTF8.data.toList) =
      some ("name".toUTF8.data.toList, markerInCapitals.drop 5) := by
    decide +kernel
  have hplain : ∀ b ∈ markerInCapitals.drop 5, b ≠ '+'.toUInt8 ∧ b ≠ '%'.toUInt8 := by
    decide +kernel
  refine ⟨markerInCapitals, markerInCapitals.drop 5, by decide +kernel, ?_, by decide +kernel,
    by decide +kernel⟩
  rw [fromUtf8Lossy_of_isAscii hascii, requestedName, hfield, Option.map_some,
    formDecode_copies hplain, fromUtf8Lossy_of_isAscii (by decide +kernel)]

/-- **In capitals the marker goes**: the name is not the marker's, its entry is. -/
theorem marker_removed_in_capitals :
    (handleDelete markerCard ⟨none, none⟩ [.data markerInCapitals (by decide +kernel)]).2.entries
        = [] ∧
      ¬∀ card faults reads, Spared card (handleDelete card faults reads).2 := by
  have hentry : markerCard.entryAt READY_MARKER = some ([markerName], .file) := by decide +kernel
  have hcard := handleDelete_marker asksForMarker_capitals hentry rfl
  have hgone : (markerCard.remove [markerName]).entries = [] := by decide +kernel
  refine ⟨by rw [hcard, hgone], fun hspared => ?_⟩
  have hfar := hspared markerCard ⟨none, none⟩ [.data markerInCapitals (by decide +kernel)]
  rw [hcard] at hfar
  exact (hfar ([markerName], .file) List.mem_cons_self (by rw [hgone]; exact List.not_mem_nil)).2.2
    hentry

end GpsNtp.Sdlog
