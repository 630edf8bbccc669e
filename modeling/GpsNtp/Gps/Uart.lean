import GpsNtp.Gps.Sentence
import GpsNtp.Machinery.Lines
import GpsNtp.Machinery.Run
import GpsNtp.Machinery.Trim

/-!
# Gps/Uart — the ingest loop

    read ─▶ … b, $GNRMC … ␍␊ $GNGGA … ␍␊ $GN
            └─ line_buf ──┘             └──┘ kept for the next read

`GpsUart::poll`: a read that is a string goes to the end of the line buffer, and every line complete
there is taken out, trimmed and parsed.  A read that is no string is dropped, and the line buffer
stays as it was.  The parsers and the consumer are seen through the calls made to them.
-/

namespace GpsNtp

open Utf8 Lines Machine

/-- The calls that `poll` makes. -/
inductive GpsCall
  | parseRmc (sentence : List UInt8)
  | parseGga (sentence : List UInt8)
  | onSnapshot (gps : GpsSnapshot)
  | onFix (gps : GpsSnapshot)

/-- The snapshot, and the calls made so far. -/
abbrev Ingest := GpsSnapshot × List GpsCall

/-- `GpsUart`: what it keeps between two reads. -/
structure GpsUart where
  snapshot : GpsSnapshot
  lineBuf : List Char
  bytesSeen : UInt64

/-- The line starts with the tag of an RMC sentence. -/
def IsRmc (line : List Char) : Prop := "$GNRMC".toList <+: line ∨ "$GPRMC".toList <+: line

/-- The line starts with the tag of a GGA sentence. -/
def IsGga (line : List Char) : Prop := "$GNGGA".toList <+: line ∨ "$GPGGA".toList <+: line

instance : DecidablePred IsRmc := fun _ => inferInstanceAs (Decidable (_ ∨ _))

instance : DecidablePred IsGga := fun _ => inferInstanceAs (Decidable (_ ∨ _))

namespace GpsUart

variable (env : Platform)

/-- An RMC line is parsed, and the consumer told of the snapshot and of the fix. -/
def rmcLine (trimmed : List Char) : Ingest → Option Ingest
  | (gps, calls) => do
    let (parsed, gps) ← env.parseRmc (encode trimmed) gps
    let calls := calls ++ [.parseRmc (encode trimmed)]
    if parsed.isSome then
      let calls := calls ++ [.onSnapshot gps]
      some (gps, if gps.fix then calls ++ [.onFix gps] else calls)
    else some (gps, calls)

/-- A GGA line is parsed, and the consumer told of the snapshot. -/
def ggaLine (trimmed : List Char) : Ingest → Option Ingest
  | (gps, calls) => do
    let (parsed, gps) ← env.parseGga (encode trimmed) gps
    let calls := calls ++ [.parseGga (encode trimmed)]
    some (gps, if parsed.isSome then calls ++ [.onSnapshot gps] else calls)

/-- The loop of `poll`, on a line taken out and trimmed. -/
def pollLine (trimmed : List Char) (s : Ingest) : Option Ingest :=
  if ¬"$".toList <+: trimmed then some s
  else if IsRmc trimmed then rmcLine env trimmed s
  else if IsGga trimmed then ggaLine env trimmed s
  else some s

/-- The loop of `poll`: the line buffer it leaves, the snapshot and the calls. -/
def pollLoop (lineBuf : List Char) (s : Ingest) : Option (List Char × Ingest) :=
  match h : lineBuf.findIdx? (· == '\n') with
  | none => some (lineBuf, s)
  | some newlineIdx => do
    let pendingLine := trim (trimEndMatches (· == '\r') (lineBuf.take newlineIdx))
    let s ← pollLine env pendingLine s
    pollLoop (lineBuf.drop (newlineIdx + 1)) s
  termination_by lineBuf.length
  decreasing_by
    have hlt := (List.findIdx?_eq_some_iff_getElem.mp h).1
    rw [List.length_drop]
    omega

/-- `poll`, by what the driver's read gives: an error, or the bytes read. -/
def poll (g : GpsUart) (calls : List GpsCall) (read : Option (List UInt8)) :
    Option (GpsUart × List GpsCall) :=
  match read with
  | none => some (g, calls)
  | some bytes =>
    if bytes.length = 0 then some (g, calls)
    else
      let g := { g with bytesSeen := g.bytesSeen + UInt64.ofNat bytes.length }
      match fromUtf8 bytes with
      -- the line buffer keeps what it has
      | none => some (g, calls)
      | some chunk => do
        let (lineBuf, snapshot, calls) ← pollLoop env (g.lineBuf ++ chunk) (g.snapshot, calls)
        some ({ g with lineBuf, snapshot }, calls)

/-- One read after another, from the driver and the calls that a state is made of. -/
def pollStep (s : Option (GpsUart × List GpsCall)) (read : Option (List UInt8)) :
    Option (GpsUart × List GpsCall) := s.bind fun s => poll env s.1 s.2 read

/-- A history of reads, from a snapshot on and an empty line buffer. -/
def pollAll (gps : GpsSnapshot) (reads : List (Option (List UInt8))) :
    Option (GpsUart × List GpsCall) := run (pollStep env) (some (⟨gps, [], 0⟩, [])) reads

end GpsUart

/-- `GpsDispatch::on_fix`: the second it passes to `update_gps_utc_seconds`, if any. -/
def GpsDispatch.onFix (gps : GpsSnapshot) : Option ℤ := gps.utcUnixSeconds

/-- The seconds passed to `update_gps_utc_seconds`, in order. -/
def GpsDispatch.utcUpdates (calls : List GpsCall) : List ℤ :=
  calls.filterMap fun
    | .onFix gps => onFix gps
    | _ => none

end GpsNtp
