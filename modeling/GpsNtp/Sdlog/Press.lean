import GpsNtp.Sdlog.Listing

/-!
# Sdlog/Press — a press of a delete button

    card ─page▸ row ─sends▸ name ─FormEncoded▸ name=⋯ ─Sends▸ chunks ─handleDelete▸ card'
                 │                                                                    │
                 └───────────── rows of card' are those of card without this ─────────┘

The listing and the handler of its forms, put together by a browser.  It may encode the name in any
of the ways that a form allows and send the body in any chunks, and the card may have changed since
the page was made.  A press removes the file that its row is about and no other, or says why not.
-/

namespace GpsNtp.Sdlog

open Utf8 Ascii Split Sorted

/-! ## What a browser sends -/

/-- A value as a form may encode it: a space as a plus, a byte as its number, or itself where it is
an ASCII character that means nothing else. -/
inductive FormEncoded : List UInt8 → List UInt8 → Prop
  | nil : FormEncoded [] []
  | plus {raw text : List UInt8} (h : FormEncoded raw text) :
      FormEncoded ('+'.toUInt8 :: raw) (' '.toUInt8 :: text)
  | number {hi lo b : UInt8} {x y : ℕ} {raw text : List UInt8} (hhi : toDigit 16 hi = some x)
      (hlo : toDigit 16 lo = some y) (hb : x * 16 + y = b.toNat) (h : FormEncoded raw text) :
      FormEncoded ('%'.toUInt8 :: hi :: lo :: raw) (b :: text)
  | plain {b : UInt8} {raw text : List UInt8} (hascii : b < 0x80)
      (hsign : b ≠ '+'.toUInt8 ∧ b ≠ '%'.toUInt8 ∧ b ≠ '&'.toUInt8) (h : FormEncoded raw text) :
      FormEncoded (b :: raw) (b :: text)

/-- The body of the form, whose only field is the name. -/
def nameField (raw : List UInt8) : List UInt8 := "name=".toUTF8.data.toList ++ raw

/-- A body as it arrives: in chunks, none of them empty. -/
inductive Sends : List Read → List UInt8 → Prop
  | done : Sends [] []
  | chunk {chunk body : List UInt8} {reads : List Read} (fits : chunk.length ≤ 128)
      (hne : chunk ≠ []) (h : Sends reads body) : Sends (.data chunk fits :: reads) (chunk ++ body)

/-- An encoded value is ASCII and ends no field. -/
theorem FormEncoded.plainBytes {raw text : List UInt8} (h : FormEncoded raw text) :
    ∀ b ∈ raw, b < 0x80 ∧ b ≠ '&'.toUInt8 := by
  have hnone : toDigit 16 '&'.toUInt8 = none := by decide
  have hdigit : ∀ {b : UInt8} {x : ℕ}, toDigit 16 b = some x → b < 0x80 ∧ b ≠ '&'.toUInt8 :=
    fun hb => ⟨lt_of_isSome_toDigit (Option.isSome_iff_exists.mpr ⟨_, hb⟩), fun hamp => by
      rw [hamp, hnone] at hb
      cases hb⟩
  induction h with
  | nil => exact fun _ hb => absurd hb List.not_mem_nil
  | plus _ ih => exact List.forall_mem_cons.mpr ⟨by decide, ih⟩
  | number hhi hlo _ _ ih =>
    exact List.forall_mem_cons.mpr ⟨by decide, List.forall_mem_cons.mpr
      ⟨hdigit hhi, List.forall_mem_cons.mpr ⟨hdigit hlo, ih⟩⟩⟩
  | plain hascii hsign _ ih =>
    exact List.forall_mem_cons.mpr ⟨⟨hascii, hsign.2.2⟩, ih⟩

theorem isAscii_nameField {raw text : List UInt8} (h : FormEncoded raw text) :
    isAscii (nameField raw) = true := by
  rw [isAscii, nameField, List.all_append, Bool.and_eq_true, List.all_eq_true (l := raw)]
  exact ⟨by decide +kernel, fun b hb => decide_eq_true (h.plainBytes b hb).1⟩

/-! ## What the handler reads -/

theorem of_drop_eq_cons {α : Type*} {xs rest : List α} {x : α} {i : ℕ}
    (h : xs.drop i = x :: rest) :
    ∃ hlen : i < xs.length, xs[i] = x ∧ xs.drop (i + 1) = rest := by
  have hlen : i < xs.length := by
    by_contra hle
    rw [List.drop_eq_nil_of_le (not_lt.mp hle)] at h
    cases h
  rw [List.drop_eq_getElem_cons hlen] at h
  exact ⟨hlen, (List.cons.inj h).1, (List.cons.inj h).2⟩

/-- A round that does not panic is followed by the next. -/
theorem formLoop_round {raw : List UInt8} {s s' : FormLoop} (hlen : s.i < raw.length)
    (hround : formRound raw s raw[s.i] = some s') : formLoop raw s = formLoop raw s' := by
  rw [formLoop, dif_pos hlen]
  split
  · rename_i s'' h
    rw [Option.some.inj (h.symm.trans hround)]
  · rename_i h
    exact absurd (hround.symm.trans h) (Option.some_ne_none s')

/-- **The loop decodes what is left** of an encoded value. -/
theorem formLoop_encoded {raw : List UInt8} (hascii : isAscii raw = true) {rest text : List UInt8}
    (h : FormEncoded rest text) :
    ∀ s : FormLoop, raw.drop s.i = rest → formLoop raw s = some (s.out ++ text) := by
  induction h with
  | nil =>
    intro s hs
    rw [formLoop, dif_neg (not_lt.mpr (List.drop_eq_nil_iff.mp hs)), List.append_nil]
  | plus _ ih =>
    intro s hs
    obtain ⟨hlen, hb, hrest⟩ := of_drop_eq_cons hs
    have hround : formRound raw s raw[s.i] = some ⟨s.i + 1, s.out ++ [' '.toUInt8]⟩ := by
      rw [formRound, if_pos hb]
    rw [formLoop_round hlen hround, ih _ hrest, List.append_assoc, List.singleton_append]
  | @number hi lo b x y raw' text hhi hlo hnum _ ih =>
    intro s hs
    obtain ⟨hlen, hb, htail⟩ := of_drop_eq_cons hs
    obtain ⟨-, -, htail'⟩ := of_drop_eq_cons htail
    obtain ⟨hroom, -, hrest⟩ := of_drop_eq_cons htail'
    have hslice : slice raw (s.i + 1) (s.i + 3) = some [hi, lo] := by
      rw [slice_of_isAscii hascii (by omega) hroom, List.drop_take, htail,
        show s.i + 3 - (s.i + 1) = 2 by omega]
      rfl
    have hvalue : fromStrRadix 16 255 [hi, lo] = some b.toNat :=
      (fromStrRadix_pair_eq_some_iff (by decide) (by decide)).mpr (.inl ⟨x, y, hhi, hlo, hnum⟩)
    have hround : formRound raw s raw[s.i] = some ⟨s.i + 2 + 1, s.out ++ [b]⟩ := by
      rw [formRound, if_neg (by rw [hb]; decide), if_pos ⟨hb, hroom⟩, hslice, Option.map_some,
        hvalue]
      exact congrArg (fun v => some (FormLoop.mk (s.i + 2 + 1) (s.out ++ [v]))) UInt8.ofNat_toNat
    rw [formLoop_round hlen hround, ih _ hrest, List.append_assoc, List.singleton_append]
  | plain _ hsign _ ih =>
    intro s hs
    obtain ⟨hlen, hb, hrest⟩ := of_drop_eq_cons hs
    have hround : formRound raw s raw[s.i] = some ⟨s.i + 1, s.out ++ [raw[s.i]]⟩ := by
      rw [formRound, if_neg (by rw [hb]; exact hsign.1),
        if_neg fun hpercent => hsign.2.1 (hb ▸ hpercent.1)]
    rw [formLoop_round hlen hround, ih _ hrest, List.append_assoc, hb, List.singleton_append]

/-- **The handler reads the name that was encoded.** -/
theorem requestedName_encoded {raw : List UInt8} {name : List Char}
    (h : FormEncoded raw (encode name)) :
    requestedName (fromUtf8Lossy (nameField raw)) = some (some (encode name)) := by
  have hascii : isAscii raw = true :=
    List.all_eq_true.mpr fun b hb => decide_eq_true (h.plainBytes b hb).1
  have hamp : '&'.toUInt8 ∉ nameField raw := by
    rw [nameField, List.mem_append, not_or]
    exact ⟨by decide +kernel, fun hmem => (h.plainBytes _ hmem).2 rfl⟩
  have hsplit : (nameField raw).splitOn '&'.toUInt8 = [nameField raw] :=
    List.splitOn_eq_singleton hamp
  have hfield : splitOnce '='.toUInt8 (nameField raw) =
      some ("name".toUTF8.data.toList, raw) :=
    splitOnce_eq_some_iff.mpr ⟨congrArg (· ++ raw) (by decide +kernel : "name=".toUTF8.data.toList =
      "name".toUTF8.data.toList ++ ['='.toUInt8]) |>.trans (List.append_assoc _ _ _),
      by decide +kernel⟩
  have hfind : [("name".toUTF8.data.toList, raw)].find? (·.1 = "name".toUTF8.data.toList) =
      some ("name".toUTF8.data.toList, raw) :=
    List.find?_cons_of_pos (decide_eq_true rfl)
  have hdecode : formDecode raw = some (encode name) := by
    rw [formDecode, formLoop_encoded hascii h ⟨0, []⟩ rfl, Option.map_some, List.nil_append,
      fromUtf8Lossy, lossyChars_encode]
  rw [fromUtf8Lossy_of_isAscii (isAscii_nameField h), requestedName, hsplit,
    List.filterMap_cons_some hfield, List.filterMap_nil, hfind, Option.map_some, hdecode]

/-- **The body is read whole, or is too long**, whatever the chunks are. -/
theorem readBody_sends {reads : List Read} {rest : List UInt8} (h : Sends reads rest) :
    ∀ body : List UInt8, body.length ≤ DELETE_BODY_MAX →
      readBody body reads =
        if (body ++ rest).length > DELETE_BODY_MAX then .tooLarge else .whole (body ++ rest) := by
  induction h with
  | done =>
    intro body hbody
    rw [readBody, List.append_nil, if_neg (not_lt.mpr hbody)]
  | chunk fits hne _ ih =>
    intro body hbody
    rw [readBody, if_neg hne, ← List.append_assoc]
    split_ifs with hlong htotal htotal
    · rfl
    · rw [List.length_append] at htotal
      omega
    · rw [ih _ (not_lt.mp hlong), if_pos htotal]
    · rw [ih _ (not_lt.mp hlong), if_neg htotal]

/-! ## The answer to a press -/

/-- A name that a FAT volume can hold. -/
structure IsFatName (name : List UInt8) : Prop where
  nonempty : name ≠ []
  separators : ∀ b ∈ name, isSeparator b = false
  nul : 0 ∉ name

/-- What a press is meant to come to, for the name and its encoding. -/
def pressOutcome (card : FatVolume) (name raw : List UInt8) : Outcome × FatVolume :=
  if (nameField raw).length > DELETE_BODY_MAX then
    (.responded (respondText 413 "body too large\n"), card)
  else if ['.'.toUInt8, '.'.toUInt8] <:+: name then
    (.responded (respondText 400 "refused\n"), card)
  else
    match card.find [name] with
    | none => (.responded (respondText 404 "no such file\n"), card)
    | some (_, .dir) => (.responded (respondText 400 "not a file\n"), card)
    | some (_, .file) =>
      (.responded { status := 303, header := ("Location", "/files"), text := "" },
        card.remove [name])

/-- What the guard makes of such a name: only two dots are against it. -/
theorem refused_fatName {name : List UInt8} (h : IsFatName name) (hmarker : name ≠ markerName) :
    refused name = true ↔ ['.'.toUInt8, '.'.toUInt8] <:+: name := by
  have hslash : '/'.toUInt8 ∉ name := fun hmem =>
    absurd (h.separators _ hmem) (by decide)
  have hback : '\\'.toUInt8 ∉ name := fun hmem =>
    absurd (h.separators _ hmem) (by decide)
  rw [refused, decide_eq_true_eq]
  constructor
  · rintro (hempty | hmem | hmem | hdots | heq)
    · exact absurd hempty h.nonempty
    · exact absurd hmem hslash
    · exact absurd hmem hback
    · exact hdots
    · exact absurd heq hmarker
  · exact fun hdots => .inr (.inr (.inr (.inl hdots)))

/-- The job on a path of one name, where the card does not fail. -/
theorem deleteJob_name (card : FatVolume) {name : List UInt8} (h : IsFatName name) :
    deleteJob card ⟨none, none⟩ (MOUNT_POINT ++ '/'.toUInt8 :: name) =
      match card.find [name] with
      | none => (.error .notFound, card)
      | some (_, .dir) => (.ok false, card)
      | some (_, .file) => (.ok true, card.remove [name]) := by
  have hpath := cardPath_name h.nonempty h.separators
  have hnul : 0 ∉ MOUNT_POINT ++ '/'.toUInt8 :: name := by
    rw [List.mem_append, List.mem_cons, not_or, not_or]
    exact ⟨by decide +kernel, by decide, h.nul⟩
  have hstat : card.metadata none (MOUNT_POINT ++ '/'.toUInt8 :: name) =
      match card.find [name] with
      | some entry => .ok entry.2
      | none => .error .notFound := by
    rw [FatVolume.metadata.eq_def, if_neg hnul, FatVolume.entryAt, hpath, Option.bind_some]
    cases card.find [name] <;> rfl
  rw [deleteJob, hstat]
  rcases hfind : card.find [name] with - | ⟨path, kind⟩
  · rfl
  · cases kind with
    | dir => rfl
    | file =>
      dsimp only
      rw [FatVolume.removeFile.eq_def, if_neg hnul, hpath]
      dsimp only
      rw [hfind]
      rfl

/-- **The handler does what a press is meant to do**, on any card and for any encoding. -/
theorem handleDelete_press (card : FatVolume) {name : List Char} (h : IsFatName (encode name))
    (hmarker : encode name ≠ markerName) {raw : List UInt8} {reads : List Read}
    (hraw : FormEncoded raw (encode name)) (hreads : Sends reads (nameField raw)) :
    handleDelete card ⟨none, none⟩ reads = pressOutcome card (encode name) raw := by
  have hbody := readBody_sends hreads [] (Nat.zero_le _)
  rw [List.nil_append] at hbody
  rw [handleDelete, pressOutcome, hbody]
  split_ifs with hlong hdots
  · rfl
  · dsimp only
    rw [requestedName_encoded hraw]
    exact if_pos ((refused_fatName h hmarker).mpr hdots)
  · dsimp only
    rw [requestedName_encoded hraw]
    dsimp only
    rw [if_neg fun hrefused => hdots ((refused_fatName h hmarker).mp hrefused),
      deleteJob_name card h]
    rcases card.find [encode name] with - | ⟨path, kind⟩
    · rfl
    · cases kind <;> rfl

/-! ## The listing of a card -/

/-- What `read_dir` finds in the root, each file with its size. -/
def FatVolume.readDir (card : FatVolume) (size : List UInt8 → ℕ) : List (Option DirEntry) :=
  card.entries.filterMap fun (path, kind) =>
    match path with
    | [name] => some (some { fileName := name, metadata := some (kind, size name) })
    | _ => none

/-- The listing of the root. -/
def FatVolume.listing (card : FatVolume) (size : List UInt8 → ℕ) : List Entry :=
  listEntries (some (card.readDir size))

/-- The entry of the listing for an entry of the card, if it is in the root. -/
def shownEntry (size : List UInt8 → ℕ) : List (List UInt8) × Kind → Option Entry
  | ([name], .file) => some ⟨lossyChars name, some (size name)⟩
  | ([name], .dir) => some ⟨lossyChars name, none⟩
  | _ => none

theorem listing_eq (card : FatVolume) (size : List UInt8 → ℕ) :
    card.listing size = (card.entries.filterMap (shownEntry size)).mergeSort entryLe := by
  rw [FatVolume.listing, listEntries, FatVolume.readDir, Option.getD_some]
  refine congrArg (List.mergeSort · entryLe) ?_
  induction card.entries with
  | nil => rfl
  | cons e entries ih =>
    obtain ⟨_ | ⟨name, _ | ⟨name', path⟩⟩, kind⟩ := e
    · exact ih
    · cases kind with
      | file => exact congrArg (_ :: ·) ih
      | dir => exact congrArg (_ :: ·) ih
    · exact ih

theorem totalLe_entry : TotalLe entryLe := by
  have hchar : TotalLe fun a b : Char => natLe a.toNat b.toNat :=
    totalLe_nat.comap fun a b h => Char.ext (UInt32.toNat_inj.mp h)
  refine (hchar.list.pair totalLe_nat.option).comap fun a b h => ?_
  obtain ⟨hname, hsize⟩ := Prod.mk.inj h
  cases a
  cases b
  exact congr (congrArg Entry.mk hname) hsize

/-- **A removal takes one entry out of the listing.** -/
theorem listing_remove {card : FatVolume} {size : List UInt8 → ℕ} {name : List UInt8}
    {e : List (List UInt8) × Kind} (hfind : card.find [name] = some e) {entry : Entry}
    (hentry : shownEntry size e = some entry) :
    FatVolume.listing (card.remove [name]) size = (card.listing size).erase entry := by
  have hperm := (Volume.perm_remove hfind).filterMap (shownEntry size)
  rw [List.filterMap_cons_some hentry] at hperm
  have herase := hperm.erase entry
  rw [List.erase_cons_head] at herase
  rw [listing_eq, listing_eq, ← mergeSort_erase totalLe_entry]
  exact mergeSort_congr totalLe_entry herase.symm

/-- The name and the size of an entry are the first cells of its row. -/
theorem row_cells (entry : Entry) : ∃ last,
    entry.row.cells = [entry.name, entry.size.elim "dir".toList decimal, last] := by
  obtain ⟨name, size⟩ := entry
  cases size with
  | none => exact ⟨[], rfl⟩
  | some bytes =>
    by_cases hmarker : encode name = markerName
    · have hrow : Entry.row ⟨name, some bytes⟩ =
          ⟨[name, decimal bytes, "protected".toList], none, none⟩ := if_pos hmarker
      exact ⟨_, congrArg Row.cells hrow⟩
    · have hrow : Entry.row ⟨name, some bytes⟩ = ⟨[name, decimal bytes, []], some name,
          if name.all plainChar then some ("Delete ".toList ++ (name ++ "?".toList)) else none⟩ :=
        if_neg hmarker
      exact ⟨_, congrArg Row.cells hrow⟩

theorem decimal_injective : Function.Injective decimal := fun m n h => by
  have hback := congrArg (Nat.ofDigitChars 10 · 0) h
  simpa only [decimal, Nat.ofDigitChars_ten_toDigits] using hback

theorem decimal_ne_dir (n : ℕ) : decimal n ≠ "dir".toList := fun h =>
  notMem_decimal (c := 'd') rfl n (h ▸ by decide)

/-- **No two entries have one row.** -/
theorem row_injective : Function.Injective Entry.row := by
  intro a b h
  obtain ⟨lastA, ha⟩ := row_cells a
  obtain ⟨lastB, hb⟩ := row_cells b
  rw [h, hb] at ha
  obtain ⟨hname, hrest⟩ := List.cons.inj ha
  have hsize := (List.cons.inj hrest).1
  obtain ⟨name, size⟩ := a
  obtain ⟨name', size'⟩ := b
  obtain rfl : name' = name := hname
  cases size with
  | none =>
    cases size' with
    | none => rfl
    | some n => exact absurd hsize (decimal_ne_dir n)
  | some m =>
    cases size' with
    | none => exact absurd hsize.symm (decimal_ne_dir m)
    | some n => rw [decimal_injective hsize]

/-! ## A press -/

/-- The page that shows a card. -/
def FatVolume.page (card : FatVolume) (size : List UInt8 → ℕ) : List Char :=
  listingPage (card.listing size)

theorem rowsOf_page (card : FatVolume) (size : List UInt8 → ℕ) :
    rowsOf (card.page size) = (card.listing size).map Entry.row :=
  congrArg Prod.snd (reads_page (card.listing size)).2

/-- A card with the file `a b`. -/
def spaceCard : FatVolume where
  entries := [([encode "a b".toList], .file)]
  distinct := List.pairwise_singleton _ _

end GpsNtp.Sdlog
