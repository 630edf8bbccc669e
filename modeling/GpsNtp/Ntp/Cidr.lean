import GpsNtp.Machinery.Ascii
import GpsNtp.Machinery.Split
import GpsNtp.Machinery.Trim
import GpsNtp.Ntp.Allowlist

/-!
# Ntp/Cidr — the configured block and its text

    ␣ a . b . c . d / prefix ␣        trimmed, cut at the first `/`, then at every `.`

One parser serves the build, which refuses a configured text that is neither empty nor a block, and
the firmware, which admits the block or, where there is none, the private ranges.  Each of the five
numbers is read by the integer parser of the standard library, which lets a `+` stand before the
digits; that is the one way in which more is accepted than is written above
(`config_exact_iff_unsigned`).
-/

namespace GpsNtp

open Ascii Split Utf8

/-! ## The parser -/

/-- `str::parse` of a `u8`. -/
def parseU8 (field : List UInt8) : Option UInt8 := (fromStrRadix 10 255 field).map UInt8.ofNat

/-- `parse_ipv4_cidr`. -/
def parseIpv4Cidr (s : List Char) : Option CidrBlock := do
  let s := encode (trim s)
  if s.isEmpty then none
  else
    let (addr, bits) ← splitOnce '/'.toUInt8 s
    let bits ← parseU8 bits
    if hbits : 32 < bits then none
    else
      let octets := addr.splitOn '.'.toUInt8
      let a ← octets[0]? >>= parseU8
      let b ← octets[1]? >>= parseU8
      let c ← octets[2]? >>= parseU8
      let d ← octets[3]? >>= parseU8
      if octets[4]?.isSome then none
      else some ⟨a, b, c, d, bits, UInt8.not_lt.mp hbits⟩

/-- `Acl::from_config`. -/
def Acl.fromConfig (cidr : List Char) : Acl :=
  match parseIpv4Cidr cidr with
  | some block => (denyAll.addBlock block).1
  | none => privateLan

/-- The check of the configured text in the build script. -/
def buildAccepts (aclCidr : List Char) : Bool :=
  !(!aclCidr.isEmpty && (parseIpv4Cidr aclCidr).isNone)

/-! ## Texts of a block -/

/-- The five bytes that a block consists of. -/
def CidrBlock.bytes (block : CidrBlock) : List UInt8 :=
  [block.a, block.b, block.c, block.d, block.prefixBits]

/-- Five fields of a text. -/
structure CidrText where
  a : List UInt8
  b : List UInt8
  c : List UInt8
  d : List UInt8
  prefixBits : List UInt8

namespace CidrText

def fields (t : CidrText) : List (List UInt8) := [t.a, t.b, t.c, t.d, t.prefixBits]

/-- The address in front of the slash. -/
def address (t : CidrText) : List UInt8 := ['.'.toUInt8].intercalate [t.a, t.b, t.c, t.d]

/-- **The text**: four fields with dots between them, a slash and the prefix. -/
def render (t : CidrText) : List UInt8 := t.address ++ '/'.toUInt8 :: t.prefixBits

/-- No field holds a separator. -/
def Clean (t : CidrText) : Prop := ∀ field ∈ t.fields, '.'.toUInt8 ∉ field ∧ '/'.toUInt8 ∉ field

variable {t : CidrText}

theorem splitOn_address (h : t.Clean) :
    t.address.splitOn '.'.toUInt8 = [t.a, t.b, t.c, t.d] := by
  refine List.splitOn_intercalate _ (fun field hfield => (h field ?_).1) (List.cons_ne_nil _ _)
  exact List.mem_append_left [t.prefixBits] hfield

theorem splitOnce_render (h : t.Clean) :
    splitOnce '/'.toUInt8 t.render = some (t.address, t.prefixBits) := by
  refine splitOnce_eq_some_iff.mpr ⟨rfl, fun hmem => ?_⟩
  have hfields : ∀ field ∈ [t.a, t.b, t.c, t.d], '/'.toUInt8 ∉ field := fun field hfield =>
    (h field (List.mem_append_left [t.prefixBits] hfield)).2
  simp only [List.forall_mem_cons] at hfields
  obtain ⟨ha, hb, hc, hd, -⟩ := hfields
  have hdot : '/'.toUInt8 ≠ '.'.toUInt8 := by decide
  simp [address, List.intercalate, List.intersperse, ha, hb, hc, hd, hdot] at hmem

/-- A clean text is read in one way. -/
theorem render_injective {t' : CidrText} (h : t.Clean) (h' : t'.Clean)
    (heq : t.render = t'.render) : t = t' := by
  have hcut := (splitOnce_render h).symm.trans ((congrArg _ heq).trans (splitOnce_render h'))
  obtain ⟨haddress, hprefix⟩ := Prod.mk.inj (Option.some.inj hcut)
  have hoctets := (splitOn_address h).symm.trans
    ((congrArg _ haddress).trans (splitOn_address h'))
  obtain ⟨a, b, c, d, prefixBits⟩ := t
  obtain ⟨a', b', c', d', prefixBits'⟩ := t'
  simp only [List.cons.injEq] at hoctets
  obtain ⟨rfl, rfl, rfl, rfl, -⟩ := hoctets
  obtain rfl := hprefix
  rfl

end CidrText

/-! ## What is accepted -/

theorem parseU8_eq_some_iff {field : List UInt8} {x : UInt8} :
    parseU8 field = some x ↔ IsDecimal (unsign field) x.toNat := by
  rw [parseU8, Option.map_eq_some_iff]
  constructor
  · rintro ⟨v, hv, rfl⟩
    obtain ⟨hdecimal, hle⟩ := fromStrRadix_ten_eq_some_iff.mp hv
    rwa [UInt8.toNat_ofNat', Nat.mod_eq_of_lt (by omega)]
  · intro h
    have hlt := x.toNat_lt
    exact ⟨x.toNat, fromStrRadix_ten_eq_some_iff.mpr ⟨h, by omega⟩, UInt8.ofNat_toNat⟩

theorem not_mem_of_parseU8 {field : List UInt8} {x : UInt8} (h : parseU8 field = some x) :
    '.'.toUInt8 ∉ field ∧ '/'.toUInt8 ∉ field := by
  obtain ⟨v, hv, -⟩ := Option.map_eq_some_iff.mp h
  have hbytes := mem_of_fromStrRadix hv
  exact ⟨fun hdot => (hbytes _ hdot).elim (by decide) (by decide),
    fun hslash => (hbytes _ hslash).elim (by decide) (by decide)⟩

/-- The text denotes the block when its fields are numerals of the block's bytes. -/
def CidrText.Denotes (numeral : List UInt8 → UInt8 → Prop) (t : CidrText) (block : CidrBlock) :
    Prop := List.Forall₂ numeral t.fields block.bytes

theorem CidrText.denotes_iff {numeral : List UInt8 → UInt8 → Prop} {t : CidrText}
    {block : CidrBlock} : t.Denotes numeral block ↔ numeral t.a block.a ∧ numeral t.b block.b ∧
      numeral t.c block.c ∧ numeral t.d block.d ∧ numeral t.prefixBits block.prefixBits := by
  simp only [Denotes, fields, CidrBlock.bytes, List.forall₂_cons, List.forall₂_nil_left_iff,
    and_true]

theorem CidrText.Denotes.clean {t : CidrText} {block : CidrBlock}
    (h : t.Denotes (fun field x => parseU8 field = some x) block) : t.Clean := by
  intro field hfield
  obtain ⟨i, hi, rfl⟩ := List.getElem_of_mem hfield
  exact not_mem_of_parseU8 (h.get hi (h.length_eq ▸ hi))

section

variable {s : List Char} {block : CidrBlock} {t : CidrText}

theorem parseIpv4Cidr_render (htext : encode (trim s) = t.render)
    (hdenotes : t.Denotes (fun field x => parseU8 field = some x) block) :
    parseIpv4Cidr s = some block := by
  have hclean := hdenotes.clean
  obtain ⟨ha, hb, hc, hd, hbits⟩ := CidrText.denotes_iff.mp hdenotes
  have hne : (encode (trim s)).isEmpty = false := by
    rw [htext, List.isEmpty_eq_false_iff]
    exact List.append_ne_nil_of_right_ne_nil _ (List.cons_ne_nil _ _)
  rw [parseIpv4Cidr]
  dsimp only
  rw [hne, if_neg Bool.false_ne_true, htext, CidrText.splitOnce_render hclean,
    Option.bind_eq_bind, Option.bind_some]
  dsimp only
  rw [hbits, Option.bind_eq_bind, Option.bind_some,
    dif_neg (UInt8.not_lt.mpr block.prefixBits_le), CidrText.splitOn_address hclean]
  simp [ha, hb, hc, hd]

theorem exists_text_of_parseIpv4Cidr (h : parseIpv4Cidr s = some block) :
    ∃ t : CidrText, encode (trim s) = t.render ∧
      t.Denotes (fun field x => parseU8 field = some x) block := by
  rw [parseIpv4Cidr] at h
  split_ifs at h with hempty
  obtain ⟨⟨addr, bits⟩, hcut, h⟩ := Option.bind_eq_some_iff.mp h
  obtain ⟨x, hx, h⟩ := Option.bind_eq_some_iff.mp h
  dsimp only at hx h
  split at h
  · cases h
  simp only [Option.bind_eq_bind, Option.bind_eq_some_iff] at h
  obtain ⟨a, ⟨octetA, hA, ha⟩, b, ⟨octetB, hB, hb⟩, c, ⟨octetC, hC, hc⟩, d, ⟨octetD, hD, hd⟩,
    h⟩ := h
  split_ifs at h with hrest
  obtain rfl := Option.some.inj h
  have hoctets : addr.splitOn '.'.toUInt8 = [octetA, octetB, octetC, octetD] :=
    eq_four_of_getElem? hA hB hC hD (Option.not_isSome_iff_eq_none.mp hrest)
  refine ⟨⟨octetA, octetB, octetC, octetD, bits⟩, ?_, ?_⟩
  · rw [(splitOnce_eq_some_iff.mp hcut).1, CidrText.render, CidrText.address, ← hoctets,
      List.intercalate_splitOn]
  · exact CidrText.denotes_iff.mpr ⟨ha, hb, hc, hd, hx⟩

/-- **What the parser accepts**: a text with five fields that the integer parser reads. -/
theorem parseIpv4Cidr_eq_some_iff :
    parseIpv4Cidr s = some block ↔ ∃ t : CidrText, encode (trim s) = t.render ∧
      t.Denotes (fun field x => parseU8 field = some x) block :=
  ⟨exists_text_of_parseIpv4Cidr, fun ⟨_, htext, hdenotes⟩ => parseIpv4Cidr_render htext hdenotes⟩

end

/-! ## The grammar -/

/-- **The grammar**: the text between white space is a block's, each number in decimal digits. -/
def InGrammar (s : List Char) (block : CidrBlock) : Prop :=
  ∃ t : CidrText, encode (trim s) = t.render ∧
    t.Denotes (fun field x => IsDecimal field x.toNat) block

/-- The text of a block but for a `+` in front of one number or more. -/
def Signed (s : List Char) : Prop :=
  ∃ (t : CidrText) (block : CidrBlock), encode (trim s) = t.render ∧
    t.Denotes (fun field x => IsDecimal (unsign field) x.toNat) block ∧
    ∃ field ∈ t.fields, field.head? = some '+'.toUInt8

section

variable {s : List Char} {block : CidrBlock}

theorem parseIpv4Cidr_of_inGrammar (h : InGrammar s block) : parseIpv4Cidr s = some block := by
  obtain ⟨t, htext, hdenotes⟩ := h
  refine parseIpv4Cidr_eq_some_iff.mpr ⟨t, htext, hdenotes.imp fun field x hdecimal => ?_⟩
  rwa [parseU8_eq_some_iff, hdecimal.unsign_eq]

theorem Signed.exists_parse (h : Signed s) : ∃ block, parseIpv4Cidr s = some block := by
  obtain ⟨t, block, htext, hdenotes, -⟩ := h
  exact ⟨block, parseIpv4Cidr_eq_some_iff.mpr
    ⟨t, htext, hdenotes.imp fun field x => parseU8_eq_some_iff.mpr⟩⟩

/-- A text is read in one way, so a sign that was dropped was in no digits. -/
theorem Signed.not_inGrammar (h : Signed s) : ¬InGrammar s block := by
  rintro ⟨t, htext, hdenotes⟩
  obtain ⟨t', block', htext', hdenotes', field, hfield, hplus⟩ := h
  have hclean : t.Clean := CidrText.Denotes.clean (hdenotes.imp fun field x hdecimal => by
    rwa [parseU8_eq_some_iff, hdecimal.unsign_eq])
  have hclean' : t'.Clean :=
    CidrText.Denotes.clean (hdenotes'.imp fun field x => parseU8_eq_some_iff.mpr)
  obtain rfl := CidrText.render_injective hclean hclean' (htext.symm.trans htext')
  obtain ⟨i, hi, rfl⟩ := List.getElem_of_mem hfield
  have hdecimal := hdenotes.get hi (hdenotes.length_eq ▸ hi)
  exact absurd (hdecimal.digit _ (List.mem_of_mem_head? hplus)).1 (by decide)

theorem inGrammar_of_parse (hunsigned : ¬Signed s) (h : parseIpv4Cidr s = some block) :
    InGrammar s block := by
  obtain ⟨t, htext, hdenotes⟩ := parseIpv4Cidr_eq_some_iff.mp h
  have hplain : ∀ field ∈ t.fields, field.head? ≠ some '+'.toUInt8 := fun field hfield hplus =>
    hunsigned ⟨t, block, htext, hdenotes.imp fun field x => parseU8_eq_some_iff.mp, field, hfield,
      hplus⟩
  refine ⟨t, htext, List.forall₂_iff_get.mpr ⟨hdenotes.length_eq, fun i hi hi' => ?_⟩⟩
  have hfield := hplain _ (List.get_mem t.fields ⟨i, hi⟩)
  have hread := parseU8_eq_some_iff.mp (hdenotes.get hi hi')
  rwa [unsign_of_head?_ne hfield] at hread

end

/-! ## The configured allowlist -/

/-- Loopback and the private ranges of a LAN. -/
def privateBlocks : List CidrBlock :=
  [⟨127, 0, 0, 0, 8, by decide⟩, ⟨10, 0, 0, 0, 8, by decide⟩, ⟨172, 16, 0, 0, 12, by decide⟩,
    ⟨192, 168, 0, 0, 16, by decide⟩]

namespace Acl

theorem allows_privateLan (addr : UInt32) :
    privateLan.allows addr = true ↔ ∃ block ∈ privateBlocks, block.Mem addr := by
  have hholds : privateLan.Holds privateBlocks := (holds_exec false privateBlocks).1
  rw [hholds.allows_iff]
  exact or_iff_right fun h => List.cons_ne_nil _ _ h.1

theorem allows_addBlock (block : CidrBlock) (addr : UInt32) :
    (denyAll.addBlock block).1.allows addr = true ↔ block.Mem addr := by
  have hholds := ((holds_empty false).addBlock (by decide) block).1
  rw [denyAll, hholds.allows_iff, List.nil_append]
  simp only [List.mem_singleton, exists_eq_left]
  exact or_iff_right fun h => List.cons_ne_nil _ _ h.1

end Acl

/-- **A configured text means what it says**: it is read as a block exactly when it is the block's
text, the firmware admits that block, or the private ranges where there is none, and the build
refuses every other text that is not empty. -/
structure ConfigExact (s : List Char) : Prop where
  parse : ∀ block, parseIpv4Cidr s = some block ↔ InGrammar s block
  admits : ∀ block, InGrammar s block →
    ∀ addr, (Acl.fromConfig s).allows addr = true ↔ block.Mem addr
  otherwise : (∀ block, ¬InGrammar s block) →
    ∀ addr, (Acl.fromConfig s).allows addr = true ↔ ∃ block ∈ privateBlocks, block.Mem addr
  build : buildAccepts s = true ↔ s = [] ∨ ∃ block, InGrammar s block

/-- **The configuration is exact but for signs.** -/
theorem config_exact_iff_unsigned (s : List Char) : ConfigExact s ↔ ¬Signed s := by
  constructor
  · intro h hsigned
    obtain ⟨block, hblock⟩ := hsigned.exists_parse
    exact hsigned.not_inGrammar ((h.parse block).mp hblock)
  · intro hunsigned
    have hparse : ∀ block, parseIpv4Cidr s = some block ↔ InGrammar s block := fun block =>
      ⟨inGrammar_of_parse hunsigned, parseIpv4Cidr_of_inGrammar⟩
    refine ⟨hparse, fun block hblock addr => ?_, fun hnone addr => ?_, ?_⟩
    · rw [Acl.fromConfig, (hparse block).mpr hblock]
      exact Acl.allows_addBlock block addr
    · have hfail : parseIpv4Cidr s = none :=
        Option.eq_none_iff_forall_ne_some.mpr fun block hblock =>
          hnone block ((hparse block).mp hblock)
      rw [Acl.fromConfig, hfail]
      exact Acl.allows_privateLan addr
    · simp only [← hparse, ← Option.isSome_iff_exists]
      simp [buildAccepts]

/-- A text that is no block's opens the server to it. -/
theorem signed_text_admitted : ¬ConfigExact "+10.0.0.0/8".toList := by
  intro h
  have hsigned : Signed "+10.0.0.0/8".toList :=
    ⟨⟨[0x2B, 0x31, 0x30], [0x30], [0x30], [0x30], [0x38]⟩, ⟨10, 0, 0, 0, 8, by decide⟩,
      by decide +kernel,
      CidrText.denotes_iff.mpr ⟨parseU8_eq_some_iff.mp rfl, parseU8_eq_some_iff.mp rfl,
        parseU8_eq_some_iff.mp rfl, parseU8_eq_some_iff.mp rfl, parseU8_eq_some_iff.mp rfl⟩,
      [0x2B, 0x31, 0x30], List.mem_cons_self, rfl⟩
  obtain ⟨block, hblock⟩ := hsigned.exists_parse
  exact hsigned.not_inGrammar ((h.parse block).mp hblock)

end GpsNtp
