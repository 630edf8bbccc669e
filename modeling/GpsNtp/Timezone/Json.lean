import GpsNtp.Machinery.FlatJson
import GpsNtp.Machinery.Trim

/-!
# Timezone/Json — a string field looked up by its quoted key

    {"a":"tz", "tz":"Europe/Berlin"}
          │ │   └──────┬──────┘
          │ └──▸ ':' ──┘ the first colon behind it, and the string there
          └ the first quoted key

`extract_json_string_field` does not parse: it searches for the key in quotes, then for a colon, and
takes the string behind that.  It never slices inside a character (`extractJsonStringField_eq`), and
it reads the key's member where the first quoted key of the text is a member's name.  Anywhere else,
as the value of another member or between two strings, the colon it goes on to is another member's
or stands inside a string.
-/

namespace GpsNtp.Timezone

open Search FlatJson Utf8

/-! ## The lookup -/

/-- `extract_json_string_field`, `none` where it would panic. -/
def extractJsonStringField (json key : List Char) : Option (Option (List Char)) :=
  let keyNeedle := quoted key
  match find keyNeedle json with
  | none => some none
  | some keyPos =>
    (sliceFrom json (keyPos + (encode keyNeedle).length)).bind fun afterKey =>
      match findChar ':' afterKey with
      | none => some none
      | some colonPos =>
        (sliceFrom afterKey (colonPos + 1)).bind fun rest =>
          let tail := trimStart rest
          if tail.head? = some '"' then
            (sliceFrom tail 1).bind fun tail =>
              match findChar '"' tail with
              | none => some none
              | some stop => (sliceTo tail stop).map some
          else some none

/-- The string a text starts with. -/
def leadingString (text : List Char) : Option (List Char) :=
  if text.head? = some '"' then (Split.splitOnce '"' text.tail).map fun p => p.1 else none

/-- The string behind the first colon. -/
def fieldAfter (post : List Char) : Option (List Char) :=
  (Split.splitOnce ':' post).bind fun p => leadingString (trimStart p.2)

/-- The slices of a string in quotes. -/
theorem leadingString_slices {tail : List Char} (h : tail.head? = some '"') :
    ((sliceFrom tail 1).bind fun tail =>
      match findChar '"' tail with
      | none => some none
      | some stop => (sliceTo tail stop).map some) = some (leadingString tail) := by
  obtain ⟨text, rfl⟩ := List.head?_eq_some_iff.mp h
  have hfrom : sliceFrom ('"' :: text) 1 = some text := sliceFrom_cons rfl [] text
  rw [hfrom, Option.bind_some, leadingString, if_pos h, List.tail_cons, findChar]
  cases hsplit : Split.splitOnce '"' text with
  | none => rfl
  | some p =>
    obtain ⟨before, after⟩ := p
    have hto : sliceTo text (encode before).length = some before := by
      rw [(Split.splitOnce_eq_some_iff.mp hsplit).1]
      exact sliceTo_append before _
    rw [Option.map_some, Option.map_some]
    dsimp only
    rw [hto, Option.map_some]

/-- **No slice is taken inside a character**, whatever the text and the key. -/
theorem extractJsonStringField_eq (json key : List Char) :
    extractJsonStringField json key =
      some ((cut (quoted key) json).bind fun p => fieldAfter p.2) := by
  rw [extractJsonStringField, find]
  cases hcut : cut (quoted key) json with
  | none => rfl
  | some p =>
    obtain ⟨pre, post⟩ := p
    have hfrom : sliceFrom json ((encode pre).length + (encode (quoted key)).length) =
        some post := by
      rw [cut_eq_some hcut, ← List.append_assoc, ← List.length_append, ← encode_append]
      exact sliceFrom_append _ post
    simp only [Option.map_some, hfrom, Option.bind_some, findChar, fieldAfter]
    cases hsplit : Split.splitOnce ':' post with
    | none => rfl
    | some q =>
      obtain ⟨before, after⟩ := q
      have hcolon : sliceFrom post ((encode before).length + 1) = some after := by
        rw [(Split.splitOnce_eq_some_iff.mp hsplit).1]
        exact sliceFrom_cons rfl before after
      simp only [Option.map_some, hcolon, Option.bind_some]
      split_ifs with hquote
      · exact leadingString_slices hquote
      · rw [leadingString, if_neg hquote]

/-! ## What is read at a colon -/

theorem isWhitespace_of_isBlank {c : Char} (h : isBlank c = true) : isWhitespace c = true := by
  simp only [isBlank, Bool.or_eq_true, beq_iff_eq] at h
  rcases h with ((rfl | rfl) | rfl) | rfl <;> decide

/-- A letter, digit, sign or point is neither white space nor a quote. -/
theorem not_quote_of_isWord {c : Char} (h : isWord c = true) :
    isWhitespace c = false ∧ c ≠ '"' := by
  simp only [isWord, Bool.and_eq_true, decide_eq_true_eq] at h
  obtain ⟨⟨hlow, hhigh⟩, -⟩ := h
  constructor
  · rw [isWhitespace, decide_eq_false_iff_not]
    omega
  · rintro rfl
    exact absurd hlow (by decide)

theorem fieldAfter_colon {before : List Char} (h : ':' ∉ before) (after : List Char) :
    fieldAfter (before ++ ':' :: after) = leadingString (trimStart after) := by
  rw [fieldAfter, Split.splitOnce_eq_some_iff.mpr ⟨rfl, h⟩, Option.bind_some]

theorem leadingString_quote (text : List Char) :
    leadingString ('"' :: text) = (Split.splitOnce '"' text).map fun p => p.1 := if_pos rfl

theorem leadingString_cons {c : Char} (h : c ≠ '"') (text : List Char) :
    leadingString (c :: text) = none := if_neg fun hhead => h (Option.some.inj hhead)

theorem leadingString_quoted {s : List Char} (h : '"' ∉ s) (rest : List Char) :
    leadingString ('"' :: (s ++ '"' :: rest)) = some s := by
  rw [leadingString_quote, Split.splitOnce_eq_some_iff.mpr ⟨rfl, h⟩, Option.map_some]

/-- **Behind a member's colon** stands the member's string, or none. -/
theorem leadingString_fromColon (m : Member) (rest : List Char) :
    leadingString (trimStart (m.fromColon ++ rest)) = m.value.string? := by
  have hblank : ∀ c ∈ m.afterColon.chars, isWhitespace c = true := fun c hc =>
    isWhitespace_of_isBlank (List.all_eq_true.mp m.afterColon.blank c hc)
  rw [Member.fromColon, List.append_assoc, trimStart_append_left hblank]
  cases hs : m.value.string? with
  | some s =>
    cases hv : m.value with
    | string v =>
      rw [hv] at hs
      obtain rfl : v.chars = s := Option.some.inj hs
      have htrim : ∀ t, trimStart ('"' :: t) = '"' :: t := fun t => rfl
      rw [Value.text, List.append_assoc, quoted_append, htrim]
      exact leadingString_quoted (quote_not_mem v) _
    | number _ | bool _ | null =>
      rw [hv] at hs
      cases hs
  | none =>
    obtain ⟨hne, hword⟩ := Value.text_word hs
    obtain ⟨c, text, htext⟩ := List.exists_cons_of_ne_nil hne
    obtain ⟨hspace, hquote⟩ := not_quote_of_isWord
      (List.all_eq_true.mp hword c (htext ▸ List.mem_cons_self))
    have htrim : ∀ t, trimStart (c :: t) = c :: t := fun t =>
      List.dropWhile_cons_of_neg (by rw [hspace]; exact Bool.false_ne_true)
    rw [htext, List.append_assoc, List.cons_append, htrim, leadingString_cons hquote]

/-- What is read behind a colon of a string: the text up to the next string, where only white space
follows the colon. -/
def behindString (y rest : List Char) : Option (List Char) :=
  if trimStart y = [] then (Split.splitOnce '"' rest).map fun p => p.1 else none

/-- **Behind a colon of a string** stands the rest of that string. -/
theorem leadingString_string {y : List Char} (h : '"' ∉ y) (rest : List Char) :
    leadingString (trimStart (y ++ '"' :: rest)) = behindString y rest := by
  rw [behindString]
  split_ifs with hy
  · have htrim : trimStart ('"' :: rest) = '"' :: rest := rfl
    rw [trimStart_append_left (trimStart_eq_nil_iff.mp hy), htrim, leadingString_quote]
  · obtain ⟨c, t, ht⟩ := List.exists_cons_of_ne_nil hy
    have hc : c ∈ y := (trimStart_suffix y).subset (ht ▸ List.mem_cons_self)
    rw [trimStart_append hy, ht, List.cons_append, leadingString_cons (fun heq => h (heq ▸ hc))]

/-! ## Which string is read -/

/-- **Where the search leads to the string under the key** from the first quoted key, between `pre`
and `post`.  It is a member's name; or it stands elsewhere, and the member or the string that the
next colon belongs to happens to give the same string, or none like the key. -/
inductive Leads (obj : Object) (key pre post : List Char) : Prop
  | name (h : obj.NameAt pre)
  | noColon (h : ':' ∉ post) (hkey : obj.stringField key = none)
  | member {before after m} (h : Split.splitOnce ':' post = some (before, after))
      (hcolon : obj.ColonOf m (pre ++ (quoted key ++ before)))
      (hkey : obj.stringField key = m.value.string?)
  | string {before after opening s rest x y} (h : Split.splitOnce ':' post = some (before, after))
      (hat : obj.StringAt opening s rest) (hs : s.chars = x ++ ':' :: y)
      (hcolon : pre ++ (quoted key ++ before) = opening ++ '"' :: x)
      (hkey : obj.stringField key = behindString y rest)

/-- What is read where the next colon is a member's. -/
theorem leadingString_colonOf {obj : Object} {m : Member} {a after : List Char}
    (h : obj.ColonOf m a) (htext : obj.text = a ++ ':' :: after) :
    leadingString (trimStart after) = m.value.string? := by
  obtain ⟨rest, htext'⟩ := h.text_eq
  rw [htext'] at htext
  obtain rfl := (List.cons.inj (List.append_cancel_left htext)).2
  exact leadingString_fromColon m rest

/-- What is read where the next colon is a string's. -/
theorem leadingString_stringAt {obj : Object} {opening rest x y a after : List Char} {s : Plain}
    (h : obj.StringAt opening s rest) (hs : s.chars = x ++ ':' :: y) (ha : a = opening ++ '"' :: x)
    (htext : obj.text = a ++ ':' :: after) :
    leadingString (trimStart after) = behindString y rest := by
  have hafter : y ++ '"' :: rest = after := by
    rw [h.text_eq, hs, ha] at htext
    simp only [List.append_assoc, List.cons_append] at htext
    exact (List.cons.inj (List.append_cancel_left (List.cons.inj
      (List.append_cancel_left htext)).2)).2
  have hquote : '"' ∉ y := fun hmem =>
    quote_not_mem s (hs ▸ List.mem_append_right x (List.mem_cons_of_mem _ hmem))
  rw [← hafter]
  exact leadingString_string hquote rest

/-- **At a member's name** the member's string is read, and the member is the key's. -/
theorem fieldAfter_name {obj : Object} {key pre post : List Char} (hquote : '"' ∉ key)
    (h : obj.NameAt pre) (htext : obj.text = pre ++ (quoted key ++ post)) :
    fieldAfter post = obj.stringField key := by
  obtain ⟨ms, m, ms', hsplit, rfl⟩ := h
  rw [(Object.StringAt.name hsplit).text_eq, quoted_append] at htext
  have hcut := (List.cons.inj (List.append_cancel_left htext)).2
  obtain ⟨rfl, rfl⟩ := Split.first_unique (quote_not_mem m.name) hquote hcut
  rw [fieldAfter_colon (colon_not_mem m.beforeColon), leadingString_fromColon,
    Object.stringField_eq hsplit]

/-- **What is read from the first quoted key** is the string under the key where the search leads
there, and only there. -/
theorem fieldAfter_eq_iff {obj : Object} {key pre post : List Char} (hquote : '"' ∉ key)
    (htext : obj.text = pre ++ (quoted key ++ post)) :
    fieldAfter post = obj.stringField key ↔ Leads obj key pre post := by
  have hcolon : ∀ {before after}, Split.splitOnce ':' post = some (before, after) →
      obj.text = (pre ++ (quoted key ++ before)) ++ ':' :: after ∧
        fieldAfter post = leadingString (trimStart after) := by
    intro before after h
    obtain ⟨rfl, hbefore⟩ := Split.splitOnce_eq_some_iff.mp h
    refine ⟨?_, fieldAfter_colon hbefore after⟩
    rw [htext]
    simp only [List.append_assoc]
  constructor
  · intro hfield
    cases h : Split.splitOnce ':' post with
    | none =>
      rw [fieldAfter, h, Option.bind_none] at hfield
      exact .noColon (Split.splitOnce_eq_none_iff.mp h) hfield.symm
    | some p =>
      obtain ⟨before, after⟩ := p
      obtain ⟨hat, hread⟩ := hcolon h
      rw [hread] at hfield
      rcases Object.colon_cases hat with ⟨m, hm⟩ | ⟨opening, s, rest, x, y, hs, hx, ha⟩
      · exact .member h hm (hfield.symm.trans (leadingString_colonOf hm hat))
      · exact .string h hs hx ha (hfield.symm.trans (leadingString_stringAt hs hx ha hat))
  · intro hleads
    cases hleads with
    | name h => exact fieldAfter_name hquote h htext
    | noColon h hkey =>
      rw [fieldAfter, Split.splitOnce_eq_none_iff.mpr h, Option.bind_none, hkey]
    | member h hm hkey => rw [(hcolon h).2, leadingString_colonOf hm (hcolon h).1, hkey]
    | string h hat hs ha hkey =>
      rw [(hcolon h).2, leadingString_stringAt hat hs ha (hcolon h).1, hkey]

/-- Where the quoted key occurs nowhere, there is no string under the key. -/
theorem stringField_of_cut_none {obj : Object} {key : List Char}
    (h : cut (quoted key) obj.text = none) : obj.stringField key = none := by
  cases hfield : obj.stringField key with
  | none => rfl
  | some v =>
    obtain ⟨m, hm, rfl, -⟩ := Object.stringField_eq_some_iff.mp hfield
    obtain ⟨ms, ms', hsplit⟩ := List.append_of_mem hm
    have htext := (Object.StringAt.name hsplit).text_eq
    obtain ⟨before, after, hcut, -⟩ := exists_cut (quoted m.name.chars)
      (obj.upTo ms ++ m.before.chars)
      (m.beforeColon.chars ++ ':' :: (m.fromColon ++ obj.beyond ms'))
    rw [quoted_append, ← htext] at hcut
    exact absurd (hcut.symm.trans h) (Option.some_ne_none _)

/-- **A quoted key** without a colon or a comma is a member's name or a member's string. -/
theorem nameAt_or_value {obj : Object} {key pre post : List Char} (hquote : '"' ∉ key)
    (hcolon : ':' ∉ key) (hcomma : ',' ∉ key) (htext : obj.text = pre ++ (quoted key ++ post)) :
    obj.NameAt pre ∨ ∃ m ∈ obj.members, m.value.string? = some key := by
  rw [quoted_append] at htext
  obtain ⟨opening, s, rest, hat, rfl | rfl⟩ := Object.quote_cases htext
  · have hcut := (List.cons.inj (List.append_cancel_left (hat.text_eq.symm.trans htext))).2
    obtain ⟨rfl, rfl⟩ := Split.first_unique (quote_not_mem s) hquote hcut
    cases hat with
    | name h => exact .inl ⟨_, _, _, h, rfl⟩
    | value h hs => exact .inr ⟨_, h ▸ List.mem_append_right _ List.mem_cons_self, by rw [hs]; rfl⟩
  · rw [hat.text_eq, List.append_assoc] at htext
    have hrest := (List.cons.inj (List.append_cancel_left (List.cons.inj
      (List.append_cancel_left htext)).2)).2
    exact ((hat.gap hrest).elim hcolon hcomma).elim

/-- **An ordinary key is looked up right** in every object that does not hold it as a string. -/
theorem extractJsonStringField_of_ne_value {obj : Object} {key : List Char} (hquote : '"' ∉ key)
    (hcolon : ':' ∉ key) (hcomma : ',' ∉ key)
    (hvalue : ∀ m ∈ obj.members, m.value.string? ≠ some key) :
    extractJsonStringField obj.text key = some (obj.stringField key) := by
  rw [extractJsonStringField_eq]
  cases hcut : cut (quoted key) obj.text with
  | none => rw [Option.bind_none, stringField_of_cut_none hcut]
  | some p =>
    have htext : obj.text = p.1 ++ (quoted key ++ p.2) := cut_eq_some hcut
    have hname := (nameAt_or_value hquote hcolon hcomma htext).resolve_right
      fun ⟨m, hm, hkey⟩ => hvalue m hm hkey
    rw [Option.bind_some, fieldAfter_name hquote hname htext]

/-- **The lookup on a flat object** — it never panics, whatever the text and the key, and it gives
the string under the key just where the first quoted key of the text leads there. -/
theorem extract_json_string_field_iff (obj : Object) (key : List Char) (hquote : '"' ∉ key) :
    (∀ json key, extractJsonStringField json key ≠ none) ∧
      (extractJsonStringField obj.text key = some (obj.stringField key) ↔
        ∀ pre post, cut (quoted key) obj.text = some (pre, post) → Leads obj key pre post) := by
  refine ⟨fun json key => ?_, ?_⟩
  · rw [extractJsonStringField_eq]
    exact Option.some_ne_none _
  rw [extractJsonStringField_eq, Option.some.injEq]
  cases hcut : cut (quoted key) obj.text with
  | none =>
    rw [Option.bind_none]
    exact iff_of_true (stringField_of_cut_none hcut).symm nofun
  | some p =>
    obtain ⟨pre, post⟩ := p
    rw [Option.bind_some, fieldAfter_eq_iff hquote (cut_eq_some hcut)]
    constructor
    · rintro h _ _ heq
      obtain ⟨rfl, rfl⟩ := Prod.mk.inj (Option.some.inj heq)
      exact h
    · exact fun h => h pre post rfl

/-- The key that is looked up first. -/
def timezoneKey : Plain := ⟨['t', 'i', 'm', 'e', 'z', 'o', 'n', 'e'], by decide⟩

/-- `38.9`. -/
def latitude : Number where
  sign := []
  whole := ['3', '8']
  fraction := ['.', '9']
  exponent := []
  sign_spec := .inl rfl
  whole_spec := .inr ⟨⟨by decide, by decide⟩, by decide⟩
  fraction_spec := .inr ⟨['9'], rfl, by decide, by decide⟩
  exponent_spec := .inl rfl

/-- `{"lat":38.9,"timezone":"UTC"}`. -/
def answer : Object where
  lead := .none
  inner := .none
  members := [.compact ⟨['l', 'a', 't'], by decide⟩ (.number latitude),
    .compact timezoneKey (.string ⟨['U', 'T', 'C'], by decide⟩)]
  trail := .none
  nodup := by decide

theorem extract_json_string_field_answer :
    extractJsonStringField answer.text timezoneKey.chars = some (some ['U', 'T', 'C']) := by
  refine (extract_json_string_field_iff answer timezoneKey.chars (by decide)).2.mpr ?_
  intro pre post hcut
  have hfirst : cut (quoted timezoneKey.chars) answer.text = some
      (['{', '"', 'l', 'a', 't', '"', ':', '3', '8', '.', '9', ','],
        [':', '"', 'U', 'T', 'C', '"', '}']) := by decide
  obtain ⟨rfl, rfl⟩ := Prod.mk.inj (Option.some.inj (hcut.symm.trans hfirst))
  exact .name ⟨[.compact ⟨['l', 'a', 't'], by decide⟩ (.number latitude)], _, [], rfl, rfl⟩

/-- `{"a":"timezone","b":"Y"}`. -/
def shadowed : Object where
  lead := .none
  inner := .none
  members := [.compact ⟨['a'], by decide⟩ (.string timezoneKey),
    .compact ⟨['b'], by decide⟩ (.string ⟨['Y'], by decide⟩)]
  trail := .none
  nodup := by decide

/-- **Another member's string is given** where the key is the value of the member before it. -/
theorem value_taken_for_key :
    shadowed.stringField timezoneKey.chars = none ∧
      extractJsonStringField shadowed.text timezoneKey.chars = some (some ['Y']) := by
  rw [extractJsonStringField_eq]
  exact ⟨by decide, by decide⟩

end GpsNtp.Timezone
