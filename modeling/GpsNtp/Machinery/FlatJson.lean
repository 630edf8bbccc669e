import GpsNtp.Machinery.Search

/-!
# Machinery/FlatJson — the texts of flat JSON objects

    ␣ { ␣  ␣"name"␣ : ␣value␣ ,  ⋯  , ␣"name"␣ : ␣value␣  } ␣

An object without nesting, whose names and string values hold no escapes, with the text it is
written as: white space, names, values and their order are the object's own.  A colon of the text is
the one between a name and its value or a character of a string (`Object.colon_cases`).
-/

namespace FlatJson

open Search

/-! ## Words -/

/-- White space of JSON. -/
def isBlank (c : Char) : Bool := c == ' ' || c == '\t' || c == '\n' || c == '\r'

/-- A character that stands for itself in a string. -/
def isPlain (c : Char) : Bool := c != '"' && c != '\\' && decide (0x20 ≤ c.toNat)

/-- White space. -/
structure Blank where
  chars : List Char
  blank : chars.all isBlank = true

/-- No white space. -/
def Blank.none : Blank := ⟨[], rfl⟩

/-- The characters of a string without escapes. -/
structure Plain where
  chars : List Char
  plain : chars.all isPlain = true

/-- A run of digits. -/
def IsDigits (cs : List Char) : Prop := cs ≠ [] ∧ cs.all Char.isDigit = true

/-- **A number**: a sign, the whole part without leading zeros, the fraction and the exponent. -/
structure Number where
  sign : List Char
  whole : List Char
  fraction : List Char
  exponent : List Char
  sign_spec : sign = [] ∨ sign = ['-']
  whole_spec : whole = ['0'] ∨ IsDigits whole ∧ whole.head? ≠ some '0'
  fraction_spec : fraction = [] ∨ ∃ ds, fraction = '.' :: ds ∧ IsDigits ds
  exponent_spec : exponent = [] ∨ ∃ e s ds, exponent = e :: (s ++ ds) ∧ (e = 'e' ∨ e = 'E') ∧
    (s = [] ∨ s = ['+'] ∨ s = ['-']) ∧ IsDigits ds

/-- The text of a number. -/
def Number.text (n : Number) : List Char := n.sign ++ (n.whole ++ (n.fraction ++ n.exponent))

/-- A text in quotes. -/
def quoted (s : List Char) : List Char := '"' :: (s ++ ['"'])

theorem quoted_append (s rest : List Char) :
    quoted s ++ rest = '"' :: (s ++ '"' :: rest) := by
  rw [quoted, List.cons_append, List.append_assoc, List.singleton_append]

/-- A character of the words that are no strings: a letter, a digit, a sign or a point. -/
def isWord (c : Char) : Bool := decide (0x2B ≤ c.toNat) && decide (c.toNat ≤ 0x7A) && c != ':'

theorem Blank.not_mem (ws : Blank) {c : Char} (h : isBlank c = false) : c ∉ ws.chars :=
  fun hc => Bool.false_ne_true (h.symm.trans (List.all_eq_true.mp ws.blank c hc))

theorem colon_not_mem (ws : Blank) : ':' ∉ ws.chars := ws.not_mem (by decide)

theorem quote_not_mem_blank (ws : Blank) : '"' ∉ ws.chars := ws.not_mem (by decide)

theorem quote_not_mem (s : Plain) : '"' ∉ s.chars := fun h =>
  absurd (List.all_eq_true.mp s.plain '"' h) (by decide)

theorem isWord_of_isDigit {c : Char} (h : c.isDigit = true) : isWord c = true := by
  have hrange := Char.isDigit_iff_toNat.mp h
  have hlow : 48 ≤ c.toNat := hrange.1
  have hhigh : c.toNat ≤ 57 := hrange.2
  have hcolon : c ≠ ':' := by
    rintro rfl
    exact absurd hhigh (by decide)
  rw [isWord, Bool.and_eq_true, Bool.and_eq_true, decide_eq_true_eq, decide_eq_true_eq,
    bne_iff_ne]
  exact ⟨⟨by omega, by omega⟩, hcolon⟩

theorem isWord_of_isDigits {cs : List Char} (h : IsDigits cs) : cs.all isWord = true :=
  List.all_eq_true.mpr fun c hc => isWord_of_isDigit (List.all_eq_true.mp h.2 c hc)

/-- **A number is a word.** -/
theorem Number.text_word (n : Number) : n.text ≠ [] ∧ n.text.all isWord = true := by
  have hsign : n.sign.all isWord = true := by
    rcases n.sign_spec with h | h <;> rw [h] <;> decide
  have hwhole : n.whole ≠ [] ∧ n.whole.all isWord = true := by
    rcases n.whole_spec with h | ⟨h, -⟩
    · rw [h]
      decide
    · exact ⟨h.1, isWord_of_isDigits h⟩
  have hfraction : n.fraction.all isWord = true := by
    rcases n.fraction_spec with h | ⟨ds, h, hds⟩ <;> rw [h]
    · rfl
    · rw [List.all_cons, isWord_of_isDigits hds]
      decide
  have hexponent : n.exponent.all isWord = true := by
    rcases n.exponent_spec with h | ⟨e, s, ds, h, he, hs, hds⟩ <;> rw [h]
    · rfl
    · have he : isWord e = true := by rcases he with rfl | rfl <;> decide
      have hs : s.all isWord = true := by rcases hs with rfl | rfl | rfl <;> decide
      rw [List.all_cons, List.all_append, he, hs, isWord_of_isDigits hds]
      rfl
  constructor
  · exact List.append_ne_nil_of_right_ne_nil _ (List.append_ne_nil_of_left_ne_nil hwhole.1 _)
  · rw [text, List.all_append, List.all_append, List.all_append, hsign, hwhole.2, hfraction,
      hexponent]
    rfl

/-! ## Objects -/

/-- A value without nesting. -/
inductive Value where
  | string (s : Plain)
  | number (n : Number)
  | bool (b : Bool)
  | null

/-- The text of a value. -/
def Value.text : Value → List Char
  | .string s => quoted s.chars
  | .number n => n.text
  | .bool true => ['t', 'r', 'u', 'e']
  | .bool false => ['f', 'a', 'l', 's', 'e']
  | .null => ['n', 'u', 'l', 'l']

/-- The string a value is. -/
def Value.string? : Value → Option (List Char)
  | .string s => some s.chars
  | .number _ | .bool _ | .null => none

/-- **A value that is no string is a word.** -/
theorem Value.text_word {v : Value} (h : v.string? = none) :
    v.text ≠ [] ∧ v.text.all isWord = true := by
  cases v with
  | string s => cases h
  | number n => exact n.text_word
  | bool b => cases b <;> decide
  | null => decide

/-- A member, with the white space between its parts. -/
structure Member where
  before : Blank
  name : Plain
  beforeColon : Blank
  afterColon : Blank
  value : Value
  after : Blank

namespace Member

/-- A member written without white space. -/
def compact (name : Plain) (value : Value) : Member :=
  ⟨.none, name, .none, .none, value, .none⟩

/-- What stands before the colon. -/
def upToColon (m : Member) : List Char :=
  m.before.chars ++ (quoted m.name.chars ++ m.beforeColon.chars)

/-- What stands behind the colon. -/
def fromColon (m : Member) : List Char := m.afterColon.chars ++ (m.value.text ++ m.after.chars)

/-- The text of a member. -/
def text (m : Member) : List Char := m.upToColon ++ ':' :: m.fromColon

end Member

/-- The text of members. -/
def membersText : List Member → List Char
  | [] => []
  | [m] => m.text
  | m :: m' :: ms => m.text ++ ',' :: membersText (m' :: ms)

/-- **A flat object**: its members, no two of a name, and the white space around them. -/
structure Object where
  lead : Blank
  inner : Blank
  members : List Member
  trail : Blank
  nodup : (members.map fun m => m.name.chars).Nodup

namespace Object

/-- The text of an object. -/
def text (obj : Object) : List Char :=
  obj.lead.chars ++ '{' :: (obj.inner.chars ++ (membersText obj.members ++ '}' :: obj.trail.chars))

/-- **The string under a key**, where a member has that name and a string for its value. -/
def stringField (obj : Object) (key : List Char) : Option (List Char) :=
  (obj.members.find? fun m => m.name.chars = key).bind fun m => m.value.string?

/-- What stands before the members behind `ms`. -/
def upTo (obj : Object) (ms : List Member) : List Char :=
  obj.lead.chars ++ '{' :: (obj.inner.chars ++ ms.flatMap fun m => m.text ++ [','])

/-- What stands behind the members before `ms`. -/
def beyond (obj : Object) (ms : List Member) : List Char :=
  (ms.flatMap fun m => ',' :: m.text) ++ '}' :: obj.trail.chars

/-- A member's name starts behind `pre`. -/
def NameAt (obj : Object) (pre : List Char) : Prop :=
  ∃ ms m ms', obj.members = ms ++ m :: ms' ∧ pre = obj.upTo ms ++ m.before.chars

/-- The member's colon stands behind `pre`. -/
def ColonOf (obj : Object) (m : Member) (pre : List Char) : Prop :=
  ∃ ms ms', obj.members = ms ++ m :: ms' ∧ pre = obj.upTo ms ++ m.upToColon

/-- **Where the strings of an object stand**: what is before the opening quote and behind the
closing one. -/
inductive StringAt (obj : Object) : List Char → Plain → List Char → Prop
  | name {ms m ms'} (h : obj.members = ms ++ m :: ms') :
      StringAt obj (obj.upTo ms ++ m.before.chars) m.name
        (m.beforeColon.chars ++ ':' :: (m.fromColon ++ obj.beyond ms'))
  | value {ms m ms' s} (h : obj.members = ms ++ m :: ms') (hs : m.value = .string s) :
      StringAt obj (obj.upTo ms ++ (m.upToColon ++ ':' :: m.afterColon.chars)) s
        (m.after.chars ++ obj.beyond ms')

/-! ## Reading the text -/

theorem membersText_append (ms : List Member) (m : Member) (ms' : List Member) :
    membersText (ms ++ m :: ms') =
      (ms.flatMap fun m => m.text ++ [',']) ++ (m.text ++ ms'.flatMap fun m => ',' :: m.text) := by
  induction ms with
  | nil =>
    induction ms' generalizing m with
    | nil => exact (List.append_nil _).symm
    | cons m' ms' ih => exact congrArg (m.text ++ ',' :: ·) (ih m')
  | cons m₀ ms ih =>
    have hrest : membersText (m₀ :: (ms ++ m :: ms')) =
        m₀.text ++ ',' :: membersText (ms ++ m :: ms') := by
      cases ms <;> rfl
    rw [List.cons_append, hrest, ih, List.flatMap_cons]
    simp only [List.append_assoc, List.cons_append, List.nil_append]

/-- **The text around a member.** -/
theorem text_eq {obj : Object} {ms : List Member} {m : Member} {ms' : List Member}
    (h : obj.members = ms ++ m :: ms') : obj.text = obj.upTo ms ++ (m.text ++ obj.beyond ms') := by
  rw [text, h, membersText_append, upTo, beyond]
  simp only [List.append_assoc, List.cons_append]

/-- **The text around a string.** -/
theorem StringAt.text_eq {obj : Object} {opening rest : List Char} {s : Plain}
    (h : obj.StringAt opening s rest) : obj.text = opening ++ '"' :: (s.chars ++ '"' :: rest) := by
  cases h with
  | name h =>
    rw [Object.text_eq h, Member.text, Member.upToColon, quoted]
    simp only [List.append_assoc, List.cons_append, List.nil_append]
  | value h hs =>
    rw [Object.text_eq h, Member.text, Member.fromColon, hs, Value.text, quoted]
    simp only [List.append_assoc, List.cons_append, List.nil_append]

/-- **The text around a member's colon.** -/
theorem ColonOf.text_eq {obj : Object} {m : Member} {pre : List Char} (h : obj.ColonOf m pre) :
    ∃ rest, obj.text = pre ++ ':' :: (m.fromColon ++ rest) := by
  obtain ⟨ms, ms', hsplit, rfl⟩ := h
  refine ⟨obj.beyond ms', ?_⟩
  rw [Object.text_eq hsplit, Member.text]
  simp only [List.append_assoc, List.cons_append]

/-! ## The characters of the text -/

/-- **A character of a member**, but for white space, is one of its quoted name, its colon, or one
of its value. -/
theorem member_cut {m : Member} {x y : List Char} {c : Char} (hblank : isBlank c = false)
    (h : m.text = x ++ c :: y) :
    (∃ x' y', quoted m.name.chars = x' ++ c :: y' ∧ x = m.before.chars ++ x') ∨
      (c = ':' ∧ x = m.upToColon) ∨
      ∃ x' y', m.value.text = x' ++ c :: y' ∧
        x = m.upToColon ++ ':' :: (m.afterColon.chars ++ x') := by
  rcases append_cut h with ⟨b, hleft⟩ | ⟨a, rfl, hright⟩
  · obtain ⟨x', rfl, hname⟩ := append_cut_right (m.before.not_mem hblank) hleft
    rcases append_cut hname with ⟨y', hquoted⟩ | ⟨a, -, hbeforeColon⟩
    · exact .inl ⟨x', y', hquoted, rfl⟩
    · exact absurd (hbeforeColon ▸ List.mem_append_right a List.mem_cons_self)
        (m.beforeColon.not_mem hblank)
  · cases a with
    | nil => exact .inr (.inl ⟨(List.cons.inj hright).1.symm, List.append_nil _⟩)
    | cons d a =>
      obtain ⟨rfl, hfrom⟩ := List.cons.inj hright
      obtain ⟨x', rfl, hvalue⟩ := append_cut_right (m.afterColon.not_mem hblank) hfrom
      rcases append_cut hvalue with ⟨y', htext⟩ | ⟨a, -, hafter⟩
      · exact .inr (.inr ⟨x', y', htext, rfl⟩)
      · exact absurd (hafter ▸ List.mem_append_right a List.mem_cons_self)
          (m.after.not_mem hblank)

/-- Only a string holds a character that is in no word. -/
theorem value_string_of_mem {v : Value} {x y : List Char} {c : Char} (hc : isWord c = false)
    (h : v.text = x ++ c :: y) : ∃ s, v = .string s := by
  cases hs : v.string? with
  | some s =>
    cases v with
    | string s => exact ⟨s, rfl⟩
    | number _ | bool _ | null => cases hs
  | none =>
    have hmem : c ∈ v.text := h ▸ List.mem_append_right x List.mem_cons_self
    have hword := List.all_eq_true.mp (Value.text_word hs).2 c hmem
    exact absurd (hc.symm.trans hword) Bool.false_ne_true

/-- A character of the members is one member's, but for the commas. -/
theorem membersText_cut {members : List Member} {a b : List Char} {c : Char} (hc : c ≠ ',')
    (h : membersText members = a ++ c :: b) :
    ∃ ms m ms' x y, members = ms ++ m :: ms' ∧ m.text = x ++ c :: y ∧
      a = (ms.flatMap fun m => m.text ++ [',']) ++ x := by
  induction members generalizing a with
  | nil => exact absurd h.symm (List.append_ne_nil_of_right_ne_nil _ (List.cons_ne_nil _ _))
  | cons m ms ih =>
    cases ms with
    | nil => exact ⟨[], m, [], a, b, rfl, h, rfl⟩
    | cons m' ms =>
      rcases append_cut h with ⟨b', htext⟩ | ⟨a', rfl, hrest⟩
      · exact ⟨[], m, m' :: ms, a, b', rfl, htext, rfl⟩
      · cases a' with
        | nil => exact absurd (List.cons.inj hrest).1.symm hc
        | cons d a' =>
          obtain ⟨rfl, htail⟩ := List.cons.inj hrest
          obtain ⟨ms₁, m₁, ms', x, y, hsplit, htext, rfl⟩ := ih htail
          refine ⟨m :: ms₁, m₁, ms', x, y, congrArg (m :: ·) hsplit, htext, ?_⟩
          rw [List.flatMap_cons]
          simp only [List.append_assoc, List.cons_append, List.nil_append]

/-- **A character of the text** is one of a member's, but for white space, braces and commas. -/
theorem text_cut {obj : Object} {a b : List Char} {c : Char} (hblank : isBlank c = false)
    (hc : c ∉ ['{', '}', ',']) (h : obj.text = a ++ c :: b) :
    ∃ ms m ms' x y, obj.members = ms ++ m :: ms' ∧ m.text = x ++ c :: y ∧
      a = obj.upTo ms ++ x := by
  have hbrace : c ∉ ['{'] := fun h => hc (List.mem_cons.mpr (.inl (List.mem_singleton.mp h)))
  obtain ⟨a₁, rfl, h₁⟩ := append_cut_right (obj.lead.not_mem hblank) h
  obtain ⟨a₂, rfl, h₂⟩ := append_cut_right hbrace h₁
  obtain ⟨a₃, rfl, h₃⟩ := append_cut_right (obj.inner.not_mem hblank) h₂
  have hmembers : ∃ b', membersText obj.members = a₃ ++ c :: b' := by
    refine (append_cut h₃).resolve_right ?_
    rintro ⟨a₄, -, htrail⟩
    have hmem : c ∈ '}' :: obj.trail.chars :=
      htrail ▸ List.mem_append_right a₄ List.mem_cons_self
    rcases List.mem_cons.mp hmem with rfl | htrail
    · exact hc (by decide)
    · exact obj.trail.not_mem hblank htrail
  obtain ⟨b', hmembers⟩ := hmembers
  have hcomma : c ≠ ',' := by
    rintro rfl
    exact hc (by decide)
  obtain ⟨ms, m, ms', x, y, hsplit, htext, rfl⟩ := membersText_cut hcomma hmembers
  refine ⟨ms, m, ms', x, y, hsplit, htext, ?_⟩
  rw [upTo]
  simp only [List.append_assoc, List.cons_append, List.nil_append]

/-! ## The colons of the text -/

/-- A colon in quotes. -/
theorem quoted_cut {s x y : List Char} (h : quoted s = x ++ ':' :: y) :
    ∃ x' y', s = x' ++ ':' :: y' ∧ x = '"' :: x' := by
  cases x with
  | nil => exact absurd (List.cons.inj h).1 (by decide)
  | cons c x' =>
    obtain ⟨rfl, htail⟩ := List.cons.inj h
    obtain ⟨y', hs⟩ | ⟨a', -, ha'⟩ := append_cut htail
    · exact ⟨x', y', hs, rfl⟩
    · have hmem : ':' ∈ ['"'] := ha' ▸ List.mem_append_right a' List.mem_cons_self
      exact absurd hmem (by decide)

/-- **A colon of a member** is its own or one of its strings'. -/
theorem member_colon {m : Member} {x y : List Char} (h : m.text = x ++ ':' :: y) :
    x = m.upToColon ∨ (∃ s t, m.name.chars = s ++ ':' :: t ∧ x = m.before.chars ++ '"' :: s) ∨
      ∃ v s t, m.value = .string v ∧ v.chars = s ++ ':' :: t ∧
        x = m.upToColon ++ ':' :: (m.afterColon.chars ++ '"' :: s) := by
  rcases member_cut (by decide) h with
    ⟨x', y', hname, rfl⟩ | ⟨-, rfl⟩ | ⟨x', y', hvalue, rfl⟩
  · obtain ⟨s, t, hs, rfl⟩ := quoted_cut hname
    exact .inr (.inl ⟨s, t, hs, rfl⟩)
  · exact .inl rfl
  · obtain ⟨v, hv⟩ := value_string_of_mem (by decide) hvalue
    rw [hv] at hvalue
    obtain ⟨s, t, hs, rfl⟩ := quoted_cut hvalue
    exact .inr (.inr ⟨v, s, t, hv, hs, rfl⟩)

/-- **A colon of the text** is a member's own or a character of a string. -/
theorem colon_cases {obj : Object} {a b : List Char} (h : obj.text = a ++ ':' :: b) :
    (∃ m, obj.ColonOf m a) ∨
      ∃ opening s rest x y, obj.StringAt opening s rest ∧ s.chars = x ++ ':' :: y ∧
        a = opening ++ '"' :: x := by
  obtain ⟨ms, m, ms', x, y, hsplit, htext, rfl⟩ := text_cut (by decide) (by decide) h
  rcases member_colon htext with rfl | ⟨s, t, hname, rfl⟩ | ⟨v, s, t, hv, hs, rfl⟩
  · exact .inl ⟨m, ms, ms', hsplit, rfl⟩
  · exact .inr ⟨_, _, _, s, t, .name hsplit, hname, (List.append_assoc _ _ _).symm⟩
  · refine .inr ⟨_, _, _, s, t, .value hsplit hv, hs, ?_⟩
    simp only [List.append_assoc, List.cons_append]

/-! ## The quotes of the text -/

/-- A quote around a string. -/
theorem quoted_quote {s x y : List Char} (hs : '"' ∉ s) (h : quoted s = x ++ '"' :: y) :
    x = [] ∨ x = '"' :: s := by
  cases x with
  | nil => exact .inl rfl
  | cons c x' =>
    obtain ⟨rfl, htail⟩ := List.cons.inj h
    obtain ⟨a', rfl, ha'⟩ := append_cut_right hs htail
    cases a' with
    | nil => exact .inr (by rw [List.append_nil])
    | cons d a' =>
      have hne : a' ++ '"' :: y ≠ [] :=
        List.append_ne_nil_of_right_ne_nil _ (List.cons_ne_nil _ _)
      exact absurd (List.cons.inj ha').2.symm hne

/-- **A quote of a member** is around its name or around its string. -/
theorem member_quote {m : Member} {x y : List Char} (h : m.text = x ++ '"' :: y) :
    (x = m.before.chars ∨ x = m.before.chars ++ '"' :: m.name.chars) ∨
      ∃ v, m.value = .string v ∧ (x = m.upToColon ++ ':' :: m.afterColon.chars ∨
        x = m.upToColon ++ ':' :: (m.afterColon.chars ++ '"' :: v.chars)) := by
  rcases member_cut (by decide) h with
    ⟨x', y', hname, rfl⟩ | ⟨hcolon, -⟩ | ⟨x', y', hvalue, rfl⟩
  · rcases quoted_quote (quote_not_mem m.name) hname with rfl | rfl
    · exact .inl (.inl (List.append_nil _))
    · exact .inl (.inr rfl)
  · exact absurd hcolon (by decide)
  · obtain ⟨v, hv⟩ := value_string_of_mem (by decide) hvalue
    rw [hv] at hvalue
    refine .inr ⟨v, hv, ?_⟩
    rcases quoted_quote (quote_not_mem v) hvalue with rfl | rfl
    · exact .inl (by rw [List.append_nil])
    · exact .inr rfl

/-- **A quote of the text** opens or closes a string. -/
theorem quote_cases {obj : Object} {a b : List Char} (h : obj.text = a ++ '"' :: b) :
    ∃ opening s rest, obj.StringAt opening s rest ∧
      (a = opening ∨ a = opening ++ '"' :: s.chars) := by
  obtain ⟨ms, m, ms', x, y, hsplit, htext, rfl⟩ := text_cut (by decide) (by decide) h
  rcases member_quote htext with (rfl | rfl) | ⟨v, hv, rfl | rfl⟩
  · exact ⟨_, _, _, .name hsplit, .inl rfl⟩
  · exact ⟨_, _, _, .name hsplit, .inr (List.append_assoc _ _ _).symm⟩
  · exact ⟨_, _, _, .value hsplit hv, .inl rfl⟩
  · refine ⟨_, _, _, .value hsplit hv, .inr ?_⟩
    simp only [List.append_assoc, List.cons_append]

/-- What stands between two strings holds a colon or a comma. -/
theorem StringAt.gap {obj : Object} {opening rest gap post : List Char} {s : Plain}
    (h : obj.StringAt opening s rest) (hrest : rest = gap ++ '"' :: post) :
    ':' ∈ gap ∨ ',' ∈ gap := by
  have hsep : ∀ {ws : Blank} {c : Char} {tail : List Char}, c ≠ '"' →
      ws.chars ++ c :: tail = gap ++ '"' :: post → c ∈ gap := by
    intro ws c tail hc heq
    obtain ⟨a', rfl, ha'⟩ := append_cut_right (quote_not_mem_blank ws) heq
    cases a' with
    | nil => exact absurd (List.cons.inj ha').1 hc
    | cons d a' =>
      obtain ⟨rfl, -⟩ := List.cons.inj ha'
      exact List.mem_append_right _ List.mem_cons_self
  cases h with
  | name h => exact .inl (hsep (by decide) hrest)
  | @value ms m ms' _ h hs =>
    cases ms' with
    | nil =>
      have hmem : '"' ∈ m.after.chars ++ '}' :: obj.trail.chars :=
        hrest ▸ List.mem_append_right gap List.mem_cons_self
      rcases List.mem_append.mp hmem with hafter | htrail
      · exact absurd hafter (quote_not_mem_blank m.after)
      · exact (List.mem_cons.mp htrail).elim (absurd · (by decide))
          (absurd · (quote_not_mem_blank obj.trail))
    | cons m' ms' => exact .inr (hsep (by decide) hrest)

/-! ## The string under a key -/

/-- The member of that name is the one that is found. -/
theorem stringField_eq {obj : Object} {ms : List Member} {m : Member} {ms' : List Member}
    (h : obj.members = ms ++ m :: ms') : obj.stringField m.name.chars = m.value.string? := by
  have hnodup := obj.nodup
  rw [h, List.map_append, List.map_cons] at hnodup
  have hms : ∀ m' ∈ ms, ¬(decide (m'.name.chars = m.name.chars) = true) := fun m' hm' heq =>
    (List.nodup_append.mp hnodup).2.2 _ (List.mem_map_of_mem hm') _ List.mem_cons_self
      (of_decide_eq_true heq)
  have hm : (m :: ms').find? (fun m' => m'.name.chars = m.name.chars) = some m := by
    rw [List.find?_cons, decide_eq_true rfl]
  rw [stringField, h, List.find?_append, List.find?_eq_none.mpr hms, Option.none_or, hm,
    Option.bind_some]

/-- **The string under a key** is the value of the member of that name. -/
theorem stringField_eq_some_iff {obj : Object} {key v : List Char} :
    obj.stringField key = some v ↔
      ∃ m ∈ obj.members, m.name.chars = key ∧ m.value.string? = some v := by
  constructor
  · intro h
    obtain ⟨m, hfind, hstring⟩ := Option.bind_eq_some_iff.mp h
    have hname := List.find?_some hfind
    exact ⟨m, List.mem_of_find?_eq_some hfind, of_decide_eq_true hname, hstring⟩
  · rintro ⟨m, hm, rfl, hstring⟩
    obtain ⟨ms, ms', hsplit⟩ := List.append_of_mem hm
    rw [stringField_eq hsplit, hstring]

end Object

end FlatJson
