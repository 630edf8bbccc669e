import Mathlib.Data.List.Basic

/-!
# Machinery/VarText — texts of named values

    stratum=1,leap=00,refid=GPS          lookup "leap"  ⟶  00

A text lists items `name=value`, separated by commas, and a reader takes the first item of the name
asked for.  A text that begins with items rendered one after another is read off them, whatever
follows (`lookup_render`).
-/

namespace VarText

/-- The items of a text, cut at the commas and each at its first equals sign. -/
def items (text : List Char) : List (List Char × List Char) :=
  (text.splitOn ',').map fun item =>
    (item.takeWhile (· != '='), (item.dropWhile (· != '=')).drop 1)

/-- The value of the first item of a name. -/
def lookup (name : List Char) (text : List Char) : Option (List Char) := (items text).lookup name

/-- Items, each with a comma behind it. -/
def render : List (List Char × List Char) → List Char
  | [] => []
  | (name, value) :: rest => name ++ '=' :: (value ++ ',' :: render rest)

/-- An item that is read as it was written. -/
structure Plain (item : List Char × List Char) : Prop where
  name_comma : ',' ∉ item.1
  name_equals : '=' ∉ item.1
  value_comma : ',' ∉ item.2

theorem items_append {name value : List Char} (h : Plain (name, value)) (text : List Char) :
    items (name ++ '=' :: (value ++ ',' :: text)) = (name, value) :: items text := by
  have hsplit : (name ++ '=' :: (value ++ ',' :: text)).splitOn ',' =
      (name ++ '=' :: value) :: text.splitOn ',' := by
    rw [← List.cons_append, ← List.append_assoc]
    refine List.splitOn_append_cons_self_of_not_mem ?_ text
    simp [h.name_comma, h.value_comma]
  have hname : ∀ c ∈ name, (c != '=') = true := fun c hc =>
    bne_iff_ne.mpr fun heq => h.name_equals (heq ▸ hc)
  rw [items, hsplit, List.map_cons, ← items, List.takeWhile_append_of_pos hname,
    List.dropWhile_append_of_pos hname]
  simp

/-- **Rendered items are read back**, whatever follows them. -/
theorem lookup_render {rendered : List (List Char × List Char)} (h : ∀ item ∈ rendered, Plain item)
    {name value : List Char} (hitem : rendered.lookup name = some value) (rest : List Char) :
    lookup name (render rendered ++ rest) = some value := by
  induction rendered with
  | nil => exact absurd hitem nofun
  | cons item rendered ih =>
    obtain ⟨name', value'⟩ := item
    have hrest := ih fun item hi => h item (List.mem_cons_of_mem _ hi)
    rw [render, List.append_assoc, List.cons_append, List.append_assoc, List.cons_append, lookup,
      items_append (h _ List.mem_cons_self)]
    rw [List.lookup_cons] at hitem ⊢
    cases hname : name == name' with
    | true => rwa [hname] at hitem
    | false =>
      rw [hname] at hitem
      exact hrest hitem

end VarText
