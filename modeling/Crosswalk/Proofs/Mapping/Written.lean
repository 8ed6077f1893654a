import Crosswalk.Mapping.Written
import Crosswalk.Proofs.Json.Writer
import Mathlib.Data.List.Basic

/-!
# Entries by their text

    e.written = e'.written ↔ e.parts = e'.parts                                (written_eq_iff)

so of several entries that are written alike, which composition keeps once, none holds anything
that the others do not.
-/

namespace Crosswalk

open Function

/-! ## Values of the parts -/

theorem Value.optional_injective {α : Type} {f : α → Value} (hf : Injective f)
    (hnull : ∀ x, f x ≠ .null) : Injective (Value.optional f)
  | none, none, _ => rfl
  | none, some y, h => absurd h.symm (hnull y)
  | some x, none, h => absurd h (hnull x)
  | some _, some _, h => congrArg some (hf h)

theorem Value.str_injective : Injective Value.str := fun _ _ => Value.str.inj

theorem Value.optional_str_injective : Injective (Value.optional Value.str) :=
  optional_injective str_injective fun _ => nofun

theorem Value.list_injective {α : Type} {f : α → Value} (hf : Injective f) :
    Injective fun xs : List α => Value.list (xs.map f) :=
  fun _ _ h => hf.list_map (Value.list.inj h)

theorem Querier.name_injective : Injective Querier.name := by
  intro q q' h
  cases q <;> cases q' <;> first | rfl | exact absurd h (by decide)

theorem Visibility.text_injective : Injective Visibility.text := by
  intro v v' h
  cases v <;> cases v' <;> first | rfl | exact absurd h (by decide)

theorem Identifier.value_injective : Injective Identifier.value := by
  intro i j h
  cases i <;> cases j <;> first | cases h; rfl | cases h

theorem Source.value_injective : Injective Source.value := by
  rintro ⟨q, path⟩ ⟨q', path'⟩ h
  simp only [Source.value, Value.map.injEq, List.cons.injEq, Prod.mk.injEq, true_and, and_true,
    Value.str.injEq] at h
  obtain ⟨hquerier, rfl⟩ := h
  rw [Querier.name_injective hquerier]

theorem Destination.value_injective : Injective Destination.value := by
  rintro ⟨field, id, datatypes, language, visibility, written⟩
    ⟨field', id', datatypes', language', visibility', written'⟩ h
  simp only [Destination.value, Value.map.injEq, List.cons.injEq, Prod.mk.injEq, true_and, and_true,
    Value.str.injEq] at h
  obtain ⟨rfl, hid, hdatatypes, hlanguage, hvisibility, hwritten⟩ := h
  have hshown : Injective fun v : Visibility => Value.str v.text :=
    Value.str_injective.comp Visibility.text_injective
  obtain rfl := Value.optional_injective Identifier.value_injective
    (fun i => by cases i <;> nofun) hid
  obtain rfl := Value.list_injective Value.str_injective hdatatypes
  obtain rfl := Value.optional_str_injective hlanguage
  obtain rfl := Value.optional_injective hshown (fun _ => nofun) hvisibility
  obtain rfl := Value.optional_str_injective hwritten
  rfl

theorem Modifier.value_injective : Injective Modifier.value := by
  rintro ⟨raw, val, prepend, pattern, append, replace, filters, hasReplace⟩
    ⟨raw', val', prepend', pattern', append', replace', filters', hasReplace'⟩ h
  simp only [Modifier.value, Value.map.injEq, List.cons.injEq, Prod.mk.injEq, true_and,
    and_true] at h
  obtain ⟨hraw, hval, hprepend, hpattern, happend, hreplace, hfilters, hhas⟩ := h
  have hbool : Injective Value.bool := fun _ _ => Value.bool.inj
  obtain rfl := Value.optional_str_injective hraw
  obtain rfl := Value.optional_str_injective hval
  obtain rfl := Value.optional_str_injective hprepend
  obtain rfl := Value.optional_str_injective hpattern
  obtain rfl := Value.optional_str_injective happend
  obtain rfl := Value.list_injective Value.str_injective hreplace
  obtain rfl := Value.list_injective Value.str_injective hfilters
  obtain rfl := Value.list_injective hbool hhas
  rfl

theorem Entry.Parts.value_injective : Injective Entry.Parts.value := by
  rintro ⟨source, destination, modifier, error⟩ ⟨source', destination', modifier', error'⟩ h
  simp only [Entry.Parts.value, Value.map.injEq, List.cons.injEq, Prod.mk.injEq, true_and,
    and_true] at h
  obtain ⟨hsource, hdestination, hmodifier, herror⟩ := h
  obtain rfl := Value.optional_injective Source.value_injective (fun _ => nofun) hsource
  obtain rfl := Value.optional_injective Destination.value_injective (fun _ => nofun) hdestination
  obtain rfl := Modifier.value_injective hmodifier
  obtain rfl := Value.optional_str_injective herror
  rfl

/-! ## No binary numbers -/

section

open Json

theorem isExact_optional {α : Type} {f : α → Value} (hf : ∀ x, isExact (f x) = true)
    (o : Option α) : isExact (Value.optional f o) = true := by
  cases o with
  | none => rfl
  | some x => exact hf x

theorem areExact_map {α : Type} {f : α → Value} (hf : ∀ x, isExact (f x) = true) (xs : List α) :
    areExact (xs.map f) = true := by
  induction xs with
  | nil => rfl
  | cons x xs ih => exact Bool.and_eq_true_iff.2 ⟨hf x, ih⟩

theorem isExact_str (s : Text) : isExact (.str s) = true := rfl

theorem isExact_identifier (i : Identifier) : isExact i.value = true := by
  cases i <;> rfl

theorem isExact_source (s : Source) : isExact s.value = true := rfl

theorem isExact_destination (d : Destination) : isExact d.value = true := by
  simp only [Destination.value, isExact, membersExact, isExact_optional isExact_identifier,
    isExact_optional isExact_str, isExact_optional fun v => isExact_str (Visibility.text v),
    areExact_map isExact_str, Bool.and_self]

theorem isExact_modifier (m : Modifier) : isExact m.value = true := by
  have hbool : ∀ b, isExact (.bool b) = true := fun _ => rfl
  simp only [Modifier.value, isExact, membersExact, isExact_optional isExact_str,
    areExact_map isExact_str, areExact_map hbool, Bool.and_self]

theorem isExact_parts (p : Entry.Parts) : isExact p.value = true := by
  simp only [Entry.Parts.value, isExact, membersExact, isExact_optional isExact_source,
    isExact_optional isExact_destination, isExact_modifier, isExact_optional isExact_str,
    Bool.and_self]

end

/-! ## Entries -/

/-- **Entries** that are written alike are alike in all their parts. -/
theorem Entry.written_eq_iff {e e' : Entry} : e.written = e'.written ↔ e.parts = e'.parts := by
  refine ⟨fun h => ?_, fun h => by rw [Entry.written, h, Entry.written]⟩
  have hend : Json.Ended [] := rfl
  have happend : Json.write Json.plain e.parts.value ++ [] =
      Json.write Json.plain e'.parts.value ++ [] := congrArg (· ++ []) h
  exact Entry.Parts.value_injective
    (Json.write_append rfl _ (isExact_parts _) (isExact_parts _) hend hend happend).1

end Crosswalk
