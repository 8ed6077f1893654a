import Crosswalk.Proofs.Record.Shared

/-!
# Building a record

Entries append their values to their own fields, in order, and what they give is what they would
give at the start of the conversion:

    c.build.run' start = .ok record ↔
      every entry gives its values from the start ∧ record = writeEach [] (entries with values)
                                                                                  (run'_build)
-/

namespace Crosswalk

open Text

/-! ## Writing a record -/

/-- The fields that an entry adds to a record with these values. -/
def Entry.filled (e : Entry) (values : List Text) : List Text :=
  if values = [] then [] else e.field?.toList

namespace Config

theorem write_nil (record : Record) (e : Entry) : write record e [] = record := rfl

theorem write_eq (record : Record) {e : Entry} {values : List Text} (h : values ≠ []) :
    write record e values =
      match e.field? with
      | none => record
      | some field =>
        Pairs.put field (((Pairs.get? field record).getD []) ++ values) record := by
  unfold write
  obtain ⟨v, vs, rfl⟩ := List.exists_cons_of_ne_nil h
  cases e.field? <;> rfl

/-- An entry appends its values to its own field. -/
theorem getD_write (record : Record) (e : Entry) (values : List Text) (f : Text) :
    (Pairs.get? f (write record e values)).getD [] =
      (Pairs.get? f record).getD [] ++ (if e.field? = some f then values else []) := by
  by_cases hv : values = []
  · rw [hv, write_nil, ite_self, List.append_nil]
  · rw [write_eq record hv]
    cases hf : e.field? with
    | none => rw [if_neg (by simp), List.append_nil]
    | some field =>
      simp only [Pairs.get?_put]
      by_cases e : f = field
      · rw [if_pos e, if_pos (congrArg some e.symm), e]
        rfl
      · rw [if_neg e, if_neg fun h => e (Option.some.inj h).symm, List.append_nil]

theorem keys_write {record : Record} {fields : List Text} (h : Pairs.keys record = distinct fields)
    (e : Entry) (values : List Text) :
    Pairs.keys (write record e values) = distinct (fields ++ e.filled values) := by
  unfold Entry.filled
  by_cases hv : values = []
  · rw [hv, write_nil, if_pos rfl, List.append_nil, h]
  · rw [write_eq record hv, if_neg hv]
    cases e.field? with
    | none => simpa using h
    | some field =>
      simp only [Option.toList_some]
      rw [Pairs.keys_put, distinct_concat, h]
      simp only [mem_distinct]

/-- The record of entries with their values. -/
def writeEach (record : Record) (ps : List (Entry × List Text)) : Record :=
  ps.foldl (fun record p => write record p.1 p.2) record

/-- **A field** holds the values of its entries, in order. -/
theorem getD_writeEach (record : Record) (ps : List (Entry × List Text)) (f : Text) :
    (Pairs.get? f (writeEach record ps)).getD [] = (Pairs.get? f record).getD [] ++
      ps.flatMap fun p => if p.1.field? = some f then p.2 else [] := by
  induction ps generalizing record with
  | nil => exact (List.append_nil _).symm
  | cons p ps ih =>
    show (Pairs.get? f (writeEach (write record p.1 p.2) ps)).getD [] = _
    rw [ih, getD_write, List.append_assoc]
    rfl

/-- **The fields** come in the order in which they are first filled. -/
theorem keys_writeEach (ps : List (Entry × List Text)) :
    Pairs.keys (writeEach [] ps) = distinct (ps.flatMap fun p => p.1.filled p.2) := by
  have hfrom : ∀ (record : Record) (fields : List Text), Pairs.keys record = distinct fields →
      Pairs.keys (writeEach record ps) = distinct (fields ++ ps.flatMap fun p => p.1.filled p.2) := by
    induction ps with
    | nil => exact fun record fields h => by rw [List.flatMap_nil, List.append_nil]; exact h
    | cons p ps ih =>
      intro record fields h
      rw [List.flatMap_cons, ← List.append_assoc]
      exact ih _ _ (keys_write h p.1 p.2)
  exact hfrom [] [] rfl

/-! ## What entries give -/

/-- What a part of a conversion gives from the start; nothing when it stops. -/
def given (start : Shared) (x : Sharing (List Text)) : List Text :=
  match x.run' start with
  | .ok values => values
  | .error _ => []

/-- The entries of a mapping, each with the part that gives its values. -/
def works [Host] (c : Config) : List (Entry × Sharing (List Text)) :=
  c.default.map (fun e => (e, e.defaultValues)) ++ c.mapping.map fun e => (e, e.values)

theorem steady_writeAll [Host] {start : Shared} {values : Entry → Sharing (List Text)}
    (hv : ∀ e, Steady start (values e)) (record : Record) (es : List Entry) :
    Steady start (writeAll record values es) := by
  induction es generalizing record with
  | nil => exact .pure record
  | cons e es ih => exact (hv e).bind fun vs => ih _

/-- Entries are written when each of them gives its values from the start. -/
theorem run'_writeAll [Host] {start : Shared} {values : Entry → Sharing (List Text)}
    (hv : ∀ e, Steady start (values e)) {record out : Record} {es : List Entry} :
    (writeAll record values es).run' start = .ok out ↔
      (∀ e ∈ es, (values e).run' start = .ok (given start (values e))) ∧
        out = writeEach record (es.map fun e => (e, given start (values e))) := by
  induction es generalizing record with
  | nil =>
    refine ⟨fun h => ⟨fun e he => absurd he List.not_mem_nil, (Except.ok.inj h).symm⟩, ?_⟩
    rintro ⟨_, rfl⟩
    rfl
  | cons e es ih =>
    rw [writeAll, Steady.run'_bind (hv e) fun vs => steady_writeAll hv _ es]
    have hgiven : ∀ vs, (values e).run' start = .ok vs → given start (values e) = vs := by
      intro vs h
      unfold given
      rw [h]
    constructor
    · intro h
      cases he : (values e).run' start with
      | error err => rw [he] at h; cases h
      | ok vs =>
        rw [he] at h
        obtain ⟨h1, h2⟩ := ih.1 h
        refine ⟨fun e' he' => ?_, ?_⟩
        · rcases List.mem_cons.1 he' with rfl | he'
          · rw [he, hgiven vs he]
          · exact h1 e' he'
        · rw [h2, ← hgiven vs he]
          rfl
    · rintro ⟨h1, rfl⟩
      rw [h1 e List.mem_cons_self]
      exact ih.2 ⟨fun e' he' => h1 e' (List.mem_cons_of_mem e he'), rfl⟩

theorem writeEach_append (record : Record) (ps qs : List (Entry × List Text)) :
    writeEach record (ps ++ qs) = writeEach (writeEach record ps) qs :=
  List.foldl_append

/-- **A record is built** when every entry gives its values from the start. -/
theorem run'_build [Host] {start : Shared} {c : Config} {record : Record} :
    c.build.run' start = .ok record ↔
      (∀ w ∈ c.works, w.2.run' start = .ok (given start w.2)) ∧
        record = writeEach [] (c.works.map fun w => (w.1, given start w.2)) := by
  have hd : ∀ e : Entry, Steady start e.defaultValues := fun e => e.steady_defaultValues
  have hm : ∀ e : Entry, Steady start e.values := fun e => e.steady_values
  have hworks : c.works.map (fun w => (w.1, given start w.2)) =
      c.default.map (fun e => (e, given start e.defaultValues)) ++
        c.mapping.map fun e => (e, given start e.values) := by
    unfold works
    rw [List.map_append, List.map_map, List.map_map]
    rfl
  unfold build
  rw [Steady.run'_bind (steady_writeAll hd [] c.default) fun r => steady_writeAll hm r c.mapping,
    hworks, writeEach_append]
  constructor
  · intro h
    cases hr : (writeAll [] Entry.defaultValues c.default).run' start with
    | error err => rw [hr] at h; cases h
    | ok first =>
      rw [hr] at h
      obtain ⟨h1, rfl⟩ := (run'_writeAll hd).1 hr
      obtain ⟨h2, h3⟩ := (run'_writeAll hm).1 h
      refine ⟨fun w hw => ?_, h3⟩
      rcases List.mem_append.1 hw with hw | hw
      · obtain ⟨e, he, rfl⟩ := List.mem_map.1 hw
        exact h1 e he
      · obtain ⟨e, he, rfl⟩ := List.mem_map.1 hw
        exact h2 e he
  · rintro ⟨h1, rfl⟩
    have hfirst : (writeAll [] Entry.defaultValues c.default).run' start = .ok _ :=
      (run'_writeAll hd).2
        ⟨fun e he => h1 _ (List.mem_append_left _ (List.mem_map_of_mem he)), rfl⟩
    rw [hfirst]
    exact (run'_writeAll hm).2
      ⟨fun e he => h1 _ (List.mem_append_right _ (List.mem_map_of_mem he)), rfl⟩

end Config
end Crosswalk
