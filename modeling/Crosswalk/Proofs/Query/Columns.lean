import Crosswalk.Host.Bundled
import Crosswalk.Proofs.Query.Dotted
import Crosswalk.Proofs.Text.Mark
import Crosswalk.Record.Convert

/-!
# Columns of records

A path behind `fields[].` reads a column of a list of records. The flat document keeps the scalars
of a record together, so that the records are put together again as they were flattened, in order
and without those that have no scalar (`recordsBelow_flatten`). Where the names of members hold neither
points nor backslashes, a column is read off the records themselves (`extract_column`):

    the scalars under `value`, without nulls, of the records whose scalar under `key` is written
    as the name of the column
-/

namespace Crosswalk

open Text

/-! ## Grouping -/

namespace Columns

/-- An entry of a flat document as the name of a record, a member of it and a scalar. -/
def recordEntry (base : Text) (entry : Text × Value) : Option (Text × Text × Value) :=
  ((after? (base ++ ['.']) entry.1).bind (cutChar? '.')).map fun p => (p.1, p.2, entry.2)

/-- The records after one more scalar. -/
def addEntry (records : Pairs Text Record) (e : Text × Text × Value) : Pairs Text Record :=
  records.put e.1 (((Pairs.get? e.1 records).getD []).put e.2.1 e.2.2)

theorem recordsBelow_eq_foldl (base : Text) (flat : Pairs Text Value) :
    recordsBelow base flat = (flat.filterMap (recordEntry base)).foldl addEntry [] := by
  unfold recordsBelow
  rw [List.foldl_filterMap]
  congr 1
  funext records entry
  unfold recordEntry
  cases (after? (base ++ ['.']) entry.1).bind (cutChar? '.') <;> rfl

variable {records : Pairs Text Record} {name : Text}

theorem put_last (hname : name ∉ Pairs.keys records) (r r' : Record) :
    Pairs.put name r' (records ++ [(name, r)]) = records ++ [(name, r')] := by
  rw [← Pairs.put_eq_append hname, Pairs.put_put, Pairs.put_eq_append hname]

/-- The scalars of one record make one record, unless there are none. -/
theorem foldl_addEntry (hname : name ∉ Pairs.keys records) (r : Record) :
    (r.map fun e => (name, e)).foldl addEntry records =
      if r = [] then records else records ++ [(name, Pairs.ofList r)] := by
  induction r using List.reverseRecOn with
  | nil => rfl
  | append_singleton r e ih =>
    have hne : r ++ [e] ≠ [] := by simp
    rw [List.map_append, List.foldl_append, ih, if_neg hne, Pairs.ofList_concat]
    show addEntry _ (name, e) = _
    unfold addEntry
    split
    · next hr =>
      subst hr
      rw [Pairs.get?_eq_none.2 hname, Pairs.put_eq_append hname]
      rfl
    · next hr =>
      have hget : Pairs.get? name (records ++ [(name, Pairs.ofList r)]) = some (Pairs.ofList r) := by
        rw [← Pairs.put_eq_append hname, Pairs.get?_put, if_pos rfl]
      rw [hget, put_last hname]
      rfl

/-- Records whose names differ are put together again one after another. -/
theorem foldl_addEntry_flatMap {blocks : List (Text × Record)} {records : Pairs Text Record}
    (hnames : (Pairs.keys records ++ blocks.map (·.1)).Nodup)
    (hblocks : ∀ b ∈ blocks, (Pairs.keys b.2).Nodup) :
    (blocks.flatMap fun b => b.2.map fun e => (b.1, e)).foldl addEntry records =
      records ++ blocks.filter fun b => !b.2.isEmpty := by
  induction blocks generalizing records with
  | nil => exact (List.append_nil _).symm
  | cons b blocks ih =>
    have hb : b.1 ∉ Pairs.keys records := fun h =>
      (List.nodup_append.1 hnames).2.2 _ h _ List.mem_cons_self rfl
    have hmore := fun c hc => hblocks c (List.mem_cons_of_mem b hc)
    rw [List.flatMap_cons, List.foldl_append, foldl_addEntry hb,
      Pairs.ofList_of_nodup (hblocks b List.mem_cons_self), List.filter_cons]
    by_cases hempty : b.2 = []
    · rw [if_pos hempty, hempty, ih _ hmore]
      · rfl
      · exact hnames.sublist (List.Sublist.append_left (List.sublist_cons_self _ _) _)
    · have hkeys : Pairs.keys (records ++ [(b.1, b.2)]) = Pairs.keys records ++ [b.1] :=
        List.map_append
      rw [if_neg hempty, ih (by rw [hkeys, List.append_assoc]; exact hnames) hmore,
        if_pos (by simpa using hempty), List.append_assoc]
      rfl

/-- A column holds the values of its cells, in order. -/
theorem getD_gather (cells : List (Text × Value)) (name : Text) :
    (Pairs.get? name (gather cells)).getD [] =
      (cells.filter fun c => c.1 = name).map (·.2) := by
  induction cells using List.reverseRecOn with
  | nil => rfl
  | append_singleton cells c ih =>
    have hstep : gather (cells ++ [c]) = (gather cells).put c.1
        (((Pairs.get? c.1 (gather cells)).getD []) ++ [c.2]) := List.foldl_concat ..
    rw [hstep, Pairs.get?_put, List.filter_append, List.map_append, ← ih]
    by_cases hc : name = c.1
    · rw [if_pos hc, ← hc]
      simp [← hc]
    · rw [if_neg hc]
      simp [Ne.symm hc]

end Columns

/-! ## Records of a document -/

/-- A name without the marks that a flat key is cut at, other than the one for columns. -/
def PlainName (name : Text) : Prop :=
  name ≠ [] ∧ '.' ∉ name ∧ '\\' ∉ name ∧ name ≠ Dotted.columnName

instance (name : Text) : Decidable (PlainName name) := inferInstanceAs (Decidable (_ ∧ _))

theorem PlainName.escapeKey {name : Text} (h : PlainName name) : escapeKey name = name :=
  escapeKey_of_plain fun _ hc => ⟨fun e => h.2.1 (e ▸ hc), fun e => h.2.2.1 (e ▸ hc)⟩

theorem plainName_natText (i : Nat) : PlainName (natText i) := by
  have hdigit : ∀ c, c.isDigit = false → c ∉ natText i := fun c hc h => by
    rw [isDigit_natText h] at hc
    cases hc
  refine ⟨Value.natText_ne_nil i, hdigit _ (by decide), hdigit _ (by decide), fun e => ?_⟩
  exact hdigit 'f' (by decide) (by rw [e]; decide)

namespace Value

variable {v : Value} {members : Pairs Text Value}

theorem Named.mono {p q : Text → Prop} (h : v.Named p) (hpq : ∀ name, p name → q name) :
    v.Named q :=
  fun names hnames name hname => hpq name (h names hnames name hname)

/-- A name without points is the key of a member, whatever the members hold. -/
theorem get?_flatten_name (hv : (map members).Keyed) (hn : (map members).Named PlainName)
    {name : Text} (hname : '.' ∉ name) :
    Pairs.get? name (map members).flatten = (Pairs.get? name members).filter isScalar := by
  have hn' : (map members).Named (· ≠ []) := hn.mono fun _ h => h.1
  by_cases hplain : PlainName name
  · have := get?_flatten hv hn' (List.cons_ne_nil name [])
    rwa [pathKey_singleton, hplain.escapeKey, follow_singleton] at this
  · have hmember : Pairs.get? name members = none := by
      refine Pairs.get?_eq_none.2 fun hmem => hplain ?_
      exact hn _ (by rw [nameLists]; exact List.mem_cons_self) _ hmem
    rw [hmember, Option.filter_none, Pairs.get?_eq_none, flatten_eq_pathKeys hv hn' rfl]
    intro hmem
    obtain ⟨e, he, hkey⟩ := List.mem_map.1 hmem
    obtain ⟨l, hl, rfl⟩ := List.mem_map.1 he
    obtain ⟨first, path, hpath⟩ := List.exists_cons_of_ne_nil (path_ne_nil hv rfl hl)
    have hfirst := hn.of_path plainName_natText hl first (by rw [hpath]; exact List.mem_cons_self)
    have hkey : pathKey (first :: path) = name := hpath ▸ hkey
    cases path with
    | nil =>
      rw [pathKey_singleton, hfirst.escapeKey] at hkey
      exact hplain (hkey ▸ hfirst)
    | cons next path =>
      rw [pathKey_cons first (by simp)] at hkey
      exact hname (hkey ▸ List.mem_append_right _ List.mem_cons_self)

/-! ## Records in a flat document -/

theorem recordEntry_of_ne {base name : Text} (hbase : PlainName base) (hne : name ≠ base)
    (path : List Text) (w : Value) :
    Columns.recordEntry base (pathKey (name :: path), w) = none := by
  unfold Columns.recordEntry
  cases hafter : after? (base ++ ['.']) (pathKey (name :: path)) with
  | none => rfl
  | some rest =>
    rw [← hbase.escapeKey] at hafter
    exact absurd (Option.some.inj (head?_of_after? (List.cons_ne_nil _ _) hafter)) hne

theorem recordEntry_of_path {base name : Text} (hbase : PlainName base) (hname : PlainName name)
    {path : List Text} (hp : path ≠ []) (w : Value) :
    Columns.recordEntry base (pathKey (base :: name :: path), w) = some (name, pathKey path, w) := by
  have hkey : pathKey (base :: name :: path) = (base ++ ['.']) ++ (name ++ '.' :: pathKey path) := by
    rw [pathKey_cons base (by simp), pathKey_cons name hp, hbase.escapeKey, hname.escapeKey]
    simp
  unfold Columns.recordEntry
  rw [hkey, after?_eq_some.2 rfl, Option.bind_some, cutChar?_of_not_mem hname.2.1]
  rfl

/-- Pairs of which only one counts. -/
theorem flatMap_of_get? {α : Type} {m : Pairs Text Value} (hm : (Pairs.keys m).Nodup) {k : Text}
    {w : Value} (h : Pairs.get? k m = some w) {f : Text × Value → List α}
    (hf : ∀ p ∈ m, p.1 ≠ k → f p = []) : m.flatMap f = f (k, w) := by
  obtain ⟨before, after, rfl⟩ := List.append_of_mem (Pairs.mem_of_get? h)
  have hkeys : Pairs.keys (before ++ (k, w) :: after) =
      Pairs.keys before ++ k :: Pairs.keys after := List.map_append
  rw [hkeys] at hm
  obtain ⟨-, hcons, hdisjoint⟩ := List.nodup_append.1 hm
  have hbefore : before.flatMap f = [] := List.flatMap_eq_nil_iff.2 fun p hp =>
    hf p (List.mem_append_left _ hp)
      (hdisjoint _ (List.mem_map_of_mem hp) _ List.mem_cons_self)
  have hafter : after.flatMap f = [] := List.flatMap_eq_nil_iff.2 fun p hp =>
    hf p (List.mem_append_right _ (List.mem_cons_of_mem _ hp)) fun e =>
      (List.nodup_cons.1 hcons).1 (e ▸ List.mem_map_of_mem hp)
  rw [List.flatMap_append, List.flatMap_cons, hbefore, hafter, List.nil_append, List.append_nil]

variable {base : Text} {records : List (Pairs Text Value)}

theorem exists_record {p : Text × Value} (hp : p ∈ positioned 0 (records.map map)) :
    ∃ r ∈ records, p.2 = map r := by
  obtain ⟨j, -, hj⟩ := mem_positioned.1 hp
  obtain ⟨r, hr, e⟩ := List.mem_map.1 (List.mem_of_getElem? hj)
  exact ⟨r, hr, e.symm⟩

/-- The scalars of the records, each with the position of its record. -/
theorem filterMap_recordEntry (hv : (map members).Keyed) (hn : (map members).Named PlainName)
    (h : Pairs.get? base members = some (.list (records.map map))) :
    (map members).flatten.filterMap (Columns.recordEntry base) =
      (positioned 0 (records.map map)).flatMap fun p => p.2.flatten.map fun e => (p.1, e) := by
  have hmem := Pairs.mem_of_get? h
  have hbase : PlainName base := hn.of_part plainName_natText hmem
  have hlist : ∀ p ∈ positioned 0 (records.map map), p.2.leafPaths.filterMap
      (fun l => Columns.recordEntry base (pathKey (base :: p.1 :: l.1), l.2)) =
        p.2.flatten.map fun e => (p.1, e) := by
    intro p hp
    have hv' := (hv.part hmem).part hp
    have hn' := (hn.part hmem).part hp
    have hs : p.2.isScalar = false := by
      obtain ⟨r, -, hr⟩ := exists_record hp
      rw [hr]
      rfl
    have hname := (hn.part hmem).of_part plainName_natText hp
    rw [flatten_eq_pathKeys hv' (hn'.mono fun _ h => h.1) hs, List.map_map,
      ← List.filterMap_eq_map]
    refine List.filterMap_congr fun l hl => ?_
    exact recordEntry_of_path hbase hname (path_ne_nil hv' hs hl) l.2
  rw [flatten_eq_pathKeys hv (hn.mono fun _ h => h.1) rfl, List.filterMap_map,
    leafPaths_of_parts rfl, List.filterMap_flatMap]
  refine (flatMap_of_get? hv.nodup h fun p hp hne => ?_).trans ?_
  · refine List.filterMap_eq_nil_iff.2 fun l hl => ?_
    obtain ⟨l, -, rfl⟩ := List.mem_map.1 hl
    exact recordEntry_of_ne hbase hne l.1 l.2
  · rw [leafPaths_of_parts rfl, List.map_flatMap, List.filterMap_flatMap]
    refine List.flatMap_congr fun p hp => ?_
    rw [List.map_map, List.filterMap_map]
    exact hlist p hp

/-- **The records** below a key are the flat ones of the list, those without scalars left out. -/
theorem recordsBelow_flatten (hv : (map members).Keyed) (hn : (map members).Named PlainName)
    (h : Pairs.get? base members = some (.list (records.map map))) :
    Columns.recordsBelow base (map members).flatten =
      ((positioned 0 (records.map map)).map fun p => (p.1, p.2.flatten)).filter
        fun b => !b.2.isEmpty := by
  have hmem := Pairs.mem_of_get? h
  have hblocks : ∀ b ∈ (positioned 0 (records.map map)).map fun p => (p.1, p.2.flatten),
      (Pairs.keys b.2).Nodup := by
    intro b hb
    obtain ⟨p, hp, rfl⟩ := List.mem_map.1 hb
    have hv' := (hv.part hmem).part hp
    have hn' := ((hn.part hmem).part hp).mono fun _ h => h.1
    obtain ⟨r, -, hr⟩ := exists_record hp
    exact (hn'.lossless hv' (by rw [hr]; rfl)).distinct
  have hnames : (Pairs.keys ([] : Pairs Text Columns.Record) ++
      ((positioned 0 (records.map map)).map fun p => (p.1, p.2.flatten)).map (·.1)).Nodup := by
    rw [List.map_map]
    exact nodup_positioned 0 _
  have hfold := Columns.foldl_addEntry_flatMap hnames hblocks
  rw [Columns.recordsBelow_eq_foldl, filterMap_recordEntry hv hn h]
  rwa [List.flatMap_map, List.nil_append] at hfold

theorem map_positioned (i : Nat) (items : List Value) :
    (positioned i items).map (·.2) = items := by
  induction items generalizing i with
  | nil => rfl
  | cons v items ih => rw [positioned, List.map_cons, ih]

/-- The member that a parameter names is read off the record itself. -/
theorem memberOf_flatten (hv : (map members).Keyed) (hn : (map members).Named PlainName)
    {name : Text} (hname : '.' ∉ name) :
    Columns.memberOf (.ofValue (.str name)) (map members).flatten =
      (Pairs.get? name members).filter isScalar := by
  cases name with
  | nil =>
    have hnone : Pairs.get? [] members = none := Pairs.get?_eq_none.2 fun hmem =>
      (hn _ (by rw [nameLists]; exact List.mem_cons_self) _ hmem).1 rfl
    rw [hnone]
    rfl
  | cons c name => exact get?_flatten_name hv hn hname

end Value

/-! ## Cells -/

namespace Columns

/-- The scalar under a name. -/
def scalar? (name : Text) (r : Pairs Text Value) : Option Value :=
  (Pairs.get? name r).filter Value.isScalar

/-- The column of a record: its scalar under `key`, as a text. -/
def column? (key : Text) (r : Pairs Text Value) : Option Text :=
  (scalar? key r).map Value.scalarText

/-- The cell of a record: its scalar under `value`, unless that is null. -/
def cell? (value : Text) (r : Pairs Text Value) : Option Value :=
  (scalar? value r).filter fun v => !v.isNull

/-- The cells of one column, of those that records have in all columns. -/
theorem filter_cells (a : Pairs Text Value → Option Text) (b : Pairs Text Value → Option Value)
    (p : Value → Bool) (name : Text) (records : List (Pairs Text Value)) :
    (((records.filterMap fun r => (a r).bind fun n => (b r).map fun v => (n, v)).filter
      fun c => c.1 = name).map (·.2)).filter p =
      (records.filter fun r => a r = some name).filterMap fun r => (b r).filter p := by
  induction records with
  | nil => rfl
  | cons r records ih =>
    rw [List.filterMap_cons, List.filter_cons]
    cases ha : a r with
    | none => simpa using ih
    | some n =>
      cases hb : b r with
      | none => by_cases hn : n = name <;> simpa [hn, hb] using ih
      | some v =>
        by_cases hn : n = name <;> cases hv : p v <;>
          simpa [List.filterMap_cons, Option.filter_some, hn, hb, hv] using ih

variable {members : Pairs Text Value} {records : List (Pairs Text Value)} {base key value : Text}

/-- What a flat record gives to the columns is read off the record itself. -/
theorem namedCell_flatten (hv : (Value.map members).Keyed)
    (hn : (Value.map members).Named PlainName) (hkey : '.' ∉ key) (hvalue : '.' ∉ value) :
    namedCell (.ofValue (.str key)) (.ofValue (.str value)) (Value.map members).flatten =
      (column? key members).bind fun n => (scalar? value members).map fun v => (n, v) := by
  unfold namedCell column? scalar?
  rw [Value.memberOf_flatten hv hn hkey, Value.memberOf_flatten hv hn hvalue]
  cases (Pairs.get? key members).filter Value.isScalar <;>
    cases (Pairs.get? value members).filter Value.isScalar <;> rfl

/-- **The columns** of a flat document hold the cells of its records. -/
theorem read_flatten (hv : (Value.map members).Keyed) (hn : (Value.map members).Named PlainName)
    (h : Pairs.get? base members = some (.list (records.map .map))) (hne : key ≠ [])
    (hkey : '.' ∉ key) (hvalue : '.' ∉ value) :
    read ⟨.member base, .ofValue (.str key), .ofValue (.str value)⟩ (Value.map members).flatten =
      gather (records.filterMap fun r =>
        (column? key r).bind fun n => (scalar? value r).map fun v => (n, v)) := by
  have hmem := Pairs.mem_of_get? h
  have hread : read ⟨.member base, .ofValue (.str key), .ofValue (.str value)⟩
      (Value.map members).flatten = gather ((recordsBelow base (Value.map members).flatten).filterMap
        fun p => namedCell (.ofValue (.str key)) (.ofValue (.str value)) p.2) := by
    obtain ⟨c, key, rfl⟩ := List.exists_cons_of_ne_nil hne
    rfl
  have hcell : ∀ r ∈ records,
      namedCell (.ofValue (.str key)) (.ofValue (.str value)) (Value.map r).flatten =
        (column? key r).bind fun n => (scalar? value r).map fun v => (n, v) := by
    intro r hr
    obtain ⟨name, hpart⟩ := Value.exists_part (List.mem_map_of_mem (f := Value.map) hr)
    exact namedCell_flatten ((hv.part hmem).part hpart) ((hn.part hmem).part hpart) hkey hvalue
  have hempty : ∀ r : Record, (if (!r.isEmpty) = true then
      namedCell (.ofValue (.str key)) (.ofValue (.str value)) r else .none) =
        namedCell (.ofValue (.str key)) (.ofValue (.str value)) r := by
    rintro (_ | _)
    · obtain ⟨c, key', rfl⟩ := List.exists_cons_of_ne_nil hne
      rfl
    · rfl
  rw [hread, Value.recordsBelow_flatten hv hn h, List.filterMap_filter, List.filterMap_map]
  calc gather ((Value.positioned 0 (records.map .map)).filterMap _)
    _ = gather (((Value.positioned 0 (records.map .map)).map (·.2)).filterMap fun w =>
          namedCell (.ofValue (.str key)) (.ofValue (.str value)) w.flatten) := by
        rw [List.filterMap_map]
        exact congrArg gather (List.filterMap_congr fun p _ => hempty p.2.flatten)
    _ = gather (records.filterMap fun r =>
          namedCell (.ofValue (.str key)) (.ofValue (.str value)) (Value.map r).flatten) := by
        rw [Value.map_positioned, List.filterMap_map]
        rfl
    _ = _ := congrArg gather (List.filterMap_congr hcell)

end Columns

/-! ## Top theorem -/

namespace Backend

variable {members params : Pairs Text Value} {records : List (Pairs Text Value)}
  {base key value : Text}

/-- The parameters for columns, as they are written. -/
theorem columnsOf_eq (hne : base ≠ []) (hbase : Pairs.get? ("fields" : Text) params = some (.str base))
    (hkey : Pairs.get? ("fields.key" : Text) params = some (.str key))
    (hvalue : Pairs.get? ("fields.value" : Text) params = some (.str value)) :
    columnsOf params = ⟨.member base, .ofValue (.str key), .ofValue (.str value)⟩ := by
  obtain ⟨c, base, rfl⟩ := List.exists_cons_of_ne_nil hne
  unfold columnsOf Columns.ofParams
  simp only [hbase, hkey, hvalue]
  rfl

/-- No member has the name for columns, so that a path behind the mark is no key. -/
theorem get?_columnMark (hv : (Value.map members).Keyed)
    (hn : (Value.map members).Named PlainName) (name : Text) :
    Pairs.get? (Dotted.columnMark ++ name) (Value.map members).flatten = none := by
  rw [Pairs.get?_eq_none, Value.flatten_eq_pathKeys hv (hn.mono fun _ h => h.1) rfl]
  intro hmem
  obtain ⟨e, he, hkey⟩ := List.mem_map.1 hmem
  obtain ⟨l, hl, rfl⟩ := List.mem_map.1 he
  have hhead : l.1.head? = some Dotted.columnName :=
    head?_of_after? (Value.path_ne_nil hv rfl hl) (after?_eq_some.2 hkey)
  exact (hn.of_path plainName_natText hl _ (List.mem_of_head? hhead)).2.2.2 rfl

/-- **A column** holds the scalars under `value`, in the order of the records and without nulls, of
the records whose scalar under `key` is written as its name. Nothing else in the document or in the
records counts. -/
theorem extract_column [Host] (hv : (Value.map members).Keyed)
    (hn : (Value.map members).Named PlainName)
    (hrecords : Pairs.get? base members = some (.list (records.map .map)))
    (hbase : Pairs.get? ("fields" : Text) params = some (.str base))
    (hkey : Pairs.get? ("fields.key" : Text) params = some (.str key))
    (hvalue : Pairs.get? ("fields.value" : Text) params = some (.str value))
    (hne : key ≠ []) (hkeyPoint : '.' ∉ key) (hvaluePoint : '.' ∉ value) (name : Text)
    (context : Option Found) :
    ∃ b, Backend.ofDocument .jsdot (.data (.map members)) (columnsOf params) = .ok b ∧
      b.extract (Dotted.columnMark ++ name) context =
        ((records.filter fun r => Columns.column? key r = some name).filterMap
          (Columns.cell? value)).map .value := by
  refine ⟨.dotted (.ofDocument (.map members) (columnsOf params)), rfl, ?_⟩
  have hplain : PlainName base := hn.of_part plainName_natText (Pairs.mem_of_get? hrecords)
  have hlookup : (Dotted.ofDocument (.map members) (columnsOf params)).lookup
      (Dotted.columnMark ++ name) = (Pairs.get? name (Columns.gather (records.filterMap fun r =>
        (Columns.column? key r).bind fun n =>
          (Columns.scalar? value r).map fun v => (n, v)))).getD [] := by
    unfold Dotted.lookup Dotted.ofDocument
    simp only [get?_columnMark hv hn, after?_eq_some.2 rfl,
      columnsOf_eq hplain.1 hbase hkey hvalue,
      Columns.read_flatten hv hn hrecords hne hkeyPoint hvaluePoint]
  have hne : Dotted.columnMark ++ name ≠ [] := List.append_ne_nil_of_left_ne_nil (by decide) name
  rw [extract_key hne, hlookup, Columns.getD_gather, Columns.filter_cells]
  rfl

/-- Records in which a member of another kind stands for the key or the value. -/
def titles : List (Pairs Text Value) := [
  [("key", .str "title"), ("value", .str "Germinal"), ("note", .map [("key", .str "x")])],
  [("key", .map [("en", .str "title")]), ("value", .str "lost")],
  [],
  [("value", .null), ("key", .str "title")],
  [("value", .int 7), ("key", .str "title")]]

/-- The records beside a list whose name goes on. -/
def library : Pairs Text Value := [
  ("metadata2", .list [.map [("key", .str "title"), ("value", .str "other")]]),
  ("metadata", .list (titles.map .map))]

/-- Where the records of the library stand, and which of their members count. -/
def libraryParams : Pairs Text Value :=
  [("fields", .str "metadata"), ("fields.key", .str "key"), ("fields.value", .str "value")]

theorem extract_column_library : (Value.map library).Keyed ∧ (Value.map library).Named PlainName ∧
    ∃ b, Backend.ofDocument .jsdot (.data (.map library)) (columnsOf libraryParams) = .ok b ∧
      b.extract "fields[].title" none = [.value (.str "Germinal"), .value (.int 7)] := by
  have hv : (Value.map library).Keyed := by decide
  have hn : (Value.map library).Named PlainName := by decide
  have hrecords : Pairs.get? ("metadata" : Text) library = some (.list (titles.map .map)) := rfl
  have hbase : Pairs.get? ("fields" : Text) libraryParams = some (.str "metadata") := rfl
  have hkey : Pairs.get? ("fields.key" : Text) libraryParams = some (.str "key") := rfl
  have hvalue : Pairs.get? ("fields.value" : Text) libraryParams = some (.str "value") := rfl
  exact ⟨hv, hn, extract_column hv hn hrecords hbase hkey hvalue (by decide) (by decide) (by decide)
    "title" none⟩

end Backend
end Crosswalk
