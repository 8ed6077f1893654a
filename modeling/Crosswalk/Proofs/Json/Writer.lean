import Crosswalk.Json.Writer
import Crosswalk.Proofs.Number.Digits

/-!
# Json is read in one way

Two values that are written alike are the same value, whatever follows them:

    write style v ++ a = write style w ++ b → v = w ∧ a = b                  (write_append)

where `a` and `b` are empty or go on with a mark (`Ended`). Binary numbers are left out: of them
the text alone tells no value (`isExact`).
-/

namespace Crosswalk.Json

open Text

/-! ## Characters -/

theorem codeText_append {m n : Nat} (hm : m < 65536) (hn : n < 65536) {a b : Text}
    (h : codeText m ++ a = codeText n ++ b) : m = n ∧ a = b := by
  have htail : Value.hexText m 4 ++ a = Value.hexText n 4 ++ b :=
    (List.cons.inj (List.cons.inj h).2).2
  obtain ⟨hhex, hab⟩ := List.append_inj htail (by rw [length_hexText hm, length_hexText hn])
  exact ⟨hexText_injective hhex, hab⟩

/-- The letters that stand for characters behind a backslash. -/
def escapes : List (Char × Char) := [
  ('"', '"'), ('\\', '\\'), ('\n', 'n'), ('\r', 'r'), ('\t', 't'), (Char.ofNat 8, 'b'),
  (Char.ofNat 12, 'f')]

/-- How a character may be written: as itself, by a letter, by its code, or by two codes. -/
inductive Spelling (c : Char) : Text → Prop
  | itself (hquote : c ≠ '"') (hslash : c ≠ '\\') : Spelling c [c]
  | letter {e : Char} (h : (c, e) ∈ escapes) : Spelling c ['\\', e]
  | code (h : c.toNat < 65536) : Spelling c (codeText c.toNat)
  | codes (h : 65536 ≤ c.toNat) : Spelling c
      (codeText (0xD800 + (c.toNat - 0x10000) / 1024) ++
        codeText (0xDC00 + (c.toNat - 0x10000) % 1024))

theorem spelling_charText (ascii : Bool) (c : Char) : Spelling c (charText ascii c) := by
  have hletter : ∀ {n : Nat} {e : Char}, (Char.ofNat n, e) ∈ escapes → c.toNat = n →
      Spelling c ['\\', e] := by
    rintro n e h rfl
    rw [Char.ofNat_toNat] at h
    exact .letter h
  unfold charText
  dsimp only
  split
  · next h => exact h ▸ .letter (by decide)
  next hquote =>
  split
  · next h => exact h ▸ .letter (by decide)
  next hslash =>
  split
  · next h => exact h ▸ .letter (by decide)
  split
  · next h => exact h ▸ .letter (by decide)
  split
  · next h => exact h ▸ .letter (by decide)
  split
  · next h => exact hletter (by decide) h
  split
  · next h => exact hletter (by decide) h
  split
  · exact .code (by omega)
  split
  · split
    · next h => exact .code h
    · next h => exact .codes (by omega)
  · exact .itself hquote hslash

namespace Spelling

variable {c d : Char} {s t a b : Text}

theorem ne_quote (h : Spelling c s) : s ++ a ≠ '"' :: b := by
  intro e
  cases h with
  | itself hquote => exact hquote (List.cons.inj e).1
  | letter => cases (List.cons.inj e).1
  | code => cases (List.cons.inj e).1
  | codes => cases (List.cons.inj e).1

/-- No character has the code of a half of another one. -/
theorem toNat_ne_half (c : Char) {k : Nat} (hk : k < 2048) : c.toNat ≠ 0xD800 + k := by
  intro h
  have hvalid : c.toNat < 0xD800 ∨ 0xDFFF < c.toNat ∧ c.toNat < 0x110000 := c.valid
  omega

theorem toNat_lt (c : Char) : c.toNat < 0x110000 := by
  have hvalid : c.toNat < 0xD800 ∨ 0xDFFF < c.toNat ∧ c.toNat < 0x110000 := c.valid
  omega

theorem letter_ne_u {e : Char} (h : (c, e) ∈ escapes) : e ≠ 'u' := by
  rintro rfl
  have hnone : ∀ p ∈ escapes, p.2 ≠ 'u' := by decide
  exact hnone _ h rfl

theorem letter_injective {e : Char} (hc : (c, e) ∈ escapes) (hd : (d, e) ∈ escapes) : c = d := by
  have hall : ∀ p ∈ escapes, ∀ q ∈ escapes, p.2 = q.2 → p.1 = q.1 := by decide
  exact hall _ hc _ hd rfl

/-- A text written by letter goes on with the letter, one by code with `u`. -/
theorem letter_ne_code {e : Char} (h : (c, e) ∈ escapes) {n : Nat} :
    ['\\', e] ++ a ≠ codeText n ++ b := fun he =>
  letter_ne_u h (List.cons.inj (List.cons.inj he).2).1

theorem code_ne_codes (d : Char) {k : Nat} :
    codeText c.toNat ++ a ≠
      codeText (0xD800 + (d.toNat - 0x10000) / 1024) ++ codeText k ++ b ∨ 65536 ≤ c.toNat := by
  by_cases hc : c.toNat < 65536
  · refine .inl fun e => ?_
    have hd := toNat_lt d
    rw [List.append_assoc] at e
    exact toNat_ne_half c (by omega) (codeText_append hc (by omega) e).1
  · exact .inr (by omega)

/-- **A character** is known by any of its spellings. -/
theorem append (h : Spelling c s) (h' : Spelling d t) (e : s ++ a = t ++ b) : c = d ∧ a = b := by
  cases h with
  | itself _ hc =>
    cases h' with
    | itself => exact List.cons.inj e
    | letter => exact absurd (List.cons.inj e).1 hc
    | code => exact absurd (List.cons.inj e).1 hc
    | codes => exact absurd (List.cons.inj e).1 hc
  | letter hc =>
    cases h' with
    | itself _ hd => exact absurd (List.cons.inj e).1.symm hd
    | letter hd =>
      obtain ⟨rfl, rfl⟩ := List.cons.inj (List.cons.inj e).2
      exact ⟨letter_injective hc hd, rfl⟩
    | code => exact absurd e (letter_ne_code hc)
    | codes =>
      rw [List.append_assoc] at e
      exact absurd e (letter_ne_code hc)
  | code hc =>
    cases h' with
    | itself _ hd => exact absurd (List.cons.inj e).1.symm hd
    | letter hd => exact absurd e.symm (letter_ne_code hd)
    | code hd =>
      obtain ⟨hcode, rfl⟩ := codeText_append hc hd e
      exact ⟨Char.toNat_inj.1 hcode, rfl⟩
    | codes => exact absurd e ((code_ne_codes d).resolve_right (by omega))
  | codes hc =>
    cases h' with
    | itself _ hd => exact absurd (List.cons.inj e).1.symm hd
    | letter hd =>
      rw [List.append_assoc] at e
      exact absurd e.symm (letter_ne_code hd)
    | code hd => exact absurd e.symm ((code_ne_codes c).resolve_right (by omega))
    | codes hd =>
      have hcl := toNat_lt c
      have hdl := toNat_lt d
      rw [List.append_assoc, List.append_assoc] at e
      obtain ⟨hhigh, e⟩ := codeText_append (by omega) (by omega) e
      obtain ⟨hlow, rfl⟩ := codeText_append (by omega) (by omega) e
      exact ⟨Char.toNat_inj.1 (by omega), rfl⟩

end Spelling

/-! ## Strings -/

theorem charTexts_append {ascii : Bool} {s t a b : Text}
    (h : s.flatMap (charText ascii) ++ '"' :: a = t.flatMap (charText ascii) ++ '"' :: b) :
    s = t ∧ a = b := by
  induction s generalizing t with
  | nil =>
    cases t with
    | nil => exact ⟨rfl, (List.cons.inj h).2⟩
    | cons d t =>
      rw [List.flatMap_cons, List.append_assoc] at h
      exact absurd h.symm (spelling_charText ascii d).ne_quote
  | cons c s ih =>
    cases t with
    | nil =>
      rw [List.flatMap_cons, List.append_assoc] at h
      exact absurd h (spelling_charText ascii c).ne_quote
    | cons d t =>
      rw [List.flatMap_cons, List.flatMap_cons, List.append_assoc, List.append_assoc] at h
      obtain ⟨rfl, htail⟩ := (spelling_charText ascii c).append (spelling_charText ascii d) h
      obtain ⟨rfl, rfl⟩ := ih htail
      exact ⟨rfl, rfl⟩

theorem stringText_append {ascii : Bool} {s t a b : Text}
    (h : stringText ascii s ++ a = stringText ascii t ++ b) : s = t ∧ a = b := by
  unfold stringText at h
  rw [List.cons_append, List.cons_append, List.append_assoc, List.append_assoc] at h
  exact charTexts_append (List.cons.inj h).2

/-! ## Values -/

mutual

/-- Whether no binary number is in the value. -/
def isExact : Value → Bool
  | .float _ => false
  | .list items => areExact items
  | .map members => membersExact members
  | _ => true

def areExact : List Value → Bool
  | [] => true
  | v :: vs => isExact v && areExact vs

def membersExact : List (Text × Value) → Bool
  | [] => true
  | (_, v) :: ms => isExact v && membersExact ms

end

inductive Kind where
  | null
  | bool
  | int
  | float
  | str
  | list
  | map
  deriving DecidableEq

def kindOf : Value → Kind
  | .null => .null
  | .bool _ => .bool
  | .int _ => .int
  | .float _ => .float
  | .str _ => .str
  | .list _ => .list
  | .map _ => .map

/-- The kind of a value by its first character. -/
def kindAt? (c : Char) : Option Kind :=
  if c = 'n' then some .null
  else if c = 't' ∨ c = 'f' then some .bool
  else if c = '-' ∨ c.isDigit then some .int
  else if c = '"' then some .str
  else if c = '[' then some .list
  else if c = '{' then some .map
  else none

theorem kindAt?_of_isDigit {c : Char} (h : c.isDigit = true) : kindAt? c = some .int := by
  have hne : ∀ d : Char, d.isDigit = false → c ≠ d := by
    rintro d hd rfl
    rw [h] at hd
    cases hd
  unfold kindAt?
  rw [if_neg (hne 'n' (by decide)),
    if_neg (not_or.2 ⟨hne 't' (by decide), hne 'f' (by decide)⟩), if_pos (.inr h)]

theorem kindAt?_write (style : Style) {v : Value} (hv : isExact v = true) :
    ∃ c s, write style v = c :: s ∧ kindAt? c = some (kindOf v) := by
  cases v with
  | null => exact ⟨'n', _, rfl, by decide⟩
  | bool b =>
    cases b with
    | false => exact ⟨'f', _, rfl, by decide⟩
    | true => exact ⟨'t', _, rfl, by decide⟩
  | int n =>
    cases n with
    | ofNat i =>
      obtain ⟨d, ds, h, hd⟩ := natText_eq i
      exact ⟨d, ds, h, kindAt?_of_isDigit hd⟩
    | negSucc i => exact ⟨'-', _, rfl, rfl⟩
  | float x => cases hv
  | str s => exact ⟨'"', _, rfl, rfl⟩
  | list items => exact ⟨'[', _, rfl, rfl⟩
  | map members => exact ⟨'{', _, rfl, rfl⟩

/-- Values that are written alike are of one kind. -/
theorem kindOf_eq {style : Style} {v w : Value} (hv : isExact v = true) (hw : isExact w = true)
    {a b : Text} (h : write style v ++ a = write style w ++ b) : kindOf v = kindOf w := by
  obtain ⟨c, s, hc, hvc⟩ := kindAt?_write style hv
  obtain ⟨d, t, hd, hwd⟩ := kindAt?_write style hw
  rw [hc, hd] at h
  rw [(List.cons.inj h).1, hwd] at hvc
  exact (Option.some.inj hvc).symm

theorem write_ne_close {style : Style} {v : Value} (hv : isExact v = true) {a b : Text} {c : Char}
    (hc : kindAt? c = none) : write style v ++ a ≠ c :: b := by
  intro h
  obtain ⟨d, s, hd, hvd⟩ := kindAt?_write style hv
  rw [hd] at h
  rw [(List.cons.inj h).1, hc] at hvd
  cases hvd

/-- What may follow a value: nothing, a comma or a closing bracket. -/
def Ended (s : Text) : Prop := s.head?.all (fun c => c == ',' || c == ']' || c == '}') = true

theorem Ended.undigited {s : Text} (h : Ended s) : Undigited s := by
  cases s with
  | nil => rfl
  | cons c s =>
    simp only [Ended, List.head?_cons, Option.all_some, Bool.or_eq_true, beq_iff_eq] at h
    rcases h with (rfl | rfl) | rfl <;> rfl

/-- What follows the first one of several items. -/
def itemsAfter (style : Style) : List Value → Text
  | [] => []
  | v :: vs => style.itemMark ++ writeItems style (v :: vs)

def membersAfter (style : Style) : List (Text × Value) → Text
  | [] => []
  | m :: ms => style.itemMark ++ writeMembers style (m :: ms)

theorem writeItems_cons (style : Style) (v : Value) (vs : List Value) :
    writeItems style (v :: vs) = write style v ++ itemsAfter style vs := by
  cases vs with
  | nil => rw [writeItems, itemsAfter, List.append_nil]
  | cons w vs => rw [writeItems, itemsAfter, List.append_assoc]

theorem writeMembers_cons (style : Style) (k : Text) (v : Value) (ms : List (Text × Value)) :
    writeMembers style ((k, v) :: ms) =
      stringText style.ascii k ++ (style.nameMark ++ (write style v ++ membersAfter style ms)) := by
  cases ms with
  | nil => simp [writeMembers, membersAfter]
  | cons m ms => simp [writeMembers, membersAfter]

section

variable {style : Style}

theorem ended_itemsAfter (hmark : style.itemMark.head? = some ',') (vs : List Value) (a : Text) :
    Ended (itemsAfter style vs ++ ']' :: a) := by
  cases vs with
  | nil => rfl
  | cons v vs =>
    obtain ⟨m, hm⟩ := List.head?_eq_some_iff.1 hmark
    rw [itemsAfter, hm]
    rfl

theorem ended_membersAfter (hmark : style.itemMark.head? = some ',') (ms : List (Text × Value))
    (a : Text) : Ended (membersAfter style ms ++ '}' :: a) := by
  cases ms with
  | nil => rfl
  | cons m ms =>
    obtain ⟨m, hm⟩ := List.head?_eq_some_iff.1 hmark
    rw [membersAfter, hm]
    rfl

/-- Between two items stands no closing bracket. -/
theorem mark_ne_close (hmark : style.itemMark.head? = some ',') {s a b : Text} {c : Char}
    (hc : c ≠ ',') : style.itemMark ++ s ++ a ≠ c :: b := by
  obtain ⟨m, hm⟩ := List.head?_eq_some_iff.1 hmark
  intro h
  rw [hm] at h
  exact hc (List.cons.inj h).1.symm

mutual

/-- **A value** is known by its text. -/
theorem write_append (hmark : style.itemMark.head? = some ',') : (v : Value) → {w : Value} →
    isExact v = true → isExact w = true → {a b : Text} → Ended a → Ended b →
    write style v ++ a = write style w ++ b → v = w ∧ a = b
  | .null, w, hv, hw, a, b, ha, hb, h => by
    have hkind := kindOf_eq hv hw h
    cases w <;> cases hkind
    exact ⟨rfl, List.append_cancel_left h⟩
  | .bool c, w, hv, hw, a, b, ha, hb, h => by
    have hkind := kindOf_eq hv hw h
    cases w with
    | bool d =>
      cases c <;> cases d
      · exact ⟨rfl, List.append_cancel_left h⟩
      · exact absurd (List.cons.inj h).1 (by decide)
      · exact absurd (List.cons.inj h).1 (by decide)
      · exact ⟨rfl, List.append_cancel_left h⟩
    | _ => cases hkind
  | .int n, w, hv, hw, a, b, ha, hb, h => by
    have hkind := kindOf_eq hv hw h
    cases w <;> cases hkind
    obtain ⟨rfl, rfl⟩ := intText_append ha.undigited hb.undigited h
    exact ⟨rfl, rfl⟩
  | .float x, w, hv, hw, a, b, ha, hb, h => by cases hv
  | .str s, w, hv, hw, a, b, ha, hb, h => by
    have hkind := kindOf_eq hv hw h
    cases w <;> cases hkind
    obtain ⟨rfl, rfl⟩ := stringText_append h
    exact ⟨rfl, rfl⟩
  | .list vs, w, hv, hw, a, b, ha, hb, h => by
    have hkind := kindOf_eq hv hw h
    cases w with
    | list ws =>
      simp only [write, List.cons_append, List.append_assoc, List.nil_append] at h
      obtain ⟨rfl, rfl⟩ := writeItems_append hmark vs hv hw (List.cons.inj h).2
      exact ⟨rfl, rfl⟩
    | _ => cases hkind
  | .map ms, w, hv, hw, a, b, ha, hb, h => by
    have hkind := kindOf_eq hv hw h
    cases w with
    | map ns =>
      simp only [write, List.cons_append, List.append_assoc, List.nil_append] at h
      obtain ⟨rfl, rfl⟩ := writeMembers_append hmark ms hv hw (List.cons.inj h).2
      exact ⟨rfl, rfl⟩
    | _ => cases hkind

theorem writeItems_append (hmark : style.itemMark.head? = some ',') : (vs : List Value) →
    {ws : List Value} → areExact vs = true → areExact ws = true → {a b : Text} →
    writeItems style vs ++ ']' :: a = writeItems style ws ++ ']' :: b → vs = ws ∧ a = b
  | [], ws, hvs, hws, a, b, h => by
    cases ws with
    | nil => exact ⟨rfl, (List.cons.inj h).2⟩
    | cons w ws =>
      rw [writeItems_cons, List.append_assoc] at h
      exact absurd h.symm (write_ne_close (Bool.and_eq_true_iff.1 hws).1 (by decide))
  | v :: vs, ws, hvs, hws, a, b, h => by
    obtain ⟨hv, hvtail⟩ := Bool.and_eq_true_iff.1 hvs
    rw [writeItems_cons, List.append_assoc] at h
    cases ws with
    | nil => exact absurd h (write_ne_close hv (by decide))
    | cons w ws =>
      obtain ⟨hw, hwtail⟩ := Bool.and_eq_true_iff.1 hws
      rw [writeItems_cons, List.append_assoc] at h
      obtain ⟨rfl, htail⟩ := write_append hmark v hv hw (ended_itemsAfter hmark vs a)
        (ended_itemsAfter hmark ws b) h
      match vs, ws, hvtail, hwtail, htail with
      | [], [], _, _, htail => exact ⟨rfl, (List.cons.inj htail).2⟩
      | [], w' :: ws, _, _, htail => exact absurd htail.symm (mark_ne_close hmark (by decide))
      | v' :: vs, [], _, _, htail => exact absurd htail (mark_ne_close hmark (by decide))
      | v' :: vs, w' :: ws, hvs, hws, htail =>
        rw [itemsAfter, itemsAfter, List.append_assoc, List.append_assoc] at htail
        obtain ⟨hcons, rfl⟩ := writeItems_append hmark (v' :: vs) hvs hws (List.append_cancel_left htail)
        exact ⟨by rw [hcons], rfl⟩

theorem writeMembers_append (hmark : style.itemMark.head? = some ',') :
    (ms : List (Text × Value)) → {ns : List (Text × Value)} →
    membersExact ms = true → membersExact ns = true → {a b : Text} →
    writeMembers style ms ++ '}' :: a = writeMembers style ns ++ '}' :: b → ms = ns ∧ a = b
  | [], ns, hms, hns, a, b, h => by
    cases ns with
    | nil => exact ⟨rfl, (List.cons.inj h).2⟩
    | cons n ns =>
      obtain ⟨l, w⟩ := n
      rw [writeMembers_cons] at h
      exact absurd (List.cons.inj h).1 (by decide)
  | (k, v) :: ms, ns, hms, hns, a, b, h => by
    obtain ⟨hv, hvtail⟩ := Bool.and_eq_true_iff.1 hms
    rw [writeMembers_cons] at h
    cases ns with
    | nil => exact absurd (List.cons.inj h).1 (by decide)
    | cons n ns =>
      obtain ⟨l, w⟩ := n
      obtain ⟨hw, hwtail⟩ := Bool.and_eq_true_iff.1 hns
      rw [writeMembers_cons, List.append_assoc, List.append_assoc, List.append_assoc,
        List.append_assoc, List.append_assoc, List.append_assoc] at h
      obtain ⟨rfl, hvalue⟩ := stringText_append h
      obtain ⟨rfl, htail⟩ := write_append hmark v hv hw (ended_membersAfter hmark ms a)
        (ended_membersAfter hmark ns b) (List.append_cancel_left hvalue)
      match ms, ns, hvtail, hwtail, htail with
      | [], [], _, _, htail => exact ⟨rfl, (List.cons.inj htail).2⟩
      | [], n' :: ns, _, _, htail => exact absurd htail.symm (mark_ne_close hmark (by decide))
      | m' :: ms, [], _, _, htail => exact absurd htail (mark_ne_close hmark (by decide))
      | m' :: ms, n' :: ns, hms, hns, htail =>
        rw [membersAfter, membersAfter, List.append_assoc, List.append_assoc] at htail
        obtain ⟨hcons, rfl⟩ := writeMembers_append hmark (m' :: ms) hms hns
          (List.append_cancel_left htail)
        exact ⟨by rw [hcons], rfl⟩

end

end

end Crosswalk.Json
